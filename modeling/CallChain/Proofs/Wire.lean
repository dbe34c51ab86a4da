import CallChain.Proofs.Compile.Wire
import CallChain.Proofs.Verification.Wire

/-!
# Writing and reading are inverse

What a decoder restores and what it yields fit together: a value that is fit to be written is read
as it was, and what was read is fit to be written (`CallChain.Decoder.Inverts`). This holds of
everything that is stored or sent (`CallChain.decoders_invert`): graphs, definitions, plans, tools,
test cases, requests and the answer to a compilation.

Fit to be written is every value that there can be: the members of its free values are in order,
and its paths come from texts and are not empty.
-/

set_option autoImplicit false

namespace CallChain

/-- **A decoder inverts a way of writing.** What is written of a fit value is read as that value;
and whatever is read, in whatever spelling it came, is read again from what is written of it. -/
structure Decoder.Inverts {α : Type} (d : Decoder α) (write : α → Document) (Fit : α → Prop) :
    Prop where
  decode_write : ∀ a, Fit a → decodeValue d (write a).toJson = .ok a
  write_decoded : ∀ j a, decodeValue d j = .ok a → decodeValue d (write a).toJson = .ok a

/-- A decoder that restores fit values and yields no others inverts. -/
theorem Decoder.inverts {α : Type} {d : Decoder α} {write : α → Document} {Fit : α → Prop}
    (hrestores : ∀ a, Fit a → d.Restores (write a) a) (hyields : d.Yields Fit) :
    d.Inverts write Fit where
  decode_write a ha := (hrestores a ha).decodeValue_toJson_eq_ok
  write_decoded _ a ha := (hrestores a (hyields _ _ a ha)).decodeValue_toJson_eq_ok

/-- **All that is stored or sent is read as it was written**, and what was read is read again. -/
theorem decoders_invert :
    Graph.decoder.Inverts Graph.document Graph.Canonical ∧
      ApiDefinition.decoder.Inverts ApiDefinition.document ApiDefinition.Canonical ∧
      Plan.decoder.Inverts Plan.document Plan.Storable ∧
      Tool.decoder.Inverts Tool.document Tool.Storable ∧
      TestCase.decoder.Inverts TestCase.document TestCase.Storable ∧
      CompileRequest.decoder.Inverts CompileRequest.document CompileRequest.Canonical ∧
      CompileResponse.decoder.Inverts CompileResponse.document CompileResponse.Storable ∧
      VerifyRequest.decoder.Inverts VerifyRequest.document VerifyRequest.Storable :=
  ⟨Decoder.inverts (fun _ h => h.restores) Graph.yields_decoder,
    Decoder.inverts (fun _ h => h.restores) ApiDefinition.yields_decoder,
    Decoder.inverts (fun _ h => h.restores) Plan.yields_decoder,
    Decoder.inverts (fun _ h => h.restores) Tool.yields_decoder,
    Decoder.inverts (fun _ h => h.restores) TestCase.yields_decoder,
    Decoder.inverts (fun _ h => h.restores) CompileRequest.yields_decoder,
    Decoder.inverts (fun _ h => h.restores) CompileResponse.yields_decoder,
    Decoder.inverts (fun _ h => h.restores) VerifyRequest.yields_decoder⟩

/-- A tool that passes an item of an answer on. -/
def Tool.relay : Tool where
  id := .nil
  name := "relay"
  description := "Calls GET /list, then POST /items."
  inputSchema := .obj []
  outputSchema := .null
  steps :=
    [{ nodeId := "list", apiId := "list", method := .get, path := "/list", parameters := [] },
      { nodeId := "add", apiId := "add", method := .post, path := "/items",
        parameters := [{ name := "items", location := .body, schema := .null }],
        overrides := [("dry", .bool false)],
        mappings := [⟨[.field "items", .index 7], [.field "items"]⟩] }]

theorem Tool.storable_relay : relay.Storable where
  inputSchema := Json.canonical_obj_nil
  outputSchema := trivial
  steps := by
    have hsource : FieldPath.parse "items[7]" = .ok [.field "items", .index 7] :=
      FieldPath.parse_eq_ok_iff.mpr ⟨[.items, .seven], by decide, by decide, rfl⟩
    have htarget : FieldPath.parse "items" = .ok [.field "items"] :=
      FieldPath.parse_eq_ok_iff.mpr ⟨[.items], by decide, by decide, rfl⟩
    refine List.forall_mem_cons.mpr ⟨⟨nofun, Json.canonical_obj_nil, nofun⟩,
      List.forall_mem_singleton.mpr ⟨?_, ?_, ?_⟩⟩
    · exact List.forall_mem_singleton.mpr trivial
    · exact ⟨List.pairwise_singleton _ _, trivial, trivial⟩
    · exact List.forall_mem_singleton.mpr
        ⟨⟨.parsed hsource, List.cons_ne_nil _ _⟩, .parsed htarget, List.cons_ne_nil _ _⟩

/-- Null as an input, null as what is expected, and nothing expected at all stay apart. -/
theorem decoders_invert_relay :
    let request : VerifyRequest :=
      ⟨Tool.relay, [{}, { input := .null, expected? := some (.equals .null) }]⟩
    decodeValue VerifyRequest.decoder request.document.toJson = .ok request := by
  obtain ⟨-, -, -, -, -, -, -, hrequests⟩ := decoders_invert
  refine hrequests.decode_write _ ⟨Tool.storable_relay, ?_⟩
  exact List.forall_mem_cons.mpr ⟨⟨Json.canonical_obj_nil, nofun⟩,
    List.forall_mem_singleton.mpr ⟨trivial, by rintro _ ⟨⟩; trivial⟩⟩

end CallChain
