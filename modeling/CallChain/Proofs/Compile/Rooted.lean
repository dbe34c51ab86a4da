import CallChain.Proofs.Compile.Paths
import CallChain.Proofs.Http.Address
import CallChain.Proofs.Tool.Trace

/-!
# Compiled tools and the services they call

Nothing that is compiled has to start its path with a slash: a path template is taken as it is, and
only its holes are checked. So whether the calls of a tool stay at their service is a matter of its
templates. The values are not in the way: a slash at the beginning of a template is never replaced
(`CallChain.ToolStep.rooted_of_request`), and no slash comes from a value
(`CallChain.PathTemplate.rooted_fill_iff`). What is left are the holes before the first slash, which
stand for nothing when their texts are empty.

`CallChain.Tool.Compiled.stays_laws` says this for every call of every run, and
`CallChain.Stray.call_leaves` is a tool whose call goes to another host.
-/

set_option autoImplicit false

namespace CallChain

open Exchange (bodyBefore)
open PathTemplate (Part parts fill)

/-! ### The first character of a path -/

/-- A slash at the beginning belongs to no placeholder, so it stays. -/
theorem Text.rooted_replaceAll {name : String} {new text : List Char} (h : Rooted text) :
    Rooted (Text.replaceAll (ToolStep.placeholder name) new text) := by
  obtain ⟨rest, rfl⟩ := h
  rw [Text.replaceAll, if_neg (by simp [ToolStep.placeholder])]
  exact ⟨_, rfl⟩

namespace PathTemplate

/-- A hole that stands for nothing. -/
def Part.isBlank (text : String → List Char) : Part → Bool
  | .kept _ => false
  | .hole name => (text name).isEmpty

/-- **A filled template starts with a slash** exactly if a slash is its first part but for holes
that stand for nothing, when no slash is in the texts. -/
theorem rooted_fill_iff {text : String → List Char} (htext : ∀ name, '/' ∉ text name)
    (ps : List Part) :
    Rooted (fill text ps) ↔ (ps.dropWhile (Part.isBlank text)).head? = some (.kept '/') := by
  induction ps with
  | nil => simp [fill, Rooted]
  | cons p rest ih =>
    cases p with
    | kept c =>
      rw [fill_kept, List.dropWhile_cons_of_neg (by simp [Part.isBlank])]
      simp [Rooted]
    | hole name =>
      rw [fill_hole]
      rcases hname : text name with _ | ⟨c, more⟩
      · rw [List.nil_append, ih, List.dropWhile_cons_of_pos (by simp [Part.isBlank, hname])]
      · have hc : c ≠ '/' := fun he => htext name (hname ▸ he ▸ List.mem_cons_self)
        rw [List.dropWhile_cons_of_neg (by simp [Part.isBlank, hname])]
        simp [Rooted, hc]

end PathTemplate

namespace ToolStep

variable {s : ToolStep} {step : ℕ} {input : Json} {previous? : Option Json} {request : Request}

theorem rooted_place {p : Parameter} {v : Json} {d : Draft} (h : Rooted d.path) :
    Rooted (place p v d).path := by
  cases hlocation : p.location with
  | path => simpa [place, hlocation] using Text.rooted_replaceAll h
  | query => cases v <;> simpa [place, hlocation] using h
  | body => simpa [place, hlocation] using h

/-- **A template that starts with a slash leads to paths that do**, whatever the values are. -/
theorem rooted_of_request (h : Rooted s.path.toList)
    (hrequest : s.request step input previous? = .ok request) : Rooted request.path.toList := by
  obtain ⟨values, d, -, hplace, -, rfl⟩ := request_eq_ok_iff.mp hrequest
  rw [String.toList_ofList]
  exact @placeAll_induction (fun _ d => Rooted d.path) step values [] s.parameters _ d
    (fun _ _ _ _ _ _ hd => rooted_place hd) (fun _ _ _ _ _ _ hd => hd) h hplace

/-- **A path starts with a slash exactly if its template does**, but for holes before the slash
whose texts are empty. -/
theorem rooted_iff_of_request (hnames : s.NamesPlain) (hholes : s.DeclaresHoles)
    (hrequest : s.request step input previous? = .ok request) :
    ∃ values, s.values step input previous? = .ok values ∧
      (Rooted request.path.toList ↔
        ((parts s.path.toList).dropWhile (Part.isBlank (pathText values))).head? =
          some (.kept '/')) := by
  obtain ⟨values, hvalues, haddresses⟩ := addresses_of_request hnames hholes hrequest
  refine ⟨values, hvalues, ?_⟩
  rw [haddresses.path]
  exact PathTemplate.rooted_fill_iff (fun name => not_mem_pathText values name (by decide)) _

end ToolStep

/-! ### The calls of a run -/

/-- **When the calls of a compiled tool stay at their service.** Let the service be rooted at a base
address. In every run, whatever is answered, every call is the request of a step of the tool. It
stays at the service when the path template of the step starts with a slash. When no parameter of
the step has a brace in its name, it does so exactly if the template starts with a slash but for
holes whose values have empty texts. -/
theorem Tool.Compiled.stays_laws {σ : Type} {t : Tool} (h : t.Compiled) (b : BaseAddress)
    (exchange : Message → Except String (UInt16 × ByteArray)) (call : Call (StateM σ))
    (input : Json) (state : σ) :
    ∃ (outcome : Except ToolError Json) (state' : σ) (log : List Exchange),
      (t.invoke call input).run state = (outcome, state') ∧
      (t.invoke call.logged input).run (state, []) = (outcome, state', log) ∧
      ∀ i x, log[i]? = some x → ∃ s : ToolStep, t.steps[i]? = some s ∧
        (Rooted s.path.toList → (LiveService.mk b.text exchange).Stays b x.request) ∧
        (s.NamesPlain → ∃ values, s.values i input (bodyBefore log i) = .ok values ∧
          ((LiveService.mk b.text exchange).Stays b x.request ↔
            ((parts s.path.toList).dropWhile (Part.isBlank (ToolStep.pathText values))).head? =
              some (.kept '/'))) := by
  obtain ⟨outcome, state', log, hrun, hlogged, hends⟩ := t.exists_ends_invoke call input state
  refine ⟨outcome, state', log, hrun, hlogged, fun i x hx => ?_⟩
  obtain ⟨s, hs, hrequest⟩ := hends.requested i x hx
  have hstays : (LiveService.mk b.text exchange).Stays b x.request ↔
      Rooted x.request.path.toList := LiveService.stays_iff rfl
  refine ⟨s, hs, fun hrooted => ?_, fun hnames => ?_⟩
  · exact hstays.mpr (ToolStep.rooted_of_request hrooted hrequest)
  · rw [hstays]
    exact ToolStep.rooted_iff_of_request hnames
      (h.declaresHoles (List.mem_of_getElem? hs)) hrequest

/-! ### A template with a slash and one without -/

/-- The address `http://api.example/`. -/
def BaseAddress.sample : BaseAddress where
  scheme := ['h', 't', 't', 'p']
  authority := ['a', 'p', 'i', '.', 'e', 'x', 'a', 'm', 'p', 'l', 'e']
  place := ['/']
  scheme_char := List.forall_iff_forall_mem.mp (by decide)
  authority_ne := by decide
  authority_char := List.forall_iff_forall_mem.mp (by decide)
  place_rooted := Or.inr ⟨[], rfl⟩

/-- A service there that answers nothing. -/
def LiveService.sample : LiveService := ⟨BaseAddress.sample.text, fun _ => .error "down"⟩

namespace Pair

/-- The exchanges of the two calls. -/
def exchanges : List Exchange :=
  [⟨⟨.get, "/items", [("kind", "b")], none⟩, .ok ⟨200, .obj [("id", .str "a")]⟩⟩,
    ⟨⟨.get, "/items/a", [("kind", "b")], none⟩, .ok ⟨200, .obj [("id", .str "a")]⟩⟩]

/-- Both calls stay at the service. -/
theorem stays_laws_exchanges :
    (tool.invoke caller.logged (.obj [("kind", .str "b")])).run (0, []) =
        (.ok (.obj [("id", .str "a")]), 2, exchanges) ∧
      ∀ x ∈ exchanges, LiveService.sample.Stays .sample x.request := by
  have hrun : (tool.invoke caller.logged (.obj [("kind", .str "b")])).run (0, []) =
      (.ok (.obj [("id", .str "a")]), 2, exchanges) := by
    with_unfolding_all rfl
  refine ⟨hrun, ?_⟩
  obtain ⟨outcome, state, log, -, hlogged, hcalls⟩ :=
    Tool.Compiled.stays_laws (.directly compileWith_eq) .sample (fun _ => .error "down") caller
      (.obj [("kind", .str "b")]) 0
  cases hrun.symm.trans hlogged
  have hrooted : ∀ s ∈ tool.steps, Rooted s.path.toList := by
    intro s hs
    simp only [tool, List.mem_cons, List.not_mem_nil, or_false] at hs
    rcases hs with rfl | rfl
    · exact ⟨"items".toList, rfl⟩
    · exact ⟨"items/\x7bid\x7d".toList, rfl⟩
  intro x hx
  obtain ⟨i, hi⟩ := List.mem_iff_getElem?.mp hx
  obtain ⟨s, hs, hstays, -⟩ := hcalls i x hi
  exact hstays (hrooted s (List.mem_of_getElem? hs))

end Pair

namespace Stray

/-- One call. -/
def graph : Graph where
  id := "stray"
  name := "Stray"
  nodes := [⟨"list", "list", []⟩]

/-- The operation, whose path has no slash. -/
def api? : String → Option ApiDefinition
  | "list" => some {
      id := "list"
      method := .get
      path := "items"
      parameters := []
      responses := [("200", .obj [("type", .str "object")])] }
  | _ => none

/-- The tool of the call. -/
def tool : Tool where
  id := .nil
  name := "stray"
  description := "Calls GET items."
  inputSchema := .obj [("properties", .obj []), ("type", .str "object")]
  outputSchema := .obj [("type", .str "object")]
  steps := [
    { nodeId := "list", apiId := "list", method := .get, path := "items", parameters := [] }]

/-- The request of the call. -/
def request : Request := ⟨.get, "items", [], none⟩

/-- **A path without a slash belongs to the host.** The tool is compiled, the input is accepted, and
the call goes to another host. -/
theorem call_leaves :
    graph.compileWith api? .nil = .ok tool ∧
      Schema.conforms tool.inputSchema (.obj []) = .ok () ∧
      (tool.invoke Pair.caller.recorded (.obj [])).run (0, []) =
        (.ok (.obj [("id", .str "a")]), 1, [request]) ∧
      LiveService.sample.url request = "http://api.exampleitems" ∧
      (Url.parse? (LiveService.sample.url request)).map Url.origin =
        some ("http", "api.exampleitems") ∧
      (Url.parse? BaseAddress.sample.text).map Url.origin = some ("http", "api.example") ∧
      ¬LiveService.sample.Stays .sample request := by
  refine ⟨by with_unfolding_all rfl, Schema.isConforming_iff.mp (by decide +kernel),
    by with_unfolding_all rfl, by decide +kernel, by decide +kernel, by decide +kernel, ?_⟩
  rintro ⟨⟨rest, hrest⟩, -⟩
  cases hrest

end Stray

end CallChain
