import CallChain.Proofs.Path.Writing
import CallChain.Proofs.Result
import CallChain.Proofs.Tool.Values

/-!
# How values come about and where they go

The mappings of a call write into one object, one after another, and each of them may find what an
earlier one has left there. Still every parameter has a history of its own: a target that starts
with a name writes inside the member of this name, and looks at no other member
(`CallChain.FieldPath.write?_of_headField?`). So the object can be taken apart. The value of a name
is what the mappings to this name, taken alone, make of the value that it has before any mapping
(`CallChain.ToolStep.assembled?`), and the mappings can be applied when this works out for every
name (`CallChain.ToolStep.applyMappings_cases`).

From there each value goes to one place of the request, which is said for the query and for the
body in `CallChain.ToolStep.Carries`.
-/

set_option autoImplicit false

namespace CallChain

theorem Json.isNull_iff {j : Json} : j.isNull = true ↔ j = .null := by
  cases j <;> simp [isNull]

/-! ### Writing inside a member -/

namespace FieldPath

variable {p : FieldPath} {part root after : Json}

/-- **A value with a part written at a path**, if the part can be written there. -/
def write? (p : FieldPath) (part root : Json) : Option Json :=
  match p.inject part root with
  | (after, none) => some after
  | (_, some _) => none

theorem write?_eq_some_iff :
    p.write? part root = some after ↔ p.inject part root = (after, none) := by
  rw [write?]
  rcases p.inject part root with ⟨left, _ | e⟩
  · simp
  · simp

theorem write?_eq_none_iff :
    p.write? part root = none ↔ ∃ left e, p.inject part root = (left, some e) := by
  rw [write?]
  rcases p.inject part root with ⟨left, _ | e⟩
  · simp
  · simp

/-- **A target that starts with a name writes the rest of its path inside the member**, whatever the
other members are. A member that is not there counts as null. -/
theorem write?_of_headField? {name : String} (h : p.headField? = some name) (part : Json)
    (members : Members) :
    p.write? part (.obj members) =
      (p.tail.write? part ((Entries.get? members name).getD .null)).map fun inner =>
        .obj (Entries.insert name inner members) := by
  rcases p with _ | ⟨⟨field⟩ | ⟨i⟩, rest⟩
  · cases h
  · cases h
    ext after
    rw [write?_eq_some_iff, inject, injectFrom_cons_iff, Option.map_eq_some_iff]
    refine exists_congr fun inner => and_congr ?_ ?_
    · rw [write?_eq_some_iff, inject]
      exact injectFrom_eq_iff
    · rw [Segment.put?, Json.asMembers?, Option.map_some, Option.some_inj]
  · cases h

end FieldPath

namespace ToolStep

variable {s : ToolStep} {input response : Json} {name : String} {members : Members}
  {mappings : List ParsedMapping}

/-! ### One name at a time -/

/-- **Writes parts of a response into one value**, mapping by mapping; the name that a target starts
with is left out. -/
def writeParts? (response : Json) : List ParsedMapping → Json → Option Json
  | [], v => some v
  | m :: rest, v =>
    (m.source.extract response).bind fun part =>
      (m.target.tail.write? part v).bind (writeParts? response rest)

/-- The mappings to a name, in order. -/
def mappingsTo (name : String) (mappings : List ParsedMapping) : List ParsedMapping :=
  mappings.filter (·.target.headField? == some name)

/-- **The value of a name before any mapping**: what the call fixes, else what the input has for a
parameter, else null. -/
def baseValue (s : ToolStep) (input : Json) (name : String) : Json :=
  match Entries.get? s.overrides name with
  | some v => v
  | none => if ∃ p ∈ s.parameters, p.name = name then (input.member? name).getD .null else .null

/-- **The value of a name after the mappings**, from the mappings to this name alone; there is none
when one of them finds no part or cannot write it. -/
def assembled? (s : ToolStep) (input response : Json) (name : String) : Option Json :=
  writeParts? response (mappingsTo name s.mappings) (s.baseValue input name)

/-- Before the mappings each name has its base value. -/
theorem getD_givenValues (hoverrides : Entries.Ordered s.overrides) (input : Json) (name : String) :
    (Entries.get? (s.givenValues input) name).getD .null = s.baseValue input name := by
  have hfixed := Entries.get?_ofPairs s.overrides name
  rw [Entries.ofPairs_eq_self hoverrides] at hfixed
  have hgiven : Entries.get? (s.givenValues input) name =
      (Entries.get? s.overrides name).or (Entries.get? (s.inputValues input) name) := by
    rw [hfixed]
    exact Entries.get?_foldl_insert s.overrides (s.inputValues input) name
  rw [hgiven, get?_inputValues, baseValue]
  rcases Entries.get? s.overrides name with _ | v
  · split
    · rfl
    · rfl
  · rfl

/-- **One mapping, one name**: the mapping is the first step of the name it writes to, and does not
concern the others. -/
theorem writeParts?_mappingsTo_cons {m : ParsedMapping} {head : String} {part inner : Json}
    (hhead : m.target.headField? = some head) (hpart : m.source.extract response = some part)
    (hinner : m.target.tail.write? part ((Entries.get? members head).getD .null) = some inner)
    (rest : List ParsedMapping) (name : String) :
    writeParts? response (mappingsTo name (m :: rest)) ((Entries.get? members name).getD .null) =
      writeParts? response (mappingsTo name rest)
        ((Entries.get? (Entries.insert head inner members) name).getD .null) := by
  by_cases hname : head = name
  · subst hname
    rw [mappingsTo, List.filter_cons_of_pos (by simp [hhead]), writeParts?, hpart,
      Option.bind_some, hinner, Option.bind_some, Entries.get?_insert_self]
    rfl
  · rw [mappingsTo, List.filter_cons_of_neg (by simpa [hhead] using hname),
      Entries.get?_insert_of_ne (Ne.symm hname)]
    rfl

/-- Where parts can be written they were found. -/
theorem isSome_extract_of_writeParts? {v after : Json}
    (h : writeParts? response mappings v = some after) :
    ∀ m ∈ mappings, (m.source.extract response).isSome = true := by
  induction mappings generalizing v with
  | nil => exact fun m hm => nomatch hm
  | cons m rest ih =>
    obtain ⟨part, hpart, h⟩ := Option.bind_eq_some_iff.mp h
    obtain ⟨inner, -, hrest⟩ := Option.bind_eq_some_iff.mp h
    rw [List.forall_mem_cons, hpart]
    exact ⟨rfl, ih hrest⟩

/-- **Mappings act on each name alone.** Either they can be applied, and every name has the value
that its own mappings give it, or they cannot, and there is a name whose own mappings fail. -/
theorem applyMappings_cases (step : ℕ) (response : Json)
    (hheads : ∀ m ∈ mappings, (m.target.headField?).isSome = true) (members : Members) :
    (∃ after, applyMappings step response mappings (.obj members) = .ok (.obj after) ∧
      ∀ name, writeParts? response (mappingsTo name mappings)
        ((Entries.get? members name).getD .null) = some ((Entries.get? after name).getD .null)) ∨
    ∃ e name, applyMappings step response mappings (.obj members) = .error e ∧
      writeParts? response (mappingsTo name mappings)
        ((Entries.get? members name).getD .null) = none := by
  induction mappings generalizing members with
  | nil => exact Or.inl ⟨members, rfl, fun name => rfl⟩
  | cons m rest ih =>
    obtain ⟨hhead, hrest⟩ := List.forall_mem_cons.mp hheads
    obtain ⟨head, hhead⟩ := Option.isSome_iff_exists.mp hhead
    have hfirst : mappingsTo head (m :: rest) = m :: mappingsTo head rest :=
      List.filter_cons_of_pos (by simp [hhead])
    rcases hpart : m.source.extract response with _ | part
    · refine Or.inr ⟨_, head, by rw [applyMappings, hpart], ?_⟩
      rw [hfirst, writeParts?, hpart, Option.bind_none]
    · have hwrite := FieldPath.write?_of_headField? hhead part members
      rcases hinner : m.target.tail.write? part ((Entries.get? members head).getD .null) with
        _ | inner
      · rw [hinner, Option.map_none, FieldPath.write?_eq_none_iff] at hwrite
        obtain ⟨left, e, hinject⟩ := hwrite
        have hstop : applyMappings step response (m :: rest) (.obj members) =
            .error (.injectFailed step e) := by
          rw [applyMappings, hpart]
          simp only [hinject]
        refine Or.inr ⟨_, head, hstop, ?_⟩
        rw [hfirst, writeParts?, hpart, Option.bind_some, hinner, Option.bind_none]
      · rw [hinner, Option.map_some, FieldPath.write?_eq_some_iff] at hwrite
        have hgo : applyMappings step response (m :: rest) (.obj members) =
            applyMappings step response rest (.obj (Entries.insert head inner members)) := by
          rw [applyMappings, hpart]
          simp only [hwrite]
        simp only [hgo, writeParts?_mappingsTo_cons hhead hpart hinner]
        exact ih hrest _

/-- **The values of a call with a response before it** are there when every name has a value, and
they are these values. -/
theorem values_cases (step : ℕ) (input response : Json)
    (hheads : ∀ m ∈ s.mappings, (m.target.headField?).isSome = true)
    (hoverrides : Entries.Ordered s.overrides) :
    (∃ values, s.values step input (some response) = .ok values ∧
      ∀ name, s.assembled? input response name =
        some ((Entries.get? values name).getD .null)) ∨
    ∃ e name, s.values step input (some response) = .error e ∧
      s.assembled? input response name = none := by
  simp only [assembled?, ← getD_givenValues hoverrides]
  rcases applyMappings_cases step response hheads (s.givenValues input) with
    ⟨after, happly, hvalues⟩ | ⟨e, name, happly, hnone⟩
  · exact Or.inl ⟨after, by rw [values, happly], hvalues⟩
  · exact Or.inr ⟨e, name, by rw [values, happly], hnone⟩

/-! ### From values to places -/

/-- **What a value adds to a query**: nothing if it is null, one pair for each element of an array,
else one pair. -/
def queryPairs (name : String) : Json → List (String × String)
  | .null => []
  | .arr items => items.map fun item => (name, scalarText item)
  | v => [(name, scalarText v)]

/-- A value is present when it is not null. -/
theorem present?_eq_some_iff {values : Members} {v : Json} :
    present? values name = some v ↔ v = (Entries.get? values name).getD .null ∧ v ≠ .null := by
  rw [present?, Option.filter_eq_some_iff, ne_eq, ← Json.isNull_iff, Bool.not_eq_true,
    Bool.not_eq_true']
  refine and_congr_left fun hv => ?_
  rcases Entries.get? values name with _ | w
  · refine ⟨nofun, fun h => ?_⟩
    rw [h] at hv
    cases hv
  · rw [Option.some_inj, Option.getD_some, eq_comm]

theorem present?_eq_none_iff {values : Members} :
    present? values name = none ↔ (Entries.get? values name).getD .null = .null := by
  rw [Option.eq_none_iff_forall_ne_some]
  constructor
  · intro h
    by_contra hne
    exact h _ (present?_eq_some_iff.mpr ⟨rfl, hne⟩)
  · rintro h v hv
    obtain ⟨rfl, hne⟩ := present?_eq_some_iff.mp hv
    exact hne h

/-- A value in a query adds its pairs, and a value elsewhere does not. -/
theorem query_place (p : Parameter) {v : Json} (hv : v ≠ .null) (d : Draft) :
    (place p v d).query =
      d.query ++ if p.location = .query then queryPairs p.name v else [] := by
  cases hp : p.location with
  | path | body => simp [place, hp]
  | query =>
    cases v with
    | null => exact absurd rfl hv
    | _ => simp [place, hp, queryPairs]

theorem body_place (p : Parameter) (v : Json) (d : Draft) :
    (place p v d).body = if p.location = .body then Entries.insert p.name v d.body else d.body := by
  cases hp : p.location with
  | path | body => simp [place, hp]
  | query => cases v <;> simp [place, hp]

/-- **A draft in which parameters were placed**: it has what these parameters bring, and nothing
else. -/
structure Draft.Holds (values : Members) (placed : List Parameter) (d : Draft) : Prop where
  query : d.query = placed.flatMap fun p =>
    if p.location = .query then queryPairs p.name ((Entries.get? values p.name).getD .null) else []
  body : ∀ name, Entries.get? d.body name =
    if ∃ p ∈ placed, p.location = .body ∧ p.name = name then present? values name else none
  ordered : Entries.Ordered d.body

namespace Draft.Holds

variable {values : Members} {placed : List Parameter} {d : Draft} {p : Parameter}

/-- What a body has under a name does not change with a parameter that does not belong there. -/
theorem body_of_not (h : d.Holds values placed) (hp : ¬(p.location = .body ∧ p.name = name)) :
    Entries.get? d.body name =
      if ∃ q ∈ placed ++ [p], q.location = .body ∧ q.name = name then present? values name
      else none := by
  have hiff : (∃ q ∈ placed ++ [p], q.location = .body ∧ q.name = name) ↔
      ∃ q ∈ placed, q.location = .body ∧ q.name = name := by
    simp [or_and_right, exists_or, hp]
  rw [h.body, if_congr hiff rfl rfl]

/-- **Placing a value** adds what its parameter brings. -/
theorem place {v : Json} (h : d.Holds values placed) (hv : present? values p.name = some v) :
    (ToolStep.place p v d).Holds values (placed ++ [p]) := by
  obtain ⟨hvalue, hnull⟩ := present?_eq_some_iff.mp hv
  refine ⟨?_, fun name => ?_, ?_⟩
  · rw [query_place p hnull, h.query, List.flatMap_append, List.flatMap_singleton, ← hvalue]
  · rw [body_place]
    by_cases hp : p.location = .body ∧ p.name = name
    · obtain ⟨hbody, rfl⟩ := hp
      rw [if_pos hbody, Entries.get?_insert_self, hv, if_pos ⟨p, by simp, hbody, rfl⟩]
    · rw [← h.body_of_not hp]
      split
      · rename_i hbody
        exact Entries.get?_insert_of_ne (fun hname => hp ⟨hbody, hname.symm⟩) v d.body
      · rfl
  · rw [body_place]
    split
    · exact Entries.ordered_insert h.ordered p.name v
    · exact h.ordered

/-- **A parameter without a value** brings nothing. -/
theorem skip (h : d.Holds values placed) (hv : present? values p.name = none) :
    d.Holds values (placed ++ [p]) := by
  refine ⟨?_, fun name => ?_, h.ordered⟩
  · rw [h.query, List.flatMap_append, List.flatMap_singleton, present?_eq_none_iff.mp hv,
      queryPairs, ite_self, List.append_nil]
  · by_cases hp : p.location = .body ∧ p.name = name
    · obtain ⟨-, rfl⟩ := hp
      rw [h.body, hv, ite_self, ite_self]
    · exact h.body_of_not hp

end Draft.Holds

/-- **What every parameter keeps holds in the end**: it is kept where the value of the parameter is
placed, and where there is none and the parameter may be left out. -/
theorem placeAll_induction {P : List Parameter → Draft → Prop} {step : ℕ} {values : Members}
    {placed parameters : List Parameter} {d d' : Draft}
    (hplace : ∀ p ∈ parameters, ∀ placed d v, present? values p.name = some v →
      P placed d → P (placed ++ [p]) (place p v d))
    (hskip : ∀ p ∈ parameters, ∀ placed d, present? values p.name = none →
      ¬p.isRequired = true → P placed d → P (placed ++ [p]) d)
    (hstart : P placed d) (h : placeAll step values parameters d = .ok d') :
    P (placed ++ parameters) d' := by
  induction parameters generalizing placed d with
  | nil =>
    cases h
    rwa [List.append_nil]
  | cons p rest ih =>
    obtain ⟨hp, hplace⟩ := List.forall_mem_cons.mp hplace
    obtain ⟨hp', hskip⟩ := List.forall_mem_cons.mp hskip
    rw [placeAll] at h
    rw [List.append_cons]
    split at h
    · rename_i hv
      exact ih hplace hskip (hp placed d _ hv hstart) h
    · rename_i hv
      split at h
      · cases h
      · rename_i hrequired
        exact ih hplace hskip (hp' placed d hv hrequired hstart) h

/-- **In the end all parameters are placed.** -/
theorem holds_of_placeAll {step : ℕ} {values : Members} {placed parameters : List Parameter}
    {d d' : Draft} (h : d.Holds values placed)
    (hplace : placeAll step values parameters d = .ok d') :
    d'.Holds values (placed ++ parameters) :=
  placeAll_induction (P := fun placed d => d.Holds values placed)
    (fun _ _ _ _ _ hv hd => hd.place hv) (fun _ _ _ _ hv _ hd => hd.skip hv) h hplace

/-- **A request is made** when there are values, all parameters can be placed, and no name in braces
is left. -/
theorem request_eq_ok_iff {step : ℕ} {previous? : Option Json} {request : Request} :
    s.request step input previous? = .ok request ↔ ∃ values d,
      s.values step input previous? = .ok values ∧
      placeAll step values s.parameters { path := s.path.toList } = .ok d ∧
      placeholders d.path = [] ∧
      request = ⟨s.method, String.ofList d.path, d.query,
        if s.hasBody then some (.obj d.body) else none⟩ := by
  simp only [ToolStep.request, bind_eq_ok_iff, ← exists_and_left]
  refine exists_congr fun values => exists_congr fun d => and_congr_right fun _ =>
    and_congr_right fun _ => ?_
  rcases placeholders d.path with _ | ⟨name, more⟩
  · simp only [Except.ok.injEq, true_and, eq_comm (a := request)]
  · simp only [reduceCtorEq, false_and]

/-- **A request that carries values**: the body has the values of the body parameters that are not
null, and the query those of the query parameters, in the order in which they are declared. -/
structure Carries (s : ToolStep) (value : String → Json) (request : Request) : Prop where
  /-- There is a body as soon as one parameter belongs there. -/
  has_body : request.body.isSome = true ↔ ∃ p ∈ s.parameters, p.location = .body
  body : ∀ sent, request.body = some sent → ∃ members, sent = .obj members ∧
    Entries.Ordered members ∧ ∀ name v, (name, v) ∈ members ↔
      (∃ p ∈ s.parameters, p.location = .body ∧ p.name = name) ∧ v = value name ∧ v ≠ .null
  query : request.query = s.parameters.flatMap fun p =>
    if p.location = .query then queryPairs p.name (value p.name) else []

/-- **A request carries the values of its call.** -/
theorem exists_carries_of_request {step : ℕ} {previous? : Option Json} {request : Request}
    (h : s.request step input previous? = .ok request) :
    ∃ values, s.values step input previous? = .ok values ∧
      s.Carries (fun name => (Entries.get? values name).getD .null) request := by
  obtain ⟨values, d, hvalues, hplace, -, rfl⟩ := request_eq_ok_iff.mp h
  have hempty : ({ path := s.path.toList } : Draft).Holds values [] :=
    ⟨rfl, fun name => by simp [Entries.get?], List.Pairwise.nil⟩
  have hholds := holds_of_placeAll hempty hplace
  rw [List.nil_append] at hholds
  have hhas : s.hasBody = true ↔ ∃ p ∈ s.parameters, p.location = .body := by
    simp [hasBody]
  refine ⟨values, hvalues, ?_, ?_, hholds.query⟩
  · rw [← hhas]
    cases s.hasBody <;> simp
  · intro sent hsent
    split at hsent
    · cases hsent
      refine ⟨d.body, rfl, hholds.ordered, fun name v => ?_⟩
      have hmem : (name, v) ∈ d.body ↔ Entries.get? d.body name = some v :=
        ⟨Entries.get?_eq_some_of_mem hholds.ordered, Entries.mem_of_get?_eq_some⟩
      rw [hmem, hholds.body, Option.ite_none_right_eq_some, present?_eq_some_iff]
    · cases hsent

/-- **Parameters are assembled each on its own**, and then each goes to its place. With a response
before it, a call gets its values when every mapping finds its part and every name gets a value from
the mappings to it; these are its values then, and its request carries them. -/
theorem assembles (s : ToolStep) (step : ℕ) (input response : Json)
    (hheads : ∀ m ∈ s.mappings, (m.target.headField?).isSome = true)
    (hoverrides : Entries.Ordered s.overrides) :
    ((∃ values, s.values step input (some response) = .ok values) ↔
      (∀ m ∈ s.mappings, (m.source.extract response).isSome = true) ∧
        ∀ name, (s.assembled? input response name).isSome = true) ∧
    (∀ values, s.values step input (some response) = .ok values →
      ∀ name, s.assembled? input response name =
        some ((Entries.get? values name).getD .null)) ∧
    ∀ request, s.request step input (some response) = .ok request →
      s.Carries (fun name => (s.assembled? input response name).getD .null) request := by
  rcases values_cases step input response hheads hoverrides with
    ⟨values, hvalues, hassembled⟩ | ⟨e, name, herror, hnone⟩
  · refine ⟨⟨fun _ => ⟨?_, fun name => ?_⟩, fun _ => ⟨values, hvalues⟩⟩, ?_, ?_⟩
    · intro m hm
      obtain ⟨head, hhead⟩ := Option.isSome_iff_exists.mp (hheads m hm)
      exact isSome_extract_of_writeParts? (hassembled head) m
        (List.mem_filter.mpr ⟨hm, by simpa using hhead⟩)
    · rw [hassembled, Option.isSome_some]
    · intro values' hvalues'
      cases hvalues.symm.trans hvalues'
      exact hassembled
    · intro request hrequest
      obtain ⟨values', hvalues', hcarries⟩ := exists_carries_of_request hrequest
      cases hvalues.symm.trans hvalues'
      simpa only [hassembled, Option.getD_some] using hcarries
  · refine ⟨⟨?_, ?_⟩, ?_, ?_⟩
    · rintro ⟨values, hvalues⟩
      cases herror.symm.trans hvalues
    · rintro ⟨-, hall⟩
      cases hnone ▸ hall name
    · intro values hvalues
      cases herror.symm.trans hvalues
    · intro request hrequest
      obtain ⟨values, hvalues, -⟩ := exists_carries_of_request hrequest
      cases herror.symm.trans hvalues

namespace Upload

/-- A call that fixes a part of its body and takes another part from the response before it. -/
def upload : ToolStep where
  nodeId := "upload"
  apiId := "upload"
  method := .put
  path := "/items/\x7bid\x7d"
  parameters := [⟨"id", .path, true, .obj []⟩, ⟨"tag", .query, false, .obj []⟩,
    ⟨"name", .body, true, .obj []⟩, ⟨"source", .body, false, .obj []⟩]
  overrides := [("source", .obj [("kind", .str "import")])]
  mappings := [⟨[.field "items", .index 0, .field "id"], [.field "id"]⟩,
    ⟨[.field "origin"], [.field "source", .field "origin"]⟩]

/-- The input of the tool. -/
def given : Json := .obj [("name", .str "N"), ("tag", .arr [.str "x", .str "y"])]

/-- The response of the call before. -/
def answer : Json := .obj [("items", .arr [.obj [("id", .str "a b")]]), ("origin", .str "web")]

/-- The part that is fixed and the part that is mapped meet in one value. -/
def source : Json := .obj [("kind", .str "import"), ("origin", .str "web")]

end Upload

open Upload in
/-- A value that is fixed and then written into, beside one from a response and two from the
input. -/
theorem assembles_upload :
    (∀ m ∈ upload.mappings, (m.target.headField?).isSome = true) ∧
      Entries.Ordered upload.overrides ∧
      (∃ values, upload.values 1 given (some answer) = .ok values) ∧
      upload.assembled? given answer "source" = some source ∧
      upload.Carries (fun name => (upload.assembled? given answer name).getD .null)
        { method := .put
          path := "/items/a%20b"
          query := [("tag", "x"), ("tag", "y")]
          body := some (.obj [("name", .str "N"), ("source", source)]) } := by
  have hheads : ∀ m ∈ upload.mappings, (m.target.headField?).isSome = true := by decide
  have hoverrides : Entries.Ordered upload.overrides := List.pairwise_singleton _ _
  obtain ⟨-, -, hcarries⟩ := assembles upload 1 given answer hheads hoverrides
  exact ⟨hheads, hoverrides, ⟨_, rfl⟩, rfl, hcarries _ (by with_unfolding_all rfl)⟩

end ToolStep

end CallChain
