import CallChain.Proofs.Tool.Values
import CallChain.Tool.Run

/-!
# What a call reads of the input

A call looks for its parameters in the input of the tool, and not for anything else. Even so not
all of what it finds is read: a value that the call fixes comes over it, and so does a part of a
response that is mapped to the whole parameter. What is left is what the call reads
(`CallChain.ToolStep.Reads`): inputs that agree on it lead to the same request
(`CallChain.ToolStep.request_congr`).

Two tables of values are followed side by side. They agree on a name, or the name is still to be
written as a whole by the next mapping that has to do with it; at the end of the mappings they agree
on all names.
-/

set_option autoImplicit false

namespace CallChain

namespace Entries

variable {α : Type} {name : String}

/-- Tables that agree on a name, or that get the name set, agree on it after several names were
set. -/
theorem get?_foldl_insert_congr (l : Entries α) {a b : Entries α}
    (h : has l name = true ∨ get? a name = get? b name) :
    get? (l.foldl (fun entries m => insert m.1 m.2 entries) a) name =
      get? (l.foldl (fun entries m => insert m.1 m.2 entries) b) name := by
  induction l generalizing a b with
  | nil => exact h.resolve_left (by simp [has, get?])
  | cons m rest ih =>
    obtain ⟨k, v⟩ := m
    refine ih ?_
    by_cases hk : k = name
    · rw [hk, get?_insert_self, get?_insert_self]
      exact Or.inr rfl
    · rw [get?_insert_of_ne (Ne.symm hk), get?_insert_of_ne (Ne.symm hk)]
      rwa [has, get?, if_neg hk] at h

end Entries

namespace ToolStep

variable {s : ToolStep} {x y : Json} {name : String}

/-- **The first mapping into a member writes the whole of it.** What stood there before does not
matter to the values at the end. -/
def WritesWhole (mappings : List ParsedMapping) (name : String) : Prop :=
  ∃ m, mappings.find? (·.target.headField? == some name) = some m ∧ m.target = [.field name]

theorem writesWhole_cons_of_ne {m : ParsedMapping} {rest : List ParsedMapping}
    (hhead : m.target.headField? ≠ some name) :
    WritesWhole (m :: rest) name ↔ WritesWhole rest name := by
  rw [WritesWhole, WritesWhole, List.find?_cons_of_neg (by simpa using hhead)]

/-- **A call reads a field of the input**: a parameter has the name of the field, the call does not
fix it, and the first mapping that writes to it, if there is one, does not write the whole of it. -/
structure Reads (s : ToolStep) (name : String) : Prop where
  parameter : ∃ p ∈ s.parameters, p.name = name
  not_fixed : s.overrides.has name = false
  not_whole : ¬WritesWhole s.mappings name

/-! ### Values -/

/-- Inputs that agree on the field of a parameter bring the same value for it. -/
theorem get?_inputValues_congr
    (h : (∃ p ∈ s.parameters, p.name = name) → x.member? name = y.member? name) :
    Entries.get? (s.inputValues x) name = Entries.get? (s.inputValues y) name := by
  rw [get?_inputValues, get?_inputValues]
  split
  · exact h ‹_›
  · rfl

/-- Before any mapping it is enough that the inputs agree on the fields that the call does not
fix. -/
theorem get?_givenValues_congr
    (h : (∃ p ∈ s.parameters, p.name = name) → s.overrides.has name = false →
      x.member? name = y.member? name) :
    Entries.get? (s.givenValues x) name = Entries.get? (s.givenValues y) name := by
  refine Entries.get?_foldl_insert_congr s.overrides ?_
  by_cases hfixed : s.overrides.has name = true
  · exact Or.inl hfixed
  · exact Or.inr (get?_inputValues_congr fun hp => h hp (by simpa using hfixed))

/-- **Tables that agree but for the members that are written as a whole** agree after the mappings,
or the mappings stop in both of them for the same reason. -/
theorem applyMappings_congr (step : ℕ) (response : Json) {mappings : List ParsedMapping}
    (hheads : ∀ m ∈ mappings, (m.target.headField?).isSome = true) {a b : Members}
    (h : ∀ name, Entries.get? a name = Entries.get? b name ∨ WritesWhole mappings name) :
    (∃ e, applyMappings step response mappings (.obj a) = .error e ∧
      applyMappings step response mappings (.obj b) = .error e) ∨
    ∃ a' b', applyMappings step response mappings (.obj a) = .ok (.obj a') ∧
      applyMappings step response mappings (.obj b) = .ok (.obj b') ∧
      ∀ name, Entries.get? a' name = Entries.get? b' name := by
  induction mappings generalizing a b with
  | nil =>
    refine Or.inr ⟨a, b, rfl, rfl, fun name => (h name).resolve_right ?_⟩
    rintro ⟨m, hm, -⟩
    cases hm
  | cons m rest ih =>
    obtain ⟨hhead, hrest⟩ := List.forall_mem_cons.mp hheads
    obtain ⟨head, hhead⟩ := Option.isSome_iff_exists.mp hhead
    rw [applyMappings, applyMappings]
    rcases m.source.extract response with _ | part
    · exact Or.inl ⟨_, rfl, rfl⟩
    · -- If the member is still to be written as a whole, this is the mapping that does it.
      have hwritten : Entries.get? a head = Entries.get? b head ∨ m.target = [.field head] := by
        refine (h head).imp_right ?_
        rintro ⟨m', hfind, hwhole⟩
        rw [List.find?_cons_of_pos (by simpa using hhead), Option.some_inj] at hfind
        exact hfind ▸ hwhole
      obtain ⟨inner, e?, ha, hb⟩ := FieldPath.inject_congr hhead part hwritten
      dsimp only
      rw [ha, hb]
      rcases e? with _ | e
      · -- The member that was written is the same in both now; the others are as they were.
        refine ih hrest fun name => ?_
        by_cases hname : name = head
        · rw [hname, Entries.get?_insert_self, Entries.get?_insert_self]
          exact Or.inl rfl
        · have hne : m.target.headField? ≠ some name := by
            rw [hhead, ne_eq, Option.some_inj]
            exact Ne.symm hname
          rw [Entries.get?_insert_of_ne hname, Entries.get?_insert_of_ne hname,
            ← writesWhole_cons_of_ne hne]
          exact h name
      · exact Or.inl ⟨_, rfl, rfl⟩

/-- Inputs that agree on what a call reads lead to the same values, or to the same error. -/
theorem values_congr (step : ℕ) {previous? : Option Json}
    (hheads : ∀ m ∈ s.mappings, (m.target.headField?).isSome = true)
    (hfirst : previous? = none → s.mappings = [])
    (h : ∀ name, s.Reads name → x.member? name = y.member? name) :
    (∃ e, s.values step x previous? = .error e ∧ s.values step y previous? = .error e) ∨
    ∃ a b, s.values step x previous? = .ok a ∧ s.values step y previous? = .ok b ∧
      ∀ name, Entries.get? a name = Entries.get? b name := by
  have hgiven : ∀ name, Entries.get? (s.givenValues x) name = Entries.get? (s.givenValues y) name ∨
      WritesWhole s.mappings name := by
    intro name
    by_cases hwhole : WritesWhole s.mappings name
    · exact Or.inr hwhole
    · exact Or.inl (get?_givenValues_congr fun hp hfixed => h name ⟨hp, hfixed, hwhole⟩)
  rcases previous? with _ | response
  · -- Mappings that are never applied write nothing, so there must be none.
    refine Or.inr ⟨_, _, rfl, rfl, fun name => (hgiven name).resolve_right ?_⟩
    rw [hfirst rfl]
    rintro ⟨m, hm, -⟩
    cases hm
  · rcases applyMappings_congr step response hheads hgiven with
      ⟨e, hx, hy⟩ | ⟨a, b, hx, hy, hab⟩
    · exact Or.inl ⟨e, by rw [values, hx], by rw [values, hy]⟩
    · exact Or.inr ⟨a, b, by rw [values, hx], by rw [values, hy], hab⟩

/-! ### Requests -/

/-- Where values go depends on the value of each name and on nothing else. -/
theorem placeAll_congr (step : ℕ) {a b : Members}
    (h : ∀ name, Entries.get? a name = Entries.get? b name) (parameters : List Parameter)
    (d : Draft) :
    placeAll step a parameters d = placeAll step b parameters d := by
  induction parameters generalizing d with
  | nil => rfl
  | cons p rest ih =>
    have hpresent : present? a p.name = present? b p.name := by rw [present?, present?, h]
    rw [placeAll, placeAll, hpresent]
    simp only [ih]

/-- **A request depends on what the call reads of the input only.** -/
theorem request_congr (step : ℕ) {previous? : Option Json}
    (hheads : ∀ m ∈ s.mappings, (m.target.headField?).isSome = true)
    (hfirst : previous? = none → s.mappings = [])
    (h : ∀ name, s.Reads name → x.member? name = y.member? name) :
    s.request step x previous? = s.request step y previous? := by
  rw [request, request]
  rcases values_congr step hheads hfirst h with ⟨e, hx, hy⟩ | ⟨a, b, hx, hy, hab⟩
  · rw [hx, hy]
  · have hplaced := placeAll_congr step hab s.parameters { path := s.path.toList }
    simp only [hx, hy, bind, Except.bind, hplaced]

end ToolStep

/-! ### Runs -/

namespace Tool

/-- **A run depends on what its calls read of the input only**, whatever calls do. -/
theorem runFrom_congr {μ : Type → Type} [Monad μ] (call : Call μ) {x y : Json}
    {steps : List ToolStep} (step : ℕ) (previous? : Option Json)
    (hheads : ∀ s ∈ steps, ∀ m ∈ s.mappings, (m.target.headField?).isSome = true)
    (hfirst : previous? = none → ∀ s, steps.head? = some s → s.mappings = [])
    (h : ∀ s ∈ steps, ∀ name, s.Reads name → x.member? name = y.member? name) :
    runFrom call x step previous? steps = runFrom call y step previous? steps := by
  induction steps generalizing step previous? with
  | nil => rfl
  | cons s rest ih =>
    obtain ⟨hhead, hheads⟩ := List.forall_mem_cons.mp hheads
    obtain ⟨hreads, h⟩ := List.forall_mem_cons.mp h
    rw [runFrom, runFrom,
      ToolStep.request_congr step hhead (fun hnone => hfirst hnone s rfl) hreads]
    rcases s.request step y previous? with e | request
    · rfl
    · -- All later calls have an answer before them.
      have hrest : ∀ answer, runFrom call x (step + 1) (some answer) rest =
          runFrom call y (step + 1) (some answer) rest :=
        fun answer => ih (step + 1) (some answer) hheads (fun hnone => nomatch hnone) h
      simp only [hrest]

end Tool

end CallChain
