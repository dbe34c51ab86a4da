import CallChain.Proofs.Schema.Marks

/-!
# The order of compatible schemas

Where values of a schema may go is a matter of the types that are declared: the target has to admit
every type of the source (`CallChain.Schema.isCompatible_iff`). Among types, what one list admits is
admitted by every list that admits its types (`CallChain.Schema.admits_of_admits`), and so the
relation is a preorder, with the schemas that declare nothing at its top.

The mark `nullable: true` adds `null` to what is declared, and nothing else
(`CallChain.Schema.declaredTypes_marked_cases`), so that a schema is compatible with itself as it is
marked (`CallChain.Schema.isCompatible_marked`). The mark makes one kind of schema declare something
that declared nothing before: those with a list under `type` that names no type.
-/

set_option autoImplicit false

namespace CallChain

namespace Schema

variable {members : Members} {source target : Json}

/-! ### Compatible schemas by their types -/

/-- **A schema is compatible with a target** when the target admits every type that it declares, and
it does declare some if the target does. -/
theorem isCompatible_iff : isCompatible source target = true ↔
    ∀ types, declaredTypes target = some types →
      ∃ own, declaredTypes source = some own ∧ ∀ t ∈ own, admits types t = true := by
  rw [isCompatible]
  rcases declaredTypes target with _ | types
  · simp
  · rcases declaredTypes source with _ | own
    · simp
    · simp

theorem admits_of_mem {types : List String} {t : String} (h : t ∈ types) : admits types t = true :=
  admits_iff.mpr (Or.inl h)

/-- **What one list admits is admitted by every list that admits its types.** -/
theorem admits_of_admits {types types' : List String} {t : String} (h : admits types t = true)
    (htypes : ∀ u ∈ types, admits types' u = true) : admits types' t = true := by
  rcases admits_iff.mp h with hmem | ⟨rfl, hnumber⟩
  · exact htypes t hmem
  · -- A whole number is a number, and no other type admits numbers.
    rcases admits_iff.mp (htypes "number" hnumber) with hmem | ⟨hinteger, -⟩
    · exact admits_iff.mpr (Or.inr ⟨rfl, hmem⟩)
    · exact absurd hinteger (by decide)

theorem isCompatible_refl (schema : Json) : isCompatible schema schema = true :=
  isCompatible_iff.mpr fun types htypes => ⟨types, htypes, fun _ => admits_of_mem⟩

theorem isCompatible_trans {middle : Json} (h : isCompatible source middle = true)
    (h' : isCompatible middle target = true) : isCompatible source target = true := by
  refine isCompatible_iff.mpr fun types htypes => ?_
  obtain ⟨between, hbetween, hadmits⟩ := isCompatible_iff.mp h' types htypes
  obtain ⟨own, hown, hadmits'⟩ := isCompatible_iff.mp h between hbetween
  exact ⟨own, hown, fun t ht => admits_of_admits (hadmits' t ht) hadmits⟩

theorem isCompatible_of_declaredTypes_eq_none (h : declaredTypes target = none) :
    isCompatible source target = true :=
  isCompatible_iff.mpr fun _ htypes => absurd (h.symm.trans htypes) nofun

/-! ### The mark -/

/-- **A list under `type` names a type**, if there is a list. -/
def NamesSome (members : Members) : Prop :=
  ∀ ts, Entries.get? members "type" = some (.arr ts) → ∃ t, .str t ∈ ts

theorem namedTypes?_marked (members : Members) :
    namedTypes? (.obj (marked members)) = namedTypes? (.obj members) := by
  have hmember : ∀ name, name ≠ "nullable" →
      (Json.obj (marked members)).member? name = (Json.obj members).member? name :=
    fun name h => get?_marked h
  rw [namedTypes?, namedTypes?, hmember _ (by decide), hmember _ (by decide),
    hmember _ (by decide)]

theorem ne_nil_of_namedTypes? (h : NamesSome members) {named : List String}
    (hnamed : namedTypes? (.obj members) = some named) : named ≠ [] := by
  rw [namedTypes?] at hnamed
  split at hnamed
  · cases hnamed
    exact List.cons_ne_nil _ _
  · rename_i ts hts
    cases hnamed
    obtain ⟨t, ht⟩ := h ts hts
    exact List.ne_nil_of_mem (mem_filterMap_string?.mpr ht)
  · -- The guessed types are single ones.
    split at hnamed
    · cases hnamed
      exact List.cons_ne_nil _ _
    · obtain ⟨-, hitems⟩ := Option.ite_none_right_eq_some.mp hnamed
      cases hitems
      exact List.cons_ne_nil _ _

/-- **The mark adds `null` to what is declared**, and declares nothing by itself. -/
theorem declaredTypes_marked_cases (h : NamesSome members) :
    (declaredTypes (.obj members) = none ∧ declaredTypes (.obj (marked members)) = none) ∨
    ∃ types types', declaredTypes (.obj members) = some types ∧
      declaredTypes (.obj (marked members)) = some types' ∧
      ∀ t, t ∈ types' ↔ t ∈ types ∨ t = "null" := by
  rcases hnamed : namedTypes? (.obj members) with _ | named
  · refine Or.inl ?_
    rw [declaredTypes_eq, declaredTypes_eq, namedTypes?_marked, hnamed]
    exact ⟨rfl, rfl⟩
  · have hdeclared : ∀ schema, namedTypes? schema = some named →
        ∃ types, declaredTypes schema = some types := by
      intro schema hschema
      rw [declaredTypes_eq, hschema, Option.bind_some, typesOf?, if_neg]
      · exact ⟨_, rfl⟩
      · split
        · exact List.cons_ne_nil _ _
        · exact ne_nil_of_namedTypes? h hnamed
    have hnamed' := (namedTypes?_marked members).trans hnamed
    obtain ⟨types, htypes⟩ := hdeclared _ hnamed
    obtain ⟨types', htypes'⟩ := hdeclared _ hnamed'
    refine Or.inr ⟨types, types', htypes, htypes', fun t => ?_⟩
    rw [mem_declaredTypes_iff htypes' hnamed', mem_declaredTypes_iff htypes hnamed,
      and_iff_left (isNullable_marked members), or_assoc, or_iff_right_of_imp And.left]

/-- **A schema is compatible with itself as it is marked.** So marking a target takes no source away
from it, and marking a source opens no target to it. -/
theorem isCompatible_marked (h : NamesSome members) :
    isCompatible (.obj members) (.obj (marked members)) = true := by
  refine isCompatible_iff.mpr fun widened hwidened => ?_
  rcases declaredTypes_marked_cases h with ⟨-, hnone⟩ | ⟨types, types', htypes, htypes', hmem⟩
  · rw [hnone] at hwidened
    cases hwidened
  · obtain rfl := Option.some.inj (htypes'.symm.trans hwidened)
    exact ⟨types, htypes, fun t ht => admits_of_mem ((hmem t).mpr (Or.inl ht))⟩

/-- **Compatibility is a preorder that the mark respects.** Every schema is compatible with itself,
and the relation is transitive. Everything is compatible with a target that declares nothing, and a
source that declares nothing only with such targets. Marking a target takes no source away from it,
marking a source opens no target to it, and a source that declares `null` is not compatible with a
target that declares types without it. -/
theorem isCompatible_laws :
    (∀ schema, isCompatible schema schema = true) ∧
    (∀ source middle target, isCompatible source middle = true →
      isCompatible middle target = true → isCompatible source target = true) ∧
    (∀ source target, declaredTypes target = none → isCompatible source target = true) ∧
    (∀ source target, declaredTypes source = none →
      (isCompatible source target = true ↔ declaredTypes target = none)) ∧
    (∀ source members, NamesSome members → isCompatible source (.obj members) = true →
      isCompatible source (.obj (marked members)) = true) ∧
    (∀ members target, NamesSome members → isCompatible (.obj (marked members)) target = true →
      isCompatible (.obj members) target = true) ∧
    ∀ source target own types, declaredTypes source = some own → "null" ∈ own →
      declaredTypes target = some types → "null" ∉ types → isCompatible source target = false := by
  refine ⟨isCompatible_refl, fun _ _ _ => isCompatible_trans,
    fun _ _ => isCompatible_of_declaredTypes_eq_none,
    fun source target hnone => ⟨fun h => ?_, isCompatible_of_declaredTypes_eq_none⟩,
    fun _ _ hnames h => isCompatible_trans h (isCompatible_marked hnames),
    fun _ _ hnames h => isCompatible_trans (isCompatible_marked hnames) h,
    fun source target own types hown hnull htypes hmissing => ?_⟩
  · rcases htypes : declaredTypes target with _ | types
    · rfl
    · obtain ⟨own, hown, -⟩ := isCompatible_iff.mp h types htypes
      exact absurd (hnone.symm.trans hown) nofun
  · refine Bool.eq_false_iff.mpr fun h => ?_
    obtain ⟨own', hown', hadmits⟩ := isCompatible_iff.mp h types htypes
    obtain rfl := Option.some.inj (hown.symm.trans hown')
    rcases admits_iff.mp (hadmits "null" hnull) with hmem | ⟨hinteger, -⟩
    · exact hmissing hmem
    · exact absurd hinteger (by decide)

/-- Whole numbers. -/
def wholeNumber : Members := [("type", .str "integer")]

/-- Numbers. -/
def anyNumber : Members := [("type", .str "number")]

theorem isCompatible_laws_numbers :
    (isCompatible (.obj wholeNumber) (.obj anyNumber) = true ∧
      isCompatible (.obj anyNumber) numberOrNull = true ∧
      isCompatible (.obj wholeNumber) numberOrNull = true) ∧
    (declaredTypes (.obj []) = none ∧ isCompatible numberOrNull (.obj []) = true ∧
      (isCompatible (.obj []) numberOrNull = true ↔ declaredTypes numberOrNull = none)) ∧
    (NamesSome anyNumber ∧ isCompatible (.obj wholeNumber) (.obj (marked anyNumber)) = true) ∧
    (NamesSome wholeNumber ∧ isCompatible (.obj (marked wholeNumber)) numberOrNull = true ∧
      isCompatible (.obj wholeNumber) numberOrNull = true) ∧
    (declaredTypes wholeOrNull = some ["integer", "null"] ∧
      declaredTypes (.obj anyNumber) = some ["number"] ∧
      isCompatible wholeOrNull (.obj anyNumber) = false) := by
  obtain ⟨-, htrans, htarget, hsource, hmarked, hmarked', hnull⟩ := isCompatible_laws
  have hany : isCompatible (.obj wholeNumber) (.obj anyNumber) = true := by decide +kernel
  have hor : isCompatible (.obj anyNumber) numberOrNull = true := by decide +kernel
  have hwidened : isCompatible (.obj (marked wholeNumber)) numberOrNull = true := by
    decide +kernel
  have hown : declaredTypes wholeOrNull = some ["integer", "null"] := by decide +kernel
  have htypes : declaredTypes (.obj anyNumber) = some ["number"] := by decide +kernel
  have hnames : NamesSome anyNumber := nofun
  have hnames' : NamesSome wholeNumber := nofun
  exact ⟨⟨hany, hor, htrans _ _ _ hany hor⟩, ⟨rfl, htarget _ _ rfl, hsource _ _ rfl⟩,
    ⟨hnames, hmarked _ _ hnames hany⟩, ⟨hnames', hwidened, hmarked' _ _ hnames' hwidened⟩,
    hown, htypes, hnull _ _ _ _ hown (by decide) htypes (by decide)⟩

end Schema

end CallChain
