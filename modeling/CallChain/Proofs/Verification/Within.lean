import CallChain.Proofs.Path.Writing
import CallChain.Proofs.Schema.Reading
import CallChain.Verification.Expectation
import Mathlib.Data.List.Sort
import Mathlib.Logic.Relation

/-!
# Parts of outputs

An expectation may state a part of an output only. What it states are the places that are reached
from the outside through members of objects: at each of them the output has an object if one is
stated, and else an equal value (`CallChain.Json.isWithin_iff`). Arrays are not entered, so they are
compared as a whole.

To be a part is an order up to equality of values. That equality in turn is symmetric and transitive
(`CallChain.Json.same_symm`, `CallChain.Json.same_trans`); it is defined by two recursions at a
time, which are taken apart into a relation of lists place by place
(`CallChain.Json.sameItems_iff`, `CallChain.Json.sameMembers_iff`). An output that gets more members
where it has objects (`CallChain.Json.Enlarges`) still has all the parts that it had.
-/

set_option autoImplicit false

namespace CallChain

/-! ### Equal values -/

theorem Double.sameValue_trans {a b c : Double} (h : a.sameValue b = true)
    (h' : b.sameValue c = true) : a.sameValue c = true := by
  simp only [sameValue, Bool.or_eq_true, decide_eq_true_eq, Bool.and_eq_true] at h h' ⊢
  rcases h with rfl | ⟨ha, hb⟩
  · exact h'
  · rcases h' with rfl | ⟨-, hc⟩
    · exact Or.inr ⟨ha, hb⟩
    · exact Or.inr ⟨ha, hc⟩

namespace Number

theorem same_symm (a b : Number) : a.same b = b.same a := by
  cases a with
  | int i =>
    cases b with
    | int j => exact Bool.beq_comm
    | double d => rfl
  | double d =>
    cases b with
    | int j => rfl
    | double d' => exact Double.sameValue_symm d d'

theorem same_trans {a b c : Number} (h : a.same b = true) (h' : b.same c = true) :
    a.same c = true := by
  cases a with
  | int i =>
    cases b with
    | int j =>
      obtain rfl : i = j := by simpa [same] using h
      exact h'
    | double d => cases h
  | double d =>
    cases b with
    | int j => cases h
    | double d' =>
      cases c with
      | int j => cases h'
      | double d'' => exact Double.sameValue_trans h h'

end Number

namespace Json

/-- Two relations of lists, place by place, one after the other. -/
theorem forall₂_trans {α : Type} {R S T : α → α → Prop}
    (htrans : ∀ x y z, R x y → S y z → T x z) {xs ys zs : List α} (h : List.Forall₂ R xs ys)
    (h' : List.Forall₂ S ys zs) : List.Forall₂ T xs zs := by
  induction h generalizing zs with
  | nil =>
    cases h'
    exact .nil
  | cons hxy _ ih =>
    cases h' with
    | cons hyz hrest => exact .cons (htrans _ _ _ hxy hyz) (ih hrest)

/-- Items are equal place by place. -/
theorem sameItems_iff {items items' : List Json} :
    sameItems items items' = true ↔ List.Forall₂ (fun j j' => j.same j' = true) items items' := by
  induction items generalizing items' with
  | nil => cases items' <;> simp [sameItems]
  | cons j rest ih => cases items' <;> simp [sameItems, ih]

/-- Members are equal place by place, and so are their names. -/
theorem sameMembers_iff {members members' : Members} :
    sameMembers members members' = true ↔
      List.Forall₂ (fun m m' => m.1 = m'.1 ∧ m.2.same m'.2 = true) members members' := by
  induction members generalizing members' with
  | nil => cases members' <;> simp [sameMembers]
  | cons m rest ih => cases members' <;> simp [sameMembers, ih]

variable {e a b : Json}

theorem same_arr_iff {items : List Json} :
    (arr items).same a = true ↔ ∃ items', a = .arr items' ∧
      List.Forall₂ (fun j j' => j.same j' = true) items items' := by
  cases a <;> simp [same, sameItems_iff]

theorem same_obj_iff {members : Members} :
    (obj members).same a = true ↔ ∃ members', a = .obj members' ∧
      List.Forall₂ (fun m m' => m.1 = m'.1 ∧ m.2.same m'.2 = true) members members' := by
  cases a <;> simp [same, sameMembers_iff]

theorem same_symm (h : e.same a = true) : a.same e = true := by
  induction e using parts_induction generalizing a with
  | null => cases a <;> simp_all [same]
  | bool value => cases a <;> simp_all [same]
  | num n =>
    cases a with
    | num n' =>
      rw [same] at h ⊢
      rwa [Number.same_symm]
    | null | bool | str | arr | obj => cases h
  | str s => cases a <;> simp_all [same]
  | arr items ih =>
    obtain ⟨items', rfl, hitems⟩ := same_arr_iff.mp h
    have hboth := (List.forall₂_and_left items items').mpr ⟨@ih, hitems⟩
    exact same_arr_iff.mpr ⟨items, rfl, (hboth.imp fun _ _ h => h.1 h.2).flip⟩
  | obj members ih =>
    obtain ⟨members', rfl, hmembers⟩ := same_obj_iff.mp h
    have hboth := (List.forall₂_and_left members members').mpr ⟨@ih, hmembers⟩
    exact same_obj_iff.mpr
      ⟨members, rfl, (hboth.imp fun _ _ h => ⟨h.2.1.symm, h.1 h.2.2⟩).flip⟩

theorem same_trans (h : e.same a = true) (h' : a.same b = true) : e.same b = true := by
  induction e using parts_induction generalizing a b with
  | null =>
    cases a with
    | null => exact h'
    | bool | num | str | arr | obj => cases h
  | bool value =>
    cases a with
    | bool value' =>
      obtain rfl : value = value' := by simpa [same] using h
      exact h'
    | null | num | str | arr | obj => cases h
  | num n =>
    cases a with
    | num n' =>
      cases b with
      | num n'' => exact Number.same_trans h h'
      | null | bool | str | arr | obj => cases h'
    | null | bool | str | arr | obj => cases h
  | str s =>
    cases a with
    | str s' =>
      obtain rfl : s = s' := by simpa [same] using h
      exact h'
    | null | bool | num | arr | obj => cases h
  | arr items ih =>
    obtain ⟨items', rfl, hitems⟩ := same_arr_iff.mp h
    obtain ⟨items'', rfl, hitems'⟩ := same_arr_iff.mp h'
    refine same_arr_iff.mpr ⟨items'', rfl, ?_⟩
    have hboth := (List.forall₂_and_left items items').mpr ⟨@ih, hitems⟩
    exact forall₂_trans (fun _ _ _ h h' => h.1 h.2 h') hboth hitems'
  | obj members ih =>
    obtain ⟨members', rfl, hmembers⟩ := same_obj_iff.mp h
    obtain ⟨members'', rfl, hmembers'⟩ := same_obj_iff.mp h'
    refine same_obj_iff.mpr ⟨members'', rfl, ?_⟩
    have hboth := (List.forall₂_and_left members members').mpr ⟨@ih, hmembers⟩
    exact forall₂_trans (fun _ _ _ h h' => ⟨h.2.1.trans h'.1, h.1 h.2.2 h'.2⟩) hboth hmembers'

/-! ### Parts -/

theorem membersWithin_iff {wanted found : Members} :
    membersWithin wanted found = true ↔
      ∀ m ∈ wanted, ∃ j, Entries.get? found m.1 = some j ∧ m.2.isWithin j = true := by
  induction wanted with
  | nil => simp [membersWithin]
  | cons m rest ih =>
    rw [membersWithin, Bool.and_eq_true, ih, List.forall_mem_cons]
    cases Entries.get? found m.1 <;> simp

/-- **An object is a part** of the objects that have its members, or greater ones. -/
theorem isWithin_obj_iff {wanted : Members} :
    (obj wanted).isWithin a = true ↔ ∃ found, a = .obj found ∧
      ∀ m ∈ wanted, ∃ j, Entries.get? found m.1 = some j ∧ m.2.isWithin j = true := by
  cases a with
  | obj found => simp [isWithin, membersWithin_iff]
  | null | bool | num | str | arr => simp [isWithin, same]

/-- Everything else is a part of what equals it. -/
theorem isWithin_eq_same (he : e.isObject = false) : e.isWithin a = e.same a := by
  cases e with
  | obj wanted => cases he
  | null | bool | num | str | arr => rw [isWithin]; nofun

theorem isObject_eq_of_same (h : e.same a = true) : e.isObject = a.isObject := by
  cases e <;> cases a <;> first | rfl | cases h

/-- **The value that is reached through members of objects**, if there are members of these
names. -/
def reached? : List String → Json → Option Json
  | [], j => some j
  | k :: keys, j => (j.member? k).bind (reached? keys)

/-- **What is asked of the value at a place**: to be an object if an object is stated, and else to
equal what is stated. -/
def Serves (found stated : Json) : Prop :=
  (stated.isObject = true → found.isObject = true) ∧
    (stated.isObject = false → found.same stated = true)

theorem member?_eq_some_iff {k : String} {j : Json} :
    e.member? k = some j ↔ ∃ members, e = .obj members ∧ Entries.get? members k = some j := by
  cases e <;> simp [member?]

theorem serves_of_isWithin (h : e.isWithin a = true) : a.Serves e := by
  constructor
  · intro he
    cases e with
    | obj wanted =>
      obtain ⟨found, rfl, -⟩ := isWithin_obj_iff.mp h
      rfl
    | null | bool | num | str | arr => cases he
  · intro he
    rw [isWithin_eq_same he] at h
    exact same_symm h

/-- **A part states what is at every place that is reached through objects.** -/
theorem isWithin_iff (he : e.Canonical) :
    e.isWithin a = true ↔
      ∀ keys x, e.reached? keys = some x → ∃ y, a.reached? keys = some y ∧ y.Serves x := by
  constructor
  · intro h keys
    induction keys generalizing e a with
    | nil =>
      rintro x ⟨⟩
      exact ⟨a, rfl, serves_of_isWithin h⟩
    | cons k keys ih =>
      intro x hreached
      obtain ⟨j, hj, hx⟩ := Option.bind_eq_some_iff.mp hreached
      obtain ⟨wanted, rfl, hj⟩ := member?_eq_some_iff.mp hj
      obtain ⟨found, rfl, hfound⟩ := isWithin_obj_iff.mp h
      have hm := Entries.mem_of_get?_eq_some hj
      obtain ⟨j', hj', hwithin⟩ := hfound (k, j) hm
      obtain ⟨y, hy, hserves⟩ := ih ((canonical_obj_iff.mp he).2 _ hm) hwithin x hx
      exact ⟨y, Option.bind_eq_some_iff.mpr ⟨j', hj', hy⟩, hserves⟩
  · intro h
    induction e using parts_induction generalizing a with
    | obj wanted ih =>
      obtain ⟨hordered, hvalues⟩ := canonical_obj_iff.mp he
      obtain ⟨_, ⟨⟩, hobject, -⟩ := h [] (.obj wanted) rfl
      obtain ⟨found, rfl⟩ : ∃ found, a = .obj found := by
        cases a with
        | obj found => exact ⟨found, rfl⟩
        | null | bool | num | str | arr => exact absurd (hobject rfl) Bool.false_ne_true
      refine isWithin_obj_iff.mpr ⟨found, rfl, fun m hm => ?_⟩
      have hfind := Entries.get?_eq_some_of_mem hordered hm
      -- The places behind the name of the member are those of its value.
      have hbehind : ∀ keys x, m.2.reached? keys = some x →
          ∃ j, Entries.get? found m.1 = some j ∧ ∃ y, j.reached? keys = some y ∧ y.Serves x := by
        intro keys x hx
        obtain ⟨y, hy, hserves⟩ := h (m.1 :: keys) x (Option.bind_eq_some_iff.mpr ⟨m.2, hfind, hx⟩)
        obtain ⟨j, hj, hreached⟩ := Option.bind_eq_some_iff.mp hy
        exact ⟨j, hj, y, hreached, hserves⟩
      obtain ⟨j, hj, -⟩ := hbehind [] m.2 rfl
      refine ⟨j, hj, ih m hm (hvalues m hm) fun keys x hx => ?_⟩
      obtain ⟨j', hj', hserves⟩ := hbehind keys x hx
      rwa [← Option.some_inj.mp (hj'.symm.trans hj)]
    | null | bool | num | str | arr =>
      obtain ⟨_, ⟨⟩, -, hsame⟩ := h [] _ rfl
      rw [isWithin_eq_same rfl]
      exact same_symm (hsame rfl)

/-! ### The order of parts -/

theorem isWithin_trans (h : e.isWithin a = true) (h' : a.isWithin b = true) :
    e.isWithin b = true := by
  induction e using parts_induction generalizing a b with
  | obj wanted ih =>
    obtain ⟨found, rfl, hfound⟩ := isWithin_obj_iff.mp h
    obtain ⟨found', rfl, hfound'⟩ := isWithin_obj_iff.mp h'
    refine isWithin_obj_iff.mpr ⟨found', rfl, fun m hm => ?_⟩
    obtain ⟨j, hj, hwithin⟩ := hfound m hm
    obtain ⟨j', hj', hwithin'⟩ := hfound' _ (Entries.mem_of_get?_eq_some hj)
    exact ⟨j', hj', ih m hm hwithin hwithin'⟩
  | null | bool | num | str | arr =>
    rw [isWithin_eq_same rfl] at h ⊢
    rw [isWithin_eq_same (isObject_eq_of_same h).symm] at h'
    exact same_trans h h'

/-- **What equals a value is a part of it.** -/
theorem isWithin_of_same (ha : a.Canonical) (h : e.same a = true) : e.isWithin a = true := by
  induction e using parts_induction generalizing a with
  | obj wanted ih =>
    obtain ⟨found, rfl, hsame⟩ := same_obj_iff.mp h
    obtain ⟨hordered, hvalues⟩ := canonical_obj_iff.mp ha
    refine isWithin_obj_iff.mpr ⟨found, rfl, fun m hm => ?_⟩
    obtain ⟨m', hm', hname, hvalue⟩ := exists_mem_of_forall₂ hsame hm
    exact ⟨m'.2, hname ▸ Entries.get?_eq_some_of_mem hordered hm', ih m hm (hvalues m' hm') hvalue⟩
  | null | bool | num | str | arr => rwa [isWithin_eq_same rfl]

/-- A part has no names that the whole has not. -/
theorem names_subset_of_within {wanted found : Members}
    (h : ∀ m ∈ wanted, ∃ j, Entries.get? found m.1 = some j ∧ m.2.isWithin j = true) :
    Entries.names wanted ⊆ Entries.names found := by
  intro name hname
  obtain ⟨m, hm, rfl⟩ := List.mem_map.mp hname
  obtain ⟨j, hj, -⟩ := h m hm
  exact List.mem_map_of_mem (f := (·.1)) (Entries.mem_of_get?_eq_some hj)

/-- **Values that are parts of each other are equal.** -/
theorem same_of_isWithin (he : e.Canonical) (ha : a.Canonical) (h : e.isWithin a = true)
    (h' : a.isWithin e = true) : e.same a = true := by
  induction e using parts_induction generalizing a with
  | obj wanted ih =>
    obtain ⟨found, rfl, hfound⟩ := isWithin_obj_iff.mp h
    obtain ⟨_, ⟨⟩, hwanted⟩ := isWithin_obj_iff.mp h'
    obtain ⟨hordered, hvalues⟩ := canonical_obj_iff.mp he
    obtain ⟨hordered', hvalues'⟩ := canonical_obj_iff.mp ha
    have hvalue : ∀ m ∈ wanted, ∀ m' ∈ found, m.1 = m'.1 → m.2.same m'.2 = true := by
      intro m hm m' hm' hname
      obtain ⟨j, hj, hwithin⟩ := hfound m hm
      obtain ⟨i, hi, hwithin'⟩ := hwanted m' hm'
      rw [hname, Entries.get?_eq_some_of_mem hordered' hm', Option.some_inj] at hj
      rw [← hname, Entries.get?_eq_some_of_mem hordered hm, Option.some_inj] at hi
      exact ih m hm (hvalues m hm) (hvalues' m' hm') (hj ▸ hwithin) (hi ▸ hwithin')
    -- Both are in order and have the same names, so members of one name stand at the same place.
    have hnames : Entries.names wanted = Entries.names found :=
      List.Subset.antisymm_of_pairwise hordered hordered' (names_subset_of_within hfound)
        (names_subset_of_within hwanted)
    have hplaces : List.Forall₂ (fun m m' : String × Json => m.1 = m'.1) wanted found := by
      rwa [Entries.names, Entries.names, ← List.forall₂_eq_eq_eq, List.forall₂_map_left_iff,
        List.forall₂_map_right_iff] at hnames
    rw [List.forall₂_iff_zip] at hplaces
    refine same_obj_iff.mpr ⟨found, rfl, List.forall₂_iff_zip.mpr ⟨hplaces.1, fun hmem => ?_⟩⟩
    obtain ⟨hm, hm'⟩ := List.of_mem_zip hmem
    exact ⟨hplaces.2 hmem, hvalue _ hm _ hm' (hplaces.2 hmem)⟩
  | null | bool | num | str | arr => rwa [isWithin_eq_same rfl] at h

/-! ### Greater outputs -/

/-- **An output gets a new member**: the output itself is an object, or an object is reached in it
through members of objects. -/
inductive Enlarges : Json → Json → Prop
  | add {members : Members} (name : String) (value : Json)
      (hnew : Entries.get? members name = none) :
      Enlarges (.obj members) (.obj (Entries.insert name value members))
  | inside {members : Members} {name : String} {j j' : Json}
      (hold : Entries.get? members name = some j) (h : Enlarges j j') :
      Enlarges (.obj members) (.obj (Entries.insert name j' members))

/-- **A greater output has all the parts that it had.** -/
theorem isWithin_of_enlarges (h : a.Enlarges b) (he : e.isWithin a = true) :
    e.isWithin b = true := by
  induction h generalizing e with
  | @add members name value hnew =>
    cases e with
    | obj wanted =>
      obtain ⟨_, ⟨⟩, hfound⟩ := isWithin_obj_iff.mp he
      refine isWithin_obj_iff.mpr ⟨_, rfl, fun m hm => ?_⟩
      obtain ⟨j, hj, hwithin⟩ := hfound m hm
      have hother : m.1 ≠ name := by
        rintro rfl
        cases hnew.symm.trans hj
      exact ⟨j, (Entries.get?_insert_of_ne hother value members).trans hj, hwithin⟩
    | null | bool | num | str | arr => rw [isWithin_eq_same rfl] at he; cases he
  | @inside members name j j' hold _ ih =>
    cases e with
    | obj wanted =>
      obtain ⟨_, ⟨⟩, hfound⟩ := isWithin_obj_iff.mp he
      refine isWithin_obj_iff.mpr ⟨_, rfl, fun m hm => ?_⟩
      obtain ⟨i, hi, hwithin⟩ := hfound m hm
      rw [Entries.get?_insert]
      split
      · rename_i hname
        rw [← hname, hold, Option.some_inj] at hi
        exact ⟨j', rfl, ih (hi ▸ hwithin)⟩
      · exact ⟨i, hi, hwithin⟩
    | null | bool | num | str | arr => rw [isWithin_eq_same rfl] at he; cases he

/-! ### The laws of parts -/

/-- An expected part is expected to be one. -/
theorem check_subset_eq_ok_iff {stated output : Json} :
    (Expectation.subset stated).check output = .ok () ↔ stated.isWithin output = true := by
  rw [Expectation.check]
  split
  · exact iff_of_true rfl ‹_›
  · exact iff_of_false nofun ‹_›

/-- **A part means that every stated field is there.**

* A value is a part of an output exactly when, wherever a sequence of names leads through objects to
  something in the value, it leads in the output to an object if that is one, and else to an equal
  value.
* To be a part is reflexive and transitive, and values that are parts of each other are the equal
  ones.
* An output with new fields, at any depth outside of arrays, has all the parts that it had; so it
  meets what is expected of a part of it. -/
theorem isWithin_laws :
    (∀ e a : Json, e.Canonical → (e.isWithin a = true ↔
      ∀ keys x, e.reached? keys = some x → ∃ y, a.reached? keys = some y ∧
        (x.isObject = true → y.isObject = true) ∧ (x.isObject = false → y.same x = true))) ∧
    (∀ a : Json, a.Canonical → a.isWithin a = true) ∧
    (∀ e a b : Json, e.isWithin a = true → a.isWithin b = true → e.isWithin b = true) ∧
    (∀ e a : Json, e.Canonical → a.Canonical →
      (e.same a = true ↔ e.isWithin a = true ∧ a.isWithin e = true)) ∧
    (∀ e a b : Json, Relation.ReflTransGen Enlarges a b → e.isWithin a = true →
      e.isWithin b = true) ∧
    ∀ e a b : Json, Relation.ReflTransGen Enlarges a b →
      (Expectation.subset e).check a = .ok () → (Expectation.subset e).check b = .ok () := by
  have henlarge : ∀ e a b : Json, Relation.ReflTransGen Enlarges a b → e.isWithin a = true →
      e.isWithin b = true := by
    intro e a b hlarger h
    induction hlarger with
    | refl => exact h
    | tail _ hstep ih => exact isWithin_of_enlarges hstep ih
  refine ⟨fun e a he => isWithin_iff he, fun a ha => isWithin_of_same ha (same_refl a),
    fun e a b => isWithin_trans, fun e a he ha => ⟨fun h => ?_, fun h => ?_⟩, henlarge,
    fun e a b hlarger h => ?_⟩
  · exact ⟨isWithin_of_same ha h, isWithin_of_same he (same_symm h)⟩
  · exact same_of_isWithin he ha h.1 h.2
  · rw [check_subset_eq_ok_iff] at h ⊢
    exact henlarge e a b hlarger h

/-- Some user. -/
def someUser : Json := .obj [("user", .obj [])]

/-- A user with a name. -/
def namedUser : Json := .obj [("user", .obj [("name", .str "Ada")])]

/-- A user with a name, and a version. -/
def versionedUser : Json := .obj [("user", .obj [("name", .str "Ada")]), ("version", .num (.int 2))]

theorem isWithin_laws_users :
    (someUser.Canonical ∧ ∃ y, namedUser.reached? ["user"] = some y ∧ y.isObject = true) ∧
    (namedUser.Canonical ∧ namedUser.isWithin namedUser = true) ∧
    (someUser.isWithin namedUser = true ∧ namedUser.isWithin versionedUser = true ∧
      someUser.isWithin versionedUser = true) ∧
    (namedUser.same someUser = true ↔
      namedUser.isWithin someUser = true ∧ someUser.isWithin namedUser = true) ∧
    (Relation.ReflTransGen Enlarges namedUser versionedUser ∧
      (Expectation.subset someUser).check namedUser = .ok () ∧
      (Expectation.subset someUser).check versionedUser = .ok ()) := by
  obtain ⟨hplaces, hrefl, htrans, hequal, hlarger, hcheck⟩ := isWithin_laws
  have hsome : someUser.Canonical := by
    simp [someUser, Canonical, CanonicalMembers]
  have hnamed : namedUser.Canonical := by
    simp [namedUser, Canonical, CanonicalMembers]
  have hwithin : someUser.isWithin namedUser = true := by decide +kernel
  have hadd : Relation.ReflTransGen Enlarges namedUser versionedUser :=
    .single (.add "version" (.num (.int 2)) (by decide))
  have hgreater := hlarger namedUser namedUser versionedUser hadd (hrefl namedUser hnamed)
  obtain ⟨y, hy, hobject, -⟩ := (hplaces _ _ hsome).mp hwithin ["user"] (.obj []) rfl
  have hmet := check_subset_eq_ok_iff.mpr hwithin
  exact ⟨⟨hsome, y, hy, hobject rfl⟩, ⟨hnamed, hrefl _ hnamed⟩,
    ⟨hwithin, hgreater, htrans _ _ _ hwithin hgreater⟩, hequal _ _ hnamed hsome, hadd, hmet,
    hcheck _ _ _ hadd hmet⟩

end Json

end CallChain
