import CallChain.Http.Live
import Mathlib.Data.List.DropRight

/-!
# Calls that stay at their service

A service is rooted at a base address, which has a scheme, an authority and a place there
(`CallChain.BaseAddress`). The address of a call is made by writing the path of the call behind the
base address, so it depends on the first character of the path whether the authority is read as it
was meant: only a slash ends it. Then it is read, with its scheme, as that of the base address
(`CallChain.BaseAddress.origin_parse?`), whatever else is written there.

`CallChain.LiveService.Stays` is what is expected of a call, and it holds exactly for the paths that
start with a slash (`CallChain.LiveService.stays_iff`).
-/

set_option autoImplicit false

namespace CallChain

/-- What is not cut at its end stays when more is written behind it. -/
theorem rdropWhile_append {α : Type} {p : α → Bool} {front : List α}
    (h : front.rdropWhile p = front) (rest : List α) :
    (front ++ rest).rdropWhile p = front ++ rest.rdropWhile p := by
  induction rest using List.reverseRecOn with
  | nil => simpa using h
  | append_singleton rest a ih =>
    rw [← List.append_assoc, List.rdropWhile_concat, List.rdropWhile_concat, ih]
    split
    · rfl
    · rw [List.append_assoc]

/-- A path that starts with a slash. -/
def Rooted (path : List Char) : Prop := ∃ rest, path = '/' :: rest

/-! ### Who an address is at -/

namespace Url

/-- **Who an address is at**: its scheme and its authority. -/
def origin (u : Url) : String × String := (u.scheme, u.authority)

@[simp] theorem authority_withPairs (u : Url) (pairs : List (String × String)) :
    (u.withPairs pairs).authority = u.authority := by
  rw [withPairs]
  split <;> rfl

/-- Blanks, which do not count at the ends of an address. -/
def isOuter (c : Char) : Bool := c.toNat ≤ 32

/-- What counts within an address. -/
def isCounted (c : Char) : Bool := c ≠ '\t' && c ≠ '\n' && c ≠ '\r'

/-- What counts of the text of an address. -/
def clean (text : List Char) : List Char :=
  ((text.dropWhile isOuter).rdropWhile isOuter).filter isCounted

/-- What stands before the colon of a text. -/
def schemeOf (cs : List Char) : List Char := cs.takeWhile (· ≠ ':')

/-- What stands behind the colon and the slashes of a text, up to where an authority ends. -/
def authorityOf (cs : List Char) : List Char :=
  (((cs.dropWhile (· ≠ ':')).drop 1).dropWhile fun c => c = '/' || c = '\\').takeWhile
    fun c => !endsAuthority c

/-- Who is meant by a scheme and an authority, if it is someone on the web. -/
def origin? (scheme authority : List Char) : Option (String × String) :=
  if String.ofList (scheme.map Char.toLower) ∈ ["http", "https"] &&
      isAuthority (authority.reverse.takeWhile (· ≠ '@')).reverse then
    some (String.ofList (scheme.map Char.toLower), String.ofList authority)
  else none

theorem eq_of_origin?_eq_some {scheme authority : List Char} {o : String × String}
    (h : origin? scheme authority = some o) :
    o = (String.ofList (scheme.map Char.toLower), String.ofList authority) := by
  rw [origin?] at h
  split at h
  · exact (Option.some_inj.mp h).symm
  · cases h

/-- Only the scheme and the authority of a text decide who its address is at. -/
theorem origin_parse? (text : String) :
    (parse? text).map origin =
      origin? (schemeOf (clean text.toList)) (authorityOf (clean text.toList)) := by
  rw [parse?, origin?, apply_ite (Option.map origin)]
  rfl

end Url

/-- **A base address** `scheme://authority/place`, where the place may be left out. -/
structure BaseAddress where
  scheme : List Char
  authority : List Char
  place : List Char
  scheme_char : ∀ c ∈ scheme, 32 < c.toNat ∧ c ≠ ':'
  authority_ne : authority ≠ []
  authority_char : ∀ c ∈ authority, 32 < c.toNat ∧ Url.endsAuthority c = false
  place_rooted : place = [] ∨ Rooted place

namespace BaseAddress

variable (b : BaseAddress) {place : List Char}

/-- The address up to the end of the authority. -/
def front : List Char := b.scheme ++ ':' :: '/' :: '/' :: b.authority

/-- The address as it is written. -/
def text : String := String.ofList (b.front ++ b.place)

/-- The front is not cut at its end, for it ends with a character of the authority. -/
theorem rdropWhile_front {p : Char → Bool} (h : ∀ c ∈ b.authority, p c = false) :
    b.front.rdropWhile p = b.front := by
  rw [List.rdropWhile_eq_self_iff]
  intro hne
  have hlast : b.front.getLast hne = b.authority.getLast b.authority_ne := by
    simp [front, List.getLast_append_of_ne_nil, b.authority_ne]
  rw [hlast, h _ (List.getLast_mem _)]
  exact Bool.false_ne_true

/-- Nothing in the front is a blank. -/
theorem lt_of_mem_front {c : Char} (h : c ∈ b.front) : 32 < c.toNat := by
  rw [front, List.mem_append] at h
  rcases h with hscheme | hrest
  · exact (b.scheme_char c hscheme).1
  · simp only [List.mem_cons] at hrest
    rcases hrest with rfl | rfl | rfl | hauthority
    · decide
    · decide
    · decide
    · exact (b.authority_char c hauthority).1

/-- **The front counts as it is**, and behind it a place that may be cut. -/
theorem exists_clean_append (h : place = [] ∨ Rooted place) :
    ∃ place', (place' = [] ∨ Rooted place') ∧
      Url.clean (b.front ++ place) = b.front ++ place' := by
  have houter : ∀ c : Char, 32 < c.toNat → Url.isOuter c = false :=
    fun c hc => by simpa [Url.isOuter] using hc
  have hcounted : ∀ c : Char, 32 < c.toNat → Url.isCounted c = true := by
    intro c hc
    simp only [Url.isCounted, Bool.and_eq_true, decide_eq_true_eq]
    refine ⟨⟨?_, ?_⟩, ?_⟩ <;> rintro rfl <;> exact absurd hc (by decide)
  have hstart : (b.front ++ place).dropWhile Url.isOuter = b.front ++ place := by
    rcases hfront : b.front with _ | ⟨c, rest⟩
    · simp [front] at hfront
    · have hc : Url.isOuter c = false := houter c (b.lt_of_mem_front (hfront ▸ List.mem_cons_self))
      rw [List.cons_append, List.dropWhile_cons_of_neg (by simp [hc])]
  have hend : b.front.rdropWhile Url.isOuter = b.front :=
    b.rdropWhile_front fun c hc => houter c (b.authority_char c hc).1
  have hkept : b.front.filter Url.isCounted = b.front :=
    List.filter_eq_self.mpr fun c hc => hcounted c (b.lt_of_mem_front hc)
  refine ⟨(place.rdropWhile Url.isOuter).filter Url.isCounted, ?_, ?_⟩
  · rcases h with rfl | ⟨rest, rfl⟩
    · exact Or.inl rfl
    · -- The slash at the beginning of the place is no blank.
      have hslash : (['/'] ++ rest).rdropWhile Url.isOuter = ['/'] ++ rest.rdropWhile Url.isOuter :=
        rdropWhile_append (by decide) rest
      rw [← List.singleton_append, hslash, List.singleton_append,
        List.filter_cons_of_pos (by decide)]
      exact Or.inr ⟨_, rfl⟩
  · rw [Url.clean, hstart, rdropWhile_append hend, List.filter_append, hkept]

theorem scheme_ne_colon : ∀ c ∈ b.scheme, decide (c ≠ ':') = true :=
  fun c hc => decide_eq_true (b.scheme_char c hc).2

theorem schemeOf_append : Url.schemeOf (b.front ++ place) = b.scheme := by
  rw [Url.schemeOf, front, List.append_assoc, List.takeWhile_append_of_pos b.scheme_ne_colon]
  simp

/-- **The authority ends where the place begins.** -/
theorem authorityOf_append (h : place = [] ∨ Rooted place) :
    Url.authorityOf (b.front ++ place) = b.authority := by
  have hcolon : ((b.front ++ place).dropWhile (· ≠ ':')).drop 1 =
      '/' :: '/' :: (b.authority ++ place) := by
    rw [front, List.append_assoc, List.dropWhile_append_of_pos b.scheme_ne_colon]
    rfl
  -- No more than the two slashes are left out: the authority starts with another character.
  have hslashes : (b.authority ++ place).dropWhile (fun c => c = '/' || c = '\\') =
      b.authority ++ place := by
    rcases hfirst : b.authority with _ | ⟨c, rest⟩
    · exact absurd hfirst b.authority_ne
    · have hc := (b.authority_char c (hfirst ▸ List.mem_cons_self)).2
      simp only [Url.endsAuthority, Bool.or_eq_false_iff] at hc
      rw [List.cons_append, List.dropWhile_cons_of_neg (by simp [hc])]
  have hauthority : ∀ c ∈ b.authority, (!Url.endsAuthority c) = true :=
    fun c hc => by rw [(b.authority_char c hc).2, Bool.not_false]
  have hplace : place.takeWhile (fun c => !Url.endsAuthority c) = [] := by
    rcases h with rfl | ⟨rest, rfl⟩
    · rfl
    · exact List.takeWhile_cons_of_neg (by decide)
  rw [Url.authorityOf, hcolon, List.dropWhile_cons_of_pos (by decide),
    List.dropWhile_cons_of_pos (by decide), hslashes, List.takeWhile_append_of_pos hauthority,
    hplace, List.append_nil]

/-- **Who an address is at is decided in front of its place.** -/
theorem origin_parse? (h : place = [] ∨ Rooted place) :
    (Url.parse? (String.ofList (b.front ++ place))).map Url.origin =
      Url.origin? b.scheme b.authority := by
  obtain ⟨place', hplace', hclean⟩ := b.exists_clean_append h
  rw [Url.origin_parse?, String.toList_ofList, hclean, schemeOf_append,
    authorityOf_append b hplace']

/-- The address without the slashes at its end. -/
theorem toList_trimSlashes_text :
    (trimSlashes b.text).toList = b.front ++ b.place.rdropWhile (· = '/') := by
  have hend : b.front.rdropWhile (fun c => decide (c = '/')) = b.front := by
    refine b.rdropWhile_front fun c hc => decide_eq_false ?_
    rintro rfl
    exact absurd (b.authority_char '/' hc).2 (by decide)
  rw [trimSlashes, text, String.toList_ofList, String.toList_ofList]
  exact rdropWhile_append hend b.place

/-- What is left of the place is a place, whatever rooted path is written behind it. -/
theorem rooted_rdropWhile_append {path : List Char} (h : Rooted path) :
    Rooted (b.place.rdropWhile (· = '/') ++ path) := by
  obtain ⟨rest, rfl⟩ := h
  obtain ⟨cut, hcut⟩ := List.rdropWhile_prefix (fun c => decide (c = '/')) b.place
  rcases hleft : b.place.rdropWhile (fun c => decide (c = '/')) with _ | ⟨c, more⟩
  · exact ⟨rest, rfl⟩
  · rw [hleft] at hcut
    rcases b.place_rooted with hnil | ⟨place, hplace⟩
    · rw [hnil] at hcut
      cases hcut
    · rw [hplace] at hcut
      cases hcut
      exact ⟨_, rfl⟩

end BaseAddress

/-! ### Calls -/

namespace LiveService

/-- **A call that stays at its service.** Its address is the base address without the slashes at its
end, and behind it a path that starts with a slash; it is at the scheme and the authority of the
base address, and so is the message that is sent. -/
structure Stays (service : LiveService) (b : BaseAddress) (r : Request) : Prop where
  rooted : Rooted r.path.toList
  url_eq : ∃ trimmed slashes, b.text.toList = trimmed ++ slashes ∧ (∀ c ∈ slashes, c = '/') ∧
    trimmed.getLast? ≠ some '/' ∧ (service.url r).toList = trimmed ++ r.path.toList
  origin_eq : (Url.parse? (service.url r)).map Url.origin = (Url.parse? b.text).map Url.origin
  scheme_eq : ∀ u, Url.parse? (service.url r) = some u →
    u.scheme = String.ofList (b.scheme.map Char.toLower)
  authority_eq : ∀ m, service.message? r = some m → m.authority = String.ofList b.authority

variable {service : LiveService} {b : BaseAddress} {r : Request}

/-- **A call stays at its service when its path starts with a slash**, and only then. -/
theorem stays_iff (hbase : service.base = b.text) :
    service.Stays b r ↔ Rooted r.path.toList := by
  refine ⟨Stays.rooted, fun h => ?_⟩
  have hurl : (service.url r).toList =
      b.front ++ (b.place.rdropWhile (· = '/') ++ r.path.toList) := by
    rw [url, hbase, String.toList_append, b.toList_trimSlashes_text, List.append_assoc]
  have horigin : (Url.parse? (service.url r)).map Url.origin =
      Url.origin? b.scheme b.authority := by
    rw [← String.ofList_toList (s := service.url r), hurl]
    exact b.origin_parse? (Or.inr (b.rooted_rdropWhile_append h))
  have hat : ∀ u, Url.parse? (service.url r) = some u →
      u.origin = (String.ofList (b.scheme.map Char.toLower), String.ofList b.authority) := by
    intro u hu
    rw [hu] at horigin
    exact Url.eq_of_origin?_eq_some horigin.symm
  refine ⟨h, ?_, horigin.trans (b.origin_parse? b.place_rooted).symm, ?_, ?_⟩
  · refine ⟨b.text.toList.rdropWhile (· = '/'), b.text.toList.rtakeWhile (· = '/'),
      List.rdropWhile_append_rtakeWhile.symm, ?_, ?_, ?_⟩
    · intro c hc
      simpa using List.mem_rtakeWhile_imp hc
    · intro hlast
      obtain ⟨hne, hslash⟩ := List.mem_getLast?_eq_getLast hlast
      exact List.rdropWhile_last_not _ _ hne (decide_eq_true hslash.symm)
    · rw [hurl, ← List.append_assoc, ← b.toList_trimSlashes_text, trimSlashes, String.toList_ofList]
      rfl
  · exact fun u hu => congrArg Prod.fst (hat u hu)
  · intro m hm
    rcases hu : Url.parse? (service.url r) with _ | u
    · rw [message?, hu] at hm
      cases hm
    · rw [message?, hu] at hm
      rw [← Option.some_inj.mp hm]
      exact (Url.authority_withPairs u r.query).trans (congrArg Prod.snd (hat u hu))

end LiveService

end CallChain
