import Mathlib.Tactic.Common
import Toolgate.Schema.Accept
import Toolgate.Schema.Translation

/-!
# Members of enumerations

A value that is checked against an enumeration comes back as the member it equals. An enumeration
lists no member that equals an earlier one, so a member comes back as itself. Only an integer that
fits no machine word is refused though it is a member, where another member is an integer that fits
one: a floating-point number that equals it is let through.

## Main definitions

* `IsUniform`: no integer that fits a machine word stands beside one that does not

## Main statements

* `sameNumber_symm`, `sameNumber_self`: equality of numbers by value
* `acceptMember_of_acceptMember`: what an enumeration makes of a value it accepts as it is
-/

namespace Toolgate

open Float.Model (UnpackedFloat)

/-! ## Equality of numbers by value -/

/-- Floating-point numbers that compare as equal are the same one, or both are zero. -/
theorem eq_or_zero_of_compare {a b : UnpackedFloat} (h : a.compare b = some .eq) :
    a = b ∨ (∃ s, a = .zero s) ∧ ∃ s, b = .zero s := by
  cases a with
  | notANumber => cases h
  | infinity s =>
    cases b with
    | infinity t => cases s <;> cases t <;> first | exact .inl rfl | cases h
    | _ => cases s <;> cases h
  | zero s =>
    cases b with
    | zero t => exact .inr ⟨⟨s, rfl⟩, t, rfl⟩
    | notANumber => cases h
    | _ t => cases t <;> cases h
  | finite s m e =>
    cases b with
    | finite t n f =>
      obtain ⟨rfl, hsame⟩ : s = t ∧ (compare e f).then (compare m n) = .eq := by
        cases s <;> cases t
        · exact ⟨rfl, Ordering.swap_eq_eq.mp (Option.some.inj h)⟩
        · cases h
        · cases h
        · exact ⟨rfl, Option.some.inj h⟩
      obtain ⟨hexponent, hmantissa⟩ := Ordering.then_eq_eq.mp hsame
      obtain rfl := Std.compare_eq_iff_eq.mp hexponent
      obtain rfl := Std.compare_eq_iff_eq.mp hmantissa
      exact .inl rfl
    | notANumber => cases s <;> cases h
    | _ t => cases s <;> cases t <;> cases h

theorem compare_self {a : UnpackedFloat} (h : a ≠ .notANumber) : a.compare a = some .eq := by
  cases a with
  | notANumber => exact absurd rfl h
  | infinity s | zero s => cases s <;> rfl
  | finite s m e =>
    have hsame : (compare e e).then (compare m m) = .eq :=
      Ordering.then_eq_eq.mpr ⟨Std.compare_eq_iff_eq.mpr rfl, Std.compare_eq_iff_eq.mpr rfl⟩
    cases s with
    | positive => exact congrArg some hsame
    | negative => exact congrArg (some ∘ Ordering.swap) hsame

theorem beq_float_iff {x y : Float} :
    (x == y) = true ↔ x.toModel.unpack.compare y.toModel.unpack = some .eq := by
  change (x.toModel.unpack.compare y.toModel.unpack == some .eq) = true ↔ _
  exact beq_iff_eq

/-- An undefined number equals nothing; every other number that equals something equals itself. -/
theorem beq_self_of_beq {x y : Float} (h : (x == y) = true) : (x == x) = true := by
  rw [beq_float_iff] at h ⊢
  refine compare_self fun hnan => ?_
  rw [hnan] at h
  cases h

theorem beq_symm_float {x y : Float} (h : (x == y) = true) : (y == x) = true := by
  rw [beq_float_iff] at h ⊢
  rcases eq_or_zero_of_compare h with heq | ⟨⟨s, hx⟩, t, hy⟩
  · rwa [← heq] at h ⊢
  · rw [hx, hy]
    rfl

namespace Json

theorem sameNumber_symm {m n : Int ⊕ Float} (h : sameNumber m n = true) :
    sameNumber n m = true := by
  cases m <;> cases n
  · exact beq_iff_eq.mpr (beq_iff_eq.mp h).symm
  · cases h
  · cases h
  · exact beq_symm_float h

theorem sameNumber_self {m n : Int ⊕ Float} (h : sameNumber m n = true) :
    sameNumber m m = true := by
  cases m with
  | inl m => simp [sameNumber]
  | inr x =>
    cases n with
    | inl n => cases h
    | inr y => exact beq_self_of_beq h

/-- Values that may be members of an enumeration are the same when both are null, or they are the
same text, or numbers of one value. -/
theorem same_iff_of_isMember {v w : Json} (hv : Schema.isMember v = true) : v.same w = true ↔
    v = .null ∧ w = .null ∨ (∃ s, v = .str s ∧ w = .str s) ∨
      ∃ m n, v.number? = some m ∧ w.number? = some n ∧ sameNumber m n = true := by
  cases v with
  | str s => cases w <;> simp [same, number?, @eq_comm _ s]
  | date | arr | obj => cases hv
  | _ => cases w <;> simp [same, number?]

theorem same_symm {v w : Json} (hv : Schema.isMember v = true) (hw : Schema.isMember w = true)
    (h : v.same w = true) : w.same v = true := by
  rw [same_iff_of_isMember hw]
  rcases (same_iff_of_isMember hv).mp h with ⟨rfl, rfl⟩ | ⟨s, rfl, rfl⟩ | ⟨m, n, hm, hn, hsame⟩
  · exact .inl ⟨rfl, rfl⟩
  · exact .inr (.inl ⟨s, rfl, rfl⟩)
  · exact .inr (.inr ⟨n, m, hn, hm, sameNumber_symm hsame⟩)

theorem same_self {v w : Json} (hv : Schema.isMember v = true) (h : v.same w = true) :
    v.same v = true := by
  rw [same_iff_of_isMember hv]
  rcases (same_iff_of_isMember hv).mp h with ⟨rfl, -⟩ | ⟨s, rfl, -⟩ | ⟨m, n, hm, -, hsame⟩
  · exact .inl ⟨rfl, rfl⟩
  · exact .inr (.inl ⟨s, rfl, rfl⟩)
  · exact .inr (.inr ⟨m, m, hm, hm, sameNumber_self hsame⟩)

end Json

namespace Schema

/-! ## Enumerations -/

/-- No integer that fits a machine word stands beside one that does not. -/
def IsUniform (members : List Json) : Prop :=
  ∀ m n, .int m ∈ members → .int n ∈ members → Decimal.fitsWord m = true →
    Decimal.fitsWord n = true

/-- The values may be members of an enumeration, and none equals an earlier one. -/
structure AreMembers (members : List Json) : Prop where
  isMember : ∀ v ∈ members, Schema.isMember v = true
  pairwise : members.Pairwise fun v w => w.same v = false

theorem areMembers_membersFrom {kept : List Json} (h : AreMembers kept.reverse)
    (items : List Json) : AreMembers (membersFrom kept items) := by
  induction items generalizing kept with
  | nil => exact h
  | cons v rest ih =>
    rw [membersFrom]
    split
    · next hnew =>
      simp only [Bool.and_eq_true, Bool.not_eq_true', List.any_eq_false, Bool.not_eq_true] at hnew
      refine ih ⟨?_, ?_⟩
      · rw [List.reverse_cons, List.forall_mem_append, List.forall_mem_singleton]
        exact ⟨h.isMember, hnew.1⟩
      · rw [List.reverse_cons, List.pairwise_append]
        refine ⟨h.pairwise, List.pairwise_singleton _ _, fun w hw u hu => ?_⟩
        obtain rfl := List.mem_singleton.mp hu
        exact hnew.2 w (List.mem_reverse.mp hw)
    · exact ih h

theorem areMembers_enumMembers (v : Json) : AreMembers (enumMembers v) := by
  cases v with
  | arr items => exact areMembers_membersFrom ⟨by simp, by simp⟩ items
  | _ => exact ⟨List.forall_mem_nil _, .nil⟩

variable {members : List Json} {v w : Json} {fit : Fit}

/-- The member that equals a value is the first that equals itself. -/
theorem AreMembers.find?_self (h : AreMembers members)
    (hfind : members.find? (·.same v) = some w) : members.find? (·.same w) = some w := by
  obtain ⟨hsame, before, after, rfl, -⟩ := List.find?_eq_some_iff_append.mp hfind
  have hw := h.isMember w (by simp)
  refine List.find?_eq_some_iff_append.mpr
    ⟨Json.same_self hw hsame, before, after, rfl, fun u hu => ?_⟩
  have hapart : w.same u = false :=
    (List.pairwise_append.mp h.pairwise).2.2 u hu w List.mem_cons_self
  have hu := h.isMember u (List.mem_append_left _ hu)
  by_contra hsame
  rw [Json.same_symm hu hw (by simpa using hsame)] at hapart
  cases hapart

/-- What an enumeration makes of a value it accepts as it is. -/
theorem acceptMember_of_acceptMember (h : AreMembers members) (huniform : IsUniform members)
    (haccept : acceptMember members v = .ok (w, fit)) : acceptMember members w = .ok (w, {}) := by
  unfold acceptMember at haccept ⊢
  dsimp only at haccept ⊢
  split_ifs at haccept with hlarge
  · cases haccept
  split at haccept
  · next member hfind =>
    obtain ⟨rfl, -⟩ := Prod.mk.inj (Except.ok.inj haccept)
    rw [h.find?_self hfind, if_neg]
    rw [Bool.and_eq_true, List.any_eq_true]
    rintro ⟨⟨word, hword, hfits⟩, hlarge⟩
    have hmem := List.mem_of_find?_eq_some hfind
    split at hfits
    · split at hlarge
      · simp [huniform _ _ hword hmem hfits] at hlarge
      · cases hlarge
    · cases hfits
  · cases haccept

end Schema

end Toolgate
