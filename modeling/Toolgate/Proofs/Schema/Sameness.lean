import Mathlib
import Toolgate.Proofs.Schema.Forms
import Toolgate.Proofs.Schema.Stable

/-!
# Shapes that are the same

Of alternatives that are the same by construction only the first is kept. The others are no loss,
since shapes that are the same accept the same values. For texts this is because a pattern is known
by the text it was read from, and for alternatives inside a shape because none of them stands twice,
so that two lists of them that are of one length are one list in two orders. And where values can be
checked against a shape, they can against those that are the same.

## Main definitions

* `Shape.Takes`: is a value accepted at all?
* `Shape.IsTidy`: patterns are those of their texts, and no alternative stands twice

## Main statements

* `takes_list_iff`, `takes_table_iff`, `takes_either_iff`, `takes_optional_iff`: what a shape takes
* `Shape.IsTidy.takes_iff_of_same`: shapes that are the same take the same values
* `Translated.isTidy`: what comes out of a translation is tidy
* `takes_unite_iff`, `exists_of_accept_unite`: alternatives take what one of them takes
* `isSound_unite_iff`: alternatives can be checked when each of them can
-/

namespace Toolgate.Schema

/-! ## Accepted values -/

/-- Is the value accepted? -/
def Shape.Takes (inRecord : Bool) (shape : Shape) (v : Json) : Prop :=
  ∃ w fit, accept inRecord shape v = .ok (w, fit)

section
variable {inRecord : Bool} {v : Json}

theorem Parts.troubles_cons_iff {α : Type} {step : Step} {wrap : Json → α} {head : Checked}
    {rest : Parts α} (hhead : head ≠ .error []) :
    (Parts.cons step wrap head rest).troubles = [] ↔
      (∃ w fit, head = .ok (w, fit)) ∧ rest.troubles = [] := by
  constructor
  · intro h
    obtain ⟨w, fit, hok, hrest, -⟩ := Parts.exists_of_cons hhead h
    exact ⟨⟨w, fit, hok⟩, hrest⟩
  · rintro ⟨⟨w, fit, rfl⟩, hrest⟩
    exact hrest

theorem exists_close_iff {α : Type} {parts : Parts α} {wrap : List α → Json} :
    (∃ w fit, parts.close wrap = .ok (w, fit)) ↔ parts.troubles = [] := by
  constructor
  · rintro ⟨w, fit, h⟩
    exact (Parts.of_close h).1
  · intro h
    obtain ⟨fit, hclose⟩ := Parts.exists_close_of_nil h wrap
    exact ⟨_, fit, hclose⟩

theorem takes_list_iff {item : Shape} (h : item.Complains) :
    (Shape.list item).Takes inRecord v ↔
      ∃ items, v = .arr items ∧ ∀ u ∈ items, item.Takes inRecord u := by
  have hitems (n : ℕ) (items : List Json) :
      (acceptItems (accept inRecord item) n items).troubles = [] ↔
        ∀ u ∈ items, item.Takes inRecord u := by
    induction items generalizing n with
    | nil => simp [acceptItems]
    | cons u rest ih =>
      rw [acceptItems, Parts.troubles_cons_iff (h inRecord u), ih, List.forall_mem_cons]
      rfl
  cases v with
  | arr items =>
    rw [Shape.Takes]
    simp only [accept, exists_close_iff, hitems, Json.arr.injEq, exists_eq_left']
  | _ => simp [Shape.Takes, accept, complain]

theorem takes_table_iff {value : Shape} (h : value.Complains) :
    (Shape.table value).Takes inRecord v ↔
      ∃ given, v = .obj given ∧ ∀ entry ∈ given, value.Takes inRecord entry.2 := by
  have hvalues (given : List (String × Json)) :
      (acceptValues (accept inRecord value) given).troubles = [] ↔
        ∀ entry ∈ given, value.Takes inRecord entry.2 := by
    induction given with
    | nil => simp [acceptValues]
    | cons entry rest ih =>
      rw [acceptValues, Parts.troubles_cons_iff (h inRecord entry.2), ih, List.forall_mem_cons]
      rfl
  cases v with
  | obj given =>
    rw [Shape.Takes]
    simp only [accept, exists_close_iff, hvalues, Json.obj.injEq, exists_eq_left']
  | _ => simp [Shape.Takes, accept, complain]

theorem takes_optional_iff {inner : Shape} :
    (Shape.optional inner).Takes inRecord v ↔ v = .null ∨ inner.Takes inRecord v := by
  by_cases hv : v = .null
  · subst hv
    simp [Shape.Takes, accept, Json.isNull]
  · have hnull : ¬v.isNull = true := by
      cases v <;> simp_all [Json.isNull]
    simp [Shape.Takes, accept, hnull, hv]

theorem takes_acceptVariants_iff {best : Option (Json × Fit)} {troubles : List Trouble}
    {variants : List Shape} :
    (∃ w fit, acceptVariants inRecord v best troubles variants = .ok (w, fit)) ↔
      best.isSome = true ∨ ∃ variant ∈ variants, variant.Takes inRecord v := by
  induction variants generalizing best troubles with
  | nil => cases best <;> simp [acceptVariants, closeVariants]
  | cons variant rest ih =>
    rw [acceptVariants]
    simp only [List.exists_mem_cons_iff]
    split
    · next found hfound =>
      have hrefused : ¬variant.Takes inRecord v := by simp [Shape.Takes, hfound]
      rw [ih, or_iff_right hrefused]
    · next w fit hfound =>
      have haccepted : variant.Takes inRecord v := ⟨w, fit, hfound⟩
      refine iff_of_true ?_ (.inr (.inl haccepted))
      split
      · exact ⟨_, _, rfl⟩
      · split
        · exact ih.mpr (.inl rfl)
        · next hbest =>
          refine ih.mpr (.inl ?_)
          cases best with
          | none => simp at hbest
          | some earlier => rfl

theorem takes_either_iff {variants : List Shape} :
    (Shape.either variants).Takes inRecord v ↔ ∃ variant ∈ variants, variant.Takes inRecord v := by
  rw [Shape.Takes]
  simp only [accept, takes_acceptVariants_iff]
  simp

end

/-! ## Members of choices -/

theorem beq_trans_float {x y z : Float} (hxy : (x == y) = true) (hyz : (y == z) = true) :
    (x == z) = true := by
  rw [beq_float_iff] at hxy hyz ⊢
  rcases eq_or_zero_of_compare hxy with hsame | ⟨⟨s, hx⟩, t, hy⟩
  · rwa [hsame]
  · rcases eq_or_zero_of_compare hyz with hsame | ⟨-, u, hz⟩
    · rw [hx, ← hsame, hy]
      rfl
    · rw [hx, hz]
      rfl

/-- Floating-point numbers that are equal are one number, or the two zeros. -/
theorem wholeValue?_congr {x y : Float} (h : (x == y) = true) :
    Decimal.wholeValue? x = Decimal.wholeValue? y := by
  obtain ⟨-, -, rfl | ⟨rfl, rfl⟩ | ⟨rfl, rfl⟩⟩ := Float.beq_iff_ne_nan_and_eq.mp h
  · rfl
  · decide +kernel
  · decide +kernel

namespace Shape

open sameMembers (sameMember)

variable {x y z v : Json} {xs ys zs : List Json}

/-- Only floating-point numbers are the same without being one. -/
theorem eq_or_of_sameMember (h : sameMember x y = true) :
    x = y ∨ ∃ a b, x = .float a ∧ y = .float b ∧ (a == b) = true := by
  cases x <;> cases y <;> simp only [sameMember, beq_iff_eq, Bool.false_eq_true] at h
  case float.float a b => exact .inr ⟨a, b, rfl, rfl, h⟩
  case null.null => exact .inl rfl
  all_goals exact .inl (congrArg _ h)

theorem sameMember_trans (hxy : sameMember x y = true) (hyz : sameMember y z = true) :
    sameMember x z = true := by
  rcases eq_or_of_sameMember hxy with rfl | ⟨a, b, rfl, rfl, hab⟩
  · exact hyz
  · rcases eq_or_of_sameMember hyz with rfl | ⟨_, c, hb, rfl, hbc⟩
    · exact hab
    · obtain rfl := Json.float.inj hb
      exact beq_trans_float hab hbc

/-- Members that are the same equal the same values. -/
theorem same_of_sameMember (h : sameMember x y = true) (hv : x.same v = true) :
    y.same v = true := by
  rcases eq_or_of_sameMember h with rfl | ⟨a, b, rfl, rfl, hab⟩
  · exact hv
  · obtain ⟨m, n, hm, hn, hmn⟩ : ∃ m n, (Json.float a).number? = some m ∧
        v.number? = some n ∧ Json.sameNumber m n = true := by
      simpa using (Json.same_iff_of_isMember rfl).mp hv
    refine (Json.same_iff_of_isMember rfl).mpr (.inr (.inr ?_))
    rw [Json.number?] at hm ⊢
    obtain rfl := Option.some.inj hm
    refine ⟨_, n, rfl, hn, ?_⟩
    rw [← wholeValue?_congr hab]
    cases hwhole : Decimal.wholeValue? a with
    | some k => rwa [hwhole] at hmn
    | none =>
      rw [hwhole] at hmn
      cases n with
      | inl n => cases hmn
      | inr c => exact beq_trans_float (beq_symm_float hab) hmn

theorem sameMembers_iff : sameMembers xs ys = true ↔
    (∀ x ∈ xs, ∃ y ∈ ys, sameMember x y = true) ∧ ∀ y ∈ ys, ∃ x ∈ xs, sameMember y x = true := by
  simp [sameMembers]

theorem sameMembers_symm (h : sameMembers xs ys = true) : sameMembers ys xs = true :=
  sameMembers_iff.mpr (sameMembers_iff.mp h).symm

theorem sameMembers_trans (hxy : sameMembers xs ys = true) (hyz : sameMembers ys zs = true) :
    sameMembers xs zs = true := by
  rw [sameMembers_iff] at hxy hyz ⊢
  have chain {xs ys zs : List Json} (hxy : ∀ x ∈ xs, ∃ y ∈ ys, sameMember x y = true)
      (hyz : ∀ y ∈ ys, ∃ z ∈ zs, sameMember y z = true) (x : Json) (hx : x ∈ xs) :
      ∃ z ∈ zs, sameMember x z = true := by
    obtain ⟨y, hy, hxy⟩ := hxy x hx
    obtain ⟨z, hz, hyz⟩ := hyz y hy
    exact ⟨z, hz, sameMember_trans hxy hyz⟩
  exact ⟨chain hxy.1 hyz.1, chain hyz.2 hxy.2⟩

end Shape

/-- Is there an integer among the members that fits a machine word? -/
def HasWord (members : List Json) : Prop :=
  ∃ m, .int m ∈ members ∧ Decimal.fitsWord m = true

/-- A choice takes the values that equal one of its members, but no integer that fits no machine
word where one of the members is an integer that does. -/
theorem takes_choice_iff {inRecord : Bool} {members : List Json} {v : Json} :
    (Shape.choice members).Takes inRecord v ↔
      ¬(HasWord members ∧ ∃ n, v = .int n ∧ Decimal.fitsWord n = false) ∧
        ∃ member ∈ members, member.same v = true := by
  rw [Shape.Takes]
  simp only [accept]
  unfold acceptMember
  dsimp only
  split_ifs with hrefused
  · obtain ⟨hword, hlarge⟩ := Bool.and_eq_true_iff.mp hrefused
    obtain ⟨member, hmember, hfits⟩ := List.any_eq_true.mp hword
    refine iff_of_false (by simp [complain]) fun h => h.1 ⟨?_, ?_⟩
    · cases member with
      | int m => exact ⟨m, hmember, hfits⟩
      | _ => cases hfits
    · cases v with
      | int n => exact ⟨n, rfl, by simpa using hlarge⟩
      | _ => cases hlarge
  · have hopen : ¬(HasWord members ∧ ∃ n, v = .int n ∧ Decimal.fitsWord n = false) := by
      rintro ⟨⟨m, hm, hfits⟩, n, rfl, hlarge⟩
      refine hrefused (Bool.and_eq_true_iff.mpr ⟨List.any_eq_true.mpr ⟨_, hm, hfits⟩, ?_⟩)
      simp [hlarge]
    rw [and_iff_right hopen, ← List.find?_isSome]
    cases hfind : members.find? (·.same v) with
    | none => exact iff_of_false (by simp [complain]) Bool.false_ne_true
    | some member => exact iff_of_true ⟨_, _, rfl⟩ rfl

/-- Choices of the same members take the same values. -/
theorem takes_choice_of_same {inRecord : Bool} {xs ys : List Json} {v : Json}
    (h : Shape.sameMembers xs ys = true) (hv : (Shape.choice xs).Takes inRecord v) :
    (Shape.choice ys).Takes inRecord v := by
  obtain ⟨hxy, hyx⟩ := Shape.sameMembers_iff.mp h
  rw [takes_choice_iff] at hv ⊢
  obtain ⟨hfits, x, hx, hsame⟩ := hv
  obtain ⟨y, hy, hxy⟩ := hxy x hx
  refine ⟨fun ⟨⟨m, hm, hword⟩, hlarge⟩ => hfits ⟨⟨m, ?_, hword⟩, hlarge⟩, y, hy,
    Shape.same_of_sameMember hxy hsame⟩
  obtain ⟨x, hx, hmx⟩ := hyx _ hm
  rcases Shape.eq_or_of_sameMember hmx with rfl | ⟨_, _, hm, -⟩
  · exact hx
  · cases hm

/-! ## Tidy shapes -/

/-- Where each of the `xs` goes with one of the `ys`, which are no more than them, and no two with
the same, each of the `ys` goes with one of the `xs`. -/
theorem exists_of_pairwise_apart {α β : Type} {R : α → β → Prop} {xs : List α} {ys : List β}
    (hlength : ys.length ≤ xs.length) (h : ∀ x ∈ xs, ∃ y ∈ ys, R x y)
    (hapart : xs.Pairwise fun x x' => ∀ y, R x y → ¬R x' y) : ∀ y ∈ ys, ∃ x ∈ xs, R x y := by
  induction xs generalizing ys with
  | nil =>
    rw [List.length_nil, Nat.le_zero, List.length_eq_zero_iff] at hlength
    simp [hlength]
  | cons x rest ih =>
    obtain ⟨⟨y, hy, hxy⟩, hrest⟩ := List.forall_mem_cons.mp h
    obtain ⟨hfirst, hapart⟩ := List.pairwise_cons.mp hapart
    obtain ⟨before, after, rfl⟩ := List.append_of_mem hy
    -- The one that `x` goes with is none of those that the rest go with.
    have hothers : ∀ x' ∈ rest, ∃ y' ∈ before ++ after, R x' y' := by
      intro x' hx'
      obtain ⟨y', hy', hxy'⟩ := hrest x' hx'
      refine ⟨y', ?_, hxy'⟩
      rw [List.mem_append, List.mem_cons] at hy'
      rcases hy' with hy' | rfl | hy'
      · exact List.mem_append_left _ hy'
      · exact absurd hxy' (hfirst x' hx' y' hxy)
      · exact List.mem_append_right _ hy'
    have hhit := ih (by simp at hlength ⊢; omega) hothers hapart
    intro y' hy'
    rw [List.mem_append, List.mem_cons] at hy'
    rcases hy' with hy' | rfl | hy'
    · obtain ⟨x', hx', hxy'⟩ := hhit y' (List.mem_append_left _ hy')
      exact ⟨x', List.mem_cons_of_mem _ hx', hxy'⟩
    · exact ⟨x, List.mem_cons_self, hxy⟩
    · obtain ⟨x', hx', hxy'⟩ := hhit y' (List.mem_append_right _ hy')
      exact ⟨x', List.mem_cons_of_mem _ hx', hxy'⟩

/-- The pattern is the one that its text is read as. -/
def TextLimits.IsRead (limits : TextLimits) : Prop :=
  ∀ p, limits.pattern = some p → Pattern.read p.text = .ok p.pattern

theorem TextLimits.same_iff {a b : TextLimits} : a.same b = true ↔
    a.minLength = b.minLength ∧ a.maxLength = b.maxLength ∧
      a.pattern.map (·.text) = b.pattern.map (·.text) := by
  simp [TextLimits.same, and_assoc]

theorem TextLimits.same_symm {a b : TextLimits} (h : a.same b = true) : b.same a = true := by
  rw [same_iff] at h ⊢
  exact ⟨h.1.symm, h.2.1.symm, h.2.2.symm⟩

theorem TextLimits.same_trans {a b c : TextLimits} (hab : a.same b = true)
    (hbc : b.same c = true) : a.same c = true := by
  rw [same_iff] at hab hbc ⊢
  exact ⟨hab.1.trans hbc.1, hab.2.1.trans hbc.2.1, hab.2.2.trans hbc.2.2⟩

theorem TextLimits.eq_of_same {a b : TextLimits} (ha : a.IsRead) (hb : b.IsRead)
    (h : a.same b = true) : a = b := by
  obtain ⟨least, most, p?⟩ := a
  obtain ⟨least', most', q?⟩ := b
  obtain ⟨rfl, rfl, htext⟩ := TextLimits.same_iff.mp h
  cases p? with
  | none =>
    cases q? with
    | none => rfl
    | some q => cases htext
  | some p =>
    cases q? with
    | none => cases htext
    | some q =>
      obtain ⟨text, p⟩ := p
      obtain ⟨text', q⟩ := q
      obtain rfl : text = text' := Option.some.inj htext
      have hp : Pattern.read text = .ok p := ha ⟨text, p⟩ rfl
      have hq : Pattern.read text = .ok q := hb ⟨text, q⟩ rfl
      obtain rfl := Except.ok.inj (hp.symm.trans hq)
      rfl

theorem Bounds.eq_of_isFree {bounds : Bounds} (h : bounds.isFree = true) : bounds = {} := by
  obtain ⟨atLeast, above, atMost, below, multipleOf⟩ := bounds
  simp only [isFree, amounts, List.isEmpty_iff, List.append_eq_nil_iff,
    Option.toList_eq_nil_iff] at h
  obtain ⟨⟨⟨⟨rfl, rfl⟩, rfl⟩, rfl⟩, rfl⟩ := h
  rfl

namespace Shape

/-- Patterns are those that their texts are read as, and of the alternatives in the shape no two are
the same. What is inside of records and behind descriptions does not count, since no two of these
are the same. -/
inductive IsTidy : Shape → Prop where
  | text {limits : TextLimits} (h : limits.IsRead) : IsTidy (.text limits)
  | anything : IsTidy .anything
  | choice (members : List Json) : IsTidy (.choice members)
  | timestamp : IsTidy .timestamp
  | whole (bounds : Bounds) : IsTidy (.whole bounds)
  | number (bounds : Bounds) : IsTidy (.number bounds)
  | truth : IsTidy .truth
  | list {item : Shape} (h : IsTidy item) : IsTidy (.list item)
  | table {value : Shape} (h : IsTidy value) : IsTidy (.table value)
  | record (name : String) (fields : List (Field Shape)) : IsTidy (.record name fields)
  | either {variants : List Shape} (h : ∀ variant ∈ variants, IsTidy variant)
      (apart : variants.Pairwise fun a b => a.same b = false) : IsTidy (.either variants)
  | optional {inner : Shape} (h : IsTidy inner) : IsTidy (.optional inner)
  | described (text : String) (inner : Shape) : IsTidy (.described text inner)

variable {a b c : Shape} {xs ys : List Shape}

theorem sameSome_iff : sameSome a ys = true ↔ ∃ y ∈ ys, a.same y = true := by
  induction ys with
  | nil => simp [sameSome]
  | cons y rest ih => simp [sameSome, ih]

theorem sameEach_iff : sameEach xs ys = true ↔ ∀ x ∈ xs, ∃ y ∈ ys, x.same y = true := by
  induction xs with
  | nil => simp [sameEach]
  | cons x rest ih => simp [sameEach, ih, sameSome_iff]

theorem IsTidy.of_list {item : Shape} (h : (Shape.list item).IsTidy) : item.IsTidy := by
  cases h with
  | list h => exact h

theorem IsTidy.of_table {value : Shape} (h : (Shape.table value).IsTidy) : value.IsTidy := by
  cases h with
  | table h => exact h

theorem IsTidy.of_optional {inner : Shape} (h : (Shape.optional inner).IsTidy) : inner.IsTidy := by
  cases h with
  | optional h => exact h

theorem IsTidy.of_either (h : (Shape.either xs).IsTidy) : ∀ x ∈ xs, x.IsTidy := by
  cases h with
  | either h apart => exact h

/-- How two shapes can be the same. -/
inductive AreSame : Shape → Shape → Prop where
  | anything : AreSame .anything .anything
  | text {a b : TextLimits} (h : a.same b = true) : AreSame (.text a) (.text b)
  | choice {xs ys : List Json} (h : sameMembers xs ys = true) : AreSame (.choice xs) (.choice ys)
  | timestamp : AreSame .timestamp .timestamp
  | whole {a b : Bounds} (ha : a.isFree = true) (hb : b.isFree = true) :
      AreSame (.whole a) (.whole b)
  | number {a b : Bounds} (ha : a.isFree = true) (hb : b.isFree = true) :
      AreSame (.number a) (.number b)
  | truth : AreSame .truth .truth
  | list {a b : Shape} (h : a.same b = true) : AreSame (.list a) (.list b)
  | table {a b : Shape} (h : a.same b = true) : AreSame (.table a) (.table b)
  | either {xs ys : List Shape} (hlength : xs.length = ys.length)
      (h : ∀ x ∈ xs, ∃ y ∈ ys, x.same y = true) : AreSame (.either xs) (.either ys)
  | optional {a b : Shape} (h : a.same b = true) : AreSame (.optional a) (.optional b)

theorem same_iff : a.same b = true ↔ AreSame a b := by
  constructor
  · intro h
    unfold same at h
    split at h
    · exact .anything
    · exact .text h
    · exact .choice h
    · exact .timestamp
    · exact .whole (Bool.and_eq_true_iff.mp h).1 (Bool.and_eq_true_iff.mp h).2
    · exact .number (Bool.and_eq_true_iff.mp h).1 (Bool.and_eq_true_iff.mp h).2
    · exact .truth
    · exact .list h
    · exact .table h
    · rw [Bool.and_eq_true, beq_iff_eq, sameEach_iff] at h
      exact .either h.1 h.2
    · exact .optional h
    · cases h
  · rintro (_ | h | h | _ | ⟨ha, hb⟩ | ⟨ha, hb⟩ | _ | h | h | ⟨hlength, h⟩ | h)
    case either => simpa [same, hlength, sameEach_iff] using h
    all_goals simp [same, *]

theorem same_trans {a b c : Shape} (hab : a.same b = true) (hbc : b.same c = true) :
    a.same c = true := by
  have hcases := same_iff.mp hbc
  rw [same_iff]
  match a, same_iff.mp hab, hcases with
  | _, .anything, .anything => exact .anything
  | _, .timestamp, .timestamp => exact .timestamp
  | _, .truth, .truth => exact .truth
  | _, .text hab, .text hbc => exact .text (TextLimits.same_trans hab hbc)
  | _, .choice hab, .choice hbc => exact .choice (sameMembers_trans hab hbc)
  | _, .whole ha _, .whole _ hc => exact .whole ha hc
  | _, .number ha _, .number _ hc => exact .number ha hc
  | _, .list hab, .list hbc => exact .list (same_trans hab hbc)
  | _, .table hab, .table hbc => exact .table (same_trans hab hbc)
  | _, .optional hab, .optional hbc => exact .optional (same_trans hab hbc)
  | _, .either hlength hab, .either hlength' hbc =>
    refine .either (hlength.trans hlength') fun x hx => ?_
    obtain ⟨y, hy, hxy⟩ := hab x hx
    obtain ⟨z, hz, hyz⟩ := hbc y hy
    exact ⟨z, hz, same_trans hxy hyz⟩
termination_by sizeOf a

/-- Where each of as many shapes is the same as one of the others, and no two of them are the same,
each of the others is the same as one of them. -/
theorem exists_same_of_pairwise (hlength : xs.length = ys.length)
    (heach : ∀ x ∈ xs, ∃ y ∈ ys, x.same y = true)
    (apart : xs.Pairwise fun a b => a.same b = false)
    (hsymm : ∀ x ∈ xs, ∀ y, x.same y = true → y.same x = true) :
    ∀ y ∈ ys, ∃ x ∈ xs, x.same y = true := by
  refine exists_of_pairwise_apart hlength.symm.le heach ?_
  refine apart.imp_of_mem fun {x x'} _ hx' hdiffer y hxy hxy' => ?_
  rw [same_trans hxy (hsymm x' hx' y hxy')] at hdiffer
  cases hdiffer

/-- Shapes of which one is tidy are the same whichever comes first. -/
theorem IsTidy.same_symm (h : a.IsTidy) {b : Shape} (hab : a.same b = true) : b.same a = true := by
  induction h generalizing b with
  | @either xs _ apart ih =>
    cases same_iff.mp hab with
    | @either _ ys hlength heach =>
      have hsymm (x : Shape) (hx : x ∈ xs) (y : Shape) := @ih x hx y
      refine same_iff.mpr (.either hlength.symm fun y hy => ?_)
      obtain ⟨x, hx, hxy⟩ := exists_same_of_pairwise hlength heach apart hsymm y hy
      exact ⟨x, hx, hsymm x hx y hxy⟩
  | list _ ih =>
    cases same_iff.mp hab with
    | list hitem => exact same_iff.mpr (.list (ih hitem))
  | table _ ih =>
    cases same_iff.mp hab with
    | table hvalue => exact same_iff.mpr (.table (ih hvalue))
  | optional _ ih =>
    cases same_iff.mp hab with
    | optional hinner => exact same_iff.mpr (.optional (ih hinner))
  | text =>
    cases same_iff.mp hab with
    | text hlimits => exact same_iff.mpr (.text (TextLimits.same_symm hlimits))
  | choice =>
    cases same_iff.mp hab with
    | choice hmembers => exact same_iff.mpr (.choice (sameMembers_symm hmembers))
  | whole =>
    cases same_iff.mp hab with
    | whole ha hb => exact same_iff.mpr (.whole hb ha)
  | number =>
    cases same_iff.mp hab with
    | number ha hb => exact same_iff.mpr (.number hb ha)
  | anything | timestamp | truth =>
    cases same_iff.mp hab
    exact hab
  | record | described => cases same_iff.mp hab

/-- Shapes that are the same take the same values. -/
theorem IsTidy.takes_iff_of_same (ha : a.IsTidy) {b : Shape} (hb : b.IsTidy) (hpa : a.IsProper)
    (hpb : b.IsProper) (h : a.same b = true) {inRecord : Bool} {v : Json} :
    a.Takes inRecord v ↔ b.Takes inRecord v := by
  induction ha generalizing b v with
  | @either xs htidy apart ih =>
    cases same_iff.mp h with
    | @either _ ys hlength heach =>
      have htakes (x : Shape) (hx : x ∈ xs) (y : Shape) (hy : y ∈ ys) (hxy : x.same y = true) :
          x.Takes inRecord v ↔ y.Takes inRecord v :=
        ih x hx (hb.of_either y hy) (hpa.of_either.2 x hx) (hpb.of_either.2 y hy) hxy
      rw [takes_either_iff, takes_either_iff]
      constructor
      · rintro ⟨x, hx, hv⟩
        obtain ⟨y, hy, hxy⟩ := heach x hx
        exact ⟨y, hy, (htakes x hx y hy hxy).mp hv⟩
      · rintro ⟨y, hy, hv⟩
        obtain ⟨x, hx, hxy⟩ := exists_same_of_pairwise hlength heach apart
          (fun x hx _ => (htidy x hx).same_symm) y hy
        exact ⟨x, hx, (htakes x hx y hy hxy).mpr hv⟩
  | @list item _ ih =>
    cases same_iff.mp h with
    | @list _ other hitem =>
      have hown (u : Json) : item.Takes inRecord u ↔ other.Takes inRecord u :=
        ih hb.of_list hpa.of_list hpb.of_list hitem
      rw [takes_list_iff hpa.of_list.complains_self, takes_list_iff hpb.of_list.complains_self]
      simp only [hown]
  | @table value _ ih =>
    cases same_iff.mp h with
    | @table _ other hvalue =>
      have hown (u : Json) : value.Takes inRecord u ↔ other.Takes inRecord u :=
        ih hb.of_table hpa.of_table hpb.of_table hvalue
      rw [takes_table_iff hpa.of_table.complains_self, takes_table_iff hpb.of_table.complains_self]
      simp only [hown]
  | optional _ ih =>
    cases same_iff.mp h with
    | optional hinner =>
      rw [takes_optional_iff, takes_optional_iff]
      exact or_congr_right (ih hb.of_optional hpa.of_optional hpb.of_optional hinner)
  | text hread =>
    cases same_iff.mp h with
    | text hlimits =>
      cases hb with
      | text hread' => rw [TextLimits.eq_of_same hread hread' hlimits]
  | choice =>
    cases same_iff.mp h with
    | choice hmembers =>
      exact ⟨takes_choice_of_same hmembers, takes_choice_of_same (sameMembers_symm hmembers)⟩
  | whole =>
    cases same_iff.mp h with
    | whole hfree hfree' => rw [Bounds.eq_of_isFree hfree, Bounds.eq_of_isFree hfree']
  | number =>
    cases same_iff.mp h with
    | number hfree hfree' => rw [Bounds.eq_of_isFree hfree, Bounds.eq_of_isFree hfree']
  | anything | timestamp | truth =>
    cases same_iff.mp h
    rfl
  | record | described => cases same_iff.mp h

theorem allSound_iff : allSound xs = true ↔ ∀ x ∈ xs, x.isSound = true := by
  induction xs with
  | nil => simp [allSound]
  | cons x rest ih => simp [allSound, ih]

/-- Where values can be checked against a shape, they can against those that are the same. -/
theorem IsTidy.isSound_of_same (h : a.IsTidy) {b : Shape} (hab : a.same b = true)
    (hsound : a.isSound = true) : b.isSound = true := by
  induction h generalizing b with
  | @either xs htidy apart ih =>
    cases same_iff.mp hab with
    | @either _ ys hlength heach =>
      refine allSound_iff.mpr fun y hy => ?_
      obtain ⟨x, hx, hxy⟩ := exists_same_of_pairwise hlength heach apart
        (fun x hx _ => (htidy x hx).same_symm) y hy
      exact ih x hx hxy (allSound_iff.mp hsound x hx)
  | list _ ih =>
    cases same_iff.mp hab with
    | list hitem =>
      have hown := ih hitem hsound
      exact hown
  | table _ ih =>
    cases same_iff.mp hab with
    | table hvalue =>
      have hown := ih hvalue hsound
      exact hown
  | optional _ ih =>
    cases same_iff.mp hab with
    | optional hinner =>
      have hown := ih hinner hsound
      exact hown
  | text =>
    cases same_iff.mp hab with
    | text hlimits =>
      obtain ⟨hleast, hmost, -⟩ := TextLimits.same_iff.mp hlimits
      rwa [isSound, hleast, hmost] at hsound
  | whole =>
    cases same_iff.mp hab with
    | whole _ hfree => rw [Bounds.eq_of_isFree hfree]; rfl
  | number =>
    cases same_iff.mp hab with
    | number _ hfree => rw [Bounds.eq_of_isFree hfree]; rfl
  | choice | anything | timestamp | truth =>
    cases same_iff.mp hab
    rfl
  | record | described => cases same_iff.mp hab

/-! ### Tidy shapes are built from tidy ones -/

theorem IsTidy.orNull (h : a.IsTidy) : a.orNull.IsTidy := by
  cases a with
  | optional inner => exact h
  | _ => exact .optional h

theorem IsTidy.withDescription (h : a.IsTidy) (description : String) :
    (a.withDescription description).IsTidy := by
  unfold Shape.withDescription
  split
  · exact h
  · exact .described description a

theorem IsTidy.variants (h : a.IsTidy) : ∀ variant ∈ a.variants, variant.IsTidy := by
  cases a with
  | either variants => exact h.of_either
  | optional inner =>
    cases inner with
    | either variants => exact h.of_optional.of_either
    | _ => exact List.forall_mem_singleton.mpr h.of_optional
  | _ => exact List.forall_mem_singleton.mpr h

theorem pairwise_distinctFrom (kept shapes : List Shape) :
    (∀ k ∈ kept, ∀ s ∈ distinctFrom kept shapes, k.same s = false) ∧
      (distinctFrom kept shapes).Pairwise fun a b => a.same b = false := by
  induction shapes generalizing kept with
  | nil => simp [distinctFrom]
  | cons s rest ih =>
    rw [distinctFrom]
    split
    · exact ih kept
    · next hnew =>
      obtain ⟨hkept, hpairwise⟩ := ih (kept ++ [s])
      rw [List.forall_mem_append, List.forall_mem_singleton] at hkept
      have hnew : ∀ k ∈ kept, k.same s = false := by simpa using hnew
      exact ⟨fun k hk => List.forall_mem_cons.mpr ⟨hnew k hk, hkept.1 k hk⟩,
        List.pairwise_cons.mpr ⟨hkept.2, hpairwise⟩⟩

theorem isTidy_oneOf (h : ∀ x ∈ xs, x.IsTidy) (apart : xs.Pairwise fun a b => a.same b = false) :
    (oneOf xs).IsTidy := by
  unfold oneOf
  split
  · exact h _ List.mem_cons_self
  · exact .either h apart

theorem isTidy_unite (h : ∀ x ∈ xs, x.IsTidy) : (unite xs).IsTidy := by
  have hcore : (oneOf (distinctFrom [] (xs.flatMap Shape.variants))).IsTidy := by
    refine isTidy_oneOf (fun variant hvariant => ?_) (pairwise_distinctFrom [] _).2
    obtain ⟨x, hx, hvariant⟩ := List.mem_flatMap.mp (mem_of_mem_distinctFrom hvariant)
    exact (h x hx).variants variant hvariant
  unfold unite
  dsimp only
  split
  · exact .optional hcore
  · exact hcore

end Shape

/-! ## Translated forms are tidy -/

theorem isRead_of_pattern? {v : Json} {p : WrittenPattern} (h : pattern? v = .ok (some p)) :
    Pattern.read p.text = .ok p.pattern := by
  unfold pattern? at h
  split at h
  · split at h
    · cases h
    · split at h
      · next hread => cases h; exact hread
      · cases h
      · cases h
  · cases h

theorem isRead_datePattern : Pattern.read datePattern.text = .ok datePattern.pattern := rfl

theorem isTidy_dateShape : dateShape.IsTidy := by
  have hread : TextLimits.IsRead ⟨none, none, some datePattern⟩ := by
    rintro p hp
    cases hp
    exact isRead_datePattern
  refine .either ?_ ?_
  · exact List.forall_mem_cons.mpr ⟨.timestamp, List.forall_mem_singleton.mpr (.text hread)⟩
  · exact List.pairwise_pair.mpr (by simp [Shape.same])

theorem isTidy_textForm {fields : List (String × Json)} {form : Form}
    (h : textForm fields = .ok form) : form.shape.IsTidy := by
  unfold textForm at h
  dsimp only at h
  split at h
  · obtain rfl := Except.ok.inj h
    exact .choice _
  · obtain ⟨isDate, -, h⟩ := bind_eq_ok.mp h
    split at h
    · obtain rfl := Except.ok.inj h
      exact isTidy_dateShape
    · obtain ⟨p?, hp?, h⟩ := bind_eq_ok.mp h
      obtain rfl := Except.ok.inj h
      refine .text fun p hp => isRead_of_pattern? (hp?.trans ?_)
      exact congrArg _ hp

theorem isTidy_ofMembers (name : String) (members : List (Member Form)) :
    (Form.ofMembers name members).shape.IsTidy := by
  unfold Form.ofMembers recordOf?
  dsimp only
  split_ifs
  · exact .record _ _
  · exact .table .anything

/-- What comes out of a translation is tidy. -/
theorem Translated.isTidy {form : Form} (h : Translated form) : form.shape.IsTidy := by
  induction h with
  | anything => exact .anything
  | text h => exact isTidy_textForm h
  | whole bounds => exact .whole bounds
  | number bounds => exact .number bounds
  | truth => exact .truth
  | list _ ih => exact .list (ih.withDescription _)
  | bareList => exact .list .anything
  | table _ ih => exact .table (ih.withDescription _)
  | looseObject => exact .table .anything
  | object name => exact isTidy_ofMembers name _
  | @united forms hne _ ih =>
    unfold unitedForm
    split
    · exact ih _ List.mem_cons_self
    · refine Shape.isTidy_unite fun shape hshape => ?_
      obtain ⟨form, hform, rfl⟩ := List.mem_map.mp hshape
      exact (ih form hform).withDescription _
  | @merged name forms _ ih =>
    unfold mergedForm
    split
    · exact .anything
    · split
      · exact isTidy_ofMembers name _
      · exact ih _ List.mem_cons_self
  | @annotated fields form _ ih =>
    rcases (annotated_spec fields form).1 with hshape | hshape
    · exact hshape ▸ ih
    · exact hshape ▸ ih.orNull

/-! ## Alternatives -/

section
variable {inRecord : Bool} {v w : Json} {shape x : Shape} {shapes xs : List Shape} {fit : Fit}

theorem takes_oneOf_iff :
    (Shape.oneOf xs).Takes inRecord v ↔ ∃ x ∈ xs, x.Takes inRecord v := by
  unfold Shape.oneOf
  split
  · simp
  · exact takes_either_iff

/-- Alternatives that a shape brings in take what it takes, apart from the null it lets in. -/
theorem takes_iff_variants : shape.Takes inRecord v ↔
    shape.isOptional = true ∧ v = .null ∨ ∃ x ∈ shape.variants, x.Takes inRecord v := by
  cases shape with
  | either xs => simp [Shape.isOptional, Shape.variants, takes_either_iff]
  | optional inner =>
    cases inner <;> simp [Shape.isOptional, Shape.variants, takes_optional_iff, takes_either_iff]
  | _ => simp [Shape.isOptional, Shape.variants]

/-- What is left out as a duplicate is the same as one that is kept. -/
theorem exists_same_distinctFrom {kept : List Shape} {s : Shape} (hs : s ∈ kept ++ shapes) :
    ∃ k ∈ kept ++ Shape.distinctFrom kept shapes, k = s ∨ k.same s = true := by
  induction shapes generalizing kept with
  | nil => exact ⟨s, hs, .inl rfl⟩
  | cons first rest ih =>
    rw [Shape.distinctFrom]
    split
    · next hknown =>
      rw [List.mem_append, List.mem_cons] at hs
      rcases hs with hs | rfl | hs
      · exact ih (List.mem_append_left _ hs)
      · obtain ⟨k, hk, hsame⟩ := List.any_eq_true.mp hknown
        exact ⟨k, List.mem_append_left _ hk, .inr hsame⟩
      · exact ih (List.mem_append_right _ hs)
    · have hassoc (tail : List Shape) : kept ++ first :: tail = kept ++ [first] ++ tail := by simp
      rw [hassoc] at hs ⊢
      exact ih hs

theorem takes_unite_iff (htidy : ∀ s ∈ shapes, s.IsTidy) (hproper : ∀ s ∈ shapes, s.IsProper) :
    (Shape.unite shapes).Takes inRecord v ↔ ∃ s ∈ shapes, s.Takes inRecord v := by
  have hvariants : ∀ x ∈ shapes.flatMap Shape.variants, x.IsTidy ∧ x.IsProper := by
    rw [List.forall_mem_flatMap]
    exact fun s hs x hx => ⟨(htidy s hs).variants x hx, (hproper s hs).variants.2 x hx⟩
  have hcore : (Shape.oneOf (Shape.distinctFrom [] (shapes.flatMap Shape.variants))).Takes
      inRecord v ↔ ∃ s ∈ shapes, ∃ x ∈ s.variants, x.Takes inRecord v := by
    rw [takes_oneOf_iff]
    constructor
    · rintro ⟨x, hx, htakes⟩
      obtain ⟨s, hs, hx⟩ := List.mem_flatMap.mp (Shape.mem_of_mem_distinctFrom hx)
      exact ⟨s, hs, x, hx, htakes⟩
    · rintro ⟨s, hs, x, hx, htakes⟩
      have hmem : x ∈ [] ++ shapes.flatMap Shape.variants := List.mem_flatMap.mpr ⟨s, hs, hx⟩
      obtain ⟨k, hk, rfl | hsame⟩ := exists_same_distinctFrom hmem
      · exact ⟨k, hk, htakes⟩
      · obtain ⟨hkt, hkp⟩ := hvariants k (Shape.mem_of_mem_distinctFrom hk)
        obtain ⟨hxt, hxp⟩ := hvariants x hmem
        exact ⟨k, hk, (hkt.takes_iff_of_same hxt hkp hxp hsame).mpr htakes⟩
  have hunite : (Shape.unite shapes).Takes inRecord v ↔
      (∃ s ∈ shapes, s.isOptional = true ∧ v = .null) ∨
        ∃ s ∈ shapes, ∃ x ∈ s.variants, x.Takes inRecord v := by
    unfold Shape.unite
    dsimp only
    split
    · next hnull =>
      obtain ⟨s, hs, hoptional⟩ := List.any_eq_true.mp hnull
      rw [takes_optional_iff, hcore]
      refine or_congr_left ⟨fun hv => ⟨s, hs, hoptional, hv⟩, ?_⟩
      rintro ⟨_, -, -, hv⟩
      exact hv
    · next hnone =>
      rw [hcore, or_iff_right]
      rintro ⟨s, hs, hoptional, -⟩
      exact hnone (List.any_eq_true.mpr ⟨s, hs, hoptional⟩)
  rw [hunite, ← exists_or]
  refine exists_congr fun s => ?_
  rw [← and_or_left, takes_iff_variants]

theorem isSound_iff_variants : shape.isSound = true ↔ ∀ x ∈ shape.variants, x.isSound = true := by
  cases shape with
  | either xs => exact Shape.allSound_iff
  | optional inner =>
    cases inner with
    | either xs => exact Shape.allSound_iff
    | _ => simp [Shape.variants, Shape.isSound]
  | _ => simp [Shape.variants]

theorem isSound_oneOf_iff : (Shape.oneOf xs).isSound = true ↔ ∀ x ∈ xs, x.isSound = true := by
  unfold Shape.oneOf
  split
  · simp
  · exact Shape.allSound_iff

/-- Values can be checked against alternatives where they can against each of them. -/
theorem isSound_unite_iff (htidy : ∀ s ∈ shapes, s.IsTidy) :
    (Shape.unite shapes).isSound = true ↔ ∀ s ∈ shapes, s.isSound = true := by
  have hcore : (Shape.oneOf (Shape.distinctFrom [] (shapes.flatMap Shape.variants))).isSound =
      true ↔ ∀ s ∈ shapes, s.isSound = true := by
    rw [isSound_oneOf_iff]
    constructor
    · intro h s hs
      refine isSound_iff_variants.mpr fun x hx => ?_
      have hmem : x ∈ [] ++ shapes.flatMap Shape.variants := List.mem_flatMap.mpr ⟨s, hs, hx⟩
      obtain ⟨k, hk, rfl | hsame⟩ := exists_same_distinctFrom hmem
      · exact h k hk
      · obtain ⟨first, hfirst, hkept⟩ := List.mem_flatMap.mp (Shape.mem_of_mem_distinctFrom hk)
        exact ((htidy first hfirst).variants k hkept).isSound_of_same hsame (h k hk)
    · intro h x hx
      obtain ⟨s, hs, hx⟩ := List.mem_flatMap.mp (Shape.mem_of_mem_distinctFrom hx)
      exact isSound_iff_variants.mp (h s hs) x hx
  unfold Shape.unite
  dsimp only
  split <;> exact hcore

theorem exists_of_accept_oneOf (h : accept inRecord (Shape.oneOf xs) v = .ok (w, fit)) :
    ∃ x ∈ xs, ∃ fit, accept inRecord x v = .ok (w, fit) := by
  unfold Shape.oneOf at h
  split at h
  · exact ⟨_, List.mem_cons_self, fit, h⟩
  · rw [accept] at h
    rcases exists_of_acceptVariants h with ⟨_, hnone⟩ | found
    · cases hnone
    · exact found

/-- What alternatives make of a value is null that one of them lets in, or it is what one of the
alternatives that they bring in makes of it. -/
theorem exists_of_accept_unite (h : accept inRecord (Shape.unite shapes) v = .ok (w, fit)) :
    (v = .null ∧ w = .null ∧ ∃ s ∈ shapes, s.isOptional = true) ∨
      ∃ s ∈ shapes, (v = .null → s.isOptional = false) ∧
        ∃ x ∈ s.variants, ∃ fit, accept inRecord x v = .ok (w, fit) := by
  have hcore {fit : Fit} (h : accept inRecord
      (Shape.oneOf (Shape.distinctFrom [] (shapes.flatMap Shape.variants))) v = .ok (w, fit)) :
      ∃ s ∈ shapes, ∃ x ∈ s.variants, ∃ fit, accept inRecord x v = .ok (w, fit) := by
    obtain ⟨x, hx, found⟩ := exists_of_accept_oneOf h
    obtain ⟨s, hs, hx⟩ := List.mem_flatMap.mp (Shape.mem_of_mem_distinctFrom hx)
    exact ⟨s, hs, x, hx, found⟩
  unfold Shape.unite at h
  dsimp only at h
  split at h
  · next hnull =>
    obtain ⟨first, hfirst, hoptional⟩ := List.any_eq_true.mp hnull
    rw [accept] at h
    split at h
    · next hv =>
      have hv : v = .null := by cases v <;> first | rfl | cases hv
      exact .inl ⟨hv, (Prod.mk.inj (Except.ok.inj h)).1.symm, first, hfirst, hoptional⟩
    · next hv =>
      obtain ⟨s, hs, found⟩ := hcore h
      refine .inr ⟨s, hs, ?_, found⟩
      rintro rfl
      exact absurd rfl hv
  · next hnone =>
    obtain ⟨s, hs, found⟩ := hcore h
    refine .inr ⟨s, hs, fun _ => ?_, found⟩
    simpa using fun hoptional => hnone (List.any_eq_true.mpr ⟨s, hs, hoptional⟩)

end

end Toolgate.Schema
