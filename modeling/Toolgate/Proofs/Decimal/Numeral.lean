import Mathlib.Algebra.Order.Field.Power
import Mathlib.Data.List.Induction
import Mathlib.Data.List.TakeWhile
import Mathlib.Data.Rat.Cast.Order
import Mathlib.Tactic.FieldSimp
import Mathlib.Tactic.Linarith
import Mathlib.Tactic.Ring
import Toolgate.Decimal.Reading
import Toolgate.Proofs.Decimal.Digits

/-!
# Numerals

The parts that a decimal number is written in: digits ahead of the point, digits behind it, and an
exponent. However digits are laid out, the numeral has the value that they stand for, and its parts
are read back one by one.

## Main definitions

* `IsWhole`: digits without leading zeros
* `Numeral`, `Numeral.text`, `Numeral.value`: numerals, their texts and their values
* `EndsNumber`: what may follow a numeral

## Main statements

* `laysOut_arrange`: digits laid out for JSON are a numeral of their value
* `Numeral.readFraction_tail`, `Numeral.readExponent_tail`: the parts are read back
-/

namespace Toolgate.Decimal

open Text (isAsciiDigit)

/-! ## Values of digits -/

theorem natValue_append (xs ys : List Char) :
    natValue (xs ++ ys) = natValue xs * 10 ^ ys.length + natValue ys := by
  induction ys using List.reverseRecOn with
  | nil => simp [natValue]
  | append_singleton ys y ih =>
    have hstep (zs : List Char) : natValue (zs ++ [y]) = natValue zs * 10 + digitValue y := by
      simp [natValue]
    rw [← List.append_assoc, hstep, hstep, ih, List.length_append, List.length_singleton, pow_succ]
    ring

theorem toNat_of_isAsciiDigit {c : Char} (h : isAsciiDigit c = true) :
    '0'.toNat ≤ c.toNat ∧ c.toNat ≤ '9'.toNat := by
  simp only [isAsciiDigit, Bool.and_eq_true, decide_eq_true_eq] at h
  exact h

theorem digitValue_lt {c : Char} (h : isAsciiDigit c = true) : digitValue c < 10 := by
  have hlast : c.toNat ≤ '0'.toNat + 9 := (toNat_of_isAsciiDigit h).2
  unfold digitValue
  omega

/-- So many digits write a number below that power of ten. -/
theorem natValue_lt_pow {cs : List Char} (h : ∀ c ∈ cs, isAsciiDigit c = true) :
    natValue cs < 10 ^ cs.length := by
  induction cs using List.reverseRecOn with
  | nil => decide
  | append_singleton cs c ih =>
    obtain ⟨hcs, hc⟩ := List.forall_mem_append.mp h
    have hvalue := ih hcs
    have hdigit := digitValue_lt (hc c List.mem_cons_self)
    have hlast : natValue [c] = digitValue c := by simp [natValue]
    rw [natValue_append, hlast, List.length_append, List.length_singleton, pow_succ]
    omega

theorem natValue_replicate_zero (k : ℕ) : natValue (List.replicate k '0') = 0 := by
  induction k with
  | zero => rfl
  | succ k ih =>
    rw [List.replicate_succ', natValue_append, ih]
    rfl

/-! ## Numerals -/

/-- Digits ahead of the point: at least one, and no leading zeros. -/
structure IsWhole (cs : List Char) : Prop where
  ne_nil : cs ≠ []
  digits : ∀ c ∈ cs, isAsciiDigit c = true
  leading : cs.head? = some '0' → cs = ['0']

theorem head_natDigits_ne_zero {n : ℕ} (h : 0 < n) : (natDigits n).head? ≠ some '0' := by
  induction n using natDigits_induction with
  | digit n hn => interval_cases n <;> decide
  | more n hn ih =>
    have hne := natDigits_ne_nil (n / 10)
    rw [List.head?_append, Option.or_of_isSome (by simpa using hne)]
    exact ih (by omega)

theorem isWhole_natDigits (n : ℕ) : IsWhole (natDigits n) where
  ne_nil := natDigits_ne_nil n
  digits := isAsciiDigit_of_mem_natDigits
  leading h := by
    rcases Nat.eq_zero_or_pos n with rfl | hn
    · exact natDigits_of_lt (by decide)
    · exact absurd h (head_natDigits_ne_zero hn)

theorem isWhole_zero : IsWhole ['0'] :=
  natDigits_of_lt (by decide : 0 < 10) ▸ isWhole_natDigits 0

/-- A numeral that is no integer: it has a fraction or an exponent. -/
structure Numeral where
  whole : List Char
  fraction : List Char
  exponent? : Option ℤ
  isWhole : IsWhole whole
  digits : ∀ c ∈ fraction, isAsciiDigit c = true
  proper : fraction ≠ [] ∨ exponent?.isSome = true

namespace Numeral

/-- The exponent of a numeral as it is written. -/
def exponentPart (n : Numeral) : List Char :=
  (n.exponent?.map fun e => 'e' :: exponentText e).getD []

/-- What follows the digits ahead of the point. -/
def tail (n : Numeral) : List Char :=
  (if n.fraction = [] then [] else '.' :: n.fraction) ++ n.exponentPart

/-- The text of a numeral. -/
def text (n : Numeral) : List Char :=
  n.whole ++ n.tail

/-- The digits of a numeral as one number. -/
def coefficient (n : Numeral) : ℕ :=
  natValue (n.whole ++ n.fraction)

/-- The power of ten that the last digit counts. -/
def scale (n : Numeral) : ℤ :=
  n.exponent?.getD 0 - n.fraction.length

/-- The number that a numeral stands for. -/
def value (n : Numeral) : ℚ :=
  n.coefficient * 10 ^ n.scale

end Numeral

/-! ## Laying out -/

/-- The text is a numeral of the value of digits, the first of which stands for `10 ^ lead`. -/
def LaysOut (text digits : List Char) (lead : ℤ) : Prop :=
  ∃ n : Numeral, text = n.text ∧ n.value = natValue digits * 10 ^ (lead + 1 - digits.length)

theorem forall_mem_append_zeros {cs : List Char} (h : ∀ c ∈ cs, isAsciiDigit c = true) (k : ℕ) :
    ∀ c ∈ cs ++ List.replicate k '0', isAsciiDigit c = true := by
  intro c hc
  rcases List.mem_append.mp hc with hc | hc
  · exact h c hc
  · rw [List.eq_of_mem_replicate hc]
    rfl

section
variable {digits : List Char} {lead : ℤ}

/-- Below one, zeros stand between the point and the digits. -/
theorem laysOut_below_one (h : IsWhole digits) (hlead : lead < 0) :
    LaysOut ('0' :: '.' :: (List.replicate ((-lead).toNat - 1) '0' ++ digits)) digits lead := by
  obtain ⟨k, hk, hk'⟩ : ∃ k : ℕ, (-lead).toNat - 1 = k ∧ (k : ℤ) = -lead - 1 :=
    ⟨_, rfl, by omega⟩
  have hall : ∀ c ∈ List.replicate k '0' ++ digits, isAsciiDigit c = true := by
    intro c hc
    rcases List.mem_append.mp hc with hc | hc
    · rw [List.eq_of_mem_replicate hc]
      rfl
    · exact h.digits c hc
  have hvalue : natValue ('0' :: (List.replicate k '0' ++ digits)) = natValue digits := by
    rw [← List.cons_append, ← List.replicate_succ, natValue_append, natValue_replicate_zero]
    simp
  refine ⟨⟨['0'], List.replicate k '0' ++ digits, none, isWhole_zero, hall,
    .inl (by simp [h.ne_nil])⟩, ?_, ?_⟩
  · simp [hk, Numeral.text, Numeral.tail, Numeral.exponentPart, h.ne_nil]
  · simp only [Numeral.value, Numeral.coefficient, Numeral.scale, List.singleton_append, hvalue,
      Option.getD_none, List.length_append, List.length_replicate]
    congr 2
    push_cast
    omega

/-- Digits that do not reach the point are followed by zeros, and one more stands behind it. -/
theorem laysOut_whole (h : IsWhole digits) (hzero : digits = ['0'] → lead = 0)
    (hlength : (digits.length : ℤ) ≤ lead + 1) :
    LaysOut (digits ++ List.replicate (lead.toNat + 1 - digits.length) '0' ++ ['.', '0']) digits
      lead := by
  have hne : 0 < digits.length := List.length_pos_iff.mpr h.ne_nil
  obtain ⟨z, hz, hz'⟩ : ∃ z : ℕ, lead.toNat + 1 - digits.length = z ∧
      (z : ℤ) = lead + 1 - digits.length := ⟨_, rfl, by omega⟩
  have hwhole : IsWhole (digits ++ List.replicate z '0') := by
    refine ⟨by simp [h.ne_nil], forall_mem_append_zeros h.digits z, fun hhead => ?_⟩
    rw [List.head?_append, Option.or_of_isSome (by simpa using h.ne_nil)] at hhead
    have hdigits := h.leading hhead
    rw [hdigits, hzero hdigits] at hz'
    obtain rfl : z = 0 := by simpa using hz'
    simpa using hdigits
  have hvalue : natValue (digits ++ List.replicate z '0' ++ ['0']) =
      natValue digits * 10 ^ z * 10 := by
    rw [natValue_append, natValue_append, natValue_replicate_zero]
    simp [natValue, digitValue]
  refine ⟨⟨digits ++ List.replicate z '0', ['0'], none, hwhole,
    isWhole_zero.digits, .inl (List.cons_ne_nil _ _)⟩, ?_, ?_⟩
  · simp [hz, Numeral.text, Numeral.tail, Numeral.exponentPart]
  · simp only [Numeral.value, Numeral.coefficient, Numeral.scale, hvalue, Option.getD_none,
      List.length_singleton, ← hz']
    push_cast
    rw [zpow_natCast, zpow_neg_one]
    field_simp

/-- The point stands among the digits. -/
theorem laysOut_split (h : IsWhole digits) (hlead : 0 ≤ lead) (hlength : lead + 1 < digits.length) :
    LaysOut (digits.take (lead.toNat + 1) ++ '.' :: digits.drop (lead.toNat + 1)) digits lead := by
  have hwhole : IsWhole (digits.take (lead.toNat + 1)) := by
    refine ⟨by simp [h.ne_nil], fun c hc => h.digits c (List.mem_of_mem_take hc), fun hhead => ?_⟩
    rw [List.head?_take, if_neg (by omega)] at hhead
    rw [h.leading hhead] at hlength
    simp at hlength
    omega
  have hdrop : digits.drop (lead.toNat + 1) ≠ [] := by
    simp
    omega
  refine ⟨⟨digits.take (lead.toNat + 1), digits.drop (lead.toNat + 1), none, hwhole,
    fun c hc => h.digits c (List.mem_of_mem_drop hc), .inl hdrop⟩, ?_, ?_⟩
  · simp [Numeral.text, Numeral.tail, Numeral.exponentPart, hdrop]
  · simp only [Numeral.value, Numeral.coefficient, Numeral.scale, Option.getD_none,
      List.take_append_drop, List.length_drop]
    congr 2
    omega

/-- One digit stands ahead of the point, and an exponent behind the others. -/
theorem laysOut_scientific {d : Char} {rest : List Char} (h : IsWhole (d :: rest)) (lead : ℤ) :
    LaysOut (d :: (if rest = [] then [] else '.' :: rest) ++ 'e' :: exponentText lead) (d :: rest)
      lead := by
  obtain ⟨hd, hrest⟩ := List.forall_mem_cons.mp h.digits
  refine ⟨⟨[d], rest, some lead, ⟨by simp, by simpa using hd, by simp⟩, hrest, .inr rfl⟩, ?_, ?_⟩
  · simp [Numeral.text, Numeral.tail, Numeral.exponentPart]
  · simp only [Numeral.value, Numeral.coefficient, Numeral.scale, Option.getD_some,
      List.singleton_append, List.length_cons]
    congr 2
    push_cast
    omega

/-- Digits laid out for JSON are a numeral of their value. -/
theorem laysOut_arrange (h : IsWhole digits) (hzero : digits = ['0'] → lead = 0) :
    LaysOut (jsonLayout.arrange digits lead) digits lead := by
  unfold Layout.arrange
  split
  · split
    · next hlead => exact laysOut_below_one h hlead
    · next hlead =>
      dsimp only
      split
      · next hlength => exact laysOut_whole h hzero (by omega)
      · next hlength => exact laysOut_split h (by omega) (by omega)
  · obtain ⟨d, rest, rfl⟩ := List.exists_cons_of_ne_nil h.ne_nil
    have htext := laysOut_scientific h lead
    cases rest with
    | nil => simpa using htext
    | cons e rest => simpa using htext

end

/-! ## Digits of a double -/

/-- Only zeros are cut off. -/
theorem exists_eq_significant_append (cs : List Char) (h : natValue cs ≠ 0) :
    ∃ k, cs = significant cs ++ List.replicate k '0' := by
  have hzeros : (cs.reverse.takeWhile (· == '0')).reverse =
      List.replicate (cs.reverse.takeWhile (· == '0')).length '0' := by
    refine List.eq_replicate_iff.mpr ⟨List.length_reverse, fun c hc => ?_⟩
    have hzero := List.mem_takeWhile_imp (List.mem_reverse.mp hc)
    exact beq_iff_eq.mp hzero
  have hsplit : cs = (cs.reverse.dropWhile (· == '0')).reverse ++
      List.replicate (cs.reverse.takeWhile (· == '0')).length '0' := by
    rw [← hzeros, ← List.reverse_append, List.takeWhile_append_dropWhile, List.reverse_reverse]
  refine ⟨_, hsplit.trans (congrArg (· ++ _) ?_)⟩
  unfold significant
  split
  · next hnil =>
    rw [hnil, List.nil_append] at hsplit
    rw [hsplit, natValue_replicate_zero] at h
    exact absurd rfl h
  · rfl

/-- The digits of a number without the zeros at their end are digits without leading zeros. -/
theorem isWhole_significant {n : ℕ} (hn : 0 < n) : IsWhole (significant (natDigits n)) := by
  obtain ⟨k, hk⟩ := exists_eq_significant_append (natDigits n)
    (by rw [natValue_natDigits]; exact hn.ne')
  have hhead := head_natDigits_ne_zero hn
  have hdigits := isAsciiDigit_of_mem_natDigits (n := n)
  have hne : significant (natDigits n) ≠ [] := by
    unfold significant
    split
    · exact List.cons_ne_nil _ _
    · next h => exact h
  rw [hk] at hhead hdigits
  refine ⟨hne, fun c hc => hdigits c (List.mem_append_left _ hc), fun h => ?_⟩
  rw [List.head?_append, h] at hhead
  exact absurd rfl hhead

/-- The text of a finite double without its sign. -/
def Layout.body (layout : Layout) (b : Binary) : List Char :=
  if b.m == 0 then layout.arrange ['0'] 0
  else
    let found := b.shortest
    let digits := natDigits found.coefficient
    layout.arrange (significant digits) (found.scale + digits.length - 1)

theorem toList_text {layout : Layout} {x : Float} {b : Binary} (h : Binary.ofFloat? x = some b) :
    (layout.text x).toList = if b.negative then '-' :: layout.body b else layout.body b := by
  simp only [Layout.text, h, String.toList_ofList]
  rfl

/-! ## Reading -/

/-- What follows a number: nothing that continues it. -/
def EndsNumber (rest : List Char) : Prop :=
  ∀ c ∈ rest.head?, isAsciiDigit c = false ∧ c ≠ '.' ∧ c ≠ 'e' ∧ c ≠ 'E'

theorem spanDigits_append {ds rest : List Char} (hds : ∀ c ∈ ds, isAsciiDigit c = true)
    (hrest : ∀ c ∈ rest.head?, isAsciiDigit c = false) :
    spanDigits (ds ++ rest) = (ds, rest) := by
  induction ds with
  | nil =>
    cases rest with
    | nil => rfl
    | cons c rest => simp [spanDigits, hrest c rfl]
  | cons d ds ih =>
    have hd := hds d List.mem_cons_self
    have hspan := ih fun c hc => hds c (List.mem_cons_of_mem _ hc)
    simp only [spanDigits, Prod.mk.injEq] at hspan ⊢
    simp [hd, hspan]

theorem readFraction_of_head_ne {cs : List Char} (h : cs.head? ≠ some '.') :
    readFraction cs = ([], cs) := by
  unfold readFraction
  split
  · exact absurd rfl h
  · rfl

theorem readExponent_of_endsNumber {rest : List Char} (h : EndsNumber rest) :
    readExponent rest = (none, rest) := by
  cases rest with
  | nil => rfl
  | cons c rest =>
    obtain ⟨-, -, he, hE⟩ := h c rfl
    simp [readExponent, he, hE]

/-- The digits of an exponent, at least two of them. -/
theorem exists_exponentText_eq (e : ℤ) :
    ∃ digits, exponentText e = (if e < 0 then '-' else '+') :: digits ∧ digits ≠ [] ∧
      (∀ c ∈ digits, isAsciiDigit c = true) ∧ natValue digits = e.natAbs := by
  have hall := isAsciiDigit_of_mem_natDigits (n := e.natAbs)
  by_cases hshort : (natDigits e.natAbs).length < 2
  · refine ⟨'0' :: natDigits e.natAbs, by simp [exponentText, hshort], List.cons_ne_nil _ _,
      List.forall_mem_cons.mpr ⟨rfl, hall⟩, ?_⟩
    rw [← List.singleton_append, natValue_append, natValue_natDigits]
    simp [natValue, digitValue]
  · exact ⟨natDigits e.natAbs, by simp [exponentText, hshort], natDigits_ne_nil _, hall,
      natValue_natDigits _⟩

/-- An exponent is read as it is written. -/
theorem readExponent_exponentText (e : ℤ) {rest : List Char} (h : EndsNumber rest) :
    readExponent ('e' :: exponentText e ++ rest) = (some e, rest) := by
  obtain ⟨digits, htext, hne, hall, hvalue⟩ := exists_exponentText_eq e
  have hspan := spanDigits_append hall fun c hc => (h c hc).1
  obtain ⟨d, ds, rfl⟩ := List.exists_cons_of_ne_nil hne
  rw [List.cons_append] at hspan
  rw [htext]
  by_cases he : e < 0
  · simp [readExponent, he, hspan, hvalue, abs_of_neg]
  · simp [readExponent, he, hspan, hvalue, abs_of_nonneg (not_lt.mp he)]

namespace Numeral
variable (n : Numeral) {rest : List Char}

theorem head_exponentPart_append (h : EndsNumber rest) :
    ∀ c ∈ (n.exponentPart ++ rest).head?, isAsciiDigit c = false ∧ c ≠ '.' := by
  unfold exponentPart
  cases n.exponent? with
  | none =>
    intro c hc
    obtain ⟨hdigit, hpoint, -⟩ := h c (by simpa using hc)
    exact ⟨hdigit, hpoint⟩
  | some e =>
    intro c hc
    obtain rfl : 'e' = c := by simpa using hc
    decide

/-- What follows the digits ahead of the point begins with no digit. -/
theorem head_tail_append (h : EndsNumber rest) :
    ∀ c ∈ (n.tail ++ rest).head?, isAsciiDigit c = false := by
  unfold tail
  split
  · exact fun c hc => (n.head_exponentPart_append h c (by simpa using hc)).1
  · intro c hc
    obtain rfl : '.' = c := by simpa using hc
    decide

/-- The digits behind the point are read back. -/
theorem readFraction_tail (h : EndsNumber rest) :
    readFraction (n.tail ++ rest) = (n.fraction, n.exponentPart ++ rest) := by
  have hhead := n.head_exponentPart_append h
  unfold tail
  split
  · next hnil =>
    rw [hnil, List.nil_append]
    exact readFraction_of_head_ne fun hc => (hhead _ hc).2 rfl
  · next hne =>
    have hspan := spanDigits_append n.digits fun c hc => (hhead c hc).1
    obtain ⟨d, ds, hds⟩ := List.exists_cons_of_ne_nil hne
    rw [hds] at hspan ⊢
    simp only [List.append_assoc, List.cons_append] at hspan ⊢
    simp [readFraction, hspan]

/-- The exponent is read back. -/
theorem readExponent_tail (h : EndsNumber rest) :
    readExponent (n.exponentPart ++ rest) = (n.exponent?, rest) := by
  unfold exponentPart
  cases n.exponent? with
  | none => exact readExponent_of_endsNumber h
  | some e => exact readExponent_exponentText e h

end Numeral

end Toolgate.Decimal
