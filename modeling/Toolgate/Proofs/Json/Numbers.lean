import Toolgate.Json.Reader
import Toolgate.Proofs.Decimal.Shortest

/-!
# Numbers in JSON texts

A number is read up to what cannot be a part of it: its digits ahead of the point, then a fraction
and an exponent where there are some. The digits of an integer are read as that integer, and a
numeral as the double that is nearest to it.

## Main statements

* `readNumber_natDigits`: the digits of a number are read as that number
* `readNumber_text`: a numeral is read as the nearest double
* `readValue_float`: a finite double is read from its text
-/

namespace Toolgate.Json

open Decimal (EndsNumber IsWhole Numeral natDigits natValue)

/-- A number is read part by part: it is an integer where it has neither fraction nor exponent. -/
theorem readNumber_append {whole left fraction afterFraction rest : List Char}
    {exponent : Option ℤ} (negative : Bool) (hwhole : IsWhole whole)
    (hleft : ∀ c ∈ left.head?, Text.isAsciiDigit c = false)
    (hfraction : Decimal.readFraction left = (fraction, afterFraction))
    (hexponent : Decimal.readExponent afterFraction = (exponent, rest)) :
    readNumber negative (whole ++ left) =
      if fraction.isEmpty && exponent.isNone then
        if Decimal.maxDigits < whole.length then none
        else some (.int (if negative then -(natValue whole : ℤ) else natValue whole), rest)
      else
        some (.float (Decimal.nearest negative (natValue (whole ++ fraction))
          (exponent.getD 0 - fraction.length)), rest) := by
  have hspan := Decimal.spanDigits_append hwhole.digits hleft
  obtain ⟨c, cs, rfl⟩ := List.exists_cons_of_ne_nil hwhole.ne_nil
  by_cases hc : c = '0'
  · obtain rfl := hc
    obtain rfl := (List.cons.inj (hwhole.leading rfl)).2
    simp [readNumber, hfraction, hexponent]
  · rw [List.cons_append] at hspan ⊢
    simp [readNumber, hc, hspan, hfraction, hexponent]

/-- The digits of a number are read as that number, as far as so many are read. -/
theorem readNumber_natDigits {n : ℕ} {rest : List Char} (negative : Bool)
    (hn : (natDigits n).length ≤ Decimal.maxDigits) (hrest : EndsNumber rest) :
    readNumber negative (natDigits n ++ rest) =
      some (.int (if negative then -(n : ℤ) else n), rest) := by
  have hfraction : Decimal.readFraction rest = ([], rest) :=
    Decimal.readFraction_of_head_ne fun hc => (hrest _ hc).2.1 rfl
  rw [readNumber_append negative (Decimal.isWhole_natDigits n) (fun c hc => (hrest c hc).1)
    hfraction (Decimal.readExponent_of_endsNumber hrest)]
  simp [Decimal.natValue_natDigits, show ¬ Decimal.maxDigits < (natDigits n).length by omega]

/-- A numeral is read as the double that is nearest to its value. -/
theorem readNumber_text (n : Numeral) {rest : List Char} (negative : Bool)
    (hrest : EndsNumber rest) :
    readNumber negative (n.text ++ rest) =
      some (.float (Decimal.nearest negative n.coefficient n.scale), rest) := by
  have hproper : (n.fraction.isEmpty && n.exponent?.isNone) = false := by
    rcases n.proper with h | h
    · simp [h]
    · simp [Option.isNone_eq_false_iff.mpr h]
  rw [Numeral.text, List.append_assoc, readNumber_append negative n.isWhole
    (n.head_tail_append hrest) (n.readFraction_tail hrest) (n.readExponent_tail hrest), hproper,
    if_neg Bool.false_ne_true]
  rfl

/-! ## Values -/

theorem readValue_of_isAsciiDigit {d : Char} (hd : Text.isAsciiDigit d = true) (fuel : ℕ)
    (rest : List Char) : readValue (fuel + 1) (d :: rest) = readNumber false (d :: rest) := by
  rw [readValue.eq_def]
  dsimp only
  split
  all_goals first
    | rfl
    | next heq => obtain ⟨rfl, -⟩ := List.cons.inj heq; exact absurd hd (by decide)

theorem readValue_minus {d : Char} (hd : Text.isAsciiDigit d = true) (fuel : ℕ)
    (rest : List Char) : readValue (fuel + 1) ('-' :: d :: rest) = readNumber true (d :: rest) := by
  have hne : d ≠ 'I' := by
    rintro rfl
    exact absurd hd (by decide)
  simp [readValue, hne]

/-- A number with its sign is read as a value. -/
theorem readValue_signed {cs : List Char} (hcs : IsWhole cs) (negative : Bool) (fuel : ℕ)
    (left : List Char) :
    readValue (fuel + 1) ((if negative then '-' :: cs else cs) ++ left) =
      readNumber negative (cs ++ left) := by
  obtain ⟨d, ds, rfl⟩ := List.exists_cons_of_ne_nil hcs.ne_nil
  have hd := hcs.digits d List.mem_cons_self
  cases negative with
  | false => exact readValue_of_isAsciiDigit hd fuel _
  | true => exact readValue_minus hd fuel _

/-- An integer is read from its digits. -/
theorem readValue_intDigits {n : ℤ} {rest : List Char} (fuel : ℕ)
    (hn : (natDigits n.natAbs).length ≤ Decimal.maxDigits) (hrest : EndsNumber rest) :
    readValue (fuel + 1) (Decimal.intDigits n ++ rest) = some (.int n, rest) := by
  have hdigits := Decimal.isWhole_natDigits n.natAbs
  unfold Decimal.intDigits
  by_cases hneg : n < 0
  · have hread := readValue_signed hdigits true fuel rest
    rw [if_pos rfl, readNumber_natDigits true hn hrest] at hread
    rw [if_pos hneg, hread]
    simp [abs_of_neg hneg]
  · have hread := readValue_signed hdigits false fuel rest
    rw [if_neg Bool.false_ne_true, readNumber_natDigits false hn hrest] at hread
    rw [if_neg hneg, hread]
    simp [abs_of_nonneg (not_lt.mp hneg)]

/-- A finite double is read from its text. -/
theorem readValue_float {x : Float} {rest : List Char} (fuel : ℕ) (hx : x.isFinite = true)
    (hrest : EndsNumber rest) :
    readValue (fuel + 1) ((Decimal.jsonLayout.text x).toList ++ rest) = some (.float x, rest) := by
  rw [← Decimal.isSome_ofFloat?] at hx
  obtain ⟨b, hb⟩ := Option.isSome_iff_exists.mp hx
  obtain ⟨n, htext, hnearest⟩ := Decimal.exists_numeral hb
  have hsplit : (Decimal.jsonLayout.text x).toList ++ rest =
      (if b.negative then '-' :: n.whole else n.whole) ++ (n.tail ++ rest) := by
    rw [Decimal.toList_text hb, htext, Numeral.text]
    cases b.negative <;> simp
  rw [hsplit, readValue_signed n.isWhole, ← List.append_assoc, ← Numeral.text,
    readNumber_text n b.negative hrest, hnearest]

end Toolgate.Json
