import Mathlib.Tactic.IntervalCases
import Toolgate.Decimal.Integer

/-!
# Decimal digits of natural numbers

The digits of a number are digits of ASCII and write that number, so that no two numbers have the
same digits. A number below a power of ten has no more digits than the exponent says.
-/

namespace Toolgate.Decimal

/-- The digits are put in front of what follows them. -/
theorem natDigitsOnto_eq_append (n : ℕ) (rest : List Char) :
    natDigitsOnto n rest = natDigits n ++ rest := by
  unfold natDigits
  induction n using Nat.strongRecOn generalizing rest with
  | _ n ih =>
    rw [natDigitsOnto.eq_def n rest, natDigitsOnto.eq_def n []]
    split
    · rfl
    · rw [ih (n / 10) (by omega) (_ :: rest), ih (n / 10) (by omega) [_]]
      simp

theorem natDigits_of_lt {n : ℕ} (h : n < 10) : natDigits n = [digitChar n] := by
  rw [natDigits, natDigitsOnto, if_pos h]

/-- From ten on the last digit is split off. -/
theorem natDigits_of_le {n : ℕ} (h : 10 ≤ n) :
    natDigits n = natDigits (n / 10) ++ [digitChar (n % 10)] := by
  rw [natDigits, natDigitsOnto, if_neg (by omega), natDigitsOnto_eq_append]

/-- Induction along the digits of a number. -/
theorem natDigits_induction {P : ℕ → List Char → Prop}
    (digit : ∀ n, n < 10 → P n [digitChar n])
    (more : ∀ n, 10 ≤ n → P (n / 10) (natDigits (n / 10)) →
      P n (natDigits (n / 10) ++ [digitChar (n % 10)])) (n : ℕ) : P n (natDigits n) := by
  induction n using Nat.strongRecOn with
  | _ n ih =>
    rcases Nat.lt_or_ge n 10 with h | h
    · rw [natDigits_of_lt h]
      exact digit n h
    · rw [natDigits_of_le h]
      exact more n h (ih (n / 10) (by omega))

theorem natDigits_ne_nil (n : ℕ) : natDigits n ≠ [] := by
  induction n using natDigits_induction with
  | digit n h => exact List.cons_ne_nil _ _
  | more n _ _ => exact List.append_ne_nil_of_right_ne_nil _ (List.cons_ne_nil _ _)

theorem intDigits_ne_nil (n : ℤ) : intDigits n ≠ [] := by
  unfold intDigits
  split
  · exact List.cons_ne_nil _ _
  · exact natDigits_ne_nil _

theorem isAsciiDigit_digitChar {d : ℕ} (h : d < 10) : Text.isAsciiDigit (digitChar d) = true := by
  interval_cases d <;> rfl

theorem digitValue_digitChar {d : ℕ} (h : d < 10) : digitValue (digitChar d) = d := by
  interval_cases d <;> rfl

/-- Every digit is a digit of ASCII. -/
theorem isAsciiDigit_of_mem_natDigits {n : ℕ} :
    ∀ c ∈ natDigits n, Text.isAsciiDigit c = true := by
  induction n using natDigits_induction with
  | digit n h => simpa using isAsciiDigit_digitChar h
  | more n _ ih =>
    intro c hc
    rcases List.mem_append.mp hc with hc | hc
    · exact ih c hc
    · rw [List.mem_singleton.mp hc]
      exact isAsciiDigit_digitChar (by omega)

/-- The digits of a number write that number. -/
theorem natValue_natDigits (n : ℕ) : natValue (natDigits n) = n := by
  induction n using natDigits_induction with
  | digit n h => simp [natValue, digitValue_digitChar h]
  | more n h ih =>
    have hlast : digitValue (digitChar (n % 10)) = n % 10 := digitValue_digitChar (by omega)
    rw [natValue, List.foldl_append]
    change (natValue (natDigits (n / 10))) * 10 + digitValue (digitChar (n % 10)) = n
    rw [ih, hlast]
    omega

theorem natDigits_injective : Function.Injective natDigits := fun m n h => by
  rw [← natValue_natDigits m, h, natValue_natDigits]

theorem natText_injective : Function.Injective natText := fun _ _ h =>
  natDigits_injective (String.ofList_injective h)

/-- A number below `10 ^ m` has at most `m` digits. -/
theorem length_natDigits_le {n m : ℕ} (h : n < 10 ^ m) (hm : 0 < m) :
    (natDigits n).length ≤ m := by
  induction n using natDigits_induction generalizing m with
  | digit n _ => exact hm
  | more n hn ih =>
    obtain ⟨m, rfl⟩ : ∃ k, m = k + 1 := ⟨m - 1, by omega⟩
    have hm : 0 < m := by
      rcases Nat.eq_zero_or_pos m with rfl | hm
      · simp at h
        omega
      · exact hm
    rw [Nat.pow_succ] at h
    have := ih (m := m) (by omega) hm
    simpa using this

end Toolgate.Decimal
