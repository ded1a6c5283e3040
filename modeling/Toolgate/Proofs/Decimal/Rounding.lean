import Toolgate.Proofs.Decimal.Bits

/-!
# Rounding to doubles

A number is rounded with a significand, and with two bits for what it has beyond it. Shifted to the
exponent of a double, these bits say to which side the number lies; so every number in the interval
around a double comes out as that double.

## Main definitions

* `Represents`: a significand with its two bits stands for a number
* `RoundsTo`: the nearest integer, and of two the even one
* `Binary.Covers`: the numbers that are nearest to a double

## Main statements

* `roundWithAccuracy_eq`: a number that a double covers is rounded to it
-/

namespace Toolgate.Decimal

open Float.Model (UnpackedFloat Format totalExponent)
open Float.Model.UnpackedFloat (ExtendedMantissa Accuracy shiftToTargetExponent shiftToExponent
  roundWithAccuracy)

/-! ## Significands with two bits -/

/-- The number lies where the two bits say: at the significand, at the middle between it and the
next, or strictly on one side of the middle. -/
def Represents (em : ExtendedMantissa) (v : ℚ) : Prop :=
  if em.roundBit then
    if em.stickyBit then (em.mantissa : ℚ) + 1 / 2 < v ∧ v < em.mantissa + 1
    else v = em.mantissa + 1 / 2
  else
    if em.stickyBit then (em.mantissa : ℚ) < v ∧ v < em.mantissa + 1 / 2
    else v = em.mantissa

theorem represents_exact (m : ℕ) :
    Represents (ExtendedMantissa.ofMantissaAndAccuracy m .exact) m := by
  simp [Represents, ExtendedMantissa.ofMantissaAndAccuracy]

section
variable {em : ExtendedMantissa} {v : ℚ}

theorem Represents.le (h : Represents em v) : (em.mantissa : ℚ) ≤ v := by
  unfold Represents at h
  split_ifs at h <;> linarith

theorem Represents.lt (h : Represents em v) : v < em.mantissa + 1 := by
  unfold Represents at h
  split_ifs at h <;> linarith

/-- A bit that is shifted out is kept. -/
theorem Represents.shiftRightOne (h : Represents em v) :
    Represents em.shiftRightOne (v / 2) := by
  obtain ⟨m, round, sticky⟩ := em
  have hm : ((m % 2 : ℕ) : ℚ) + 2 * ((m / 2 : ℕ) : ℚ) = m := by exact_mod_cast Nat.mod_add_div m 2
  obtain hr | hr := Nat.mod_two_eq_zero_or_one m
  all_goals
    rw [hr] at hm
    cases round <;> cases sticky <;>
      simp_all only [Represents, ExtendedMantissa.shiftRightOne] <;> norm_num at * <;>
      first | linarith | (constructor <;> linarith)

theorem Represents.shiftRight (h : Represents em v) (n : ℕ) :
    Represents (em >>> n) (v / 2 ^ n) := by
  change Represents (n.repeat ExtendedMantissa.shiftRightOne em) _
  induction n with
  | zero => simpa [Nat.repeat] using h
  | succ n ih =>
    have hone := ih.shiftRightOne
    rwa [div_div, ← pow_succ] at hone

end

/-! ## Nearest integers -/

/-- The integer is the nearest to the number; where another is as near, it is even. -/
def RoundsTo (v : ℚ) (m : ℕ) : Prop :=
  |v - m| < 1 / 2 ∨ |v - m| = 1 / 2 ∧ Even m

theorem Represents.roundsTo {em : ExtendedMantissa} {v : ℚ} (h : Represents em v) :
    RoundsTo v em.roundedMantissa := by
  obtain ⟨m, round, sticky⟩ := em
  cases round <;> cases sticky
  · obtain rfl : v = m := h
    exact .inl (by simp [ExtendedMantissa.roundedMantissa, ExtendedMantissa.accuracy,
      Accuracy.roundToNearestEven])
  · obtain ⟨hlow, hhigh⟩ : (m : ℚ) < v ∧ v < m + 1 / 2 := h
    exact .inl (abs_lt.mpr ⟨by change -(1 / 2 : ℚ) < v - m; linarith, by
      change v - m < 1 / 2; linarith⟩)
  · obtain rfl : v = m + 1 / 2 := h
    have heven : Even (m + m % 2) := by
      rw [Nat.even_iff]
      omega
    refine .inr ⟨?_, heven⟩
    change |(m : ℚ) + 1 / 2 - (m + m % 2 : ℕ)| = 1 / 2
    obtain hm | hm := Nat.mod_two_eq_zero_or_one m <;> rw [hm] <;> push_cast <;> norm_num
  · obtain ⟨hlow, hhigh⟩ : (m : ℚ) + 1 / 2 < v ∧ v < m + 1 := h
    refine .inl ?_
    change |v - (m + 1 : ℕ)| < 1 / 2
    push_cast
    exact abs_lt.mpr ⟨by linarith, by linarith⟩

theorem RoundsTo.abs_sub_le {v : ℚ} {m : ℕ} (h : RoundsTo v m) : |v - m| ≤ 1 / 2 := by
  rcases h with h | h
  · exact h.le
  · exact h.1.le

theorem RoundsTo.even {v : ℚ} {m : ℕ} (h : RoundsTo v m) (hv : |v - m| = 1 / 2) : Even m := by
  rcases h with h | h
  · exact absurd hv h.ne
  · exact h.2

theorem roundsTo_of_even {v : ℚ} {m : ℕ} (hm : Even m) (h : |v - m| ≤ 1 / 2) : RoundsTo v m :=
  h.lt_or_eq.imp_right fun htie => ⟨htie, hm⟩

/-- Two integers that are one apart are as near only at the middle, where both would be even. -/
theorem RoundsTo.ne_succ {v : ℚ} {m : ℕ} (hm : RoundsTo v m) : ¬RoundsTo v (m + 1) := by
  intro hn
  have hlow := (abs_le.mp hm.abs_sub_le).2
  have hhigh := (abs_le.mp hn.abs_sub_le).1
  push_cast at hhigh
  obtain rfl : v = m + 1 / 2 := by linarith
  have heven := hm.even (by norm_num)
  have heven' := hn.even (by push_cast; norm_num)
  exact (Nat.even_add_one.mp heven') heven

theorem RoundsTo.unique {v : ℚ} {m n : ℕ} (hm : RoundsTo v m) (hn : RoundsTo v n) : m = n := by
  have hm' := abs_le.mp hm.abs_sub_le
  have hn' := abs_le.mp hn.abs_sub_le
  have hle : m ≤ n + 1 := by
    have : (m : ℚ) ≤ n + 1 := by linarith
    exact_mod_cast this
  have hge : n ≤ m + 1 := by
    have : (n : ℚ) ≤ m + 1 := by linarith
    exact_mod_cast this
  obtain h | rfl | rfl : m = n ∨ m = n + 1 ∨ n = m + 1 := by omega
  · exact h
  · exact absurd hm hn.ne_succ
  · exact absurd hn hm.ne_succ

/-! ## Shifting to the exponent of a double -/

section
variable {n : ℕ} {e t : ℤ} {acc : Accuracy} {v : ℚ}

theorem mantissa_ofMantissaAndAccuracy (n : ℕ) (acc : Accuracy) :
    (ExtendedMantissa.ofMantissaAndAccuracy n acc).mantissa = n := by
  unfold ExtendedMantissa.ofMantissaAndAccuracy
  split <;> rfl

theorem targetExponent_eq (k : ℤ) : Format.binary64.targetExponent k = max (k - 53) (-1074) := rfl

theorem shiftToExponent_snd (he : e ≤ t) : (shiftToExponent n e acc t).2 = t := by
  simp only [shiftToExponent]
  omega

theorem represents_shiftToExponent
    (h : Represents (ExtendedMantissa.ofMantissaAndAccuracy n acc) (v / 2 ^ e)) (he : e ≤ t) :
    Represents (shiftToExponent n e acc t).1 (v / 2 ^ t) := by
  have hshift := h.shiftRight (t - e).toNat
  rwa [div_div, ← zpow_natCast, ← zpow_add₀ (by norm_num : (2 : ℚ) ≠ 0),
    show e + ((t - e).toNat : ℤ) = t by omega] at hshift

/-- A significand has no more bits than the number it stands for. -/
theorem log2_add_lt (h : Represents (ExtendedMantissa.ofMantissaAndAccuracy n acc) (v / 2 ^ e))
    (hn : n ≠ 0) {l : ℤ} (hv : v < 2 ^ l) : (n.log2 : ℤ) + e < l := by
  have hle := h.le
  rw [mantissa_ofMantissaAndAccuracy] at hle
  have hlog : (2 : ℚ) ^ (n.log2 : ℤ) ≤ n := by
    rw [zpow_natCast]
    exact_mod_cast Nat.log2_self_le hn
  have hlt : (2 : ℚ) ^ ((n.log2 : ℤ) + e) < 2 ^ l := by
    rw [zpow_add₀ two_ne_zero]
    exact ((le_div_iff₀ (by positivity)).mp (hlog.trans hle)).trans_lt hv
  exact (zpow_lt_zpow_iff_right₀ one_lt_two).mp hlt

/-- A significand has no fewer bits than the number it stands for. -/
theorem le_log2_add (h : Represents (ExtendedMantissa.ofMantissaAndAccuracy n acc) (v / 2 ^ e))
    {l : ℤ} (hv : 2 ^ l ≤ v) : l ≤ (n.log2 : ℤ) + e := by
  have hlt := h.lt
  rw [mantissa_ofMantissaAndAccuracy] at hlt
  have hlog : (n : ℚ) + 1 ≤ 2 ^ ((n.log2 : ℤ) + 1) := by
    rw [← Nat.cast_succ, ← Nat.cast_succ, zpow_natCast]
    exact_mod_cast Nat.lt_log2_self
  have hle : (2 : ℚ) ^ l < 2 ^ ((n.log2 : ℤ) + 1 + e) := by
    rw [zpow_add₀ two_ne_zero]
    exact hv.trans_lt ((div_lt_iff₀ (by positivity)).mp (hlt.trans_le hlog))
  have hexponent := (zpow_lt_zpow_iff_right₀ one_lt_two).mp hle
  omega

/-- Nothing is left of a number only where it is below the unit. -/
theorem ne_zero_of_le (h : Represents (ExtendedMantissa.ofMantissaAndAccuracy n acc) (v / 2 ^ e))
    (hv : 2 ^ e ≤ v) : n ≠ 0 := by
  rintro rfl
  have hlt := h.lt
  rw [mantissa_ofMantissaAndAccuracy, div_lt_iff₀ (by positivity)] at hlt
  simp at hlt
  exact absurd hv hlt.not_ge

/-- A significand of enough bits has as many as the number it stands for. -/
theorem log2_add_eq (h : Represents (ExtendedMantissa.ofMantissaAndAccuracy n acc) (v / 2 ^ e))
    (he : e ≤ -1074 ∨ 2 ^ 52 ≤ n) {l : ℤ} (hl : -1074 ≤ l) (hlow : 2 ^ l ≤ v)
    (hhigh : v < 2 ^ (l + 1)) : (n.log2 : ℤ) + e = l := by
  have hn : n ≠ 0 := by
    rcases he with he | he
    · refine ne_zero_of_le h (le_trans ?_ hlow)
      exact zpow_le_zpow_right₀ one_le_two (he.trans hl)
    · omega
  have hlt := log2_add_lt h hn hhigh
  have hle := le_log2_add h hlow
  omega

end

/-- A significand of a double stays as it is. -/
theorem shiftToTargetExponent_of_lt {m : ℕ} {q : ℤ} (hm : m < 2 ^ 53) (hq : -1074 ≤ q) :
    shiftToTargetExponent Format.binary64 m q .exact = (⟨m, false, false⟩, q) := by
  have hlog : m.log2 < 53 := by
    rcases Nat.eq_zero_or_pos m with rfl | hpos
    · decide
    · exact (Nat.log2_lt hpos.ne').mpr hm
  have hshift : (Format.binary64.targetExponent (totalExponent m q) - q).toNat = 0 := by
    rw [targetExponent_eq, totalExponent]
    omega
  simp only [shiftToTargetExponent, shiftToExponent, hshift, Nat.cast_zero, add_zero]
  rfl

/-- A significand that has become too long by one bit is shifted by it. -/
theorem shiftToTargetExponent_carry {q : ℤ} (hq : -1074 ≤ q) :
    shiftToTargetExponent Format.binary64 (2 ^ 53) q .exact = (⟨2 ^ 52, false, false⟩, q + 1) := by
  have hshift : (Format.binary64.targetExponent (totalExponent (2 ^ 53) q) - q).toNat = 1 := by
    rw [targetExponent_eq, totalExponent, Nat.log2_two_pow]
    omega
  simp only [shiftToTargetExponent, shiftToExponent, hshift, Nat.cast_one]
  rfl

/-! ## Rounding -/

/-- The number is nearest to the double. Where the next smaller double is only half as far away as
the next larger one, the number lies above the middle between the smaller one and this. -/
structure Binary.Covers (b : Binary) (v : ℚ) : Prop where
  near : RoundsTo (v / 2 ^ b.q) b.m
  above : b.narrow = true → (b.m : ℚ) - 1 / 4 ≤ v / 2 ^ b.q

section
variable {b : Binary} {v : ℚ}

/-- A number that a double covers is below the power of two after it. -/
theorem Binary.Covers.lt_two_zpow (hv : b.Covers v) (hb : b.IsCanonical) :
    v < 2 ^ (53 + b.q) := by
  have hhigh := (abs_le.mp hv.near.abs_sub_le).2
  have hm : (b.m : ℚ) + 1 ≤ 2 ^ 53 := by exact_mod_cast hb.lt
  have hv' : v / 2 ^ b.q < 2 ^ 53 := by linarith
  rw [zpow_add₀ two_ne_zero]
  exact (div_lt_iff₀ (by positivity)).mp (by exact_mod_cast hv')

/-- A number that is covered and has not the bits of a full significand lies just below a power of
two. -/
theorem Binary.Covers.of_lt (hv : b.Covers v) (hb : b.IsCanonical) (hq : -1074 < b.q)
    (hlt : v / 2 ^ b.q < 2 ^ 52) : b.m = 2 ^ 52 ∧ 2 ^ (51 + b.q) ≤ v := by
  have hlow := (abs_le.mp hv.near.abs_sub_le).1
  have hm : b.m = 2 ^ 52 := by
    have hge := hb.full hq
    have hle : (b.m : ℚ) < 2 ^ 52 + 1 := by linarith
    have : b.m < 2 ^ 52 + 1 := by exact_mod_cast hle
    omega
  have habove := hv.above (by rw [hb.narrow_eq, hm]; simpa using hq.ne')
  have hv' : (2 : ℚ) ^ 51 ≤ v / 2 ^ b.q := by
    rw [hm] at habove
    norm_num at habove ⊢
    linarith
  refine ⟨hm, ?_⟩
  rw [zpow_add₀ two_ne_zero]
  exact (le_div_iff₀ (by positivity)).mp (by exact_mod_cast hv')

/-- The exponent that a number is shifted to is that of the double that covers it, or the next
smaller one for a number just below a power of two. -/
theorem targetExponent_of_covers {n : ℕ} {e : ℤ} {acc : Accuracy}
    (hb : b.IsCanonical) (hv : b.Covers v)
    (h : Represents (ExtendedMantissa.ofMantissaAndAccuracy n acc) (v / 2 ^ e))
    (he : e ≤ -1074 ∨ 2 ^ 52 ≤ n) :
    Format.binary64.targetExponent (totalExponent n e) = b.q ∨
      Format.binary64.targetExponent (totalExponent n e) = b.q - 1 ∧ -1074 < b.q ∧
        b.m = 2 ^ 52 ∧ v / 2 ^ b.q < 2 ^ 52 := by
  have hleast := hb.least
  have hupper := hv.lt_two_zpow hb
  rw [targetExponent_eq, totalExponent]
  by_cases hq : b.q = -1074
  · left
    rcases eq_or_ne n 0 with rfl | hn
    · rw [show Nat.log2 0 = 0 by decide]
      omega
    · have hlog := log2_add_lt h hn hupper
      omega
  · by_cases hfull : v / 2 ^ b.q < 2 ^ 52
    · right
      obtain ⟨hm, hlower⟩ := hv.of_lt hb (by omega) hfull
      have hupper' : v < 2 ^ (51 + b.q + 1) := by
        rw [show 51 + b.q + 1 = 52 + b.q by ring, zpow_add₀ two_ne_zero]
        exact (div_lt_iff₀ (by positivity)).mp (by exact_mod_cast hfull)
      have hlog := log2_add_eq h he (by omega) hlower hupper'
      exact ⟨by omega, by omega, hm, hfull⟩
    · left
      have hlower : (2 : ℚ) ^ (52 + b.q) ≤ v := by
        rw [zpow_add₀ two_ne_zero]
        exact (le_div_iff₀ (by positivity)).mp (by exact_mod_cast not_lt.mp hfull)
      have hlog := log2_add_eq h he (by omega) hlower (by convert hupper using 2; ring)
      omega

end

theorem roundWithAccuracy_of_shift {n m r : ℕ} {e t q : ℤ} {acc : Accuracy} (hpos : 0 < m)
    (hfirst : (shiftToTargetExponent Format.binary64 n e acc).1.roundedMantissa = r)
    (hexponent : (shiftToTargetExponent Format.binary64 n e acc).2 = t)
    (hsecond : shiftToTargetExponent Format.binary64 r t .exact = (⟨m, false, false⟩, q))
    (s : UnpackedFloat.Sign) :
    roundWithAccuracy Format.binary64 s n e acc = .finite s m q hpos := by
  unfold roundWithAccuracy
  simp only [hfirst, hexponent, hsecond]
  rw [dif_neg hpos.ne']

/-- A number is rounded to the double that covers it. -/
theorem roundWithAccuracy_eq {b : Binary} {v : ℚ} {n : ℕ} {e : ℤ} {acc : Accuracy}
    (hb : b.IsCanonical) (hpos : 0 < b.m) (hv : b.Covers v)
    (h : Represents (ExtendedMantissa.ofMantissaAndAccuracy n acc) (v / 2 ^ e))
    (he : e ≤ -1074 ∨ 2 ^ 52 ≤ n) (s : UnpackedFloat.Sign) :
    roundWithAccuracy Format.binary64 s n e acc = .finite s b.m b.q hpos := by
  have hfine : e ≤ Format.binary64.targetExponent (totalExponent n e) := by
    rw [targetExponent_eq, totalExponent]
    rcases he with he | he
    · omega
    · have hlog := (Nat.le_log2 (by omega : n ≠ 0)).mpr he
      omega
  have hfirst := (represents_shiftToExponent h hfine).roundsTo
  have hexponent : (shiftToTargetExponent Format.binary64 n e acc).2 =
      Format.binary64.targetExponent (totalExponent n e) := shiftToExponent_snd hfine
  rcases targetExponent_of_covers hb hv h he with htarget | ⟨htarget, hq, hm, hw⟩
  · refine roundWithAccuracy_of_shift hpos ?_ (hexponent.trans htarget)
      (shiftToTargetExponent_of_lt hb.lt hb.least) s
    refine hfirst.unique ?_
    rw [htarget]
    exact hv.near
  · -- rounding carries into a power of two, which is shifted back
    have hcarry := shiftToTargetExponent_carry (q := b.q - 1) (by omega)
    rw [sub_add_cancel, ← hm] at hcarry
    refine roundWithAccuracy_of_shift hpos ?_ (hexponent.trans htarget) hcarry s
    refine hfirst.unique ?_
    have habove := hv.above (by rw [hb.narrow_eq, hm]; simpa using hq.ne')
    have hdouble : v / 2 ^ (b.q - 1) = v / 2 ^ b.q * 2 := by
      rw [zpow_sub_one₀ two_ne_zero]
      field_simp
    rw [htarget, hdouble]
    refine roundsTo_of_even (by decide) ?_
    rw [hm] at habove
    push_cast at habove ⊢
    exact abs_le.mpr ⟨by linarith, by linarith⟩

end Toolgate.Decimal
