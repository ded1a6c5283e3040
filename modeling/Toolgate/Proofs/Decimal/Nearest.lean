import Toolgate.Decimal.Notation
import Toolgate.Proofs.Decimal.Rounding

/-!
# Doubles nearest to decimals

A decimal is read as the double that covers it: its digits and the power of ten are multiplied or
divided exactly, and what comes out is rounded once.

## Main statements

* `mul_eq`, `div_eq`: products and quotients that a double covers
* `nearest_eq`: a decimal that a double covers is read as it
-/

namespace Toolgate.Decimal

open Float.Model (UnpackedFloat Format totalExponent)
open Float.Model.UnpackedFloat (ExtendedMantissa Accuracy accuracyOfFraction)

/-! ## Products and quotients -/

section
variable {b : Binary} {m₁ m₂ : ℕ} {e₁ e₂ : ℤ} {h₁ : 0 < m₁} {h₂ : 0 < m₂}

/-- A product is rounded to the double that covers it. -/
theorem mul_eq (hb : b.IsCanonical) (hpos : 0 < b.m)
    (hv : b.Covers (m₁ * 2 ^ e₁ * (m₂ * 2 ^ e₂))) (hlarge : 2 ^ 52 ≤ m₁ * m₂) :
    UnpackedFloat.mul Format.binary64 (.finite .positive m₁ e₁ h₁) (.finite .positive m₂ e₂ h₂) =
      .finite .positive b.m b.q hpos := by
  have hexact : (m₁ * 2 ^ e₁ * (m₂ * 2 ^ e₂) : ℚ) / 2 ^ (e₁ + e₂) = (m₁ * m₂ : ℕ) := by
    rw [zpow_add₀ two_ne_zero]
    push_cast
    field_simp
  have hrep := represents_exact (m₁ * m₂)
  rw [← hexact] at hrep
  exact roundWithAccuracy_eq hb hpos hv hrep (.inr hlarge) _

/-- What is left of a division says to which side of the middle the quotient lies. -/
theorem represents_div (n : ℕ) {k : ℕ} (hk : 0 < k) :
    Represents (ExtendedMantissa.ofMantissaAndAccuracy (n / k) (accuracyOfFraction (n % k) k))
      ((n : ℚ) / k) := by
  have hkpos : (0 : ℚ) < k := by exact_mod_cast hk
  have hsplit : (n : ℚ) / k = (n / k : ℕ) + (n % k : ℕ) / (k : ℚ) := by
    have hn : (k : ℚ) * (n / k : ℕ) + (n % k : ℕ) = n := by exact_mod_cast Nat.div_add_mod n k
    field_simp
    linarith
  have hlt : ((n % k : ℕ) : ℚ) < k := by exact_mod_cast Nat.mod_lt n hk
  rw [hsplit]
  generalize n / k = m
  generalize n % k = r at hlt
  unfold accuracyOfFraction
  split
  · next hzero =>
    rw [hzero]
    simpa using represents_exact m
  · next hne =>
    have hrpos : (0 : ℚ) < r := by exact_mod_cast Nat.pos_of_ne_zero hne
    rcases hcompare : compare (2 * r) k with _ | _ | _
    · have hhalf : (2 * r : ℚ) < k := by exact_mod_cast compare_lt_iff_lt.mp hcompare
      change (m : ℚ) < m + r / k ∧ m + r / k < (m : ℚ) + 1 / 2
      have hsmall : (r : ℚ) / k < 1 / 2 := by
        rw [div_lt_iff₀ hkpos]
        linarith
      exact ⟨by linarith [div_pos hrpos hkpos], by linarith⟩
    · have hhalf : (2 * r : ℚ) = k := by exact_mod_cast compare_eq_iff_eq.mp hcompare
      change m + r / k = (m : ℚ) + 1 / 2
      rw [← hhalf]
      field_simp
    · have hhalf : (k : ℚ) < 2 * r := by exact_mod_cast compare_gt_iff_gt.mp hcompare
      change (m : ℚ) + 1 / 2 < m + r / k ∧ m + r / k < (m : ℚ) + 1
      have hlarge : 1 / 2 < (r : ℚ) / k := by
        rw [lt_div_iff₀ hkpos]
        linarith
      exact ⟨by linarith, by linarith [(div_lt_one hkpos).mpr hlt]⟩

/-- A quotient is rounded to the double that covers it. -/
theorem div_eq (hb : b.IsCanonical) (hpos : 0 < b.m)
    (hv : b.Covers (m₁ * 2 ^ e₁ / (m₂ * 2 ^ e₂))) :
    UnpackedFloat.div Format.binary64 (.finite .positive m₁ e₁ h₁) (.finite .positive m₂ e₂ h₂) =
      .finite .positive b.m b.q hpos := by
  simp only [UnpackedFloat.div, UnpackedFloat.divCore, Nat.shiftLeft_eq]
  generalize htarget : min (e₁ - e₂)
    (Format.binary64.targetExponent (totalExponent m₁ e₁ - totalExponent m₂ e₂)) = t
  rw [targetExponent_eq, totalExponent, totalExponent] at htarget
  refine roundWithAccuracy_eq hb hpos hv ?_ ?_ _
  · have hquotient : (m₁ * 2 ^ e₁ / (m₂ * 2 ^ e₂) : ℚ) / 2 ^ t =
        (m₁ * 2 ^ (e₁ - e₂ - t).toNat : ℕ) / (m₂ : ℚ) := by
      push_cast
      rw [← zpow_natCast, show ((e₁ - e₂ - t).toNat : ℤ) = e₁ - e₂ - t by omega,
        zpow_sub₀ two_ne_zero, zpow_sub₀ two_ne_zero]
      field_simp
    rw [hquotient]
    exact represents_div _ h₂
  · by_cases ht : t ≤ -1074
    · exact .inl ht
    · right
      rw [Nat.le_div_iff_mul_le h₂]
      have hm₂ : m₂ < 2 ^ (m₂.log2 + 1) := Nat.lt_log2_self
      have hm₁ : 2 ^ m₁.log2 ≤ m₁ := Nat.log2_self_le h₁.ne'
      calc 2 ^ 52 * m₂ ≤ 2 ^ 52 * 2 ^ (m₂.log2 + 1) := Nat.mul_le_mul_left _ hm₂.le
        _ = 2 ^ (m₂.log2 + 53) := by rw [← pow_add]; congr 1; omega
        _ ≤ 2 ^ (m₁.log2 + (e₁ - e₂ - t).toNat) := Nat.pow_le_pow_right (by decide) (by omega)
        _ = 2 ^ m₁.log2 * 2 ^ (e₁ - e₂ - t).toNat := pow_add _ _ _
        _ ≤ m₁ * 2 ^ (e₁ - e₂ - t).toNat := Nat.mul_le_mul_right _ hm₁

end

/-! ## Digits with a power of ten -/

section
variable {b : Binary} {m : ℕ} {e : ℤ}

/-- Digits with a power of ten are rounded to the double that covers them. -/
theorem ofScientific_eq (hb : b.IsCanonical) (hpos : 0 < b.m) (hm : 0 < m)
    (hv : b.Covers (m * 10 ^ e)) (hhigh : e ≤ 2 ^ 11) (hlow : -(2 ^ 11 + m.log2 : ℤ) ≤ e) :
    UnpackedFloat.ofScientific Format.binary64 m e = .finite .positive b.m b.q hpos := by
  unfold UnpackedFloat.ofScientific
  rw [dif_neg hm.ne', if_neg (not_lt.mpr hhigh), if_neg (not_lt.mpr hlow)]
  split
  · next he =>
    obtain ⟨k, rfl⟩ := Int.eq_ofNat_of_zero_le he
    refine mul_eq hb hpos ?_ ?_
    · have hvalue : ((m <<< 53 : ℕ) : ℚ) * 2 ^ (-53 : ℤ) *
          ((10 ^ (k : ℤ).toNat : ℕ) * 2 ^ (0 : ℤ)) = m * 10 ^ (k : ℤ) := by
        rw [Nat.shiftLeft_eq, Int.toNat_natCast, zpow_natCast]
        push_cast
        norm_num
        ring
      rw [← hvalue] at hv
      exact hv
    · rw [Nat.shiftLeft_eq]
      calc 2 ^ 52 ≤ 1 * 2 ^ 53 * 1 := by decide
        _ ≤ m * 2 ^ 53 * 10 ^ (k : ℤ).toNat :=
          Nat.mul_le_mul (Nat.mul_le_mul_right _ hm) (Nat.one_le_pow _ _ (by decide))
  · next he =>
    refine div_eq hb hpos ?_
    have hvalue : (m : ℚ) * 2 ^ (0 : ℤ) / ((10 ^ (-e).toNat : ℕ) * 2 ^ (0 : ℤ)) = m * 10 ^ e := by
      push_cast
      rw [mul_one, mul_one, ← zpow_natCast, show ((-e).toNat : ℤ) = -e by omega, zpow_neg,
        div_inv_eq_mul]
    rw [hvalue]
    exact hv

end

/-! ## Doubles without rounding -/

theorem covers_self (b : Binary) : b.Covers (b.m * 2 ^ b.q) := by
  have hself : (b.m * 2 ^ b.q : ℚ) / 2 ^ b.q = b.m := by field_simp
  refine ⟨.inl ?_, fun _ => ?_⟩
  · rw [hself, sub_self, abs_zero]
    norm_num
  · rw [hself]
    norm_num

/-- The double is the number, with a significand of full length. -/
def Stands (x : Float) (v : ℚ) : Prop :=
  ∃ (m : ℕ) (e : ℤ) (hpos : 0 < m), x.toModel.unpack = .finite .positive m e hpos ∧
    (m : ℚ) * 2 ^ e = v ∧ 2 ^ 52 ≤ m

/-- A number of at most 53 bits, with a significand of full length. -/
def Binary.ofWhole (m : ℕ) : Binary :=
  ⟨false, m * 2 ^ (52 - m.log2), -(52 - m.log2 : ℕ),
    m * 2 ^ (52 - m.log2) == 2 ^ 52 && (-(52 - m.log2 : ℕ) : ℤ) != -1074⟩

section
variable {m : ℕ}

theorem le_ofWhole (hpos : 0 < m) (hlt : m < 2 ^ 53) : 2 ^ 52 ≤ (Binary.ofWhole m).m := by
  have hlog : m.log2 < 53 := (Nat.log2_lt hpos.ne').mpr hlt
  calc 2 ^ 52 = 2 ^ m.log2 * 2 ^ (52 - m.log2) := by rw [← pow_add]; congr 1; omega
    _ ≤ m * 2 ^ (52 - m.log2) := Nat.mul_le_mul_right _ (Nat.log2_self_le hpos.ne')

theorem isCanonical_ofWhole (hpos : 0 < m) (hlt : m < 2 ^ 53) :
    (Binary.ofWhole m).IsCanonical := by
  have hlog : m.log2 < 53 := (Nat.log2_lt hpos.ne').mpr hlt
  refine ⟨?_, ?_, ?_, fun _ => le_ofWhole hpos hlt, rfl⟩
  · calc m * 2 ^ (52 - m.log2) < 2 ^ (m.log2 + 1) * 2 ^ (52 - m.log2) :=
          Nat.mul_lt_mul_of_pos_right Nat.lt_log2_self (by positivity)
      _ = 2 ^ 53 := by rw [← pow_add]; congr 1; omega
  · dsimp only [Binary.ofWhole]
    omega
  · dsimp only [Binary.ofWhole]
    omega

theorem value_ofWhole (m : ℕ) :
    ((Binary.ofWhole m).m : ℚ) * 2 ^ (Binary.ofWhole m).q = m := by
  dsimp only [Binary.ofWhole]
  push_cast
  rw [zpow_neg, zpow_natCast]
  field_simp

/-- A number of 53 bits is converted without rounding. -/
theorem ofUInt64_eq (hpos : 0 < m) (hlt : m < 2 ^ 53) (hm : 0 < (Binary.ofWhole m).m) :
    UnpackedFloat.ofUInt64 Format.binary64 m.toUInt64 =
      .finite .positive (Binary.ofWhole m).m (Binary.ofWhole m).q hm := by
  have hlog : m.log2 < 53 := (Nat.log2_lt hpos.ne').mpr hlt
  have hshift : (-Format.binary64.targetExponent (totalExponent m 0)).toNat = 52 - m.log2 := by
    rw [targetExponent_eq, totalExponent]
    omega
  have hcovers : (Binary.ofWhole m).Covers m := by
    have hself := covers_self (Binary.ofWhole m)
    rwa [value_ofWhole] at hself
  have hrep := represents_exact (Binary.ofWhole m).m
  rw [← mul_div_cancel_right₀ ((Binary.ofWhole m).m : ℚ)
    (by positivity : (2 : ℚ) ^ (Binary.ofWhole m).q ≠ 0), value_ofWhole] at hrep
  have hcompare : compare (m : ℤ) 0 = .gt := compare_gt_iff_gt.mpr (by omega)
  simp only [UnpackedFloat.ofUInt64, UnpackedFloat.ofNat, UnpackedFloat.ofInt,
    UnpackedFloat.normalize, UInt64.toNat_ofNat_of_lt' (hlt.trans (by decide)), hcompare,
    UnpackedFloat.round, UnpackedFloat.decreaseExponent, Int.toNat_natCast, zero_sub,
    hshift, Nat.shiftLeft_eq]
  exact roundWithAccuracy_eq (isCanonical_ofWhole hpos hlt) hm hcovers hrep
    (.inr (le_ofWhole hpos hlt)) _

/-- A number of 53 bits is a double. -/
theorem stands_toFloat (hpos : 0 < m) (hlt : m < 2 ^ 53) : Stands m.toUInt64.toFloat m := by
  have hfull := le_ofWhole hpos hlt
  have hm : 0 < (Binary.ofWhole m).m := by omega
  have hround := ofUInt64_eq hpos hlt hm
  refine ⟨_, _, hm, ?_, value_ofWhole m, hfull⟩
  have hunpack := unpack_pack_unpacked (isCanonical_ofWhole hpos hlt)
  rw [show (Binary.ofWhole m).unpacked = _ from dif_pos hm] at hunpack
  dsimp only [signOf] at hunpack
  exact (congrArg (fun u => (Float.Model.pack u).unpack) hround).trans hunpack

end

/-- A power is a fraction of powers with natural exponents. -/
theorem zpow_eq_div {a : ℚ} (ha : a ≠ 0) (k : ℤ) : a ^ k = a ^ k.toNat / a ^ (-k).toNat := by
  rw [← zpow_natCast, ← zpow_natCast, ← zpow_sub₀ ha]
  congr 1
  omega

/-- Is the double the number, with a significand of full length? -/
def isNumber (x : Float) (n : ℕ) : Bool :=
  (Binary.ofFloat? x).any fun b =>
    !b.negative && 2 ^ 52 ≤ b.m && b.m * 2 ^ b.q.toNat == n * 2 ^ (-b.q).toNat

theorem stands_of_isNumber {x : Float} {n : ℕ} (h : isNumber x n = true) : Stands x n := by
  obtain ⟨⟨negative, m, q, narrow⟩, hb, htest⟩ := (Option.any_eq_true _ _).mp h
  simp only [Bool.and_eq_true, Bool.not_eq_true', decide_eq_true_eq, beq_iff_eq] at htest
  obtain ⟨⟨rfl, hfull⟩, hvalue⟩ := htest
  refine ⟨m, q, by omega, (unpack_eq_unpacked hb).trans (dif_pos _), ?_, hfull⟩
  have hcast : (m : ℚ) * 2 ^ q.toNat = n * 2 ^ (-q).toNat := by exact_mod_cast hvalue
  rw [zpow_eq_div two_ne_zero, ← mul_div_assoc, hcast]
  field_simp

theorem isNumber_powersOfTen : ∀ k : Fin Float.exactlyRepresentablePowersOfTen.size,
    isNumber Float.exactlyRepresentablePowersOfTen[k] (10 ^ k.val) = true := by decide +kernel

/-- The powers of ten that are doubles are listed as such. -/
theorem stands_powerOfTen {k : ℕ} (hk : k < Float.exactlyRepresentablePowersOfTen.size) :
    Stands Float.exactlyRepresentablePowersOfTen[k] (10 ^ k) := by
  exact_mod_cast stands_of_isNumber (isNumber_powersOfTen ⟨k, hk⟩)

section
variable {b : Binary} {x y : Float} {v w : ℚ}

/-- A product of doubles is the double that covers it. -/
theorem Stands.mul (hx : Stands x v) (hy : Stands y w) (hb : b.IsCanonical) (hpos : 0 < b.m)
    (hv : b.Covers (v * w)) :
    x * y = Float.ofModel (Float.Model.pack (.finite .positive b.m b.q hpos)) := by
  obtain ⟨m₁, e₁, h₁, hunpack₁, rfl, hfull⟩ := hx
  obtain ⟨m₂, e₂, h₂, hunpack₂, rfl, -⟩ := hy
  have hmul : UnpackedFloat.mul Format.binary64 (.finite .positive m₁ e₁ h₁)
      (.finite .positive m₂ e₂ h₂) = .finite .positive b.m b.q hpos :=
    mul_eq hb hpos hv (hfull.trans (Nat.le_mul_of_pos_right _ h₂))
  rw [← hunpack₁, ← hunpack₂] at hmul
  exact congrArg (fun u => Float.ofModel (Float.Model.pack u)) hmul

/-- A quotient of doubles is the double that covers it. -/
theorem Stands.div (hx : Stands x v) (hy : Stands y w) (hb : b.IsCanonical) (hpos : 0 < b.m)
    (hv : b.Covers (v / w)) :
    x / y = Float.ofModel (Float.Model.pack (.finite .positive b.m b.q hpos)) := by
  obtain ⟨m₁, e₁, h₁, hunpack₁, rfl, -⟩ := hx
  obtain ⟨m₂, e₂, h₂, hunpack₂, rfl, -⟩ := hy
  have hdiv : UnpackedFloat.div Format.binary64 (.finite .positive m₁ e₁ h₁)
      (.finite .positive m₂ e₂ h₂) = .finite .positive b.m b.q hpos := div_eq hb hpos hv
  rw [← hunpack₁, ← hunpack₂] at hdiv
  exact congrArg (fun u => Float.ofModel (Float.Model.pack u)) hdiv

end

section
variable {b : Binary} {m : ℕ}

/-- A number is the double that covers it. -/
theorem float_ofScientific_false (hb : b.IsCanonical) (hpos : 0 < b.m) (hm : 0 < m)
    (hv : b.Covers m) :
    Float.ofScientific m false 0 =
      Float.ofModel (Float.Model.pack (.finite .positive b.m b.q hpos)) := by
  unfold Float.ofScientific
  split
  · next hfast =>
    refine (stands_toFloat hm hfast.1).mul (stands_powerOfTen (by decide)) hb hpos ?_
    simpa using hv
  · refine congrArg (fun u => Float.ofModel (Float.Model.pack u)) ?_
    exact ofScientific_eq hb hpos hm (by simpa using hv) (by decide) (by simp)

/-- A number divided by a power of ten is the double that covers it. -/
theorem float_ofScientific_true {k : ℕ} (hb : b.IsCanonical) (hpos : 0 < b.m) (hm : 0 < m)
    (hv : b.Covers (m * 10 ^ (-k : ℤ))) (hk : k ≤ 2 ^ 11 + m.log2) :
    Float.ofScientific m true k =
      Float.ofModel (Float.Model.pack (.finite .positive b.m b.q hpos)) := by
  unfold Float.ofScientific
  split
  · next hfast =>
    refine (stands_toFloat hm hfast.1).div (stands_powerOfTen _) hb hpos ?_
    rw [zpow_neg, zpow_natCast] at hv
    exact hv
  · refine congrArg (fun u => Float.ofModel (Float.Model.pack u)) ?_
    have hneg : Int.negOfNat k = -(k : ℤ) := by
      cases k <;> rfl
    simp only [if_true, hneg]
    exact ofScientific_eq hb hpos hm hv (by omega) (by omega)

end

/-! ## Decimals -/

theorem digitCount_pos (n : ℕ) : 0 < digitCount n := by
  rw [digitCount]
  split <;> omega

theorem lt_pow_digitCount (n : ℕ) : n < 10 ^ digitCount n := by
  induction n using digitCount.induct with
  | case1 n h =>
    rw [digitCount, if_pos h]
    exact h
  | case2 n h ih =>
    rw [digitCount, if_neg h, pow_succ]
    omega

theorem pow_digitCount_le {n : ℕ} (hn : 0 < n) : 10 ^ (digitCount n - 1) ≤ n := by
  induction n using digitCount.induct with
  | case1 n h =>
    rw [digitCount, if_pos h]
    exact hn
  | case2 n h ih =>
    have hpos := digitCount_pos (n / 10)
    have hle := ih (by omega)
    rw [digitCount, if_neg h, Nat.add_sub_cancel]
    calc 10 ^ digitCount (n / 10) = 10 ^ (digitCount (n / 10) - 1) * 10 := by
          rw [← pow_succ]; congr 1; omega
      _ ≤ n := by omega

/-- A digit carries more than three bits. -/
theorem two_pow_le_ten_pow {j k : ℕ} (h : j ≤ 3 * k) : 2 ^ j ≤ 10 ^ k :=
  calc 2 ^ j ≤ 2 ^ (3 * k) := Nat.pow_le_pow_right (by decide) h
    _ = 8 ^ k := pow_mul 2 3 k
    _ ≤ 10 ^ k := Nat.pow_le_pow_left (by decide) k

theorem two_zpow_le_ten_zpow {j k : ℕ} (h : j ≤ 3 * k) : (2 : ℚ) ^ (j : ℤ) ≤ 10 ^ (k : ℤ) := by
  rw [zpow_natCast, zpow_natCast]
  exact_mod_cast two_pow_le_ten_pow h

section
variable {b : Binary} {v : ℚ}

/-- Numbers that a double covers are in its range. -/
theorem Binary.Covers.lt (hv : b.Covers v) (hb : b.IsCanonical) : v < 2 ^ (1024 : ℤ) := by
  have hgreatest := hb.greatest
  exact (hv.lt_two_zpow hb).trans_le (zpow_le_zpow_right₀ one_le_two (by omega))

theorem Binary.Covers.le (hv : b.Covers v) (hb : b.IsCanonical) (hpos : 0 < b.m) :
    2 ^ (-1075 : ℤ) ≤ v := by
  have hlow := (abs_le.mp hv.near.abs_sub_le).1
  have hm : (1 : ℚ) ≤ b.m := by exact_mod_cast hpos
  have hv' : 2 ^ (-1 : ℤ) ≤ v / 2 ^ b.q := by
    norm_num
    linarith
  calc (2 : ℚ) ^ (-1075 : ℤ) ≤ 2 ^ (-1 + b.q) :=
        zpow_le_zpow_right₀ one_le_two (by have := hb.least; omega)
    _ = 2 ^ (-1 : ℤ) * 2 ^ b.q := zpow_add₀ two_ne_zero _ _
    _ ≤ v := (le_div_iff₀ (by positivity)).mp hv'

end

/-! ## Sizes of decimals -/

section
variable {d : ℕ} {s : ℤ}

theorem digitCount_add_le (hd : 0 < d) (h : (d : ℚ) * 10 ^ s < 2 ^ (1024 : ℤ)) :
    (digitCount d : ℤ) + s ≤ 400 := by
  have hcount := digitCount_pos d
  have hdigits : (10 : ℚ) ^ ((digitCount d : ℤ) - 1) ≤ d := by
    rw [show (digitCount d : ℤ) - 1 = (digitCount d - 1 : ℕ) by omega, zpow_natCast]
    exact_mod_cast pow_digitCount_le hd
  have hlt : (10 : ℚ) ^ ((digitCount d : ℤ) - 1 + s) < 10 ^ (400 : ℤ) := by
    calc (10 : ℚ) ^ ((digitCount d : ℤ) - 1 + s) = 10 ^ ((digitCount d : ℤ) - 1) * 10 ^ s :=
          zpow_add₀ (by norm_num) _ _
      _ ≤ d * 10 ^ s := mul_le_mul_of_nonneg_right hdigits (by positivity)
      _ < 2 ^ (1024 : ℤ) := h
      _ ≤ 10 ^ (400 : ℤ) := two_zpow_le_ten_zpow (by decide : 1024 ≤ 3 * 400)
  have hexponent := (zpow_lt_zpow_iff_right₀ (by norm_num)).mp hlt
  omega

theorem le_digitCount_add (h : (2 : ℚ) ^ (-1075 : ℤ) ≤ d * 10 ^ s) :
    -400 ≤ (digitCount d : ℤ) + s := by
  have hdigits : (d : ℚ) < 10 ^ (digitCount d : ℤ) := by
    rw [zpow_natCast]
    exact_mod_cast lt_pow_digitCount d
  have hlt : (10 : ℚ) ^ (-401 : ℤ) < 10 ^ ((digitCount d : ℤ) + s) := by
    calc (10 : ℚ) ^ (-401 : ℤ) = (10 ^ (401 : ℤ))⁻¹ := zpow_neg _ _
      _ ≤ (2 ^ (1075 : ℤ))⁻¹ :=
        inv_anti₀ (by positivity) (two_zpow_le_ten_zpow (by decide : 1075 ≤ 3 * 401))
      _ = 2 ^ (-1075 : ℤ) := (zpow_neg _ _).symm
      _ ≤ d * 10 ^ s := h
      _ < 10 ^ (digitCount d : ℤ) * 10 ^ s := mul_lt_mul_of_pos_right hdigits (by positivity)
      _ = 10 ^ ((digitCount d : ℤ) + s) := (zpow_add₀ (by norm_num) _ _).symm
  have hexponent := (zpow_lt_zpow_iff_right₀ (by norm_num)).mp hlt
  omega

theorem le_scale (h : (2 : ℚ) ^ (-1075 : ℤ) ≤ d * 10 ^ s) : -(2 ^ 11 + d.log2 : ℤ) ≤ s := by
  by_contra hlt
  have hbits : (d : ℚ) < 2 ^ ((d.log2 : ℤ) + 1) := by
    rw [← Nat.cast_succ, zpow_natCast]
    exact_mod_cast Nat.lt_log2_self
  have hpower : (10 : ℚ) ^ s ≤ 2 ^ s := by
    obtain ⟨k, rfl⟩ : ∃ k : ℕ, s = -k := ⟨(-s).toNat, by omega⟩
    rw [zpow_neg, zpow_neg, zpow_natCast, zpow_natCast]
    exact inv_anti₀ (by positivity) (pow_le_pow_left₀ (by norm_num) (by norm_num) k)
  have hle : (2 : ℚ) ^ (-1075 : ℤ) < 2 ^ ((d.log2 : ℤ) + 1 + s) := by
    calc (2 : ℚ) ^ (-1075 : ℤ) ≤ d * 10 ^ s := h
      _ < 2 ^ ((d.log2 : ℤ) + 1) * 10 ^ s := mul_lt_mul_of_pos_right hbits (by positivity)
      _ ≤ 2 ^ ((d.log2 : ℤ) + 1) * 2 ^ s := mul_le_mul_of_nonneg_left hpower (by positivity)
      _ = 2 ^ ((d.log2 : ℤ) + 1 + s) := (zpow_add₀ two_ne_zero _ _).symm
  have hexponent := (zpow_lt_zpow_iff_right₀ one_lt_two).mp hle
  omega

end

section
variable {b : Binary} {d : ℕ} {s : ℤ}

theorem Binary.Covers.coefficient_pos (hv : b.Covers (d * 10 ^ s)) (hb : b.IsCanonical)
    (hpos : 0 < b.m) : 0 < d := by
  rw [Nat.pos_iff_ne_zero]
  rintro rfl
  have hlow := hv.le hb hpos
  rw [Nat.cast_zero, zero_mul] at hlow
  exact absurd hlow (not_le.mpr (by positivity))

theorem neg_pack (hb : b.IsCanonical) (hpos : 0 < b.m) :
    -Float.ofModel (Float.Model.pack (.finite .positive b.m b.q hpos)) =
      Float.ofModel (Float.Model.pack (.finite .negative b.m b.q hpos)) := by
  have hpositive : Binary.IsCanonical { b with negative := false } :=
    ⟨hb.lt, hb.least, hb.greatest, hb.full, hb.narrow_eq⟩
  have hunpack := unpack_pack_unpacked hpositive
  rw [show Binary.unpacked { b with negative := false } = .finite .positive b.m b.q hpos from
    dif_pos hpos] at hunpack
  exact congrArg (fun u => Float.ofModel (Float.Model.pack (UnpackedFloat.neg u))) hunpack

/-- A decimal is read as the double that covers it. -/
theorem nearest_eq {x : Float} (h : Binary.ofFloat? x = some b) (hpos : 0 < b.m)
    (hv : b.Covers (d * 10 ^ s)) : nearest b.negative d s = x := by
  have hb := isCanonical_of_ofFloat? h
  have hd := hv.coefficient_pos hb hpos
  -- so it is not settled before any power is computed
  have hhigh := digitCount_add_le hd (hv.lt hb)
  have hlow := le_digitCount_add (hv.le hb hpos)
  have hmagnitude : (if 0 ≤ s then Float.ofScientific (d * Nat.pow 10 s.toNat) false 0
      else Float.ofScientific d true (-s).toNat) =
      Float.ofModel (Float.Model.pack (.finite .positive b.m b.q hpos)) := by
    split
    · next hs =>
      obtain ⟨k, rfl⟩ := Int.eq_ofNat_of_zero_le hs
      refine float_ofScientific_false hb hpos (Nat.mul_pos hd (Nat.pow_pos (by decide))) ?_
      rw [zpow_natCast] at hv
      rw [Nat.pow_eq, Int.toNat_natCast]
      exact_mod_cast hv
    · next hs =>
      have hscale := le_scale (hv.le hb hpos)
      refine float_ofScientific_true hb hpos hd ?_ (by omega)
      rwa [show -((-s).toNat : ℤ) = s by omega]
  unfold nearest
  simp only [beq_iff_eq, hd.ne', if_false, if_neg (not_lt.mpr hhigh), if_neg (not_lt.mpr hlow),
    hmagnitude]
  have hpack := pack_unpacked h
  rw [show b.unpacked = .finite (signOf b.negative) b.m b.q hpos from dif_pos hpos] at hpack
  rw [← hpack]
  cases b.negative with
  | false => rfl
  | true => exact neg_pack hb hpos

end

end Toolgate.Decimal
