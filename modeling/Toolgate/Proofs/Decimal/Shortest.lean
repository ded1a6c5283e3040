import Toolgate.Decimal.Shortest
import Toolgate.Proofs.Decimal.Nearest
import Toolgate.Proofs.Decimal.Numeral

/-!
# Shortest decimals are covered

The decimal that is written for a double lies in the interval of the numbers that are nearest to the
double. The grid of 17 digits always has a point there: its points are less far apart than the ends
of the interval.

## Main statements

* `covers_of_nearestOn?`: a grid point that is found is covered by the double
* `IsCanonical.covers_shortest`: so is the shortest decimal
* `exists_numeral`: a finite double is read from the numeral that is written for it
-/

namespace Toolgate.Decimal

namespace Binary

/-! ## Grid points -/

section
variable (b : Binary) (scale : ℤ)

/-- The spacing of the grid of multiples of `10^scale`, in quarters of `2^q` times `unit`. -/
def step : ℕ :=
  10 ^ scale.toNat * 2 ^ (2 - b.q).toNat

/-- What a quarter of `2^q` counts. -/
def unit : ℕ :=
  2 ^ (b.q - 2).toNat * 10 ^ (-scale).toNat

/-- The lower end of the interval around the double. -/
def lower : ℕ :=
  (4 * b.m - (if b.narrow then 1 else 2)) * b.unit scale

/-- The upper end of the interval around the double. -/
def upper : ℕ :=
  (4 * b.m + 2) * b.unit scale

/-- Does the grid point lie in the interval around the double? -/
def isInside (c : ℕ) : Bool :=
  if b.m % 2 == 0 then b.lower scale ≤ c * b.step scale && c * b.step scale ≤ b.upper scale
  else b.lower scale < c * b.step scale && c * b.step scale < b.upper scale

end

section
variable {b : Binary} {scale : ℤ} {c : ℕ}

/-- A grid point that is found lies in the interval. -/
theorem isInside_of_nearestOn? (h : b.nearestOn? scale = some c) : b.isInside scale c = true := by
  unfold nearestOn? at h
  simp only at h
  split at h
  · next hbelow habove =>
    split_ifs at h <;> obtain rfl := Option.some.inj h
    · exact hbelow
    · exact habove
    · exact hbelow
    · exact habove
  · next hbelow _ =>
    obtain rfl := Option.some.inj h
    exact hbelow
  · next _ habove =>
    obtain rfl := Option.some.inj h
    exact habove
  · cases h

/-- A grid point next to the value that lies in the interval is found. -/
theorem isSome_nearestOn? (h : b.isInside scale (4 * b.m * b.unit scale / b.step scale) = true ∨
    b.isInside scale (4 * b.m * b.unit scale / b.step scale + 1) = true) :
    ∃ c, b.nearestOn? scale = some c := by
  unfold nearestOn?
  simp only
  split
  · exact ⟨_, rfl⟩
  · exact ⟨_, rfl⟩
  · exact ⟨_, rfl⟩
  · next hbelow habove =>
    rcases h with h | h
    · exact absurd (h.symm.trans hbelow) (by decide)
    · exact absurd (h.symm.trans habove) (by decide)

/-- A grid point is as many steps as its distance from zero has units. -/
theorem mul_step_eq (b : Binary) (scale : ℤ) (c : ℕ) :
    (c : ℚ) * b.step scale = 4 * (c * 10 ^ scale / 2 ^ b.q) * b.unit scale := by
  have hten := zpow_eq_div (by norm_num : (10 : ℚ) ≠ 0) scale
  have htwo := zpow_eq_div (two_ne_zero : (2 : ℚ) ≠ 0) (b.q - 2)
  rw [neg_sub] at htwo
  have hq : (2 : ℚ) ^ b.q = 4 * 2 ^ (b.q - 2) := by
    rw [zpow_sub₀ two_ne_zero]
    norm_num
    ring
  rw [hq, htwo, hten, step, unit]
  push_cast
  field_simp

theorem unit_pos : 0 < b.unit scale := by
  unfold unit
  positivity

/-- A bound of the interval is compared with a grid point by the quarters it counts. -/
theorem mul_unit_le_iff {k : ℕ} :
    k * b.unit scale ≤ c * b.step scale ↔ (k : ℚ) ≤ 4 * (c * 10 ^ scale / 2 ^ b.q) := by
  have hunit : (0 : ℚ) < b.unit scale := by exact_mod_cast unit_pos
  rw [← Nat.cast_le (α := ℚ), Nat.cast_mul, Nat.cast_mul, mul_step_eq,
    mul_le_mul_iff_left₀ hunit]

theorem le_mul_unit_iff {k : ℕ} :
    c * b.step scale ≤ k * b.unit scale ↔ 4 * (c * 10 ^ scale / 2 ^ b.q) ≤ (k : ℚ) := by
  have hunit : (0 : ℚ) < b.unit scale := by exact_mod_cast unit_pos
  rw [← Nat.cast_le (α := ℚ), Nat.cast_mul, Nat.cast_mul, mul_step_eq,
    mul_le_mul_iff_left₀ hunit]

/-- A grid point lies in the interval where it does in quarters of `2^q`; the ends belong to the
interval of an even significand. -/
theorem isInside_iff (hpos : 0 < b.m) :
    b.isInside scale c = true ↔
      if Even b.m then
        (4 * b.m - (if b.narrow then 1 else 2) : ℚ) ≤ 4 * (c * 10 ^ scale / 2 ^ b.q) ∧
          4 * (c * 10 ^ scale / 2 ^ b.q) ≤ (4 * b.m + 2 : ℚ)
      else
        (4 * b.m - (if b.narrow then 1 else 2) : ℚ) < 4 * (c * 10 ^ scale / 2 ^ b.q) ∧
          4 * (c * 10 ^ scale / 2 ^ b.q) < (4 * b.m + 2 : ℚ) := by
  have hlower : ((4 * b.m - (if b.narrow then 1 else 2) : ℕ) : ℚ) =
      4 * b.m - (if b.narrow then 1 else 2) := by
    rw [Nat.cast_sub (by split <;> omega)]
    push_cast
    rfl
  unfold isInside lower upper
  simp only [beq_iff_eq, ← Nat.even_iff]
  split
  · simp only [Bool.and_eq_true, decide_eq_true_eq, mul_unit_le_iff, le_mul_unit_iff, hlower]
    push_cast
    rfl
  · simp only [Bool.and_eq_true, decide_eq_true_eq, ← not_le, mul_unit_le_iff, le_mul_unit_iff,
      hlower]
    push_cast
    rfl

/-- A grid point in the interval is nearest to the double. -/
theorem covers_of_isInside (hpos : 0 < b.m) (h : b.isInside scale c = true) :
    b.Covers (c * 10 ^ scale) := by
  rw [isInside_iff hpos] at h
  split at h
  · next heven =>
    obtain ⟨hlow, hhigh⟩ := h
    refine ⟨roundsTo_of_even heven (abs_le.mpr ⟨?_, by linarith⟩), fun hnarrow => ?_⟩
    · split at hlow <;> linarith
    · rw [if_pos hnarrow] at hlow
      linarith
  · obtain ⟨hlow, hhigh⟩ := h
    refine ⟨.inl (abs_lt.mpr ⟨?_, by linarith⟩), fun hnarrow => ?_⟩
    · split at hlow <;> linarith
    · rw [if_pos hnarrow] at hlow
      linarith

theorem isInside_of_lt (hlow : b.lower scale < c * b.step scale)
    (hhigh : c * b.step scale < b.upper scale) : b.isInside scale c = true := by
  unfold isInside
  split <;> simp only [Bool.and_eq_true, decide_eq_true_eq] <;> omega

/-- A grid whose points are less far apart than the ends of the interval has a point in it. -/
theorem exists_nearestOn?_of_lt (hpos : 0 < b.m)
    (h : b.lower scale + b.step scale < b.upper scale) : ∃ c, b.nearestOn? scale = some c := by
  have hunit : 0 < b.unit scale := unit_pos
  have hstep : 0 < b.step scale := by
    unfold step
    positivity
  have hlower : b.lower scale < 4 * b.m * b.unit scale :=
    Nat.mul_lt_mul_of_pos_right (by split <;> omega) hunit
  have hupper : 4 * b.m * b.unit scale < b.upper scale :=
    Nat.mul_lt_mul_of_pos_right (by omega) hunit
  have hbelow := Nat.div_mul_le_self (4 * b.m * b.unit scale) (b.step scale)
  have habove : 4 * b.m * b.unit scale < 4 * b.m * b.unit scale / b.step scale * b.step scale +
      b.step scale := Nat.lt_div_mul_add hstep
  apply isSome_nearestOn?
  by_cases hlow : b.lower scale < 4 * b.m * b.unit scale / b.step scale * b.step scale
  · exact .inl (isInside_of_lt hlow (by omega))
  · refine .inr (isInside_of_lt ?_ ?_) <;> rw [Nat.add_mul, Nat.one_mul] <;> omega

theorem cast_scaled_le (m n : ℕ) (q : ℤ) :
    ((m * 10 ^ n * 2 ^ q.toNat / 2 ^ (-q).toNat : ℕ) : ℚ) ≤ m * 2 ^ q * 10 ^ (n : ℤ) := by
  refine Nat.cast_div_le.trans (le_of_eq ?_)
  rw [zpow_eq_div two_ne_zero, zpow_natCast]
  push_cast
  field_simp

/-- The leading digit does not lie above the value. -/
theorem pow_leadingExponent_le (hb : b.IsCanonical) (hpos : 0 < b.m) :
    (10 : ℚ) ^ b.leadingExponent ≤ b.m * 2 ^ b.q := by
  have hleast := hb.least
  have hlead : b.leadingExponent =
      digitCount (b.m * 10 ^ 400 * 2 ^ b.q.toNat / 2 ^ (-b.q).toNat) - 401 := by
    -- the power is not to be computed
    obtain ⟨n, hn⟩ : ∃ n, n = 400 := ⟨400, rfl⟩
    rw [leadingExponent, ← hn]
    rfl
  have hvalue := cast_scaled_le b.m 400 b.q
  have hscaled : 0 < b.m * 10 ^ 400 * 2 ^ b.q.toNat / 2 ^ (-b.q).toNat := by
    refine Nat.div_pos ?_ (by positivity)
    calc 2 ^ (-b.q).toNat ≤ 10 ^ 400 := two_pow_le_ten_pow (by omega)
      _ ≤ b.m * 10 ^ 400 := Nat.le_mul_of_pos_left _ hpos
      _ ≤ b.m * 10 ^ 400 * 2 ^ b.q.toNat := Nat.le_mul_of_pos_right _ (by positivity)
  generalize b.m * 10 ^ 400 * 2 ^ b.q.toNat / 2 ^ (-b.q).toNat = scaled at *
  have hcount := digitCount_pos scaled
  have hdigits : (10 : ℚ) ^ ((digitCount scaled : ℤ) - 1) ≤ scaled := by
    rw [show (digitCount scaled : ℤ) - 1 = (digitCount scaled - 1 : ℕ) by omega, zpow_natCast]
    exact_mod_cast pow_digitCount_le hscaled
  rw [hlead, show (digitCount scaled : ℤ) - 401 = digitCount scaled - 1 - 400 by omega,
    zpow_sub₀ (by norm_num), div_le_iff₀ (by positivity)]
  exact hdigits.trans hvalue

/-- The grid of 17 digits has a point in the interval. -/
theorem exists_nearestOn? (hb : b.IsCanonical) (hpos : 0 < b.m) :
    ∃ c, b.nearestOn? (b.leadingExponent - 16) = some c := by
  apply exists_nearestOn?_of_lt hpos
  have hunit : 0 < b.unit (b.leadingExponent - 16) := unit_pos
  have hstep : (b.step (b.leadingExponent - 16) : ℚ) * 10 ^ 16 ≤
      4 * b.m * b.unit (b.leadingExponent - 16) := by
    have h := mul_step_eq b (b.leadingExponent - 16) 1
    have hratio : (10 : ℚ) ^ b.leadingExponent / 2 ^ b.q ≤ b.m := by
      rw [div_le_iff₀ (by positivity)]
      exact pow_leadingExponent_le hb hpos
    rw [Nat.cast_one, one_mul, one_mul, zpow_sub₀ (by norm_num)] at h
    calc (b.step (b.leadingExponent - 16) : ℚ) * 10 ^ 16
        = 4 * (10 ^ b.leadingExponent / 2 ^ b.q) * b.unit (b.leadingExponent - 16) := by
          rw [h]
          field_simp
      _ ≤ 4 * b.m * b.unit (b.leadingExponent - 16) := by gcongr
  have hnat : b.step (b.leadingExponent - 16) * 10 ^ 16 ≤
      4 * b.m * b.unit (b.leadingExponent - 16) := by exact_mod_cast hstep
  generalize b.leadingExponent - 16 = scale at *
  rw [lower, upper]
  have hlt := hb.lt
  by_cases hnarrow : b.narrow = true
  · have hm : b.m = 2 ^ 52 := by
      have h := hb.narrow_eq.symm.trans hnarrow
      simp only [Bool.and_eq_true, beq_iff_eq] at h
      exact h.1
    rw [if_pos hnarrow]
    rw [hm] at hnat ⊢
    omega
  · rw [if_neg hnarrow]
    have hm : 4 * b.m * b.unit scale ≤ 4 * (2 ^ 53 - 1) * b.unit scale :=
      Nat.mul_le_mul_right _ (by omega)
    obtain ⟨k, hk⟩ : ∃ k, 4 * b.m = k + 2 := ⟨4 * b.m - 2, by omega⟩
    rw [hk] at hnat hm ⊢
    have hsplit : (k + 2 - 2) * b.unit scale + 4 * b.unit scale = (k + 2 + 2) * b.unit scale := by
      rw [Nat.add_sub_cancel]
      ring
    omega

/-! ## The shortest decimal -/

/-- The first grid that is tried with a hit gives the digits. -/
theorem shortestFrom_hit {lead : ℤ} {digits count : ℕ}
    (h : ∃ k < count, ∃ c, b.nearestOn? (lead - (digits + k : ℕ) + 1) = some c) :
    b.nearestOn? (b.shortestFrom lead digits count).scale =
      some (b.shortestFrom lead digits count).coefficient := by
  induction count generalizing digits with
  | zero =>
    obtain ⟨k, hk, -⟩ := h
    omega
  | succ count ih =>
    rw [shortestFrom]
    cases hhit : b.nearestOn? (lead - digits + 1) with
    | some c => exact hhit
    | none =>
      apply ih
      obtain ⟨k, hk, c, hc⟩ := h
      cases k with
      | zero => rw [Nat.add_zero, hhit] at hc; cases hc
      | succ k =>
        refine ⟨k, by omega, c, ?_⟩
        rw [show digits + 1 + k = digits + (k + 1) by omega, hc]

/-- The shortest decimal of a double is covered by it. -/
theorem IsCanonical.covers_shortest (hb : b.IsCanonical) (hpos : 0 < b.m) :
    b.Covers (b.shortest.coefficient * 10 ^ b.shortest.scale) := by
  obtain ⟨c, hc⟩ := exists_nearestOn? hb hpos
  have hhit : b.nearestOn? b.shortest.scale = some b.shortest.coefficient :=
    shortestFrom_hit ⟨16, by decide, c, by rw [← hc]; congr 1; omega⟩
  exact covers_of_isInside hpos (isInside_of_nearestOn? hhit)

end

end Binary

/-! ## Texts -/

section
variable {x : Float} {b : Binary}

/-- The digits that are written for a double are a numeral that the double covers. -/
theorem exists_numeral_of_pos (hb : b.IsCanonical) (hpos : 0 < b.m) :
    ∃ n : Numeral, jsonLayout.body b = n.text ∧ b.Covers (n.coefficient * 10 ^ n.scale) := by
  have hcovers := hb.covers_shortest hpos
  have hpositive : 0 < b.shortest.coefficient := hcovers.coefficient_pos hb hpos
  have hwhole := isWhole_significant hpositive
  obtain ⟨k, hk⟩ := exists_eq_significant_append (natDigits b.shortest.coefficient)
    (by rw [natValue_natDigits]; exact hpositive.ne')
  generalize hdigits : significant (natDigits b.shortest.coefficient) = digits at hwhole hk
  have hvalue : b.shortest.coefficient = natValue digits * 10 ^ k := by
    have h := natValue_natDigits b.shortest.coefficient
    rw [hk, natValue_append, natValue_replicate_zero, List.length_replicate, Nat.add_zero] at h
    exact h.symm
  have hne : digits ≠ ['0'] := by
    rintro rfl
    exact absurd (hvalue.trans (Nat.zero_mul _)) hpositive.ne'
  generalize hlead : b.shortest.scale + (natDigits b.shortest.coefficient).length - 1 = lead
  obtain ⟨n, htext, hn⟩ : LaysOut (jsonLayout.arrange digits lead) digits lead :=
    laysOut_arrange hwhole fun hzero => absurd hzero hne
  refine ⟨n, ?_, ?_⟩
  · rw [← htext, ← hdigits, ← hlead, Layout.body, if_neg (by simpa using hpos.ne')]
  · have hsame : (n.coefficient : ℚ) * 10 ^ n.scale =
        b.shortest.coefficient * 10 ^ b.shortest.scale := by
      rw [← Numeral.value, hn, ← hlead, hk, List.length_append, List.length_replicate, hvalue]
      push_cast
      rw [show b.shortest.scale + ((digits.length : ℤ) + k) - 1 + 1 - digits.length =
        k + b.shortest.scale by ring, zpow_add₀ (by norm_num), zpow_natCast, mul_assoc]
    rw [hsame]
    exact hcovers

/-- A finite double is read from the numeral that is written for it. -/
theorem exists_numeral (h : Binary.ofFloat? x = some b) :
    ∃ n : Numeral, jsonLayout.body b = n.text ∧
      nearest b.negative n.coefficient n.scale = x := by
  rcases Nat.eq_zero_or_pos b.m with hzero | hpos
  · obtain ⟨n, htext, hn⟩ : LaysOut (jsonLayout.arrange ['0'] 0) ['0'] 0 :=
      laysOut_arrange isWhole_zero fun _ => rfl
    have hcoefficient : n.coefficient = 0 := by
      rw [Numeral.value, show natValue ['0'] = 0 from rfl, Nat.cast_zero, zero_mul] at hn
      exact_mod_cast (mul_eq_zero.mp hn).resolve_right (by positivity)
    refine ⟨n, by rw [← htext, Layout.body, if_pos (by simpa using hzero)], ?_⟩
    have hpack := pack_unpacked h
    rw [show b.unpacked = .zero (signOf b.negative) from dif_neg (by omega)] at hpack
    rw [← hpack, hcoefficient]
    cases b.negative with
    | false => rfl
    | true =>
      change -(0 : Float) = _
      exact Float.toBits_inj.mp (by decide +kernel)
  · obtain ⟨n, htext, hcovers⟩ := exists_numeral_of_pos (isCanonical_of_ofFloat? h) hpos
    exact ⟨n, htext, nearest_eq h hpos hcovers⟩

end

end Toolgate.Decimal
