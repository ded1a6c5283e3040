import Mathlib
import Toolgate.Decimal.Binary

/-!
# Bits of doubles

The sign, significand and exponent that a double is taken apart into are those it is computed with,
and they determine it. A number that is put together from a significand and an exponent in the range
of doubles is taken apart into these again.

## Main definitions

* `Binary.IsCanonical`: the significands and exponents that doubles have
* `Binary.unpacked`: the number as it is computed with

## Main statements

* `isSome_ofFloat?`: the doubles that can be taken apart are the finite ones
* `pack_unpacked`: a finite double is determined by its parts
* `unpack_pack_unpacked`: parts that are put together are found again
-/

namespace Toolgate.Decimal

open Float.Model (UnpackedFloat Format)

/-- The sign of a number. -/
def signOf (negative : Bool) : UnpackedFloat.Sign :=
  if negative then .negative else .positive

/-- The number as it is computed with. -/
def Binary.unpacked (b : Binary) : UnpackedFloat :=
  if h : 0 < b.m then .finite (signOf b.negative) b.m b.q h else .zero (signOf b.negative)

/-! ## Fields -/

/-- Bits in front of others count as many times as these have values. -/
theorem toNat_append {k n : ℕ} (high : BitVec k) (low : BitVec n) :
    (high ++ low).toNat = high.toNat * 2 ^ n + low.toNat := by
  rw [BitVec.toNat_append, ← Nat.shiftLeft_add_eq_or_of_lt low.isLt, Nat.shiftLeft_eq]

section
variable (bits : BitVec 64)

theorem toNat_unpackExponent :
    (@UnpackedFloat.unpackExponent Format.binary64 bits).toNat =
      bits.toNat >>> 52 % 0x800 := by
  simp [UnpackedFloat.unpackExponent, BitVec.extractLsb]

theorem toNat_unpackMantissa :
    (@UnpackedFloat.unpackMantissa Format.binary64 bits).toNat =
      bits.toNat % 0x10000000000000 := by
  simp [UnpackedFloat.unpackMantissa, BitVec.extractLsb]

theorem toNat_unpackSign :
    (@UnpackedFloat.unpackSign Format.binary64 bits).toNat = bits.toNat >>> 63 := by
  have hlt := bits.isLt
  simp [UnpackedFloat.unpackSign, BitVec.extractLsb]
  omega

theorem ofBitVec_unpackSign :
    UnpackedFloat.Sign.ofBitVec (@UnpackedFloat.unpackSign Format.binary64 bits) =
      signOf (bits.toNat >>> 63 == 1) := by
  have hlt := bits.isLt
  have hsign : @UnpackedFloat.unpackSign Format.binary64 bits =
      BitVec.ofNat 1 (bits.toNat >>> 63) :=
    BitVec.eq_of_toNat_eq (by rw [toNat_unpackSign, BitVec.toNat_ofNat]; omega)
  obtain h | h : bits.toNat >>> 63 = 0 ∨ bits.toNat >>> 63 = 1 := by omega
  · rw [hsign, h]
    rfl
  · rw [hsign, h]
    rfl

/-- The largest exponent stands for what is not finite. -/
theorem isFinite_unpack_of_exponent (h : bits.toNat >>> 52 % 0x800 = 0x7FF) :
    (UnpackedFloat.unpack Format.binary64 bits).isFinite = false := by
  have hvec : @UnpackedFloat.unpackExponent Format.binary64 bits = -1#11 :=
    BitVec.eq_of_toNat_eq ((toNat_unpackExponent bits).trans h)
  unfold UnpackedFloat.unpack
  simp only [hvec, if_true]
  split <;> rfl

/-- The exponent zero stands for significands without a leading bit. -/
theorem unpack_of_exponent_zero (narrow : Bool) (h : bits.toNat >>> 52 % 0x800 = 0) :
    UnpackedFloat.unpack Format.binary64 bits =
      Binary.unpacked ⟨bits.toNat >>> 63 == 1, bits.toNat % 0x10000000000000, -1074, narrow⟩ := by
  have hvec : @UnpackedFloat.unpackExponent Format.binary64 bits = 0#11 :=
    BitVec.eq_of_toNat_eq ((toNat_unpackExponent bits).trans h)
  unfold UnpackedFloat.unpack Binary.unpacked
  simp only [hvec, ofBitVec_unpackSign, toNat_unpackMantissa]
  rw [if_neg (by decide), if_pos trivial]
  by_cases hzero : bits.toNat % 0x10000000000000 = 0
  · have hmantissa : @UnpackedFloat.unpackMantissa Format.binary64 bits = 0#52 :=
      BitVec.eq_of_toNat_eq ((toNat_unpackMantissa bits).trans hzero)
    rw [dif_pos hmantissa, dif_neg (by omega)]
  · have hmantissa : @UnpackedFloat.unpackMantissa Format.binary64 bits ≠ 0#52 :=
      fun heq => hzero ((toNat_unpackMantissa bits).symm.trans (congrArg BitVec.toNat heq))
    rw [dif_neg hmantissa, dif_pos (by omega)]
    rfl

/-- Every other exponent stands for a significand with a leading bit. -/
theorem unpack_of_exponent_ne (narrow : Bool) (h : bits.toNat >>> 52 % 0x800 ≠ 0)
    (h' : bits.toNat >>> 52 % 0x800 ≠ 0x7FF) :
    UnpackedFloat.unpack Format.binary64 bits =
      Binary.unpacked ⟨bits.toNat >>> 63 == 1, bits.toNat % 0x10000000000000 + 0x10000000000000,
        (bits.toNat >>> 52 % 0x800 : ℕ) - 1075, narrow⟩ := by
  have hexponent := toNat_unpackExponent bits
  have hvec : @UnpackedFloat.unpackExponent Format.binary64 bits ≠ 0#11 :=
    fun heq => h (hexponent.symm.trans (congrArg BitVec.toNat heq))
  have hvec' : @UnpackedFloat.unpackExponent Format.binary64 bits ≠ -1#11 :=
    fun heq => h' (hexponent.symm.trans (congrArg BitVec.toNat heq))
  unfold UnpackedFloat.unpack Binary.unpacked
  simp only [hvec, hvec', ofBitVec_unpackSign, if_false]
  rw [dif_pos (by omega)]
  have hbias : ((Format.binary64.exponentBias : ℕ) : ℤ) = 1023 := rfl
  have hmantissa : (1#1 ++ @UnpackedFloat.unpackMantissa Format.binary64 bits).toNat =
      bits.toNat % 0x10000000000000 + 0x10000000000000 := by
    rw [toNat_append, toNat_unpackMantissa]
    exact Nat.add_comm _ _
  simp only [hmantissa, hexponent, hbias]
  congr 1

end

/-! ## Doubles taken apart -/

variable {x : Float} {b : Binary}

/-- The parts of a double are those it is computed with. -/
theorem unpack_eq_unpacked (h : Binary.ofFloat? x = some b) : x.toModel.unpack = b.unpacked := by
  unfold Binary.ofFloat? at h
  simp only [beq_iff_eq] at h
  split_ifs at h with hlast hzero
  · cases h
    exact unpack_of_exponent_zero _ _ hzero
  · cases h
    exact unpack_of_exponent_ne _ _ hzero hlast

theorem isFinite_unpacked (b : Binary) : b.unpacked.isFinite = true := by
  unfold Binary.unpacked
  split <;> rfl

/-- The doubles that can be taken apart are the finite ones. -/
theorem isSome_ofFloat? (x : Float) : (Binary.ofFloat? x).isSome = x.isFinite := by
  cases h : Binary.ofFloat? x with
  | some b =>
    have hfinite : x.isFinite = true := by
      change x.toModel.unpack.isFinite = true
      rw [unpack_eq_unpacked h]
      exact isFinite_unpacked b
    exact hfinite.symm
  | none =>
    have hlast : x.toBits.toNat >>> 52 % 0x800 = 0x7FF := by
      unfold Binary.ofFloat? at h
      by_contra hne
      simp only [beq_iff_eq, hne, if_false] at h
      split_ifs at h
    exact (isFinite_unpack_of_exponent _ hlast).symm

/-- A finite double is determined by its parts. -/
theorem pack_unpacked (h : Binary.ofFloat? x = some b) :
    Float.ofModel (Float.Model.pack b.unpacked) = x := by
  have hpack := UnpackedFloat.pack_unpack_of_valid x.toModel.valid
  rw [show UnpackedFloat.unpack Format.binary64 x.toModel.toBits.toBitVec = b.unpacked from
    unpack_eq_unpacked h] at hpack
  exact Float.toBits_inj.mp (congrArg UInt64.ofBitVec hpack)

/-! ## Doubles put together -/

/-- The significands and exponents that doubles have. -/
structure Binary.IsCanonical (b : Binary) : Prop where
  lt : b.m < 2 ^ 53
  least : -1074 ≤ b.q
  greatest : b.q ≤ 971
  /-- Above the least exponent the significand has its leading bit. -/
  full : -1074 < b.q → 2 ^ 52 ≤ b.m
  narrow_eq : b.narrow = (b.m == 2 ^ 52 && b.q != -1074)

/-- The parts of a double are in the range of doubles. -/
theorem isCanonical_of_ofFloat? (h : Binary.ofFloat? x = some b) : b.IsCanonical := by
  unfold Binary.ofFloat? at h
  simp only [beq_iff_eq] at h
  generalize x.toBits.toNat = n at h
  have hfraction : n % 0x10000000000000 < 2 ^ 52 := Nat.mod_lt _ (by decide)
  split_ifs at h with hlast hzero
  · cases h
    refine ⟨by dsimp only; omega, le_rfl, by dsimp only; decide, fun hq => absurd hq (lt_irrefl _),
      by simp⟩
  · cases h
    refine ⟨by dsimp only; omega, by dsimp only; omega, by dsimp only; omega,
      fun _ => Nat.le_add_left _ _, ?_⟩
    dsimp only
    rw [Bool.eq_iff_iff]
    simp only [Bool.and_eq_true, beq_iff_eq, bne_iff_ne]
    omega

section
variable {m : ℕ} {q : ℤ} (s : UnpackedFloat.Sign) (hpos : 0 < m)

/-- A significand without its leading bit is put together with the exponent zero. -/
theorem unpack_pack_of_lt (hm : m < 2 ^ 52) :
    UnpackedFloat.unpack Format.binary64
        (UnpackedFloat.pack Format.binary64 (.finite s m (-1074) hpos)) =
      .finite s m (-1074) hpos := by
  have hbias : ((Format.binary64.exponentBias : ℕ) : ℤ) = 1023 := rfl
  have hlog : ¬m.log2 + 1 = Format.binary64.mantissaBits := fun heq => by
    have := (Nat.le_log2 hpos.ne').mp (Nat.le_of_eq (Nat.succ.inj heq).symm)
    omega
  have hne : BitVec.ofNat 52 m ≠ 0#52 := fun heq => by
    have := congrArg BitVec.toNat heq
    rw [BitVec.toNat_ofNat, Nat.mod_eq_of_lt hm] at this
    exact hpos.ne' this
  simp only [UnpackedFloat.pack, hbias]
  rw [if_neg (by decide), if_neg hlog, UnpackedFloat.unpack]
  simpa [hne, hbias] using hm

/-- A significand with its leading bit is put together with its own exponent. -/
theorem unpack_pack_of_le (hm : 2 ^ 52 ≤ m) (hlt : m < 2 ^ 53) (hleast : -1074 ≤ q)
    (hgreatest : q ≤ 971) :
    UnpackedFloat.unpack Format.binary64
        (UnpackedFloat.pack Format.binary64 (.finite s m q hpos)) = .finite s m q hpos := by
  have hbias : ((Format.binary64.exponentBias : ℕ) : ℤ) = 1023 := rfl
  obtain ⟨e, rfl⟩ : ∃ e : ℕ, q = e - 1075 := ⟨(q + 1075).toNat, by omega⟩
  have hlog : m.log2 + 1 = Format.binary64.mantissaBits :=
    congrArg (· + 1) ((Nat.log2_eq_iff hpos.ne').mpr ⟨hm, hlt⟩)
  have hexponent : ((e : ℤ) - 1075 + 1023 + (52 : ℕ)).toNat = e := by omega
  have hvec : (BitVec.ofNat 11 e).toNat = e := Nat.mod_eq_of_lt (by omega)
  have hne {k : ℕ} (hk : k < 2048) (h : e ≠ k) : BitVec.ofNat 11 e ≠ BitVec.ofNat 11 k :=
    fun heq => h (hvec.symm.trans ((congrArg BitVec.toNat heq).trans (Nat.mod_eq_of_lt hk)))
  have hzero : BitVec.ofNat 11 e ≠ 0#11 := hne (by decide) (by omega)
  have hlast : BitVec.ofNat 11 e ≠ 2047#11 := hne (by decide) (by omega)
  have happend : (1#1 ++ BitVec.ofNat 52 m).toNat = m := by
    rw [toNat_append, BitVec.toNat_ofNat]
    simp
    omega
  simp only [UnpackedFloat.pack, hbias]
  rw [if_neg (by omega), if_pos hlog, UnpackedFloat.unpack, hexponent]
  simp [hzero, hlast, hbias]
  exact ⟨happend, by omega⟩

end

/-- Parts that are put together are found again. -/
theorem unpack_pack_unpacked (hb : b.IsCanonical) :
    (Float.Model.pack b.unpacked).unpack = b.unpacked := by
  change UnpackedFloat.unpack Format.binary64 (UnpackedFloat.pack Format.binary64 b.unpacked) = _
  obtain ⟨negative, m, q, narrow⟩ := b
  obtain ⟨hlt, hleast, hgreatest, hfull, -⟩ := hb
  unfold Binary.unpacked
  dsimp only at *
  split
  · next hpos =>
    by_cases hm : m < 2 ^ 52
    · obtain rfl : q = -1074 := by omega
      exact unpack_pack_of_lt _ hpos hm
    · exact unpack_pack_of_le _ hpos (not_lt.mp hm) hlt hleast hgreatest
  · exact UnpackedFloat.unpack_packedZero

end Toolgate.Decimal
