/-!
# Binary floating point, exactly

A finite double is `±m · 2^q`. This module takes doubles apart into that form and compares them
with integers without rounding.

## Main definitions

* `Binary`, `Binary.ofFloat?`: sign, significand and exponent of a finite double
* `Binary.toInt?`: its value, when that is whole
* `wholeValue?`: the integer a double is equal to
* `fitsWord`: does an integer fit a machine word?
* `remainder`: the exact remainder of two doubles
* `ofInt?`: the double nearest to an integer, unless it is out of range
-/

namespace Toolgate.Decimal

/-- The number `±m · 2^q`; `narrow` says that the next smaller double is only half as far away as
the next larger one. -/
structure Binary where
  negative : Bool
  m : Nat
  q : Int
  narrow : Bool
  deriving Repr, DecidableEq

namespace Binary

/-- Sign, significand and exponent of a finite double. -/
def ofFloat? (x : Float) : Option Binary :=
  let bits := x.toBits.toNat
  let negative := bits >>> 63 == 1
  let exponent := (bits >>> 52) % 0x800
  let fraction := bits % 0x10000000000000
  if exponent == 0x7FF then none
  else if exponent == 0 then some ⟨negative, fraction, -1074, false⟩
  else some ⟨negative, fraction + 0x10000000000000, (exponent : Int) - 1075,
    fraction == 0 && exponent != 1⟩

/-- The value as an integer, when it is whole. -/
def toInt? (b : Binary) : Option Int :=
  let signed (n : Nat) : Int := if b.negative then -(n : Int) else n
  if 0 ≤ b.q then some (signed (b.m * Nat.pow 2 b.q.toNat))
  else if b.m % Nat.pow 2 (-b.q).toNat == 0 then some (signed (b.m / Nat.pow 2 (-b.q).toNat))
  else none

end Binary

/-- The integer that the double is equal to, when there is one. -/
def wholeValue? (x : Float) : Option Int :=
  (Binary.ofFloat? x).bind Binary.toInt?

/-- A signed machine word goes from the negative of this number to below it: `2^63`. -/
def wordLimit : Int := 9223372036854775808

/-- Does the integer fit a signed machine word? -/
def fitsWord (n : Int) : Bool :=
  -wordLimit ≤ n && n < wordLimit

/-- The double nearest to `n`, ties to the even significand; none when `n` is out of range. -/
def ofInt? (n : Int) : Option Float :=
  let x := Float.ofInt n
  if x.isFinite then some x else none

/-- The remainder of `x` by `y`, exact and with the sign of `x`. It is undefined when `x` is
infinite, `y` is zero or either is undefined. -/
def remainder (x y : Float) : Float :=
  match Binary.ofFloat? x, Binary.ofFloat? y with
  | some a, some b =>
    if b.m == 0 then 0 / 0
    else
      let q := min a.q b.q
      let rest := (a.m * Nat.pow 2 (a.q - q).toNat) % (b.m * Nat.pow 2 (b.q - q).toNat)
      let size := Float.scaleB (Float.ofNat rest) q
      if a.negative then -size else size
  | some _, none => if y.isNaN then y else x
  | none, _ => 0 / 0

end Toolgate.Decimal
