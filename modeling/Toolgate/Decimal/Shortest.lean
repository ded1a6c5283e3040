import Toolgate.Decimal.Binary

/-!
# Shortest decimals

The fewest decimal digits that read back as the same double, and of those the nearest to it. The
reals that round to a double form an interval, ends included when its significand is even; the
grids of 1, 2, … 17 digits are tried in turn for a point of that interval next to the value.

## Main definitions

* `Digits`: a whole number of `count` digits, scaled by a power of ten
* `shortest`: the shortest decimal of a positive double
-/

namespace Toolgate.Decimal

/-- The number `coefficient · 10^scale`. -/
structure Digits where
  coefficient : Nat
  scale : Int
  deriving Repr, DecidableEq

/-- How many decimal digits `n` has; zero has one. -/
def digitCount (n : Nat) : Nat :=
  if n < 10 then 1 else digitCount (n / 10) + 1
termination_by n

namespace Binary

/-- The exponent of the leading decimal digit of `m · 2^q`, for `m > 0` and a double's range of
exponents: the value is scaled by `10^400` so that it is at least one. -/
def leadingExponent (b : Binary) : Int :=
  let scaled := b.m * Nat.pow 10 400 * Nat.pow 2 b.q.toNat / Nat.pow 2 (-b.q).toNat
  (digitCount scaled : Int) - 401

/-- The point of the grid of multiples of `10^scale` that lies in the rounding interval next to
the value, the nearer of two; of two equally near the even one. -/
def nearestOn? (b : Binary) (scale : Int) : Option Nat :=
  -- lengths are counted in quarters of `2^q`; a grid point `c` is compared as `c * a` with `x * d`
  let a := Nat.pow 10 scale.toNat * Nat.pow 2 (2 - b.q).toNat
  let d := Nat.pow 2 (b.q - 2).toNat * Nat.pow 10 (-scale).toNat
  let value := 4 * b.m * d
  let low := (4 * b.m - (if b.narrow then 1 else 2)) * d
  let high := (4 * b.m + 2) * d
  let inside (c : Nat) : Bool :=
    if b.m % 2 == 0 then low ≤ c * a && c * a ≤ high else low < c * a && c * a < high
  let below := value / a
  let above := below + 1
  match inside below, inside above with
  | true, true =>
    let down := value - below * a
    let up := above * a - value
    some (if down < up then below else if up < down then above
      else if below % 2 == 0 then below else above)
  | true, false => some below
  | false, true => some above
  | false, false => none

/-- The first grid with a hit, trying `count` further grids from the one with `digits` digits. -/
def shortestFrom (b : Binary) (lead : Int) (digits : Nat) : Nat → Digits
  | 0 => ⟨b.m * Nat.pow 2 b.q.toNat, 0⟩
  | count + 1 =>
    let scale := lead - digits + 1
    match b.nearestOn? scale with
    | some c => ⟨c, scale⟩
    | none => shortestFrom b lead (digits + 1) count

/-- The shortest decimal of `m · 2^q`, for `m > 0`. -/
def shortest (b : Binary) : Digits :=
  shortestFrom b b.leadingExponent 1 17

end Binary

end Toolgate.Decimal
