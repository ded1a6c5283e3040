import Toolgate.Decimal.Integer
import Toolgate.Decimal.Shortest

/-!
# Floating-point numbers as text

How doubles are written and read. All writers use the shortest decimal that reads back; a
`Layout` says how its digits are laid out.

## Main definitions

* `Layout`, `Layout.text`: a layout, and the text of a double in it
* `plain`: positional between `1e-4` and `1e16`, with at least one digit after the point
* `jsonLayout`: the same for JSON texts
* `positional`: never an exponent, and no point in whole numbers
* `nearest`: the double that a decimal with an exponent is nearest to
-/

namespace Toolgate.Decimal

/-- How a double is laid out. -/
structure Layout where
  /-- Least exponent of the leading digit that is written positionally. -/
  positionalFrom : Int
  /-- First exponent of the leading digit that is no longer written positionally. -/
  positionalBelow : Int
  /-- Are whole numbers written with a point and a zero? -/
  pointed : Bool
  infinity : String
  notANumber : String

/-- Positional between `1e-4` and `1e16` and pointed, else with an exponent of two digits or
more: `1.0`, `0.1`, `1e+22`, `1e-07`. -/
def plain : Layout := ⟨-4, 16, true, "inf", "nan"⟩

/-- As `plain`, with the infinities and the undefined value as JSON texts spell them. -/
def jsonLayout : Layout := ⟨-4, 16, true, "Infinity", "NaN"⟩

/-- Always positional, whole numbers without a point: `2`, `0.1`, `1000000000000000000000`. -/
def positional : Layout := ⟨-400, 400, false, "inf", "NaN"⟩

/-- The digits without trailing zeros. -/
def significant (cs : List Char) : List Char :=
  match (cs.reverse.dropWhile (· == '0')).reverse with
  | [] => ['0']
  | kept => kept

/-- An exponent with its sign and at least two digits. -/
def exponentText (e : Int) : List Char :=
  let digits := natDigits e.natAbs
  (if e < 0 then '-' else '+') :: (if digits.length < 2 then '0' :: digits else digits)

/-- Digits laid out, where the first of them stands for `10^lead`. -/
def Layout.arrange (layout : Layout) (digits : List Char) (lead : Int) : List Char :=
  if layout.positionalFrom ≤ lead && lead < layout.positionalBelow then
    if lead < 0 then
      '0' :: '.' :: (List.replicate ((-lead).toNat - 1) '0' ++ digits)
    else
      let whole := lead.toNat + 1
      if digits.length ≤ whole then
        digits ++ List.replicate (whole - digits.length) '0'
          ++ (if layout.pointed then ['.', '0'] else [])
      else digits.take whole ++ '.' :: digits.drop whole
  else
    (match digits with
    | [] => []
    | [d] => [d]
    | d :: rest => d :: '.' :: rest) ++ 'e' :: exponentText lead

/-- The text of a double. -/
def Layout.text (layout : Layout) (x : Float) : String :=
  match Binary.ofFloat? x with
  | none =>
    if x.isNaN then layout.notANumber
    else if x < 0 then "-" ++ layout.infinity else layout.infinity
  | some b =>
    let body :=
      if b.m == 0 then layout.arrange ['0'] 0
      else
        let found := b.shortest
        let digits := natDigits found.coefficient
        layout.arrange (significant digits) (found.scale + digits.length - 1)
    String.ofList (if b.negative then '-' :: body else body)

/-- The double nearest to `±digits · 10^scale`. Values far out of range are settled before any
power is computed. -/
def nearest (negative : Bool) (digits : Nat) (scale : Int) : Float :=
  let size : Int := digitCount digits + scale
  let magnitude : Float :=
    if digits == 0 then 0
    else if 400 < size then 1 / 0
    else if size < -400 then 0
    else if 0 ≤ scale then Float.ofScientific (digits * Nat.pow 10 scale.toNat) false 0
    else Float.ofScientific digits true (-scale).toNat
  if negative then -magnitude else magnitude

end Toolgate.Decimal
