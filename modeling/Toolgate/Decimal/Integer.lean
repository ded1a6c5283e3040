import Toolgate.Text.Class

/-!
# Integers in decimal

Writing and reading of integers in decimal digits, without leading zeros, as lists of characters.

## Main definitions

* `natDigits`, `natValue`: the digits of a natural number, and the number of a list of digits
* `intText`: an integer with its sign
* `maxDigits`: how long an integer may be that is read from a text
-/

namespace Toolgate.Decimal

/-- The character of a digit below ten. -/
def digitChar (d : Nat) : Char :=
  Char.ofNat ('0'.toNat + d)

/-- The value of a digit character of ASCII. -/
def digitValue (c : Char) : Nat :=
  c.toNat - '0'.toNat

/-- The decimal digits of `n`, most significant first, in front of `rest`. -/
def natDigitsOnto (n : Nat) (rest : List Char) : List Char :=
  if n < 10 then digitChar n :: rest
  else natDigitsOnto (n / 10) (digitChar (n % 10) :: rest)
termination_by n

/-- The decimal digits of `n`, most significant first. -/
def natDigits (n : Nat) : List Char :=
  natDigitsOnto n []

/-- The number that a list of decimal digits writes. -/
def natValue (cs : List Char) : Nat :=
  cs.foldl (fun n c => n * 10 + digitValue c) 0

/-- An integer in decimal: a minus sign if it is negative, then its digits. -/
def intDigits (n : Int) : List Char :=
  if n < 0 then '-' :: natDigits n.natAbs else natDigits n.natAbs

/-- `intDigits` as a text. -/
def intText (n : Int) : String :=
  String.ofList (intDigits n)

/-- `natDigits` as a text. -/
def natText (n : Nat) : String :=
  String.ofList (natDigits n)

/-- The most decimal digits an integer may have that is read from a text. -/
def maxDigits : Nat := 4300

/-- What is said of an integer that has too many digits. -/
def tooManyDigits (digits : Nat) : String :=
  "Exceeds the limit (" ++ natText maxDigits
    ++ " digits) for integer string conversion: value has " ++ natText digits
    ++ " digits; use sys.set_int_max_str_digits() to increase the limit"

end Toolgate.Decimal
