import Toolgate.Text.ClassTable

/-!
# Character classes

Which characters count as blank, as part of a word, as a digit, or as printable. The classes are
those of Unicode 14.0; ASCII is decided by comparison and the rest by the tables of ranges.

## Main definitions

* `isBlank`, `isSeparatorBlank`: white space with and without the four information separators
* `isWord`: letters, numbers and the underscore
* `isDecimal`, `decimalValue`: decimal digits of any script
* `hexValue?`: hexadecimal digits
* `isNumeral`: digits in the wider sense, superscripts included
* `isPrintable`: what a quoted text may show as it is
-/

namespace Toolgate.Text

/-- Does `n` lie in one of the ranges, ends included? -/
def inRanges (table : Array (Nat × Nat)) (n : Nat) : Bool :=
  table.any fun range => range.1 ≤ n && n ≤ range.2

/-- The blanks of Unicode other than the information separators. -/
def isSeparatorBlank (c : Char) : Bool :=
  let n := c.toNat
  (9 ≤ n && n ≤ 13) || n == 0x20 || n == 0x85 || n == 0xA0 || n == 0x1680
    || (0x2000 ≤ n && n ≤ 0x200A) || n == 0x2028 || n == 0x2029 || n == 0x202F || n == 0x205F
    || n == 0x3000

/-- A blank: white space, with the information separators from 28 to 31. -/
def isBlank (c : Char) : Bool :=
  (0x1C ≤ c.toNat && c.toNat ≤ 0x1F) || isSeparatorBlank c

/-- A decimal digit of ASCII. -/
def isAsciiDigit (c : Char) : Bool :=
  '0' ≤ c && c ≤ '9'

/-- A small letter of ASCII. -/
def isAsciiLower (c : Char) : Bool :=
  'a' ≤ c && c ≤ 'z'

/-- A capital letter of ASCII. -/
def isAsciiUpper (c : Char) : Bool :=
  'A' ≤ c && c ≤ 'Z'

/-- A letter of ASCII. -/
def isAsciiLetter (c : Char) : Bool :=
  isAsciiLower c || isAsciiUpper c

/-- A letter or digit of ASCII. -/
def isAsciiAlnum (c : Char) : Bool :=
  isAsciiLetter c || isAsciiDigit c

/-- The value of a hexadecimal digit. -/
def hexValue? (c : Char) : Option Nat :=
  if isAsciiDigit c then some (c.toNat - '0'.toNat)
  else if 'a' ≤ c && c ≤ 'f' then some (c.toNat - 'a'.toNat + 10)
  else if 'A' ≤ c && c ≤ 'F' then some (c.toNat - 'A'.toNat + 10)
  else none

/-- A character of a word: a letter or number of any script, or the underscore. -/
def isWord (c : Char) : Bool :=
  isAsciiAlnum c || c == '_' || (0x80 ≤ c.toNat && inRanges wordRanges c.toNat)

/-- A decimal digit of any script. -/
def isDecimal (c : Char) : Bool :=
  isAsciiDigit c || (0x80 ≤ c.toNat && inRanges decimalRanges c.toNat)

/-- The value of a decimal digit; the ranges of the table begin with a zero and hold whole tens. -/
def decimalValue (c : Char) : Option Nat :=
  if isAsciiDigit c then some (c.toNat - '0'.toNat)
  else if c.toNat < 0x80 then none
  else (decimalRanges.find? fun range => range.1 ≤ c.toNat && c.toNat ≤ range.2).map
    fun range => (c.toNat - range.1) % 10

/-- A digit in the wider sense: decimal digits, superscripts, circled digits. -/
def isNumeral (c : Char) : Bool :=
  isAsciiDigit c || (0x80 ≤ c.toNat && inRanges numeralRanges c.toNat)

/-- Can the character be shown as it is? Of the separators only the space can. -/
def isPrintable (c : Char) : Bool :=
  (0x20 ≤ c.toNat && c.toNat < 0x7F) || (0x80 ≤ c.toNat && inRanges printableRanges c.toNat)

end Toolgate.Text
