import Toolgate.Text.Class

/-!
# Percent-encoding

Bytes of the UTF-8 form of a text written as `%XX`. What is left as it is depends on the place:
in one piece of a path, letters, digits and `-._~` alone; in form fields the same, and a space
becomes a plus sign.

## Main definitions

* `percent`: every character outside a class encoded
* `percentPiece`: a text as one piece of a path
* `formText`: a text as a key or value of a form
-/

namespace Toolgate.Text

/-- A hexadecimal digit below sixteen, in capitals. -/
def capitalHex (d : Nat) : Char :=
  if d < 10 then Char.ofNat ('0'.toNat + d) else Char.ofNat ('A'.toNat + (d - 10))

/-- A byte as `%XX`. -/
def percentByte (n : Nat) : List Char :=
  ['%', capitalHex (n / 16 % 16), capitalHex (n % 16)]

/-- The bytes of a character in UTF-8. -/
def utf8Bytes (c : Char) : List Nat :=
  let n := c.toNat
  if n < 0x80 then [n]
  else if n < 0x800 then [0xC0 + n / 0x40, 0x80 + n % 0x40]
  else if n < 0x10000 then [0xE0 + n / 0x1000, 0x80 + n / 0x40 % 0x40, 0x80 + n % 0x40]
  else [0xF0 + n / 0x40000, 0x80 + n / 0x1000 % 0x40, 0x80 + n / 0x40 % 0x40, 0x80 + n % 0x40]

/-- A character with all its bytes as `%XX`. -/
def percentChar (c : Char) : List Char :=
  (utf8Bytes c).flatMap percentByte

/-- Each character as it is when it is in the class `kept`, else percent-encoded. -/
def percent (kept : Char → Bool) (cs : List Char) : List Char :=
  cs.flatMap fun c => if kept c then [c] else percentChar c

/-- The characters that stand for themselves everywhere in a URL. -/
def isUnreserved (c : Char) : Bool :=
  isAsciiAlnum c || c == '-' || c == '.' || c == '_' || c == '~'

/-- A text as one piece of a path. -/
def percentPiece (s : String) : String :=
  String.ofList (percent isUnreserved s.toList)

/-- A text as a key or value of a form. -/
def formText (s : String) : List Char :=
  s.toList.flatMap fun c =>
    if c == ' ' then ['+'] else if isUnreserved c then [c] else percentChar c

end Toolgate.Text
