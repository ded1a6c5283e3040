import Toolgate.Text.Class

/-!
# Positions in a YAML text

What is left of a text, with the line and column it begins at. Structure in YAML is told by
columns, so every step forward keeps count of them.

## Main definitions

* `isBreak`, `isSpacing`, `atGap`: ends of lines and blanks
* `unifyBreaks`: one character for each end of a line
* `Cursor`: a position, with `advance`, `skip` and `span`
-/

namespace Toolgate.Yaml

/-- A character that may stand in a text: no control character but tab and line ends. -/
def isAllowed (c : Char) : Bool :=
  let n := c.toNat
  n == 0x9 || n == 0xA || n == 0xD || (0x20 ≤ n && n ≤ 0x7E) || n == 0x85
    || (0xA0 ≤ n && n != 0xFFFE && n != 0xFFFF)

/-- The mark that may stand at the head of a text and takes no column. -/
def byteOrderMark : Char := Char.ofNat 0xFEFF

/-- The text with a line feed for each carriage return, pair of both, or next-line character. -/
def unifyBreaks : List Char → List Char
  | [] => []
  | c :: rest =>
    if c == '\r' then
      match rest with
      | '\n' :: left => '\n' :: unifyBreaks left
      | [] => ['\n']
      | d :: left => '\n' :: unifyBreaks (d :: left)
    else if c.toNat == 0x85 then '\n' :: unifyBreaks rest
    else c :: unifyBreaks rest

/-- An end of a line, once they are unified: a line feed, or one of the two separators. -/
def isBreak (c : Char) : Bool :=
  c == '\n' || c.toNat == 0x2028 || c.toNat == 0x2029

/-- A space or a tab. -/
def isSpacing (c : Char) : Bool :=
  c == ' ' || c == '\t'

/-- A space or an end of a line. -/
def isSpaceOrBreak (c : Char) : Bool :=
  c == ' ' || isBreak c

/-- Does the text begin with a blank or an end of a line, or is it at its end? -/
def atGap (cs : List Char) : Bool :=
  cs.head?.all fun c => isSpacing c || isBreak c

/-- Does the text begin with a space or an end of a line, or is it at its end? -/
def atSpaceOrEnd (cs : List Char) : Bool :=
  cs.head?.all isSpaceOrBreak

/-- Does the text begin with three equal characters, dashes or dots, that stand alone? At the
start of a line they part documents. -/
def atDocumentMark : List Char → Bool
  | a :: b :: c :: rest => (a == '-' || a == '.') && a == b && b == c && atGap rest
  | _ => false

/-- A character of a name of an anchor, a directive or a tag handle. -/
def isNameChar (c : Char) : Bool :=
  Text.isAsciiAlnum c || c == '-' || c == '_'

/-- A position in a text. -/
structure Cursor where
  /-- What is left of the text. -/
  rest : List Char
  /-- The number of characters before. -/
  index : Nat
  line : Nat
  column : Nat

namespace Cursor

/-- The start of a text. -/
def start (cs : List Char) : Cursor :=
  ⟨cs, 0, 0, 0⟩

/-- One character further. -/
def advance (c : Cursor) : Cursor :=
  match c.rest with
  | [] => c
  | char :: rest =>
    if isBreak char then ⟨rest, c.index + 1, c.line + 1, 0⟩
    else ⟨rest, c.index + 1, c.line, if char == byteOrderMark then c.column else c.column + 1⟩

/-- A number of characters further. -/
def skip (c : Cursor) : Nat → Cursor
  | 0 => c
  | n + 1 => c.advance.skip n

/-- Up to where `rest` is what is left of the text. -/
def skipTo (c : Cursor) (rest : List Char) : Cursor :=
  c.skip (c.rest.length - rest.length)

/-- The characters of a class at the head of what is left, and the position after them. -/
def span (c : Cursor) (test : Char → Bool) : List Char × Cursor :=
  let taken := c.rest.takeWhile test
  (taken, c.skip taken.length)

/-- After the characters of a class. -/
def skipWhile (c : Cursor) (test : Char → Bool) : Cursor :=
  (c.span test).2

/-- After spaces and a comment, at the end of the line. -/
def skipComment (c : Cursor) : Cursor :=
  let c := c.skipWhile (· == ' ')
  if c.rest.head? == some '#' then c.skipWhile (!isBreak ·) else c

/-- After spaces, a comment and the end of the line; none when something else is there. -/
def afterLine? (c : Cursor) : Option Cursor :=
  let c := c.skipComment
  match c.rest with
  | [] => some c
  | char :: _ => if isBreak char then some c.advance else none

end Cursor

end Toolgate.Yaml
