import Toolgate.Decimal.Notation
import Toolgate.Json.Basic
import Toolgate.Text.Quoted

/-!
# Writing JSON

JSON texts in three layouts: compact for request bodies, spaced for values inside query strings
and descriptions, and indented for results shown to a caller.

## Main definitions

* `Json.Layout` with `compact`, `spaced`, `spacedUnicode`, `indented`
* `Json.print`: the text of a value
* `Json.holdsNonFinite`: does a number occur that JSON proper cannot write?
-/

namespace Toolgate.Json

/-- How a JSON text is laid out. -/
structure Layout where
  /-- Between two items on one line. -/
  comma : String
  /-- Between a key and its value. -/
  colon : String
  /-- Are items put on lines of their own, two spaces deeper than their container? -/
  indented : Bool
  /-- Are characters beyond ASCII escaped? -/
  ascii : Bool

/-- No space at all; all characters as they are. -/
def compact : Layout := ⟨",", ":", false, false⟩

/-- On one line with spaces; ASCII only. -/
def spaced : Layout := ⟨", ", ": ", false, true⟩

/-- On one line with spaces; all characters as they are. -/
def spacedUnicode : Layout := ⟨", ", ": ", false, false⟩

/-- One item a line, two spaces a level; all characters as they are. -/
def indented : Layout := ⟨",", ": ", true, false⟩

/-- A 16-bit unit escaped with four hexadecimal digits. -/
def escapeUnit (n : Nat) : List Char :=
  '\\' :: 'u' :: Text.hexDigits n 4

/-- A character escaped as one 16-bit unit, or as two beyond the first plane. -/
def escapeUnits (c : Char) : List Char :=
  if c.toNat < 0x10000 then escapeUnit c.toNat
  else
    escapeUnit (0xD800 + (c.toNat - 0x10000) / 0x400)
      ++ escapeUnit (0xDC00 + (c.toNat - 0x10000) % 0x400)

/-- A character inside quotes. -/
def escapeChar (ascii : Bool) (c : Char) : List Char :=
  if c == '"' then ['\\', '"']
  else if c == '\\' then ['\\', '\\']
  else if c == '\n' then ['\\', 'n']
  else if c == '\r' then ['\\', 'r']
  else if c == '\t' then ['\\', 't']
  else if c.toNat == 8 then ['\\', 'b']
  else if c.toNat == 12 then ['\\', 'f']
  else if c.toNat < 0x20 then escapeUnit c.toNat
  else if ascii && 0x7E < c.toNat then escapeUnits c
  else [c]

/-- A text in quotes. -/
def quote (ascii : Bool) (s : String) : List Char :=
  '"' :: s.toList.flatMap (escapeChar ascii) ++ ['"']

/-- The line break before an item at a depth. -/
def lineBreak (depth : Nat) : List Char :=
  '\n' :: List.replicate (2 * depth) ' '

/-- What stands before the first item of a container at a depth. -/
def Layout.opening (layout : Layout) (depth : Nat) : List Char :=
  if layout.indented then lineBreak (depth + 1) else []

/-- What stands between two items of a container at a depth. -/
def Layout.between (layout : Layout) (depth : Nat) : List Char :=
  layout.comma.toList ++ layout.opening depth

/-- What stands after the last item of a container at a depth. -/
def Layout.closing (layout : Layout) (depth : Nat) : List Char :=
  if layout.indented then lineBreak depth else []

mutual

/-- The characters of a value inside `depth` containers. -/
def chars (layout : Layout) (depth : Nat) : Json → List Char
  | .null => ['n', 'u', 'l', 'l']
  | .bool true => ['t', 'r', 'u', 'e']
  | .bool false => ['f', 'a', 'l', 's', 'e']
  | .int n => Decimal.intDigits n
  | .float x => (Decimal.jsonLayout.text x).toList
  | .str s => quote layout.ascii s
  | .date text => quote layout.ascii text
  | .arr [] => ['[', ']']
  | .arr (v :: rest) =>
    '[' :: layout.opening depth ++ chars layout (depth + 1) v ++ itemChars layout depth rest
      ++ layout.closing depth ++ [']']
  | .obj [] => ['\x7b', '\x7d']
  | .obj ((k, v) :: rest) =>
    '\x7b' :: layout.opening depth ++ quote layout.ascii k ++ layout.colon.toList
      ++ chars layout (depth + 1) v ++ fieldChars layout depth rest ++ layout.closing depth
      ++ ['\x7d']

/-- The items after the first of an array inside `depth` containers. -/
def itemChars (layout : Layout) (depth : Nat) : List Json → List Char
  | [] => []
  | v :: rest =>
    layout.between depth ++ chars layout (depth + 1) v ++ itemChars layout depth rest

/-- The fields after the first of an object inside `depth` containers. -/
def fieldChars (layout : Layout) (depth : Nat) : List (String × Json) → List Char
  | [] => []
  | (k, v) :: rest =>
    layout.between depth ++ quote layout.ascii k ++ layout.colon.toList
      ++ chars layout (depth + 1) v ++ fieldChars layout depth rest

end

/-- The JSON text of a value. -/
def print (layout : Layout) (v : Json) : String :=
  String.ofList (chars layout 0 v)

mutual

/-- Does an infinite or undefined number occur in the value? -/
def holdsNonFinite : Json → Bool
  | .float x => !x.isFinite
  | .arr items => holdsNonFiniteItems items
  | .obj fields => holdsNonFiniteFields fields
  | _ => false

/-- Does an infinite or undefined number occur in one of the items? -/
def holdsNonFiniteItems : List Json → Bool
  | [] => false
  | v :: rest => holdsNonFinite v || holdsNonFiniteItems rest

/-- Does an infinite or undefined number occur in one of the fields' values? -/
def holdsNonFiniteFields : List (String × Json) → Bool
  | [] => false
  | (_, v) :: rest => holdsNonFinite v || holdsNonFiniteFields rest

end

end Toolgate.Json
