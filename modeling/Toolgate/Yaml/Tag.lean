import Toolgate.Text.Encoding
import Toolgate.Yaml.Cursor
import Toolgate.Yaml.Token

/-!
# Tags, anchors and directives

Readers for the names that stand beside nodes, and for the directives ahead of a document.

## Main definitions

* `readAnchor`: the name of an anchor or an alias
* `readTag`: a tag
* `readDirective`: a directive, up to the end of its line
-/

namespace Toolgate.Yaml

/-- A name at the head of a text, which may not be empty, and what follows. -/
def readName? (cs : List Char) : Option (String × List Char) :=
  let name := cs.takeWhile isNameChar
  if name.isEmpty then none else some (String.ofList name, cs.dropWhile isNameChar)

/-- May the text follow the name of an anchor? -/
def endsAnchor (cs : List Char) : Bool :=
  atGap cs || cs.head?.any "?:,]\x7d%@\x60".toList.contains

/-- The name of an anchor or an alias, whose mark has been passed, and what follows. -/
def readAnchor (cs : List Char) : Except Fault (String × List Char) :=
  match readName? cs with
  | some (name, rest) => if endsAnchor rest then .ok (name, rest) else .error .malformed
  | none => .error .malformed

/-! ## Tags -/

/-- A character that stands for itself in a tag. -/
def isTagChar (c : Char) : Bool :=
  Text.isAsciiAlnum c || "-;/?:@&=+$,_.!~*'()[]".toList.contains c

/-- What is read of a tag: characters, and bytes that a percent sign stands ahead of. -/
inductive TagPiece where
  | char (c : Char)
  | byte (n : Nat)

/-- The pieces at the head of a text, and what follows. -/
def tagPieces : List Char → Except Fault (List TagPiece × List Char)
  | '%' :: a :: b :: rest =>
    match Text.hexValue? a, Text.hexValue? b with
    | some m, some n => (tagPieces rest).map fun (ps, left) => (.byte (m * 16 + n) :: ps, left)
    | _, _ => .error .malformed
  | '%' :: _ => .error .malformed
  | c :: rest =>
    if isTagChar c then (tagPieces rest).map fun (ps, left) => (.char c :: ps, left)
    else .ok ([], c :: rest)
  | [] => .ok ([], [])

/-- The text of pieces, where bytes next to one another are read as UTF-8. -/
def tagText? (bytes : List Nat) : List TagPiece → Option (List Char)
  | [] => Text.strict? (Text.utf8 bytes.reverse)
  | .byte n :: ps => tagText? (n :: bytes) ps
  | .char c :: ps => do
    let before ← Text.strict? (Text.utf8 bytes.reverse)
    let after ← tagText? [] ps
    some (before ++ c :: after)

/-- A tag without its handle at the head of a text, which may not be empty, and what follows. -/
def readTagUri (cs : List Char) : Except Fault (String × List Char) := do
  let (ps, left) ← tagPieces cs
  match ps, tagText? [] ps with
  | _ :: _, some text => .ok (String.ofList text, left)
  | _, _ => .error .malformed

/-- A handle at the head of a text: one exclamation mark, or a name between two. -/
def readHandle (cs : List Char) : Except Fault (String × List Char) :=
  match cs with
  | '!' :: ' ' :: rest => .ok ("!", ' ' :: rest)
  | '!' :: rest =>
    match rest.dropWhile isNameChar with
    | '!' :: left => .ok (String.ofList ('!' :: rest.takeWhile isNameChar ++ ['!']), left)
    | _ => .error .malformed
  | _ => .error .malformed

/-- Is there an exclamation mark ahead of the first space or line end? -/
def hasSecondMark (cs : List Char) : Bool :=
  (cs.takeWhile (!isSpaceOrBreak ·)).contains '!'

/-- A tag whose exclamation mark has been passed, without a look at what follows it. -/
def readTagName (cs : List Char) : Except Fault (TagName × List Char) :=
  match cs with
  | '<' :: rest => do
    match ← readTagUri rest with
    | (uri, '>' :: left) => .ok (⟨none, uri⟩, left)
    | _ => .error .malformed
  | _ =>
    if atGap cs then .ok (⟨none, "!"⟩, cs)
    else do
      let (handle, rest) ← if hasSecondMark cs then readHandle ('!' :: cs) else .ok ("!", cs)
      let (suffix, left) ← readTagUri rest
      .ok (⟨some handle, suffix⟩, left)

/-- A tag whose exclamation mark has been passed, and what follows. -/
def readTag (cs : List Char) : Except Fault (TagName × List Char) := do
  let (name, left) ← readTagName cs
  if atSpaceOrEnd left then .ok (name, left) else .error .malformed

/-! ## Directives -/

/-- A number at the head of a text. -/
def readNumber (cs : List Char) : Except Fault (Nat × List Char) :=
  let digits := cs.takeWhile Text.isAsciiDigit
  if digits.isEmpty then .error .malformed
  else .ok (Decimal.natValue digits, cs.drop digits.length)

/-- The text after spaces. -/
def afterSpaces (cs : List Char) : List Char :=
  cs.dropWhile (· == ' ')

/-- The version that a directive gives. -/
def readVersion (cs : List Char) : Except Fault (Token × List Char) := do
  match ← readNumber (afterSpaces cs) with
  | (major, '.' :: rest) =>
    let (_, left) ← readNumber rest
    if atSpaceOrEnd left then .ok (.version major, left) else .error .malformed
  | _ => .error .malformed

/-- The handle that a directive declares. -/
def readTagHandle (cs : List Char) : Except Fault (Token × List Char) := do
  let (handle, rest) ← readHandle (afterSpaces cs)
  if rest.head? != some ' ' then .error .malformed
  else
    let (meaning, left) ← readTagUri (afterSpaces rest)
    if atSpaceOrEnd left then .ok (.tagHandle handle meaning, left) else .error .malformed

/-- A directive whose percent sign has been passed, up to the comment or line end after it. -/
def readDirectiveBody (cs : List Char) : Except Fault (Token × List Char) :=
  match readName? cs with
  | none => .error .malformed
  | some (name, rest) =>
    if !atSpaceOrEnd rest then .error .malformed
    else if name == "YAML" then readVersion rest
    else if name == "TAG" then readTagHandle rest
    else .ok (.otherDirective, rest.dropWhile (!isBreak ·))

/-- A directive whose percent sign has been passed, and the position after its line. -/
def readDirective (c : Cursor) : Except Fault (Token × Cursor) := do
  let (token, left) ← readDirectiveBody c.rest
  match (c.skipTo left).afterLine? with
  | some next => .ok (token, next)
  | none => .error .malformed

end Toolgate.Yaml
