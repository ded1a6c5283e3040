import Toolgate.Yaml.BlockScalar
import Toolgate.Yaml.PlainScalar
import Toolgate.Yaml.QuotedScalar
import Toolgate.Yaml.Tag

/-!
# Tokens of a text

Cutting a YAML text into tokens. Block collections begin where a line is indented further than the
collection around it and end where one is indented less. Whether a node is a key is known only when
its colon is met, so what may turn out to be a key is held in mind, with the number of its first
token, and the token for the key is put in there afterwards. A key of this kind stands on one line
and has at most 1024 characters.

## Main definitions

* `Reading`: what is known at a position
* `Reading.next`: one step, which reads a token
* `tokens`: all tokens of a text; where it cannot be read further the last one says why
-/

namespace Toolgate.Yaml

/-- What may turn out to be a key. -/
structure Candidate where
  /-- The number of its first token. -/
  number : Nat
  /-- Must it be a key, because no other node can stand at its column? -/
  required : Bool
  index : Nat
  line : Nat
  column : Nat

/-- What is known at a position in a text. -/
structure Reading where
  cursor : Cursor
  /-- The tokens so far, in reverse. -/
  done : List Token
  /-- One more than the column of the innermost block collection, and zero outside all. -/
  margin : Nat
  /-- The margins of the collections around it. -/
  margins : List Nat
  /-- May a key begin here? -/
  keyAllowed : Bool
  /-- What may be a key at this depth of brackets. -/
  candidate : Option Candidate
  /-- What may be keys at the depths around. -/
  outer : List (Option Candidate)

namespace Reading

/-- Before a text is read. -/
def start (cs : List Char) : Reading :=
  ⟨Cursor.start cs, [], 0, [], true, none, []⟩

/-- Between brackets? -/
def inBrackets (r : Reading) : Bool :=
  !r.outer.isEmpty

/-- A token more. -/
def emit (r : Reading) (token : Token) : Reading :=
  { r with done := token :: r.done }

/-- After the next characters. -/
def pass (r : Reading) (count : Nat) : Reading :=
  { r with cursor := r.cursor.skip count }

/-- A token in front of the one that has the number `n`. -/
def insertAt (r : Reading) (n : Nat) (token : Token) : Reading :=
  { r with done := r.done.insertIdx (r.done.length - n) token }

/-! ## Indentation -/

/-- Block collections ended for as long as they are indented beyond `limit`, given the margins. -/
def unwindFrom (limit : Nat) (r : Reading) : List Nat → Reading
  | [] => r
  | outer :: rest =>
    if limit < r.margin then
      unwindFrom limit { r with margin := outer, margins := rest, done := .blockEnd :: r.done } rest
    else r

/-- Block collections ended whose margin is beyond `limit`. -/
def unwind (r : Reading) (limit : Nat) : Reading :=
  if r.inBrackets then r else r.unwindFrom limit r.margins

/-- A block collection at a column, if that is indented further than the one around: the reading
inside it. -/
def indent? (r : Reading) (column : Nat) : Option Reading :=
  if r.margin < column + 1 then
    some { r with margin := column + 1, margins := r.margin :: r.margins }
  else none

/-- A block collection begun here with a token, if the column asks for one. -/
def openBlock (r : Reading) (token : Token) : Reading :=
  match r.indent? r.cursor.column with
  | some inner => inner.emit token
  | none => r

/-! ## Keys -/

/-- Can what may be a key still be one? It stands on one line and is not too long. -/
def isFresh (r : Reading) (k : Candidate) : Bool :=
  k.line == r.cursor.line && r.cursor.index - k.index ≤ 1024

/-- What may be a key, as long as it still can be; one that must be a key may not be lost. -/
def keepFresh (r : Reading) : Option Candidate → Except Fault (Option Candidate)
  | none => .ok none
  | some k =>
    if r.isFresh k then .ok (some k)
    else if k.required then .error .malformed
    else .ok none

/-- Forget at every depth what can no longer be a key. -/
def refresh (r : Reading) : Except Fault Reading := do
  let candidate ← r.keepFresh r.candidate
  let outer ← r.outer.mapM r.keepFresh
  .ok { r with candidate, outer }

/-- Forget what may be a key at this depth. -/
def dropCandidate (r : Reading) : Except Fault Reading :=
  if r.candidate.any (·.required) then .error .malformed else .ok { r with candidate := none }

/-- Hold in mind that what begins here may be a key. -/
def markCandidate (r : Reading) : Except Fault Reading :=
  if !r.keyAllowed then .ok r
  else do
    let r ← r.dropCandidate
    let c := r.cursor
    let required := !r.inBrackets && r.margin == c.column + 1
    .ok { r with candidate := some ⟨r.done.length, required, c.index, c.line, c.column⟩ }

/-! ## Tokens -/

/-- To the next token, past blanks, comments and ends of lines; `lines` bounds their number. A line
end outside brackets lets a key begin. -/
def toToken : Nat → Reading → Reading
  | 0, r => r
  | lines + 1, r =>
    let c := r.cursor.skipComment
    if c.rest.head?.any isBreak then
      toToken lines { r with cursor := c.advance, keyAllowed := r.keyAllowed || !r.inBrackets }
    else { r with cursor := c }

/-- A token outside all collections: a directive or a mark between documents. -/
def topLevel (r : Reading) : Except Fault Reading := do
  let r ← (r.unwind 0).dropCandidate
  .ok { r with keyAllowed := false }

/-- An opening bracket, which may begin a key. -/
def openBracket (r : Reading) (token : Token) : Except Fault Reading := do
  let r ← r.markCandidate
  let inner := { r with candidate := none, outer := r.candidate :: r.outer, keyAllowed := true }
  .ok ((inner.pass 1).emit token)

/-- A closing bracket. -/
def closeBracket (r : Reading) (token : Token) : Except Fault Reading := do
  let r ← r.dropCandidate
  match r.outer with
  | [] => .error .malformed
  | candidate :: outer =>
    .ok (({ r with candidate, outer, keyAllowed := false }.pass 1).emit token)

/-- A comma between brackets. -/
def comma (r : Reading) : Except Fault Reading := do
  let r ← r.dropCandidate
  .ok (({ r with keyAllowed := true }.pass 1).emit .comma)

/-- The dash of an item. Between brackets it has no place, which is found out later. -/
def item (r : Reading) : Except Fault Reading := do
  if !r.inBrackets && !r.keyAllowed then .error .malformed
  else
    let r := if r.inBrackets then r else r.openBlock .blockSequence
    let r ← r.dropCandidate
    .ok (({ r with keyAllowed := true }.pass 1).emit .item)

/-- The question mark of a key. -/
def explicitKey (r : Reading) : Except Fault Reading := do
  if !r.inBrackets && !r.keyAllowed then .error .malformed
  else
    let r := if r.inBrackets then r else r.openBlock .blockMapping
    let r ← r.dropCandidate
    .ok (({ r with keyAllowed := !r.inBrackets }.pass 1).emit .key)

/-- The colon after what turns out to be a key. -/
def valueOf (r : Reading) (k : Candidate) : Reading :=
  let r := { r with candidate := none, keyAllowed := false }.insertAt k.number .key
  let r := if r.inBrackets then r else
    match r.indent? k.column with
    | some inner => inner.insertAt k.number .blockMapping
    | none => r
  (r.pass 1).emit .value

/-- The colon of a value. -/
def value (r : Reading) : Except Fault Reading :=
  match r.candidate with
  | some k => .ok (r.valueOf k)
  | none =>
    if !r.inBrackets && !r.keyAllowed then .error .malformed
    else
      let r := if r.inBrackets then r else r.openBlock .blockMapping
      .ok (({ r with keyAllowed := !r.inBrackets }.pass 1).emit .value)

/-- A token that is read from the text after its first character and may begin a key. -/
def named {α : Type} (r : Reading) (read : List Char → Except Fault (α × List Char))
    (token : α → Token) : Except Fault Reading := do
  let r ← r.markCandidate
  let (found, left) ← read (r.cursor.rest.drop 1)
  .ok ({ r with cursor := r.cursor.skipTo left, keyAllowed := false }.emit (token found))

/-- A plain scalar. -/
def plain (r : Reading) : Except Fault Reading := do
  let r ← r.markCandidate
  let (text, left) := readPlain r.inBrackets r.margin r.cursor.rest
  .ok ({ r with cursor := r.cursor.skipTo left, keyAllowed := false }.emit (.scalar text true))

/-- A block scalar. -/
def block (r : Reading) (folded : Bool) : Except Fault Reading := do
  let r ← r.dropCandidate
  let (text, cursor) ← readBlock folded r.margin r.cursor.advance
  .ok ({ r with cursor, keyAllowed := true }.emit (.scalar text false))

/-- The token that begins with the character `c` ahead of `rest`. -/
def nextAt (r : Reading) (c : Char) (rest : List Char) : Except Fault Reading :=
  let atStart := r.cursor.column == 0
  let mark := atStart && atDocumentMark (c :: rest)
  match c with
  | '%' =>
    if atStart then do
      let r ← r.topLevel
      let (token, cursor) ← readDirective r.cursor.advance
      .ok ({ r with cursor }.emit token)
    else .error .malformed
  | '[' => r.openBracket .sequenceOpen
  | '\x7b' => r.openBracket .mappingOpen
  | ']' => r.closeBracket .sequenceClose
  | '\x7d' => r.closeBracket .mappingClose
  | ',' => r.comma
  | '*' => r.named readAnchor .alias
  | '&' => r.named readAnchor .anchor
  | '!' => r.named readTag .tag
  | '\'' => r.named readSingle (.scalar · false)
  | '"' => r.named readDouble (.scalar · false)
  | _ =>
    if c == '-' && mark then do .ok (((← r.topLevel).pass 3).emit .documentStart)
    else if c == '.' && mark then do .ok (((← r.topLevel).pass 3).emit .documentEnd)
    else if c == '-' && atGap rest then r.item
    else if c == '?' && (r.inBrackets || atGap rest) then r.explicitKey
    else if c == ':' && (r.inBrackets || atGap rest) then r.value
    else if c == '|' && !r.inBrackets then r.block false
    else if c == '>' && !r.inBrackets then r.block true
    else if beginsPlain r.inBrackets (c :: rest) then r.plain
    else .error .malformed

/-- The next token, ahead of which `lines` lines may end, and whether it was the last. -/
def next (lines : Nat) (r : Reading) : Except Fault (Reading × Bool) := do
  let r ← (r.toToken lines).refresh
  let r := r.unwind (r.cursor.column + 1)
  match r.cursor.rest with
  | [] => .ok ((← r.topLevel).emit .textEnd, true)
  | c :: rest => .ok (← r.nextAt c rest, false)

/-- All tokens, when fewer than `fuel` characters are left. -/
def all : Nat → Reading → List Token
  | 0, r => r.done.reverse
  | fuel + 1, r =>
    match r.next (fuel + 1) with
    | .error fault => (Token.broken fault :: r.done).reverse
    | .ok (r, true) => r.done.reverse
    | .ok (r, false) => all fuel r

end Reading

/-- The tokens of a text. Each takes a character at least, but for the last. -/
def tokens (text : String) : List Token :=
  if !text.toList.all isAllowed then [.broken .malformed]
  else
    let cs := unifyBreaks text.toList
    let cs := if cs.head? == some byteOrderMark then cs.drop 1 else cs
    Reading.all (cs.length + 1) (.start cs)

end Toolgate.Yaml
