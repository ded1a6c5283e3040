import Toolgate.Yaml.Fault
import Toolgate.Yaml.Cursor

/-!
# Block scalars

Scalars whose text is a block of indented lines. After `|` the ends of lines are kept, and after
`>` lines of text are folded into one. The header may say how far the block is indented, and what
becomes of the line ends after the last line.

## Main definitions

* `Chomping`, `BlockHeader`: what the header says
* `readBlock`: the text of a block scalar, and the position after it
-/

namespace Toolgate.Yaml

/-- What becomes of the line ends after the last line of text. -/
inductive Chomping where
  /-- All are dropped. -/
  | strip
  /-- The first is kept. -/
  | clip
  /-- All are kept. -/
  | keep
  deriving DecidableEq

/-- The header of a block scalar. -/
structure BlockHeader where
  chomping : Chomping
  /-- How much further than its surroundings the block is indented. -/
  indent : Option Nat

/-- The chomping that a sign stands for. -/
def chomping? (c : Char) : Option Chomping :=
  if c == '+' then some .keep else if c == '-' then some .strip else none

/-- An indentation from 1 to 9. -/
def indentDigit? (c : Char) : Option Nat :=
  if c != '0' && Text.isAsciiDigit c then some (c.toNat - '0'.toNat) else none

/-- A header at the head of a text, in either order, and what follows it. -/
def readHeader (cs : List Char) : BlockHeader × List Char :=
  match cs with
  | [] => (⟨.clip, none⟩, [])
  | c :: rest =>
    match chomping? c, indentDigit? c with
    | some chomping, _ =>
      match rest.head?.bind indentDigit? with
      | some n => (⟨chomping, some n⟩, rest.drop 1)
      | none => (⟨chomping, none⟩, rest)
    | none, some n =>
      match rest.head?.bind chomping? with
      | some chomping => (⟨chomping, some n⟩, rest.drop 1)
      | none => (⟨.clip, some n⟩, rest)
    | none, none => (⟨.clip, none⟩, cs)

/-- A line of a text: its characters, and the character that ends it, where it has an end. -/
abbrev Line := List Char × Option Char

/-- The lines of a text. -/
def linesOf : List Char → List Line
  | [] => [([], none)]
  | c :: rest =>
    if isBreak c then ([], some c) :: linesOf rest
    else match linesOf rest with
      | (cs, ending) :: lines => (c :: cs, ending) :: lines
      | [] => [([c], none)]

/-- The characters of lines. -/
def unlines (lines : List Line) : List Char :=
  lines.flatMap fun (cs, ending) => cs ++ ending.toList

/-- The largest number of spaces at the head of a line, up to the first line that holds anything
else. -/
def leadingIndent : List Line → Nat
  | [] => 0
  | (cs, _) :: lines =>
    let spaces := (cs.takeWhile (· == ' ')).length
    if spaces < cs.length then spaces else max spaces (leadingIndent lines)

/-- A line without its first spaces, `indent` of them at most, and how many they were. -/
def dedent (indent : Nat) (cs : List Char) : Nat × List Char :=
  let spaces := min indent (cs.takeWhile (· == ' ')).length
  (spaces, cs.drop spaces)

/-- The last line of text that was read: does it begin flush with the block, and how does it
end? -/
structure OpenLine where
  flush : Bool
  ending : Option Char

/-- What stands between two lines of text that have no empty lines between them, or for the end of
the first of them when there are some. -/
def joint (folded : Bool) (line : OpenLine) (flush : Bool) (blank : List Char) : List Char :=
  if folded && line.ending == some '\n' && line.flush && flush then
    if blank.isEmpty then [' '] else []
  else line.ending.toList

/-- What is kept of the line ends after the last line of text. -/
def tail (chomping : Chomping) (last : Option OpenLine) (blank : List Char) : List Char :=
  let first := (last.bind OpenLine.ending).toList
  match chomping with
  | .strip => []
  | .clip => first
  | .keep => first ++ blank.reverse

/-- The text of a block indented by `indent`, and the lines after it. Held in hand are the last line
of text and the ends of the empty lines since, in reverse. -/
def blockText (folded : Bool) (chomping : Chomping) (indent : Nat) (last : Option OpenLine)
    (blank : List Char) : List Line → List Char × List Line
  | [] => (tail chomping last blank, [])
  | (cs, ending) :: lines =>
    match dedent indent cs, ending with
    | (_, []), some c => blockText folded chomping indent last (c :: blank) lines
    | (_, []), none => (tail chomping last blank, (cs, ending) :: lines)
    | (spaces, c :: body), _ =>
      if spaces == indent then
        let flush := !isSpacing c
        let between := ((last.map fun line => joint folded line flush blank).getD [])
          ++ blank.reverse
        let (more, left) := blockText folded chomping indent (some ⟨flush, ending⟩) [] lines
        (between ++ c :: body ++ more, left)
      else (tail chomping last blank, (cs, ending) :: lines)

/-- The text of a block scalar whose `|` or `>` has been passed, and the position after it, at the
start of a line. The block is indented at least to the column `margin`, and never to column zero. -/
def readBlock (folded : Bool) (margin : Nat) (c : Cursor) : Except Fault (String × Cursor) :=
  let (header, rest) := readHeader c.rest
  if !atSpaceOrEnd rest then .error .malformed
  else match (c.skipTo rest).afterLine? with
  | none => .error .malformed
  | some body =>
    let lines := linesOf body.rest
    let least := max 1 margin
    let indent := match header.indent with
      | some n => least + n - 1
      | none => max least (leadingIndent lines)
    let (text, left) := blockText folded header.chomping indent none [] lines
    .ok (String.ofList text, body.skipTo (unlines left))

end Toolgate.Yaml
