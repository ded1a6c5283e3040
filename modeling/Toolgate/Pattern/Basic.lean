import Toolgate.Text.Case

/-!
# Patterns

Regular expressions as they occur in API descriptions: classes, groups, counted repeats that are
greedy, lazy or possessive, lookaround, back-references and conditions on groups.

## Main definitions

* `Pattern`: the expressions
* `Pattern.width`: the least and the greatest length of what a pattern matches
* `Mode`: the switches under which a part of a pattern was read
-/

namespace Toolgate

namespace Pattern

/-- Switches that a pattern can turn on for a part of itself. -/
structure Mode where
  ignoreCase : Bool := false
  /-- `^` and `$` hold at every line. -/
  multiline : Bool := false
  /-- The dot matches line breaks too. -/
  dotAll : Bool := false
  /-- Classes and case are those of ASCII. -/
  ascii : Bool := false
  /-- Blanks and comments in the pattern are skipped. -/
  verbose : Bool := false

/-- A test on one character; the flag tells a class from its complement. -/
inductive CharTest where
  | between (lo hi : Nat)
  | digit (inside : Bool)
  | blank (inside : Bool)
  | word (inside : Bool)

/-- A condition on a position. -/
inductive Anchor where
  | textStart
  | lineStart
  | textEnd
  /-- The end of the text, or before a line break that ends it. -/
  | lastLineEnd
  | lineEnd
  /-- Between a word and what is none; the flag tells it from its complement. -/
  | wordEdge (ascii inside : Bool)

/-- In which order a repeat tries its counts: the greatest first, the least first, or the greatest
only. -/
inductive Greed where
  | greedy
  | lazy
  | possessive
  deriving DecidableEq

end Pattern

/-- A regular expression. -/
inductive Pattern where
  | empty
  | never
  /-- One character that passes one of the tests, or none of them. -/
  | one (mode : Pattern.Mode) (negated : Bool) (tests : List Pattern.CharTest)
  | anchor (condition : Pattern.Anchor)
  | seq (first second : Pattern)
  | alt (first second : Pattern)
  | times (greed : Pattern.Greed) (least : Nat) (most : Option Nat) (body : Pattern)
  | group (number : Option Nat) (body : Pattern)
  /-- The first way to match the body and no other. -/
  | atomic (body : Pattern)
  | lookahead (wanted : Bool) (body : Pattern)
  /-- The body matched on the `width` characters before the position. -/
  | lookbehind (wanted : Bool) (width : Nat) (body : Pattern)
  /-- What the group matched last, once more. -/
  | again (mode : Pattern.Mode) (number : Nat)
  | ifGroup (number : Nat) (yes no : Pattern)

namespace Pattern

/-- Least and greatest length of a match; no greatest length when there is no bound. -/
structure Width where
  least : Nat
  most : Option Nat

namespace Width

/-- The width of a fixed length. -/
def exactly (n : Nat) : Width := ⟨n, some n⟩

/-- The width of two parts in sequence. -/
def add (a b : Width) : Width where
  least := a.least + b.least
  most := match a.most, b.most with
    | some m, some n => some (m + n)
    | _, _ => none

/-- The width of either of two parts. -/
def join (a b : Width) : Width where
  least := min a.least b.least
  most := match a.most, b.most with
    | some m, some n => some (max m n)
    | _, _ => none

/-- The width of a counted repeat. -/
def scale (a : Width) (least : Nat) (most : Option Nat) : Width where
  least := a.least * least
  most := match a.most, most with
    | some 0, _ => some 0
    | some m, some n => some (m * n)
    | _, _ => none

end Width

/-- The width of a pattern, given the widths of the groups it refers to. -/
def width (groups : Nat → Width) : Pattern → Width
  | empty | never | anchor _ | lookahead _ _ | lookbehind _ _ _ => .exactly 0
  | one _ _ _ => .exactly 1
  | seq p q => (p.width groups).add (q.width groups)
  | alt p q => (p.width groups).join (q.width groups)
  | times _ least most p => (p.width groups).scale least most
  | group _ p => p.width groups
  | atomic p => p.width groups
  | again _ n => groups n
  | ifGroup _ p q => (p.width groups).join (q.width groups)

/-- Patterns one after another. -/
def sequence : List Pattern → Pattern
  | [] => empty
  | [p] => p
  | p :: rest => seq p (sequence rest)

/-- The letter that stands for all that are equal to `c` when case is ignored. -/
def Mode.fold (mode : Mode) (c : Char) : Char :=
  if mode.ascii then c.toLower else Text.foldChar c

/-- The small form of a character. -/
def Mode.small (mode : Mode) (c : Char) : Char :=
  if mode.ascii then c.toLower else Text.smallChar c

/-- A word character, of ASCII alone or of any script. -/
def isWordChar (ascii : Bool) (c : Char) : Bool :=
  if ascii then Text.isAsciiAlnum c || c == '_' else Text.isWord c

/-- Is some character of the range equal to `c` when case is ignored? -/
def meetsFolded (mode : Mode) (lo hi : Nat) (c : Char) : Bool :=
  (lo ≤ c.toNat && c.toNat ≤ hi) || (lo ≤ (mode.small c).toNat && (mode.small c).toNat ≤ hi)
    || (List.range (hi + 1 - lo)).any fun i => mode.fold (Char.ofNat (lo + i)) == mode.fold c

/-- Does a character pass a test? When case is ignored, classes are asked about its small form. -/
def CharTest.passes (mode : Mode) (c : Char) : CharTest → Bool
  | between lo hi =>
    if mode.ignoreCase then meetsFolded mode lo hi c else lo ≤ c.toNat && c.toNat ≤ hi
  | digit inside => (if mode.ascii then Text.isAsciiDigit d else Text.isDecimal d) == inside
  | blank inside =>
    (if mode.ascii then d == ' ' || (9 ≤ d.toNat && d.toNat ≤ 13) else Text.isBlank d) == inside
  | word inside => isWordChar mode.ascii d == inside
where
  /-- The character that classes are asked about. -/
  d : Char := if mode.ignoreCase then mode.small c else c

end Pattern

end Toolgate
