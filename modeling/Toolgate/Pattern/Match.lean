import Toolgate.Pattern.Basic

/-!
# Matching

A pattern is matched by trying its alternatives in order and going back to the latest choice on
failure. What comes after a pattern is passed to it as a continuation, so that a choice made
inside it can be reconsidered.

## Main definitions

* `Spot`: a position in a text, with what the groups have matched
* `Pattern.run`: the first way to match a pattern so that the continuation succeeds
* `Pattern.occursIn`: does a pattern match somewhere in a text?
-/

namespace Toolgate.Pattern

/-- A position in a text: the characters before it in reverse, those after it, and for each group
what it matched last. -/
structure Spot where
  before : List Char
  after : List Char
  groups : List (Nat × List Char)

namespace Spot

/-- The position one character further. -/
def advance? (spot : Spot) : Option (Char × Spot) :=
  match spot.after with
  | [] => none
  | c :: rest => some (c, { spot with before := c :: spot.before, after := rest })

/-- The position after a given text, when that is what comes next up to case. -/
def advanceOver (same : Char → Char → Bool) (spot : Spot) : List Char → Option Spot
  | [] => some spot
  | c :: rest =>
    match spot.advance? with
    | none => none
    | some (d, next) => if same c d then next.advanceOver same rest else none

/-- The position `n` characters back. -/
def retreat (spot : Spot) : Nat → Option Spot
  | 0 => some spot
  | n + 1 =>
    match spot.before with
    | [] => none
    | c :: rest => { spot with before := rest, after := c :: spot.after }.retreat n

/-- The position with a group set to the text between `start` and it. -/
def capture (start : Spot) (number : Nat) (spot : Spot) : Spot :=
  let matched := start.after.take (start.after.length - spot.after.length)
  { spot with groups := (number, matched) :: spot.groups.filter (·.1 != number) }

/-- Does the condition hold at the position? No word edge is found in an empty text. -/
def satisfies (spot : Spot) : Anchor → Bool
  | .textStart => spot.before.isEmpty
  | .lineStart => spot.before.isEmpty || spot.before.head? == some '\n'
  | .textEnd => spot.after.isEmpty
  | .lastLineEnd => spot.after.isEmpty || spot.after == ['\n']
  | .lineEnd => spot.after.isEmpty || spot.after.head? == some '\n'
  | .wordEdge ascii inside =>
    !(spot.before.isEmpty && spot.after.isEmpty) &&
      (spot.before.head?.any (isWordChar ascii) != spot.after.head?.any (isWordChar ascii))
        == inside

end Spot

/-- What comes after a pattern. -/
abbrev Rest := Spot → Option Spot

/-- Further rounds of a repeat, at most `most` of them. A round is not begun where the one before
it began, which `last` holds as the number of characters left; `fuel` exceeds that number. -/
def moreRounds (isLazy : Bool) (round : Spot → Rest → Option Spot) (most : Option Nat)
    (last : Option Nat) (spot : Spot) (rest : Rest) : Nat → Option Spot
  | 0 => rest spot
  | fuel + 1 =>
    let again : Unit → Option Spot := fun _ =>
      if most == some 0 || last == some spot.after.length then none
      else round spot fun next =>
        moreRounds isLazy round (most.map (· - 1)) (some spot.after.length) next rest fuel
    if isLazy then (rest spot).orElse again else (again ()).orElse fun _ => rest spot

/-- The rounds of a repeat: `least` of them, then further ones. -/
def rounds (isLazy : Bool) (round : Spot → Rest → Option Spot) (most : Option Nat)
    (spot : Spot) (rest : Rest) : Nat → Option Spot
  | 0 => moreRounds isLazy round most none spot rest (spot.after.length + 2)
  | least + 1 =>
    round spot fun next => rounds isLazy round most next rest least

/-- The first way to match the pattern at a position so that the rest succeeds. -/
def run : Pattern → Spot → Rest → Option Spot
  | empty, spot, rest => rest spot
  | never, _, _ => none
  | one mode negated tests, spot, rest =>
    match spot.advance? with
    | none => none
    | some (c, next) => if tests.any (·.passes mode c) != negated then rest next else none
  | anchor condition, spot, rest => if spot.satisfies condition then rest spot else none
  | seq p q, spot, rest => p.run spot fun next => q.run next rest
  | alt p q, spot, rest => (p.run spot rest).orElse fun _ => q.run spot rest
  | times .greedy least most p, spot, rest =>
    rounds false p.run (most.map (· - least)) spot rest least
  | times .lazy least most p, spot, rest =>
    rounds true p.run (most.map (· - least)) spot rest least
  | times .possessive least most p, spot, rest =>
    (rounds false (fun spot rest => (p.run spot some).bind rest) (most.map (· - least)) spot some
      least).bind rest
  | group none p, spot, rest => p.run spot rest
  | group (some n) p, spot, rest => p.run spot fun next => rest (spot.capture n next)
  | atomic p, spot, rest => (p.run spot some).bind rest
  | lookahead wanted p, spot, rest =>
    match p.run spot some with
    | some found => if wanted then rest { spot with groups := found.groups } else none
    | none => if wanted then none else rest spot
  | lookbehind wanted width p, spot, rest =>
    match (spot.retreat width).bind fun start => p.run start some with
    | some found => if wanted then rest { spot with groups := found.groups } else none
    | none => if wanted then none else rest spot
  | again mode n, spot, rest =>
    match spot.groups.lookup n with
    | none => none
    | some text =>
      let same (c d : Char) : Bool :=
        if mode.ignoreCase then mode.small c == mode.small d else c == d
      (spot.advanceOver same text).bind rest
  | ifGroup n yes no, spot, rest =>
    if (spot.groups.lookup n).isSome then yes.run spot rest else no.run spot rest

/-- Does the pattern match at the position or further on? -/
def occursFrom (p : Pattern) (before : List Char) : List Char → Bool
  | [] => (p.run ⟨before, [], []⟩ some).isSome
  | c :: after =>
    (p.run ⟨before, c :: after, []⟩ some).isSome || p.occursFrom (c :: before) after

/-- Does the pattern match somewhere in the text? -/
def occursIn (p : Pattern) (s : String) : Bool :=
  p.occursFrom [] s.toList

end Toolgate.Pattern
