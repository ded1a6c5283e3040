import Toolgate.Pattern.Basic

/-!
# Groups of a pattern being read

A pattern is read from left to right. What has been read of its groups decides which references
stand for something: a reference leads to a group that is complete, and inside a lookbehind only
to one that was complete before it began.

## Main definitions

* `PatternError`: why a text is no pattern
* `Groups`: what is known of the groups read so far
* `Reading`: the result of a step of the reader, with what is left of the text
-/

namespace Toolgate

/-- Why a text is no pattern. -/
inductive PatternError where
  | malformed
  /-- A repeat counts further than a machine word goes. -/
  | countTooLarge
  /-- The pattern asks for the classes of ASCII and for those of all scripts. -/
  | clashingSwitches
  deriving DecidableEq

/-- The wording of an error. -/
def PatternError.message : PatternError → String
  | .malformed => "malformed pattern"
  | .countTooLarge => "the repetition number is too large"
  | .clashingSwitches => "ASCII and UNICODE flags are incompatible"

namespace Pattern

/-- What the reader knows of the groups read so far. -/
structure Groups where
  /-- The number of the next group. -/
  next : Nat := 1
  names : List (String × Nat) := []
  /-- The groups that are complete, with their widths. -/
  closed : List (Nat × Width) := []
  /-- Inside a lookbehind, the number of the first group that was begun inside it. -/
  lookbehindFrom : Option Nat := none
  /-- Groups that conditions refer to. -/
  promised : List Nat := []
  /-- Were the classes of all scripts asked for by name? -/
  allScripts : Bool := false

namespace Groups

/-- Is the group complete? -/
def isClosed (groups : Groups) (n : Nat) : Bool :=
  n < groups.next && (groups.closed.lookup n).isSome

/-- The width of a group. -/
def widthOf (groups : Groups) (n : Nat) : Width :=
  (groups.closed.lookup n).getD (.exactly 0)

/-- May a lookbehind refer to the group? Only to a complete one that stands before it. -/
def visible (groups : Groups) (n : Nat) : Bool :=
  match groups.lookbehindFrom with
  | none => true
  | some first => groups.isClosed n && n < first

/-- Begin a group, if its name is new. -/
def begin? (groups : Groups) (name : Option String) : Option (Nat × Groups) :=
  let n := groups.next
  match name with
  | none => some (n, { groups with next := n + 1 })
  | some s =>
    if (groups.names.lookup s).isSome then none
    else some (n, { groups with next := n + 1, names := (s, n) :: groups.names })

/-- Complete a group. -/
def close (groups : Groups) (n : Nat) (body : Pattern) : Groups :=
  { groups with closed := (n, body.width groups.widthOf) :: groups.closed }

end Groups

/-- The result of a step of the reader, with what is left of the text. -/
abbrev Reading (α : Type) := Except PatternError (α × List Char)

/-- The text is no pattern. -/
def malformed {α : Type} : Except PatternError α :=
  .error .malformed

end Pattern

end Toolgate
