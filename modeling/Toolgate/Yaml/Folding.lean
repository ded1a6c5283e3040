import Toolgate.Yaml.Cursor

/-!
# Folding of lines

Where a scalar runs over several lines, blanks at the ends of lines are dropped, a single line end
becomes a space, and of several the first is dropped. Blanks within a line are kept.

## Main definitions

* `Gap`: blanks met in a scalar that are not yet part of it
* `Gap.text`: what they become when the scalar goes on
-/

namespace Toolgate.Yaml

/-- Blanks met in a scalar that are not yet part of it. -/
inductive Gap where
  /-- Blanks of one line, in reverse. -/
  | blanks (cs : List Char)
  /-- Line ends: the first, those after it in reverse, and the blanks since the last. -/
  | breaks (first : Char) (more : List Char) (column : Nat)
  /-- Line ends after an escaped one, in reverse. -/
  | joined (more : List Char)

namespace Gap

/-- No blanks. -/
def none : Gap := .blanks []

/-- Are there no blanks and no line ends? -/
def isNone : Gap → Bool
  | .blanks cs => cs.isEmpty
  | _ => false

/-- Is a line end among them? -/
def hasBreak : Gap → Bool
  | .blanks _ => false
  | _ => true

/-- One blank more; at the start of a line it is only counted. -/
def blank (gap : Gap) (c : Char) : Gap :=
  match gap with
  | .blanks cs => .blanks (c :: cs)
  | .breaks first more column => .breaks first more (column + 1)
  | .joined more => .joined more

/-- One line end more. -/
def lineEnd (gap : Gap) (c : Char) : Gap :=
  match gap with
  | .blanks _ => .breaks c [] 0
  | .breaks first more _ => .breaks first (c :: more) 0
  | .joined more => .joined (c :: more)

/-- Does what follows stand at a column below `indent` of a further line? -/
def isOutside (gap : Gap) (indent : Nat) : Bool :=
  match gap with
  | .breaks _ _ column => column < indent
  | _ => false

/-- What the blanks become when the scalar goes on after them. -/
def text : Gap → List Char
  | .blanks cs => cs.reverse
  | .breaks first more _ =>
    (if first != '\n' then [first] else if more.isEmpty then [' '] else []) ++ more.reverse
  | .joined more => more.reverse

end Gap

end Toolgate.Yaml
