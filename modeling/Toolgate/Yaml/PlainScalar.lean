import Toolgate.Yaml.Folding

/-!
# Plain scalars

Scalars without quotes. A plain scalar ends at a colon with a blank after it, at a comment, at a
tab, at a line that is indented less than its surroundings or that parts documents, and between
brackets also at a comma, a question mark or a bracket.

## Main definitions

* `beginsPlain`: can a plain scalar begin here?
* `readPlain`: the text of a plain scalar, and what follows it
-/

namespace Toolgate.Yaml

/-- The brackets of lists and mappings. -/
def isBracket (c : Char) : Bool :=
  c == '[' || c == ']' || c == '\x7b' || c == '\x7d'

/-- A character that no plain scalar begins with. -/
def isIndicator (c : Char) : Bool :=
  "-?:,[]\x7b\x7d#&*!|>'\"%@\x60".toList.contains c

/-- Can a plain scalar begin here? A dash can begin one when no blank follows it, and so can, but
not between brackets, a question mark or a colon. -/
def beginsPlain (inBrackets : Bool) : List Char → Bool
  | [] => false
  | c :: rest =>
    (!isSpacing c && !isBreak c && !isIndicator c)
      || (!atGap rest && (c == '-' || (!inBrackets && (c == '?' || c == ':'))))

/-- Does a plain scalar end ahead of `c`, which is no space and no line end? -/
def endsPlain (inBrackets : Bool) (c : Char) (rest : List Char) : Bool :=
  c == '\t'
    || (c == ':' && (atGap rest || (inBrackets && rest.head?.any fun d => d == ',' || isBracket d)))
    || (inBrackets && (c == ',' || c == '?' || isBracket c))

/-- A plain scalar read so far, in reverse, what follows its last word, and the blanks since. -/
def readPlainFrom (inBrackets : Bool) (indent : Nat) (done : List Char) (after : List Char)
    (gap : Gap) : List Char → List Char × List Char
  | [] => (done.reverse, after)
  | c :: rest =>
    if c == ' ' then readPlainFrom inBrackets indent done after (gap.blank c) rest
    else if isBreak c then
      if atDocumentMark rest then (done.reverse, after)
      else readPlainFrom inBrackets indent done after (gap.lineEnd c) rest
    else if endsPlain inBrackets c rest || (!gap.isNone && c == '#')
        || (!inBrackets && gap.isOutside indent) then
      (done.reverse, after)
    else readPlainFrom inBrackets indent (c :: (gap.text.reverse ++ done)) rest .none rest

/-- The text of a plain scalar at the head of `cs`, and what follows it. Further lines of it begin
at column `indent` or beyond. -/
def readPlain (inBrackets : Bool) (indent : Nat) (cs : List Char) : String × List Char :=
  let (text, after) := readPlainFrom inBrackets indent [] cs .none cs
  (String.ofList text, after)

end Toolgate.Yaml
