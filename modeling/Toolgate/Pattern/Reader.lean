import Toolgate.Decimal.Reading
import Toolgate.Pattern.Escape
import Toolgate.Pattern.Switches

/-!
# Reading patterns

The reader of regular expressions. A pattern that cannot be read is reported as such, apart from
two faults that callers tell from the rest: a count that is too large, and switches that exclude
each other.

## Main definitions

* `readCounts`, `readOpening`: the counts of a repeat, the kind of a group
* `readAlternatives`, `readItems`, `readGroup`: the parts of a pattern
* `Pattern.read`: the pattern that a text writes
-/

namespace Toolgate

namespace Pattern

/-- Counts of a repeat are below this. -/
def countLimit : Nat := 4294967295

/-- The counts of a repeat after its opening brace: least, greatest, and what follows the closing
brace; none when the brace is no repeat and stands for itself. -/
def readCounts (cs : List Char) : Except PatternError (Option (Nat × Option Nat × List Char)) :=
  let (low, afterLow) := Decimal.spanDigits cs
  let (high, afterHigh) := match afterLow with
    | ',' :: rest => Decimal.spanDigits rest
    | _ => (low, afterLow)
  match cs, afterHigh with
  | '\x7d' :: _, _ => .ok none
  | _, '\x7d' :: rest =>
    let least := Decimal.natValue low
    let most := if high.isEmpty then none else some (Decimal.natValue high)
    if countLimit ≤ least || most.any (countLimit ≤ ·) then .error .countTooLarge
    else if most.any (· < least) then malformed
    else .ok (some (least, most, rest))
  | _, _ => .ok none

/-- The text up to a closing character, not empty, and what follows it. -/
def readName (closing : Char) (cs : List Char) : Reading String :=
  let name := cs.takeWhile (· != closing)
  match cs.drop name.length with
  | _ :: rest => if name.isEmpty then malformed else .ok (String.ofList name, rest)
  | [] => malformed

/-- May the text name a group? -/
def isGroupName (s : String) : Bool :=
  match s.toList with
  | [] => false
  | c :: rest => Text.isWord c && !Text.isNumeral c && rest.all Text.isWord

/-- What follows a comment group, whose opening has been passed. -/
def skipComment : List Char → Option (List Char)
  | [] => none
  | '\\' :: _ :: rest => skipComment rest
  | c :: rest => if c == ')' then some rest else skipComment rest

/-- What follows a comment that goes to the end of its line. -/
def skipLine : List Char → List Char
  | [] => []
  | '\\' :: _ :: rest => skipLine rest
  | c :: rest => if c == '\n' then rest else skipLine rest

/-- May the pattern be repeated? Conditions on a position may not, nor may repeats. -/
def isRepeatable : Pattern → Bool
  | anchor _ => false
  | times _ _ _ _ => false
  | _ => true

/-- A repeat of the latest item, with the sign for its greed read. -/
def repeatLatest (least : Nat) (most : Option Nat) (done : List Pattern) (rest : List Char) :
    Reading (List Pattern) :=
  match done with
  | [] => malformed
  | item :: before =>
    if !item.isRepeatable then malformed
    else match rest with
    | '?' :: left => .ok (times .lazy least most item :: before, left)
    | '+' :: left => .ok (times .possessive least most item :: before, left)
    | _ => .ok (times .greedy least most item :: before, rest)

/-- Alternatives or items that have been read: the pattern, the mode for what follows, the
groups. -/
structure Part (α : Type) where
  content : α
  mode : Mode
  groups : Groups

/-- A group after its opening parenthesis, as far as its kind. -/
inductive Opening where
  | capture (name : Option String)
  | plain (on off : Switches)
  | atomic
  | look (ahead wanted : Bool)
  | condition (name : String)
  | comment
  | reference (name : String)
  | switches (on : Switches)

/-- A group name up to a closing character. -/
def readGroupName (closing : Char) (cs : List Char) : Reading String :=
  match readName closing cs with
  | .ok (name, rest) => if isGroupName name then .ok (name, rest) else malformed
  | .error e => .error e

/-- The kind of a group, after its opening parenthesis. -/
def readOpening (cs : List Char) : Reading Opening :=
  match cs with
  | '?' :: 'P' :: '<' :: rest =>
    (readGroupName '>' rest).map fun (name, left) => (.capture (some name), left)
  | '?' :: 'P' :: '=' :: rest =>
    (readGroupName ')' rest).map fun (name, left) => (.reference name, left)
  | '?' :: ':' :: rest => .ok (.plain {} {}, rest)
  | '?' :: '#' :: rest =>
    match skipComment rest with
    | some left => .ok (.comment, left)
    | none => malformed
  | '?' :: '=' :: rest => .ok (.look true true, rest)
  | '?' :: '!' :: rest => .ok (.look true false, rest)
  | '?' :: '<' :: '=' :: rest => .ok (.look false true, rest)
  | '?' :: '<' :: '!' :: rest => .ok (.look false false, rest)
  | '?' :: '(' :: rest => (readName ')' rest).map fun (name, left) => (.condition name, left)
  | '?' :: '>' :: rest => .ok (.atomic, rest)
  | '?' :: rest =>
    (readSwitches rest).map fun (scope, left) =>
      match scope with
      | .everywhere on => (.switches on, left)
      | .inside on off => (.plain on off, left)
  | _ => .ok (.capture none, cs)

/-- The group that a condition names, by name or by number. -/
def conditionGroup (groups : Groups) (name : String) : Except PatternError (Nat × Groups) :=
  if isGroupName name then
    match groups.names.lookup name with
    | some n => if groups.visible n then .ok (n, groups) else malformed
    | none => malformed
  else
    let digits := name.toList
    let n := Decimal.natValue digits
    if digits.all Text.isAsciiDigit && n != 0 && n < 0x40000000 && groups.visible n then
      .ok (n, { groups with promised := n :: groups.promised })
    else malformed

/-- The tests of the dot. -/
def dotTests (mode : Mode) : List CharTest :=
  if mode.dotAll then [] else [single '\n'.toNat]

mutual

/-- Alternatives up to a closing parenthesis or the end. -/
def readAlternatives (fuel : Nat) (mode : Mode) (nested : Bool) (groups : Groups)
    (cs : List Char) : Reading (Part Pattern) :=
  match fuel with
  | 0 => malformed
  | fuel + 1 =>
    match readItems fuel mode (!nested) [] groups cs with
    | .error e => .error e
    | .ok (part, '|' :: rest) =>
      match readAlternatives fuel (if nested then mode else part.mode) true part.groups rest with
      | .error e => .error e
      | .ok (others, left) =>
        .ok (⟨.alt (sequence part.content) others.content, others.mode, others.groups⟩, left)
    | .ok (part, rest) => .ok (⟨sequence part.content, part.mode, part.groups⟩, rest)

/-- Items one after another, up to a bar, a closing parenthesis or the end; those read so far are
held in reverse. Only the `first` items of a whole pattern may set switches for all of it. -/
def readItems (fuel : Nat) (mode : Mode) (first : Bool) (done : List Pattern) (groups : Groups)
    (cs : List Char) : Reading (Part (List Pattern)) :=
  match fuel with
  | 0 => malformed
  | fuel + 1 =>
    let item (p : Pattern) (groups : Groups) (rest : List Char) :=
      readItems fuel mode first (p :: done) groups rest
    let repeated (least : Nat) (most : Option Nat) (rest : List Char) :=
      match repeatLatest least most done rest with
      | .error e => .error e
      | .ok (done, left) => readItems fuel mode first done groups left
    match cs with
    | [] => .ok (⟨done.reverse, mode, groups⟩, [])
    | c :: rest =>
      if c == '|' || c == ')' then .ok (⟨done.reverse, mode, groups⟩, cs)
      else if mode.verbose && (c == ' ' || (9 ≤ c.toNat && c.toNat ≤ 13)) then
        readItems fuel mode first done groups rest
      else if mode.verbose && c == '#' then
        readItems fuel mode first done groups (skipLine rest)
      else match c with
      | '\\' =>
        match readEscape mode groups rest with
        | .error e => .error e
        | .ok (p, left) => item p groups left
      | '[' =>
        match readClass mode rest with
        | .error e => .error e
        | .ok (p, left) => item p groups left
      | '.' => item (.one mode true (dotTests mode)) groups rest
      | '^' => item (.anchor (if mode.multiline then .lineStart else .textStart)) groups rest
      | '$' => item (.anchor (if mode.multiline then .lineEnd else .lastLineEnd)) groups rest
      | '?' => repeated 0 (some 1) rest
      | '*' => repeated 0 none rest
      | '+' => repeated 1 none rest
      | '\x7b' =>
        match readCounts rest with
        | .error e => .error e
        | .ok none => item (.one mode false [single c.toNat]) groups rest
        | .ok (some (least, most, left)) => repeated least most left
      | '(' =>
        match readOpening rest with
        | .error e => .error e
        | .ok (.comment, left) => readItems fuel mode first done groups left
        | .ok (.switches on, left) =>
          if !first || !done.isEmpty then malformed
          else readItems fuel { on.on mode with ascii := mode.ascii || on.ascii } first done
            { groups with allScripts := groups.allScripts || on.allScripts } left
        | .ok (.reference name, left) =>
          match groups.names.lookup name with
          | none => malformed
          | some n =>
            match groupReference mode groups n with
            | .error e => .error e
            | .ok p => item p groups left
        | .ok (opening, left) =>
          match readGroup fuel mode opening groups left with
          | .error e => .error e
          | .ok (part, after) => item part.content part.groups after
      | _ => item (.one mode false [single c.toNat]) groups rest

/-- A group after its opening, up to and with its closing parenthesis. -/
def readGroup (fuel : Nat) (mode : Mode) (opening : Opening) (groups : Groups)
    (cs : List Char) : Reading (Part Pattern) :=
  match fuel with
  | 0 => malformed
  | fuel + 1 =>
    match opening with
    | .capture name =>
      match groups.begin? name with
      | none => malformed
      | some (n, begun) =>
        match readAlternatives fuel mode true begun cs with
        | .ok (part, ')' :: rest) =>
          .ok (⟨.group (some n) part.content, mode, part.groups.close n part.content⟩, rest)
        | .ok _ => malformed
        | .error e => .error e
    | .plain on off =>
      match readAlternatives fuel (off.off (on.on mode)) true groups cs with
      | .ok (part, ')' :: rest) => .ok (⟨.group none part.content, mode, part.groups⟩, rest)
      | .ok _ => malformed
      | .error e => .error e
    | .atomic =>
      match readAlternatives fuel mode true groups cs with
      | .ok (part, ')' :: rest) => .ok (⟨.atomic part.content, mode, part.groups⟩, rest)
      | .ok _ => malformed
      | .error e => .error e
    | .look true wanted =>
      match readAlternatives fuel mode true groups cs with
      | .ok (part, ')' :: rest) => .ok (⟨.lookahead wanted part.content, mode, part.groups⟩, rest)
      | .ok _ => malformed
      | .error e => .error e
    | .look false wanted =>
      let from? := groups.lookbehindFrom.getD groups.next
      match readAlternatives fuel mode true { groups with lookbehindFrom := some from? } cs with
      | .ok (part, ')' :: rest) =>
        let width := part.content.width part.groups.widthOf
        if width.most != some width.least then malformed
        else .ok (⟨.lookbehind wanted width.least part.content, mode,
          { part.groups with lookbehindFrom := groups.lookbehindFrom }⟩, rest)
      | .ok _ => malformed
      | .error e => .error e
    | .condition name =>
      match conditionGroup groups name with
      | .error e => .error e
      | .ok (n, known) =>
        match readItems fuel mode false [] known cs with
        | .ok (yes, ')' :: rest) =>
          .ok (⟨.ifGroup n (sequence yes.content) .empty, mode, yes.groups⟩, rest)
        | .ok (yes, '|' :: more) =>
          match readItems fuel mode false [] yes.groups more with
          | .ok (no, ')' :: rest) =>
            .ok (⟨.ifGroup n (sequence yes.content) (sequence no.content), mode, no.groups⟩, rest)
          | .ok _ => malformed
          | .error e => .error e
        | .ok _ => malformed
        | .error e => .error e
    | _ => malformed

end

/-- The pattern that a text writes. -/
def read (s : String) : Except PatternError Pattern :=
  let cs := s.toList
  match readAlternatives (3 * cs.length + 3) {} false {} cs with
  | .error e => .error e
  | .ok (part, rest) =>
    if !rest.isEmpty || part.groups.promised.any (part.groups.next ≤ ·) then malformed
    else if part.mode.ascii && part.groups.allScripts then .error .clashingSwitches
    else .ok part.content

end Pattern

end Toolgate
