import Toolgate.Decimal.Integer
import Toolgate.Pattern.Groups

/-!
# Escapes and classes

A backslash gives the character after it a meaning of its own: a code point, a class, a position,
or a reference to a group. In brackets stands a class of characters, given by its members.

## Main definitions

* `readEscape`: an escape outside a class
* `readClass`: a class in brackets
* `groupReference`: a reference to a group by number
-/

namespace Toolgate

namespace Pattern

/-- A digit below eight. -/
def isOctal (c : Char) : Bool :=
  '0' ≤ c && c ≤ '7'

/-- The number that octal digits write. -/
def octalValue (cs : List Char) : Nat :=
  cs.foldl (fun n c => n * 8 + Decimal.digitValue c) 0

/-- The characters of the class at the head of a text, at most `n` of them. -/
def takeUpTo (isIn : Char → Bool) (n : Nat) (cs : List Char) : List Char × List Char :=
  let found := (cs.take n).takeWhile isIn
  (found, cs.drop found.length)

/-- The code point that exactly `n` hexadecimal digits write. -/
def readHex (n : Nat) (cs : List Char) : Reading Nat :=
  let (digits, rest) := takeUpTo (fun c => (Text.hexValue? c).isSome) n cs
  let value := digits.foldl (fun m c => m * 16 + (Text.hexValue? c).getD 0) 0
  if digits.length < n || 0x110000 ≤ value then malformed else .ok (value, rest)

/-- The code point that a letter stands for after a backslash. -/
def controlCode? (c : Char) : Option Nat :=
  match c with
  | 'a' => some 7
  | 'f' => some 12
  | 'n' => some 10
  | 'r' => some 13
  | 't' => some 9
  | 'v' => some 11
  | '\\' => some 92
  | _ => none

/-- The class that a letter stands for after a backslash. -/
def classTest? (c : Char) : Option CharTest :=
  match c with
  | 'd' => some (.digit true)
  | 'D' => some (.digit false)
  | 's' => some (.blank true)
  | 'S' => some (.blank false)
  | 'w' => some (.word true)
  | 'W' => some (.word false)
  | _ => none

/-- The test for one code point. -/
def single (n : Nat) : CharTest :=
  .between n n

/-- A code point written with `x`, `u` or `U` and hexadecimal digits. -/
def readCode? (c : Char) (rest : List Char) : Option (Reading Nat) :=
  match c with
  | 'x' => some (readHex 2 rest)
  | 'u' => some (readHex 4 rest)
  | 'U' => some (readHex 8 rest)
  | _ => none

/-- An escape inside a class, after the backslash. -/
def readClassEscape : List Char → Reading CharTest
  | [] => malformed
  | c :: rest =>
    if c == 'b' then .ok (single 8, rest)
    else match controlCode? c, classTest? c, readCode? c rest with
    | some n, _, _ => .ok (single n, rest)
    | _, some test, _ => .ok (test, rest)
    | _, _, some code => code.map fun (n, left) => (single n, left)
    | _, _, _ =>
      if isOctal c then
        let (more, left) := takeUpTo isOctal 2 rest
        let n := octalValue (c :: more)
        if 0o377 < n then malformed else .ok (single n, left)
      else if Text.isAsciiAlnum c then malformed
      else .ok (single c.toNat, rest)

/-- One member of a class: an escape or a plain character. -/
def readMember : List Char → Reading CharTest
  | [] => malformed
  | '\\' :: rest => readClassEscape rest
  | c :: rest => .ok (single c.toNat, rest)

/-- The members of a class up to its closing bracket; a bracket at the very front is a member. -/
def readMembers (done : List CharTest) (cs : List Char) : Nat → Reading (List CharTest)
  | 0 => malformed
  | fuel + 1 =>
    match cs, done with
    | [], _ => malformed
    | ']' :: rest, _ :: _ => .ok (done.reverse, rest)
    | _, _ =>
      match readMember cs with
      | .error e => .error e
      | .ok (low, '-' :: ']' :: rest) => .ok ((single '-'.toNat :: low :: done).reverse, rest)
      | .ok (low, '-' :: rest) =>
        match readMember rest with
        | .error e => .error e
        | .ok (high, left) =>
          match low, high with
          | .between a _, .between b _ =>
            if b < a then malformed else readMembers (.between a b :: done) left fuel
          | _, _ => malformed
      | .ok (low, left) => readMembers (low :: done) left fuel

/-- A class after its opening bracket. -/
def readClass (mode : Mode) (cs : List Char) : Reading Pattern :=
  let (negated, body) := match cs with
    | '^' :: rest => (true, rest)
    | _ => (false, cs)
  (readMembers [] body (body.length + 1)).map fun (tests, rest) => (.one mode negated tests, rest)

/-- A reference to a group by number, if the group is complete and may be referred to. -/
def groupReference (mode : Mode) (groups : Groups) (n : Nat) : Except PatternError Pattern :=
  if n < groups.next && groups.isClosed n && groups.visible n then .ok (.again mode n)
  else malformed

/-- A reference or an octal code after a backslash, from its first digit on. Three octal digits
are a code, everything else is a reference of one or two digits. -/
def readNumbered (mode : Mode) (groups : Groups) (c : Char) (rest : List Char) :
    Reading Pattern :=
  match rest with
  | d :: left =>
    if !Text.isAsciiDigit d then
      (groupReference mode groups (Decimal.digitValue c)).map (·, rest)
    else match left with
    | e :: tail =>
      if isOctal c && isOctal d && isOctal e then
        let n := octalValue [c, d, e]
        if 0o377 < n then malformed else .ok (.one mode false [single n], tail)
      else (groupReference mode groups (Decimal.natValue [c, d])).map (·, left)
    | [] => (groupReference mode groups (Decimal.natValue [c, d])).map (·, left)
  | [] => (groupReference mode groups (Decimal.digitValue c)).map (·, rest)

/-- An escape outside a class, after the backslash. -/
def readEscape (mode : Mode) (groups : Groups) : List Char → Reading Pattern
  | [] => malformed
  | c :: rest =>
    match c with
    | 'A' => .ok (.anchor .textStart, rest)
    | 'Z' => .ok (.anchor .textEnd, rest)
    | 'b' => .ok (.anchor (.wordEdge mode.ascii true), rest)
    | 'B' => .ok (.anchor (.wordEdge mode.ascii false), rest)
    | _ =>
      match controlCode? c, classTest? c, readCode? c rest with
      | some n, _, _ => .ok (.one mode false [single n], rest)
      | _, some test, _ => .ok (.one mode false [test], rest)
      | _, _, some code => code.map fun (n, left) => (.one mode false [single n], left)
      | _, _, _ =>
        if c == '0' then
          let (more, left) := takeUpTo isOctal 2 rest
          .ok (.one mode false [single (octalValue (c :: more))], left)
        else if Text.isAsciiDigit c then readNumbered mode groups c rest
        else if Text.isAsciiLetter c then malformed
        else .ok (.one mode false [single c.toNat], rest)

end Pattern

end Toolgate
