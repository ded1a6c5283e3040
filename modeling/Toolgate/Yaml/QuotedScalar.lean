import Toolgate.Json.Reader
import Toolgate.Yaml.Fault
import Toolgate.Yaml.Folding

/-!
# Quoted scalars

Scalars in single quotes, where only the quote itself is written twice, and in double quotes, with
escapes by a backslash. Both fold their lines. A line that parts documents may not stand inside.

## Main definitions

* `readSingle`, `readDouble`: the text up to the closing quote, and what follows
-/

namespace Toolgate.Yaml

/-- The code point that a letter stands for after a backslash. -/
def escapeCode? (c : Char) : Option Nat :=
  [('0', 0), ('a', 7), ('b', 8), ('t', 9), ('\t', 9), ('n', 10), ('v', 11), ('f', 12), ('r', 13),
    ('e', 0x1B), (' ', 0x20), ('"', 0x22), ('\\', 0x5C), ('/', 0x2F), ('N', 0x85), ('_', 0xA0),
    ('L', 0x2028), ('P', 0x2029)].lookup c

/-- How many hexadecimal digits follow a letter after a backslash. -/
def escapeWidth? (c : Char) : Option Nat :=
  [('x', 2), ('u', 4), ('U', 8)].lookup c

/-- A code point that an escape may name. -/
def checkCode (n : Nat) : Except Fault Nat :=
  if n < 0x110000 then .ok n
  else if n < 0x80000000 then .error .codeTooLarge
  else .error .codeTooWide

/-- Where the reader of a double-quoted scalar is. -/
inductive QuotedPlace where
  | text
  /-- After a backslash. -/
  | escape
  /-- In an escape by number: the digits still to come, and the value of those before. -/
  | code (left value : Nat)

/-- Code points in front of those that a reader goes on to find. -/
def inFront (codes : List Nat) (found : Except Fault (List Nat × List Char)) :
    Except Fault (List Nat × List Char) :=
  found.map fun (more, left) => (codes ++ more, left)

/-- The code points of characters. -/
def codesOf (cs : List Char) : List Nat :=
  cs.map Char.toNat

/-- The code points of a double-quoted scalar up to its closing quote, and what follows. -/
def readDoubleFrom (place : QuotedPlace) (gap : Gap) :
    List Char → Except Fault (List Nat × List Char)
  | [] => .error .malformed
  | c :: rest =>
    match place with
    | .escape =>
      if isBreak c then
        if atDocumentMark rest then .error .malformed
        else readDoubleFrom .text (.joined []) rest
      else match escapeCode? c with
      | some n => inFront [n] (readDoubleFrom .text .none rest)
      | none =>
        match escapeWidth? c with
        | some width => readDoubleFrom (.code width 0) .none rest
        | none => .error .malformed
    | .code left value =>
      match Text.hexValue? c with
      | none => .error .malformed
      | some d =>
        if left ≤ 1 then do
          let n ← checkCode (value * 16 + d)
          inFront [n] (readDoubleFrom .text .none rest)
        else readDoubleFrom (.code (left - 1) (value * 16 + d)) .none rest
    | .text =>
      if c == '"' then .ok (codesOf gap.text, rest)
      else if isSpacing c then readDoubleFrom .text (gap.blank c) rest
      else if isBreak c then
        if atDocumentMark rest then .error .malformed
        else readDoubleFrom .text (gap.lineEnd c) rest
      else if c == '\\' then inFront (codesOf gap.text) (readDoubleFrom .escape .none rest)
      else inFront (codesOf (gap.text ++ [c])) (readDoubleFrom .text .none rest)

/-- The text of a double-quoted scalar whose opening quote has been passed, and what follows.
Escaped surrogates that pair up make one character. -/
def readDouble (cs : List Char) : Except Fault (String × List Char) :=
  (readDoubleFrom .text .none cs).map fun (codes, left) =>
    (String.ofList (Json.pairCodes codes), left)

/-- The characters of a single-quoted scalar up to its closing quote, and what follows; `quote`
says that a quote has just been passed. -/
def readSingleFrom (quote : Bool) (gap : Gap) : List Char → Except Fault (List Char × List Char)
  | [] => if quote then .ok (gap.text, []) else .error .malformed
  | c :: rest =>
    if quote then
      if c == '\'' then
        (readSingleFrom false .none rest).map fun (cs, left) => (gap.text ++ '\'' :: cs, left)
      else .ok (gap.text, c :: rest)
    else if c == '\'' then readSingleFrom true gap rest
    else if isSpacing c then readSingleFrom false (gap.blank c) rest
    else if isBreak c then
      if atDocumentMark rest then .error .malformed
      else readSingleFrom false (gap.lineEnd c) rest
    else (readSingleFrom false .none rest).map fun (cs, left) => (gap.text ++ c :: cs, left)

/-- The text of a single-quoted scalar whose opening quote has been passed, and what follows. -/
def readSingle (cs : List Char) : Except Fault (String × List Char) :=
  (readSingleFrom false .none cs).map fun (cs, left) => (String.ofList cs, left)

end Toolgate.Yaml
