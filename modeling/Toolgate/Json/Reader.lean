import Toolgate.Decimal.Reading
import Toolgate.Json.Basic

/-!
# Reading JSON

A reader for JSON texts that also takes `NaN`, `Infinity` and `-Infinity`. Integers are exact up
to 4300 digits and longer ones are refused; of fields with one key the last value counts, in the
place of the first. Escaped surrogates that do not pair up are read as U+FFFD.

## Main definitions

* `Json.read?`: the value of a whole text
* `Json.readValue`: a value at the head of a text, and what follows it
-/

namespace Toolgate.Json

/-- White space between the tokens of a JSON text. -/
def isGap (c : Char) : Bool :=
  c == ' ' || c == '\t' || c == '\n' || c == '\r'

/-- The text after white space. -/
def skipGap (cs : List Char) : List Char :=
  cs.dropWhile isGap

/-- The number that four hexadecimal digits write. -/
def unit? (a b c d : Char) : Option Nat := do
  let high := (← Text.hexValue? a) * 16 + (← Text.hexValue? b)
  let low := (← Text.hexValue? c) * 16 + (← Text.hexValue? d)
  some (high * 256 + low)

/-- The code point that a letter stands for after a backslash. -/
def escapeCode? (c : Char) : Option Nat :=
  if c == '"' || c == '\\' || c == '/' then some c.toNat
  else if c == 'b' then some 8
  else if c == 'f' then some 12
  else if c == 'n' then some 10
  else if c == 'r' then some 13
  else if c == 't' then some 9
  else none

/-- The code points up to the closing quote, escapes resolved one by one, and the text after the
quote. Control characters must be escaped. -/
def readCodes : List Char → Option (List Nat × List Char)
  | [] => none
  | c :: rest =>
    if c == '"' then some ([], rest)
    else if c == '\\' then
      match rest with
      | 'u' :: a :: b :: c' :: d :: tail =>
        match unit? a b c' d, readCodes tail with
        | some n, some (codes, left) => some (n :: codes, left)
        | _, _ => none
      | e :: tail =>
        match escapeCode? e, readCodes tail with
        | some n, some (codes, left) => some (n :: codes, left)
        | _, _ => none
      | [] => none
    else if c.toNat < 0x20 then none
    else (readCodes rest).map fun (codes, left) => (c.toNat :: codes, left)

/-- Is the number the first half of a surrogate pair? -/
def isHighUnit (n : Nat) : Bool :=
  0xD800 ≤ n && n < 0xDC00

/-- Is the number the second half of a surrogate pair? -/
def isLowUnit (n : Nat) : Bool :=
  0xDC00 ≤ n && n < 0xE000

/-- The character of a code point; a surrogate on its own has none and is replaced. -/
def codeChar (n : Nat) : Char :=
  if isHighUnit n || isLowUnit n then Char.ofNat 0xFFFD else Char.ofNat n

/-- Characters of code points, where surrogates that pair up make one character. -/
def pairCodes : List Nat → List Char
  | [] => []
  | [n] => [codeChar n]
  | n :: m :: rest =>
    if isHighUnit n && isLowUnit m then
      Char.ofNat (0x10000 + (n - 0xD800) * 0x400 + (m - 0xDC00)) :: pairCodes rest
    else codeChar n :: pairCodes (m :: rest)

/-- A string whose opening quote has been passed. -/
def readString (cs : List Char) : Option (String × List Char) :=
  (readCodes cs).map fun (codes, left) => (String.ofList (pairCodes codes), left)

/-- A number without its sign: digits without leading zeros, then a fraction and an exponent. -/
def readNumber (negative : Bool) (cs : List Char) : Option (Json × List Char) :=
  let (whole, left) := match cs with
    | '0' :: rest => (['0'], rest)
    | _ => Decimal.spanDigits cs
  if whole.isEmpty then none
  else
    let (fraction, afterFraction) := Decimal.readFraction left
    let (exponent, rest) := Decimal.readExponent afterFraction
    if fraction.isEmpty && exponent.isNone then
      if Decimal.maxDigits < whole.length then none
      else
        let n : Int := Decimal.natValue whole
        some (.int (if negative then -n else n), rest)
    else
      some (.float (Decimal.nearest negative (Decimal.natValue (whole ++ fraction))
        (exponent.getD 0 - fraction.length)), rest)

mutual

/-- A value at the head of a text, and what follows it; `fuel` bounds the number of steps. -/
def readValue : Nat → List Char → Option (Json × List Char)
  | 0, _ => none
  | fuel + 1, cs =>
    match cs with
    | '"' :: rest => (readString rest).map fun (s, left) => (.str s, left)
    | '[' :: rest =>
      match skipGap rest with
      | ']' :: left => some (.arr [], left)
      | body => (readItems fuel body).map fun (items, left) => (.arr items, left)
    | '\x7b' :: rest =>
      match skipGap rest with
      | '\x7d' :: left => some (.obj [], left)
      | body => (readFields fuel [] body).map fun (fields, left) => (.obj fields, left)
    | 'n' :: 'u' :: 'l' :: 'l' :: rest => some (.null, rest)
    | 't' :: 'r' :: 'u' :: 'e' :: rest => some (.bool true, rest)
    | 'f' :: 'a' :: 'l' :: 's' :: 'e' :: rest => some (.bool false, rest)
    | 'N' :: 'a' :: 'N' :: rest => some (.float (0 / 0), rest)
    | 'I' :: 'n' :: 'f' :: 'i' :: 'n' :: 'i' :: 't' :: 'y' :: rest => some (.float (1 / 0), rest)
    | '-' :: 'I' :: 'n' :: 'f' :: 'i' :: 'n' :: 'i' :: 't' :: 'y' :: rest =>
      some (.float (-1 / 0), rest)
    | '-' :: rest => readNumber true rest
    | _ => readNumber false cs

/-- The items of an array up to its closing bracket, at least one. -/
def readItems : Nat → List Char → Option (List Json × List Char)
  | 0, _ => none
  | fuel + 1, cs =>
    match readValue fuel cs with
    | none => none
    | some (v, left) =>
      match skipGap left with
      | ']' :: rest => some ([v], rest)
      | ',' :: rest => (readItems fuel (skipGap rest)).map fun (vs, after) => (v :: vs, after)
      | _ => none

/-- The fields of an object up to its closing brace, at least one, after those in `done`. -/
def readFields : Nat → List (String × Json) → List Char → Option (List (String × Json) × List Char)
  | 0, _, _ => none
  | fuel + 1, done, cs =>
    match cs with
    | '"' :: body =>
      match readString body with
      | none => none
      | some (key, left) =>
        match skipGap left with
        | ':' :: rest =>
          match readValue fuel (skipGap rest) with
          | none => none
          | some (v, after) =>
            match skipGap after with
            | '\x7d' :: tail => some (setField key v done, tail)
            | ',' :: tail => readFields fuel (setField key v done) (skipGap tail)
            | _ => none
        | _ => none
    | _ => none

end

/-- The value of a text of characters that holds nothing else but white space. -/
def readChars? (cs : List Char) : Option Json :=
  match readValue (cs.length + 1) (skipGap cs) with
  | some (v, left) => if (skipGap left).isEmpty then some v else none
  | none => none

/-- The value of a JSON text. -/
def read? (s : String) : Option Json :=
  readChars? s.toList

end Toolgate.Json
