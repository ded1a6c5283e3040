import Toolgate.Text.Edit
import Toolgate.Text.Percent

/-!
# Character encodings

Reading texts from bytes. A decoder gives one entry for each character, and an empty entry for
each piece of input that is none; a strict reader refuses such input, and a forgiving one puts
U+FFFD for each piece.

## Main definitions

* `utf8`, `utf16`, `utf32`, `latin1`, `asciiOnly`: decoders
* `markedUtf16?`, `markedUtf32?`: decoders that go by a byte order mark
* `strict?`, `forgiving`: the text of what a decoder gives
* `encodeUtf8`: the bytes of a text
-/

namespace Toolgate.Text

/-- Bytes, as numbers below 256. -/
abbrev Bytes := List Nat

/-- A byte that continues a character in UTF-8. -/
def isContinuation (b : Nat) : Bool :=
  0x80 ≤ b && b < 0xC0

/-- May `b` follow the first byte `a` of a character of three or four bytes? Overlong forms,
surrogates and numbers beyond the last character are ruled out here. -/
def mayFollow (a b : Nat) : Bool :=
  if a == 0xE0 then 0xA0 ≤ b && b < 0xC0
  else if a == 0xED then 0x80 ≤ b && b < 0xA0
  else if a == 0xF0 then 0x90 ≤ b && b < 0xC0
  else if a == 0xF4 then 0x80 ≤ b && b < 0x90
  else isContinuation b

/-- The characters of UTF-8. The longest beginning of a character that is not completed is one
piece, as is each byte that can begin none. -/
def utf8 : Bytes → List (Option Char)
  | [] => []
  | a :: rest =>
    if a < 0x80 then some (Char.ofNat a) :: utf8 rest
    else if 0xC2 ≤ a && a < 0xE0 then
      match rest with
      | b :: left =>
        if isContinuation b then
          some (Char.ofNat ((a - 0xC0) * 0x40 + (b - 0x80))) :: utf8 left
        else none :: utf8 (b :: left)
      | [] => [none]
    else if 0xE0 ≤ a && a < 0xF0 then
      match rest with
      | b :: left =>
        if mayFollow a b then
          match left with
          | c :: tail =>
            if isContinuation c then
              some (Char.ofNat (((a - 0xE0) * 0x40 + (b - 0x80)) * 0x40 + (c - 0x80)))
                :: utf8 tail
            else none :: utf8 (c :: tail)
          | [] => [none]
        else none :: utf8 (b :: left)
      | [] => [none]
    else if 0xF0 ≤ a && a < 0xF5 then
      match rest with
      | b :: left =>
        if mayFollow a b then
          match left with
          | c :: tail =>
            if isContinuation c then
              match tail with
              | d :: last =>
                if isContinuation d then
                  some (Char.ofNat ((((a - 0xF0) * 0x40 + (b - 0x80)) * 0x40 + (c - 0x80)) * 0x40
                    + (d - 0x80))) :: utf8 last
                else none :: utf8 (d :: last)
              | [] => [none]
            else none :: utf8 (c :: tail)
          | [] => [none]
        else none :: utf8 (b :: left)
      | [] => [none]
    else none :: utf8 rest

/-- The 16-bit units of a list of bytes; a byte left over is an empty entry. -/
def units16 (littleEndian : Bool) : Bytes → List (Option Nat)
  | [] => []
  | [_] => [none]
  | a :: b :: rest =>
    some (if littleEndian then b * 0x100 + a else a * 0x100 + b) :: units16 littleEndian rest

/-- The characters of 16-bit units; a surrogate that pairs up with none is one piece. -/
def pairUnits : List (Option Nat) → List (Option Char)
  | [] => []
  | none :: rest => none :: pairUnits rest
  | some n :: rest =>
    if n < 0xD800 || 0xE000 ≤ n then some (Char.ofNat n) :: pairUnits rest
    else if n < 0xDC00 then
      match rest with
      | some m :: left =>
        if 0xDC00 ≤ m && m < 0xE000 then
          some (Char.ofNat (0x10000 + (n - 0xD800) * 0x400 + (m - 0xDC00))) :: pairUnits left
        else none :: pairUnits (some m :: left)
      | others => none :: pairUnits others
    else none :: pairUnits rest

/-- The characters of UTF-16. -/
def utf16 (littleEndian : Bool) (bytes : Bytes) : List (Option Char) :=
  pairUnits (units16 littleEndian bytes)

/-- The characters of UTF-32. -/
def utf32 (littleEndian : Bool) : Bytes → List (Option Char)
  | [] => []
  | a :: b :: c :: d :: rest =>
    let n := if littleEndian then ((d * 0x100 + c) * 0x100 + b) * 0x100 + a
      else ((a * 0x100 + b) * 0x100 + c) * 0x100 + d
    (if n < 0x110000 && !(0xD800 ≤ n && n < 0xE000) then some (Char.ofNat n) else none)
      :: utf32 littleEndian rest
  | _ => [none]

/-- The characters of UTF-16 behind a byte order mark. Two bytes that are no mark cannot be read; a
single byte is one piece. -/
def markedUtf16? : Bytes → Option (List (Option Char))
  | 0xFF :: 0xFE :: rest => some (utf16 true rest)
  | 0xFE :: 0xFF :: rest => some (utf16 false rest)
  | _ :: _ :: _ => none
  | short => some (utf16 true short)

/-- The characters of UTF-32 behind a byte order mark. Four bytes that are no mark cannot be read;
fewer bytes are one piece. -/
def markedUtf32? : Bytes → Option (List (Option Char))
  | 0xFF :: 0xFE :: 0 :: 0 :: rest => some (utf32 true rest)
  | 0 :: 0 :: 0xFE :: 0xFF :: rest => some (utf32 false rest)
  | _ :: _ :: _ :: _ :: _ => none
  | short => some (utf32 true short)

/-- The characters of ISO 8859-1: each byte is its number. -/
def latin1 (bytes : Bytes) : List (Option Char) :=
  bytes.map fun b => some (Char.ofNat b)

/-- The characters of ASCII. -/
def asciiOnly (bytes : Bytes) : List (Option Char) :=
  bytes.map fun b => if b < 0x80 then some (Char.ofNat b) else none

/-- The text, when every piece is a character. -/
def strict? (entries : List (Option Char)) : Option (List Char) :=
  entries.mapM id

/-- The text with U+FFFD for every piece that is no character. -/
def forgiving (entries : List (Option Char)) : List Char :=
  entries.map fun entry => entry.getD (Char.ofNat 0xFFFD)

/-- The bytes of a text in UTF-8. -/
def encodeUtf8 (s : String) : Bytes :=
  s.toList.flatMap utf8Bytes

/-- The digits of base 64. -/
def base64Digits : List Char :=
  "ABCDEFGHIJKLMNOPQRSTUVWXYZabcdefghijklmnopqrstuvwxyz0123456789+/".toList

/-- The digit of base 64 with a value below 64. -/
def base64Digit (n : Nat) : Char :=
  base64Digits.getD (n % 64) 'A'

/-- Bytes in base 64, with `=` to fill the last group. -/
def base64 : Bytes → List Char
  | [] => []
  | [a] => [base64Digit (a / 4), base64Digit (a * 16), '=', '=']
  | [a, b] => [base64Digit (a / 4), base64Digit (a * 16 + b / 16), base64Digit (b * 4), '=']
  | a :: b :: c :: rest =>
    base64Digit (a / 4) :: base64Digit (a * 16 + b / 16) :: base64Digit (b * 4 + c / 64)
      :: base64Digit c :: base64 rest

end Toolgate.Text
