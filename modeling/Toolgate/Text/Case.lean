import Toolgate.Text.CaseTable
import Toolgate.Text.Class

/-!
# Case of letters

Full case mapping of texts: a letter may become several, and a capital sigma at the end of a word
becomes the final form. The mappings leave every character alone that has no other case.

## Main definitions

* `lower`, `upper`: the text in small letters, in capitals
* `foldChar`: the character compared when case is ignored
* `titled`: each word begun with its title form and continued in small letters
-/

namespace Toolgate.Text

/-- The image of `n` under the first run that holds it. -/
def CaseRun.image? (runs : Array CaseRun) (n : Nat) : Option Nat :=
  (runs.find? fun run => run.first ≤ n && n ≤ run.last && (n - run.first) % run.step == 0).map
    fun run => ((n : Int) + run.shift).toNat

/-- The mapping of one character: through the expansions, else the runs, else itself. -/
def mapCase (runs : Array CaseRun) (expansions : Array (Nat × List Nat)) (c : Char) : List Char :=
  match expansions.find? fun entry => entry.1 == c.toNat with
  | some entry => entry.2.map Char.ofNat
  | none => [((CaseRun.image? runs c.toNat).map Char.ofNat).getD c]

/-- The small form of a character on its own. -/
def lowerChar (c : Char) : List Char :=
  if c.toNat < 0x80 then [c.toLower] else mapCase lowerRuns lowerExpansions c

/-- The capital form of a character. -/
def upperChar (c : Char) : List Char :=
  if c.toNat < 0x80 then [c.toUpper] else mapCase upperRuns upperExpansions c

/-- The form a character takes at the head of a titled word. -/
def titleChar (c : Char) : List Char :=
  if c.toNat < 0x80 then [c.toUpper] else mapCase titleRuns titleExpansions c

/-- Small letters that share a capital, or are taken for one another for some other reason, each
class in order. -/
def caseTwins : List (List Nat) :=
  [[0x69, 0x131], [0x73, 0x17F], [0xB5, 0x3BC], [0x345, 0x3B9, 0x1FBE], [0x390, 0x1FD3],
    [0x3B0, 0x1FE3], [0x3B2, 0x3D0], [0x3B5, 0x3F5], [0x3B8, 0x3D1], [0x3BA, 0x3F0],
    [0x3C0, 0x3D6], [0x3C1, 0x3F1], [0x3C2, 0x3C3], [0x3C6, 0x3D5], [0x432, 0x1C80],
    [0x434, 0x1C81], [0x43E, 0x1C82], [0x441, 0x1C83], [0x442, 0x1C84, 0x1C85], [0x44A, 0x1C86],
    [0x463, 0x1C87], [0x1C88, 0xA64B], [0x1E61, 0x1E9B], [0xFB05, 0xFB06]]

/-- The small form of a character, where that is a single character. -/
def smallChar (c : Char) : Char :=
  (lowerChar c).headD c

/-- One representative of all characters that count as equal to `c` when case is ignored. -/
def foldChar (c : Char) : Char :=
  let small := smallChar c
  match caseTwins.find? (·.contains small.toNat) with
  | some (n :: _) => Char.ofNat n
  | _ => small

/-- Does the character have a case? -/
def isCased (c : Char) : Bool :=
  isAsciiLetter c || (0x80 ≤ c.toNat && inRanges casedRanges c.toNat)

/-- Is the character passed over when the neighbours of a sigma are looked at? -/
def isCaseIgnorable (c : Char) : Bool :=
  c == '\'' || c == '.' || c == ':' || c == '^' || c.toNat == 0x60
    || (0x80 ≤ c.toNat && inRanges caseIgnorableRanges c.toNat)

/-- Does a cased character come first, once ignorable ones are passed over? -/
def meetsCased (chars : List Char) : Bool :=
  match chars.dropWhile isCaseIgnorable with
  | [] => false
  | c :: _ => isCased c

/-- The small form of `c` after the characters `before`, nearest first, and ahead of `rest`: a
sigma that ends a word takes the final form. -/
def lowerIn (before : List Char) (c : Char) (rest : List Char) : List Char :=
  if c.toNat == 0x3A3 then
    [Char.ofNat (if meetsCased before && !meetsCased rest then 0x3C2 else 0x3C3)]
  else lowerChar c

/-- Small letters for all characters, given those before, nearest first. -/
def lowerChars (before : List Char) : List Char → List Char
  | [] => []
  | c :: rest => lowerIn before c rest ++ lowerChars (c :: before) rest

/-- Title case for all characters, given those before, nearest first. -/
def titleChars (before : List Char) : List Char → List Char
  | [] => []
  | c :: rest =>
    (if before.head?.any isCased then lowerIn before c rest else titleChar c)
      ++ titleChars (c :: before) rest

/-- The text in small letters. -/
def lower (s : String) : String :=
  String.ofList (lowerChars [] s.toList)

/-- The text in capital letters. -/
def upper (s : String) : String :=
  String.ofList (s.toList.flatMap upperChar)

/-- The text with every word begun in title case; a word is a run of cased characters. -/
def titled (s : String) : String :=
  String.ofList (titleChars [] s.toList)

end Toolgate.Text
