import Toolgate.Text.Class

/-!
# Cutting and joining texts

List functions for cutting texts: trimming by a class of characters, splitting at a character,
and replacing every occurrence of a word from left to right.

## Main definitions

* `trim`, `trimStart`, `trimEnd`, `strip`
* `splitAt`, `pieces`: the pieces between occurrences of a character, or of a class
* `replaceAll`: all occurrences of a word, found from the left without overlap
* `holds`: does a word occur in a text?
-/

namespace Toolgate.Text

/-- Drop leading characters of the class. -/
def trimStart (drop : Char → Bool) (cs : List Char) : List Char :=
  cs.dropWhile drop

/-- Drop trailing characters of the class. -/
def trimEnd (drop : Char → Bool) (cs : List Char) : List Char :=
  (cs.reverse.dropWhile drop).reverse

/-- Drop leading and trailing characters of the class. -/
def trim (drop : Char → Bool) (cs : List Char) : List Char :=
  trimEnd drop (trimStart drop cs)

/-- The text without leading and trailing blanks. -/
def strip (s : String) : String :=
  String.ofList (trim isBlank s.toList)

/-- The pieces of `cs` between the occurrences of `sep`; there is always at least one. -/
def splitAt (sep : Char) : List Char → List (List Char)
  | [] => [[]]
  | c :: rest =>
    if c == sep then [] :: splitAt sep rest
    else match splitAt sep rest with
      | [] => [[c]]
      | piece :: pieces => (c :: piece) :: pieces

/-- The pieces of `cs` between characters of the class `cut`, those in hand held in `piece` in
reverse; empty pieces are left out. -/
def piecesFrom (cut : Char → Bool) (piece : List Char) : List Char → List (List Char)
  | [] => if piece.isEmpty then [] else [piece.reverse]
  | c :: rest =>
    if !cut c then piecesFrom cut (c :: piece) rest
    else if piece.isEmpty then piecesFrom cut [] rest
    else piece.reverse :: piecesFrom cut [] rest

/-- The longest pieces of `cs` without a character of the class `cut`. -/
def pieces (cut : Char → Bool) (cs : List Char) : List (List Char) :=
  piecesFrom cut [] cs

/-- The rest after `word`, where the text begins with it. -/
def after? : List Char → List Char → Option (List Char)
  | [], cs => some cs
  | _ :: _, [] => none
  | w :: word, c :: cs => if w == c then after? word cs else none

/-- Each occurrence of `word` replaced by `new`, found from the left; `skip` characters of an
occurrence already replaced are passed over. An empty word is never found. -/
def replaceFrom (word new : List Char) (skip : Nat) : List Char → List Char
  | [] => []
  | c :: rest =>
    match skip with
    | n + 1 => replaceFrom word new n rest
    | 0 =>
      if !word.isEmpty && word.isPrefixOf (c :: rest) then
        new ++ replaceFrom word new (word.length - 1) rest
      else c :: replaceFrom word new 0 rest

/-- Each occurrence of `word` in `cs` replaced by `new`, from left to right without overlap. -/
def replaceAll (word new cs : List Char) : List Char :=
  replaceFrom word new 0 cs

/-- `replaceAll` on texts. -/
def replaced (s word new : String) : String :=
  String.ofList (replaceAll word.toList new.toList s.toList)

/-- Does `word` occur in the text? -/
def holds (word : List Char) : List Char → Bool
  | [] => word.isEmpty
  | c :: rest => word.isPrefixOf (c :: rest) || holds word rest

/-- Does the text `s` end in `word`? -/
def endsIn (word s : String) : Bool :=
  word.toList.isSuffixOf s.toList

/-- Does the text `s` begin with `word`? -/
def beginsWith (word s : String) : Bool :=
  word.toList.isPrefixOf s.toList

/-- The texts in order with `sep` between each two. -/
def joined (sep : String) (parts : List String) : String :=
  String.intercalate sep parts

end Toolgate.Text
