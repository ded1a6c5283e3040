import Toolgate.Json.Basic
import Toolgate.Text.Case
import Toolgate.Text.Edit

/-!
# Slugs

A slug is a name made of words of small ASCII letters and digits joined by underscores, of 1 to
64 characters. Every text has one, and operations and resources are named by them.

## Main definitions

* `slug`: the slug of a text
* `candidate`: the text that an operation is named after
-/

namespace Toolgate.Naming

/-- The most characters a name may have. -/
def maxLength : Nat := 64

/-- The name of what has no letter or digit to be named after. -/
def fallback : List Char := "operation".toList

/-- A character that slugs are made of, apart from the underscore. -/
def isSlugChar (c : Char) : Bool :=
  Text.isAsciiLower c || Text.isAsciiDigit c

/-- A character that names are made of. -/
def isNameChar (c : Char) : Bool :=
  isSlugChar c || c == '_'

/-- The words joined by underscores. -/
def joinWords (words : List (List Char)) : List Char :=
  List.intercalate ['_'] words

/-- The slug of a list of characters in small letters. It is cut to `maxLength` characters, and
an underscore that the cut leaves at the end is dropped. -/
def slugChars (cs : List Char) : List Char :=
  let kept := (joinWords (Text.pieces (fun c => !isSlugChar c) cs)).take maxLength
  match Text.trimEnd (· == '_') kept with
  | [] => fallback
  | name => name

/-- The slug of a text. -/
def slug (s : String) : String :=
  String.ofList (slugChars (Text.lower s).toList)

/-- The text an operation is named after: its identifier when that is not blank, else the method
and the path with its braces left out. -/
def candidate (method path : String) (identifier : Json) : String :=
  match identifier with
  | .str id => if (Text.strip id).isEmpty then fromPath else id
  | _ => fromPath
where
  /-- Method and path as one word. -/
  fromPath : String :=
    method ++ "_" ++ String.ofList (path.toList.flatMap fun c =>
      if c == '/' then ['_'] else if c == '\x7b' || c == '\x7d' then [] else [c])

end Toolgate.Naming
