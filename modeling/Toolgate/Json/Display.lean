import Toolgate.Decimal.Notation
import Toolgate.Json.Basic
import Toolgate.Text.Quoted

/-!
# Values shown in messages

How a value is shown inside a message or a name: texts as they are, and everything else as it is
shown inside a list, where texts are quoted.

## Main definitions

* `Json.shown`: a value inside a list or among alternatives
* `Json.display`: a value on its own
-/

namespace Toolgate.Json

mutual

/-- A value as it is shown among others. -/
def shown : Json → String
  | .null => "None"
  | .bool true => "True"
  | .bool false => "False"
  | .int n => Decimal.intText n
  | .float x => Decimal.plain.text x
  | .str s => Text.quoted s
  | .date text => Text.quoted text
  | .arr items => "[" ++ String.intercalate ", " (shownItems items) ++ "]"
  | .obj fields => "\x7b" ++ String.intercalate ", " (shownFields fields) ++ "\x7d"

/-- Each item as it is shown. -/
def shownItems : List Json → List String
  | [] => []
  | v :: rest => shown v :: shownItems rest

/-- Each field as it is shown. -/
def shownFields : List (String × Json) → List String
  | [] => []
  | (k, v) :: rest => (Text.quoted k ++ ": " ++ shown v) :: shownFields rest

end

/-- A value as it is shown on its own. -/
def display : Json → String
  | .str s => s
  | .date text => text
  | v => shown v

end Toolgate.Json
