import Toolgate.Json.Printer
import Toolgate.Text.Edit

/-!
# Descriptions of schemas

The description of a schema node joins its title and its description with its default and its
example, parted by bars.

## Main definitions

* `describe`: the description of a node
* `joinNotes`: the parts that are not empty, with bars between them
-/

namespace Toolgate.Schema

/-- The parts that are not empty, with bars between them. -/
def joinNotes (parts : List String) : String :=
  Text.joined " | " (parts.filter (!·.isEmpty))

/-- A default or an example: a text as it is, everything else as JSON. -/
def renderValue (v : Json) : String :=
  match v with
  | .str s => s
  | v => v.print Json.spaced

/-- The trimmed text of a field; empty when it is no text. -/
def trimmedField (key : String) (fields : List (String × Json)) : String :=
  match lookupField key fields with
  | some (.str s) => Text.strip s
  | _ => ""

/-- The value of a field with its heading; empty when the field is not there. -/
def headedField (key heading : String) (fields : List (String × Json)) : String :=
  match lookupField key fields with
  | some v => heading ++ ": " ++ renderValue v
  | none => ""

/-- The description of a node, given its fields. -/
def describe (fields : List (String × Json)) : String :=
  joinNotes [trimmedField "title" fields, trimmedField "description" fields,
    headedField "default" "Default" fields, headedField "example" "Example" fields]

end Toolgate.Schema
