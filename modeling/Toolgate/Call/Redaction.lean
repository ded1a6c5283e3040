import Toolgate.Json.Basic
import Toolgate.Text.Case
import Toolgate.Text.Edit

/-!
# Redaction

Before arguments are put on record, the values of fields whose keys sound secret are replaced.
Fields are looked for in objects and in objects that are items of arrays.

## Main definitions

* `isSensitive`: does a key sound secret?
* `redact`: the fields of an object without their secrets
-/

namespace Toolgate.Call

/-- Words that make a key sensitive, wherever they occur in it and in whatever case. -/
def sensitiveWords : List (List Char) :=
  ["token".toList, "secret".toList, "apikey".toList, "api_key".toList, "api-key".toList,
    "password".toList, "authorization".toList]

/-- Does the key sound secret? -/
def isSensitive (key : String) : Bool :=
  let folded := key.toList.map Text.foldChar
  sensitiveWords.any fun word => Text.holds word folded

/-- What stands for a secret. -/
def redactedMark : Json := .str "***REDACTED***"

mutual

/-- A value without the secrets of the objects in it. -/
def redactValue : Json → Json
  | .obj fields => .obj (redact fields)
  | .arr items => .arr (redactItems items)
  | v => v

/-- The fields of an object without their secrets. -/
def redact : List (String × Json) → List (String × Json)
  | [] => []
  | (key, v) :: rest =>
    (key, if isSensitive key then redactedMark else redactValue v) :: redact rest

/-- The items of an array, those that are objects without their secrets. -/
def redactItems : List Json → List Json
  | [] => []
  | .obj fields :: rest => .obj (redact fields) :: redactItems rest
  | v :: rest => v :: redactItems rest

end

end Toolgate.Call
