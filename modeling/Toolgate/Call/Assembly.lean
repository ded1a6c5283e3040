import Toolgate.Call.Template
import Toolgate.Json.Basic
import Toolgate.Text.Case

/-!
# Assembling requests

The arguments of a call come in one flat bag. A route says which of them go into the path, the
query and the body of the request; arguments that the route does not declare, and nulls, are
dropped.

## Main definitions

* `Route`: how the arguments of an operation are routed
* `Parts`: the parts of a request
* `assemble`: the parts for a route and a bag of arguments
-/

namespace Toolgate.Call

/-- Fields of an object in order. -/
abbrev Fields := List (String × Json)

/-- Where the arguments of an operation go. -/
structure Route where
  method : String
  path : String
  pathParams : List String := []
  queryParams : List String := []
  bodyFields : List String := []
  /-- The argument that is the whole body. -/
  bodyArgument : Option String := none

/-- The parts of a request; a part without content is absent. -/
structure Parts where
  path : Option Fields := none
  query : Option Fields := none
  /-- Null stands for no body. -/
  body : Json := .null

/-- Methods whose requests have a body. -/
def bodyMethods : List String := ["POST", "PUT", "PATCH"]

/-- The arguments called `names` that are given and not null, in the order of `names`. -/
def pick (bag : Fields) (names : List String) : Fields :=
  (distinct names).filterMap fun name =>
    match lookupField name bag with
    | none => none
    | some .null => none
    | some v => some (name, v)

/-- A part, unless it is empty. -/
def unlessEmpty (fields : Fields) : Option Fields :=
  if fields.isEmpty then none else some fields

/-- The body of a request: one argument as a whole, or the arguments that are its fields. -/
def Route.body (route : Route) (bag : Fields) : Json :=
  if bodyMethods.contains (Text.upper route.method) then
    match route.bodyArgument with
    | some name => (lookupField name bag).getD .null
    | none => ((unlessEmpty (pick bag route.bodyFields)).map Json.obj).getD .null
  else .null

/-- The parts of the request for a bag of arguments. The path takes what its template names. -/
def assemble (route : Route) (bag : Fields) : Parts where
  path := unlessEmpty (pick bag (variableNames route.path))
  query := unlessEmpty (pick bag route.queryParams)
  body := route.body bag

end Toolgate.Call
