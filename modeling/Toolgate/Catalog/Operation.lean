import Toolgate.Catalog.Slot
import Toolgate.Naming.Names
import Toolgate.Schema.Advert

/-!
# Operations and resources

What a description is compiled to: operations that can be called with arguments, and resources
that can be read. Two operations are not from the description: one reports its tags, the other
the configuration.

## Main definitions

* `Operation`, `Resource`, `Table`
* `Operation.ofEndpoint`: the operation of an endpoint
* `resourcesOf`: the resources of a description
-/

namespace Toolgate.Catalog

open Schema (Shape TranslationError)

/-- What a call of an operation does. -/
inductive Action where
  /-- Performs a request to the upstream service. -/
  | request (route : Call.Route)
  /-- Gives a report that was made when the table was compiled. -/
  | report (payload : Json)

/-- An operation that can be called. -/
structure Operation where
  name : String
  method : String
  path : String
  description : String
  slots : List Slot
  /-- The record that arguments are checked against. -/
  input : Shape
  action : Action
  tags : List String

/-- The advertised schema of the arguments. -/
def Operation.parameters (operation : Operation) : Json :=
  Schema.advertise operation.input

/-- The name of the record that arguments are checked against. -/
def Operation.inputName (operation : Operation) : String :=
  operation.input.label

/-- A resource that can be read. -/
structure Resource where
  name : String
  uriTemplate : String
  path : String
  variableNames : List String
  description : String

/-- The media type of everything that resources give. -/
def mimeType : String := "application/json"

/-- How the variables of a resource are routed. -/
def Resource.route (resource : Resource) : Call.Route where
  method := "GET"
  path := resource.path
  pathParams := resource.variableNames

/-- What a description is compiled to: operations and resources under their names, in the order in
which they were put in. -/
structure Table where
  operations : List (String × Operation)
  resources : List (String × Resource)
  tags : List String

/-- The record of the slots; a record without fields when some slot cannot be checked. -/
def inputShape (name : String) (slots : List Slot) : Shape :=
  let called := name ++ "_input"
  (Schema.recordOf? called (slots.map Slot.toMember)).getD (.record (Naming.typeName called) [])

/-- The description of an operation: its summary, else its description, else a standing one. -/
def descriptionOf (operation : Json) (standing : String) : String :=
  ((trimmedText? (operation.getD "summary")).orElse fun _ =>
    trimmedText? (operation.getD "description")).getD standing

/-- The operation of an endpoint under a name. -/
def Operation.ofEndpoint (source : Source) (name : String) (e : Endpoint) :
    Except TranslationError Operation :=
  (slotsOf source name e).map fun slots =>
    let method := Text.upper e.method
    { name, method, path := e.path
      description := descriptionOf e.operation.value (method ++ " " ++ e.path)
      slots
      input := inputShape name slots
      action := .request (routeOf e slots)
      tags := e.tags }

/-- An operation that gives a report. -/
def Operation.reporting (name description : String) (payload : Json) : Operation where
  name := name
  method := ""
  path := ""
  description := description
  slots := []
  input := inputShape name []
  action := .report payload
  tags := []

/-- Is the endpoint read as a resource? It is when it is got and its path has variables. -/
def isReadable (e : Endpoint) : Bool :=
  e.method == "get" && !(Call.variableNames e.path).isEmpty

/-- The name of a resource in a namespace. -/
def resourceName (names : Naming.Names) (e : Endpoint) : String × Naming.Names :=
  names.resolve (Naming.candidate "read" e.path (e.operation.value.getD "operationId"))

/-- The resource of an endpoint under a name. -/
def Resource.ofEndpoint (scheme name : String) (e : Endpoint) : Resource where
  name := name
  uriTemplate := scheme ++ "://api" ++ e.path
  path := e.path
  variableNames := Call.variableNames e.path
  description := descriptionOf e.operation.value ("Read resource at " ++ e.path)

/-- The resources of endpoints, the first for each path, put into `found` under names from the
namespace. -/
def resourcesFrom (scheme : String) (names : Naming.Names) (seen : List String)
    (found : List (String × Resource)) : List Endpoint → List (String × Resource)
  | [] => found
  | e :: rest =>
    if !isReadable e || seen.contains e.path then resourcesFrom scheme names seen found rest
    else
      let (name, names) := resourceName names e
      resourcesFrom scheme names (e.path :: seen)
        (setField name (.ofEndpoint scheme name e) found) rest

/-- The resources of a description. -/
def resourcesOf (scheme : String) (document : Json) : List (String × Resource) :=
  resourcesFrom scheme {} [] [] (endpoints document)

end Toolgate.Catalog
