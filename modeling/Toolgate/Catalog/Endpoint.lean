import Toolgate.Json.Pointer
import Toolgate.Text.Case

/-!
# Endpoints of an API description

An endpoint is an operation of a description: an HTTP method under a path. Entries of a path that
are no methods, or no objects, are passed over.

## Main definitions

* `Endpoint`, `endpoints`: the endpoints of a description, in its order
* `Endpoint.tags`: the tags an endpoint is listed under
* `serverUrl?`: the address a description gives for its service
-/

namespace Toolgate.Catalog

/-- An operation of a description. -/
structure Endpoint where
  path : String
  /-- The method in small letters. -/
  method : String
  /-- The entry of the path, which may hold parameters for all its operations. -/
  pathItem : Node
  operation : Node

/-- The methods of HTTP that operations are described for. -/
def httpMethods : List String :=
  ["get", "put", "post", "delete", "options", "head", "patch", "trace"]

/-- The fields of a node that is an object, as nodes. -/
def fieldNodes (node : Node) : List (String × Node) :=
  match node.value with
  | .obj fields => fields.map fun (key, v) => (key, ⟨v, node.place.step (.key key), false⟩)
  | _ => []

/-- The endpoint that an entry of a path describes. -/
def endpoint? (path : String) (pathItem : Node) (key : String) (operation : Node) :
    Option Endpoint :=
  let method := Text.lower key
  if httpMethods.contains method && operation.value.isObject then
    some ⟨path, method, pathItem, operation⟩
  else none

/-- The endpoints under a path. -/
def endpointsAt (path : String) (pathItem : Node) : List Endpoint :=
  (fieldNodes pathItem).filterMap fun (key, operation) => endpoint? path pathItem key operation

/-- The endpoints of a description in its order. -/
def endpoints (document : Json) : List Endpoint :=
  match (Node.root document).get? "paths" with
  | none => []
  | some paths => (fieldNodes paths).flatMap fun (path, pathItem) => endpointsAt path pathItem

/-- The tags of an operation, in the order they are written. -/
def tagsOf (operation : Json) : List String :=
  match operation.getD "tags" with
  | .arr items => items.filterMap Json.text?
  | _ => []

/-- The tags of an endpoint. -/
def Endpoint.tags (e : Endpoint) : List String :=
  tagsOf e.operation.value

/-- The address of the first server that a description names. -/
def serverUrl? (document : Json) : Option String :=
  match document.getD "servers" with
  | .arr (server :: _) => (server.get? "url").bind Json.text?
  | _ => none

end Toolgate.Catalog
