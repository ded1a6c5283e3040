import Toolgate.Call.Assembly
import Toolgate.Catalog.Endpoint
import Toolgate.Schema.Translation

/-!
# Argument slots

The arguments of an operation are offered in one flat list of slots: first its path parameters,
then its query parameters, then variables of the path that no parameter declares, then the body.
A body that is an object is spread over one slot for each of its members; every other body is one
slot. A name that has been claimed by an earlier slot is not given away again.

## Main definitions

* `Slot`, `Origin`: an argument and where it goes
* `parametersOf`: the parameters that hold for an endpoint
* `bodyOf`: the schema of a request body
* `slotsOf`: the slots of an endpoint, and how they are routed
-/

namespace Toolgate.Catalog

open Schema (Form Member TranslationError)

/-- Where the value of a slot goes. -/
inductive Origin where
  | path
  | query
  | bodyField
  | body
  deriving Repr, DecidableEq

/-- The name of an origin. -/
def Origin.name : Origin → String
  | path => "path"
  | query => "query"
  | bodyField => "body-field"
  | body => "body"

/-- An argument of an operation. -/
structure Slot where
  name : String
  origin : Origin
  form : Form
  required : Bool := false

/-- The member of the input record that a slot is. -/
def Slot.toMember (slot : Slot) : Member Form :=
  ⟨slot.name, slot.required, slot.form⟩

/-- What schemas are translated against: a document, and the reference texts in it. -/
structure Source where
  document : Json
  refs : List String

/-- The source for a document. -/
def Source.of (document : Json) : Source :=
  ⟨document, Schema.refTexts document⟩

namespace Source

/-- The form of a node of the document. -/
def form (source : Source) (node : Node) (name : String) : Except TranslationError Form :=
  Schema.translate source.document source.refs [] node name

/-- The form of a node, or of nothing when the node is empty or missing. -/
def formOrAny (source : Source) (node? : Option Node) (name : String) :
    Except TranslationError Form :=
  match node?.filter (·.value.truthy) with
  | some node => source.form node name
  | none => .ok (.anything "")

/-- A node, or the node it refers to. -/
def deref (source : Source) (node : Node) : Except TranslationError (Option Node) :=
  match node.value.getD "$ref" with
  | .str ref =>
    match resolveRef source.document ref with
    | .ok target => .ok target
    | .error cause => .error (.pointer cause)
  | _ => .ok (some node)

/-- The nodes of a list that are objects or refer to objects. -/
def derefAll (source : Source) : List Node → Except TranslationError (List Node)
  | [] => .ok []
  | node :: rest =>
    match source.deref node with
    | .error cause => .error cause
    | .ok found =>
      (source.derefAll rest).map fun others =>
        (found.filter (·.value.isObject)).toList ++ others

end Source

/-- Is it the same parameter? Parameters are told apart by name and location. -/
def sameParameter (a b : Node) : Bool :=
  (a.value.getD "name").display == (b.value.getD "name").display
    && (a.value.getD "in").display == (b.value.getD "in").display

/-- A parameter added to others: in the place of the same one, else at the end. -/
def addParameter (parameter : Node) : List Node → List Node
  | [] => [parameter]
  | other :: rest =>
    if sameParameter other parameter then parameter :: rest
    else other :: addParameter parameter rest

/-- The parameters that a node lists. -/
def listedParameters (source : Source) (node : Node) : Except TranslationError (List Node) :=
  match node.get? "parameters" with
  | some listed => source.derefAll listed.items
  | none => .ok []

/-- The parameters of an endpoint: those of its path, replaced and followed by its own. -/
def parametersOf (source : Source) (e : Endpoint) : Except TranslationError (List Node) :=
  match listedParameters source e.pathItem with
  | .error cause => .error cause
  | .ok shared =>
    (listedParameters source e.operation).map fun own =>
      (shared ++ own).foldl (fun merged parameter => addParameter parameter merged) []

/-- A text that is not blank, trimmed. -/
def trimmedText? : Json → Option String
  | .str s => if (Text.strip s).isEmpty then none else some (Text.strip s)
  | _ => none

/-- The name of a parameter at a location. -/
def parameterName? (location : String) (parameter : Node) : Option String :=
  match parameter.value.getD "in", parameter.value.getD "name" with
  | .str place, .str name => if place == location && !name.isEmpty then some name else none
  | _, _ => none

/-- The slots of the parameters at one location, after those whose names are `claimed`. -/
def parameterSlots (source : Source) (operation : String) (origin : Origin)
    (claimed : List String) : List Node → Except TranslationError (List Slot)
  | [] => .ok []
  | parameter :: rest =>
    match (parameterName? origin.name parameter).filter (!claimed.contains ·) with
    | none => parameterSlots source operation origin claimed rest
    | some name =>
      match source.formOrAny (parameter.get? "schema") (operation ++ "_" ++ name) with
      | .error cause => .error cause
      | .ok form =>
        let description := (trimmedText? (parameter.value.getD "description")).getD
          form.description
        let required := match parameter.value.getD "required" with
          | .bool b => b
          | _ => false
        (parameterSlots source operation origin (name :: claimed) rest).map
          (⟨name, origin, { form with description }, required⟩ :: ·)

/-- The slot of a path variable that no parameter declares. -/
def variableSlot (name : String) : Slot :=
  ⟨name, .path, ⟨.string, .text {}, "", []⟩, true⟩

/-- Media types that are looked for first in a request body. -/
def preferredMedia : List String := ["application/json", "application/vnd.api+json"]

/-- The JSON media type of a request body. -/
def jsonMedia? (content : Node) : Option Node :=
  let entries := (fieldNodes content).filter (·.2.value.isObject)
  match preferredMedia.findSome? fun name => (entries.find? (·.1 == name)).map (·.2) with
  | some media => some media
  | none => (entries.find? fun (name, _) => Text.holds "json".toList name.toList).map (·.2)

/-- The schema of the request body of an endpoint, and whether a body is required. -/
def bodyOf (source : Source) (e : Endpoint) : Except TranslationError (Option (Node × Bool)) :=
  match e.operation.get? "requestBody" with
  | none => .ok none
  | some node =>
    (source.deref node).map fun found => do
      let body ← found
      let media ← jsonMedia? (← body.get? "content")
      let schema ← media.get? "schema"
      let required := match body.value.getD "required" with
        | .bool b => b
        | _ => false
      if schema.value.isNull then none else some (schema, required)

/-- The name of the slot for a whole body: that of the schema it refers to, or a standing one. -/
def bodyArgumentName (schema : Json) (claimed : List String) : String :=
  let refName := match schema.getD "$ref" with
    | .str ref => Naming.refName ref
    | _ => ""
  let free := [refName, "body", "request_body"].find? fun name =>
    !name.isEmpty && !claimed.contains name
  free.getD ("body_" ++ Decimal.natText claimed.length)

/-- The slots of the members of a body, apart from names that are claimed. -/
def memberSlots (claimed : List String) : List (Member Form) → List Slot
  | [] => []
  | member :: rest =>
    if claimed.contains member.name then memberSlots claimed rest
    else ⟨member.name, .bodyField, member.form, false⟩ :: memberSlots (member.name :: claimed) rest

/-- The slots of a body. -/
def bodySlots (claimed : List String) (schema : Json) (required : Bool) (form : Form) :
    List Slot :=
  if form.isObject then memberSlots claimed form.members
  else [⟨bodyArgumentName schema claimed, .body, form, required⟩]

/-- The slots of an endpoint for its parameters and path variables. -/
def pathAndQuerySlots (source : Source) (operation : String) (e : Endpoint) :
    Except TranslationError (List Slot) :=
  match parametersOf source e with
  | .error cause => .error cause
  | .ok parameters =>
    match parameterSlots source operation .path [] parameters with
    | .error cause => .error cause
    | .ok pathSlots =>
      let inPath := Call.variableNames e.path
      let claimed := pathSlots.map (·.name)
      (parameterSlots source operation .query (inPath ++ claimed) parameters).map
        fun querySlots =>
          let named := claimed ++ querySlots.map (·.name)
          let undeclared := inPath.filter (!named.contains ·)
          pathSlots ++ querySlots ++ undeclared.map variableSlot

/-- The slots of an endpoint. -/
def slotsOf (source : Source) (operation : String) (e : Endpoint) :
    Except TranslationError (List Slot) :=
  match pathAndQuerySlots source operation e with
  | .error cause => .error cause
  | .ok slots =>
    match bodyOf source e with
    | .error cause => .error cause
    | .ok none => .ok slots
    | .ok (some (schema, required)) =>
      (source.form schema (operation ++ "_body")).map fun form =>
        slots ++ bodySlots (slots.map (·.name)) schema.value required form

/-- The names of the slots of an origin. -/
def namesFrom (origin : Origin) (slots : List Slot) : List String :=
  (slots.filter (·.origin == origin)).map (·.name)

/-- How the slots of an endpoint are routed. -/
def routeOf (e : Endpoint) (slots : List Slot) : Call.Route where
  method := Text.upper e.method
  path := e.path
  pathParams := namesFrom .path slots
  queryParams := namesFrom .query slots
  bodyFields := namesFrom .bodyField slots
  bodyArgument := (namesFrom .body slots).head?

end Toolgate.Catalog
