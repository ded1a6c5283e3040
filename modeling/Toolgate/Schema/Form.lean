import Toolgate.Naming.Attribute
import Toolgate.Schema.Shape

/-!
# Forms

A form is what a schema node is compiled to: the kind it is listed as, the shape of the values it
accepts, a description, and for objects their members.

## Main definitions

* `Kind`, `Form`, `Member`
* `Form.ofMembers`: the form of an object with given members
* `recordOf?`: the record of given members, when each of them can be checked
-/

namespace Toolgate.Schema

/-- What a schema node is listed as. -/
inductive Kind where
  | any
  | string
  | enumeration
  | datetime
  | integer
  | number
  | boolean
  | array
  | object
  | map
  | union
  deriving Repr, DecidableEq, Inhabited

/-- The name of a kind. -/
def Kind.name : Kind → String
  | any => "any"
  | string => "string"
  | enumeration => "enum"
  | datetime => "datetime"
  | integer => "integer"
  | number => "number"
  | boolean => "boolean"
  | array => "array"
  | object => "object"
  | map => "map"
  | union => "union"

/-- A named part of an object. -/
structure Member (α : Type) where
  name : String
  required : Bool
  form : α

/-- What a schema node is compiled to. -/
structure Form where
  kind : Kind
  shape : Shape
  description : String := ""
  members : List (Member Form) := []
  deriving Inhabited

namespace Form

/-- Is the form that of an object with declared members? -/
def isObject (form : Form) : Bool :=
  form.kind == .object

/-- The form of a node that says nothing, with a note. -/
def anything (note : String) : Form :=
  ⟨.any, .anything, note, []⟩

/-- The form of an object without declared members. -/
def looseObject : Form :=
  ⟨.map, .table .anything, "Object with arbitrary properties", []⟩

/-- The shape with the description of the form. -/
def describedShape (form : Form) : Shape :=
  form.shape.withDescription form.description

end Form

/-- The field of a record that a member becomes. A member that need not be given may be null. -/
def Member.toField (name : String) (member : Member Form) : Field Shape where
  name := name
  wire := member.name
  required := member.required
  description := member.form.description
  shape := if member.required then member.form.shape else member.form.shape.orNull

/-- The fields of a record with the members, after the names in `taken`. -/
def fieldsOf (taken : List String) : List (Member Form) → List (Field Shape)
  | [] => []
  | member :: rest =>
    let name := Naming.attributeName taken member.name
    member.toField name :: fieldsOf (name :: taken) rest

/-- The record of the members, when values can be checked against each of them. -/
def recordOf? (name : String) (members : List (Member Form)) : Option Shape :=
  let fields := fieldsOf [] members
  if fields.all fun field => field.shape.isSound then
    some (.record (Naming.typeName name) fields)
  else none

/-- The form of an object with the members; a loose object when it has no record. -/
def Form.ofMembers (name : String) (members : List (Member Form)) : Form :=
  match recordOf? name members with
  | some shape => ⟨.object, shape, "", members⟩
  | none => looseObject

end Toolgate.Schema
