import Toolgate.Schema.Form
import Toolgate.Text.Case
import Toolgate.Text.Edit

/-!
# Advertised schemas

The JSON schema that callers are shown for a shape. Records inside it stand under `$defs` and are
referred to; records of one name share an entry when their schemas are the same.

While a schema is drafted each record has a key of its own. The keys are then shortened: a record
takes the first of its possible names under which there is only one schema. Shortening the keys of
inner records can make outer ones equal, so it is repeated until nothing changes.

## Main definitions

* `draft`: the schema of a shape, with the definitions of its records
* `rename`: the names for the keys of definitions
* `advertise`: the schema of a shape with its definitions
-/

namespace Toolgate.Schema

/-- The definition of a record: its name, its number among records of that name, its schema. -/
structure Definition where
  name : String
  index : Nat
  schema : Json

/-- What the names of definitions begin with when the plain name is taken. -/
def definitionScope : String := "openapi_adapter__schema__"

namespace Definition

/-- The possible names of a definition, the preferred first. The last is its key in a draft. -/
def choices (d : Definition) : List String :=
  let number := "__" ++ Decimal.natText d.index
  [d.name, d.name ++ "-Input", definitionScope ++ d.name, definitionScope ++ d.name ++ "-Input",
    definitionScope ++ d.name ++ number, definitionScope ++ d.name ++ "-Input" ++ number]

/-- The key of a definition in a draft. -/
def key (d : Definition) : String :=
  definitionScope ++ d.name ++ "-Input__" ++ Decimal.natText d.index

end Definition

/-- The reference to a definition. -/
def refTo (key : String) : String :=
  "#/$defs/" ++ key

/-- The number of a new record among those of its name. -/
def nextIndex (definitions : List Definition) (name : String) : Nat :=
  (definitions.filter (·.name == name)).length + 1

/-- Values without those equal to an earlier one; of equal ones the last stands in the place of
the first. -/
def distinctSchemas (kept : List Json) : List Json → List Json
  | [] => kept
  | v :: rest =>
    if kept.any (·.same v) then
      distinctSchemas (kept.map fun w => if w.same v then v else w) rest
    else distinctSchemas (kept ++ [v]) rest

/-- The schemas that one of several alternatives consists of. -/
def alternativesOf : Json → List Json
  | .obj [("anyOf", .arr items)] => items
  | v => [v]

/-- The schema of values that fit one of several; one alone is itself. -/
def anyOf (schemas : List Json) : Json :=
  match distinctSchemas [] (schemas.flatMap alternativesOf) with
  | [v] => v
  | items => .obj [("anyOf", .arr items)]

/-- A schema with one more keyword. -/
def withKeyword (key : String) (value : Json) : Json → Json
  | .obj fields => .obj (setField key value fields)
  | v => v

/-- A keyword, when there is a value for it. -/
def keyword (key : String) (value : Option Json) : List (String × Json) :=
  (value.map fun v => (key, v)).toList

/-- The keywords for the limits on a text. -/
def TextLimits.keywords (limits : TextLimits) : List (String × Json) :=
  keyword "minLength" (limits.minLength.map fun n => .int n)
    ++ keyword "maxLength" (limits.maxLength.map fun n => .int n)
    ++ keyword "pattern" (limits.pattern.map fun p => .str p.text)

/-- A bound as it is shown; infinite bounds are not. -/
def Amount.advertised : Amount → Option Json
  | .whole n => some (.int n)
  | .real x => if x.isInf then none else some (.float x)

/-- The keywords for the bounds on a number. -/
def Bounds.keywords (bounds : Bounds) : List (String × Json) :=
  keyword "minimum" (bounds.atLeast.bind Amount.advertised)
    ++ keyword "exclusiveMinimum" (bounds.above.bind Amount.advertised)
    ++ keyword "maximum" (bounds.atMost.bind Amount.advertised)
    ++ keyword "exclusiveMaximum" (bounds.below.bind Amount.advertised)
    ++ keyword "multipleOf" (bounds.multipleOf.bind Amount.advertised)

/-- The type that a member of a choice has in a schema. -/
def memberType : Json → String
  | .null => "null"
  | .bool _ => "boolean"
  | .int _ => "integer"
  | .float _ => "number"
  | _ => "string"

/-- The schema of a choice; its type is told when all members share one. -/
def choiceSchema (members : List Json) : Json :=
  let values := match members with
    | [v] => ("const", v)
    | vs => ("enum", .arr vs)
  let type := match members.map memberType with
    | t :: rest => if rest.all (· == t) then [("type", .str t)] else []
    | [] => []
  .obj (values :: type)

/-- Is the shape a record, null apart? -/
def isRecord : Shape → Bool
  | .record _ _ => true
  | .optional s => isRecord s
  | .described _ s => isRecord s
  | _ => false

/-- The title of a field. -/
def titleOf (wire : String) : String :=
  Text.strip (String.ofList ((Text.titled wire).toList.map fun c => if c == '_' then ' ' else c))

/-- The schema of a field, given that of its shape. Fields that are records bear no title. -/
def fieldSchema (field : Field Shape) (schema : Json) : Json :=
  let titled := if isRecord field.shape then schema
    else withKeyword "title" (.str (titleOf field.wire)) schema
  let noted := if field.description.isEmpty then titled
    else withKeyword "description" (.str field.description) titled
  if field.required then noted else withKeyword "default" .null noted

/-- The schema of an object with free keys. -/
def tableSchema (value : Json) : Json :=
  let values := match value with
    | .obj fields =>
      match fields.filter (·.1 != "title") with
      | [] => .bool true
      | kept => .obj kept
    | v => v
  .obj [("additionalProperties", values), ("type", .str "object")]

/-- The schema of a record, given those of its fields. -/
def recordSchema (name : String) (fields : List (Field Shape × Json)) : Json :=
  let required := (fields.filter (·.1.required)).map fun (field, _) => Json.str field.wire
  .obj ([("additionalProperties", .bool true),
    ("properties", .obj (fields.foldl (fun done (field, schema) =>
      setField field.wire (fieldSchema field schema) done) []))]
    ++ (if required.isEmpty then [] else [("required", .arr required)])
    ++ [("title", .str name), ("type", .str "object")])

mutual

/-- The schema of a shape and the definitions of its records, after those already made. -/
def draft (definitions : List Definition) : Shape → Json × List Definition
  | .anything => (.obj [], definitions)
  | .text limits => (.obj (("type", .str "string") :: limits.keywords), definitions)
  | .choice members => (choiceSchema members, definitions)
  | .timestamp => (.obj [("type", .str "string")], definitions)
  | .whole bounds => (.obj (("type", .str "integer") :: bounds.keywords), definitions)
  | .number bounds => (.obj (("type", .str "number") :: bounds.keywords), definitions)
  | .truth => (.obj [("type", .str "boolean")], definitions)
  | .list item =>
    let (schema, definitions) := draft definitions item
    (.obj [("items", schema), ("type", .str "array")], definitions)
  | .table value =>
    let (schema, definitions) := draft definitions value
    (tableSchema schema, definitions)
  | .record name fields =>
    let (drafted, definitions) := draftFields definitions fields
    let definition : Definition := ⟨name, nextIndex definitions name, recordSchema name drafted⟩
    (.obj [("$ref", .str (refTo definition.key))], definitions ++ [definition])
  | .either variants =>
    let (schemas, definitions) := draftEach definitions variants
    (anyOf schemas, definitions)
  | .optional inner =>
    let (schema, definitions) := draft definitions inner
    (anyOf [schema, .obj [("type", .str "null")]], definitions)
  | .described text inner =>
    let (schema, definitions) := draft definitions inner
    (withKeyword "description" (.str text) schema, definitions)

/-- The schemas of the fields of a record. -/
def draftFields (definitions : List Definition) :
    List (Field Shape) → List (Field Shape × Json) × List Definition
  | [] => ([], definitions)
  | ⟨name, wire, required, description, shape⟩ :: rest =>
    let (schema, definitions) := draft definitions shape
    let (others, definitions) := draftFields definitions rest
    ((⟨name, wire, required, description, shape⟩, schema) :: others, definitions)

/-- The schemas of several shapes. -/
def draftEach (definitions : List Definition) : List Shape → List Json × List Definition
  | [] => ([], definitions)
  | s :: rest =>
    let (schema, definitions) := draft definitions s
    let (others, definitions) := draftEach definitions rest
    (schema :: others, definitions)

end

/-- New names by old ones. -/
abbrev Renaming := List (String × String)

mutual

/-- A schema with its references renamed. -/
def renameRefs (newNames : Renaming) : Json → Json
  | .str s => .str ((newNames.lookup s).getD s)
  | .arr items => .arr (renameRefsItems newNames items)
  | .obj fields => .obj (renameRefsFields newNames fields)
  | v => v

/-- Schemas with their references renamed. -/
def renameRefsItems (newNames : Renaming) : List Json → List Json
  | [] => []
  | v :: rest => renameRefs newNames v :: renameRefsItems newNames rest

/-- Keywords with the references in them renamed. -/
def renameRefsFields (newNames : Renaming) : List (String × Json) → List (String × Json)
  | [] => []
  | (key, v) :: rest => (key, renameRefs newNames v) :: renameRefsFields newNames rest

end

/-- The first possible name of a definition under which there is only one schema. -/
def shortName (definitions : List Definition) (d : Definition) : String :=
  (d.choices.find? fun choice =>
    (distinctSchemas [] ((definitions.filter (·.choices.contains choice)).map (·.schema))).length
      == 1).getD d.key

/-- The references to definitions by their new names. -/
def refRenaming (definitions : List Definition) (names : List String) : Renaming :=
  List.zipWith (fun d name => (refTo d.key, refTo name)) definitions names

/-- The names of definitions, shortening them up to `fuel` times; `names` holds the latest. -/
def rename (definitions : List Definition) (names : List String) : Nat → List String
  | 0 => names
  | fuel + 1 =>
    let shorter := definitions.map (shortName definitions)
    if shorter == names then names
    else
      let newNames := refRenaming definitions shorter
      rename (definitions.map fun d => { d with schema := renameRefs newNames d.schema }) shorter
        fuel

/-- A bound on the rounds of shortening. -/
def renameRounds : Nat := 100

/-- A schema with definitions, under their short names. -/
def withDefinitions (schema : Json) (definitions : List Definition) : Json :=
  let names := rename definitions (definitions.map Definition.key) renameRounds
  let newNames := refRenaming definitions names
  let entries := (definitions.zip names).foldl (fun done (d, name) =>
    setField name (renameRefs newNames d.schema) done) []
  let schema := renameRefs newNames schema
  if entries.isEmpty then schema else withKeyword "$defs" (.obj entries) schema

/-- The schema of a shape with its definitions. A record as a whole is not referred to but
written out. -/
def advertise (shape : Shape) : Json :=
  let (schema, definitions) := draft [] shape
  match schema, definitions.getLast? with
  | .obj [("$ref", .str _)], some root => withDefinitions root.schema definitions.dropLast
  | _, _ => withDefinitions schema definitions

/-- The schema of a form. The description of an object belongs to what refers to it. -/
def Form.advertised (form : Form) : Json :=
  advertise (if form.isObject then form.shape else form.describedShape)

end Toolgate.Schema
