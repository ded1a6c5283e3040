import Toolgate.Json.Display
import Toolgate.Json.Printer

/-!
# Documents as they are loaded

A document keeps its keys as they were read: in JSON they are texts, in YAML any scalar may be one.
What works on a document sees the keys as texts; its JSON text, however, is written from the
document itself, where a scalar may have none.

## Main definitions

* `Scalar`, `Loaded`: scalars and documents
* `Loaded.toJson`: the value of a document, with its keys as texts
* `Loaded.dump`: the JSON text of a document, or why it has none
-/

namespace Toolgate

/-- A value without parts. -/
inductive Scalar where
  | null
  | truth (b : Bool)
  | integer (n : Int)
  | number (x : Float)
  | text (s : String)
  /-- A calendar date or timestamp, in its ISO 8601 form. -/
  | date (iso : String)
  deriving Inhabited

namespace Scalar

/-- The value that a scalar is. -/
def toJson : Scalar → Json
  | .null => .null
  | .truth b => .bool b
  | .integer n => .int n
  | .number x => .float x
  | .text s => .str s
  | .date iso => .date iso

/-- Are two scalars the same key? Numbers are compared by value, and there is one undefined
number. -/
def isSameKey : Scalar → Scalar → Bool
  | .number x, .number y => x == y || (x.isNaN && y.isNaN)
  | a, b => a.toJson.same b.toJson

/-- A key as it is shown; between the date and the time of a timestamp stands a space. -/
def keyText : Scalar → String
  | .date iso => String.ofList (iso.toList.map fun c => if c == 'T' then ' ' else c)
  | key => key.toJson.display

/-- A key of a JSON text: a text as it is, and the JSON text of any other scalar. -/
def jsonKey : Scalar → String
  | .text s => s
  | .date iso => iso
  | key => key.toJson.print Json.spaced

end Scalar

/-- Fields written one after the other: of those with one key the last value counts, in the place
of the first. -/
def Json.ofFields (fields : List (String × Json)) : Json :=
  .obj (fields.foldl (fun done (key, v) => setField key v done) [])

/-- A document, or a part of one. -/
inductive Loaded where
  | scalar (s : Scalar)
  | sequence (items : List Loaded)
  | mapping (fields : List (Scalar × Loaded))
  deriving Inhabited

namespace Loaded

mutual

/-- The document that a JSON value is. -/
def ofJson : Json → Loaded
  | .null => .scalar .null
  | .bool b => .scalar (.truth b)
  | .int n => .scalar (.integer n)
  | .float x => .scalar (.number x)
  | .str s => .scalar (.text s)
  | .date iso => .scalar (.date iso)
  | .arr items => .sequence (ofItems items)
  | .obj fields => .mapping (ofFields fields)

/-- Each item as a document. -/
def ofItems : List Json → List Loaded
  | [] => []
  | v :: rest => ofJson v :: ofItems rest

/-- Each field with its value as a document. -/
def ofFields : List (String × Json) → List (Scalar × Loaded)
  | [] => []
  | (key, v) :: rest => (.text key, ofJson v) :: ofFields rest

end

section
variable (keyOf : Scalar → String) (object : List (String × Json) → Json)

mutual

/-- The value of a document whose keys become texts by `keyOf`, and its fields an object by
`object`. -/
def assemble : Loaded → Json
  | .scalar s => s.toJson
  | .sequence items => .arr (assembleItems items)
  | .mapping fields => object (assembleFields fields)

/-- The value of each item. -/
def assembleItems : List Loaded → List Json
  | [] => []
  | v :: rest => assemble v :: assembleItems rest

/-- The key and the value of each field. -/
def assembleFields : List (Scalar × Loaded) → List (String × Json)
  | [] => []
  | (key, v) :: rest => (keyOf key, assemble v) :: assembleFields rest

end

end

/-- The value of a document, with each key as it is shown. -/
def toJson (document : Loaded) : Json :=
  document.assemble Scalar.keyText Json.ofFields

mutual

/-- The scalars of a document, keys among them, in the order in which they stand. -/
def scalars : Loaded → List Scalar
  | .scalar s => [s]
  | .sequence items => itemScalars items
  | .mapping fields => fieldScalars fields

/-- The scalars of the items. -/
def itemScalars : List Loaded → List Scalar
  | [] => []
  | v :: rest => scalars v ++ itemScalars rest

/-- The scalars of the fields, each key ahead of those of its value. -/
def fieldScalars : List (Scalar × Loaded) → List Scalar
  | [] => []
  | (key, v) :: rest => key :: (scalars v ++ fieldScalars rest)

end

end Loaded

/-! ## JSON texts -/

/-- Why a scalar has no JSON text. -/
inductive DumpError where
  /-- It is a calendar date. -/
  | date
  /-- It is an integer with more digits than are written. -/
  | longInteger
  deriving DecidableEq

/-- The wording of an error; that of a date has none beside its kind. -/
def DumpError.message : DumpError → String
  | .date => ""
  | .longInteger =>
    "Exceeds the limit (" ++ Decimal.natText Decimal.maxDigits
      ++ " digits) for integer string conversion; use sys.set_int_max_str_digits() to increase "
      ++ "the limit"

/-- Why a scalar has no JSON text, where it has none. -/
def Scalar.dumpError? : Scalar → Option DumpError
  | .date _ => some .date
  | .integer n =>
    if Decimal.maxDigits < (Decimal.natDigits n.natAbs).length then some .longInteger else none
  | _ => none

namespace Loaded

/-- What is written of a document: its fields one by one, also where keys become the same text. -/
def written (document : Loaded) : Json :=
  document.assemble Scalar.jsonKey .obj

/-- The JSON text of a document. The first scalar that has none answers for the whole. -/
def dump (layout : Json.Layout) (document : Loaded) : Except DumpError String :=
  match document.scalars.findSome? Scalar.dumpError? with
  | some error => .error error
  | none => .ok (document.written.print layout)

end Loaded

end Toolgate
