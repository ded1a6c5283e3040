import Toolgate.Decimal.Binary

/-!
# JSON values

Values as they are exchanged with callers and upstream services, and as API descriptions are
written in. Objects keep the order of their fields, integers have any size and are told apart
from floating-point numbers, and a description read from YAML may hold calendar dates.

## Main definitions

* `Json`: the values
* `Json.get?`, `Json.fields?`, `Json.text?`: parts of a value, when it has the right kind
* `Json.truthy`: is the value neither absent, zero nor empty?
* `Json.same`: equality that ignores the order of fields and compares numbers by value
* `setField`: write a field, in place if it is there and at the end if not
-/

namespace Toolgate

/-- A JSON value. Keys of an object are distinct when it comes from a reader. -/
inductive Json where
  | null
  | bool (b : Bool)
  | int (n : Int)
  | float (x : Float)
  | str (s : String)
  /-- A calendar date or timestamp, in its ISO 8601 form. -/
  | date (text : String)
  | arr (items : List Json)
  | obj (fields : List (String × Json))
  deriving Inhabited

/-- The value of a key in a list of fields. -/
def lookupField {β : Type} (key : String) : List (String × β) → Option β
  | [] => none
  | (k, v) :: rest => if k == key then some v else lookupField key rest

/-- Write a field: in its place if the key is there, else at the end. -/
def setField {β : Type} (key : String) (value : β) : List (String × β) → List (String × β)
  | [] => [(key, value)]
  | (k, v) :: rest =>
    if k == key then (k, value) :: rest else (k, v) :: setField key value rest

namespace Json

/-- The value of a key, when the value is an object that has it. -/
def get? (v : Json) (key : String) : Option Json :=
  match v with
  | .obj fields => lookupField key fields
  | _ => none

/-- The value of a key, or null. -/
def getD (v : Json) (key : String) : Json :=
  (v.get? key).getD .null

/-- The fields of an object. -/
def fields? : Json → Option (List (String × Json))
  | .obj fields => some fields
  | _ => none

/-- The items of an array. -/
def items? : Json → Option (List Json)
  | .arr items => some items
  | _ => none

/-- The characters of a string. -/
def text? : Json → Option String
  | .str s => some s
  | _ => none

/-- Is the value an object? -/
def isObject : Json → Bool
  | .obj _ => true
  | _ => false

/-- Is the value null? -/
def isNull : Json → Bool
  | .null => true
  | _ => false

/-- Is the value neither null, false, zero nor empty? -/
def truthy : Json → Bool
  | .null => false
  | .bool b => b
  | .int n => n != 0
  | .float x => !(x == 0)
  | .str s => !s.isEmpty
  | .date _ => true
  | .arr items => !items.isEmpty
  | .obj fields => !fields.isEmpty

/-- The value, if it is neither null, false, zero nor empty, else `other`. -/
def orElse (v other : Json) : Json :=
  if v.truthy then v else other

/-- The number a value counts as in comparisons: booleans count as zero and one. -/
def number? : Json → Option (Int ⊕ Float)
  | .bool b => some (.inl (if b then 1 else 0))
  | .int n => some (.inl n)
  | .float x => some ((Decimal.wholeValue? x).elim (.inr x) .inl)
  | _ => none

/-- Equality of numbers by value; an undefined number equals nothing. -/
def sameNumber : Int ⊕ Float → Int ⊕ Float → Bool
  | .inl m, .inl n => m == n
  | .inr x, .inr y => x == y
  | _, _ => false

mutual

/-- Equality of values, where numbers and booleans are compared by value and the order of an
object's fields does not matter. -/
def same : Json → Json → Bool
  | .null, .null => true
  | .str s, .str t => s == t
  | .date s, .date t => s == t
  | .arr xs, .arr ys => sameItems xs ys
  | .obj xs, .obj ys => xs.length == ys.length && sameFields xs ys
  | v, w =>
    match v.number?, w.number? with
    | some m, some n => sameNumber m n
    | _, _ => false

/-- Equality item by item. -/
def sameItems : List Json → List Json → Bool
  | [], [] => true
  | x :: xs, y :: ys => same x y && sameItems xs ys
  | _, _ => false

/-- Does every field of the first list have an equal one in the second? -/
def sameFields : List (String × Json) → List (String × Json) → Bool
  | [], _ => true
  | (k, v) :: rest, ys =>
    (match lookupField k ys with
    | some w => same v w
    | none => false) && sameFields rest ys

end

end Json

end Toolgate
