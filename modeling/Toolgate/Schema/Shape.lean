import Toolgate.Json.Display
import Toolgate.Pattern.Basic

/-!
# Shapes

A shape says which JSON values are accepted at some place: texts within limits, numbers within
bounds, one of several values, lists, tables, records with named fields, and alternatives of
these. A shape may carry a description that does not change what it accepts.

## Main definitions

* `Shape`: the shapes
* `Shape.unite`, `Shape.orNull`: alternatives, flattened and without duplicates
* `Shape.label`: how a shape is named among alternatives
* `Shape.isSound`: can values be checked against the shape at all?
-/

namespace Toolgate.Schema

/-- A number as it is written in a description. -/
inductive Amount where
  | whole (n : Int)
  | real (x : Float)

/-- The number of a JSON value; booleans are none. -/
def Amount.ofJson? : Json → Option Amount
  | .int n => some (.whole n)
  | .float x => some (.real x)
  | _ => none

/-- The JSON value of a number. -/
def Amount.toJson : Amount → Json
  | .whole n => .int n
  | .real x => .float x

/-- One more than the greatest length of a text: `2^64`. -/
def lengthLimit : Nat := 18446744073709551616

/-- Is the bound a whole number, as bounds on integers must be? A floating-point number must also
fit a signed machine word. -/
def Amount.isWhole : Amount → Bool
  | .whole _ => true
  | .real x => (Decimal.wholeValue? x).any Decimal.fitsWord

/-- Is the bound within the range of floating-point numbers? -/
def Amount.isReal : Amount → Bool
  | .whole n => (Decimal.ofInt? n).isSome
  | .real _ => true

/-- A pattern with the text it was read from. -/
structure WrittenPattern where
  text : String
  pattern : Pattern

/-- Limits on a text; its length is counted in characters. -/
structure TextLimits where
  minLength : Option Nat := none
  maxLength : Option Nat := none
  pattern : Option WrittenPattern := none

/-- Does the text have no limits? -/
def TextLimits.isFree (limits : TextLimits) : Bool :=
  limits.minLength.isNone && limits.maxLength.isNone && limits.pattern.isNone

/-- Do two texts have the same limits? -/
def TextLimits.same (a b : TextLimits) : Bool :=
  a.minLength == b.minLength && a.maxLength == b.maxLength
    && a.pattern.map (·.text) == b.pattern.map (·.text)

/-- Bounds on a number. -/
structure Bounds where
  atLeast : Option Amount := none
  above : Option Amount := none
  atMost : Option Amount := none
  below : Option Amount := none
  multipleOf : Option Amount := none

/-- The bounds that are given. -/
def Bounds.amounts (bounds : Bounds) : List Amount :=
  bounds.atLeast.toList ++ bounds.above.toList ++ bounds.atMost.toList ++ bounds.below.toList
    ++ bounds.multipleOf.toList

/-- Does the number have no bounds? -/
def Bounds.isFree (bounds : Bounds) : Bool :=
  bounds.amounts.isEmpty

/-- A field of a record: its name inside the record and on the wire, and what is said of it. -/
structure Field (α : Type) where
  name : String
  wire : String
  required : Bool
  description : String
  shape : α

/-- Which values are accepted. -/
inductive Shape where
  | anything
  | text (limits : TextLimits)
  /-- One of several values. -/
  | choice (members : List Json)
  /-- A text that is a timestamp with an offset from UTC. -/
  | timestamp
  | whole (bounds : Bounds)
  | number (bounds : Bounds)
  | truth
  | list (item : Shape)
  /-- An object whose keys are free and whose values have a shape. -/
  | table (value : Shape)
  /-- An object with declared fields; other fields are kept as they are. -/
  | record (name : String) (fields : List (Field Shape))
  | either (variants : List Shape)
  /-- Null, or a value of the shape. -/
  | optional (inner : Shape)
  | described (text : String) (inner : Shape)
  deriving Inhabited

namespace Shape

/-- Equality of the members of choices: by value and type, in whatever order. -/
def sameMembers (xs ys : List Json) : Bool :=
  xs.all (fun x => ys.any (sameMember x)) && ys.all (fun y => xs.any (sameMember y))
where
  /-- Equality of values of one type. -/
  sameMember : Json → Json → Bool
    | .null, .null => true
    | .bool a, .bool b => a == b
    | .int m, .int n => m == n
    | .float x, .float y => x == y
    | .str s, .str t => s == t
    | _, _ => false

mutual

/-- Are two shapes the same by construction? Records, shapes with a description and numbers with
bounds are each of their own kind. -/
def same : Shape → Shape → Bool
  | anything, anything => true
  | text a, text b => a.same b
  | choice xs, choice ys => sameMembers xs ys
  | timestamp, timestamp => true
  | whole a, whole b => a.isFree && b.isFree
  | number a, number b => a.isFree && b.isFree
  | truth, truth => true
  | list a, list b => a.same b
  | table a, table b => a.same b
  | either xs, either ys => xs.length == ys.length && sameEach xs ys
  | optional a, optional b => a.same b
  | _, _ => false

/-- Is each of the shapes the same as one of the others? -/
def sameEach : List Shape → List Shape → Bool
  | [], _ => true
  | x :: xs, ys => sameSome x ys && sameEach xs ys

/-- Is the shape the same as one of the others? -/
def sameSome (x : Shape) : List Shape → Bool
  | [] => false
  | y :: ys => x.same y || sameSome x ys

end

/-- The shapes without those that are the same as an earlier one. -/
def distinctFrom (kept : List Shape) : List Shape → List Shape
  | [] => []
  | s :: rest =>
    if kept.any (·.same s) then distinctFrom kept rest
    else s :: distinctFrom (kept ++ [s]) rest

/-- The variants that a shape brings into an alternative. -/
def variants : Shape → List Shape
  | either xs => xs
  | optional (either xs) => xs
  | optional s => [s]
  | s => [s]

/-- Does the shape itself say that null is accepted? -/
def isOptional : Shape → Bool
  | optional _ => true
  | _ => false

/-- Alternatives; one alone is itself. -/
def oneOf : List Shape → Shape
  | [s] => s
  | xs => either xs

/-- The shape of values that have one of several shapes. Alternatives among them are taken apart
and duplicates left out. -/
def unite (shapes : List Shape) : Shape :=
  let core := oneOf (distinctFrom [] (shapes.flatMap variants))
  if shapes.any isOptional then optional core else core

/-- The shape of values that are null or have the shape. -/
def orNull : Shape → Shape
  | optional s => optional s
  | s => optional s

/-- The shape with a description, unless that is empty. -/
def withDescription (s : Shape) (description : String) : Shape :=
  if description.isEmpty then s else described description s

mutual

/-- How a shape is named among alternatives. -/
def label : Shape → String
  | anything => "any"
  | text limits => if limits.isFree then "str" else "constrained-str"
  | choice members => "literal[" ++ String.intercalate "," (Json.shownItems members) ++ "]"
  | timestamp => "function-after[_aware_timestamp(), str]"
  | whole bounds => if bounds.isFree then "int" else "constrained-int"
  | number bounds => if bounds.isFree then "float" else "constrained-float"
  | truth => "bool"
  | list s => "list[" ++ s.label ++ "]"
  | table s => "dict[str," ++ s.label ++ "]"
  | record name _ => name
  | either xs => "union[" ++ String.intercalate "," (labels xs) ++ "]"
  | optional s => "nullable[" ++ s.label ++ "]"
  | described _ s => s.label

/-- The names of several shapes. -/
def labels : List Shape → List String
  | [] => []
  | s :: rest => s.label :: labels rest

end

mutual

/-- Can values be checked against the shape? Bounds on integers must be whole and lengths must fit
a machine word. A record stands for itself: it is only made of sound fields. -/
def isSound : Shape → Bool
  | text limits => limits.minLength.all (· < lengthLimit) && limits.maxLength.all (· < lengthLimit)
  | whole bounds => bounds.amounts.all Amount.isWhole
  | number bounds => bounds.amounts.all Amount.isReal
  | list s => s.isSound
  | table s => s.isSound
  | either xs => allSound xs
  | optional s => s.isSound
  | described _ s => s.isSound
  | _ => true

/-- Can values be checked against each of the shapes? -/
def allSound : List Shape → Bool
  | [] => true
  | s :: rest => s.isSound && allSound rest

end

end Shape

end Toolgate.Schema
