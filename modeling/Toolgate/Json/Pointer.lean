import Toolgate.Json.Basic
import Toolgate.Naming.Attribute
import Toolgate.Text.Quoted

/-!
# References into a document

A reference begins with `#` and names the steps from the root of a document, each after a slash.
What stands between the `#` and the first slash does not matter. A step into an object is a key,
with `~1` for a slash and `~0` for a tilde; a step into an array is an index in decimal digits of
any script.

## Main definitions

* `Place`, `Node`: where a value stands, and a value with its place
* `Node.resolve`: the node a reference leads to
* `PointerError`: an index that cannot be read as a number
-/

namespace Toolgate

/-- A step from a value into one of its parts. -/
inductive Step where
  | key (name : String)
  | index (n : Nat)
  deriving Repr, DecidableEq

/-- What a place is reached from: the document, or a value given beside it. -/
inductive Origin where
  | document
  | given
  deriving Repr, DecidableEq

/-- Where a value stands: what it is reached from, and the steps in reverse. -/
structure Place where
  origin : Origin
  steps : List Step
  deriving Repr, DecidableEq

/-- The place one step further. -/
def Place.step (place : Place) (step : Step) : Place :=
  { place with steps := step :: place.steps }

/-- A value and its place. A value that was altered has lost its place, but its parts stand where
they stood. -/
structure Node where
  value : Json
  place : Place
  altered : Bool := false

/-- Why the index of an array could not be read. -/
inductive PointerError where
  /-- The digits are of a kind that has no decimal value. -/
  | notDecimal (step : String)
  /-- There are more digits than an integer may have. -/
  | tooLong (digits : Nat)

/-- The wording of an error; of an unreadable index at most 200 characters are shown. -/
def PointerError.message : PointerError → String
  | .notDecimal step =>
    "invalid literal for int() with base 10: "
      ++ String.ofList ((Text.quoted step).toList.take 200)
  | .tooLong digits => Decimal.tooManyDigits digits

/-- The values of decimal digits up to the first character that is none, and whether there was
such a character. -/
def decimalPart : List Char → List Nat × Bool
  | [] => ([], false)
  | c :: rest =>
    match Text.decimalValue c with
    | none => ([], true)
    | some d =>
      let (digits, stopped) := decimalPart rest
      (d :: digits, stopped)

/-- The index that a step writes; none when it is not made of digits. -/
def readIndex (step : String) : Except PointerError (Option Nat) :=
  let cs := step.toList
  if cs.isEmpty || !cs.all Text.isNumeral then .ok none
  else
    let (digits, stopped) := decimalPart cs
    if Decimal.maxDigits < digits.length then .error (.tooLong digits.length)
    else if stopped then .error (.notDecimal step)
    else .ok (some (digits.foldl (fun n d => n * 10 + d) 0))

namespace Node

/-- The root of a document. -/
def root (document : Json) : Node :=
  ⟨document, ⟨.document, []⟩, false⟩

/-- A value given beside a document. -/
def ofValue (value : Json) : Node :=
  ⟨value, ⟨.given, []⟩, false⟩

/-- The part of a node that a key leads to. -/
def get? (node : Node) (key : String) : Option Node :=
  (node.value.get? key).map fun v => ⟨v, node.place.step (.key key), false⟩

/-- The items of a node from the `n`-th on, given their values. -/
def itemsFrom (node : Node) (n : Nat) : List Json → List Node
  | [] => []
  | v :: rest => ⟨v, node.place.step (.index n), false⟩ :: node.itemsFrom (n + 1) rest

/-- The items of a node that is an array. -/
def items (node : Node) : List Node :=
  match node.value with
  | .arr items => node.itemsFrom 0 items
  | _ => []

/-- One step of a reference. -/
def follow (node : Node) (step : String) : Except PointerError (Option Node) :=
  match node.value with
  | .obj _ => .ok (node.get? step)
  | .arr items => do
    match ← readIndex step with
    | none => pure none
    | some n => pure ((items[n]?).map fun v => ⟨v, node.place.step (.index n), false⟩)
  | _ => .ok none

/-- The steps of a reference in turn. -/
def followAll (node : Node) : List String → Except PointerError (Option Node)
  | [] => .ok (some node)
  | step :: rest => do
    match ← node.follow step with
    | none => pure none
    | some next => next.followAll rest

end Node

/-- The steps of a reference with their escapes resolved; none when it does not begin with `#`. -/
def refSteps? (ref : String) : Option (List String) :=
  match ref.toList with
  | '#' :: rest =>
    some (((Text.splitAt '/' rest).drop 1).map fun cs => String.ofList (Naming.unescapeStep cs))
  | _ => none

/-- The node of a document that a reference leads to. -/
def resolveRef (document : Json) (ref : String) : Except PointerError (Option Node) :=
  match refSteps? ref with
  | none => .ok none
  | some steps => (Node.root document).followAll steps

end Toolgate
