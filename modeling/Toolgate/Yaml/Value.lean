import Toolgate.Yaml.Tree

/-!
# Values of YAML texts

The value that a tree stands for. A mapping may take over the fields of others under the key `<<`;
its own fields come after those and replace them. Keys are scalars, those that are equal as values
are one key, and the last value of a key counts.

A tree with several faults answers for the outermost, and for the first of those.

## Main definitions

* `Tree.build`: the value of a tree, and what a mapping takes over from it
* `read`: the value of a text
-/

namespace Toolgate.Yaml

/-- A fault, and how many collections around it lie within the tree that has it. -/
structure Failure where
  depth : Nat
  fault : Fault

/-- A value, or what is wrong with it. -/
abbrev Outcome := Except Failure Loaded

/-- What is known of a tree. -/
structure Built where
  value : Outcome
  /-- The fields of a mapping, with those it takes over. -/
  fields? : Option (List (Outcome × Outcome))
  /-- The fields that a mapping takes over from the tree. -/
  merged? : Option (List (Outcome × Outcome))

/-- A fault that is not inside a further collection. -/
def Outcome.fault (fault : Fault) : Outcome :=
  .error ⟨0, fault⟩

/-- The one of two failures that answers for both. -/
def Failure.foremost (a b : Failure) : Failure :=
  if b.depth < a.depth then b else a

/-- All values, or the foremost failure. -/
def collect : List Outcome → Except Failure (List Loaded)
  | [] => .ok []
  | first :: rest =>
    match first, collect rest with
    | .ok v, .ok vs => .ok (v :: vs)
    | .ok _, .error e => .error e
    | .error e, .ok _ => .error e
    | .error e, .error f => .error (e.foremost f)

/-- The value of a collection, whose parts lie one level deeper. -/
def gathered (parts : List Outcome) (value : List Loaded → Loaded) : Outcome :=
  match collect parts with
  | .ok vs => .ok (value vs)
  | .error e => .error { e with depth := e.depth + 1 }

/-! ## Fields -/

/-- A field put among others: in the place of one with the same key, else at the end. -/
def setPair (key : Scalar) (value : Loaded) : List (Scalar × Loaded) → List (Scalar × Loaded)
  | [] => [(key, value)]
  | (k, v) :: rest =>
    if k.isSameKey key then (k, value) :: rest else (k, v) :: setPair key value rest

/-- Fields from keys, which are scalars, and values in turn. -/
def pairUp : List Loaded → List (Scalar × Loaded)
  | .scalar key :: value :: rest => (key, value) :: pairUp rest
  | _ => []

/-- The mapping of keys and values in turn. -/
def mappingOf (parts : List Loaded) : Loaded :=
  .mapping ((pairUp parts).foldl (fun done (key, value) => setPair key value done) [])

/-- A field as it is written: the kind of its key, its key, and its value. -/
abbrev Written := Tag × Outcome × Built

/-- The fields of a mapping: those it takes over, in the order they are taken, and its own. -/
def allFields (written : List Written) : Option (List (Outcome × Outcome)) := do
  let taken ← (written.filter fun (tag, _, _) => tag == .merge).mapM fun (_, _, value) =>
    value.merged?
  let own := (written.filter fun (tag, _, _) => tag != .merge).map fun (_, key, value) =>
    (key, value.value)
  some (taken.flatten ++ own)

/-- The value of a mapping of a given kind. -/
def mappingValue (tag : Tag) (fields? : Option (List (Outcome × Outcome))) : Outcome :=
  match tag, fields? with
  | .mapping, some fields => gathered (fields.flatMap fun (key, value) => [key, value]) mappingOf
  | .mapping, none => .error ⟨1, .malformed⟩
  | _, _ => .fault .malformed

/-- The value of a sequence of a given kind. -/
def sequenceValue (tag : Tag) (items : List Built) : Outcome :=
  match tag with
  | .sequence => gathered (items.map (·.value)) .sequence
  | _ => .fault .malformed

/-! ## Trees -/

/-- The kind of a tree. -/
def Tree.tag : Tree → Tag
  | .scalar tag _ => tag
  | .sequence tag _ => tag
  | .mapping tag _ => tag

/-- The value of a scalar. -/
def scalarOutcome (tag : Tag) (text : String) : Outcome :=
  match scalarValue tag text with
  | .ok s => .ok (.scalar s)
  | .error fault => .fault fault

/-- The value of a tree as a key. The equals sign stands for itself, and a collection is no key. -/
def Tree.key : Tree → Outcome
  | .scalar .equals text => .ok (.scalar (.text text))
  | .scalar tag text => scalarOutcome tag text
  | _ => .fault .malformed

mutual

/-- What is known of a tree. From a sequence of mappings the last is taken over first. -/
def Tree.build : Tree → Built
  | .scalar tag text => ⟨scalarOutcome tag text, none, none⟩
  | .sequence tag items =>
    let parts := buildItems items
    ⟨sequenceValue tag parts, none, (parts.reverse.mapM Built.fields?).map List.flatten⟩
  | .mapping tag pairs =>
    let fields? := allFields (buildFields pairs)
    ⟨mappingValue tag fields?, fields?, fields?⟩

/-- What is known of each item. -/
def buildItems : List Tree → List Built
  | [] => []
  | item :: rest => item.build :: buildItems rest

/-- What is known of each field. -/
def buildFields : List (Tree × Tree) → List Written
  | [] => []
  | (key, value) :: rest => (key.tag, key.key, value.build) :: buildFields rest

end

/-- The value of a text; null for an empty one. -/
def read (text : String) : Except Fault Loaded := do
  match ← Tree.read text with
  | none => .ok (.scalar .null)
  | some tree => tree.build.value.mapError (·.fault)

end Toolgate.Yaml
