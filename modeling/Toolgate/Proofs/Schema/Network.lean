import Toolgate.Proofs.Result
import Toolgate.Schema.Translation

/-!
# Translation over a network of nodes

A document in memory is a network: a node may stand in several others, and even in itself, as the
child of a schema may be the schema. Here the translation is told for such networks. One turn
decides what becomes of a node; all further nodes are handed to a translation given from outside, so
that one body serves for a recursion of limited depth and for one that always ends.

A branch of the recursion keeps the reference texts it is following and the nodes it has entered. A
copy of a target, made to hold the description beside a reference, is a new node each time: it is
none of those that were entered, and is not noted among them.

## Main definitions

* `Network`: nodes with what stands in them
* `Call`: a node to be translated, with what its branch has met
* `Network.turn`: what becomes of a node; `Network.callees`: the calls that it makes
* `Network.step`: the form of a node, given those of its callees
* `Network.translateWithin`: the translation with calls nested no deeper than a given number

## Implementation notes

`translate` hands out the texts that may still be followed and descends along the values of a
document; that it is the translation over the network of a document is shown elsewhere.
-/

namespace Toolgate.Schema

/-- What stands in a node: nothing, items, or fields. -/
inductive Contents (ν : Type) where
  | nothing
  | items (nodes : List ν)
  | fields (nodes : List (String × ν))

/-- The nodes that stand in a node. -/
def Contents.nodes {ν : Type} : Contents ν → List ν
  | nothing => []
  | items nodes => nodes
  | fields nodes => nodes.map Prod.snd

/-- Nodes with what stands in them. A node may stand in any node, itself included. -/
structure Network (ν ι : Type) where
  /-- The node that references start from. -/
  root : ν
  identity : ν → ι
  contents : ν → Contents ν
  /-- What a node is read as where a keyword asks for a value and not for a schema. -/
  value : ν → Json

/-- A node to be translated, and what was met on the way to it. -/
structure Call (ν ι : Type) where
  /-- The reference texts that are being followed, the latest first. -/
  resolving : List String
  /-- The nodes that are being translated, the latest first. -/
  active : List ι
  node : ν
  /-- The description that was put into a copy of the node; nothing for the node itself. -/
  noted : Option Json

/-- The call for a node that nothing was met on the way to. -/
def Call.start {ν : Type} (ι : Type) (node : ν) : Call ν ι :=
  ⟨[], [], node, none⟩

/-- What the keywords of a node ask for, with the nodes that are to be translated for it. -/
inductive Plan (ν : Type) where
  | done (result : Except TranslationError Form)
  | union (variants : List ν)
  | merged (members : List ν)
  | list (item : ν)
  | object (required : List String) (properties : List (String × ν))
  | table (value : ν)

namespace Plan

variable {ν : Type}

/-- The nodes that are to be translated. -/
def parts : Plan ν → List ν
  | done _ => []
  | union variants => variants
  | merged members => members
  | list item => [item]
  | object _ properties => properties.map Prod.snd
  | table value => [value]

/-- Nodes under numbered names; the node at index `n` is called after the number `n + 1`. -/
def numbered (name : String) (n : Nat) : List ν → List (ν × String)
  | [] => []
  | node :: rest => (node, name ++ Decimal.natText (n + 1)) :: numbered name (n + 1) rest

/-- The nodes that are to be translated, with what they are called. -/
def called (name : String) : Plan ν → List (ν × String)
  | done _ => []
  | union variants => numbered (name ++ "Option") 0 variants
  | merged members => numbered (name ++ "Part") 0 members
  | list item => [(item, name ++ "Item")]
  | object _ properties => properties.map fun (key, node) => (node, name ++ "_" ++ key)
  | table value => [(value, name ++ "Value")]

/-- The form that is made of the forms of the parts. -/
def assemble (name : String) (forms : List Form) : Plan ν → Except TranslationError Form
  | done result => result
  | union _ => .ok (unitedForm forms)
  | merged _ => .ok (mergedForm name forms)
  | list _ => .ok ⟨.array, .list (forms.headD default).describedShape, "", []⟩
  | object required properties => .ok <| .ofMembers name <|
      (properties.zip forms).map fun ((key, _), form) => ⟨key, required.contains key, form⟩
  | table _ => .ok ⟨.map, .table (forms.headD default).describedShape, "", []⟩

end Plan

/-- What becomes of a node. -/
inductive Turn (ν ι : Type) where
  /-- It is settled without its keywords. -/
  | settled (result : Except TranslationError Form)
  /-- A reference of the given name is followed to its target. -/
  | follow (name : String) (callee : Call ν ι)
  /-- Its keywords are carried out. -/
  | enter (plan : Plan ν)

/-- Why there is no form. -/
inductive Halt where
  | fault (cause : TranslationError)
  /-- The calls were nested too deep. -/
  | tooDeep

/-- The forms of nodes in order, up to the first that has none. -/
def formsOf {ν ε : Type} (translate : ν → String → Except ε Form) :
    List (ν × String) → Except ε (List Form)
  | [] => .ok []
  | (node, name) :: rest =>
    match translate node name with
    | .error cause => .error cause
    | .ok form => (formsOf translate rest).map (form :: ·)

/-- The form that a plan comes to, before the annotations of its node. -/
def Plan.form {ν : Type} (translate : ν → String → Except Halt Form) (name : String)
    (plan : Plan ν) : Except Halt Form := do
  let forms ← formsOf translate (plan.called name)
  (plan.assemble name forms).mapError .fault

namespace Network

variable {ν ι : Type} (net : Network ν ι)

/-! ## Reading nodes -/

/-- Is the node an object? -/
def isObject (node : ν) : Bool :=
  match net.contents node with
  | .fields _ => true
  | _ => false

/-- Is something in the node, or is it neither null, false nor zero? -/
def truthy (node : ν) : Bool :=
  match net.contents node with
  | .items nodes => !nodes.isEmpty
  | .fields nodes => !nodes.isEmpty
  | .nothing => (net.value node).truthy

/-- The fields of a node as values. -/
def valuesOf (node : ν) : List (String × Json) :=
  match net.contents node with
  | .fields nodes => nodes.map fun (key, part) => (key, net.value part)
  | _ => []

/-- The text of a reference, when the node is one. -/
def refText? (node : ν) : Option String :=
  match lookupField "$ref" (net.valuesOf node) with
  | some (.str ref) => some ref
  | _ => none

/-- One step of a reference. -/
def follow (node : ν) (step : String) : Except PointerError (Option ν) :=
  match net.contents node with
  | .fields nodes => .ok (lookupField step nodes)
  | .items nodes => do
    match ← readIndex step with
    | none => pure none
    | some n => pure nodes[n]?
  | .nothing => .ok none

/-- The steps of a reference in turn. -/
def followAll (node : ν) : List String → Except PointerError (Option ν)
  | [] => .ok (some node)
  | step :: rest => do
    match ← net.follow node step with
    | none => pure none
    | some next => followAll next rest

/-- The node that a reference leads to. -/
def resolve (ref : String) : Except PointerError (Option ν) :=
  match refSteps? ref with
  | none => .ok none
  | some steps => net.followAll net.root steps

/-- The nodes of a keyword whose value is a list that is not empty. -/
def listed? (nodes : List (String × ν)) (key : String) : Option (List ν) :=
  match (lookupField key nodes).map net.contents with
  | some (.items (node :: rest)) => some (node :: rest)
  | _ => none

/-- What an `array` node asks for. -/
def listPlan (nodes : List (String × ν)) : Plan ν :=
  match (lookupField "items" nodes).filter net.truthy with
  | some item => .list item
  | none => .done (.ok ⟨.array, .list .anything, "", []⟩)

/-- What an `object` node asks for. -/
def objectPlan (nodes : List (String × ν)) (values : List (String × Json)) : Plan ν :=
  match (lookupField "properties" nodes).map net.contents with
  | some (.fields (first :: rest)) =>
    .object (requiredNames (said values "required")) (first :: rest)
  | _ =>
    match (lookupField "additionalProperties" nodes).filter net.isObject with
    | some part => .table part
    | none => .done (.ok .looseObject)

/-- What the keywords of a node ask for, given its fields as nodes and as values. -/
def plan (nodes : List (String × ν)) (values : List (String × Json)) : Plan ν :=
  match net.listed? nodes "oneOf", net.listed? nodes "anyOf", net.listed? nodes "allOf" with
  | some variants, _, _ => .union variants
  | none, some variants, _ => .union variants
  | none, none, some members => .merged members
  | none, none, none =>
    match typeNamed? (said values "type") with
    | none => .done (.ok (.anything ""))
    | some "string" => .done (textForm values)
    | some "integer" => .done (.ok ⟨.integer, .whole (boundsOf values), "", []⟩)
    | some "number" => .done (.ok ⟨.number, .number (boundsOf values), "", []⟩)
    | some "boolean" => .done (.ok ⟨.boolean, .truth, "", []⟩)
    | some "array" => net.listPlan nodes
    | some "object" => net.objectPlan nodes values
    | some _ => .done (.ok (.anything ("Unrecognized type: " ++ (said values "type").display)))

/-! ## Calls -/

/-- The description that is put into a copy of a target; nothing when the target itself is
translated. -/
def noteFor (description : Json) (target : ν) : Option Json :=
  if description.truthy && !(said (net.valuesOf target) "description").truthy then
    some description
  else none

/-- The fields of the node of a call as values, with the description that was put in. -/
def values (call : Call ν ι) : List (String × Json) :=
  match call.noted with
  | none => net.valuesOf call.node
  | some description => setField "description" description (net.valuesOf call.node)

/-- The call for the target of a reference. -/
def followed (call : Call ν ι) (ref : String) (target : ν) : Call ν ι :=
  ⟨ref :: call.resolving, call.active, target,
    net.noteFor (said (net.values call) "description") target⟩

/-- The nodes being translated below the node of a call. -/
def activeBelow (call : Call ν ι) : List ι :=
  if call.noted.isNone then net.identity call.node :: call.active else call.active

/-- The call for a part of the node of a call. -/
def entered (call : Call ν ι) (part : ν) : Call ν ι :=
  ⟨call.resolving, net.activeBelow call, part, none⟩

variable [DecidableEq ι]

/-- What becomes of the node of a call. -/
def turn (call : Call ν ι) : Turn ν ι :=
  match net.contents call.node with
  | .fields nodes =>
    match net.refText? call.node with
    | some ref =>
      if ref ∈ call.resolving then .settled (.ok (.anything ("Circular reference: " ++ ref)))
      else match net.resolve ref with
      | .error cause => .settled (.error (.pointer cause))
      | .ok none => .settled (.ok (.anything ("Ref: " ++ ref)))
      | .ok (some target) =>
        if net.isObject target then .follow (Naming.refName ref) (net.followed call ref target)
        else .settled (.ok (.anything ("Ref: " ++ ref)))
    | none =>
      if call.noted = none ∧ net.identity call.node ∈ call.active then
        .settled (.ok (.anything "Circular schema"))
      else .enter (net.plan nodes (net.values call))
  | _ => .settled (.ok (.anything ""))

/-- The calls that a call makes. -/
def callees (call : Call ν ι) : List (Call ν ι) :=
  match net.turn call with
  | .settled _ => []
  | .follow _ callee => [callee]
  | .enter plan => plan.parts.map (net.entered call)

/-- The form of the node of a call, given those of the calls it makes. -/
def step (translate : Call ν ι → String → Except Halt Form) (call : Call ν ι) (name : String) :
    Except Halt Form :=
  match net.turn call with
  | .settled result => result.mapError .fault
  | .follow called callee => translate callee (if called.isEmpty then name else called)
  | .enter plan =>
    (plan.form (fun part => translate (net.entered call part)) name).map
      (annotated (net.values call))

/-- The form of the node of a call, with calls nested no deeper than `depth`. -/
def translateWithin : Nat → Call ν ι → String → Except Halt Form
  | 0 => fun _ _ => .error .tooDeep
  | depth + 1 => net.step (translateWithin depth)

/-- The fault that a node has by itself. -/
def fault? (call : Call ν ι) : Option TranslationError :=
  match net.turn call with
  | .settled (.error cause) => some cause
  | .enter (.done (.error cause)) => some cause
  | _ => none

end Network

/-! ## One step -/

section
variable {ν ε : Type} {translate : ν → String → Except ε Form} {nodes : List (ν × String)}

theorem formsOf_congr {other : ν → String → Except ε Form}
    (h : ∀ node ∈ nodes, translate node.1 node.2 = other node.1 node.2) :
    formsOf translate nodes = formsOf other nodes := by
  induction nodes with
  | nil => rfl
  | cons node rest ih =>
    obtain ⟨hfirst, hrest⟩ := List.forall_mem_cons.mp h
    rw [formsOf, formsOf, hfirst, ih hrest]

theorem exists_of_formsOf_eq_error {cause : ε} (h : formsOf translate nodes = .error cause) :
    ∃ node ∈ nodes, translate node.1 node.2 = .error cause := by
  induction nodes with
  | nil => cases h
  | cons node rest ih =>
    rw [formsOf] at h
    split at h
    · next hfirst => exact ⟨node, List.mem_cons_self, hfirst.trans (congrArg _ (Except.error.inj h))⟩
    · obtain ⟨other, hother, heq⟩ := ih (map_eq_error.mp h)
      exact ⟨other, List.mem_cons_of_mem _ hother, heq⟩

theorem exists_of_formsOf_eq_ok {forms : List Form} (h : formsOf translate nodes = .ok forms) :
    ∀ node ∈ nodes, ∃ form, translate node.1 node.2 = .ok form := by
  induction nodes generalizing forms with
  | nil => simp
  | cons node rest ih =>
    rw [formsOf] at h
    split at h
    · cases h
    · next form hfirst =>
      obtain ⟨others, hothers, -⟩ := map_eq_ok.mp h
      exact List.forall_mem_cons.mpr ⟨⟨form, hfirst⟩, ih hothers⟩

end

theorem Plan.map_fst_numbered {ν : Type} (name : String) (n : Nat) (nodes : List ν) :
    (Plan.numbered name n nodes).map Prod.fst = nodes := by
  induction nodes generalizing n with
  | nil => rfl
  | cons node rest ih => rw [Plan.numbered, List.map_cons, ih]

theorem Plan.map_fst_called {ν : Type} (name : String) (plan : Plan ν) :
    (plan.called name).map Prod.fst = plan.parts := by
  cases plan with
  | union | merged => exact Plan.map_fst_numbered _ _ _
  | object required properties => simp [Plan.called, Plan.parts]
  | done | list | table => rfl

theorem Plan.mem_parts_of_mem_called {ν : Type} {plan : Plan ν} {name : String}
    {part : ν × String} (h : part ∈ plan.called name) : part.1 ∈ plan.parts :=
  plan.map_fst_called name ▸ List.mem_map_of_mem h

namespace Network

variable {ν ι : Type} [DecidableEq ι] {net : Network ν ι} {call callee : Call ν ι} {name : String}
  {translate : Call ν ι → String → Except Halt Form}

theorem followed_mem_callees {called : String} (hturn : net.turn call = .follow called callee) :
    callee ∈ net.callees call := by
  rw [callees, hturn]
  exact List.mem_singleton_self _

theorem entered_mem_callees {plan : Plan ν} (hturn : net.turn call = .enter plan) {part : ν}
    (hpart : part ∈ plan.parts) : net.entered call part ∈ net.callees call := by
  rw [callees, hturn]
  exact List.mem_map_of_mem hpart

/-- The form of a node depends on those of its callees only. -/
theorem step_congr {other : Call ν ι → String → Except Halt Form}
    (h : ∀ callee ∈ net.callees call, ∀ called, translate callee called = other callee called) :
    net.step translate call name = net.step other call name := by
  unfold step
  split
  · rfl
  · next called callee hturn => exact h callee (followed_mem_callees hturn) _
  · next plan hturn =>
    have hforms : formsOf (fun part => translate (net.entered call part)) (plan.called name) =
        formsOf (fun part => other (net.entered call part)) (plan.called name) :=
      formsOf_congr fun part hpart =>
        h _ (entered_mem_callees hturn (Plan.mem_parts_of_mem_called hpart)) part.2
    rw [Plan.form, Plan.form, hforms]

/-- Where there is no form, the node itself is at fault or one of the calls has none. -/
theorem exists_of_step_eq_error {halt : Halt} (h : net.step translate call name = .error halt) :
    (∃ cause, net.fault? call = some cause ∧ halt = .fault cause) ∨
      ∃ callee ∈ net.callees call, ∃ called, translate callee called = .error halt := by
  unfold step at h
  split at h
  · next result hturn =>
    cases result with
    | error cause => exact .inl ⟨cause, by simp [fault?, hturn], (Except.error.inj h).symm⟩
    | ok form => cases h
  · next called callee hturn => exact .inr ⟨callee, followed_mem_callees hturn, _, h⟩
  · next plan hturn =>
    rcases bind_eq_error.mp (map_eq_error.mp h) with h | ⟨forms, -, h⟩
    · obtain ⟨part, hpart, heq⟩ := exists_of_formsOf_eq_error h
      exact .inr ⟨_, entered_mem_callees hturn (Plan.mem_parts_of_mem_called hpart), _, heq⟩
    · -- Forms of parts can always be put together, so the node has none.
      cases plan with
      | done result =>
        cases result with
        | error cause => exact .inl ⟨cause, by simp [fault?, hturn], (Except.error.inj h).symm⟩
        | ok form => cases h
      | _ => cases h

/-- Where there is a form, the node is without fault and each of the calls has one. -/
theorem of_step_eq_ok {form : Form} (h : net.step translate call name = .ok form) :
    net.fault? call = none ∧
      ∀ callee ∈ net.callees call, ∃ called form, translate callee called = .ok form := by
  unfold step at h
  split at h
  · next result hturn =>
    cases result with
    | error cause => cases h
    | ok form => simp [fault?, callees, hturn]
  · next called callee hturn =>
    simpa [fault?, callees, hturn] using ⟨_, form, h⟩
  · next plan hturn =>
    obtain ⟨inner, hinner, -⟩ := map_eq_ok.mp h
    obtain ⟨forms, hforms, hinner⟩ := bind_eq_ok.mp hinner
    refine ⟨?_, fun callee hcallee => ?_⟩
    · cases plan with
      | done result =>
        cases result with
        | error cause => cases hinner
        | ok form => simp [fault?, hturn]
      | _ => simp [fault?, hturn]
    · rw [callees, hturn] at hcallee
      obtain ⟨part, hpart, rfl⟩ := List.mem_map.mp hcallee
      rw [← plan.map_fst_called name] at hpart
      obtain ⟨pair, hpair, rfl⟩ := List.mem_map.mp hpart
      exact ⟨pair.2, exists_of_formsOf_eq_ok hforms pair hpair⟩

end Network

end Toolgate.Schema
