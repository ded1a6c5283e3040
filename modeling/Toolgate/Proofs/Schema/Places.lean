import Toolgate.Proofs.Schema.References

/-!
# Schemas in other places

Where a schema stands matters for one thing only: that a schema inside itself is found out. So a
schema has the same form in two documents when it says the same in both, its references lead to
schemas that say the same, and two of these stand in one place in the one document exactly when they
do in the other.

## Main definitions

* `IsPlacing`, `IsFaithful`: a correspondence between the places of two documents
* `IsTwin`: nodes that say the same in places that correspond
* `Call.IsTwin`: calls for such nodes on branches that correspond

## Main statements

* `plan_areTwins`: nodes that say the same ask for parts that do
* `Plan.Alike.form_eq`: plans that are alike make the same form of the same forms
* `translate_eq_of_isTwin`: the form of a schema does not depend on its place
-/

namespace Toolgate.Schema

open Relation (ReflTransGen)

/-! ## Nodes that say the same -/

/-- Where places of two documents correspond, their parts do. -/
def IsPlacing (At : Place → Place → Prop) : Prop :=
  ∀ place place' step, At place place' → At (place.step step) (place'.step step)

/-- Places that correspond are the same in the one document exactly when they are in the other. -/
def IsFaithful (At : Place → Place → Prop) : Prop :=
  ∀ place place' other other', At place place' → At other other' →
    (place = other ↔ place' = other')

theorem isPlacing_eq : IsPlacing (· = ·) := fun _ _ step h => congrArg (Place.step · step) h

theorem isFaithful_eq : IsFaithful (· = ·) := fun _ _ _ _ h h' => by rw [h, h']

/-- The nodes say the same, and their places correspond. -/
structure IsTwin (At : Place → Place → Prop) (node other : Node) : Prop where
  value : other.value = node.value
  place : At node.place other.place

/-- Fields that correspond. -/
def AreTwins (At : Place → Place → Prop) : List (String × Node) → List (String × Node) → Prop :=
  List.Forall₂ fun field other => field.1 = other.1 ∧ IsTwin At field.2 other.2

section
variable {At : Place → Place → Prop} (hplacing : IsPlacing At)

section
variable {node other : Node} (h : IsTwin At node other)
include hplacing h

theorem IsTwin.itemsFrom (n : ℕ) (items : List Json) :
    List.Forall₂ (IsTwin At) (node.itemsFrom n items) (other.itemsFrom n items) := by
  induction items generalizing n with
  | nil => exact .nil
  | cons v rest ih => exact .cons ⟨rfl, hplacing _ _ (.index n) h.place⟩ (ih (n + 1))

theorem IsTwin.items : List.Forall₂ (IsTwin At) node.items other.items := by
  rw [Node.items, Node.items, h.value]
  split
  · exact h.itemsFrom hplacing 0 _
  · exact .nil

theorem IsTwin.fieldNodes :
    AreTwins At (Catalog.fieldNodes node) (Catalog.fieldNodes other) := by
  rw [Catalog.fieldNodes, Catalog.fieldNodes, h.value]
  split
  · rw [AreTwins, List.forall₂_map_left_iff, List.forall₂_map_right_iff]
    exact List.forall₂_same.mpr fun field _ => ⟨rfl, rfl, hplacing _ _ _ h.place⟩
  · exact .nil

theorem IsTwin.get? (key : String) : Option.Rel (IsTwin At) (node.get? key) (other.get? key) := by
  rw [Node.get?, Node.get?, h.value]
  cases node.value.get? key with
  | none => exact .none
  | some v => exact .some ⟨rfl, hplacing _ _ (.key key) h.place⟩

end

theorem AreTwins.lookupField {fields others : List (String × Node)} (h : AreTwins At fields others)
    (key : String) :
    Option.Rel (IsTwin At) (lookupField key fields) (lookupField key others) := by
  induction h with
  | nil => exact .none
  | @cons field other _ _ hfield _ ih =>
    rw [Toolgate.lookupField, Toolgate.lookupField, hfield.1]
    split
    · exact .some hfield.2
    · exact ih

/-! ## What twins ask for -/

section
variable {document : Json} {fields others : List (String × Node)}
  {values values' : List (String × Json)} (h : AreTwins At fields others)
include hplacing h

theorem listed?_areTwins (key : String) : Option.Rel (List.Forall₂ (IsTwin At))
    ((Network.ofDocument document).listed? fields key)
    ((Network.ofDocument document).listed? others key) := by
  rw [Network.listed?, Network.listed?]
  rcases rel_cases (h.lookupField key) with ⟨hnone, hnone'⟩ | ⟨list, list', hlist, hlist', htwin⟩
  · rw [hnone, hnone']
    exact .none
  rw [hlist, hlist', Option.map_some, Option.map_some, contents_ofDocument, contents_ofDocument,
    contentsOf, contentsOf, htwin.value]
  cases list.value with
  | arr items =>
    cases items with
    | nil => exact .none
    | cons v rest => exact .some (htwin.itemsFrom hplacing 0 (v :: rest))
  | _ => exact .none

omit hplacing in
theorem listPlan_areTwins : Plan.Alike (IsTwin At) (fun _ => False)
    ((Network.ofDocument document).listPlan fields)
    ((Network.ofDocument document).listPlan others) := by
  have htruthy (item item' : Node) (h : IsTwin At item item') :
      (Network.ofDocument document).truthy item = (Network.ofDocument document).truthy item' := by
    rw [truthy_ofDocument, truthy_ofDocument, h.value]
  rw [Network.listPlan, Network.listPlan]
  rcases rel_cases (rel_filter (h.lookupField "items") htruthy) with
    ⟨hnone, hnone'⟩ | ⟨item, item', hitem, hitem', htwin⟩
  · rw [hnone, hnone']
    exact .done _
  · rw [hitem, hitem']
    exact .list htwin

omit hplacing in
theorem additional_areTwins : Plan.Alike (IsTwin At) (fun _ => False)
    (((lookupField "additionalProperties" fields).filter
      (Network.ofDocument document).isObject).elim (.done (.ok .looseObject)) .table)
    (((lookupField "additionalProperties" others).filter
      (Network.ofDocument document).isObject).elim (.done (.ok .looseObject)) .table) := by
  have hobject (part part' : Node) (h : IsTwin At part part') :
      (Network.ofDocument document).isObject part =
        (Network.ofDocument document).isObject part' := by
    rw [isObject_ofDocument, isObject_ofDocument, h.value]
  rcases rel_cases (rel_filter (h.lookupField "additionalProperties") hobject) with
    ⟨hnone, hnone'⟩ | ⟨part, part', hpart, hpart', htwin⟩
  · rw [hnone, hnone']
    exact .done _
  · rw [hpart, hpart']
    exact .table htwin

theorem objectPlan_areTwins (values : List (String × Json)) :
    Plan.Alike (IsTwin At) (fun _ => False)
      ((Network.ofDocument document).objectPlan fields values)
      ((Network.ofDocument document).objectPlan others values) := by
  have hundeclared
      (hfields : ∀ first rest, (lookupField "properties" fields).map contentsOf ≠
        some (.fields (first :: rest)))
      (hothers : ∀ first rest, (lookupField "properties" others).map contentsOf ≠
        some (.fields (first :: rest))) :
      Plan.Alike (IsTwin At) (fun _ => False)
        ((Network.ofDocument document).objectPlan fields values)
        ((Network.ofDocument document).objectPlan others values) := by
    rw [objectPlan_of_undeclared document hfields, objectPlan_of_undeclared document hothers]
    exact additional_areTwins h
  rcases rel_cases (h.lookupField "properties") with
    ⟨hnone, hnone'⟩ | ⟨table, table', htable, htable', htwin⟩
  · exact hundeclared (by simp [hnone]) (by simp [hnone'])
  have hfields := htwin.fieldNodes hplacing
  cases hvalue : table.value with
  | obj properties =>
    have hcontents : contentsOf table = .fields (Catalog.fieldNodes table) := by
      rw [contentsOf, hvalue]
    have hcontents' : contentsOf table' = .fields (Catalog.fieldNodes table') := by
      rw [contentsOf, htwin.value, hvalue]
    revert hfields hcontents hcontents'
    generalize Catalog.fieldNodes table = own, Catalog.fieldNodes table' = own'
    intro hfields hcontents hcontents'
    cases hfields with
    | nil => exact hundeclared (by simp [htable, hcontents]) (by simp [htable', hcontents'])
    | cons hfirst hrest =>
      rw [objectPlan_of_declared document (by rw [htable, Option.map_some, hcontents]),
        objectPlan_of_declared document (by rw [htable', Option.map_some, hcontents'])]
      exact .object _ (.cons hfirst hrest)
  | _ =>
    exact hundeclared (by simp [htable, contentsOf, hvalue])
      (by simp [htable', contentsOf, htwin.value, hvalue])

/-- Nodes that say the same ask for parts that do. -/
theorem plan_areTwins (values : List (String × Json)) : Plan.Alike (IsTwin At) (fun _ => False)
    ((Network.ofDocument document).plan fields values)
    ((Network.ofDocument document).plan others values) :=
  Network.alike_plan (fun key _ => listed?_areTwins hplacing h key) (listPlan_areTwins h)
    (objectPlan_areTwins hplacing h values) fun _ _ => rfl

end

end

/-! ## Plans with the same forms -/

section
variable {ν : Type} {translate translate' : ν → String → Except Halt Form} {name : String}

/-- Nodes have the same forms under the same names. -/
def SameCalled (translate translate' : ν → String → Except Halt Form) :
    List (ν × String) → List (ν × String) → Prop :=
  List.Forall₂ fun node other =>
    node.2 = other.2 ∧ translate node.1 node.2 = translate' other.1 node.2

theorem SameCalled.formsOf_eq {nodes others : List (ν × String)}
    (h : SameCalled translate translate' nodes others) :
    formsOf translate nodes = formsOf translate' others := by
  induction h with
  | nil => rfl
  | cons hfirst _ ih => rw [formsOf, formsOf, ← hfirst.1, hfirst.2, ih]

theorem sameCalled_numbered {nodes others : List ν}
    (h : List.Forall₂ (fun node other => ∀ name, translate node name = translate' other name)
      nodes others) (name : String) (n : ℕ) :
    SameCalled translate translate' (Plan.numbered name n nodes) (Plan.numbered name n others) := by
  induction h generalizing n with
  | nil => exact .nil
  | cons hfirst _ ih => exact .cons ⟨rfl, hfirst _⟩ (ih (n + 1))

/-- Plans that are alike make the same form of the same forms of their parts. -/
theorem Plan.Alike.form_eq {plan other : Plan ν}
    (h : Plan.Alike (fun part part' => ∀ name, translate part name = translate' part' name)
      (fun _ => False) plan other) (name : String) :
    plan.form translate name = other.form translate' name := by
  have hform (hcalled : SameCalled translate translate' (plan.called name) (other.called name))
      (hassemble : ∀ forms, plan.assemble name forms = other.assemble name forms) :
      plan.form translate name = other.form translate' name := by
    simp only [Plan.form, hcalled.formsOf_eq, hassemble]
  cases h with
  | done result => rfl
  | union h | merged h => exact hform (sameCalled_numbered h _ 0) fun _ => rfl
  | list h | table h => exact hform (.cons ⟨rfl, h _⟩ .nil) fun _ => rfl
  | @object required properties others h =>
    refine hform ?_ fun forms => ?_
    · rw [SameCalled, Plan.called, Plan.called, List.forall₂_map_left_iff,
        List.forall₂_map_right_iff]
      exact h.imp fun _ _ hproperty =>
        ⟨congrArg (name ++ "_" ++ ·) hproperty.1, hproperty.2 _⟩
    · have hmembers (properties : List (String × ν)) : (Plan.object required properties).assemble
          name forms = .ok (.ofMembers name (((properties.map Prod.fst).zip forms).map fun pair =>
            ⟨pair.1, required.contains pair.1, pair.2⟩)) := by
        rw [List.zip_map_left, List.map_map]
        rfl
      rw [hmembers, hmembers, map_fst_of_forall₂ (h.imp fun _ _ => And.left)]
  | bareList h => exact h.elim

end

/-! ## Calls that correspond -/

/-- Calls for nodes that say the same, on branches that have met the same. -/
structure Call.IsTwin (At : Place → Place → Prop) (call other : Call Node Place) : Prop where
  resolving : other.resolving = call.resolving
  active : List.Forall₂ At call.active other.active
  node : Schema.IsTwin At call.node other.node
  noted : other.noted = call.noted

section
variable {At : Place → Place → Prop} {document document' : Json} {call other : Call Node Place}
  (hplacing : IsPlacing At) (hfaithful : IsFaithful At)

theorem isTwin_start {node node' : Node} (h : IsTwin At node node') :
    Call.IsTwin At (.start Place node) (.start Place node') :=
  ⟨rfl, .nil, h, rfl⟩

theorem valuesOf_isTwin {node node' : Node} (h : IsTwin At node node') :
    (Network.ofDocument document').valuesOf node' = (Network.ofDocument document).valuesOf node := by
  cases hvalue : node.value with
  | obj fields => rw [valuesOf_ofDocument hvalue, valuesOf_ofDocument (h.value.trans hvalue)]
  | _ =>
    simp only [Network.valuesOf, contents_ofDocument, contentsOf, h.value, hvalue]

theorem Call.IsTwin.values_eq (h : call.IsTwin At other) :
    (Network.ofDocument document').values other = (Network.ofDocument document).values call := by
  rw [Network.values, Network.values, h.noted, valuesOf_isTwin h.node]

theorem Call.IsTwin.followed (h : call.IsTwin At other) (ref : String) {target target' : Node}
    (htarget : Schema.IsTwin At target target') :
    ((Network.ofDocument document).followed call ref target).IsTwin At
      ((Network.ofDocument document').followed other ref target') := by
  refine ⟨congrArg (ref :: ·) h.resolving, h.active, htarget, ?_⟩
  rw [Network.followed, Network.followed, h.values_eq, Network.noteFor, Network.noteFor,
    valuesOf_isTwin htarget]

theorem Call.IsTwin.entered (h : call.IsTwin At other) {part part' : Node}
    (hpart : Schema.IsTwin At part part') :
    ((Network.ofDocument document).entered call part).IsTwin At
      ((Network.ofDocument document').entered other part') := by
  refine ⟨h.resolving, ?_, hpart, rfl⟩
  simp only [Network.entered, Network.activeBelow, h.noted]
  split
  · exact .cons h.node.place h.active
  · exact h.active

include hfaithful in
theorem Call.IsTwin.mem_active_iff (h : call.IsTwin At other) :
    other.node.place ∈ other.active ↔ call.node.place ∈ call.active := by
  have hactive := h.active
  revert hactive
  generalize call.active = active, other.active = active'
  intro hactive
  induction hactive with
  | nil => simp
  | cons hfirst _ ih =>
    rw [List.mem_cons, List.mem_cons]
    exact or_congr (hfaithful _ _ _ _ h.node.place hfirst).symm ih

/-- The references that a schema comes to lead to schemas that say the same in both documents. -/
def LeadsToTwins (At : Place → Place → Prop) (document document' : Json) (node : Node) : Prop :=
  ∀ other, ReflTransGen (Leads document) node other → ∀ ref, ref? other = some ref →
    Parallel (Option.Rel (IsTwin At)) (resolveRef document ref) (resolveRef document' ref)

theorem LeadsToTwins.of_leads {node part : Node} (h : LeadsToTwins At document document' node)
    (hleads : Leads document node part) : LeadsToTwins At document document' part :=
  fun other hother => h other (.head hleads hother)

include hplacing in
/-- What the keywords of a node ask for has one form on both branches when its parts have. -/
theorem Call.IsTwin.planForm_eq (h : call.IsTwin At other)
    {translate translate' : Call Node Place → String → Except Halt Form}
    (hparts : ∀ part ∈ schemaParts call.node, ∀ part', Schema.IsTwin At part part' → ∀ name,
      translate ((Network.ofDocument document).entered call part) name =
        translate' ((Network.ofDocument document').entered other part') name)
    (values : List (String × Json)) (name : String) :
    ((Network.ofDocument document).plan (Catalog.fieldNodes call.node) values).form
        (fun part => translate ((Network.ofDocument document).entered call part)) name =
      ((Network.ofDocument document').plan (Catalog.fieldNodes other.node) values).form
        (fun part => translate' ((Network.ofDocument document').entered other part)) name := by
  have halike : Plan.Alike (Schema.IsTwin At) (fun _ => False)
      ((Network.ofDocument document).plan (Catalog.fieldNodes call.node) values)
      ((Network.ofDocument document').plan (Catalog.fieldNodes other.node) values) :=
    plan_areTwins hplacing (h.node.fieldNodes hplacing) values
  refine Plan.Alike.form_eq (halike.imp (fun part hpart part' _ htwin => ?_) fun _ _ => id) name
  exact hparts part (mem_schemaParts_of_isPart (Network.isPart_of_mem_plan hpart)) part' htwin

include hplacing hfaithful in
/-- Calls that correspond come to the same form. -/
theorem translateWithin_eq_of_isTwin (h : call.IsTwin At other)
    (hrefs : LeadsToTwins At document document' call.node) (depth : ℕ) (name : String) :
    (Network.ofDocument document).translateWithin depth call name =
      (Network.ofDocument document').translateWithin depth other name := by
  induction depth generalizing call other name with
  | zero => rfl
  | succ depth ih =>
    rw [Network.translateWithin, Network.translateWithin, Network.step, Network.step]
    rcases schema_cases call.node.value with
      hobject | ⟨fields, ref, hvalue, href⟩ | ⟨fields, hvalue, href⟩
    · rw [turn_of_no_object hobject, turn_of_no_object (h.node.value ▸ hobject)]
    · rw [turn_of_ref hvalue href, turn_of_ref (h.node.value.trans hvalue) href, h.resolving]
      by_cases hcircular : ref ∈ call.resolving
      · rw [if_pos hcircular, if_pos hcircular]
      rw [if_neg hcircular, if_neg hcircular]
      have href? := ref?_of_lookupField hvalue href
      rcases (hrefs _ .refl ref href?).cases with
        ⟨cause, herror, herror'⟩ | ⟨found, found', hok, hok', hfound⟩
      · rw [herror, herror']
      cases hfound with
      | none => rw [hok, hok']
      | @some target target' htwin =>
        rw [hok, hok']
        dsimp only
        rw [htwin.value]
        by_cases hobject : target.value.isObject = true
        · rw [if_pos hobject, if_pos hobject]
          exact ih (h.followed ref htwin) (hrefs.of_leads (.reference href? hok)) _
        · rw [if_neg hobject, if_neg hobject]
    · have hcircular_iff : other.noted = none ∧ other.node.place ∈ other.active ↔
          call.noted = none ∧ call.node.place ∈ call.active := by
        rw [h.noted, h.mem_active_iff hfaithful]
      rw [turn_of_no_ref hvalue href, turn_of_no_ref (h.node.value.trans hvalue) href]
      by_cases hcircular : call.noted = none ∧ call.node.place ∈ call.active
      · rw [if_pos hcircular, if_pos (hcircular_iff.mpr hcircular)]
      rw [if_neg hcircular, if_neg (mt hcircular_iff.mp hcircular), h.values_eq]
      refine congrArg (Except.map _) (h.planForm_eq hplacing (fun part hpart part' htwin => ?_) _ _)
      have hleads : Leads document call.node part :=
        .part (ref?_eq_none_of_lookupField hvalue href) hpart
      exact ih (h.entered htwin) (hrefs.of_leads hleads)

section
variable {nodes nodes' : List Node} {refs refs' : List String} {node node' : Node}

include hplacing hfaithful in
/-- The form of a schema does not depend on its place. -/
theorem translate_eq_of_isTwin (hcovers : Network.Covers document nodes refs)
    (hcovers' : Network.Covers document' nodes' refs') (hnode : node ∈ nodes)
    (hnode' : node' ∈ nodes') (h : IsTwin At node node')
    (hrefs : LeadsToTwins At document document' node) (name : String) :
    translate document refs [] node name = translate document' refs' [] node' name := by
  have hform := translateWithin_eq_of_isTwin hplacing hfaithful (isTwin_start h) hrefs
    ((Network.ofDocument document).budget nodes (.start Place node) +
      (Network.ofDocument document').budget nodes' (.start Place node') + 1) name
  rw [translateWithin_ofDocument hcovers (Network.kept_start _ hnode) (by omega),
    translateWithin_ofDocument hcovers' (Network.kept_start _ hnode') (by omega), formAt_start,
    formAt_start] at hform
  exact mapError_injective (fun _ _ => Halt.fault.inj) hform

end

end

end Toolgate.Schema
