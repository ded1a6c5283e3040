import Toolgate.Proofs.Schema.Document
import Toolgate.Proofs.Schema.Stable

/-!
# Schemas that leave no choice

The values that a schema accepts are checked to themselves when neither the schema nor any schema
that its translation comes to puts up alternatives. Every form that such a schema can be translated
to is made of stable shapes, and so it is when objects are merged.

## Main definitions

* `IsDefinite`: the fields of a schema without alternatives
* `Definite`: a schema that comes to such schemas only
* `Form.IsStable`: the shapes of a form and of its members are stable

## Main statements

* `isStable_ofMembers`, `isStable_mergedForm`, `isStable_textForm`: one statement a form
* `Network.form_induction`: what each step makes of the forms of its calls holds of all forms
* `isStable_of_definite`: the form of a definite schema is stable
-/

namespace Toolgate.Schema

/-! ## Stable forms -/

/-- The shapes of a form and of its members are proper and stable. -/
structure Form.IsStable (form : Form) : Prop where
  proper : form.IsProper
  shape : form.shape.IsStable
  members : ∀ member ∈ form.members, member.form.shape.IsStable

theorem Form.isStable_of_leaf {form : Form} (hleaf : form.shape.isLeaf = true)
    (h : form.shape.IsStable) (hmembers : form.members = []) : form.IsStable :=
  ⟨Form.isProper_of_leaf hleaf hmembers, h, by simp [hmembers]⟩

theorem Form.isStable_anything (note : String) : (Form.anything note).IsStable :=
  Form.isStable_of_leaf rfl Shape.isStable_anything rfl

theorem Form.isStable_looseObject : looseObject.IsStable :=
  ⟨Form.isProper_looseObject,
    Shape.isStable_anything.table (Shape.complains_of_isBasic rfl), List.forall_mem_nil _⟩

theorem Form.IsStable.describedShape {form : Form} (h : form.IsStable) :
    form.describedShape.IsStable :=
  h.shape.withDescription form.description

theorem Form.IsStable.list {form : Form} (h : form.IsStable) :
    (⟨.array, .list form.describedShape, "", []⟩ : Form).IsStable :=
  ⟨⟨.list h.proper.describedShape, List.forall_mem_nil _⟩,
    h.describedShape.list h.proper.describedShape.complains_self, List.forall_mem_nil _⟩

theorem Form.IsStable.table {form : Form} (h : form.IsStable) :
    (⟨.map, .table form.describedShape, "", []⟩ : Form).IsStable :=
  ⟨⟨.table h.proper.describedShape, List.forall_mem_nil _⟩,
    h.describedShape.table h.proper.describedShape.complains_self, List.forall_mem_nil _⟩

section
variable {members : List (Member Form)}

theorem isStable_record_fieldsOf (name : String) (taken : List String)
    (hproper : ∀ member ∈ members, member.form.shape.IsProper)
    (hstable : ∀ member ∈ members, member.form.shape.IsStable)
    (hnodup : (members.map (·.name)).Nodup) :
    (Shape.record name (fieldsOf taken members)).IsStable := by
  refine Shape.isStable_record
    (fun field hfield => (isProper_fieldsOf taken hproper field hfield).complains_self) ?_ ?_ ?_
  · rwa [wires_fieldsOf]
  · exact forall_shape_fieldsOf (fun _ hshape => hshape.orNull) hstable
  · intro field hfield hoptional
    obtain ⟨member, hmember, name, rfl⟩ := mem_fieldsOf hfield
    have hoptional : member.required = false := hoptional
    rw [Member.shape_toField, if_neg (by simp [hoptional])]
    exact ⟨_, accept_orNull_null _⟩

theorem isStable_ofMembers (name : String)
    (hproper : ∀ member ∈ members, member.form.shape.IsProper)
    (hstable : ∀ member ∈ members, member.form.shape.IsStable)
    (hnodup : (members.map (·.name)).Nodup) : (Form.ofMembers name members).IsStable := by
  refine ⟨isProper_ofMembers name hproper, ?_, ?_⟩ <;> unfold Form.ofMembers recordOf? <;>
    dsimp only <;> split_ifs
  · exact isStable_record_fieldsOf _ [] hproper hstable hnodup
  · exact Form.isStable_looseObject.shape
  · exact hstable
  · exact Form.isStable_looseObject.members

/-- A member takes the place of those that are called the same. -/
theorem name_overwritten (member other : Member Form) :
    (if other.name == member.name then member else other).name = other.name := by
  by_cases hname : other.name = member.name <;> simp [hname]

theorem names_overwritten (member : Member Form) (merged : List (Member Form)) :
    (merged.map fun other => if other.name == member.name then member else other).map (·.name) =
      merged.map (·.name) := by
  rw [List.map_map]
  exact List.map_congr_left fun other _ => name_overwritten member other

theorem nodup_mergeMembers {merged : List (Member Form)} (h : (merged.map (·.name)).Nodup)
    (members : List (Member Form)) : ((mergeMembers merged members).map (·.name)).Nodup := by
  induction members generalizing merged with
  | nil => exact h
  | cons member rest ih =>
    rw [mergeMembers]
    refine ih ?_
    split
    · rwa [names_overwritten]
    · next hfree =>
      rw [List.map_append, List.map_singleton]
      refine h.append (List.nodup_singleton _) fun name hname hlast => ?_
      obtain rfl := List.mem_singleton.mp hlast
      obtain ⟨other, hother, heq⟩ := List.mem_map.mp hname
      exact hfree (List.any_eq_true.mpr ⟨other, hother, beq_iff_eq.mpr heq⟩)

theorem isStable_mergedForm (name : String) {forms : List Form}
    (h : ∀ form ∈ forms, form.IsStable) : (mergedForm name forms).IsStable := by
  unfold mergedForm
  split
  · exact Form.isStable_anything ""
  · next first rest =>
    split
    · exact isStable_ofMembers name
        (forall_mem_mergeMembers fun form hform => (h form hform).proper.members)
        (forall_mem_mergeMembers fun form hform => (h form hform).members)
        (nodup_mergeMembers (by simp) _)
    · exact h first List.mem_cons_self

end

/-- A text is one of several values, a date, or a text within limits. -/
theorem textForm_cases {fields : List (String × Json)} {form : Form}
    (h : textForm fields = .ok form) : form.members = [] ∧
      (form.shape = .choice (enumMembers (said fields "enum")) ∨ form.shape = dateShape ∨
        ∃ limits, form.shape = .text limits) := by
  unfold textForm at h
  dsimp only at h
  split at h
  · exact Except.ok.inj h ▸ ⟨rfl, .inl rfl⟩
  · obtain ⟨isDate, -, h⟩ := bind_eq_ok.mp h
    split at h
    · exact Except.ok.inj h ▸ ⟨rfl, .inr (.inl rfl)⟩
    · obtain ⟨pattern, -, h⟩ := bind_eq_ok.mp h
      exact Except.ok.inj h ▸ ⟨rfl, .inr (.inr ⟨_, rfl⟩)⟩

theorem kind_textForm {fields : List (String × Json)} {form : Form}
    (h : textForm fields = .ok form) :
    form.kind = .enumeration ∨ form.kind = .datetime ∨ form.kind = .string := by
  unfold textForm at h
  dsimp only at h
  split at h
  · exact Except.ok.inj h ▸ .inl rfl
  · obtain ⟨isDate, -, h⟩ := bind_eq_ok.mp h
    split at h
    · exact Except.ok.inj h ▸ .inr (.inl rfl)
    · obtain ⟨pattern, -, h⟩ := bind_eq_ok.mp h
      exact Except.ok.inj h ▸ .inr (.inr rfl)

theorem isStable_textForm {fields : List (String × Json)} {form : Form}
    (huniform : IsUniform (enumMembers (said fields "enum"))) (h : textForm fields = .ok form) :
    form.IsStable := by
  obtain ⟨hmembers, hshape⟩ := textForm_cases h
  refine ⟨isProper_textForm h, ?_, by simp [hmembers]⟩
  rcases hshape with hshape | hshape | ⟨limits, hshape⟩ <;> rw [hshape]
  · exact Shape.isStable_choice (areMembers_enumMembers _) huniform
  · exact Shape.isStable_dateShape
  · exact Shape.isStable_text limits

theorem Form.IsStable.annotated {form : Form} (h : form.IsStable)
    (fields : List (String × Json)) : (annotated fields form).IsStable := by
  obtain ⟨hshape, hmembers⟩ := annotated_spec fields form
  refine ⟨⟨?_, hmembers ▸ h.proper.members⟩, ?_, hmembers ▸ h.members⟩ <;>
    rcases hshape with hshape | hshape <;> rw [hshape]
  · exact h.proper.shape
  · exact h.proper.shape.orNull
  · exact h.shape
  · exact h.shape.orNull

/-! ## Forms of all calls -/

section
variable {ν ε : Type} {translate : ν → String → Except ε Form} {nodes : List (ν × String)}
  {forms : List Form}

theorem length_formsOf (h : formsOf translate nodes = .ok forms) : forms.length = nodes.length := by
  induction nodes generalizing forms with
  | nil => exact Except.ok.inj h ▸ rfl
  | cons node rest ih =>
    rw [formsOf] at h
    split at h
    · cases h
    · obtain ⟨others, hothers, rfl⟩ := map_eq_ok.mp h
      exact congrArg (· + 1) (ih hothers)

theorem exists_of_mem_formsOf (h : formsOf translate nodes = .ok forms) :
    ∀ form ∈ forms, ∃ node ∈ nodes, translate node.1 node.2 = .ok form := by
  induction nodes generalizing forms with
  | nil => exact Except.ok.inj h ▸ List.forall_mem_nil _
  | cons node rest ih =>
    rw [formsOf] at h
    split at h
    · cases h
    · next form hform =>
      obtain ⟨others, hothers, rfl⟩ := map_eq_ok.mp h
      refine List.forall_mem_cons.mpr ⟨⟨node, List.mem_cons_self, hform⟩, fun other hother => ?_⟩
      obtain ⟨found, hfound, heq⟩ := ih hothers other hother
      exact ⟨found, List.mem_cons_of_mem _ hfound, heq⟩

end

namespace Network

variable {ν ι : Type} [DecidableEq ι] {net : Network ν ι}

/-- What each step hands on from the forms of the calls it makes to its own holds of the form of the
first call. -/
theorem form_induction {nodes : List ν} {first : Call ν ι}
    {translate : Call ν ι → String → Except Halt Form} (hclosed : net.Closed nodes)
    (hstep : ∀ call, net.Kept nodes call → ∀ name,
      translate call name = net.step translate call name) (h : net.Kept nodes first)
    {P : Form → Prop}
    (step : ∀ depth call name form, net.Nested first depth call →
      net.step translate call name = .ok form →
        (∀ callee ∈ net.callees call, ∀ called form, translate callee called = .ok form → P form) →
          P form) {name : String} {form : Form} (hform : translate first name = .ok form) :
    P form := by
  induction hbudget : net.budget nodes first using Nat.strong_induction_on
    generalizing first name form with
  | _ budget ih =>
    refine step 0 first name form .first (hstep first h name ▸ hform)
      fun callee hcallee called form hform => ?_
    refine ih _ (hbudget ▸ budget_lt h hcallee) (h.of_mem_callees hclosed hcallee) ?_ hform rfl
    exact fun depth call name form hnested => step _ call name form (hnested.head hcallee)

/-- A node that is settled without its keywords accepts everything. -/
theorem of_turn_eq_settled {call : Call ν ι} {form : Form}
    (h : net.turn call = .settled (.ok form)) : ∃ note, form = .anything note := by
  unfold turn at h
  split at h
  · split at h
    · split_ifs at h
      · cases h
        exact ⟨_, rfl⟩
      split at h
      · cases h
      · cases h
        exact ⟨_, rfl⟩
      · split_ifs at h
        cases h
        exact ⟨_, rfl⟩
    · split_ifs at h
      cases h
      exact ⟨_, rfl⟩
  · cases h
    exact ⟨_, rfl⟩

end Network

/-! ## Definite schemas -/

/-- The fields of a schema that puts up no alternatives: it lists neither schemas of which one is to
hold, nor integers of a machine word beside others. Its properties have distinct keys. -/
structure IsDefinite (fields : List (String × Json)) : Prop where
  no_oneOf : listNamed? fields "oneOf" = none
  no_anyOf : listNamed? fields "anyOf" = none
  uniform : IsUniform (enumMembers (said fields "enum"))
  distinct : ∀ properties, lookupField "properties" fields = some (.obj properties) →
    (properties.map Prod.fst).Nodup

/-- The translation of a node comes to definite schemas only. -/
def Definite (document : Json) (node : Node) : Prop :=
  ∀ depth call, (Network.ofDocument document).Nested (.start Place node) depth call →
    ∀ fields, call.toNode.value = .obj fields → IsDefinite fields

/-- A type alone puts up no alternatives. -/
theorem isDefinite_type (type : String) : IsDefinite [("type", .str type)] where
  no_oneOf := rfl
  no_anyOf := rfl
  uniform := fun _ _ hmem => absurd hmem List.not_mem_nil
  distinct := fun _ hlookup => nomatch hlookup

theorem definite_of_leaf {document : Json} {node : Node}
    (hleaf : (Network.ofDocument document).callees (.start Place node) = [])
    (h : ∀ fields, node.value = .obj fields → IsDefinite fields) : Definite document node :=
  fun _ _ hnested => hnested.eq_first hleaf ▸ h

/-- The plan makes a stable form of stable forms. -/
def Plan.IsStable {ν : Type} (plan : Plan ν) : Prop :=
  match plan with
  | .done result => ∀ form, result = .ok form → form.IsStable
  | .union _ => False
  | .object _ properties => (properties.map Prod.fst).Nodup
  | .merged _ | .list _ | .table _ => True

theorem Plan.isStable_done {ν : Type} {form : Form} (h : form.IsStable) :
    (Plan.done (.ok form) : Plan ν).IsStable := fun _ heq => Except.ok.inj heq ▸ h

theorem Plan.IsStable.form {ν : Type} {plan : Plan ν} (h : plan.IsStable)
    {translate : ν → String → Except Halt Form} {name : String} {form : Form}
    (hform : plan.form translate name = .ok form)
    (hparts : ∀ part ∈ plan.called name, ∀ form, translate part.1 part.2 = .ok form →
      form.IsStable) : form.IsStable := by
  obtain ⟨forms, hforms, hform⟩ := bind_eq_ok.mp hform
  have hstable : ∀ form ∈ forms, form.IsStable := fun form hmem => by
    obtain ⟨part, hpart, heq⟩ := exists_of_mem_formsOf hforms form hmem
    exact hparts part hpart form heq
  have hlength := length_formsOf hforms
  cases plan with
  | done result =>
    cases result with
    | error cause => cases hform
    | ok own => exact Except.ok.inj hform ▸ h own rfl
  | union variants => exact h.elim
  | merged members => exact Except.ok.inj hform ▸ isStable_mergedForm name hstable
  | list item =>
    obtain ⟨own, rfl⟩ := List.length_eq_one_iff.mp hlength
    exact Except.ok.inj hform ▸ (hstable own List.mem_cons_self).list
  | table value =>
    obtain ⟨own, rfl⟩ := List.length_eq_one_iff.mp hlength
    exact Except.ok.inj hform ▸ (hstable own List.mem_cons_self).table
  | object required properties =>
    have hmembers : ∀ member ∈ (properties.zip forms).map fun pair =>
        (⟨pair.1.1, required.contains pair.1.1, pair.2⟩ : Member Form), member.form.IsStable := by
      rw [List.forall_mem_map]
      exact fun pair hpair => hstable pair.2 (List.of_mem_zip hpair).2
    refine Except.ok.inj hform ▸ isStable_ofMembers name
      (fun member hmember => (hmembers member hmember).proper.shape)
      (fun member hmember => (hmembers member hmember).shape) ?_
    have hlength : properties.length ≤ forms.length := by simp [hlength, Plan.called]
    rw [List.map_map, show ((·.name) ∘ fun pair : (String × ν) × Form =>
      (⟨pair.1.1, required.contains pair.1.1, pair.2⟩ : Member Form)) = Prod.fst ∘ Prod.fst from rfl,
      ← List.map_map, List.map_fst_zip hlength]
    exact h

section
variable {document : Json} {call : Call Node Place} {fields : List (String × Json)}

theorem isStable_listPlan (nodes : List (String × Node)) :
    ((Network.ofDocument document).listPlan nodes).IsStable := by
  unfold Network.listPlan
  split
  · trivial
  · exact Plan.isStable_done ⟨⟨.list (.leaf rfl), List.forall_mem_nil _⟩,
      Shape.isStable_anything.list (Shape.complains_of_isBasic rfl), List.forall_mem_nil _⟩

theorem isStable_objectPlan {place : Place} {nodes : List (String × Node)}
    (h : StandsFor place nodes fields) (hdefinite : IsDefinite fields) :
    ((Network.ofDocument document).objectPlan nodes fields).IsStable := by
  unfold Network.objectPlan
  split
  · next first rest hproperties =>
    rw [h "properties" (by simp), Option.map_map, Option.map_eq_some_iff] at hproperties
    obtain ⟨table, htable, hcontents⟩ := hproperties
    have hnodes := contentsOf_eq_fields hcontents
    cases table with
    | obj properties =>
      have hkeys := congrArg (List.map Prod.fst) hnodes
      rw [Catalog.fieldNodes, List.map_map] at hkeys
      rw [Plan.IsStable, ← hkeys]
      exact hdefinite.distinct properties htable
    | _ => cases hnodes
  · split
    · trivial
    · exact Plan.isStable_done Form.isStable_looseObject

/-- A definite schema asks for what makes a stable form. -/
theorem IsDefinite.isStable_plan {place : Place} {nodes : List (String × Node)}
    (hdefinite : IsDefinite fields) (h : StandsFor place nodes fields) :
    ((Network.ofDocument document).plan nodes fields).IsStable := by
  unfold Network.plan
  rw [listed?_ofDocument h (by simp), listed?_ofDocument h (by simp), hdefinite.no_oneOf,
    hdefinite.no_anyOf]
  split
  case h_1 heq | h_2 heq => cases heq
  case h_3 => trivial
  split
  case h_6 => exact isStable_listPlan nodes
  case h_7 => exact isStable_objectPlan h hdefinite
  case h_2 => exact fun form heq => isStable_textForm hdefinite.uniform heq
  case h_3 => exact Plan.isStable_done (Form.isStable_of_leaf rfl (Shape.isStable_whole _) rfl)
  case h_4 => exact Plan.isStable_done (Form.isStable_of_leaf rfl (Shape.isStable_number _) rfl)
  case h_5 => exact Plan.isStable_done (Form.isStable_of_leaf rfl Shape.isStable_truth rfl)
  all_goals exact Plan.isStable_done (Form.isStable_anything _)

/-- A step that comes to a definite schema makes a stable form of stable ones. -/
theorem isStable_of_step {translate : Call Node Place → String → Except Halt Form} {name : String}
    {form : Form}
    (hdefinite : ∀ fields, call.toNode.value = .obj fields → IsDefinite fields)
    (hform : (Network.ofDocument document).step translate call name = .ok form)
    (hcallees : ∀ callee ∈ (Network.ofDocument document).callees call, ∀ called form,
      translate callee called = .ok form → form.IsStable) : form.IsStable := by
  unfold Network.step at hform
  split at hform
  · next result hturn =>
    cases result with
    | error cause => cases hform
    | ok own =>
      obtain ⟨note, rfl⟩ := Network.of_turn_eq_settled hturn
      exact Except.ok.inj hform ▸ Form.isStable_anything note
  · next called callee hturn =>
    exact hcallees callee (Network.followed_mem_callees hturn) _ form hform
  · next plan hturn =>
    obtain ⟨own, hown, rfl⟩ := map_eq_ok.mp hform
    refine Form.IsStable.annotated ?_ _
    obtain ⟨nodes, hnodes, -, -, rfl⟩ := Network.of_turn_eq_enter hturn
    obtain rfl := contentsOf_eq_fields hnodes
    obtain ⟨fields, hvalue⟩ : ∃ fields, call.node.value = .obj fields := by
      refine exists_fields_of_isObject ?_
      calc call.node.value.isObject
          = (Network.ofDocument document).isObject call.node := (isObject_ofDocument _).symm
        _ = true := by rw [Network.isObject, hnodes]
    have hplan : ((Network.ofDocument document).plan (Catalog.fieldNodes call.node)
        ((Network.ofDocument document).values call)).IsStable :=
      (hdefinite _ (toNode_value document hvalue)).isStable_plan (standsFor_values document hvalue)
    exact hplan.form hown fun part hpart form hform =>
      hcallees _ (Network.entered_mem_callees hturn (Plan.mem_parts_of_mem_called hpart)) _ form
        hform

/-- The form of a definite schema is stable. -/
theorem isStable_of_definite {nodes : List Node} {refs : List String} {node : Node}
    (hcovers : Network.Covers document nodes refs) (hnode : node ∈ nodes)
    (hdefinite : Definite document node) {name : String} {form : Form}
    (h : translate document refs [] node name = .ok form) : form.IsStable := by
  have hform : formAt document refs (.start Place node) name = .ok form := by
    rw [formAt_start, h]
    rfl
  exact Network.form_induction hcovers.closed
    (fun _ hkept _ => formAt_eq_step hcovers hkept.node) (Network.kept_start _ hnode)
    (fun depth call name form hnested => isStable_of_step (hdefinite depth call hnested)) hform

end

end Toolgate.Schema
