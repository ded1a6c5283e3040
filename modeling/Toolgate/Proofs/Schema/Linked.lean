import Toolgate.Proofs.Schema.Alike
import Toolgate.Proofs.Schema.Merged
import Toolgate.Proofs.Schema.Sameness
import Toolgate.Proofs.Schema.Transparent

/-!
# Schemas inside others

What a schema is translated to depends on where it is met: a reference that is being followed, or a
schema that is being translated, is cut short. Two translations of one schema take the same steps
until this happens in one of them. So they are compared by saying what becomes of their forms there,
for a relation between forms that is kept by all ways in which forms are put together. Where nothing
leads back, nothing is cut short, and the forms are the same.

## Main definitions

* `Stops`: a guard fires at a call
* `Call.IsAbove`: calls for one node, of which the other is further down
* `IsCongruence`: a relation between forms that is kept when forms are put together
* `IsHandedOn`: a relation between calls that is kept from a call to those it makes

## Main statements

* `exists_linked`: two runs come to related forms when they do where a guard fires
* `formAt_of_sameNode`: two runs come to the same form where no guard fires
* `translate_part`: a part of a schema has the form it has by itself where nothing leads back
-/

namespace Toolgate.Schema

open Relation (ReflTransGen TransGen)

/-! ## Where a guard fires -/

/-- A guard fires at the call: its reference is being followed already, or its schema is being
translated already and is no copy. -/
inductive Stops (call : Call Node Place) : Prop where
  | reference {ref : String} (is_ref : ref? call.node = some ref) (following : ref ∈ call.resolving)
  | schema (no_ref : ref? call.node = none) (unnoted : call.noted = none)
      (translating : call.node.place ∈ call.active)

/-- Are the calls for the same node, whatever was met on the way to it? -/
structure Call.SameNode (call other : Call Node Place) : Prop where
  node : call.node = other.node
  noted : call.noted = other.noted

section
variable {document : Json} {call other : Call Node Place}

theorem Unguarded.not_stops (h : Unguarded call) : ¬Stops call
  | .reference is_ref following => h.reference _ is_ref following
  | .schema no_ref _ translating => h.schema no_ref translating

/-- What a guard stops accepts everything. -/
theorem Stops.turn (h : Stops call) :
    ∃ note, (Network.ofDocument document).turn call = .settled (.ok (.anything note)) := by
  cases h with
  | reference is_ref following =>
    obtain ⟨fields, hvalue, hlookup⟩ := exists_lookupField_of_ref? is_ref
    exact ⟨_, by rw [turn_of_ref hvalue hlookup, if_pos following]⟩
  | schema no_ref unnoted translating =>
    cases hobject : call.node.value.isObject with
    | false => exact ⟨_, turn_of_no_object hobject⟩
    | true =>
      obtain ⟨fields, hvalue⟩ := exists_fields_of_isObject hobject
      have href : ∀ ref, lookupField "$ref" fields ≠ some (.str ref) := fun ref hlookup => by
        rw [ref?_of_lookupField hvalue hlookup] at no_ref
        cases no_ref
      exact ⟨_, by rw [turn_of_no_ref hvalue href, if_pos ⟨unnoted, translating⟩]⟩

theorem Call.SameNode.values_eq (h : call.SameNode other) :
    (Network.ofDocument document).values call = (Network.ofDocument document).values other := by
  rw [Network.values, Network.values, h.node, h.noted]

theorem Call.SameNode.followed (h : call.SameNode other) (ref : String) (target : Node) :
    ((Network.ofDocument document).followed call ref target).SameNode
      ((Network.ofDocument document).followed other ref target) :=
  ⟨rfl, by rw [Network.followed, Network.followed, h.values_eq]⟩

theorem sameNode_entered (document : Json) (call other : Call Node Place) (part : Node) :
    ((Network.ofDocument document).entered call part).SameNode
      ((Network.ofDocument document).entered other part) :=
  ⟨rfl, rfl⟩

/-- Where no guard fires, the same becomes of the same node. -/
theorem Call.SameNode.turn_cases (hsame : call.SameNode other) (h : ¬Stops call)
    (h' : ¬Stops other) :
    (∃ result, (Network.ofDocument document).turn call = .settled result ∧
      (Network.ofDocument document).turn other = .settled result) ∨
    (∃ name ref target, ref? call.node = some ref ∧
      resolveRef document ref = .ok (some target) ∧
      (Network.ofDocument document).turn call =
        .follow name ((Network.ofDocument document).followed call ref target) ∧
      (Network.ofDocument document).turn other =
        .follow name ((Network.ofDocument document).followed other ref target)) ∨
    call.node.value.isObject = true ∧ ref? call.node = none ∧
      (Network.ofDocument document).turn call =
        .enter ((Network.ofDocument document).plan (Catalog.fieldNodes call.node)
          ((Network.ofDocument document).values call)) ∧
      (Network.ofDocument document).turn other =
        .enter ((Network.ofDocument document).plan (Catalog.fieldNodes call.node)
          ((Network.ofDocument document).values call)) := by
  obtain ⟨hnode, hnoted⟩ := id hsame
  rcases schema_cases call.node.value with
    hobject | ⟨fields, ref, hvalue, hlookup⟩ | ⟨fields, hvalue, hlookup⟩
  · exact .inl ⟨_, turn_of_no_object hobject, turn_of_no_object (hnode ▸ hobject)⟩
  · have href := ref?_of_lookupField hvalue hlookup
    rw [turn_of_ref hvalue hlookup, turn_of_ref (hnode ▸ hvalue) hlookup,
      if_neg fun following => h (.reference href following),
      if_neg fun following => h' (.reference (hnode ▸ href) following)]
    rcases hresolve : resolveRef document ref with cause | _ | target
    · exact .inl ⟨_, rfl, rfl⟩
    · exact .inl ⟨_, rfl, rfl⟩
    · dsimp only
      split
      · exact .inr (.inl ⟨_, ref, target, href, hresolve, rfl, rfl⟩)
      · exact .inl ⟨_, rfl, rfl⟩
  · have href := ref?_eq_none_of_lookupField hvalue hlookup
    rw [turn_of_no_ref hvalue hlookup, turn_of_no_ref (hnode ▸ hvalue) hlookup,
      if_neg fun hstop => h (.schema href hstop.1 hstop.2),
      if_neg fun hstop => h' (.schema (hnode ▸ href) hstop.1 hstop.2), ← hnode, ← hsame.values_eq]
    exact .inr (.inr ⟨by rw [hvalue]; rfl, href, rfl, rfl⟩)

end

/-- The other call is for the same node, further down: all that is met on the way to the call is met
on the way to the other. -/
structure Call.IsAbove (call other : Call Node Place) : Prop where
  same : call.SameNode other
  resolving : call.resolving ⊆ other.resolving
  active : call.active ⊆ other.active

theorem Stops.of_isAbove {call other : Call Node Place} (h : Stops call)
    (habove : call.IsAbove other) : Stops other := by
  obtain ⟨⟨hnode, hnoted⟩, hresolving, hactive⟩ := habove
  cases h with
  | reference is_ref following => exact .reference (hnode ▸ is_ref) (hresolving following)
  | schema no_ref unnoted translating =>
    exact .schema (hnode ▸ no_ref) (hnoted ▸ unnoted) (hnode ▸ hactive translating)

/-! ## Forms put together of related forms -/

/-- Two forms that come out of translations and are related. -/
structure Linked (R : Form → Form → Prop) (form other : Form) : Prop where
  left : Translated form
  right : Translated other
  related : R form other

/-- Two members under one name, required or not, whose forms are related. -/
structure Member.IsLinked (R : Form → Form → Prop) (member other : Member Form) : Prop where
  name : member.name = other.name
  required : member.required = other.required
  form : Linked R member.form other.form

/-- The relation is kept by all ways to put forms together, whatever their records are called. -/
structure IsCongruence (R : Form → Form → Prop) : Prop where
  refl {form : Form} (h : Translated form) : R form form
  list {form other : Form} (h : Linked R form other) :
    R ⟨.array, .list form.describedShape, "", []⟩ ⟨.array, .list other.describedShape, "", []⟩
  table {form other : Form} (h : Linked R form other) :
    R ⟨.map, .table form.describedShape, "", []⟩ ⟨.map, .table other.describedShape, "", []⟩
  object (name name' : String) {members others : List (Member Form)}
    (h : List.Forall₂ (Member.IsLinked R) members others) :
    R (.ofMembers name members) (.ofMembers name' others)
  united {forms others : List Form} (h : List.Forall₂ (Linked R) forms others) :
    R (unitedForm forms) (unitedForm others)
  merged (name name' : String) {forms others : List Form}
    (h : List.Forall₂ (Linked R) forms others) :
    R (mergedForm name forms) (mergedForm name' others)
  annotated (fields : List (String × Json)) {form other : Form} (h : Linked R form other) :
    R (annotated fields form) (annotated fields other)

section
variable {R : Form → Form → Prop} {translate translate' : Node → String → Except Halt Form}

/-- Each form has a related one, whatever the nodes are called. -/
def HaveRelated (R : Form → Form → Prop) (translate translate' : Node → String → Except Halt Form)
    (node : Node) : Prop :=
  ∀ name name' form, translate node name = .ok form →
    ∃ other, translate' node name' = .ok other ∧ Linked R form other

theorem forall₂_formsOf {nodes others : List (Node × String)} {forms : List Form}
    (hnodes : List.Forall₂ (fun node other => node.1 = other.1 ∧
      HaveRelated R translate translate' node.1) nodes others)
    (h : formsOf translate nodes = .ok forms) :
    ∃ related, formsOf translate' others = .ok related ∧ List.Forall₂ (Linked R) forms related := by
  induction hnodes generalizing forms with
  | nil =>
    obtain rfl := Except.ok.inj h
    exact ⟨[], rfl, .nil⟩
  | @cons node other nodes others hfirst _ ih =>
    obtain ⟨node, name⟩ := node
    obtain ⟨other, name'⟩ := other
    obtain ⟨rfl, hrelated⟩ : node = other ∧ HaveRelated R translate translate' node := hfirst
    rw [formsOf] at h
    split at h
    · cases h
    · next form hform =>
      obtain ⟨rest, hrest, rfl⟩ := map_eq_ok.mp h
      obtain ⟨other, hother, hlinked⟩ := hrelated name name' form hform
      obtain ⟨related, hall, hothers⟩ := ih hrest
      refine ⟨other :: related, ?_, .cons hlinked hothers⟩
      rw [formsOf, hother, hall]
      rfl

theorem forall₂_called {plan : Plan Node} (name name' : String)
    (h : ∀ part ∈ plan.parts, HaveRelated R translate translate' part) :
    List.Forall₂ (fun node other => node.1 = other.1 ∧
      HaveRelated R translate translate' node.1) (plan.called name) (plan.called name') := by
  have hnodes : List.Forall₂ Eq ((plan.called name).map Prod.fst)
      ((plan.called name').map Prod.fst) := by
    rw [plan.map_fst_called, plan.map_fst_called]
    exact List.forall₂_refl _
  rw [List.forall₂_map_left_iff, List.forall₂_map_right_iff] at hnodes
  exact forall₂_imp_of_mem hnodes fun node hnode _ _ heq =>
    ⟨heq, h _ (Plan.mem_parts_of_mem_called hnode)⟩

theorem forall₂_zip {α β γ : Type} {S : β → γ → Prop} {ys : List β} {zs : List γ}
    (h : List.Forall₂ S ys zs) (xs : List α) :
    List.Forall₂ (fun y z => y.1 = z.1 ∧ S y.2 z.2) (xs.zip ys) (xs.zip zs) := by
  induction h generalizing xs with
  | nil => simp
  | cons hfirst _ ih =>
    cases xs with
    | nil => exact .nil
    | cons x rest => exact .cons ⟨rfl, hfirst⟩ (ih rest)

/-- What a plan comes to is related when its parts are. -/
theorem IsCongruence.planForm (hR : IsCongruence R) {plan : Plan Node}
    (hparts : ∀ part ∈ plan.parts, HaveRelated R translate translate' part) (name name' : String)
    {form : Form} (h : plan.form translate name = .ok form) (hform : Translated form) :
    ∃ other, plan.form translate' name' = .ok other ∧ R form other := by
  obtain ⟨forms, hforms, hassemble⟩ := bind_eq_ok.mp h
  obtain ⟨others, hothers, hlinked⟩ :=
    forall₂_formsOf (forall₂_called name name' hparts) hforms
  have hplan {assembled : Except TranslationError Form}
      (hassembled : plan.assemble name' others = assembled) :
      plan.form translate' name' = assembled.mapError .fault := by
    rw [Plan.form, hothers, ← hassembled]
    rfl
  cases plan with
  | done result =>
    rw [hplan rfl]
    exact ⟨form, hassemble, hR.refl hform⟩
  | union variants =>
    obtain rfl := Except.ok.inj hassemble
    exact ⟨_, hplan rfl, hR.united hlinked⟩
  | merged members =>
    obtain rfl := Except.ok.inj hassemble
    exact ⟨_, hplan rfl, hR.merged name name' hlinked⟩
  | object required properties =>
    obtain rfl := Except.ok.inj hassemble
    refine ⟨_, hplan rfl, hR.object name name' ?_⟩
    rw [List.forall₂_map_left_iff, List.forall₂_map_right_iff]
    refine (forall₂_zip hlinked properties).imp fun member other hmember => ?_
    obtain ⟨hproperty, hform⟩ := hmember
    exact ⟨congrArg Prod.fst hproperty, congrArg (required.contains ·.1) hproperty, hform⟩
  | list item =>
    obtain rfl := Except.ok.inj hassemble
    cases hlinked with
    | nil => cases length_formsOf hforms
    | cons hfirst => exact ⟨_, hplan rfl, hR.list hfirst⟩
  | table value =>
    obtain rfl := Except.ok.inj hassemble
    cases hlinked with
    | nil => cases length_formsOf hforms
    | cons hfirst => exact ⟨_, hplan rfl, hR.table hfirst⟩

end

/-! ## Two runs side by side -/

/-- The calls are for the same nodes, and so are those that they make. -/
structure IsHandedOn (document : Json) (At : Call Node Place → Call Node Place → Prop) : Prop where
  same {call other : Call Node Place} (h : At call other) : call.SameNode other
  followed {call other : Call Node Place} {ref : String} {target : Node} (h : At call other)
    (is_ref : ref? call.node = some ref) (resolved : resolveRef document ref = .ok (some target)) :
    At ((Network.ofDocument document).followed call ref target)
      ((Network.ofDocument document).followed other ref target)
  entered {call other : Call Node Place} {part : Node} (h : At call other)
    (no_ref : ref? call.node = none) (mem : part ∈ schemaParts call.node) :
    At ((Network.ofDocument document).entered call part)
      ((Network.ofDocument document).entered other part)

section
variable {document : Json} {nodes : List Node} {refs : List String} {call other : Call Node Place}
  {fields : List (String × Json)} {name : String} {form : Form}

theorem translated_of_formAt (h : formAt document refs call name = .ok form) : Translated form :=
  translated_of_translate (mapError_eq_ok.mp h)

theorem translated_of_planForm (hvalue : call.node.value = .obj fields)
    (h : ((Network.ofDocument document).plan (Catalog.fieldNodes call.node)
      ((Network.ofDocument document).values call)).form
        (fun part => formAt document refs ((Network.ofDocument document).entered call part)) name =
          .ok form) : Translated form := by
  have hfields : ((Network.ofDocument document).plan (Catalog.fieldNodes call.node)
      ((Network.ofDocument document).values call)).form
        (fun part => formAt document refs ((Network.ofDocument document).entered call part)) name =
      (translateFields document (remaining refs call.resolving)
        ((Network.ofDocument document).activeBelow call) call.node.place
        ((Network.ofDocument document).values call) name).mapError .fault := by
    rw [← planForm_eq_translateFields (standsFor_values document hvalue)]
    rfl
  rw [hfields] at h
  exact translated_of_translateFields (mapError_eq_ok.mp h)

variable {R : Form → Form → Prop} {At : Call Node Place → Call Node Place → Prop}

/-- Where the keywords of one node are carried out in both runs, the forms are related when those of
the parts are. -/
theorem exists_related_planForm (hR : IsCongruence R) (hsame : call.SameNode other)
    (hvalue : call.node.value = .obj fields)
    (hparts : ∀ part ∈ ((Network.ofDocument document).plan (Catalog.fieldNodes call.node)
      ((Network.ofDocument document).values call)).parts, HaveRelated R
        (fun part => formAt document refs ((Network.ofDocument document).entered call part))
        (fun part => formAt document refs ((Network.ofDocument document).entered other part)) part)
    (name' : String)
    (h : ((Network.ofDocument document).plan (Catalog.fieldNodes call.node)
      ((Network.ofDocument document).values call)).form
        (fun part => formAt document refs ((Network.ofDocument document).entered call part)) name =
          .ok form) :
    ∃ related, ((Network.ofDocument document).plan (Catalog.fieldNodes call.node)
      ((Network.ofDocument document).values call)).form
        (fun part => formAt document refs ((Network.ofDocument document).entered other part))
          name' = .ok related ∧
      R (annotated ((Network.ofDocument document).values call) form)
        (annotated ((Network.ofDocument document).values call) related) := by
  have hleft := translated_of_planForm hvalue h
  obtain ⟨related, hrelated, hlinked⟩ := hR.planForm hparts name name' h hleft
  have hother := hrelated
  rw [hsame.node, hsame.values_eq] at hother
  have hright := translated_of_planForm (hsame.node ▸ hvalue) hother
  exact ⟨related, hrelated, hR.annotated _ ⟨hleft, hright, hlinked⟩⟩

/-- Two runs that go on in the same way until a guard fires come to related forms when they do where
one fires. -/
theorem exists_linked (hcovers : Network.Covers document nodes refs) (hR : IsCongruence R)
    (hAt : IsHandedOn document At)
    (hstops : ∀ {call other}, At call other → (Network.ofDocument document).Kept nodes call →
      (Network.ofDocument document).Kept nodes other → Stops call ∨ Stops other →
        ∀ name name' form, formAt document refs call name = .ok form →
          ∃ related, formAt document refs other name' = .ok related ∧ R form related)
    (h : At call other) (hkept : (Network.ofDocument document).Kept nodes call)
    (hkept' : (Network.ofDocument document).Kept nodes other) :
    ∀ name name' form, formAt document refs call name = .ok form →
      ∃ related, formAt document refs other name' = .ok related ∧ Linked R form related := by
  have hacc := Network.acc_of_kept hcovers.closed hkept
  induction hacc generalizing other with
  | intro call _ ih =>
    intro name name' form hform
    have htranslated := translated_of_formAt hform
    suffices hrelated : ∃ related, formAt document refs other name' = .ok related ∧
        R form related by
      obtain ⟨related, hother, hR⟩ := hrelated
      exact ⟨related, hother, htranslated, translated_of_formAt hother, hR⟩
    have below {callee callee' : Call Node Place} (hcallees : At callee callee')
        (hcallee : callee ∈ (Network.ofDocument document).callees call)
        (hcallee' : callee' ∈ (Network.ofDocument document).callees other) :=
      ih callee hcallee hcallees (hkept.of_mem_callees hcovers.closed hcallee)
        (hkept'.of_mem_callees hcovers.closed hcallee')
    by_cases hstop : Stops call ∨ Stops other
    · exact hstops h hkept hkept' hstop name name' form hform
    obtain ⟨hgoes, hgoes'⟩ := not_or.mp hstop
    rw [formAt_eq_step hcovers hkept.node, Network.step] at hform
    rw [formAt_eq_step hcovers hkept'.node, Network.step]
    rcases (hAt.same h).turn_cases hgoes hgoes' with
      ⟨result, hturn, hturn'⟩ | ⟨called, ref, target, href, hresolve, hturn, hturn'⟩ |
      ⟨hobject, href, hturn, hturn'⟩
    · rw [hturn] at hform
      rw [hturn']
      exact ⟨form, hform, hR.refl htranslated⟩
    · rw [hturn] at hform
      rw [hturn']
      obtain ⟨related, hother, hlinked⟩ := below (hAt.followed h href hresolve)
        (Network.followed_mem_callees hturn) (Network.followed_mem_callees hturn') _ _ form hform
      exact ⟨related, hother, hlinked.related⟩
    · rw [hturn] at hform
      rw [hturn', ← (hAt.same h).values_eq]
      obtain ⟨fields, hvalue⟩ := exists_fields_of_isObject hobject
      obtain ⟨inner, hinner, rfl⟩ := map_eq_ok.mp hform
      obtain ⟨related, hrelated, hannotated⟩ :=
        exists_related_planForm hR (hAt.same h) hvalue (fun part hpart => below
          (hAt.entered h href (mem_schemaParts_of_isPart (Network.isPart_of_mem_plan hpart)))
          (Network.entered_mem_callees hturn hpart) (Network.entered_mem_callees hturn' hpart))
          name' hinner
      exact ⟨_, map_eq_ok.mpr ⟨related, hrelated, rfl⟩, hannotated⟩

end

/-- What a guard stops has a form that accepts everything. -/
theorem Stops.formAt_eq {document : Json} {nodes : List Node} {refs : List String}
    {call : Call Node Place} (h : Stops call) (hcovers : Network.Covers document nodes refs)
    (hnode : call.node ∈ nodes) :
    ∃ note, ∀ name, formAt document refs call name = .ok (.anything note) := by
  obtain ⟨note, hturn⟩ := h.turn
  refine ⟨note, fun name => ?_⟩
  rw [formAt_eq_step hcovers hnode, Network.step, hturn]
  rfl

theorem isHandedOn_isAbove (document : Json) : IsHandedOn document Call.IsAbove where
  same h := h.same
  followed {call other ref target} h _ _ :=
    ⟨h.same.followed ref target, List.cons_subset_cons ref h.resolving, h.active⟩
  entered {call other part} h _ _ := by
    refine ⟨sameNode_entered document call other part, h.resolving, ?_⟩
    rw [Network.entered, Network.entered, Network.activeBelow, Network.activeBelow, h.same.node,
      h.same.noted]
    split
    · exact List.cons_subset_cons _ h.active
    · exact h.active

/-! ## Forms that do not depend on what was met -/

section
variable {document : Json} {nodes : List Node} {refs : List String} {node part : Node}
  {call other : Call Node Place}

/-- What was met on the way to a node does not change its form where no guard fires. -/
theorem formAt_of_sameNode (hcovers : Network.Covers document nodes refs)
    (hsame : call.SameNode other) (hkept : (Network.ofDocument document).Kept nodes call)
    (hkept' : (Network.ofDocument document).Kept nodes other)
    (h : ∀ depth callee, (Network.ofDocument document).Nested call depth callee → Unguarded callee)
    (h' : ∀ depth callee, (Network.ofDocument document).Nested other depth callee →
      Unguarded callee) (name : String) :
    formAt document refs call name = formAt document refs other name := by
  have hacc := Network.acc_of_kept hcovers.closed hkept
  induction hacc generalizing other name with
  | intro call _ ih =>
    have below {callee callee' : Call Node Place} (hsame : callee.SameNode callee')
        (hcallee : callee ∈ (Network.ofDocument document).callees call)
        (hcallee' : callee' ∈ (Network.ofDocument document).callees other) (called : String) :
        formAt document refs callee called = formAt document refs callee' called :=
      ih callee hcallee hsame (hkept.of_mem_callees hcovers.closed hcallee)
        (hkept'.of_mem_callees hcovers.closed hcallee')
        (fun _ _ hnested => h _ _ (hnested.head hcallee))
        (fun _ _ hnested => h' _ _ (hnested.head hcallee')) called
    rw [formAt_eq_step hcovers hkept.node, formAt_eq_step hcovers hkept'.node, Network.step,
      Network.step]
    rcases hsame.turn_cases (h 0 call .first).not_stops (h' 0 other .first).not_stops with
      ⟨result, hturn, hturn'⟩ | ⟨called, ref, target, -, -, hturn, hturn'⟩ | ⟨-, -, hturn, hturn'⟩
    · rw [hturn, hturn']
    · rw [hturn, hturn']
      exact below (hsame.followed ref target) (Network.followed_mem_callees hturn)
        (Network.followed_mem_callees hturn') _
    · rw [hturn, hturn', ← hsame.values_eq]
      dsimp only
      rw [Plan.form, Plan.form, formsOf_congr fun entry hentry => ?_]
      have hpart := Plan.mem_parts_of_mem_called hentry
      exact below (sameNode_entered document _ _ _) (Network.entered_mem_callees hturn hpart)
        (Network.entered_mem_callees hturn' hpart) _

/-- A part of a schema by itself has one form, whichever texts may be followed besides its own. -/
theorem formAt_start_eq_formOf (hcovers : Network.Covers document nodes refs)
    (hpart : part ∈ nodes) (name : String) :
    formAt document refs (.start Place part) name =
      (formOf document part name).mapError .fault := by
  rw [← translateWithin_start (hcovers.unaltered part hpart) (Nat.le_add_left _
    ((Network.ofDocument document).budget nodes (.start Place part) + 1)) name]
  exact (translateWithin_ofDocument hcovers (Network.kept_start _ hpart) (by omega)).symm

/-- The call for a part of a schema is on the branch from the schema. -/
theorem onBranch_part (href : ref? node = none) (hpart : part ∈ schemaParts node) :
    OnBranch document node ⟨[], [node.place], part, none⟩ := by
  have hstart : OnBranch document node (.start Place node) := onBranch_start
  refine hstart.of_leads (.part href hpart) (by simp) ?_
  exact fun place hplace => .inr (List.mem_singleton.mp hplace).symm

theorem kept_below (hcovers : Network.Covers document nodes refs)
    (hkept : (Network.ofDocument document).Kept nodes call) (hfree : call.node.place ∉ call.active)
    (hpart : part ∈ schemaParts call.node) : (Network.ofDocument document).Kept nodes
      ⟨call.resolving, call.node.place :: call.active, part, none⟩ := by
  refine ⟨hcovers.of_schemaParts hkept.node hpart, hkept.resolving_nodup, hkept.resolving_texts,
    List.nodup_cons.mpr ⟨hfree, hkept.active_nodup⟩, List.forall_mem_cons.mpr ⟨?_, ?_⟩⟩
  · exact List.mem_toFinset.mpr (List.mem_map.mpr ⟨call.node, hkept.node, rfl⟩)
  · exact hkept.active_identities

theorem kept_part (hcovers : Network.Covers document nodes refs) (hnode : node ∈ nodes)
    (hpart : part ∈ schemaParts node) :
    (Network.ofDocument document).Kept nodes ⟨[], [node.place], part, none⟩ :=
  kept_below hcovers (Network.kept_start _ hnode) List.not_mem_nil hpart

/-- A part of a schema has the form it has by itself where nothing leads back. -/
theorem translate_part (h : LeadsNowhereBack document node) (hnode : node.altered = false)
    (href : ref? node = none) (hpart : part ∈ schemaParts node) (name : String) :
    translate document (refTexts document ++ refTexts node.value) [node.place] part name =
      formOf document part name := by
  have hcovers := Network.covers_nodesBeside document node
  have hmem := hcovers.of_schemaParts (mem_nodesBeside document hnode) hpart
  have hown : LeadsNowhereBack document part := fun first other hfirst hother =>
    h first other (.head (.part href hpart) hfirst) hother
  have hform := formAt_of_sameNode hcovers
    (⟨rfl, rfl⟩ : Call.SameNode ⟨[], [node.place], part, none⟩ (.start Place part))
    (kept_part hcovers (mem_nodesBeside document hnode) hpart) (Network.kept_start _ hmem)
    (fun _ _ hnested => ((onBranch_part href hpart).of_nested hnested).unguarded h)
    (fun _ _ hnested => (onBranch_start.of_nested hnested).unguarded hown) name
  rw [formAt_start_eq_formOf hcovers hmem, formAt, remaining_nil] at hform
  exact mapError_injective (fun _ _ => Halt.fault.inj) hform

end

end Toolgate.Schema
