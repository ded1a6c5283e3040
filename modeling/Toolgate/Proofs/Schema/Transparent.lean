import Mathlib.Logic.Relation
import Toolgate.Proofs.Schema.Document

/-!
# Schemas whose references lead nowhere back

A schema holds further schemas in some of its keywords. Where each reference that is come to leads
to an object, and no reference leads back to a schema it came from, no guard of the translation ever
fires: a reference text or a node that comes up again below itself would be a way back. It does not
matter how often a target is shared, or how the references to it are spelled.

## Main definitions

* `schemaParts`: the schemas directly inside a schema
* `Leads`: from a schema to its parts, from a reference to its target
* `Transparent`: all references lead to objects, and none leads back
* `Unguarded`: no guard fires at a call
* `LeadsNowhereBack`: nothing leads back, whatever the references lead to

## Main statements

* `Transparent.induction`: induction along the ways that lead from a schema
* `transparent_of_rank`, `transparent_of_refsClimb`: nothing leads back where all references lead to
  a higher rank
* `unguarded_of_nested`: no guard fires in the translation of a transparent schema
-/

namespace Toolgate.Schema

open Relation (ReflTransGen TransGen)

/-! ## Schemas inside schemas -/

/-- The text of a reference, when the node is one. -/
def ref? (node : Node) : Option String :=
  match node.value.getD "$ref" with
  | .str ref => some ref
  | _ => none

/-- The schemas in the value of a keyword. -/
def partsAt (key : String) (node : Node) : List Node :=
  match key with
  | "oneOf" | "anyOf" | "allOf" => node.items
  | "items" | "additionalProperties" => [node]
  | "properties" => (Catalog.fieldNodes node).map Prod.snd
  | _ => []

/-- The keywords with schemas in their values. -/
def schemaKeywords : List String :=
  ["oneOf", "anyOf", "allOf", "items", "additionalProperties", "properties"]

/-- The schemas directly inside a schema. -/
def schemaParts (node : Node) : List Node :=
  (Catalog.fieldNodes node).flatMap fun (key, part) => partsAt key part

/-- From a schema to the schemas inside it, from a reference to its target. -/
inductive Leads (document : Json) (node : Node) : Node → Prop where
  | part {part : Node} (no_ref : ref? node = none) (mem : part ∈ schemaParts node) :
      Leads document node part
  | reference {ref : String} {target : Node} (is_ref : ref? node = some ref)
      (resolved : resolveRef document ref = .ok (some target)) : Leads document node target

/-- All references that a schema comes to lead to objects, and nothing that it comes to leads back
to itself. -/
structure Transparent (document : Json) (node : Node) : Prop where
  resolves : ∀ other, ReflTransGen (Leads document) node other → ∀ ref, ref? other = some ref →
    ∃ target, resolveRef document ref = .ok (some target) ∧ target.value.isObject = true
  acyclic : ∀ first other, ReflTransGen (Leads document) node first →
    TransGen (Leads document) first other → other.place ≠ first.place

section
variable {document : Json} {node other part : Node}

theorem ref?_eq_none_of_no_object (h : node.value.isObject = false) : ref? node = none := by
  rw [ref?, Json.getD]
  cases hvalue : node.value with
  | obj fields => rw [hvalue] at h; cases h
  | _ => rfl

theorem schemaParts_of_no_object (h : node.value.isObject = false) : schemaParts node = [] := by
  rw [schemaParts, Catalog.fieldNodes]
  cases hvalue : node.value with
  | obj fields => rw [hvalue] at h; cases h
  | _ => rfl

theorem exists_lookupField_of_ref? {ref : String} (h : ref? node = some ref) :
    ∃ fields, node.value = .obj fields ∧ lookupField "$ref" fields = some (.str ref) := by
  cases hobject : node.value.isObject with
  | false => rw [ref?_eq_none_of_no_object hobject] at h; cases h
  | true =>
    obtain ⟨fields, hvalue⟩ := exists_fields_of_isObject hobject
    refine ⟨fields, hvalue, ?_⟩
    rw [ref?, Json.getD, hvalue, Json.get?] at h
    cases hlookup : lookupField "$ref" fields with
    | none => rw [hlookup] at h; cases h
    | some v =>
      rw [hlookup, Option.getD_some] at h
      cases v with
      | str other => exact congrArg (some ∘ Json.str) (Option.some.inj h)
      | _ => cases h

theorem ref?_of_lookupField {fields : List (String × Json)} {ref : String}
    (hvalue : node.value = .obj fields)
    (href : lookupField "$ref" fields = some (.str ref)) : ref? node = some ref := by
  rw [ref?, Json.getD, hvalue, Json.get?, href]
  rfl

theorem ref?_eq_none_of_lookupField {fields : List (String × Json)}
    (hvalue : node.value = .obj fields)
    (href : ∀ ref, lookupField "$ref" fields ≠ some (.str ref)) : ref? node = none := by
  cases h : ref? node with
  | none => rfl
  | some ref =>
    obtain ⟨own, hown, hlookup⟩ := exists_lookupField_of_ref? h
    obtain rfl := Json.obj.inj (hvalue.symm.trans hown)
    exact absurd hlookup (href ref)

theorem refText?_eq_ref? (node : Node) :
    (Network.ofDocument document).refText? node = ref? node := by
  cases hobject : node.value.isObject with
  | true =>
    obtain ⟨fields, hvalue⟩ := exists_fields_of_isObject hobject
    rw [Network.refText?, valuesOf_ofDocument hvalue, ref?, Json.getD, hvalue, Json.get?]
    cases lookupField "$ref" fields with
    | none => rfl
    | some v => cases v <;> rfl
  | false =>
    rw [Network.refText?, Network.valuesOf, contents_ofDocument, contentsOf, ref?]
    cases hvalue : node.value with
    | obj fields => rw [hvalue] at hobject; cases hobject
    | _ => rfl

theorem mem_schemaParts : part ∈ schemaParts node ↔
    ∃ key child, (key, child) ∈ Catalog.fieldNodes node ∧ part ∈ partsAt key child := by
  rw [schemaParts, List.mem_flatMap]
  exact Prod.exists

/-- What stands at a keyword of a schema, or inside that, is among the nodes. -/
theorem Network.Covers.of_schemaParts {nodes : List Node} {refs : List String}
    (h : Network.Covers document nodes refs) (hnode : node ∈ nodes)
    (hpart : part ∈ schemaParts node) : part ∈ nodes := by
  obtain ⟨key, child, hchild, hpart⟩ := mem_schemaParts.mp hpart
  have hmem := h.closed.contents node hnode child (mem_contentsOf_of_fieldNodes hchild)
  unfold partsAt at hpart
  split at hpart
  case h_1 | h_2 | h_3 => exact h.closed.contents child hmem part (mem_contentsOf_of_items hpart)
  case h_4 | h_5 => exact List.mem_singleton.mp hpart ▸ hmem
  case h_6 =>
    obtain ⟨⟨name, own⟩, hown, rfl⟩ := List.mem_map.mp hpart
    exact h.closed.contents child hmem own (mem_contentsOf_of_fieldNodes hown)
  case h_7 => cases hpart

theorem Network.Covers.of_leads {nodes : List Node} {refs : List String}
    (h : Network.Covers document nodes refs) (hnode : node ∈ nodes)
    (hleads : Leads document node other) : other ∈ nodes := by
  cases hleads with
  | part no_ref mem => exact h.of_schemaParts hnode mem
  | reference is_ref resolved =>
    exact h.closed.of_resolve ((resolve_ofDocument document _).trans resolved)

/-! ### Places -/

theorem place_of_mem_itemsFrom {n : ℕ} {items : List Json} (h : part ∈ node.itemsFrom n items) :
    part.value ∈ items ∧ ∃ step, part.place = node.place.step step := by
  induction items generalizing n with
  | nil => cases h
  | cons v rest ih =>
    rcases List.mem_cons.mp h with rfl | h
    · exact ⟨List.mem_cons_self, _, rfl⟩
    · obtain ⟨hvalue, hplace⟩ := ih h
      exact ⟨List.mem_cons_of_mem _ hvalue, hplace⟩

theorem place_of_mem_fieldNodes {key : String} (h : (key, part) ∈ Catalog.fieldNodes node) :
    part.place = node.place.step (.key key) := by
  unfold Catalog.fieldNodes at h
  split at h
  · obtain ⟨field, -, heq⟩ := List.mem_map.mp h
    cases heq
    rfl
  · cases h

/-- The schemas inside a schema stand at places of higher rank, where every step raises the rank. -/
theorem rank_place_lt {rank : Place → ℕ} (hrank : ∀ place step, rank place < rank (place.step step))
    (h : part ∈ schemaParts node) : rank node.place < rank part.place := by
  obtain ⟨key, child, hchild, hpart⟩ := mem_schemaParts.mp h
  have hbelow : rank node.place < rank child.place := place_of_mem_fieldNodes hchild ▸ hrank _ _
  unfold partsAt at hpart
  split at hpart
  case h_1 | h_2 | h_3 =>
    unfold Node.items at hpart
    split at hpart
    · obtain ⟨-, step, hplace⟩ := place_of_mem_itemsFrom hpart
      exact hbelow.trans (hplace ▸ hrank _ _)
    · cases hpart
  case h_4 | h_5 =>
    obtain rfl := List.mem_singleton.mp hpart
    exact hbelow
  case h_6 =>
    obtain ⟨⟨name, own⟩, hown, rfl⟩ := List.mem_map.mp hpart
    exact hbelow.trans (place_of_mem_fieldNodes hown ▸ hrank _ _)
  case h_7 => cases hpart

/-- Where references lead to places of higher rank, nothing leads back. -/
theorem transparent_of_rank {P : Node → Prop} {rank : Place → ℕ}
    (hrank : ∀ place step, rank place < rank (place.step step)) (hnode : P node)
    (hleads : ∀ first other, P first → Leads document first other → P other)
    (hrefs : ∀ other, P other → ∀ ref, ref? other = some ref →
      ∃ target, resolveRef document ref = .ok (some target) ∧ target.value.isObject = true ∧
        rank other.place < rank target.place) : Transparent document node := by
  have hreaches {other : Node} (h : ReflTransGen (Leads document) node other) : P other := by
    induction h with
    | refl => exact hnode
    | tail _ hstep ih => exact hleads _ _ ih hstep
  have hstep {first other : Node} (hfirst : ReflTransGen (Leads document) node first)
      (h : Leads document first other) : rank first.place < rank other.place := by
    cases h with
    | part _ mem => exact rank_place_lt hrank mem
    | reference is_ref resolved =>
      obtain ⟨target, hresolve, -, hhigher⟩ := hrefs first (hreaches hfirst) _ is_ref
      rw [resolved] at hresolve
      obtain rfl := Option.some.inj (Except.ok.inj hresolve)
      exact hhigher
  refine ⟨fun other hother ref href => ?_, fun first other hfirst hother => ?_⟩
  · obtain ⟨target, hresolve, hobject, -⟩ := hrefs other (hreaches hother) ref href
    exact ⟨target, hresolve, hobject⟩
  · have hhigher : rank first.place < rank other.place := by
      induction hother with
      | single h => exact hstep hfirst h
      | tail hbefore h ih => exact ih.trans (hstep (hfirst.trans hbefore.to_reflTransGen) h)
    intro heq
    rw [heq] at hhigher
    exact lt_irrefl _ hhigher

/-- Do all references among the nodes lead to objects at places of higher rank? -/
def refsClimb (document : Json) (rank : Place → ℕ) (nodes : List Node) : Bool :=
  nodes.all fun node =>
    match ref? node with
    | none => true
    | some ref =>
      match resolveRef document ref with
      | .ok (some target) => target.value.isObject && decide (rank node.place < rank target.place)
      | _ => false

theorem transparent_of_refsClimb {rank : Place → ℕ}
    (hrank : ∀ place step, rank place < rank (place.step step)) (hnode : node.altered = false)
    (h : refsClimb document rank (nodesBeside document node) = true) :
    Transparent document node := by
  have hcovers := Network.covers_nodesBeside document node
  refine transparent_of_rank hrank (mem_nodesBeside document hnode)
    (fun first other => hcovers.of_leads) fun other hother ref href => ?_
  have hclimbs := List.all_eq_true.mp h other hother
  rw [href] at hclimbs
  dsimp only at hclimbs
  split at hclimbs
  · next target hresolve =>
    obtain ⟨hobject, hhigher⟩ := Bool.and_eq_true_iff.mp hclimbs
    exact ⟨target, hresolve, hobject, of_decide_eq_true hhigher⟩
  · cases hclimbs

/-! ## Nodes below a node -/

theorem Transparent.of_reaches (h : Transparent document node)
    (hreaches : ReflTransGen (Leads document) node other) : Transparent document other where
  resolves below hbelow := h.resolves below (hreaches.trans hbelow)
  acyclic _ below hbelow := h.acyclic _ below (hreaches.trans hbelow)

open Classical in
/-- The places of the nodes that a node leads to. -/
noncomputable def placesBelow (document : Json) (nodes : List Node) (node : Node) : Finset Place :=
  (nodes.map Node.place).toFinset.filter fun place =>
    ∃ other, TransGen (Leads document) node other ∧ other.place = place

theorem mem_placesBelow {nodes : List Node} {place : Place} :
    place ∈ placesBelow document nodes node ↔ place ∈ nodes.map Node.place ∧
      ∃ other, TransGen (Leads document) node other ∧ other.place = place := by
  simp only [placesBelow, Finset.mem_filter, List.mem_toFinset]

theorem card_placesBelow_lt {nodes : List Node} (h : Transparent document node)
    (hother : other ∈ nodes) (hleads : Leads document node other) :
    (placesBelow document nodes other).card < (placesBelow document nodes node).card := by
  refine Finset.card_lt_card
    (Finset.ssubset_iff_subset_ne.mpr ⟨fun place hplace => ?_, fun heq => ?_⟩)
  · obtain ⟨hmem, below, hbelow, hat⟩ := mem_placesBelow.mp hplace
    exact mem_placesBelow.mpr ⟨hmem, below, .head hleads hbelow, hat⟩
  · -- The place of the node that is led to is below the one, but not below the other.
    have hmem : other.place ∈ placesBelow document nodes node :=
      mem_placesBelow.mpr ⟨List.mem_map_of_mem hother, other, .single hleads, rfl⟩
    rw [← heq] at hmem
    obtain ⟨-, below, hbelow, hat⟩ := mem_placesBelow.mp hmem
    exact h.acyclic other below (.single hleads) hbelow hat

/-- What follows for a node from all nodes that it leads to holds of a transparent schema. -/
@[elab_as_elim]
theorem Transparent.induction {P : Node → Prop} (h : Transparent document node)
    (hnode : node.altered = false)
    (step : ∀ first, Transparent document first →
      (∀ other, Leads document first other → P other) → P first) : P node := by
  have hcovers := Network.covers_nodesBeside document node
  have hmem := mem_nodesBeside document hnode
  generalize nodesBeside document node = nodes at hcovers hmem
  generalize Schema.refTexts document ++ Schema.refTexts node.value = refs at hcovers
  induction hcard : (placesBelow document nodes node).card using Nat.strong_induction_on
    generalizing node with
  | _ card ih =>
    refine step node h fun other hleads => ?_
    have hother := hcovers.of_leads hmem hleads
    exact ih _ (hcard ▸ card_placesBelow_lt h hother hleads) (h.of_reaches (.single hleads))
      (hcovers.unaltered other hother) hother rfl

end

/-! ## No guard fires -/

/-- No guard fires at the call: its reference is not being followed, and its schema is not being
translated. -/
structure Unguarded (call : Call Node Place) : Prop where
  reference : ∀ ref, ref? call.node = some ref → ref ∉ call.resolving
  schema : ref? call.node = none → call.node.place ∉ call.active

/-- Everything that was met on the way to a call leads to its node. -/
structure OnBranch (document : Json) (node : Node) (call : Call Node Place) : Prop where
  reaches : ReflTransGen (Leads document) node call.node
  resolving : ∀ ref ∈ call.resolving, ∃ target, resolveRef document ref = .ok (some target) ∧
    ReflTransGen (Leads document) node target ∧ ReflTransGen (Leads document) target call.node
  active : ∀ place ∈ call.active, ∃ first, first.place = place ∧
    ReflTransGen (Leads document) node first ∧ TransGen (Leads document) first call.node

section
variable {document : Json} {node part : Node} {call callee : Call Node Place}

theorem mem_schemaParts_of_isPart
    (h : (Network.ofDocument document).IsPart (Catalog.fieldNodes node) part) :
    part ∈ schemaParts node := by
  cases h with
  | @listed key list parts hkey lookup contents mem =>
    refine mem_schemaParts.mpr ⟨key, list, mem_of_lookupField lookup, ?_⟩
    rw [← contentsOf_eq_items contents] at mem
    simp only [List.mem_cons, List.not_mem_nil, or_false] at hkey
    rcases hkey with rfl | rfl | rfl <;> exact mem
  | @single key hkey lookup =>
    refine mem_schemaParts.mpr ⟨key, part, mem_of_lookupField lookup, ?_⟩
    simp only [List.mem_cons, List.not_mem_nil, or_false] at hkey
    rcases hkey with rfl | rfl <;> exact List.mem_singleton_self part
  | @property table properties lookup contents mem =>
    rw [← contentsOf_eq_fields contents] at mem
    exact mem_schemaParts.mpr ⟨"properties", table, mem_of_lookupField lookup, mem⟩

/-- A call for a node that the node of a call on the branch leads to is on the branch, where it
adds to what was met only the reference to its own node and the place it was made from. -/
theorem OnBranch.of_leads (h : OnBranch document node call)
    (hleads : Leads document call.node callee.node)
    (hresolving : ∀ ref ∈ callee.resolving,
      ref ∈ call.resolving ∨ resolveRef document ref = .ok (some callee.node))
    (hactive : ∀ place ∈ callee.active, place ∈ call.active ∨ call.node.place = place) :
    OnBranch document node callee where
  reaches := h.reaches.tail hleads
  resolving ref href := by
    rcases hresolving ref href with href | hresolve
    · obtain ⟨target, hresolve, hreaches, hbelow⟩ := h.resolving ref href
      exact ⟨target, hresolve, hreaches, hbelow.tail hleads⟩
    · exact ⟨callee.node, hresolve, h.reaches.tail hleads, .refl⟩
  active place hplace := by
    rcases hactive place hplace with hplace | hplace
    · obtain ⟨first, hfirst, hreaches, hbelow⟩ := h.active place hplace
      exact ⟨first, hfirst, hreaches, hbelow.tail hleads⟩
    · exact ⟨call.node, hplace, h.reaches, .single hleads⟩

theorem OnBranch.of_mem_callees (h : OnBranch document node call)
    (hcallee : callee ∈ (Network.ofDocument document).callees call) :
    OnBranch document node callee := by
  rcases Network.mem_callees_cases hcallee with
    ⟨ref, target, href, -, hresolve, -, rfl⟩ | ⟨fields, part, hfields, href, -, hpart, rfl⟩
  · rw [refText?_eq_ref?] at href
    rw [resolve_ofDocument] at hresolve
    refine h.of_leads (.reference href hresolve) (fun other hother => ?_) fun place => .inl
    rcases List.mem_cons.mp hother with rfl | hother
    · exact .inr hresolve
    · exact .inl hother
  · rw [refText?_eq_ref?] at href
    rw [← contentsOf_eq_fields hfields] at hpart
    have hmem : part ∈ schemaParts call.node :=
      mem_schemaParts_of_isPart (Network.isPart_of_mem_plan hpart)
    refine h.of_leads (.part href hmem) (fun other => .inl) fun place hplace => ?_
    simp only [Network.entered, Network.activeBelow] at hplace
    split at hplace
    · exact (List.mem_cons.mp hplace).symm.imp id Eq.symm
    · exact .inl hplace

/-- Nothing that the schema comes to leads back to itself. -/
def LeadsNowhereBack (document : Json) (node : Node) : Prop :=
  ∀ first other, ReflTransGen (Leads document) node first →
    TransGen (Leads document) first other → other.place ≠ first.place

/-- A reference that is being followed, and a schema that is being translated, would lead back to
itself. -/
theorem OnBranch.unguarded (h : OnBranch document node call)
    (hnode : LeadsNowhereBack document node) : Unguarded call where
  reference ref href hmem := by
    obtain ⟨target, hresolve, hreaches, hbelow⟩ := h.resolving ref hmem
    exact hnode target target hreaches (.tail' hbelow (.reference href hresolve)) rfl
  schema _ hmem := by
    obtain ⟨first, hfirst, hreaches, hbelow⟩ := h.active _ hmem
    exact hnode first call.node hreaches hbelow hfirst.symm

theorem OnBranch.of_nested {first : Call Node Place} (h : OnBranch document node first) {depth : ℕ}
    (hnested : (Network.ofDocument document).Nested first depth call) :
    OnBranch document node call := by
  induction hnested with
  | first => exact h
  | callee _ hcallee ih => exact ih.of_mem_callees hcallee

theorem onBranch_start : OnBranch document node (.start Place node) :=
  ⟨.refl, by simp [Call.start], by simp [Call.start]⟩

/-- No guard fires in the translation of a transparent schema. -/
theorem unguarded_of_nested (hnode : Transparent document node) {depth : ℕ}
    (h : (Network.ofDocument document).Nested (.start Place node) depth call) : Unguarded call :=
  (onBranch_start.of_nested h).unguarded hnode.acyclic

end

end Toolgate.Schema
