import Toolgate.Proofs.Schema.Alike
import Toolgate.Proofs.Schema.Expansion

/-!
# References are transparent

The translation of a schema that shares its parts by references comes to the same as that of the
schema with the references written out. The two runs call their records by different names and meet
different nodes, but both carry out the same keywords, part by part, and neither is cut short by a
guard.

## Main definitions

* `SayAlike`: fields that say the same outside the keywords with schemas in them
* `Free`: a call on whose branches no guard fires
* `Agree`: two translations that come to the same

## Main statements

* `plan_alike`: a schema and the one with its parts replaced ask for the same
* `formAt_unnamed_eq`: a node and what it becomes have the same form but for names
* `references_transparent`: references can be written out
-/

namespace Toolgate.Schema

open Relation (ReflTransGen)

/-! ## The plan of a schema whose parts were replaced -/

/-- Do the fields say the same outside the keywords with schemas in them? -/
def SayAlike (fields others : List (String × Json)) : Prop :=
  ∀ key ∉ schemaKeywords, lookupField key fields = lookupField key others

section
variable {fields others : List (String × Json)}

theorem SayAlike.said (h : SayAlike fields others) {key : String} (hkey : key ∉ schemaKeywords) :
    said fields key = said others key := by
  rw [Schema.said, Schema.said, h key hkey]

theorem SayAlike.textForm (h : SayAlike fields others) : textForm fields = textForm others := by
  simp only [Schema.textForm, h.said (show "enum" ∉ schemaKeywords by decide),
    h.said (show "format" ∉ schemaKeywords by decide),
    h.said (show "pattern" ∉ schemaKeywords by decide),
    h.said (show "minLength" ∉ schemaKeywords by decide),
    h.said (show "maxLength" ∉ schemaKeywords by decide)]

theorem SayAlike.boundsOf (h : SayAlike fields others) : boundsOf fields = boundsOf others := by
  simp only [Schema.boundsOf, h.said (show "minimum" ∉ schemaKeywords by decide),
    h.said (show "exclusiveMinimum" ∉ schemaKeywords by decide),
    h.said (show "maximum" ∉ schemaKeywords by decide),
    h.said (show "exclusiveMaximum" ∉ schemaKeywords by decide),
    h.said (show "multipleOf" ∉ schemaKeywords by decide)]

theorem SayAlike.annotated (h : SayAlike fields others) (form : Form) :
    annotated fields form = annotated others form := by
  have hdescribe : describe fields = describe others := by
    rw [describe, describe, trimmedField, trimmedField, headedField, headedField,
      h "title" (by decide), h "description" (by decide), h "default" (by decide),
      h "example" (by decide)]
    rfl
  rw [Schema.annotated, Schema.annotated, hdescribe, h.said (by decide)]

end

/-- Two nodes ask for the same when their lists of schemas correspond, their fields say the same, and
they ask for the same as arrays and as objects. -/
theorem Network.alike_plan {ν ι : Type} {net : Network ν ι} {R : ν → ν → Prop} {Silent : ν → Prop}
    {nodes others : List (String × ν)} {values values' : List (String × Json)}
    (hlisted : ∀ key ∈ ["oneOf", "anyOf", "allOf"],
      Option.Rel (List.Forall₂ R) (net.listed? nodes key) (net.listed? others key))
    (hlist : Plan.Alike R Silent (net.listPlan nodes) (net.listPlan others))
    (hobject : Plan.Alike R Silent (net.objectPlan nodes values) (net.objectPlan others values'))
    (hvalues : SayAlike values values') :
    Plan.Alike R Silent (net.plan nodes values) (net.plan others values') := by
  have hone := hlisted "oneOf" (by simp)
  have hany := hlisted "anyOf" (by simp)
  have hall := hlisted "allOf" (by simp)
  rw [Network.plan, Network.plan, hvalues.textForm, hvalues.boundsOf, hvalues.said (by decide)]
  revert hone hany hall
  generalize net.listed? nodes "oneOf" = one, net.listed? nodes "anyOf" = any,
    net.listed? nodes "allOf" = all, net.listed? others "oneOf" = one',
    net.listed? others "anyOf" = any', net.listed? others "allOf" = all'
  intro hone hany hall
  cases hone with
  | some hvariants => exact .union hvariants
  | none =>
  cases hany with
  | some hvariants => exact .union hvariants
  | none =>
  cases hall with
  | some hmembers => exact .merged hmembers
  | none =>
    dsimp only
    generalize typeNamed? (said values' "type") = type?
    split
    case h_6 => exact hlist
    case h_7 => exact hobject
    all_goals exact .done _

section
variable {node other : Node} {replace : Node → Json}

theorem forall₂_itemsFrom (place : Node) (replace : Node → Json) (n : ℕ) (parts : List Node) :
    List.Forall₂ (fun part other => other.value = replace part) parts
      (place.itemsFrom n (parts.map replace)) := by
  induction parts generalizing n with
  | nil => exact .nil
  | cons part rest ih => exact .cons rfl (ih (n + 1))

theorem listed?_replaced (document : Json) (h : other.value = replaceParts replace node)
    {key : String} (hkey : key ∈ ["oneOf", "anyOf", "allOf"]) :
    Option.Rel (List.Forall₂ fun part other => other.value = replace part)
      ((Network.ofDocument document).listed? (Catalog.fieldNodes node) key)
      ((Network.ofDocument document).listed? (Catalog.fieldNodes other) key) := by
  rw [Network.listed?, Network.listed?, lookupField_of_replaceParts h]
  cases lookupField key (Catalog.fieldNodes node) with
  | none => exact .none
  | some list =>
    simp only [List.mem_cons, List.not_mem_nil, or_false] at hkey
    simp only [Option.map_some, contents_ofDocument, contentsOf]
    cases hvalue : list.value with
    | arr items =>
      have hreplaced : replaceAt replace key list = .arr (list.items.map replace) := by
        rcases hkey with rfl | rfl | rfl <;> simp [replaceAt, hvalue]
      have hitems : list.items = list.itemsFrom 0 items := by rw [Node.items, hvalue]
      simp only [hreplaced, hitems]
      cases items with
      | nil => exact .none
      | cons v rest => exact .some (forall₂_itemsFrom _ replace 0 _)
    | _ =>
      have hreplaced : replaceAt replace key list = list.value := by
        rcases hkey with rfl | rfl | rfl <;> simp [replaceAt, hvalue]
      simp only [hreplaced, hvalue]
      exact .none

/-- The replaced parts are objects where the parts are, and nothing empty becomes anything. -/
structure Mirrors (replace : Node → Json) (part : Node) : Prop where
  isObject : (replace part).isObject = part.value.isObject
  truthy : (replace part).truthy = true → part.value.truthy = true

theorem listPlan_alike (document : Json) (h : other.value = replaceParts replace node)
    (hparts : ∀ part ∈ schemaParts node, Mirrors replace part) :
    Plan.Alike (fun part other => other.value = replace part)
      (fun part => (replace part).truthy = false)
      ((Network.ofDocument document).listPlan (Catalog.fieldNodes node))
      ((Network.ofDocument document).listPlan (Catalog.fieldNodes other)) := by
  rw [Network.listPlan, Network.listPlan, lookupField_of_replaceParts h]
  cases hlookup : lookupField "items" (Catalog.fieldNodes node) with
  | none => exact .done _
  | some item =>
    have hmirrors := hparts item (mem_schemaParts.mpr
      ⟨"items", item, mem_of_lookupField hlookup, List.mem_singleton_self item⟩)
    rw [Option.map_some]
    cases hreplaced : (replace item).truthy with
    | true =>
      rw [Option.filter_some_pos (by rw [truthy_ofDocument]; exact hmirrors.truthy hreplaced),
        Option.filter_some_pos (by rw [truthy_ofDocument]; exact hreplaced)]
      exact .list rfl
    | false =>
      have hother : (Network.ofDocument document).truthy
          ⟨replaceAt replace "items" item, other.place.step (.key "items"), false⟩ = false := by
        rw [truthy_ofDocument]
        exact hreplaced
      rw [Option.filter_some_neg hother]
      cases htruthy : item.value.truthy with
      | true =>
        rw [Option.filter_some_pos (by rw [truthy_ofDocument]; exact htruthy)]
        exact .bareList hreplaced
      | false =>
        rw [Option.filter_some_neg (by rw [truthy_ofDocument]; exact htruthy)]
        exact .done _

theorem objectPlan_of_declared (document : Json) {nodes rest : List (String × Node)}
    {first : String × Node}
    (h : (lookupField "properties" nodes).map contentsOf = some (.fields (first :: rest)))
    (values : List (String × Json)) : (Network.ofDocument document).objectPlan nodes values =
      .object (requiredNames (said values "required")) (first :: rest) := by
  have hcontents : (lookupField "properties" nodes).map (Network.ofDocument document).contents =
      some (.fields (first :: rest)) := h
  rw [Network.objectPlan, hcontents]

/-- What an object without properties asks for. -/
theorem objectPlan_of_undeclared (document : Json) {nodes : List (String × Node)}
    (h : ∀ first rest, (lookupField "properties" nodes).map contentsOf ≠
      some (.fields (first :: rest))) (values : List (String × Json)) :
    (Network.ofDocument document).objectPlan nodes values =
      ((lookupField "additionalProperties" nodes).filter
        (Network.ofDocument document).isObject).elim (.done (.ok .looseObject)) .table := by
  rw [Network.objectPlan]
  split
  · next heq => exact absurd heq (h _ _)
  · split
    · next heq => rw [heq, Option.elim_some]
    · next heq => rw [heq, Option.elim_none]

theorem additional_alike (document : Json) (h : other.value = replaceParts replace node)
    (hparts : ∀ part ∈ schemaParts node, Mirrors replace part) :
    Plan.Alike (fun part other => other.value = replace part)
      (fun part => (replace part).truthy = false)
      (((lookupField "additionalProperties" (Catalog.fieldNodes node)).filter
        (Network.ofDocument document).isObject).elim (.done (.ok .looseObject)) .table)
      (((lookupField "additionalProperties" (Catalog.fieldNodes other)).filter
        (Network.ofDocument document).isObject).elim (.done (.ok .looseObject)) .table) := by
  rw [lookupField_of_replaceParts h]
  cases hlookup : lookupField "additionalProperties" (Catalog.fieldNodes node) with
  | none => exact .done _
  | some value =>
    have hmirrors := hparts value (mem_schemaParts.mpr
      ⟨"additionalProperties", value, mem_of_lookupField hlookup, List.mem_singleton_self value⟩)
    rw [Option.map_some]
    cases hobject : value.value.isObject with
    | true =>
      rw [Option.filter_some_pos (by rw [isObject_ofDocument]; exact hobject),
        Option.filter_some_pos
          (by rw [isObject_ofDocument]; exact hmirrors.isObject.trans hobject)]
      exact .table rfl
    | false =>
      rw [Option.filter_some_neg (by rw [isObject_ofDocument]; exact hobject),
        Option.filter_some_neg
          (by rw [isObject_ofDocument]; exact hmirrors.isObject.trans hobject)]
      exact .done _

/-- The properties of an object are replaced one by one; what is no object has none. -/
theorem contents_properties {table table' : Node}
    (h : table'.value = replaceAt replace "properties" table) :
    (∃ fields others, contentsOf table = .fields fields ∧ contentsOf table' = .fields others ∧
      List.Forall₂ (fun field other => field.1 = other.1 ∧ other.2.value = replace field.2)
        fields others) ∨
    (∀ fields, contentsOf table ≠ .fields fields) ∧
      ∀ fields, contentsOf table' ≠ .fields fields := by
  cases hvalue : table.value with
  | obj fields =>
    refine .inl ⟨Catalog.fieldNodes table, Catalog.fieldNodes table', by rw [contentsOf, hvalue],
      by simp [contentsOf, h, replaceAt, hvalue], ?_⟩
    rw [fieldNodes_of_replaceAt h, List.forall₂_map_right_iff]
    exact List.forall₂_same.mpr fun field _ => ⟨rfl, rfl⟩
  | _ => exact .inr (by simp [contentsOf, h, replaceAt, hvalue])

/-- Either both declare properties, which then correspond to each other, or neither does. -/
theorem declared_properties (h : other.value = replaceParts replace node) :
    (∃ first rest first' rest',
      (lookupField "properties" (Catalog.fieldNodes node)).map contentsOf =
        some (.fields (first :: rest)) ∧
      (lookupField "properties" (Catalog.fieldNodes other)).map contentsOf =
        some (.fields (first' :: rest')) ∧
      List.Forall₂ (fun field other => field.1 = other.1 ∧ other.2.value = replace field.2)
        (first :: rest) (first' :: rest')) ∨
    (∀ first rest, (lookupField "properties" (Catalog.fieldNodes node)).map contentsOf ≠
      some (.fields (first :: rest))) ∧
    ∀ first rest, (lookupField "properties" (Catalog.fieldNodes other)).map contentsOf ≠
      some (.fields (first :: rest)) := by
  rw [lookupField_of_replaceParts h]
  cases lookupField "properties" (Catalog.fieldNodes node) with
  | none => exact .inr (by simp)
  | some table =>
    simp only [Option.map_some, Option.some.injEq, ne_eq]
    have hvalue : (⟨replaceAt replace "properties" table, other.place.step (.key "properties"),
        false⟩ : Node).value = replaceAt replace "properties" table := rfl
    rcases contents_properties hvalue with
      ⟨fields, others, hfields, hothers, hsame⟩ | ⟨hnone, hnone'⟩
    · cases hsame with
      | nil => exact .inr (by simp [hfields, hothers])
      | @cons first first' rest rest' hfirst hrest =>
        exact .inl ⟨first, rest, first', rest', hfields, hothers, .cons hfirst hrest⟩
    · exact .inr ⟨fun first rest => hnone _, fun first rest => hnone' _⟩

theorem objectPlan_alike (document : Json) (h : other.value = replaceParts replace node)
    (hparts : ∀ part ∈ schemaParts node, Mirrors replace part)
    {values values' : List (String × Json)} (hvalues : SayAlike values values') :
    Plan.Alike (fun part other => other.value = replace part)
      (fun part => (replace part).truthy = false)
      ((Network.ofDocument document).objectPlan (Catalog.fieldNodes node) values)
      ((Network.ofDocument document).objectPlan (Catalog.fieldNodes other) values') := by
  rcases declared_properties h with
    ⟨first, rest, first', rest', hfields, hothers, hsame⟩ | ⟨hnone, hnone'⟩
  · rw [objectPlan_of_declared document hfields, objectPlan_of_declared document hothers,
      hvalues.said (by decide)]
    exact .object _ hsame
  · rw [objectPlan_of_undeclared document hnone, objectPlan_of_undeclared document hnone']
    exact additional_alike document h hparts

/-- A schema and the one with its parts replaced ask for the same. -/
theorem plan_alike (document : Json) (h : other.value = replaceParts replace node)
    (hparts : ∀ part ∈ schemaParts node, Mirrors replace part)
    {values values' : List (String × Json)} (hvalues : SayAlike values values') :
    Plan.Alike (fun part other => other.value = replace part)
      (fun part => (replace part).truthy = false)
      ((Network.ofDocument document).plan (Catalog.fieldNodes node) values)
      ((Network.ofDocument document).plan (Catalog.fieldNodes other) values') :=
  Network.alike_plan (fun _ => listed?_replaced document h) (listPlan_alike document h hparts)
    (objectPlan_alike document h hparts hvalues) hvalues

end

/-! ## Two runs side by side -/

section
variable {document : Json} {node : Node} {call callee : Call Node Place} {nodes : List Node}
  {refs : List String} {fields : List (String × Json)} {ref : String}

theorem lookupField_ne_of_ref? (hvalue : node.value = .obj fields) (h : ref? node = none)
    (ref : String) : lookupField "$ref" fields ≠ some (.str ref) := by
  intro hlookup
  rw [ref?, Json.getD, hvalue, Json.get?, hlookup] at h
  cases h

theorem toNode_of_noted (h : call.noted = none) : call.toNode = call.node := by
  rw [Call.toNode, h]

theorem isObject_toNode : call.toNode.value.isObject = call.node.value.isObject := by
  cases hobject : call.node.value.isObject with
  | false => rw [toNode_of_no_object hobject, hobject]
  | true =>
    obtain ⟨fields, hvalue⟩ := exists_fields_of_isObject hobject
    rw [toNode_value .null hvalue]
    rfl

theorem ref?_toNode : ref? call.toNode = ref? call.node := by
  cases hobject : call.node.value.isObject with
  | false => rw [toNode_of_no_object hobject]
  | true =>
    obtain ⟨fields, hvalue⟩ := exists_fields_of_isObject hobject
    have hlookup := lookupField_values .null hvalue (show "$ref" ≠ "description" by simp)
    rw [ref?, ref?, Json.getD, Json.getD, toNode_value .null hvalue, hvalue, Json.get?, Json.get?,
      hlookup]

/-- A call on whose branches no guard fires. -/
structure Free (document : Json) (nodes : List Node) (refs : List String) (call : Call Node Place) :
    Prop where
  covers : Network.Covers document nodes refs
  kept : (Network.ofDocument document).Kept nodes call
  unguarded : ∀ depth callee, (Network.ofDocument document).Nested call depth callee →
    Unguarded callee

theorem Free.of_mem_callees (h : Free document nodes refs call)
    (hcallee : callee ∈ (Network.ofDocument document).callees call) :
    Free document nodes refs callee where
  covers := h.covers
  kept := h.kept.of_mem_callees h.covers.closed hcallee
  unguarded depth other hnested := h.unguarded (depth + 1) other (hnested.head hcallee)

theorem Transparent.free (h : Transparent document node) (hnode : node.altered = false) :
    Free document (nodesBeside document node) (refTexts document ++ refTexts node.value)
      (.start Place node) where
  covers := Network.covers_nodesBeside document node
  kept := Network.kept_start _ (mem_nodesBeside document hnode)
  unguarded _ _ hnested := unguarded_of_nested h hnested

theorem formAt_of_no_object (h : call.node.value.isObject = false) (name : String) :
    formAt document refs call name = .ok (.anything "") := by
  rw [formAt, toNode_of_no_object h, translate_of_no_object h]
  rfl

/-- A reference is followed to its target. -/
theorem Free.turn_of_ref (h : Free document nodes refs call) (href : ref? call.node = some ref)
    {target : Node} (hresolve : resolveRef document ref = .ok (some target))
    (hobject : target.value.isObject = true) :
    (Network.ofDocument document).turn call =
      .follow (Naming.refName ref) ((Network.ofDocument document).followed call ref target) := by
  obtain ⟨fields, hvalue, hlookup⟩ := exists_lookupField_of_ref? href
  rw [Schema.turn_of_ref hvalue hlookup, if_neg ((h.unguarded 0 call .first).reference ref href),
    hresolve]
  exact if_pos hobject

/-- The keywords of a schema are carried out. -/
theorem Free.turn_of_no_ref (h : Free document nodes refs call)
    (hobject : call.node.value.isObject = true) (href : ref? call.node = none) :
    (Network.ofDocument document).turn call =
      .enter ((Network.ofDocument document).plan (Catalog.fieldNodes call.node)
        ((Network.ofDocument document).values call)) := by
  obtain ⟨fields, hvalue⟩ := exists_fields_of_isObject hobject
  have hfree := (h.unguarded 0 call .first).schema href
  rw [Schema.turn_of_no_ref hvalue (lookupField_ne_of_ref? hvalue href),
    if_neg fun hcircular => hfree hcircular.2]

theorem plan_congr {ν ι : Type} (net : Network ν ι) {nodes others : List (String × ν)}
    (h : ∀ key ∈ schemaKeywords, lookupField key nodes = lookupField key others)
    (values : List (String × Json)) : net.plan nodes values = net.plan others values := by
  simp only [Network.plan, Network.listed?, Network.listPlan, Network.objectPlan,
    h "oneOf" (by decide), h "anyOf" (by decide), h "allOf" (by decide), h "items" (by decide),
    h "additionalProperties" (by decide), h "properties" (by decide)]

/-- A description that was put in adds nothing to the plan. -/
theorem plan_toNode (document : Json) (hobject : call.node.value.isObject = true)
    (values : List (String × Json)) :
    (Network.ofDocument document).plan (Catalog.fieldNodes call.node) values =
      (Network.ofDocument document).plan (Catalog.fieldNodes call.toNode) values := by
  obtain ⟨fields, hvalue⟩ := exists_fields_of_isObject hobject
  refine plan_congr _ (fun key hkey => ?_) values
  have hne : key ≠ "description" := by
    rintro rfl
    exact absurd hkey (by decide)
  rw [lookupField_fieldNodes hvalue, lookupField_fieldNodes (toNode_value document hvalue),
    toNode_place, lookupField_values document hvalue hne]

/-- The form of a reference is that of its target. -/
theorem Free.formAt_of_ref (h : Free document nodes refs call) (href : ref? call.node = some ref)
    {target : Node} (hresolve : resolveRef document ref = .ok (some target))
    (hobject : target.value.isObject = true) (name : String) :
    ∃ called, formAt document refs call name =
      formAt document refs ((Network.ofDocument document).followed call ref target) called := by
  rw [formAt_eq_step h.covers h.kept.node, Network.step, h.turn_of_ref href hresolve hobject]
  exact ⟨_, rfl⟩

/-- The form of a schema is that of its plan, with its annotations. -/
theorem Free.formAt_of_no_ref (h : Free document nodes refs call)
    (hobject : call.node.value.isObject = true) (href : ref? call.node = none) (name : String) :
    formAt document refs call name =
      (((Network.ofDocument document).plan (Catalog.fieldNodes call.toNode)
        ((Network.ofDocument document).values call)).form
        (fun part => formAt document refs ((Network.ofDocument document).entered call part))
        name).map (annotated ((Network.ofDocument document).values call)) := by
  rw [formAt_eq_step h.covers h.kept.node, Network.step, h.turn_of_no_ref hobject href,
    plan_toNode document hobject]

theorem Free.followed (h : Free document nodes refs call) (href : ref? call.node = some ref)
    {target : Node} (hresolve : resolveRef document ref = .ok (some target))
    (hobject : target.value.isObject = true) :
    Free document nodes refs ((Network.ofDocument document).followed call ref target) :=
  h.of_mem_callees (Network.followed_mem_callees (h.turn_of_ref href hresolve hobject))

theorem Free.entered (h : Free document nodes refs call)
    (hobject : call.node.value.isObject = true) (href : ref? call.node = none) {part : Node}
    (hpart : part ∈ ((Network.ofDocument document).plan (Catalog.fieldNodes call.toNode)
      ((Network.ofDocument document).values call)).parts) :
    Free document nodes refs ((Network.ofDocument document).entered call part) := by
  refine h.of_mem_callees (Network.entered_mem_callees (h.turn_of_no_ref hobject href) ?_)
  rwa [plan_toNode document hobject]

end

/-! ### What is preserved when references are written out -/

section
variable {document : Json} {node : Node} {w : Json}

theorem Expands.isObject (h : Expands describedTarget document node w) :
    w.isObject = node.value.isObject := by
  induction h with
  | plain => rfl
  | @reference node target ref w is_ref _ is_object _ ih =>
    obtain ⟨fields, hvalue, -⟩ := exists_lookupField_of_ref? is_ref
    rw [ih, isObject_describedTarget, is_object, hvalue]
    rfl
  | schema is_object => exact is_object.symm

theorem Expands.truthy (h : Expands describedTarget document node w) (hw : w.truthy = true) :
    node.value.truthy = true := by
  cases h with
  | plain => exact hw
  | reference is_ref =>
    obtain ⟨fields, hvalue, hlookup⟩ := exists_lookupField_of_ref? is_ref
    rw [hvalue]
    cases fields with
    | nil => cases hlookup
    | cons field rest => rfl
  | schema is_object =>
    obtain ⟨fields, hvalue⟩ := exists_fields_of_isObject is_object
    rw [hvalue]
    cases fields with
    | nil => simp [replaceParts, Catalog.fieldNodes, hvalue, Json.truthy] at hw
    | cons field rest => rfl

/-- Nothing is said by what is empty. -/
theorem formAt_of_falsy {refs : List String} (hw : w.truthy = false) (name : String) :
    formAt document refs (.start Place (.ofValue w)) name = .ok (.anything "") := by
  cases w with
  | obj fields =>
    cases fields with
    | nil =>
      rw [formAt_start, translate_of_no_ref rfl (by simp [lookupField]) (.inr List.not_mem_nil),
        translateFields]
      rfl
    | cons field rest => cases hw
  | _ => exact formAt_of_no_object rfl name

theorem nameless_annotated {ε : Type} (form? : Except ε Form) (fields : List (String × Json)) :
    nameless (form?.map (annotated fields)) = (nameless form?).map (annotated fields) := by
  cases form? with
  | error cause => rfl
  | ok form => exact congrArg Except.ok (unnamed_annotated fields form)

/-- The description beside a reference is put into the target. -/
theorem toNode_followed_of_ref {call : Call Node Place} {ref : String} {target : Node}
    (href : ref? call.node = some ref) (hobject : target.value.isObject = true) :
    ((Network.ofDocument document).followed call ref target).toNode =
      describedTarget (call.toNode.value.getD "description") target := by
  obtain ⟨fields, hvalue, -⟩ := exists_lookupField_of_ref? href
  rw [toNode_followed hobject, toNode_value document hvalue]
  rfl

theorem sayAlike_values (document : Json) {call call' : Call Node Place} {replace : Node → Json}
    (hobject : call.node.value.isObject = true) (hobject' : call'.node.value.isObject = true)
    (h : call'.toNode.value = replaceParts replace call.toNode) :
    SayAlike ((Network.ofDocument document).values call)
      ((Network.ofDocument document).values call') := by
  obtain ⟨fields, hvalue⟩ := exists_fields_of_isObject hobject
  obtain ⟨fields', hvalue'⟩ := exists_fields_of_isObject hobject'
  intro key hkey
  exact (lookupField_replaceParts replace (toNode_value document hvalue)
    (h ▸ toNode_value document hvalue') hkey).symm

/-- Two schemas that ask for the same and say the same have the same form but for names. -/
theorem Free.nameless_formAt {nodes nodes' : List Node} {refs refs' : List String}
    {call call' : Call Node Place} (hfree : Free document nodes refs call)
    (hobject : call.node.value.isObject = true) (href : ref? call.node = none)
    (hfree' : Free document nodes' refs' call') (hobject' : call'.node.value.isObject = true)
    (href' : ref? call'.node = none)
    (halike : Plan.Alike
      (SameForm
        (fun part => formAt document refs ((Network.ofDocument document).entered call part))
        (fun part => formAt document refs' ((Network.ofDocument document).entered call' part)))
      (fun part => ∀ name, nameless
        (formAt document refs ((Network.ofDocument document).entered call part) name) =
          .ok (.anything ""))
      ((Network.ofDocument document).plan (Catalog.fieldNodes call.toNode)
        ((Network.ofDocument document).values call))
      ((Network.ofDocument document).plan (Catalog.fieldNodes call'.toNode)
        ((Network.ofDocument document).values call')))
    (hsay : SayAlike ((Network.ofDocument document).values call)
      ((Network.ofDocument document).values call')) (name name' : String) :
    nameless (formAt document refs call name) = nameless (formAt document refs' call' name') := by
  have hannotated : annotated ((Network.ofDocument document).values call) =
      annotated ((Network.ofDocument document).values call') := funext hsay.annotated
  rw [hfree.formAt_of_no_ref hobject href, hfree'.formAt_of_no_ref hobject' href',
    nameless_annotated, nameless_annotated, halike.form_unnamed name name', hannotated]

/-- A node has the same form as what it becomes when its references are written out, but for the
names of records. -/
theorem formAt_unnamed_eq {nodes : List Node} {refs : List String}
    (h : Expands describedTarget document node w) :
    ∀ {call : Call Node Place}, call.toNode = node → Free document nodes refs call →
      ∀ {nodes' : List Node} {refs' : List String} {call' : Call Node Place}, call'.noted = none →
        call'.node.value = w → Free document nodes' refs' call' →
          ∀ name name', nameless (formAt document refs call name) =
            nameless (formAt document refs' call' name') := by
  induction h with
  | @plain node no_object =>
    intro call hcall _ nodes' refs' call' _ hvalue _ name name'
    have hleft : call.node.value.isObject = false := by rw [← isObject_toNode, hcall, no_object]
    have hright : call'.node.value.isObject = false := by rw [hvalue, no_object]
    rw [formAt_of_no_object hleft, formAt_of_no_object hright]
  | @reference node target ref w is_ref resolved is_object _ ih =>
    intro call hcall hfree nodes' refs' call' hnoted hvalue hfree' name name'
    have href : ref? call.node = some ref := by rw [← ref?_toNode, hcall, is_ref]
    obtain ⟨called, hform⟩ := hfree.formAt_of_ref href resolved is_object name
    rw [hform]
    exact ih (hcall ▸ toNode_followed_of_ref href is_object)
      (hfree.followed href resolved is_object) hnoted hvalue hfree' called name'
  | @schema node replace is_object no_ref hparts ih =>
    intro call hcall hfree nodes' refs' call' hnoted hvalue hfree' name name'
    have hobject : call.node.value.isObject = true := by rw [← isObject_toNode, hcall, is_object]
    have href : ref? call.node = none := by rw [← ref?_toNode, hcall, no_ref]
    have hobject' : call'.node.value.isObject = true := by rw [hvalue]; rfl
    have href' : ref? call'.node = none := (ref?_of_replaceParts is_object hvalue).trans no_ref
    subst hcall
    have hreplaced : call'.toNode.value = replaceParts replace call.toNode := by
      rw [toNode_of_noted hnoted, hvalue]
    have hsay := sayAlike_values document hobject hobject' hreplaced
    have hmirrors (part : Node) (hpart : part ∈ schemaParts call.toNode) : Mirrors replace part :=
      ⟨(hparts part hpart).isObject, (hparts part hpart).truthy⟩
    have halike := plan_alike document hreplaced hmirrors hsay
    refine hfree.nameless_formAt hobject href hfree' hobject' href' (halike.imp ?_ ?_) hsay
      name name'
    · intro part hpart part' hpart' hreplace called called'
      exact ih part (mem_schemaParts_of_isPart (Network.isPart_of_mem_plan hpart)) rfl
        (hfree.entered hobject href hpart) rfl hreplace (hfree'.entered hobject' href' hpart')
        called called'
    · -- Where the items of a list become empty, they are compared with an empty schema by itself.
      intro part hpart hsilent called
      have hmem := mem_schemaParts_of_isPart (Network.isPart_of_mem_plan hpart)
      have hempty := (transparent_of_expands (hparts part hmem)).free rfl
      rw [ih part hmem rfl (hfree.entered hobject href hpart) rfl rfl hempty called called,
        formAt_of_falsy hsilent]
      rfl

end

/-! ## References are transparent -/

/-- Two translations come to the same: both stop for the same reason, or their forms are of one
kind, values can be checked against both or neither, and the same values are accepted as the
same. -/
def Agree : Except TranslationError Form → Except TranslationError Form → Prop
  | .error cause, .error other => cause = other
  | .ok form, .ok other =>
    form.kind = other.kind ∧ form.shape.isSound = other.shape.isSound ∧
      ∀ v, (form.shape.validate v).toOption = (other.shape.validate v).toOption
  | _, _ => False

theorem agree_of_nameless {form? other? : Except TranslationError Form}
    (h : nameless (form?.mapError Halt.fault) = nameless (other?.mapError Halt.fault)) :
    Agree form? other? := by
  cases form? with
  | error cause =>
    cases other? with
    | error other => exact Halt.fault.inj (Except.error.inj h)
    | ok other => cases h
  | ok form =>
    cases other? with
    | error cause => cases h
    | ok other =>
      have hunnamed : form.unnamed = other.unnamed := Except.ok.inj h
      have hshape : form.shape.unnamed = other.shape.unnamed := by
        rw [← Form.unnamed_shape, hunnamed, Form.unnamed_shape]
      refine ⟨?_, ?_, fun v => ?_⟩
      · rw [← Form.unnamed_kind, hunnamed, Form.unnamed_kind]
      · rw [← Shape.isSound_unnamed, hshape, Shape.isSound_unnamed]
      · rw [toOption_validate_unnamed, hshape, ← toOption_validate_unnamed]

/-- A schema all of whose references lead to objects, and never back, is translated as the schema in
which each reference is replaced by a copy of its target, over and over. There is such a schema, and
neither guard fires on the way: no reference is come to while it is being followed, and no node
while it is being translated, however often a target is shared and however the references to it are
spelled. A copy takes up the description beside its reference when the target has none; where that
never happens the copies are the targets themselves. -/
theorem references_transparent {document : Json} {node : Node} (hnode : node.altered = false)
    (h : Transparent document node) :
    (∀ depth call, (Network.ofDocument document).Nested (.start Place node) depth call →
      Unguarded call) ∧
    (∃ w, Expands describedTarget document node w) ∧
    (∀ w, Expands describedTarget document node w → ∀ name name',
      Agree (formOf document node name) (formOf document (.ofValue w) name')) ∧
    (KeepsTargets document node → ∀ w,
      Expands (fun _ target => target) document node w ↔
        Expands describedTarget document node w) := by
  refine ⟨fun depth call hnested => unguarded_of_nested h hnested, exists_expands h hnode,
    fun w hw name name' => ?_, fun hkeeps w => expands_target_iff hkeeps⟩
  have hright := (transparent_of_expands hw).free rfl
  have hsame := formAt_unnamed_eq hw rfl (h.free hnode) rfl rfl hright name name'
  rw [formAt_start, formAt_start] at hsame
  exact agree_of_nameless hsame

/-! ### A choice beside shared schemas -/

/-- Two schemas, of which one refers to the other twice, in two spellings. -/
def sharedSchemas : Json :=
  .obj [("n", .obj [("type", .str "integer")]),
    ("u", .obj [("anyOf", .arr [
      .obj [("type", .str "object"), ("properties", .obj [
        ("z", .obj [("$ref", .str "#/n")]), ("y", .obj [("$ref", .str "#x/n")])])],
      .obj [("type", .str "object")]])])]

/-- A choice with a description beside one of its references. -/
def sharingChoice : Json :=
  .obj [("oneOf", .arr [
    .obj [("type", .str "object"), ("properties", .obj [("a", .obj [("$ref", .str "#/n")])])],
    .obj [("$ref", .str "#/u"), ("description", .str "d")]])]

/-- The choice with its references written out, and fields that are added to the one target. -/
def writtenOutChoice (added : List (String × Json)) : Json :=
  let whole : Json := .obj [("type", .str "integer")]
  .obj [("oneOf", .arr [
    .obj [("type", .str "object"), ("properties", .obj [("a", whole)])],
    .obj ([("anyOf", .arr [
      .obj [("type", .str "object"), ("properties", .obj [("z", whole), ("y", whole)])],
      .obj [("type", .str "object")]])] ++ added)])]

/-- A rank that the references among the schemas raise. -/
def sharedRank (place : Place) : ℕ :=
  place.steps.length +
    match place.steps.getLast? with
    | some (.key "n") => 20
    | some (.key "u") => 10
    | _ => 0

theorem sharedRank_lt_step (place : Place) (step : Step) :
    sharedRank place < sharedRank (place.step step) := by
  obtain ⟨origin, steps⟩ := place
  cases steps with
  | nil =>
    rw [sharedRank, sharedRank]
    exact Nat.lt_add_right _ Nat.zero_lt_one
  | cons last rest =>
    simp only [sharedRank, Place.step, List.getLast?_cons_cons, List.length_cons]
    omega

theorem transparent_choice : Transparent sharedSchemas (.ofValue sharingChoice) :=
  transparent_of_refsClimb sharedRank_lt_step rfl (by decide +kernel)

/-- The choice is translated as with its references written out and the description put in. -/
theorem references_transparent_choice :
    Expands describedTarget sharedSchemas (.ofValue sharingChoice)
      (writtenOutChoice [("description", .str "d")]) ∧
    Agree (formOf sharedSchemas (.ofValue sharingChoice) "Value")
      (formOf sharedSchemas (.ofValue (writtenOutChoice [("description", .str "d")])) "Value") := by
  have hexpands : Expands describedTarget sharedSchemas (.ofValue sharingChoice)
      (writtenOutChoice [("description", .str "d")]) :=
    expands_of_writeOut? (show writeOut? _ _ 6 _ = _ from rfl)
  obtain ⟨-, -, hagree, -⟩ := references_transparent rfl transparent_choice
  exact ⟨hexpands, hagree _ hexpands "Value" "Value"⟩

/-! ### What the description changes -/

/-- What a value is accepted as by the form of a node, if there is one. -/
def validated {ε : Type} (form? : Except ε Form) (v : Json) : Option Json :=
  form?.toOption.bind fun form => (form.shape.validate v).toOption

theorem validated_mapError {ε ε' : Type} (f : ε → ε') (form? : Except ε Form) (v : Json) :
    validated (form?.mapError f) v = validated form? v := by
  cases form? <;> rfl

/-- The field of a record for a property that is a whole number. -/
def wholeField (name : String) : Field Shape :=
  ⟨name, name, false, "", .optional (.whole {})⟩

/-- The shape of an object without declared properties, as an alternative. -/
def looseShape : Shape :=
  .described "Object with arbitrary properties" (.table .anything)

section
variable (name other note : String) (fields others : List (Field Shape)) (shape : Shape)

theorem unite_record_described : Shape.unite [.record name fields, .described note shape] =
    .either [.record name fields, .described note shape] := by
  simp [Shape.unite, Shape.variants, Shape.distinctFrom, Shape.same, Shape.oneOf, Shape.isOptional]

/-- Alternatives among the alternatives are taken apart. -/
theorem unite_record_unite :
    Shape.unite [.record name fields, .unite [.record other others, .described note shape]] =
      .either [.record name fields, .record other others, .described note shape] := by
  rw [unite_record_described]
  simp [Shape.unite, Shape.variants, Shape.distinctFrom, Shape.same, Shape.oneOf, Shape.isOptional]

end

theorem translateWithin_choice :
    (Network.ofDocument sharedSchemas).translateWithin 60 (.start Place (.ofValue sharingChoice))
      "Value" = .ok ⟨.union, .unite [
        .record (Naming.typeName ("Value" ++ "Option" ++ Decimal.natText 1)) [wholeField "a"],
        .described "d" (.unite [
          .record (Naming.typeName (Naming.refName "#/u" ++ "Option" ++ Decimal.natText 1))
            [wholeField "z", wholeField "y"],
          looseShape])], "", []⟩ :=
  rfl

theorem translateWithin_writtenOut :
    (Network.ofDocument sharedSchemas).translateWithin 60
      (.start Place (.ofValue (writtenOutChoice []))) "Value" = .ok ⟨.union, .unite [
        .record (Naming.typeName ("Value" ++ "Option" ++ Decimal.natText 1)) [wholeField "a"],
        .unite [
          .record (Naming.typeName ("Value" ++ "Option" ++ Decimal.natText 2 ++ "Option" ++
            Decimal.natText 1)) [wholeField "z", wholeField "y"],
          looseShape]], "", []⟩ :=
  rfl

/-- Without the description the alternatives of the target become alternatives of the choice. One
of them takes as it is what is else read as a whole number. -/
theorem choice_without_description :
    Transparent sharedSchemas (.ofValue sharingChoice) ∧
    Expands (fun _ target => target) sharedSchemas (.ofValue sharingChoice) (writtenOutChoice []) ∧
    (validated (formOf sharedSchemas (.ofValue sharingChoice) "Value")
      (.obj [("a", .str "1")])).map (fun v => (v.getD "a").text?) = some none ∧
    (validated (formOf sharedSchemas (.ofValue (writtenOutChoice [])) "Value")
      (.obj [("a", .str "1")])).map (fun v => (v.getD "a").text?) = some (some "1") := by
  refine ⟨transparent_choice, expands_of_writeOut? (show writeOut? _ _ 6 _ = _ from rfl), ?_, ?_⟩
  · rw [← validated_mapError Halt.fault,
      ← translateWithin_start rfl (show _ ≤ 60 by decide +kernel),
      translateWithin_choice, looseShape, unite_record_described, unite_record_described]
    decide +kernel
  · rw [← validated_mapError Halt.fault,
      ← translateWithin_start rfl (show _ ≤ 60 by decide +kernel),
      translateWithin_writtenOut, looseShape, unite_record_unite]
    decide +kernel

end Toolgate.Schema
