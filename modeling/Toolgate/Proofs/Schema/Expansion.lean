import Toolgate.Proofs.Schema.Transparent

/-!
# References written out

Where no reference of a schema leads back, all references can be replaced by their targets, over and
over, until none is left. The translation puts the description beside a reference into a target that
has none; the copies that take the place of references do the same.

## Main definitions

* `Expands`: a value is what a schema becomes when its references are replaced
* `writeOut?`: the value, when a number of steps is enough to come to it
* `KeepsTargets`: no target takes up a description

## Main statements

* `exists_expands`: the references of a transparent schema can be written out
* `transparent_of_expands`: the result is transparent, as no references are left in it
-/

namespace Toolgate.Schema

open Relation (ReflTransGen)

/-! ## Replacing references -/

/-- The value of a keyword with each schema in it replaced. -/
def replaceAt (replace : Node → Json) (key : String) (node : Node) : Json :=
  match key, node.value with
  | "oneOf", .arr _ | "anyOf", .arr _ | "allOf", .arr _ => .arr (node.items.map replace)
  | "items", _ | "additionalProperties", _ => replace node
  | "properties", .obj _ =>
    .obj ((Catalog.fieldNodes node).map fun (name, part) => (name, replace part))
  | _, v => v

/-- A schema with each schema directly inside it replaced. -/
def replaceParts (replace : Node → Json) (node : Node) : Json :=
  .obj ((Catalog.fieldNodes node).map fun (key, part) => (key, replaceAt replace key part))

/-- The value is what a schema becomes when each reference in it is replaced by a copy of its
target, in which the references are replaced as well. A copy may take up the description that stands
beside the reference. -/
inductive Expands (copy : Json → Node → Node) (document : Json) : Node → Json → Prop where
  | plain {node : Node} (no_object : node.value.isObject = false) :
      Expands copy document node node.value
  | reference {node target : Node} {ref : String} {w : Json} (is_ref : ref? node = some ref)
      (resolved : resolveRef document ref = .ok (some target))
      (is_object : target.value.isObject = true)
      (h : Expands copy document (copy (node.value.getD "description") target) w) :
      Expands copy document node w
  | schema {node : Node} {replace : Node → Json} (is_object : node.value.isObject = true)
      (no_ref : ref? node = none)
      (h : ∀ part ∈ schemaParts node, Expands copy document part (replace part)) :
      Expands copy document node (replaceParts replace node)

/-- No target that a schema comes to takes up a description: none stands beside the reference, or
the target has one of its own. -/
def KeepsTargets (document : Json) (node : Node) : Prop :=
  ∀ other, ReflTransGen (Leads document) node other → ∀ ref target, ref? other = some ref →
    resolveRef document ref = .ok (some target) →
      describedTarget (other.value.getD "description") target = target

/-- What a schema becomes when its references are replaced, if `n` levels are enough. -/
def writeOut? (copy : Json → Node → Node) (document : Json) : ℕ → Node → Option Json
  | 0, _ => none
  | n + 1, node =>
    if node.value.isObject then
      match ref? node with
      | some ref =>
        match resolveRef document ref with
        | .ok (some target) =>
          if target.value.isObject then
            writeOut? copy document n (copy (node.value.getD "description") target)
          else none
        | _ => none
      | none =>
        if (schemaParts node).all fun part => (writeOut? copy document n part).isSome then
          some (replaceParts (fun part => (writeOut? copy document n part).getD .null) node)
        else none
    else some node.value

section
variable {document : Json} {node : Node} {w : Json}

theorem expands_of_writeOut? {copy : Json → Node → Node} {n : ℕ}
    (h : writeOut? copy document n node = some w) : Expands copy document node w := by
  induction n generalizing node w with
  | zero => cases h
  | succ n ih =>
    rw [writeOut?] at h
    cases hobject : node.value.isObject with
    | false =>
      rw [if_neg (ne_true_of_eq_false hobject)] at h
      obtain rfl := Option.some.inj h
      exact .plain hobject
    | true =>
      rw [if_pos hobject] at h
      cases href : ref? node with
      | some ref =>
        rw [href] at h
        dsimp only at h
        split at h
        · next target hresolve =>
          split_ifs at h with htarget
          exact .reference href hresolve htarget (ih h)
        · cases h
      | none =>
        rw [href] at h
        dsimp only at h
        split_ifs at h with hparts
        obtain rfl := Option.some.inj h
        refine .schema hobject href fun part hpart => ih ?_
        obtain ⟨v, hv⟩ := Option.isSome_iff_exists.mp (List.all_eq_true.mp hparts part hpart)
        rw [hv, Option.getD_some]

theorem describedTarget_null (target : Node) : describedTarget .null target = target := by
  rw [describedTarget]
  split
  · exact if_neg (by simp [Json.truthy])
  · rfl

/-- A target is taken as it is, or as a copy with another description. -/
theorem describedTarget_cases (description : Json) (target : Node) :
    describedTarget description target = target ∨
      ∃ fields, target.value = .obj fields ∧ describedTarget description target =
        ⟨.obj (setField "description" description fields), target.place, true⟩ := by
  rw [describedTarget]
  split
  · next fields hvalue =>
    split
    · exact .inr ⟨fields, hvalue, rfl⟩
    · exact .inl rfl
  · exact .inl rfl

theorem isObject_describedTarget (description : Json) (target : Node) :
    (describedTarget description target).value.isObject = target.value.isObject := by
  rcases describedTarget_cases description target with h | ⟨fields, hvalue, h⟩
  · rw [h]
  · rw [h, hvalue]
    rfl

theorem ref?_describedTarget (description : Json) (target : Node) :
    ref? (describedTarget description target) = ref? target := by
  rcases describedTarget_cases description target with h | ⟨fields, hvalue, h⟩
  · rw [h]
  · simp only [h, ref?, Json.getD, Json.get?, hvalue,
      lookupField_setField_of_ne (show "$ref" ≠ "description" by simp)]

/-- There are no schemas in a description. -/
theorem schemaParts_describedTarget (description : Json) (target : Node) :
    schemaParts (describedTarget description target) = schemaParts target := by
  rcases describedTarget_cases description target with h | ⟨fields, hvalue, h⟩
  · rw [h]
  · simp only [h, schemaParts, Catalog.fieldNodes, hvalue, List.flatMap_map]
    exact flatMap_setField (fun v => by simp [partsAt]) description fields

theorem exists_expands_describedTarget (h : Transparent document node)
    (hnode : node.altered = false) :
    ∀ description, ∃ w, Expands describedTarget document (describedTarget description node) w := by
  refine h.induction hnode ?_
  intro first hfirst ih description
  have hobject_eq := isObject_describedTarget description first
  have href_eq := ref?_describedTarget description first
  cases hobject : first.value.isObject with
  | false => exact ⟨_, .plain (hobject_eq.trans hobject)⟩
  | true =>
    cases href : ref? first with
    | some ref =>
      obtain ⟨target, hresolve, htarget⟩ := hfirst.resolves first .refl ref href
      obtain ⟨w, hw⟩ := ih target (.reference href hresolve)
        ((describedTarget description first).value.getD "description")
      exact ⟨w, .reference (href_eq.trans href) hresolve htarget hw⟩
    | none =>
      have hparts (part : Node) :
          ∃ w, part ∈ schemaParts first → Expands describedTarget document part w := by
        by_cases hpart : part ∈ schemaParts first
        · obtain ⟨w, hw⟩ := ih part (.part href hpart) .null
          exact ⟨w, fun _ => describedTarget_null part ▸ hw⟩
        · exact ⟨.null, fun hmem => absurd hmem hpart⟩
      choose replace hreplace using hparts
      refine ⟨replaceParts replace _,
        .schema (hobject_eq.trans hobject) (href_eq.trans href) fun part hpart => ?_⟩
      exact hreplace part (schemaParts_describedTarget description first ▸ hpart)

/-- The references of a transparent schema can be written out, with the descriptions that stand
beside them. -/
theorem exists_expands (h : Transparent document node) (hnode : node.altered = false) :
    ∃ w, Expands describedTarget document node w := by
  obtain ⟨w, hw⟩ := exists_expands_describedTarget h hnode .null
  exact ⟨w, describedTarget_null node ▸ hw⟩

theorem KeepsTargets.of_leads {other : Node} (h : KeepsTargets document node)
    (hleads : Leads document node other) : KeepsTargets document other :=
  fun first hfirst => h first (.head hleads hfirst)

/-- Where no target takes up a description, references are replaced by their targets themselves. -/
theorem expands_target_iff (h : KeepsTargets document node) :
    Expands (fun _ target => target) document node w ↔
      Expands describedTarget document node w := by
  constructor
  · intro hexpands
    induction hexpands with
    | plain no_object => exact .plain no_object
    | reference is_ref resolved is_object _ ih =>
      have htarget := h _ .refl _ _ is_ref resolved
      refine .reference is_ref resolved is_object ?_
      rw [htarget]
      exact ih (h.of_leads (.reference is_ref resolved))
    | schema is_object no_ref _ ih =>
      exact .schema is_object no_ref fun part hpart =>
        ih part hpart (h.of_leads (.part no_ref hpart))
  · intro hexpands
    induction hexpands with
    | plain no_object => exact .plain no_object
    | reference is_ref resolved is_object _ ih =>
      have htarget := h _ .refl _ _ is_ref resolved
      rw [htarget] at ih
      exact .reference is_ref resolved is_object (ih (h.of_leads (.reference is_ref resolved)))
    | schema is_object no_ref _ ih =>
      exact .schema is_object no_ref fun part hpart =>
        ih part hpart (h.of_leads (.part no_ref hpart))

end

/-! ## Schemas without references -/

section
variable {document : Json} {node other part : Node} {replace : Node → Json}

theorem fieldNodes_of_replaceParts (h : other.value = replaceParts replace node) :
    Catalog.fieldNodes other = (Catalog.fieldNodes node).map fun (key, part) =>
      (key, ⟨replaceAt replace key part, other.place.step (.key key), false⟩) := by
  rw [Catalog.fieldNodes, h, replaceParts]
  exact List.map_map

theorem lookupField_of_replaceParts (h : other.value = replaceParts replace node) (key : String) :
    lookupField key (Catalog.fieldNodes other) =
      (lookupField key (Catalog.fieldNodes node)).map fun part =>
        ⟨replaceAt replace key part, other.place.step (.key key), false⟩ := by
  rw [fieldNodes_of_replaceParts h]
  exact lookupField_map (fun key part =>
    (⟨replaceAt replace key part, other.place.step (.key key), false⟩ : Node)) key _

theorem replaceAt_eq_value {key : String} (hkey : key ∉ schemaKeywords) (node : Node) :
    replaceAt replace key node = node.value := by
  simp only [schemaKeywords, List.mem_cons, List.not_mem_nil, or_false, not_or] at hkey
  rw [replaceAt] <;> simp [hkey]

/-- Nothing else in a schema is replaced. -/
theorem lookupField_replaceParts (replace : Node → Json) {fields others : List (String × Json)}
    (hvalue : node.value = .obj fields) (h : replaceParts replace node = .obj others) {key : String}
    (hkey : key ∉ schemaKeywords) : lookupField key others = lookupField key fields := by
  obtain rfl := Json.obj.inj h
  rw [lookupField_map, lookupField_fieldNodes hvalue, Option.map_map]
  cases lookupField key fields with
  | none => rfl
  | some v => exact congrArg some (replaceAt_eq_value hkey _)

theorem ref?_of_replaceParts (hobject : node.value.isObject = true)
    (h : other.value = replaceParts replace node) : ref? other = ref? node := by
  obtain ⟨fields, hvalue⟩ := exists_fields_of_isObject hobject
  have hlookup := lookupField_replaceParts replace hvalue rfl
    (show "$ref" ∉ schemaKeywords by decide)
  rw [ref?, ref?, Json.getD, Json.getD, h, hvalue, Json.get?, ← hlookup]
  rfl

theorem items_of_replaceAt {key : String} (hkey : key ∈ ["oneOf", "anyOf", "allOf"])
    (h : other.value = replaceAt replace key node) :
    other.items = other.itemsFrom 0 (node.items.map replace) := by
  simp only [List.mem_cons, List.not_mem_nil, or_false] at hkey
  rw [Node.items, Node.items, h]
  rcases hkey with rfl | rfl | rfl <;> cases hvalue : node.value <;>
    simp [replaceAt, hvalue, Node.items, Node.itemsFrom]

theorem fieldNodes_of_replaceAt (h : other.value = replaceAt replace "properties" node) :
    Catalog.fieldNodes other = (Catalog.fieldNodes node).map fun (name, part) =>
      (name, ⟨replace part, other.place.step (.key name), false⟩) := by
  rw [Catalog.fieldNodes, Catalog.fieldNodes, h]
  cases hvalue : node.value <;> simp [replaceAt, hvalue, Catalog.fieldNodes]

/-- The schemas inside a schema whose parts were replaced are the replaced parts. -/
theorem exists_of_mem_schemaParts (h : other.value = replaceParts replace node)
    (hpart : part ∈ schemaParts other) : ∃ own ∈ schemaParts node, part.value = replace own := by
  obtain ⟨key, child, hchild, hpart⟩ := mem_schemaParts.mp hpart
  rw [fieldNodes_of_replaceParts h] at hchild
  obtain ⟨⟨key, list⟩, hlist, heq⟩ := List.mem_map.mp hchild
  cases heq
  suffices ∃ own ∈ partsAt key list, part.value = replace own by
    obtain ⟨own, hown, hvalue⟩ := this
    exact ⟨own, mem_schemaParts.mpr ⟨key, list, hlist, hown⟩, hvalue⟩
  unfold partsAt at hpart
  split at hpart
  case h_1 | h_2 | h_3 =>
    rw [items_of_replaceAt (by simp) rfl] at hpart
    obtain ⟨own, hown, hvalue⟩ := List.mem_map.mp (place_of_mem_itemsFrom hpart).1
    exact ⟨own, hown, hvalue.symm⟩
  case h_4 | h_5 =>
    obtain rfl := List.mem_singleton.mp hpart
    exact ⟨list, List.mem_singleton_self list, rfl⟩
  case h_6 =>
    rw [fieldNodes_of_replaceAt rfl] at hpart
    obtain ⟨field, hfield, rfl⟩ := List.mem_map.mp hpart
    obtain ⟨⟨name, own⟩, hown, rfl⟩ := List.mem_map.mp hfield
    exact ⟨own, List.mem_map.mpr ⟨(name, own), hown, rfl⟩, rfl⟩
  case h_7 => cases hpart

/-- No references are left where they were written out. -/
theorem ref?_eq_none_of_expands {copy : Json → Node → Node} {w : Json}
    (h : Expands copy document node w) {first : Node} (hfirst : first.value = w)
    (hreaches : ReflTransGen (Leads document) first other) : ref? other = none := by
  induction h generalizing first with
  | @plain node no_object =>
    rw [← hfirst] at no_object
    have hnone := ref?_eq_none_of_no_object no_object
    rcases hreaches.cases_head with rfl | ⟨next, hleads, -⟩
    · exact hnone
    · cases hleads with
      | part _ mem => exact absurd mem (schemaParts_of_no_object no_object ▸ List.not_mem_nil)
      | reference is_ref => rw [hnone] at is_ref; cases is_ref
  | reference _ _ _ _ ih => exact ih hfirst hreaches
  | @schema node replace is_object no_ref _ ih =>
    have hnone : ref? first = none := (ref?_of_replaceParts is_object hfirst).trans no_ref
    rcases hreaches.cases_head with rfl | ⟨next, hleads, hreaches⟩
    · exact hnone
    · cases hleads with
      | part _ mem =>
        obtain ⟨own, hown, hvalue⟩ := exists_of_mem_schemaParts hfirst mem
        exact ih own hown hvalue hreaches
      | reference is_ref => rw [hnone] at is_ref; cases is_ref

/-- A schema whose references were written out is transparent. -/
theorem transparent_of_expands {copy : Json → Node → Node} {w : Json}
    (h : Expands copy document node w) : Transparent document (.ofValue w) := by
  have hnone (other : Node) (hreaches : ReflTransGen (Leads document) (.ofValue w) other) :
      ref? other = none := ref?_eq_none_of_expands h rfl hreaches
  have hlonger (place : Place) (step : Step) :
      place.steps.length < (place.step step).steps.length := Nat.lt_succ_self _
  refine transparent_of_rank (P := ReflTransGen (Leads document) (.ofValue w)) hlonger .refl
    (fun first other hfirst hleads => hfirst.tail hleads) fun other hother ref href => ?_
  rw [hnone other hother] at href
  cases href

end

end Toolgate.Schema
