import Toolgate.Proofs.Catalog.Faults
import Toolgate.Proofs.Catalog.Registration
import Toolgate.Proofs.Catalog.Slots
import Toolgate.Proofs.Schema.Object
import Toolgate.Service.Invoke

/-!
# Checked arguments

The arguments of an operation are checked against one record with a field for each slot. The record
is there only if each slot can be checked; else a record without fields takes its place, and every
object is let through.

## Main definitions

* `Slot.Admits`: are the given arguments fit for a slot?

## Main statements

* `shape_of_slotsOf`: what holds of the forms of its schemas holds of the slots of an endpoint
* `exists_checked_iff_admits`: which arguments of a compiled operation are accepted
-/

namespace Toolgate.Catalog

open Schema (Member Form Shape accept)

/-! ## The record of the slots -/

/-- Are the given arguments fit for the slot? A slot that is required must be given; a value must be
accepted, or be null where the slot is not required. -/
inductive Slot.Admits (slot : Slot) (given : Call.Fields) : Prop where
  | accepted {v w : Json} {fit : Schema.Fit} (lookup : lookupField slot.name given = some v)
      (accepted : accept true slot.form.shape v = .ok (w, fit))
  | null (lookup : lookupField slot.name given = some .null) (optional : slot.required = false)
  | absent (lookup : lookupField slot.name given = none) (optional : slot.required = false)

theorem Slot.admits_toMember_iff {slot : Slot} {given : Call.Fields} :
    slot.toMember.Admits given ↔ slot.Admits given := by
  constructor
  · rintro (⟨lookup, accepted⟩ | ⟨lookup, optional⟩ | ⟨lookup, optional⟩)
    · exact .accepted lookup accepted
    · exact .null lookup optional
    · exact .absent lookup optional
  · rintro (⟨lookup, accepted⟩ | ⟨lookup, optional⟩ | ⟨lookup, optional⟩)
    · exact .accepted lookup accepted
    · exact .null lookup optional
    · exact .absent lookup optional

/-- The fields of the record of an operation: one for each slot, when each can be checked. -/
def inputFields (slots : List Slot) : List (Schema.Field Shape) :=
  Schema.fieldsOf [] (slots.map Slot.toMember)

theorem mem_inputFields {slots : List Slot} {field : Schema.Field Shape}
    (h : field ∈ inputFields slots) :
    ∃ slot ∈ slots, ∃ name, field = slot.toMember.toField name := by
  obtain ⟨member, hmember, name, rfl⟩ := Schema.mem_fieldsOf h
  obtain ⟨slot, hslot, rfl⟩ := List.mem_map.mp hmember
  exact ⟨slot, hslot, name, rfl⟩

theorem exists_toField_mem_inputFields {slots : List Slot} {slot : Slot} (h : slot ∈ slots) :
    ∃ name, slot.toMember.toField name ∈ inputFields slots :=
  Schema.exists_toField_mem_fieldsOf (List.mem_map_of_mem h)

theorem all_isSound_inputFields_iff {slots : List Slot} :
    ((inputFields slots).all fun field => field.shape.isSound) = true ↔
      ∀ slot ∈ slots, slot.form.shape.isSound = true := by
  rw [inputFields, Schema.all_isSound_fieldsOf_iff [], List.forall_mem_map]
  rfl

/-- The record of the slots has a field for each when all can be checked, and else none. -/
theorem exists_inputShape_eq (name : String) (slots : List Slot) : ∃ called, inputShape name slots =
    .record called (if ∀ slot ∈ slots, slot.form.shape.isSound = true then inputFields slots
      else []) := by
  by_cases hsound : ∀ slot ∈ slots, slot.form.shape.isSound = true
  · rw [if_pos hsound]
    rw [← all_isSound_inputFields_iff] at hsound
    exact ⟨_, congrArg (Option.getD · _) (if_pos hsound)⟩
  · rw [if_neg hsound]
    rw [← all_isSound_inputFields_iff] at hsound
    exact ⟨_, congrArg (Option.getD · _) (if_neg hsound)⟩

/-! ## Shapes of slots -/

section
variable {source : Source} {operation : String} {e : Endpoint} {slots : List Slot}
  {P : Shape → Prop}

theorem shape_of_parameterSlots {origin : Origin} {claimed : List String} {parameters : List Node}
    (h : parameterSlots source operation origin claimed parameters = .ok slots)
    (hanything : P .anything)
    (hform : ∀ parameter ∈ slotted origin.name claimed parameters,
      ∀ schema ∈ (parameter.2.get? "schema").filter (·.value.truthy), ∀ called form,
        source.form schema called = .ok form → P form.shape) :
    ∀ slot ∈ slots, P slot.form.shape := by
  induction parameters generalizing claimed slots with
  | nil => exact Except.ok.inj h ▸ List.forall_mem_nil _
  | cons parameter rest ih =>
    rw [parameterSlots] at h
    rw [slotted] at hform
    cases hname : (parameterName? origin.name parameter).filter (!claimed.contains ·) with
    | none =>
      rw [hname] at h hform
      exact ih h hform
    | some name =>
      rw [hname] at h hform
      dsimp only at h hform
      obtain ⟨hfirst, hrest⟩ := List.forall_mem_cons.mp hform
      split at h
      · cases h
      · next form hfound =>
        obtain ⟨others, hothers, rfl⟩ := map_eq_ok.mp h
        refine List.forall_mem_cons.mpr ⟨?_, ih hothers hrest⟩
        rw [Source.formOrAny] at hfound
        split at hfound
        · next schema hschema => exact hfirst schema hschema _ form hfound
        · exact Except.ok.inj hfound ▸ hanything

theorem shape_of_pathAndQuerySlots (h : pathAndQuerySlots source operation e = .ok slots)
    (hanything : P .anything) (htext : P (.text {}))
    (hform : ∀ schema ∈ schemasOf source e, ∀ called form, source.form schema called = .ok form →
      P form.shape) :
    ∀ slot ∈ slots, P slot.form.shape := by
  rw [pathAndQuerySlots] at h
  split at h
  · cases h
  next parameters hparameters =>
  split at h
  · cases h
  next pathSlots hpath =>
  obtain ⟨querySlots, hquery, rfl⟩ := map_eq_ok.mp h
  rw [names_parameterSlots hpath] at hquery
  have hpathShapes : ∀ slot ∈ pathSlots, P slot.form.shape :=
    shape_of_parameterSlots hpath hanything fun parameter hparameter schema hschema =>
      hform schema
        (mem_schemasOf_of_slotted hparameters (List.mem_append_left _ hparameter) hschema)
  have hqueryShapes : ∀ slot ∈ querySlots, P slot.form.shape :=
    shape_of_parameterSlots hquery hanything fun parameter hparameter schema hschema =>
      hform schema
        (mem_schemasOf_of_slotted hparameters (List.mem_append_right _ hparameter) hschema)
  rw [List.forall_mem_append, List.forall_mem_append]
  exact ⟨⟨hpathShapes, hqueryShapes⟩, List.forall_mem_map.mpr fun _ _ => htext⟩

/-- What holds of the forms of all schemas that are translated for an endpoint, and of the members
of these forms, holds of the shapes of its slots. -/
theorem shape_of_slotsOf (h : slotsOf source operation e = .ok slots) (hanything : P .anything)
    (htext : P (.text {}))
    (hform : ∀ schema ∈ schemasOf source e, ∀ called form, source.form schema called = .ok form →
      P form.shape ∧ ∀ member ∈ form.members, P member.form.shape) :
    ∀ slot ∈ slots, P slot.form.shape := by
  rw [slotsOf] at h
  split at h
  · cases h
  next outside houtside =>
  have hshapes : ∀ slot ∈ outside, P slot.form.shape :=
    shape_of_pathAndQuerySlots houtside hanything htext fun schema hschema called form heq =>
      (hform schema hschema called form heq).1
  split at h
  · cases h
  · exact Except.ok.inj h ▸ hshapes
  · next schema required hbody =>
    obtain ⟨form, hfound, rfl⟩ := map_eq_ok.mp h
    obtain ⟨hshape, hmembers⟩ := hform schema (mem_schemasOf_of_bodyOf hbody) _ form hfound
    refine List.forall_mem_append.mpr ⟨hshapes, fun slot hslot => ?_⟩
    rw [bodySlots] at hslot
    split at hslot
    · obtain ⟨-, member, hmember, heq⟩ := (memberSlots_spec _ _).2 slot hslot
      exact heq ▸ hmembers member hmember
    · exact List.mem_singleton.mp hslot ▸ hshape

/-- The shapes of the slots of an endpoint are proper. -/
theorem isProper_of_slotsOf (h : slotsOf source operation e = .ok slots) :
    ∀ slot ∈ slots, slot.form.shape.IsProper :=
  shape_of_slotsOf h (.leaf rfl) (.leaf rfl) fun _ _ _ _ hform =>
    have hproper := (Schema.translated_of_translate hform).isProper
    ⟨hproper.shape, hproper.members⟩

end

end Toolgate.Catalog

namespace Toolgate.Service

open Catalog
open Naming (Names)
open Schema (accept translateFields)

/-! ## Arguments that are checked -/

/-- What arguments become that are checked against the slots of an operation. -/
def checkedFields (slots : List Slot) (given : Call.Fields) : Call.Fields :=
  Schema.mergeFields (Schema.recordFields given (inputFields slots))

section
variable {source : Source} {name : String} {e : Endpoint} {operation : Operation}
  {arguments checked : Json}

theorem argumentsOf_obj (given : Call.Fields) : argumentsOf (.obj given) = .obj given := by
  cases given <;> rfl

theorem checkArguments_eq_ok_iff : checkArguments operation arguments = .ok checked ↔
    ∃ fit, Schema.accept false operation.input (argumentsOf arguments) = .ok (checked, fit) := by
  rw [checkArguments, Schema.Shape.validate, map_eq_ok]
  constructor
  · rintro ⟨⟨_, fit⟩, haccept, rfl⟩
    exact ⟨fit, haccept⟩
  · rintro ⟨fit, haccept⟩
    exact ⟨_, haccept, rfl⟩

theorem isProper_of_ofEndpoint (h : Operation.ofEndpoint source name e = .ok operation) :
    ∀ slot ∈ operation.slots, slot.form.shape.IsProper :=
  isProper_of_slotsOf (Operation.slots_of_ofEndpoint h).1

/-- Where each slot can be checked, arguments pass that are fit for every slot. -/
theorem checkArguments_iff_of_sound (h : Operation.ofEndpoint source name e = .ok operation)
    (hsound : ∀ slot ∈ operation.slots, slot.form.shape.isSound = true) :
    checkArguments operation arguments = .ok checked ↔
      ∃ given, argumentsOf arguments = .obj given ∧
        (∀ slot ∈ operation.slots, slot.Admits given) ∧
        checked = .obj (checkedFields operation.slots given) := by
  obtain ⟨called, hinput⟩ := exists_inputShape_eq name operation.slots
  rw [if_pos hsound] at hinput
  rw [checkArguments_eq_ok_iff, (Operation.slots_of_ofEndpoint h).2, hinput, inputFields,
    Schema.accept_record_fieldsOf_iff (List.forall_mem_map.mpr (isProper_of_ofEndpoint h))]
  simp only [List.forall_mem_map, Slot.admits_toMember_iff]
  rfl

/-- Where some slot cannot be checked, every object passes as it is. -/
theorem checkArguments_iff_of_unsound (h : Operation.ofEndpoint source name e = .ok operation)
    (hunsound : ∃ slot ∈ operation.slots, slot.form.shape.isSound = false) :
    checkArguments operation arguments = .ok checked ↔
      ∃ given, argumentsOf arguments = .obj given ∧ checked = .obj (Schema.mergeFields given) := by
  obtain ⟨called, hinput⟩ := exists_inputShape_eq name operation.slots
  rw [if_neg (by simpa using hunsound)] at hinput
  rw [checkArguments_eq_ok_iff, (Operation.slots_of_ofEndpoint h).2, hinput,
    Schema.accept_record_iff (by simp)]
  have hfields (given : Call.Fields) : Schema.recordFields given [] = given := by
    simp [Schema.recordFields, Schema.arrangeFields, Schema.extraFields]
  simp [hfields]

/-- What is given for a slot and is not null is checked against a slot of that name. -/
theorem exists_lookupField_checkedFields {slots : List Slot} {given : Call.Fields} {slot : Slot}
    {v : Json} (hadmits : ∀ slot ∈ slots, slot.Admits given) (hslot : slot ∈ slots)
    (hgiven : lookupField slot.name given = some v) (hv : v ≠ .null) :
    ∃ w, lookupField slot.name (checkedFields slots given) = some w ∧ w ≠ .null ∧
      ∃ other ∈ slots, other.name = slot.name ∧
        ∃ fit, accept true other.form.shape v = .ok (w, fit) := by
  have hfit : ∀ field ∈ inputFields slots, field.IsFit given := by
    rw [inputFields, Schema.forall_isFit_fieldsOf_iff, List.forall_mem_map]
    exact fun other hother => Slot.admits_toMember_iff.mpr (hadmits other hother)
  obtain ⟨_, hfield⟩ := exists_toField_mem_inputFields hslot
  obtain ⟨field, hmem, hwire, w, fit, haccept, hlookup⟩ :=
    Schema.lookupField_recordFields hfit hfield hgiven
  obtain ⟨other, hother, _, rfl⟩ := mem_inputFields hmem
  have haccept : accept true other.form.shape v = .ok (w, fit) := by
    rw [Schema.Member.shape_toField] at haccept
    split at haccept
    · exact haccept
    · rwa [Schema.accept_orNull hv] at haccept
  exact ⟨w, hlookup, Schema.accept_ne_null haccept hv, other, hother, hwire, fit, haccept⟩

/-- What is given for a slot and is not null is there when the arguments have passed, as it was
accepted for a slot of that name, or unchanged. -/
theorem exists_lookupField_of_checkArguments
    (h : Operation.ofEndpoint source name e = .ok operation)
    (hchecked : checkArguments operation arguments = .ok checked) {given : Call.Fields}
    (hgiven : argumentsOf arguments = .obj given) (hkeys : (given.map Prod.fst).Nodup)
    {slot : Slot} {v : Json} (hslot : slot ∈ operation.slots)
    (hv : lookupField slot.name given = some v) (hnull : v ≠ .null) :
    ∃ w, lookupField slot.name (checked.fields?.getD []) = some w ∧ w ≠ .null ∧
      ((∃ other ∈ operation.slots, other.name = slot.name ∧
        ∃ fit, accept true other.form.shape v = .ok (w, fit)) ∨ w = v) := by
  by_cases hsound : ∀ slot ∈ operation.slots, slot.form.shape.isSound = true
  · obtain ⟨given', hgiven', hadmits, rfl⟩ := (checkArguments_iff_of_sound h hsound).mp hchecked
    obtain rfl := Json.obj.inj (hgiven.symm.trans hgiven')
    obtain ⟨w, hlookup, hw, hother⟩ := exists_lookupField_checkedFields hadmits hslot hv hnull
    exact ⟨w, hlookup, hw, .inl hother⟩
  · obtain ⟨given', hgiven', rfl⟩ :=
      (checkArguments_iff_of_unsound h (by simpa using hsound)).mp hchecked
    obtain rfl := Json.obj.inj (hgiven.symm.trans hgiven')
    refine ⟨v, ?_, hnull, .inr rfl⟩
    rw [Json.fields?, Option.getD_some, Schema.lookupField_mergeFields]
    refine lookupField_of_mem ?_ (List.mem_reverse.mpr (mem_of_lookupField hv))
    rwa [List.map_reverse, List.nodup_reverse]

end

/-- The operation with two parameters of the query: one that may be left out, whose schema has the
given fields, and an integer that may not. -/
def pairOperation (schema : Call.Fields) : Call.Fields :=
  [("operationId", .str "s"), ("parameters", .arr [
    .obj [("name", .str "n"), ("in", .str "query"), ("schema", .obj schema)],
    .obj [("name", .str "q"), ("in", .str "query"), ("required", .bool true),
      ("schema", .obj [("type", .str "integer")])]])]

/-- A description of that operation. -/
def pairDescription (schema : Call.Fields) : Json :=
  soleDescription "/s" "get" (pairOperation schema)

/-- The slots of the two parameters when the first is an integer within bounds. -/
def pairSlots (bounds : Schema.Bounds) : List Slot :=
  [⟨"n", .query, ⟨.integer, .whole bounds, "", []⟩, false⟩,
    ⟨"q", .query, ⟨.integer, .whole {}, "", []⟩, true⟩]

theorem form_of_integer (source : Source) (place : Place) (name : String) :
    source.form ⟨.obj [("type", .str "integer")], place, false⟩ name =
      .ok ⟨.integer, .whole {}, "", []⟩ :=
  Schema.translate_integerSchema List.not_mem_nil

theorem form_of_fractional_minimum (source : Source) (place : Place) (name : String) :
    source.form ⟨.obj [("type", .str "integer"), ("minimum", .float 0.5)], place, false⟩ name =
      .ok ⟨.integer, .whole { atLeast := some (.real 0.5) }, "", []⟩ := by
  rw [Source.form, Schema.translate]
  simp only [List.contains_nil, Bool.and_false, Bool.false_eq_true, if_false]
  rw [translateFields]
  rfl

theorem exists_compiled_pair {field : String × Json} {rest : Call.Fields} {bounds : Schema.Bounds}
    (hform : ∀ source place name, Source.form source ⟨.obj (field :: rest), place, false⟩ name =
      .ok ⟨.integer, .whole bounds, "", []⟩) :
    ∃ table entry route, compile {} "" (pairDescription (field :: rest)) = .ok table ∧
      entry ∈ table.operations ∧ entry.2.action = .request route ∧
      entry.2.slots = pairSlots bounds := by
  let n := Json.obj [("name", .str "n"), ("in", .str "query"), ("schema", .obj (field :: rest))]
  let q := Json.obj [("name", .str "q"), ("in", .str "query"), ("required", .bool true),
    ("schema", .obj [("type", .str "integer")])]
  set e := soleEndpoint "/s" "get" (pairOperation (field :: rest))
  set source := Source.of (documentOf (pairDescription (field :: rest)))
  have hname : (({} : Names).resolve e.candidate).1 = "s" := by
    rw [show e.candidate = "s" from rfl]
    decide +kernel
  have hvariables : Call.variableNames e.path = [] := by
    rw [show e.path = "/s" from rfl]
    decide +kernel
  obtain ⟨p₁, p₂, hparameters⟩ :
      ∃ p₁ p₂, parametersOf source e = .ok [⟨n, p₁, false⟩, ⟨q, p₂, false⟩] := ⟨_, _, rfl⟩
  have hbody : bodyOf source e = .ok none := rfl
  have hpath : parameterSlots source "s" .path [] [⟨n, p₁, false⟩, ⟨q, p₂, false⟩] = .ok [] := rfl
  have hlast : parameterSlots source "s" .query ["n"] [⟨q, p₂, false⟩] =
      .ok [⟨"q", .query, ⟨.integer, .whole {}, "", []⟩, true⟩] := by
    have hq : (parameterName? Catalog.Origin.query.name ⟨q, p₂, false⟩).filter
        (!List.contains ["n"] ·) = some "q" := rfl
    exact parameterSlots_cons source "s" hq (form_of_integer source (p₂.step (.key "schema")) "s_q")
      rfl
  have hquery : parameterSlots source "s" .query [] [⟨n, p₁, false⟩, ⟨q, p₂, false⟩] =
      .ok (pairSlots bounds) := by
    have hn : (parameterName? Catalog.Origin.query.name ⟨n, p₁, false⟩).filter
        (!List.contains [] ·) = some "n" := rfl
    exact parameterSlots_cons source "s" hn (hform source (p₁.step (.key "schema")) "s_n") hlast
  have hslots : slotsOf source "s" e = .ok (pairSlots bounds) :=
    slotsOf_of_query hparameters hbody hvariables hpath hquery
  obtain ⟨table, entry, hcompile, hentry, hentrySlots, haction, -⟩ :=
    exists_compiled_sole "" (by decide) (show ({} : Options).admits _ = true from rfl) hname hslots
  exact ⟨table, entry, _, hcompile, hentry, haction, hentrySlots⟩

/-- A text that is no number is not fit for an integer. -/
theorem not_admits_text {slot : Slot} {given : Call.Fields} (hshape : slot.form.shape = .whole {})
    (hgiven : lookupField slot.name given = some (.str "x")) : ¬slot.Admits given := by
  rintro (⟨lookup, accepted⟩ | ⟨lookup, -⟩ | ⟨lookup, -⟩)
  · obtain rfl := Option.some.inj (hgiven.symm.trans lookup)
    rw [hshape, accept] at accepted
    cases accepted
  · cases hgiven.symm.trans lookup
  · cases hgiven.symm.trans lookup

end Toolgate.Service
