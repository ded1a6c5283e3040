import Toolgate.Proofs.Catalog.Faults
import Toolgate.Proofs.Schema.Definite
import Toolgate.Proofs.Service.Agreement

/-!
# Arguments that are checked again

The arguments that an operation has accepted are accepted again, and come out as they are, when none
of its schemas puts up alternatives and its slots have distinct names. Of two slots that share a name
the one changes what the other is checked against the second time: what a whole body was made of may
be no value for the parameter that bears its name.

## Main definitions

* `Endpoint.IsDefinite`: none of the schemas of the endpoint puts up alternatives

## Main statements

* `checkArguments_checked`: accepted arguments are checked to themselves
-/

namespace Toolgate.Catalog

open Schema (Definite Shape)

/-! ## Definite endpoints -/

/-- None of the schemas that are translated for the endpoint comes to one with alternatives. -/
def Endpoint.IsDefinite (document : Json) (e : Endpoint) : Prop :=
  ∀ schema ∈ schemasOf (.of document) e, Definite document schema

section
variable {document : Json} {e : Endpoint} {operation : String} {slots : List Slot}

theorem isStable_of_isDefinite (he : e ∈ endpoints document) (hdefinite : e.IsDefinite document)
    (h : slotsOf (.of document) operation e = .ok slots) :
    ∀ slot ∈ slots, slot.form.shape.IsStable := by
  refine shape_of_slotsOf h Shape.isStable_anything (Shape.isStable_text {})
    fun schema hschema called form hform => ?_
  have hstable := Schema.isStable_of_definite (Schema.Network.covers_nodesOf document)
    (subset_nodesOf_of_schemasOf he hschema) (hdefinite schema hschema) hform
  exact ⟨hstable.shape, hstable.members⟩

end

end Toolgate.Catalog

namespace Toolgate.Service

open Catalog
open Schema (Shape)

variable {options : Options} {clientUrl : String} {description : Json} {table : Table}
  {entry : String × Operation} {arguments checked : Json}

/-- The record of slots with distinct names is stable when their shapes are. -/
theorem isStable_inputShape {name : String} {slots : List Slot}
    (hproper : ∀ slot ∈ slots, slot.form.shape.IsProper)
    (hstable : ∀ slot ∈ slots, slot.form.shape.IsStable)
    (hnodup : (slots.map (·.name)).Nodup) : (inputShape name slots).IsStable := by
  obtain ⟨called, hinput⟩ := exists_inputShape_eq name slots
  rw [hinput]
  split
  · refine Schema.isStable_record_fieldsOf called [] (List.forall_mem_map.mpr hproper)
      (List.forall_mem_map.mpr hstable) ?_
    rwa [List.map_map]
  · exact Shape.isStable_record (List.forall_mem_nil _) List.nodup_nil (List.forall_mem_nil _)
      (List.forall_mem_nil _)

/-- Arguments that an operation has accepted are accepted again, and come out as they are, when none
of the schemas that are translated for it comes to one with alternatives, and its slots have distinct
names. -/
theorem checkArguments_checked (hcompile : compile options clientUrl description = .ok table)
    (hentry : entry ∈ table.operations)
    (hdefinite : ∀ e ∈ endpoints (documentOf description),
      Operation.ofEndpoint (.of (documentOf description)) entry.1 e = .ok entry.2 →
        e.IsDefinite (documentOf description))
    (hnodup : (entry.2.slots.map (·.name)).Nodup)
    (hchecked : checkArguments entry.2 arguments = .ok checked) :
    checkArguments entry.2 checked = .ok checked := by
  obtain ⟨hinput, hproper⟩ := input_of_mem hcompile hentry
  have hstable : ∀ slot ∈ entry.2.slots, slot.form.shape.IsStable := by
    rcases exists_endpoint_or_reporting hcompile hentry with ⟨e, he, hop⟩ | ⟨_, _, hreporting⟩
    · exact isStable_of_isDefinite he (hdefinite e he hop) (Operation.slots_of_ofEndpoint hop).1
    · rw [hreporting]
      exact List.forall_mem_nil _
  obtain ⟨fit, haccept⟩ := checkArguments_eq_ok_iff.mp hchecked
  obtain ⟨fit, hagain⟩ := hinput ▸ isStable_inputShape hproper hstable hnodup false _ _ fit
    (hinput ▸ haccept)
  obtain ⟨_, _, hrecord, -⟩ := exists_input_eq hcompile hentry
  obtain ⟨_, out, -, rfl, -⟩ :=
    (holds_of_checkArguments hcompile hentry hchecked).keepsKeys .refl hrecord
  exact checkArguments_eq_ok_iff.mpr ⟨fit, (argumentsOf_obj out).symm ▸ hagain⟩

/-! ## A truth value beside texts -/

/-- The members of an operation whose whole body is a truth value. -/
def truthBodyOperation : Call.Fields :=
  [("operationId", .str "s"), ("requestBody", .obj [("content", .obj [("application/json",
    .obj [("schema", .obj [("type", .str "boolean")])])])])]

/-- A description of that operation under a path. -/
def truthDescription (path : String) : Json :=
  soleDescription path "post" truthBodyOperation

/-- The slots of that operation: one for each variable of its path, and the body. -/
def truthSlots (names : List String) (body : String) : List Slot :=
  names.map variableSlot ++ [⟨body, .body, ⟨.boolean, .truth, "", []⟩, false⟩]

theorem exists_compiled_truth {path : String} {names : List String} (body : String)
    (hvariables : Call.variableNames path = names)
    (hbody : bodyArgumentName (.obj [("type", .str "boolean")]) names = body) :
    ∃ table entry, compile {} "" (truthDescription path) = .ok table ∧ entry ∈ table.operations ∧
      entry.2.slots = truthSlots names body ∧
      entry.2.input = inputShape "s" (truthSlots names body) := by
  set e := soleEndpoint path "post" truthBodyOperation
  set source := Source.of (documentOf (truthDescription path))
  have hname : (({} : Naming.Names).resolve e.candidate).1 = "s" := by
    rw [show e.candidate = "s" from rfl]
    decide +kernel
  have hparameters : parametersOf source e = .ok [] := rfl
  have houtside : pathAndQuerySlots source "s" e = .ok (names.map variableSlot) := by
    have hvariables : Call.variableNames e.path = names := hvariables
    simp [pathAndQuerySlots, hparameters, hvariables, parameterSlots, Except.map]
  obtain ⟨place, hschema⟩ : ∃ place, bodyOf source e =
      .ok (some (⟨.obj [("type", .str "boolean")], place, false⟩, false)) := ⟨_, rfl⟩
  have hform : source.form ⟨.obj [("type", .str "boolean")], place, false⟩ ("s" ++ "_body") =
      .ok ⟨.boolean, .truth, "", []⟩ := by
    rw [Source.form, Schema.translate_of_no_ref rfl (by simp [lookupField]) (.inr List.not_mem_nil),
      Schema.translateFields]
    rfl
  have hslots : slotsOf source "s" e = .ok (truthSlots names body) := by
    have hnames : (names.map variableSlot).map (·.name) = names := by
      simp [variableSlot, Function.comp_def]
    simp only [slotsOf, houtside, hschema, hform, bodySlots, hnames, hbody]
    rfl
  obtain ⟨table, hcompile, entry, hentry, hcalled, hop, hentrySlots⟩ :=
    exists_compiled_of_slotsOf "" (endpoints_soleDescription (by decide))
      (show ({} : Options).admits _ = true from rfl) (hname ▸ hslots)
  refine ⟨table, entry, hcompile, hentry, hentrySlots, ?_⟩
  rw [(Operation.slots_of_ofEndpoint hop).2, hentrySlots, hcalled, hname]

theorem isDefinite_truth (path : String) : ∀ e ∈ endpoints (documentOf (truthDescription path)),
    e.IsDefinite (documentOf (truthDescription path)) := by
  intro e he schema hschema
  rw [truthDescription, endpoints_soleDescription (by decide), List.mem_singleton] at he
  subst he
  obtain ⟨place, hbody⟩ : ∃ place, schemasOf (.of (documentOf (truthDescription path)))
    (soleEndpoint path "post" truthBodyOperation) =
      [⟨.obj [("type", .str "boolean")], place, false⟩] := ⟨_, rfl⟩
  rw [hbody, List.mem_singleton] at hschema
  subst hschema
  exact Schema.definite_of_leaf rfl fun _ hvalue => Json.obj.inj hvalue ▸ Schema.isDefinite_type _

/-- A text that is read as a truth value beside one that is kept. -/
theorem checkArguments_checked_truth : ∃ table entry,
    compile {} "" (truthDescription "/\x7bq\x7d") = .ok table ∧ entry ∈ table.operations ∧
      checkArguments entry.2 (.obj [("q", .str "5"), ("body", .str "yes")]) =
        .ok (.obj [("q", .str "5"), ("body", .bool true)]) ∧
      checkArguments entry.2 (.obj [("q", .str "5"), ("body", .bool true)]) =
        .ok (.obj [("q", .str "5"), ("body", .bool true)]) := by
  obtain ⟨table, entry, hcompile, hentry, hslots, hinput⟩ :=
    exists_compiled_truth "body" (show Call.variableNames "/\x7bq\x7d" = ["q"] by decide +kernel)
      (by decide +kernel)
  have hchecked : checkArguments entry.2 (.obj [("q", .str "5"), ("body", .str "yes")]) =
      .ok (.obj [("q", .str "5"), ("body", .bool true)]) := by
    rw [checkArguments, hinput]
    rfl
  have hnodup : (entry.2.slots.map (·.name)).Nodup := by
    rw [hslots]
    decide
  exact ⟨table, entry, hcompile, hentry, hchecked,
    checkArguments_checked hcompile hentry (fun e he _ => isDefinite_truth _ e he) hnodup hchecked⟩

/-- Texts for the first two variables of the crowded path, and a value for the third. -/
def crowdedArguments (last : Json) : Json :=
  .obj [("body", .str "a"), ("request_body", .str "b"), ("body_3", last)]

/-- A body that shares its name with a variable turns the text for that variable into a truth value,
which the variable then refuses. -/
theorem refused_again_beside_body : ∃ table entry,
    compile {} "" (truthDescription crowdedPath) = .ok table ∧ entry ∈ table.operations ∧
      (∀ e ∈ endpoints (documentOf (truthDescription crowdedPath)),
        e.IsDefinite (documentOf (truthDescription crowdedPath))) ∧
      checkArguments entry.2 (crowdedArguments (.str "yes")) =
        .ok (crowdedArguments (.bool true)) ∧
      ¬∃ again, checkArguments entry.2 (crowdedArguments (.bool true)) = .ok again := by
  obtain ⟨table, entry, hcompile, hentry, -, hinput⟩ :=
    exists_compiled_truth "body_3" variableNames_crowdedPath (by decide +kernel)
  refine ⟨table, entry, hcompile, hentry, isDefinite_truth _, ?_, ?_⟩
  · rw [checkArguments, hinput]
    rfl
  · have hrefused : (checkArguments entry.2 (crowdedArguments (.bool true))).isOk = false := by
      rw [checkArguments, hinput]
      rfl
    rintro ⟨again, hagain⟩
    rw [hagain] at hrefused
    cases hrefused

end Toolgate.Service
