import Toolgate.Proofs.Schema.Advert
import Toolgate.Proofs.Schema.Merged
import Toolgate.Proofs.Schema.Missing
import Toolgate.Proofs.Service.Keys

/-!
# What is asked for

Callers are shown the slots of an operation as the properties of a schema, with a list of those that
must be given. A call that lacks one of them is rejected for that reason, and no other call is. The
list names them all by their own names if and only if none is named as a reference to the definition
of an inner record has it; such a name is changed as if it were one.

## Main definitions

* `IsRejectedAsIncomplete`: a call is rejected because an argument is missing

## Main statements

* `parameters_match_invoke_iff`: when the advertised schema and the check agree
-/

namespace Toolgate

namespace Schema

theorem wires_required_fieldsOf (taken : List String) (members : List (Member Form)) :
    ((fieldsOf taken members).filter (·.required)).map (·.wire) =
      (members.filter (·.required)).map (·.name) := by
  induction members generalizing taken with
  | nil => rfl
  | cons member rest ih =>
    rw [fieldsOf, List.filter_cons, List.filter_cons]
    have hrequired : (member.toField (Naming.attributeName taken member.name)).required =
        member.required := rfl
    rw [hrequired]
    split
    · exact congrArg (member.name :: ·) (ih _)
    · exact ih _

end Schema

namespace Catalog

open Schema (draftReferences listedRequired)

variable {slots : List Slot}

theorem required_inputFields (slots : List Slot) :
    ((inputFields slots).filter (·.required)).map (·.wire) =
      (slots.filter (·.required)).map (·.name) := by
  rw [inputFields, Schema.wires_required_fieldsOf, List.filter_map, List.map_map]
  rfl

/-- An operation that performs a request is the operation of an endpoint. -/
theorem exists_ofEndpoint_of_mem_api {options : Options} {clientUrl : String} {description : Json}
    {table : Table} {entry : String × Operation}
    (h : compile options clientUrl description = .ok table) (hentry : entry ∈ table.api) :
    ∃ e, Operation.ofEndpoint (.of (documentOf description)) entry.1 e = .ok entry.2 := by
  obtain ⟨-, hops, -⟩ := api_of_compile h
  obtain ⟨e, -, hop⟩ := exists_of_mem_of_forall₂ hops hentry
  exact ⟨e, hop⟩

/-- The records inside the slots of an endpoint have plain names. -/
theorem isPlain_of_slotsOf {source : Source} {operation : String} {e : Endpoint}
    (h : slotsOf source operation e = .ok slots) :
    ∀ record ∈ Schema.Shape.fieldRecordNames (inputFields slots), Schema.IsPlain record := by
  have hslots : ∀ slot ∈ slots, slot.form.shape.NamesPlainly :=
    shape_of_slotsOf h (List.forall_mem_nil _) (List.forall_mem_nil _) fun _ _ _ _ hform =>
      have hplain := (Schema.translated_of_translate hform).namesPlainly
      ⟨hplain.shape, hplain.members⟩
  intro record hrecord
  obtain ⟨field, hfield, hrecord⟩ := Schema.Shape.mem_fieldRecordNames.mp hrecord
  exact Schema.namesPlainly_fieldsOf [] (List.forall_mem_map.mpr hslots) field hfield record hrecord

end Catalog

namespace Service

open Catalog
open Schema (draftReferences listedRequired missingAt)

/-! ## Lists of required slots -/

section
variable {required : List Slot} {listed : List Json} {shown : String → String}
  {references : List String}

/-- Slots are listed under their own names if and only if none is named as a reference. -/
theorem listed_eq_iff (hlisted : listed = required.map fun slot => .str (shown slot.name))
    (hfree : ∀ s, shown s ∉ references) (hown : ∀ s ∉ references, shown s = s) :
    listed = required.map (fun slot => .str slot.name) ↔
      ∀ slot ∈ required, slot.name ∉ references := by
  rw [hlisted, List.map_inj_left]
  refine forall₂_congr fun slot _ => ?_
  rw [Json.str.injEq]
  exact ⟨fun heq => heq ▸ hfree slot.name, hown slot.name⟩

/-- A call that lacks a required slot lacks a listed key, and the other way round, if and only if
no required slot is named as a reference. -/
theorem lacks_iff_lacks_listed_iff
    (hlisted : listed = required.map fun slot => .str (shown slot.name))
    (hfree : ∀ s, shown s ∉ references) (hown : ∀ s ∉ references, shown s = s) :
    (∀ given : Call.Fields, (∃ slot ∈ required, lookupField slot.name given = none) ↔
      ∃ key, .str key ∈ listed ∧ lookupField key given = none) ↔
      ∀ slot ∈ required, slot.name ∉ references := by
  constructor
  · -- All that is listed is given, but not a slot that is listed under another name.
    intro hagree slot hslot hreference
    have hkeys : (required.map fun other => (shown other.name, Json.null)).map Prod.fst =
        required.map fun other => shown other.name := List.map_map
    have hlacks := (hagree (required.map fun other => (shown other.name, .null))).mp
      ⟨slot, hslot, ?_⟩
    · obtain ⟨key, hkey, hnone⟩ := hlacks
      rw [lookupField_eq_none_iff, hkeys] at hnone
      rw [hlisted] at hkey
      obtain ⟨other, hother, heq⟩ := List.mem_map.mp hkey
      exact hnone (Json.str.inj heq ▸ List.mem_map_of_mem hother)
    · rw [lookupField_eq_none_iff, hkeys]
      intro hmem
      obtain ⟨other, -, heq⟩ := List.mem_map.mp hmem
      exact hfree other.name (heq ▸ hreference)
  · intro hapart given
    rw [(listed_eq_iff hlisted hfree hown).mpr hapart]
    simp only [List.mem_map, Json.str.injEq]
    constructor
    · rintro ⟨slot, hslot, hnone⟩
      exact ⟨slot.name, ⟨slot, hslot, rfl⟩, hnone⟩
    · rintro ⟨_, ⟨slot, hslot, rfl⟩, hnone⟩
      exact ⟨slot, hslot, hnone⟩

end

/-! ## Agreement -/

variable {α : Type} [Add α] [Sub α] [Mul α] [Div α] [LT α] [DecidableLT α] [OfNat α 0] [OfNat α 1]
  [OfNat α 1000]

/-- A call is rejected because an argument is missing. Its result tells of the troubles with the
arguments, and nothing is done for it. -/
def IsRejectedAsIncomplete (upstream : Upstream α) (pacer : Pacing.Pacer α) (operation : Operation)
    (arguments : Json) : Prop :=
  ∃ troubles key, checkArguments operation arguments = .error troubles ∧
    missingAt key ∈ troubles ∧ invoke upstream pacer operation arguments =
      some { result := ⟨refusal operation troubles, true⟩, pacer }

section
variable {options : Options} {clientUrl : String} {description : Json} {table : Table}
  {entry : String × Operation}

/-- A call lacks an argument if and only if it is rejected for that reason. -/
theorem isRejectedAsIncomplete_iff (upstream : Upstream α) (pacer : Pacing.Pacer α)
    {operation : Operation} {route : Call.Route} (haction : operation.action = .request route)
    {called : String} (hinput : operation.input = .record called (inputFields operation.slots))
    {arguments : Json} {given : Call.Fields} (hgiven : argumentsOf arguments = .obj given) :
    IsRejectedAsIncomplete upstream pacer operation arguments ↔
      ∃ slot ∈ operation.slots.filter (·.required), lookupField slot.name given = none := by
  have hmissing (key : String) : (∃ troubles, checkArguments operation arguments = .error troubles ∧
      missingAt key ∈ troubles) ↔ key ∈ (operation.slots.filter (·.required)).map (·.name) ∧
        lookupField key given = none := by
    rw [checkArguments, hgiven, hinput, Schema.missingAt_mem_of_validate_iff,
      ← required_inputFields]
    simp only [List.mem_map, List.mem_filter]
    constructor
    · rintro ⟨field, hfield, hwire, hrequired, hnone⟩
      exact ⟨⟨field, ⟨hfield, hrequired⟩, hwire⟩, hnone⟩
    · rintro ⟨⟨field, ⟨hfield, hrequired⟩, hwire⟩, hnone⟩
      exact ⟨field, hfield, hwire, hrequired, hnone⟩
  constructor
  · rintro ⟨troubles, key, hcheck, hmem, -⟩
    obtain ⟨hkey, hnone⟩ := (hmissing key).mp ⟨troubles, hcheck, hmem⟩
    obtain ⟨slot, hslot, rfl⟩ := List.mem_map.mp hkey
    exact ⟨slot, hslot, hnone⟩
  · rintro ⟨slot, hslot, hnone⟩
    obtain ⟨troubles, hcheck, hmem⟩ := (hmissing slot.name).mpr ⟨List.mem_map_of_mem hslot, hnone⟩
    refine ⟨troubles, slot.name, hcheck, hmem, ?_⟩
    simp only [invoke, haction, hcheck]

/-- The required slots are listed under names that are no references to inner records: under their
own where these are none. -/
theorem exists_listedRequired (h : compile options clientUrl description = .ok table)
    (hentry : entry ∈ table.api) {called : String}
    (hinput : entry.2.input = .record called (inputFields entry.2.slots)) :
    ∃ shown : String → String,
      listedRequired entry.2.parameters =
        (entry.2.slots.filter (·.required)).map (fun slot => .str (shown slot.name)) ∧
      (∀ s, shown s ∉ draftReferences (inputFields entry.2.slots)) ∧
      ∀ s ∉ draftReferences (inputFields entry.2.slots), shown s = s := by
  obtain ⟨e, hop⟩ := exists_ofEndpoint_of_mem_api h hentry
  obtain ⟨shown, hlisted, hshown⟩ := Schema.exists_listedRequired_advertise called
    (isPlain_of_slotsOf (Operation.slots_of_ofEndpoint hop).1)
  refine ⟨shown, ?_, hshown⟩
  have hnames :=
    congrArg (List.map fun s => Json.str (shown s)) (required_inputFields entry.2.slots)
  rw [List.map_map, List.map_map] at hnames
  rw [Operation.parameters, hinput, hlisted]
  exact hnames

/-- The properties of the advertised schema are the slots, in order, and a call is rejected for lack
of an argument if and only if it does not give a required slot. The schema lists the required slots
as such, and a call is rejected for lack of an argument if and only if it does not give a listed
one, both exactly when no required slot is named as a reference to an inner record. -/
theorem parameters_match_invoke_iff (h : compile options clientUrl description = .ok table)
    (hentry : entry ∈ table.api) (hnodup : (entry.2.slots.map (·.name)).Nodup)
    (hbuilt : (Schema.recordOf? (entry.1 ++ "_input") (entry.2.slots.map Slot.toMember)).isSome)
    (upstream : Upstream α) (pacer : Pacing.Pacer α) :
    let required := entry.2.slots.filter (·.required)
    let isApart := ∀ slot ∈ required, slot.name ∉ draftReferences (inputFields entry.2.slots)
    (∃ properties, entry.2.parameters.getD "properties" = .obj properties ∧
      properties.map Prod.fst = entry.2.slots.map (·.name)) ∧
    (∀ arguments given, argumentsOf arguments = .obj given →
      (IsRejectedAsIncomplete upstream pacer entry.2 arguments ↔
        ∃ slot ∈ required, lookupField slot.name given = none)) ∧
    (listedRequired entry.2.parameters = required.map (fun slot => .str slot.name) ↔ isApart) ∧
    ((∀ arguments given, argumentsOf arguments = .obj given →
      (IsRejectedAsIncomplete upstream pacer entry.2 arguments ↔
        ∃ key, .str key ∈ listedRequired entry.2.parameters ∧ lookupField key given = none)) ↔
      isApart) := by
  intro required isApart
  have hsound : ∀ slot ∈ entry.2.slots, slot.form.shape.isSound = true := by
    rw [← all_isSound_inputFields_iff]
    by_contra hunsound
    have hnone : Schema.recordOf? (entry.1 ++ "_input") (entry.2.slots.map Slot.toMember) = none :=
      if_neg hunsound
    simp [hnone] at hbuilt
  obtain ⟨e, hop⟩ := exists_ofEndpoint_of_mem_api h hentry
  obtain ⟨called, hshape⟩ := exists_inputShape_eq entry.1 entry.2.slots
  have hinput : entry.2.input = .record called (inputFields entry.2.slots) := by
    rw [(Operation.slots_of_ofEndpoint hop).2, hshape, if_pos hsound]
  have hrejected {arguments : Json} {given : Call.Fields}
      (hgiven : argumentsOf arguments = .obj given) :=
    isRejectedAsIncomplete_iff upstream pacer (Operation.ofEndpoint_spec hop).2.2.2 hinput hgiven
  obtain ⟨shown, hlisted, hfree, hown⟩ := exists_listedRequired h hentry hinput
  have hwires := wires_inputFields entry.2.slots
  refine ⟨?_, fun arguments given hgiven => hrejected hgiven,
    listed_eq_iff hlisted hfree hown, ?_⟩
  · rw [Operation.parameters, hinput, ← hwires]
    exact Schema.properties_advertise called (hwires ▸ hnodup)
  · refine Iff.trans ?_ (lacks_iff_lacks_listed_iff hlisted hfree hown)
    constructor
    · intro hagree given
      rw [← hagree _ given (argumentsOf_obj given), hrejected (argumentsOf_obj given)]
    · intro hagree arguments given hgiven
      rw [hrejected hgiven, hagree given]

end

/-- Two parameters whose names are alike inside the record, one of which must be given. -/
theorem parameters_match_invoke_dashed :
    let description := soleDescription "/s" "get" [("operationId", .str "s"), ("parameters", .arr [
      .obj [("name", .str "a-b"), ("in", .str "query"), ("required", .bool true)],
      .obj [("name", .str "a_b"), ("in", .str "query")]])]
    ∃ table entry properties, compile {} "" description = .ok table ∧ entry ∈ table.api ∧
      entry.2.parameters.getD "properties" = .obj properties ∧
      properties.map Prod.fst = ["a-b", "a_b"] ∧
      listedRequired entry.2.parameters = [.str "a-b"] := by
  intro description
  obtain ⟨table, hcompile, htable⟩ := Session.exists_compiled {} "" description
    (fun table => table.api.any fun entry => entry.2.slots.map (·.name) == ["a-b", "a_b"] &&
      (entry.2.slots.filter (·.required)).map (·.name) == ["a-b"] &&
      (Schema.recordOf? (entry.1 ++ "_input") (entry.2.slots.map Slot.toMember)).isSome &&
      draftReferences (inputFields entry.2.slots) == []) (by decide +kernel)
  obtain ⟨entry, hentry, htests⟩ := List.any_eq_true.mp htable
  simp only [Bool.and_eq_true, beq_iff_eq] at htests
  obtain ⟨⟨⟨hnames, hrequired⟩, hbuilt⟩, hreferences⟩ := htests
  let upstream : Upstream ℚ := ⟨{ baseUrl := "https://api.example.com" }, [], .timedOut⟩
  obtain ⟨⟨properties, hproperties, hkeys⟩, -, hlisted, -⟩ :=
    parameters_match_invoke_iff hcompile hentry (hnames ▸ by decide) hbuilt upstream ⟨.new 0 0, 0⟩
  refine ⟨table, entry, properties, hcompile, hentry, hproperties, hkeys.trans hnames, ?_⟩
  rw [hlisted.mpr fun slot _ => hreferences ▸ List.not_mem_nil]
  simpa using congrArg (List.map Json.str) hrequired

/-! ## A parameter named as a reference -/

/-- The reference to the record of the object `b` of an operation `s` in a draft. -/
def referenceToB : String :=
  "#/$defs/openapi_adapter__schema__SB-Input__1"

/-- An operation with two parameters of the query: one with that name, which must be given, and the
object. -/
def besideObject : Call.Fields :=
  [("operationId", .str "s"), ("parameters", .arr [
    .obj [("name", .str referenceToB), ("in", .str "query"), ("required", .bool true)],
    .obj [("name", .str "b"), ("in", .str "query"), ("schema", .obj (Schema.integerObject "x"))]])]

/-- The slots of the two parameters. -/
def slotsBesideObject : List Slot :=
  [⟨referenceToB, .query, .anything "", true⟩,
    ⟨"b", .query, Schema.integerObjectForm "s_b" "x", false⟩]

theorem exists_compiled_beside : ∃ table entry,
    compile {} "" (soleDescription "/s" "get" besideObject) = .ok table ∧ entry ∈ table.api ∧
      entry.2.slots = slotsBesideObject ∧
      entry.2.input = inputShape entry.1 entry.2.slots := by
  let first := Json.obj [("name", .str referenceToB), ("in", .str "query"),
    ("required", .bool true)]
  let b := Json.obj [("name", .str "b"), ("in", .str "query"),
    ("schema", .obj (Schema.integerObject "x"))]
  set e := soleEndpoint "/s" "get" besideObject
  set source := Source.of (documentOf (soleDescription "/s" "get" besideObject))
  have hcalled : (({} : Naming.Names).resolve e.candidate).1 = "s" := by
    rw [show e.candidate = "s" from rfl]
    decide +kernel
  have hvariables : Call.variableNames e.path = [] := by
    rw [show e.path = "/s" from rfl]
    decide +kernel
  obtain ⟨p₁, p₂, hparameters⟩ :
      ∃ p₁ p₂, parametersOf source e = .ok [⟨first, p₁, false⟩, ⟨b, p₂, false⟩] := ⟨_, _, rfl⟩
  have hbody : bodyOf source e = .ok none := rfl
  have hpath : parameterSlots source "s" .path [] [⟨first, p₁, false⟩, ⟨b, p₂, false⟩] =
      .ok [] := rfl
  have hlast : parameterSlots source "s" .query [referenceToB] [⟨b, p₂, false⟩] =
      .ok [⟨"b", .query, Schema.integerObjectForm "s_b" "x", false⟩] := by
    have hname : (parameterName? Catalog.Origin.query.name ⟨b, p₂, false⟩).filter
        (!List.contains [referenceToB] ·) = some "b" := rfl
    have hform : source.formOrAny ((⟨b, p₂, false⟩ : Node).get? "schema") "s_b" =
        .ok (Schema.integerObjectForm "s_b" "x") := by
      have hbelow : ((p₂.step (.key "schema")).step (.key "properties")).step (.key "x") ∉
          [p₂.step (.key "schema")] := by simp [Place.step]
      exact Schema.translate_integerObject List.not_mem_nil hbelow
    exact parameterSlots_cons source "s" hname hform rfl
  have hquery : parameterSlots source "s" .query [] [⟨first, p₁, false⟩, ⟨b, p₂, false⟩] =
      .ok slotsBesideObject := by
    have hname : (parameterName? Catalog.Origin.query.name ⟨first, p₁, false⟩).filter
        (!List.contains [] ·) = some referenceToB := rfl
    exact parameterSlots_cons source "s" hname rfl hlast
  have hslots : slotsOf source "s" e = .ok slotsBesideObject :=
    slotsOf_of_query hparameters hbody hvariables hpath hquery
  obtain ⟨table, entry, hcompile, hentry, hentrySlots, haction, hop⟩ :=
    exists_compiled_sole "" (by decide) (show ({} : Options).admits _ = true from rfl) hcalled
      hslots
  refine ⟨table, entry, hcompile, ?_, hentrySlots, (Operation.slots_of_ofEndpoint hop).2⟩
  exact List.mem_filter.mpr ⟨hentry, Operation.isApi_of_ofEndpoint hop⟩

/-- A required parameter with the name that an inner record is referred to by in the draft is listed
under the short name of the record. -/
theorem required_slot_listed_as_record : ∃ table entry,
    compile {} "" (soleDescription "/s" "get" besideObject) = .ok table ∧ entry ∈ table.api ∧
      (entry.2.slots.map (·.name)).Nodup ∧
      (Schema.recordOf? (entry.1 ++ "_input") (entry.2.slots.map Slot.toMember)).isSome ∧
      (entry.2.slots.filter (·.required)).map (·.name) = [referenceToB] ∧
      (listedRequired entry.2.parameters).map Json.text? = [some "#/$defs/SB"] := by
  obtain ⟨table, entry, hcompile, hentry, hslots, hinput⟩ := exists_compiled_beside
  have hsound : ((inputFields slotsBesideObject).all fun field => field.shape.isSound) = true := by
    decide +kernel
  obtain ⟨called, hshape⟩ := exists_inputShape_eq entry.1 slotsBesideObject
  rw [if_pos (all_isSound_inputFields_iff.mp hsound)] at hshape
  refine ⟨table, entry, hcompile, hentry, ?_⟩
  rw [Operation.parameters, hinput, hslots, hshape, listedRequired, Schema.advertise_record,
    Schema.items_required_withDefinitions]
  refine ⟨by decide, ?_, by decide, by decide +kernel⟩
  rw [Schema.recordOf?]
  exact if_pos hsound ▸ rfl

end Service

end Toolgate
