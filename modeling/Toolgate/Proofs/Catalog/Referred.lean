import Toolgate.Proofs.Catalog.Faults
import Toolgate.Proofs.Catalog.Slots
import Toolgate.Proofs.Schema.Places

/-!
# Parameters and bodies behind references

An operation stays as it is when one of its parameters, or its body, is put elsewhere and a reference
to it is left in its place. The reference has to lead there directly: one that leads to another
reference is not followed further, and what it stands for is lost. And schemas inside what was put
elsewhere must not refer into the place that it had or the one that it got, as the places of schemas
tell whether they stand inside themselves.

## Main definitions

* `Place.Moved`: where what stood in one document stands in another
* `StandsIn`: what stands in another document for a parameter or a body
* `Endpoint.Refers`: an endpoint whose parameters and body may stand behind references
* `Endpoint.KeepsReferences`: its schemas have the references that they had

## Main statements

* `ofEndpoint_eq_of_refers`: the operation of such an endpoint is the same
-/

namespace Toolgate

/-! ## Places that are left -/

/-- Does the place stand at the other one, or inside it? -/
def Place.IsWithin (place outer : Place) : Prop :=
  place.origin = outer.origin ∧ outer.steps <:+ place.steps

/-- Does neither place stand inside the other? -/
def Place.IsApart (place other : Place) : Prop :=
  ¬place.IsWithin other ∧ ¬other.IsWithin place

/-- A place at or inside `old`, and the same one seen from `new`. -/
def Place.Carried (old new place place' : Place) : Prop :=
  ∃ steps, place = ⟨old.origin, steps ++ old.steps⟩ ∧ place' = ⟨new.origin, steps ++ new.steps⟩

/-- Where a place comes to when what stands at `old` is put to `new`: what is inside goes with it,
and what is apart from both places stays. -/
def Place.Moved (old new place place' : Place) : Prop :=
  Carried old new place place' ∨ place = place' ∧ place.IsApart old ∧ place.IsApart new

/-- A place that stays, or goes with what stands at `old`. -/
def Place.Follows (old new place place' : Place) : Prop :=
  place = place' ∨ Carried old new place place'

section
variable {old new place place' other : Place}

theorem Place.Carried.step (h : Carried old new place place') (step : Step) :
    Carried old new (place.step step) (place'.step step) := by
  obtain ⟨steps, rfl, rfl⟩ := h
  exact ⟨step :: steps, rfl, rfl⟩

theorem Place.Carried.isWithin (h : Carried old new place place') :
    place.IsWithin old ∧ place'.IsWithin new := by
  obtain ⟨steps, rfl, rfl⟩ := h
  exact ⟨⟨rfl, List.suffix_append _ _⟩, rfl, List.suffix_append _ _⟩

theorem Place.IsApart.step (h : place.IsApart other) (step : Step) :
    (place.step step).IsApart other := by
  refine ⟨fun hwithin => ?_, fun hwithin => h.2 ⟨hwithin.1, (List.suffix_cons _ _).trans hwithin.2⟩⟩
  rcases List.suffix_cons_iff.mp hwithin.2 with heq | hsuffix
  · exact h.2 ⟨hwithin.1.symm, heq ▸ List.suffix_cons _ _⟩
  · exact h.1 ⟨hwithin.1, hsuffix⟩

theorem isPlacing_follows (old new : Place) : Schema.IsPlacing (Place.Follows old new) :=
  fun _ _ step h => h.imp (congrArg (Place.step · step)) (·.step step)

theorem isPlacing_moved (old new : Place) : Schema.IsPlacing (Place.Moved old new) :=
  fun _ _ step h => h.imp (·.step step) fun ⟨heq, hold, hnew⟩ =>
    ⟨congrArg (Place.step · step) heq, hold.step step, hnew.step step⟩

theorem isFaithful_moved (old new : Place) : Schema.IsFaithful (Place.Moved old new) := by
  rintro place place' other other' (hplace | ⟨rfl, hold, hnew⟩) (hother | ⟨rfl, hold', hnew'⟩)
  · obtain ⟨steps, rfl, rfl⟩ := hplace
    obtain ⟨steps', rfl, rfl⟩ := hother
    simp
  · have hwithin := hplace.isWithin
    exact ⟨fun heq => absurd (heq ▸ hwithin.1) hold'.1,
      fun heq => absurd (heq ▸ hwithin.2) hnew'.1⟩
  · have hwithin := hother.isWithin
    exact ⟨fun heq => absurd (heq ▸ hwithin.1) hold.1, fun heq => absurd (heq ▸ hwithin.2) hnew.1⟩
  · rfl

end

namespace Catalog

open Relation (ReflTransGen)
open Schema (Form IsTwin LeadsToTwins Leads ref? forall₂_imp_of_mem)

/-! ## Nodes behind references -/

/-- The nodes that a node lists as parameters. -/
def listedNodes (node : Node) : List Node :=
  ((node.get? "parameters").map Node.items).getD []

/-- What stands in another document for a parameter or a body: the same node, whose reference, if it
is one, leads to the same; or a reference to what stood at `old` and now stands at `new`. -/
inductive StandsIn (document document' : Json) (old new : Place) (node : Node) : Node → Prop
  | same (kept : ∀ ref, ref? node = some ref → resolveRef document' ref = resolveRef document ref) :
      StandsIn document document' old new node node
  | reference {other target : Node} {ref : String} (no_ref : ref? node = none)
      (place : node.place = old) (is_ref : ref? other = some ref)
      (resolved : resolveRef document' ref = .ok (some target)) (value : target.value = node.value)
      (target_place : target.place = new) : StandsIn document document' old new node other

/-- An endpoint of another document that says the same, where parameters and the body may stand
behind references. -/
structure Endpoint.Refers (document document' : Json) (old new : Place) (e e' : Endpoint) :
    Prop where
  path : e'.path = e.path
  method : e'.method = e.method
  fields : ∀ key, key ≠ "parameters" → key ≠ "requestBody" →
    e'.operation.value.getD key = e.operation.value.getD key
  shared : List.Forall₂ (StandsIn document document' old new) (listedNodes e.pathItem)
    (listedNodes e'.pathItem)
  own : List.Forall₂ (StandsIn document document' old new) (listedNodes e.operation)
    (listedNodes e'.operation)
  body : Option.Rel (StandsIn document document' old new) (e.operation.get? "requestBody")
    (e'.operation.get? "requestBody")

/-- The references that the schemas of an endpoint come to lead to the same in both documents, and
those in schemas at or inside `old` to nothing at, inside or around `old` and `new`. -/
def Endpoint.KeepsReferences (document document' : Json) (old new : Place) (e : Endpoint) : Prop :=
  ∀ schema ∈ schemasOf (.of document) e, ∀ node, ReflTransGen (Leads document) schema node →
    ∀ ref, ref? node = some ref → resolveRef document' ref = resolveRef document ref ∧
      (schema.place.IsWithin old → ∀ target, resolveRef document ref = .ok (some target) →
        target.place.IsApart old ∧ target.place.IsApart new)

section
variable {document document' : Json} {old new : Place} {node other : Node}

theorem deref_of_no_ref (h : ref? node = none) :
    (Source.of document).deref node = .ok (some node) := by
  unfold Source.deref
  split
  · next ref href => simp [ref?, href] at h
  · rfl

theorem deref_of_ref {ref : String} (h : ref? node = some ref) :
    (Source.of document).deref node = (resolveRef document ref).mapError .pointer := by
  obtain ⟨fields, hvalue, hlookup⟩ := Schema.exists_lookupField_of_ref? h
  have href : node.value.getD "$ref" = .str ref := by
    rw [Json.getD, hvalue, Json.get?, hlookup]
    rfl
  simp only [Source.deref, href, Source.of]
  cases resolveRef document ref <;> rfl

theorem isTwin_self (node : Node) : IsTwin (Place.Follows old new) node node :=
  ⟨rfl, .inl rfl⟩

/-- What a parameter or a body stands for is the same in both documents. -/
theorem StandsIn.deref (h : StandsIn document document' old new node other) :
    Parallel (Option.Rel (IsTwin (Place.Follows old new))) ((Source.of document).deref node)
      ((Source.of document').deref other) := by
  cases h with
  | same kept =>
    cases href : ref? node with
    | none =>
      rw [deref_of_no_ref href, deref_of_no_ref href]
      exact .ok (.some (isTwin_self node))
    | some ref =>
      rw [deref_of_ref href, deref_of_ref href, kept ref href]
      exact .refl (rel_refl isTwin_self) _
  | @reference _ target ref no_ref place is_ref resolved value target_place =>
    rw [deref_of_no_ref no_ref, deref_of_ref is_ref, resolved]
    exact .ok (.some ⟨value, .inr ⟨[], place, target_place⟩⟩)

theorem derefAll_parallel {nodes others : List Node}
    (h : List.Forall₂ (StandsIn document document' old new) nodes others) :
    Parallel (List.Forall₂ (IsTwin (Place.Follows old new))) ((Source.of document).derefAll nodes)
      ((Source.of document').derefAll others) := by
  have hobject (node other : Node) (h : IsTwin (Place.Follows old new) node other) :
      node.value.isObject = other.value.isObject := by rw [h.value]
  induction h with
  | nil => exact .ok .nil
  | cons hfirst _ ih =>
    rw [Source.derefAll, Source.derefAll]
    rcases hfirst.deref.cases with ⟨cause, herror, herror'⟩ | ⟨found, found', hok, hok', hfound⟩
    · rw [herror, herror']
      exact .error cause
    rw [hok, hok']
    refine ih.map fun others others' hothers => ?_
    rcases rel_cases (rel_filter hfound hobject) with
      ⟨hnone, hnone'⟩ | ⟨own, own', hown, hown', htwin⟩
    · rw [hnone, hnone']
      exact hothers
    · rw [hown, hown']
      exact .cons htwin hothers

/-! ### Parameters -/

theorem listedParameters_eq (source : Source) (node : Node) :
    listedParameters source node = source.derefAll (listedNodes node) := by
  unfold listedParameters listedNodes
  cases node.get? "parameters" <;> rfl

theorem forall₂_addParameter {At : Place → Place → Prop} {parameter parameter' : Node}
    (hparameter : IsTwin At parameter parameter') {parameters parameters' : List Node}
    (h : List.Forall₂ (IsTwin At) parameters parameters') :
    List.Forall₂ (IsTwin At) (addParameter parameter parameters)
      (addParameter parameter' parameters') := by
  induction h with
  | nil => exact .cons hparameter .nil
  | cons hfirst hrest ih =>
    rw [addParameter, addParameter, sameParameter, sameParameter, hfirst.value, hparameter.value]
    split
    · exact .cons hparameter hrest
    · exact .cons hfirst ih

theorem forall₂_foldl_addParameter {At : Place → Place → Prop} {parameters parameters' : List Node}
    (h : List.Forall₂ (IsTwin At) parameters parameters') {merged merged' : List Node}
    (hmerged : List.Forall₂ (IsTwin At) merged merged') : List.Forall₂ (IsTwin At)
      (parameters.foldl (fun merged parameter => addParameter parameter merged) merged)
      (parameters'.foldl (fun merged parameter => addParameter parameter merged) merged') := by
  induction h generalizing merged merged' with
  | nil => exact hmerged
  | cons hfirst _ ih => exact ih (forall₂_addParameter hfirst hmerged)

section
variable {e e' : Endpoint}

theorem Endpoint.Refers.parametersOf (h : e.Refers document document' old new e') :
    Parallel (List.Forall₂ (IsTwin (Place.Follows old new)))
      (Catalog.parametersOf (.of document) e) (Catalog.parametersOf (.of document') e') := by
  rw [Catalog.parametersOf, Catalog.parametersOf, listedParameters_eq, listedParameters_eq,
    listedParameters_eq, listedParameters_eq]
  rcases (derefAll_parallel h.shared).cases with
    ⟨cause, herror, herror'⟩ | ⟨shared, shared', hok, hok', hshared⟩
  · rw [herror, herror']
    exact .error cause
  rw [hok, hok']
  exact (derefAll_parallel h.own).map fun own own' hown =>
    forall₂_foldl_addParameter (List.rel_append hshared hown) .nil

/-! ### Bodies -/

theorem jsonMedia?_isTwin {At : Place → Place → Prop} (hplacing : Schema.IsPlacing At)
    (h : IsTwin At node other) : Option.Rel (IsTwin At) (jsonMedia? node) (jsonMedia? other) := by
  have hobject (field field' : String × Node)
      (h : field.1 = field'.1 ∧ IsTwin At field.2 field'.2) :
      field.2.value.isObject = true ↔ field'.2.value.isObject = true := by rw [h.2.value]
  have hentries : Schema.AreTwins At ((fieldNodes node).filter (·.2.value.isObject))
      ((fieldNodes other).filter (·.2.value.isObject)) :=
    List.rel_filter (fun {field field'} => hobject field field') (h.fieldNodes hplacing)
  have hfound (test : String → Bool) : Option.Rel (IsTwin At)
      ((((fieldNodes node).filter (·.2.value.isObject)).find? (test ·.1)).map (·.2))
      ((((fieldNodes other).filter (·.2.value.isObject)).find? (test ·.1)).map (·.2)) := by
    rcases rel_cases (rel_find? hentries fun field field' hfield => congrArg test hfield.1) with
      ⟨hnone, hnone'⟩ | ⟨field, field', hfield, hfield', htwin⟩
    · rw [hnone, hnone']
      exact .none
    · rw [hfield, hfield']
      exact .some htwin.2
  rw [jsonMedia?, jsonMedia?]
  dsimp only
  rcases rel_cases (rel_findSome? (fun name => hfound (· == name)) preferredMedia) with
    ⟨hnone, hnone'⟩ | ⟨media, media', hmedia, hmedia', htwin⟩
  · rw [hnone, hnone']
    exact hfound fun name => Text.holds "json".toList name.toList
  · rw [hmedia, hmedia']
    exact .some htwin

theorem Endpoint.Refers.bodyOf (h : e.Refers document document' old new e') :
    Parallel (Option.Rel fun body body' =>
        IsTwin (Place.Follows old new) body.1 body'.1 ∧ body.2 = body'.2)
      (Catalog.bodyOf (.of document) e) (Catalog.bodyOf (.of document') e') := by
  have hplacing := isPlacing_follows old new
  rw [Catalog.bodyOf, Catalog.bodyOf]
  rcases rel_cases h.body with ⟨hnone, hnone'⟩ | ⟨node, node', hnode, hnode', hstands⟩
  · rw [hnone, hnone']
    exact .ok .none
  rw [hnode, hnode']
  refine hstands.deref.map fun found found' hfound => ?_
  refine rel_bind hfound fun body body' hbody => ?_
  refine rel_bind (hbody.get? hplacing "content") fun content content' hcontent => ?_
  refine rel_bind (jsonMedia?_isTwin hplacing hcontent) fun media media' hmedia => ?_
  refine rel_bind (hmedia.get? hplacing "schema") fun schema schema' hschema => ?_
  rw [hbody.value, hschema.value]
  dsimp only
  by_cases hnull : schema.value.isNull = true
  · rw [if_pos hnull, if_pos hnull]
    exact .none
  · rw [if_neg hnull, if_neg hnull]
    exact .some ⟨hschema, rfl⟩

/-! ### Slots -/

section
variable {source source' : Source} {operation : String}

/-- Parameters that say the same have the same slots when their schemas have the same forms. -/
theorem parameterSlots_eq {R : Node → Node → Prop}
    (hvalue : ∀ parameter parameter', R parameter parameter' → parameter'.value = parameter.value)
    {parameters parameters' : List Node} (h : List.Forall₂ R parameters parameters')
    {origin : Origin} {claimed : List String}
    (hform : ∀ entry ∈ slotted origin.name claimed parameters, ∀ other, R entry.2 other → ∀ name,
      source.formOrAny (entry.2.get? "schema") name =
        source'.formOrAny (other.get? "schema") name) :
    parameterSlots source operation origin claimed parameters =
      parameterSlots source' operation origin claimed parameters' := by
  induction h generalizing claimed with
  | nil => rfl
  | @cons parameter parameter' _ _ hfirst _ ih =>
    have hname : parameterName? origin.name parameter' = parameterName? origin.name parameter := by
      rw [parameterName?, parameterName?, hvalue _ _ hfirst]
    rw [slotted] at hform
    rw [parameterSlots, parameterSlots, hname]
    cases hfree : (parameterName? origin.name parameter).filter (!claimed.contains ·) with
    | none =>
      rw [hfree] at hform
      exact ih hform
    | some name =>
      rw [hfree] at hform
      obtain ⟨hown, hrest⟩ := List.forall_mem_cons.mp hform
      dsimp only
      rw [hown parameter' hfirst, ih hrest, hvalue _ _ hfirst]

end

/-- The references of a schema lead to schemas that say the same, wherever their targets stand. -/
theorem Endpoint.KeepsReferences.leadsToTwins
    (hkept : e.KeepsReferences document document' old new) {schema : Node}
    (hschema : schema ∈ schemasOf (.of document) e) {At : Place → Place → Prop}
    (hAt : ∀ node, ReflTransGen (Leads document) schema node → ∀ ref, ref? node = some ref →
      ∀ target, resolveRef document ref = .ok (some target) → At target.place target.place) :
    LeadsToTwins At document document' schema := by
  intro node hnode ref href
  rw [(hkept schema hschema node hnode ref href).1]
  rcases hfound : resolveRef document ref with cause | _ | target
  · exact .error cause
  · exact .ok .none
  · exact .ok (.some ⟨rfl, hAt node hnode ref href target hfound⟩)

section
variable (he : e ∈ endpoints document) (he' : e' ∈ endpoints document')
  (h : e.Refers document document' old new e') (hkept : e.KeepsReferences document document' old new)
include he hkept

/-- A schema that goes with what is moved has the same form, and so has one that stays. -/
theorem form_eq_of_follows {schema schema' : Node} (hschema : schema ∈ schemasOf (.of document) e)
    (hschema' : schema' ∈ Schema.nodesOf document')
    (htwin : IsTwin (Place.Follows old new) schema schema') (name : String) :
    (Source.of document).form schema name = (Source.of document').form schema' name := by
  have hcovers := Schema.Network.covers_nodesOf document
  have hcovers' := Schema.Network.covers_nodesOf document'
  have hmem := subset_nodesOf_of_schemasOf he hschema
  rcases htwin.place with hsame | hcarried
  · exact Schema.translate_eq_of_isTwin Schema.isPlacing_eq Schema.isFaithful_eq hcovers hcovers'
      hmem hschema' ⟨htwin.value, hsame⟩ (hkept.leadsToTwins hschema fun _ _ _ _ _ _ => rfl) name
  · refine Schema.translate_eq_of_isTwin (isPlacing_moved old new) (isFaithful_moved old new)
      hcovers hcovers' hmem hschema' ⟨htwin.value, .inl hcarried⟩
      (hkept.leadsToTwins hschema fun node hnode ref href target htarget => ?_) name
    exact .inr ⟨rfl, (hkept schema hschema node hnode ref href).2 hcarried.isWithin.1 target htarget⟩

theorem formOrAny_eq_of_follows {parameters : List Node}
    (hparameters : parametersOf (.of document) e = .ok parameters) {entry : String × Node}
    (hentry : entry ∈ slotted Origin.path.name [] parameters ++
      slotted Origin.query.name (Call.variableNames e.path ++
        (slotted Origin.path.name [] parameters).map Prod.fst) parameters)
    {other : Node} (hother : other ∈ Schema.nodesOf document')
    (htwin : IsTwin (Place.Follows old new) entry.2 other) (name : String) :
    (Source.of document).formOrAny (entry.2.get? "schema") name =
      (Source.of document').formOrAny (other.get? "schema") name := by
  have htruthy (schema schema' : Node) (h : IsTwin (Place.Follows old new) schema schema') :
      schema.value.truthy = schema'.value.truthy := by rw [h.value]
  rw [Source.formOrAny, Source.formOrAny]
  rcases rel_cases (rel_filter (htwin.get? (isPlacing_follows old new) "schema") htruthy) with
    ⟨hnone, hnone'⟩ | ⟨schema, schema', hschema, hschema', htwin⟩
  · rw [hnone, hnone']
  rw [hschema, hschema']
  exact form_eq_of_follows he hkept (mem_schemasOf_of_slotted hparameters hentry hschema)
    (mem_nodesOf_of_get? hother (Option.eq_some_of_filter_eq_some hschema')) htwin name

include he' h

theorem pathAndQuerySlots_eq_of_refers (operation : String) :
    pathAndQuerySlots (.of document) operation e =
      pathAndQuerySlots (.of document') operation e' := by
  rw [pathAndQuerySlots, pathAndQuerySlots, h.path]
  rcases h.parametersOf.cases with
    ⟨cause, herror, herror'⟩ | ⟨parameters, parameters', hok, hok', htwins⟩
  · rw [herror, herror']
  rw [hok, hok']
  have hboth : List.Forall₂ (fun parameter parameter' =>
      IsTwin (Place.Follows old new) parameter parameter' ∧
        parameter' ∈ Schema.nodesOf document') parameters parameters' :=
    forall₂_imp_of_mem htwins fun _ _ _ hparameter' htwin =>
      ⟨htwin, subset_nodesOf_of_parametersOf he' hok' hparameter'⟩
  have hpath : parameterSlots (.of document) operation .path [] parameters =
      parameterSlots (.of document') operation .path [] parameters' :=
    parameterSlots_eq (fun _ _ h => h.1.value) hboth fun entry hentry other hother =>
      formOrAny_eq_of_follows he hkept hok (List.mem_append_left _ hentry) hother.2 hother.1
  dsimp only
  rw [← hpath]
  cases hslots : parameterSlots (.of document) operation .path [] parameters with
  | error cause => rfl
  | ok pathSlots =>
    have hnames := names_parameterSlots hslots
    have hquery : parameterSlots (.of document) operation .query
        (Call.variableNames e.path ++ pathSlots.map (·.name)) parameters =
          parameterSlots (.of document') operation .query
            (Call.variableNames e.path ++ pathSlots.map (·.name)) parameters' :=
      parameterSlots_eq (fun _ _ h => h.1.value) hboth fun entry hentry other hother =>
        formOrAny_eq_of_follows he hkept hok (List.mem_append_right _ (hnames ▸ hentry)) hother.2
          hother.1
    dsimp only
    rw [hquery]

theorem slotsOf_eq_of_refers (operation : String) :
    slotsOf (.of document) operation e = slotsOf (.of document') operation e' := by
  rw [slotsOf, slotsOf, pathAndQuerySlots_eq_of_refers he he' h hkept operation]
  cases pathAndQuerySlots (.of document') operation e' with
  | error cause => rfl
  | ok slots =>
    dsimp only
    rcases h.bodyOf.cases with ⟨cause, herror, herror'⟩ | ⟨body?, body?', hok, hok', hbodies⟩
    · rw [herror, herror']
    rcases rel_cases hbodies with
      ⟨rfl, rfl⟩ | ⟨⟨schema, required⟩, ⟨schema', _⟩, rfl, rfl, htwin, rfl⟩
    · rw [hok, hok']
    rw [hok, hok']
    dsimp only at htwin ⊢
    rw [htwin.value, form_eq_of_follows he hkept (mem_schemasOf_of_bodyOf hok)
      (mem_nodesOf_of_bodyOf he' hok') htwin]

/-- An endpoint whose parameters and body may stand behind references has the same operation: its
slots are the same, with their forms and with what has to be given, and so is their routing. -/
theorem ofEndpoint_eq_of_refers (name : String) :
    Operation.ofEndpoint (.of document') name e' = Operation.ofEndpoint (.of document) name e := by
  have hdescription (standing : String) : descriptionOf e'.operation.value standing =
      descriptionOf e.operation.value standing := by
    rw [descriptionOf, descriptionOf, h.fields _ (by decide) (by decide),
      h.fields _ (by decide) (by decide)]
  have htags : e'.tags = e.tags := by
    rw [Endpoint.tags, Endpoint.tags, tagsOf, tagsOf, h.fields _ (by decide) (by decide)]
  have hroute (slots : List Slot) : routeOf e' slots = routeOf e slots := by
    rw [routeOf, routeOf, h.path, h.method]
  rw [Operation.ofEndpoint, Operation.ofEndpoint, slotsOf_eq_of_refers he he' h hkept name]
  simp only [hdescription, htags, hroute, h.path, h.method]

end

end

end

/-! ### A limit -/

/-- A reference. -/
def refTo (ref : String) : Json := .obj [("$ref", .str ref)]

/-- An integer of the query that has to be given. -/
def limitParameter : Json :=
  .obj [("name", .str "limit"), ("in", .str "query"), ("required", .bool true),
    ("schema", .obj [("type", .str "integer")])]

/-- The members of an operation with such a parameter. -/
def limitOperation (parameter : Json) : Call.Fields :=
  [("operationId", .str "s"), ("parameters", .arr [parameter])]

/-- A description of that operation. The integer stands among its components as well, under `B`, and
under `A` there is a reference to it. -/
def limitDescription (parameter : Json) : Json :=
  .obj [("paths", .obj [("/s", .obj [("get", .obj (limitOperation parameter))])]),
    ("components", .obj [("parameters", .obj [("A", refTo "#/components/parameters/B"),
      ("B", limitParameter)])])]

/-- The slot of the integer. -/
def limitSlot : Slot := ⟨"limit", .query, ⟨.integer, .whole {}, "", []⟩, true⟩

theorem endpoints_limitDescription (parameter : Json) :
    endpoints (documentOf (limitDescription parameter)) =
      [soleEndpoint "/s" "get" (limitOperation parameter)] :=
  endpoints_of_paths rfl (by decide)

section
variable {parameter : Json} {slots : List Slot}

theorem variableNames_limit : Call.variableNames "/s" = [] := by
  decide +kernel

theorem slotsOf_limit {place : Place}
    (hparameters : parametersOf (.of (documentOf (limitDescription parameter)))
      (soleEndpoint "/s" "get" (limitOperation parameter)) = .ok [⟨limitParameter, place, false⟩]) :
    slotsOf (.of (documentOf (limitDescription parameter))) "s"
      (soleEndpoint "/s" "get" (limitOperation parameter)) = .ok [limitSlot] := by
  have hname : (parameterName? Origin.query.name ⟨limitParameter, place, false⟩).filter
      (!List.contains [] ·) = some "limit" := rfl
  have hform (source : Source) : source.formOrAny (Node.get? ⟨limitParameter, place, false⟩ "schema")
      ("s" ++ "_" ++ "limit") = .ok ⟨.integer, .whole {}, "", []⟩ :=
    Schema.translate_integerSchema List.not_mem_nil
  exact slotsOf_of_query hparameters rfl variableNames_limit rfl
    (parameterSlots_cons _ "s" hname (hform _) rfl)

theorem exists_compiled_limit
    (hslots : slotsOf (.of (documentOf (limitDescription parameter))) "s"
      (soleEndpoint "/s" "get" (limitOperation parameter)) = .ok slots) :
    ∃ table entry, compile {} "" (limitDescription parameter) = .ok table ∧
      entry ∈ table.operations ∧ entry.1 = "s" ∧ entry.2.slots = slots := by
  have hname : (({} : Naming.Names).resolve
      (soleEndpoint "/s" "get" (limitOperation parameter)).candidate).1 = "s" := by
    rw [show (soleEndpoint "/s" "get" (limitOperation parameter)).candidate = "s" from rfl]
    decide +kernel
  obtain ⟨table, hcompile, entry, hentry, hcalled, -, hown⟩ := exists_compiled_of_slotsOf ""
    (endpoints_limitDescription parameter) (show ({} : Options).admits _ = true from rfl)
    (hname.symm ▸ hslots)
  exact ⟨table, entry, hcompile, hentry, hcalled.trans hname, hown⟩

end

/-- An integer of the query that is put behind a reference. -/
theorem ofEndpoint_eq_of_refers_limit :
    let document := documentOf (limitDescription limitParameter)
    let document' := documentOf (limitDescription (refTo "#/components/parameters/B"))
    ∃ e ∈ endpoints document, ∃ e' ∈ endpoints document', ∃ operation,
      Operation.ofEndpoint (.of document) "s" e = .ok operation ∧
        Operation.ofEndpoint (.of document') "s" e' = .ok operation ∧
        operation.slots = [limitSlot] := by
  intro document document'
  set e := soleEndpoint "/s" "get" (limitOperation limitParameter)
  set e' := soleEndpoint "/s" "get" (limitOperation (refTo "#/components/parameters/B"))
  have he : e ∈ endpoints document := by
    rw [endpoints_limitDescription]
    exact List.mem_singleton_self e
  have he' : e' ∈ endpoints document' := by
    rw [endpoints_limitDescription]
    exact List.mem_singleton_self e'
  obtain ⟨old, hparameters, hlisted⟩ : ∃ old,
      parametersOf (.of document) e = .ok [⟨limitParameter, old, false⟩] ∧
        listedNodes e.operation = [⟨limitParameter, old, false⟩] := ⟨_, rfl, rfl⟩
  obtain ⟨other, target, hlisted', his_ref, hresolve, hvalue⟩ : ∃ other target,
      listedNodes e'.operation = [other] ∧ ref? other = some "#/components/parameters/B" ∧
        resolveRef document' "#/components/parameters/B" = .ok (some target) ∧
        target.value = limitParameter := ⟨_, _, rfl, rfl, rfl, rfl⟩
  have hrefers : e.Refers document document' old target.place e' :=
    { path := rfl, method := rfl, shared := .nil, body := .none
      fields := fun key hparameters _ => by
        simp [e, e', soleEndpoint, limitOperation, Json.getD, Json.get?, lookupField,
          Ne.symm hparameters]
      own := by
        rw [hlisted, hlisted']
        exact .cons (.reference rfl rfl his_ref hresolve hvalue rfl) .nil }
  have hkept : e.KeepsReferences document document' old target.place := by
    intro schema hschema node hnode ref href
    have hschemas : schemasOf (.of document) e =
        [⟨.obj [("type", .str "integer")], old.step (.key "schema"), false⟩] := by
      rw [schemasOf, hparameters, show bodyOf (.of document) e = .ok none from rfl,
        show e.path = "/s" from rfl]
      simp only [parameterSchemas, variableNames_limit]
      rfl
    rw [hschemas, List.mem_singleton] at hschema
    subst hschema
    rcases hnode.cases_head with rfl | ⟨first, hleads, -⟩
    · cases href
    · cases hleads with
      | part _ mem => cases mem
      | reference is_ref _ => cases is_ref
  have hslots : slotsOf (.of document) "s" e = .ok [limitSlot] := slotsOf_limit hparameters
  obtain ⟨operation, hop, hown⟩ : ∃ operation,
      Operation.ofEndpoint (.of document) "s" e = .ok operation ∧
        operation.slots = [limitSlot] := by
    rw [Operation.ofEndpoint, hslots]
    exact ⟨_, rfl, rfl⟩
  exact ⟨e, he, e', he', operation, hop,
    (ofEndpoint_eq_of_refers he he' hrefers hkept "s").trans hop, hown⟩

/-- Behind a reference to a reference the integer has no slot. -/
theorem no_slot_behind_two_references :
    let document := documentOf (limitDescription (refTo "#/components/parameters/A"))
    (∃ between, resolveRef document "#/components/parameters/A" = .ok (some between) ∧
      between.value = refTo "#/components/parameters/B") ∧
    (∃ target, resolveRef document "#/components/parameters/B" = .ok (some target) ∧
      target.value = limitParameter) ∧
    (∃ table entry, compile {} "" (limitDescription limitParameter) = .ok table ∧
      entry ∈ table.operations ∧ entry.1 = "s" ∧ entry.2.slots = [limitSlot]) ∧
    ∃ table entry, compile {} "" (limitDescription (refTo "#/components/parameters/A")) = .ok table ∧
      entry ∈ table.operations ∧ entry.1 = "s" ∧ entry.2.slots = [] := by
  refine ⟨⟨_, rfl, rfl⟩, ⟨_, rfl, rfl⟩, exists_compiled_limit (slotsOf_limit rfl), ?_⟩
  exact exists_compiled_limit (slotsOf_of_query rfl rfl variableNames_limit rfl rfl)

end Catalog

end Toolgate
