import Mathlib.Data.List.Perm.Basic
import Toolgate.Proofs.Call.Assembly
import Toolgate.Proofs.Catalog.Registration
import Toolgate.Proofs.Catalog.Slots

/-!
# Every argument in one place

The slots of an operation and the route of its request are made from one declaration, but not in
one place: the path takes what its template names, whatever the slots say. Where the parameters of
the path are variables of its template, the two agree, and each argument that is given goes to one
part of the request.

## Main definitions

* `fieldsFor`, `isPresent`: the part of a request that arguments of an origin go to

## Main statements

* `mem_fieldsFor`: what the parts of a request hold
* `assemble_routes_each_argument`: the same of every compiled operation
-/

namespace Toolgate.Catalog

open Call (Fields Parts)
open Naming (Names)
open Schema (Form translateFields translateMembers annotated)

/-! ## Parts of a request by origin -/

/-- The fields of a request that arguments of an origin are sent in. An argument that is the whole
body is no field. -/
def fieldsFor (parts : Parts) : Origin → Fields
  | .path => parts.path.getD []
  | .query => parts.query.getD []
  | .bodyField => parts.body.fields?.getD []
  | .body => []

/-- Has the request the part for arguments of an origin? -/
def isPresent (parts : Parts) : Origin → Bool
  | .path => parts.path.isSome
  | .query => parts.query.isSome
  | .bodyField => !parts.body.isNull
  | .body => false

/-! ## Methods -/

theorem method_mem_of_mem_endpoints {document : Json} {e : Endpoint} (h : e ∈ endpoints document) :
    e.method ∈ httpMethods := by
  unfold endpoints at h
  split at h
  · simp at h
  · obtain ⟨⟨path, pathItem⟩, -, h⟩ := List.mem_flatMap.mp h
    obtain ⟨⟨key, operation⟩, -, h⟩ := List.mem_filterMap.mp h
    simp only [endpoint?] at h
    split at h
    · next hmethod =>
      obtain rfl := Option.some.inj h
      simpa using (Bool.and_eq_true_iff.mp hmethod).1
    · cases h

/-- The methods of operations are written in capitals once and for all. -/
theorem upper_upper_of_mem_httpMethods : ∀ method ∈ httpMethods,
    Text.upper (Text.upper method) = Text.upper method := by
  decide +kernel

/-! ## The parts of a request -/

section
variable {declaration : Declaration} {e : Endpoint} {slots : List Slot} {bag : Fields}
  (hoffers : Offers declaration slots) (hpath : declaration.path = e.path)
  (hparameters : ∀ name ∈ declaration.named .path, name ∈ declaration.inPath)
  (hbody : ∀ form ∈ declaration.body, form.isObject = true) (hmethod : e.method ∈ httpMethods)

include hbody hmethod hoffers in
/-- The body of an object: its fields are picked, when there are any and the method has a body. -/
theorem body_assemble_routeOf (bag : Fields) :
    (Call.assemble (routeOf e slots) bag).body =
      if Text.upper e.method ∈ Call.bodyMethods then
        ((Call.unlessEmpty (Call.pick bag (namesFrom .bodyField slots))).map Json.obj).getD .null
      else .null := by
  have hwhole : (routeOf e slots).bodyArgument = none := by
    simp [routeOf, hoffers.body hbody]
  have hupper : Text.upper (routeOf e slots).method = Text.upper e.method :=
    upper_upper_of_mem_httpMethods _ hmethod
  simp only [Call.assemble, Call.Route.body, hwhole, hupper, List.contains_iff_mem]
  rfl

include hbody hmethod hoffers in
theorem fieldsFor_bodyField (bag : Fields) :
    fieldsFor (Call.assemble (routeOf e slots) bag) .bodyField =
      if Text.upper e.method ∈ Call.bodyMethods then
        Call.pick bag (namesFrom .bodyField slots) else [] := by
  rw [fieldsFor, body_assemble_routeOf hoffers hbody hmethod]
  split
  · cases Call.pick bag (namesFrom .bodyField slots) <;> rfl
  · rfl

include hbody hmethod hoffers hpath hparameters in
/-- A part of a request holds the arguments of its origin that are given and not null, unchanged;
properties of a body are sent with methods that have one. -/
theorem mem_fieldsFor {origin : Origin} {key : String} {v : Json} :
    (key, v) ∈ fieldsFor (Call.assemble (routeOf e slots) bag) origin ↔
      declaration.originOf? key = some origin ∧ lookupField key bag = some v ∧ v ≠ .null ∧
        (origin = .bodyField → Text.upper e.method ∈ Call.bodyMethods) := by
  cases origin with
  | path =>
    have hnames : key ∈ Call.variableNames (routeOf e slots).path ↔
        declaration.originOf? key = some .path := by
      rw [show (routeOf e slots).path = declaration.path from hpath.symm,
        Declaration.originOf?_eq_path_iff]
      exact ⟨.inl, fun h => h.elim id (hparameters key)⟩
    simp [fieldsFor, Call.assemble, Call.mem_pick, hnames]
  | query =>
    have hnames := hoffers.mem_iff (show Origin.query ≠ .body by simp) key
    simp [fieldsFor, Call.assemble, Call.mem_pick, routeOf, hnames]
  | bodyField =>
    rw [fieldsFor_bodyField hoffers hbody hmethod]
    have hnames := hoffers.mem_iff (show Origin.bodyField ≠ .body by simp) key
    split
    · next hbodied => simp [Call.mem_pick, hnames, hbodied]
    · next hbodiless => simp [hbodiless]
  | body => simp [fieldsFor, Declaration.originOf?_ne_body]

include hbody hmethod hoffers in
/-- No argument is sent twice in a part, and a part without arguments is absent. -/
theorem wellFormed_fieldsFor (bag : Fields) (origin : Origin) :
    ((fieldsFor (Call.assemble (routeOf e slots) bag) origin).map Prod.fst).Nodup ∧
      (isPresent (Call.assemble (routeOf e slots) bag) origin = false ↔
        fieldsFor (Call.assemble (routeOf e slots) bag) origin = []) := by
  have hpart (fields : Fields) : (Call.unlessEmpty fields).isSome = false ↔ fields = [] := by
    cases fields <;> simp [Call.unlessEmpty]
  cases origin with
  | path => exact ⟨by simpa [fieldsFor, Call.assemble] using Call.nodup_keys_pick _ _,
      by simp [fieldsFor, isPresent, Call.assemble, hpart]⟩
  | query => exact ⟨by simpa [fieldsFor, Call.assemble] using Call.nodup_keys_pick _ _,
      by simp [fieldsFor, isPresent, Call.assemble, hpart]⟩
  | bodyField =>
    rw [fieldsFor_bodyField hoffers hbody hmethod, isPresent,
      body_assemble_routeOf hoffers hbody hmethod]
    split
    · refine ⟨Call.nodup_keys_pick _ _, ?_⟩
      cases Call.pick bag (namesFrom .bodyField slots) <;> simp [Call.unlessEmpty, Json.isNull]
    · simp [Json.isNull]
  | body => simp [fieldsFor, isPresent]

include hbody hmethod hoffers hpath hparameters in
/-- The fields of a body that were spread over the bag are put together again. -/
theorem exists_body_perm {content : Fields} (hbodied : Text.upper e.method ∈ Call.bodyMethods)
    (hnodup : (content.map Prod.fst).Nodup) (hne : content ≠ [])
    (hcontent : ∀ field ∈ content,
      declaration.originOf? field.1 = some .bodyField ∧ field.2 ≠ .null)
    (hbag : ∀ key v, declaration.originOf? key = some .bodyField → v ≠ .null →
      (lookupField key bag = some v ↔ (key, v) ∈ content)) :
    ∃ fields, (Call.assemble (routeOf e slots) bag).body = .obj fields ∧ fields.Perm content := by
  have hfor := fieldsFor_bodyField hoffers hbody hmethod bag
  rw [if_pos hbodied] at hfor
  have hperm : (Call.pick bag (namesFrom .bodyField slots)).Perm content := by
    refine (List.perm_ext_iff_of_nodup (Call.nodup_keys_pick _ _).of_map hnodup.of_map).mpr ?_
    intro ⟨key, v⟩
    rw [← hfor, mem_fieldsFor hoffers hpath hparameters hbody hmethod]
    constructor
    · rintro ⟨horigin, hlookup, hnull, -⟩
      exact (hbag key v horigin hnull).mp hlookup
    · intro hmem
      obtain ⟨horigin, hnull⟩ := hcontent _ hmem
      exact ⟨horigin, (hbag key v horigin hnull).mpr hmem, hnull, fun _ => hbodied⟩
  refine ⟨_, ?_, hperm⟩
  rw [body_assemble_routeOf hoffers hbody hmethod, if_pos hbodied]
  have hpresent : Call.pick bag (namesFrom .bodyField slots) ≠ [] := fun hnil =>
    hne (List.nil_perm.mp (hnil ▸ hperm))
  obtain ⟨field, rest, hcons⟩ := List.exists_cons_of_ne_nil hpresent
  rw [hcons]
  rfl

end

/-! ## Compiled operations -/

/-- A compiled operation offers what its endpoint declares, and is routed by its slots. -/
theorem exists_offers_of_mem {options : Options} {clientUrl : String} {description : Json}
    {table : Table} {entry : String × Operation} {route : Call.Route}
    (hcompile : compile options clientUrl description = .ok table)
    (hentry : entry ∈ table.operations) (haction : entry.2.action = .request route) :
    ∃ e ∈ endpoints (documentOf description), ∃ declaration,
      Operation.ofEndpoint (.of (documentOf description)) entry.1 e = .ok entry.2 ∧
      declarationOf (.of (documentOf description)) entry.1 e = .ok declaration ∧
      declaration.path = e.path ∧ Offers declaration entry.2.slots ∧
      route = routeOf e entry.2.slots := by
  obtain ⟨e, he, hop⟩ := exists_endpoint_of_mem hcompile hentry haction
  obtain ⟨hslots, -⟩ := Operation.slots_of_ofEndpoint hop
  obtain ⟨declaration, hdeclaration, hpath, hoffers⟩ := exists_offers_of_slotsOf hslots
  have hrequest := (Operation.ofEndpoint_spec hop).2.2.2
  rw [haction] at hrequest
  exact ⟨e, he, declaration, hop, hdeclaration, hpath, hoffers, Action.request.inj hrequest⟩

/-- In a compiled operation whose parameters in the path are variables of its template, and whose
body, if any, is an object, each argument that is given and not null goes to one part of the request
under its own name: to the path when it is a variable of the template, else to the query when it is
a parameter there, else to the body when it is one of its properties and the method has a body.
Nothing else is sent, a part that holds nothing is absent, and the properties of a body come back
together as they were spread. -/
theorem assemble_routes_each_argument {options : Options} {clientUrl : String} {description : Json}
    {table : Table} {entry : String × Operation} {route : Call.Route}
    (hcompile : compile options clientUrl description = .ok table)
    (hentry : entry ∈ table.operations) (haction : entry.2.action = .request route) :
    ∃ e ∈ endpoints (documentOf description), ∃ declaration,
      Operation.ofEndpoint (.of (documentOf description)) entry.1 e = .ok entry.2 ∧
      declarationOf (.of (documentOf description)) entry.1 e = .ok declaration ∧
      declaration.path = e.path ∧
      ((∀ name ∈ declaration.named .path, name ∈ declaration.inPath) →
        (∀ form ∈ declaration.body, form.isObject = true) →
        (∀ name, name ∈ entry.2.slots.map (·.name) ↔ (declaration.originOf? name).isSome = true) ∧
        ∀ bag, let parts := Call.assemble route bag
          (∀ origin key v, (key, v) ∈ fieldsFor parts origin ↔
            declaration.originOf? key = some origin ∧ lookupField key bag = some v ∧ v ≠ .null ∧
              (origin = .bodyField → Text.upper e.method ∈ Call.bodyMethods)) ∧
          (∀ origin, ((fieldsFor parts origin).map Prod.fst).Nodup) ∧
          (∀ origin other, origin ≠ other →
            ((fieldsFor parts origin).map Prod.fst).Disjoint
              ((fieldsFor parts other).map Prod.fst)) ∧
          (∀ origin, isPresent parts origin = false ↔ fieldsFor parts origin = []) ∧
          (Text.upper e.method ∈ Call.bodyMethods → ∀ content : Fields,
            (content.map Prod.fst).Nodup → content ≠ [] →
            (∀ field ∈ content,
              declaration.originOf? field.1 = some .bodyField ∧ field.2 ≠ .null) →
            (∀ key v, declaration.originOf? key = some .bodyField → v ≠ .null →
              (lookupField key bag = some v ↔ (key, v) ∈ content)) →
            ∃ fields, parts.body = .obj fields ∧ fields.Perm content)) := by
  obtain ⟨e, he, declaration, hop, hdeclaration, hpath, hoffers, rfl⟩ :=
    exists_offers_of_mem hcompile hentry haction
  have hmethod := method_mem_of_mem_endpoints he
  refine ⟨e, he, declaration, hop, hdeclaration, hpath, fun hparameters hbody => ⟨fun name => ?_,
    fun bag => ?_⟩⟩
  · rw [mem_names_iff, Option.isSome_iff_exists]
    constructor
    · rintro ⟨origin, hname⟩
      have horigin : origin ≠ .body := by
        rintro rfl
        simp [hoffers.body hbody] at hname
      exact ⟨origin, (hoffers.mem_iff horigin name).mp hname⟩
    · rintro ⟨origin, hname⟩
      have horigin : origin ≠ .body := fun heq => Declaration.originOf?_ne_body (heq ▸ hname)
      exact ⟨origin, (hoffers.mem_iff horigin name).mpr hname⟩
  · have hmem {origin : Origin} {key : String} {v : Json} :
        (key, v) ∈ fieldsFor (Call.assemble (routeOf e entry.2.slots) bag) origin ↔ _ :=
      mem_fieldsFor hoffers hpath hparameters hbody hmethod
    have hpart := wellFormed_fieldsFor hoffers hbody hmethod bag
    refine ⟨fun _ _ _ => hmem, fun origin => (hpart origin).1, fun origin other hne => ?_,
      fun origin => (hpart origin).2, fun hbodied content hnodup hne hcontent hbag => ?_⟩
    · intro key hkey hother
      obtain ⟨⟨_, v⟩, hv, rfl⟩ := List.mem_map.mp hkey
      obtain ⟨⟨_, w⟩, hw, rfl⟩ := List.mem_map.mp hother
      exact hne (Option.some.inj ((hmem.mp hv).1.symm.trans (hmem.mp hw).1))
    · exact exists_body_perm hoffers hpath hparameters hbody hmethod hbodied hnodup hne hcontent
        hbag

/-- The form of an object whose properties are described by no schema of their own. -/
theorem form_of_silent_properties (source : Source) (place : Place) (name : String)
    {properties : List (String × Json)} (hne : properties ≠ [])
    (hsilent : ∀ property ∈ properties, property.2.isObject = false) :
    source.form ⟨.obj [("type", .str "object"), ("properties", .obj properties)], place, false⟩
        name =
      .ok (annotated [("type", .str "object"), ("properties", .obj properties)]
        (Form.ofMembers name (properties.map fun p => ⟨p.1, false, .anything ""⟩))) := by
  have hmembers (active place) : translateMembers source.document source.refs active place name []
      properties = .ok (properties.map fun p => ⟨p.1, false, .anything ""⟩) := by
    clear hne
    induction properties with
    | nil => rw [translateMembers]; rfl
    | cons property rest ih =>
      obtain ⟨key, v⟩ := property
      have hv : v.isObject = false := hsilent _ List.mem_cons_self
      rw [translateMembers, Schema.translate, ih]
      cases v <;> first | rfl | cases hv
      intro p hp
      exact hsilent p (List.mem_cons_of_mem _ hp)
  obtain ⟨first, rest, rfl⟩ := List.exists_cons_of_ne_nil hne
  have hfields (active place) : translateFields source.document source.refs active place
      [("type", .str "object"), ("properties", .obj (first :: rest))] name =
        .ok (Form.ofMembers name ((first :: rest).map fun p => ⟨p.1, false, .anything ""⟩)) := by
    rw [translateFields]
    exact congrArg (Except.map (Form.ofMembers name)) (hmembers _ _)
  rw [Source.form, Schema.translate]
  exact congrArg (Except.map (annotated _)) (hfields _ _)

/-- A variable of the path that is also a parameter of the query and a property of the body, and a
parameter of the query that is also a property. -/
theorem assemble_routes_overlapping_names :
    let properties : List (String × Json) :=
      [("id", .bool true), ("q", .bool true), ("w", .bool true), ("z", .bool true)]
    let operation := Json.obj [("operationId", .str "edit"),
      ("parameters", .arr [.obj [("name", .str "id"), ("in", .str "query")],
        .obj [("name", .str "q"), ("in", .str "query")]]),
      ("requestBody", .obj [("content", .obj [("application/json", .obj [
        ("schema", .obj [("type", .str "object"), ("properties", .obj properties)])])])])]
    let description := Json.obj [("paths", .obj [("/p/{id}", .obj [("post", operation)])])]
    let bag : Call.Fields :=
      [("z", .null), ("w", .int 3), ("q", .int 2), ("id", .int 1), ("other", .int 4)]
    ∃ table entry route, compile {} "" description = .ok table ∧ entry ∈ table.operations ∧
      entry.2.action = .request route ∧ ("id", .int 1) ∈ fieldsFor (Call.assemble route bag) .path ∧
      ("q", .int 2) ∈ fieldsFor (Call.assemble route bag) .query ∧
      ∃ fields, (Call.assemble route bag).body = .obj fields ∧ fields.Perm [("w", .int 3)] := by
  intro properties operation description bag
  let place : Place := ⟨.document, [.key "/p/{id}", .key "paths"]⟩
  let e : Endpoint := ⟨"/p/{id}", "post", ⟨.obj [("post", operation)], place, false⟩,
    ⟨operation, place.step (.key "post"), false⟩⟩
  have hendpoints : endpoints (documentOf description) = [e] := rfl
  have hname : (({} : Names).resolve e.candidate).1 = "edit" := by decide +kernel
  set source := Source.of (documentOf description) with hsource
  obtain ⟨others, hothers, -⟩ := exists_eq_ok (x := pathAndQuerySlots source "edit" e)
    (fun _ => true) (by decide +kernel)
  obtain ⟨schemaPlace, hschema⟩ : ∃ place, bodyOf source e = .ok (some (⟨.obj
    [("type", .str "object"), ("properties", .obj properties)], place, false⟩, false)) := ⟨_, rfl⟩
  have hform := form_of_silent_properties source schemaPlace "edit_body"
    (show properties ≠ [] by decide) (by decide)
  obtain ⟨slots, hslots⟩ : ∃ slots, slotsOf source "edit" e = .ok slots := by
    rw [slotsOf, hothers, hschema]
    exact ⟨_, congrArg (Except.map _) hform⟩
  obtain ⟨parameters, hparameters, hnamed⟩ := exists_eq_ok (x := parametersOf source e)
    (fun parameters => parameters.filterMap (parameterName? Origin.path.name) == [] &&
      parameters.filterMap (parameterName? Origin.query.name) == ["id", "q"]) (by decide +kernel)
  simp only [Bool.and_eq_true, beq_iff_eq] at hnamed
  obtain ⟨form, hbody, hobject, hmembers⟩ : ∃ form,
      bodyFormOf source "edit" e = .ok (some form) ∧ form.isObject = true ∧
        form.members.map (·.name) = ["id", "q", "w", "z"] := by
    rw [bodyFormOf, hschema]
    exact ⟨_, congrArg (Except.map some) hform, by decide +kernel, by decide +kernel⟩
  obtain ⟨table, hcompile, entry, hentry, hkey, hop, -⟩ :=
    exists_compiled_of_slotsOf "" hendpoints (show ({} : Options).admits e.tags = true from rfl)
      (hname ▸ hslots)
  have haction := (Operation.ofEndpoint_spec hop).2.2.2
  obtain ⟨e', he', declaration, -, hdeclaration, -, hroutes⟩ :=
    assemble_routes_each_argument hcompile hentry haction
  obtain rfl : e' = e := by simpa [hendpoints] using he'
  rw [hkey, hname, declarationOf, hparameters, hbody] at hdeclaration
  obtain rfl := Except.ok.inj hdeclaration
  have hin : Call.variableNames e.path = ["id"] := by decide +kernel
  have horigin (name : String) : Declaration.originOf? ⟨e.path, parameters, some form⟩ name =
      if name = "id" then some .path else if name = "q" then some .query
      else if name ∈ ["w", "z"] then some .bodyField else none := by
    have hproperties : Declaration.properties ⟨e.path, parameters, some form⟩ =
        ["id", "q", "w", "z"] := (if_pos hobject).trans hmembers
    simp only [Declaration.originOf?, Declaration.inPath, Declaration.named, hin, hnamed,
      hproperties]
    by_cases h₁ : name = "id" <;> by_cases h₂ : name = "q" <;> simp [h₁, h₂]
  obtain ⟨-, hparts⟩ := hroutes (by simp [Declaration.named, hnamed]) (by simpa using hobject)
  obtain ⟨hmem, -, -, -, hregroup⟩ := hparts bag
  refine ⟨table, entry, _, hcompile, hentry, haction, ?_, ?_, ?_⟩
  · exact (hmem _ _ _).mpr ⟨horigin _, rfl, by simp, by simp⟩
  · exact (hmem _ _ _).mpr ⟨horigin _, rfl, by simp, by simp⟩
  · refine hregroup (by decide +kernel) [("w", .int 3)] (by simp) (by simp) ?_ ?_
    · simp [horigin]
    · intro key v hkey hv
      rw [horigin] at hkey
      split_ifs at hkey with _ _ hbodied
      · cases hkey
      · cases hkey
      · simp only [List.mem_cons, List.not_mem_nil, or_false] at hbodied
        rcases hbodied with rfl | rfl
        · simp [bag, lookupField, eq_comm]
        · simp [bag, lookupField, Ne.symm hv]

end Toolgate.Catalog
