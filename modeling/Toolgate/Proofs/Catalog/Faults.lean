import Toolgate.Proofs.Catalog.Registration
import Toolgate.Proofs.Schema.Faults

/-!
# What stops a compilation

A description is compiled to a table unless one of the operations that pass the tag filter cannot
be. That is so when the path of a reference to one of its parameters or to its body cannot be read,
or when a schema that is translated for it comes to a node at fault. Parameters whose names are
claimed, and media types that are not chosen, are not looked at.

## Main definitions

* `slotted`: the parameters that get slots
* `schemasOf`: the schemas that are translated for an endpoint
* `Endpoint.Compiles`: nothing stops the compilation of an endpoint

## Main statements

* `exists_slotsOf_iff`: an endpoint has slots when it compiles
* `translated_and_compiled_iff`: when a node has a form, and when a description has a table
-/

namespace Toolgate.Catalog

open Schema (Form TranslationError Network Faultless nodesOf)

/-! ## Nodes of a description -/

section
variable {document : Json} {node part : Node} {e : Endpoint}

theorem mem_nodesOf_of_part (hnode : node ∈ nodesOf document)
    (hpart : part ∈ (Schema.contentsOf node).nodes) : part ∈ nodesOf document :=
  (Network.covers_nodesOf document).closed.contents node hnode part hpart

theorem mem_nodesOf_of_fieldNodes (hnode : node ∈ nodesOf document) {key : String}
    (h : (key, part) ∈ fieldNodes node) : part ∈ nodesOf document :=
  mem_nodesOf_of_part hnode (Schema.mem_contentsOf_of_fieldNodes h)

theorem mem_nodesOf_of_get? (hnode : node ∈ nodesOf document) {key : String}
    (h : node.get? key = some part) : part ∈ nodesOf document := by
  obtain ⟨v, hv, rfl⟩ := Option.map_eq_some_iff.mp h
  unfold Json.get? at hv
  split at hv
  · next fields hvalue =>
    have hentry : (key, ⟨v, node.place.step (.key key), false⟩) ∈ fieldNodes node := by
      rw [fieldNodes, hvalue]
      exact List.mem_map_of_mem (mem_of_lookupField hv)
    exact mem_nodesOf_of_fieldNodes hnode hentry
  · cases hv

theorem mem_nodesOf_of_items (hnode : node ∈ nodesOf document) (h : part ∈ node.items) :
    part ∈ nodesOf document :=
  mem_nodesOf_of_part hnode (Schema.mem_contentsOf_of_items h)

theorem mem_nodesOf_of_resolveRef {ref : String} (h : resolveRef document ref = .ok (some part)) :
    part ∈ nodesOf document :=
  (Network.covers_nodesOf document).closed.of_resolve
    ((Schema.resolve_ofDocument document ref).trans h)

/-- Endpoints are made of nodes of the description. -/
theorem mem_nodesOf_of_mem_endpoints (he : e ∈ endpoints document) :
    e.pathItem ∈ nodesOf document ∧ e.operation ∈ nodesOf document := by
  unfold endpoints at he
  split at he
  · cases he
  · next paths hpaths =>
    have hroot : paths ∈ nodesOf document :=
      mem_nodesOf_of_get? (Network.covers_nodesOf document).closed.root hpaths
    obtain ⟨⟨path, pathItem⟩, hitem, he⟩ := List.mem_flatMap.mp he
    obtain ⟨⟨key, operation⟩, hoperation, he⟩ := List.mem_filterMap.mp he
    have hpathItem := mem_nodesOf_of_fieldNodes hroot hitem
    unfold endpoint? at he
    dsimp only at he
    split_ifs at he
    obtain rfl := Option.some.inj he
    exact ⟨hpathItem, mem_nodesOf_of_fieldNodes hpathItem hoperation⟩

end

/-! ## Parameters and bodies -/

/-- The path of the reference of a node can be read, when the node is one. -/
def IsReadable (document : Json) (node : Node) : Prop :=
  ∀ ref, node.value.getD "$ref" = .str ref → ∃ target, resolveRef document ref = .ok target

/-- The parameters at a location that get a slot, under their names, given the names that are
claimed. -/
def slotted (location : String) (claimed : List String) : List Node → List (String × Node)
  | [] => []
  | parameter :: rest =>
    match (parameterName? location parameter).filter (!claimed.contains ·) with
    | none => slotted location claimed rest
    | some name => (name, parameter) :: slotted location (name :: claimed) rest

/-- The nodes that an endpoint names as its parameters and as its body, which may be references. -/
def Endpoint.named (e : Endpoint) : List Node :=
  let listed (node : Node) := ((node.get? "parameters").map Node.items).getD []
  listed e.pathItem ++ listed e.operation ++ (e.operation.get? "requestBody").toList

/-- The schemas of parameters that are translated. -/
def parameterSchemas (parameters : List Node) (path : String) : List Node :=
  let declared := slotted Origin.path.name [] parameters
  let claimed := Call.variableNames path ++ declared.map Prod.fst
  (declared ++ slotted Origin.query.name claimed parameters).filterMap fun parameter =>
    (parameter.2.get? "schema").filter (·.value.truthy)

/-- The schemas that are translated for an endpoint. -/
def schemasOf (source : Source) (e : Endpoint) : List Node :=
  let parameters := (parametersOf source e).toOption.getD []
  let body := (bodyOf source e).toOption.join
  parameterSchemas parameters e.path ++ (body.map Prod.fst).toList

section
variable {document : Json} {node part : Node} {e : Endpoint} {name : String}

theorem exists_deref_iff : (∃ found, (Source.of document).deref node = .ok found) ↔
    IsReadable document node := by
  unfold Source.deref IsReadable
  cases node.value.getD "$ref" with
  | str ref =>
    simp only [Source.of, Json.str.injEq, forall_eq']
    cases resolveRef document ref <;> simp
  | _ => simp

theorem mem_nodesOf_of_deref (hnode : node ∈ nodesOf document)
    (h : (Source.of document).deref node = .ok (some part)) : part ∈ nodesOf document := by
  unfold Source.deref at h
  split at h
  · split at h
    · next target hresolve =>
      obtain rfl := Except.ok.inj h
      exact mem_nodesOf_of_resolveRef hresolve
    · cases h
  · obtain rfl := Option.some.inj (Except.ok.inj h)
    exact hnode

theorem exists_derefAll_iff {nodes : List Node} :
    (∃ found, (Source.of document).derefAll nodes = .ok found) ↔
      ∀ node ∈ nodes, IsReadable document node := by
  induction nodes with
  | nil => simp [Source.derefAll]
  | cons node rest ih =>
    rw [List.forall_mem_cons, ← ih, ← exists_deref_iff, Source.derefAll]
    cases (Source.of document).deref node with
    | error cause => simp
    | ok found => simp [exists_map_eq_ok]

theorem subset_nodesOf_of_derefAll {nodes found : List Node} (hnodes : nodes ⊆ nodesOf document)
    (h : (Source.of document).derefAll nodes = .ok found) : found ⊆ nodesOf document := by
  induction nodes generalizing found with
  | nil =>
    obtain rfl := Except.ok.inj h
    exact List.nil_subset _
  | cons node rest ih =>
    obtain ⟨hnode, hrest⟩ := List.cons_subset.mp hnodes
    rw [Source.derefAll] at h
    split at h
    · cases h
    · next own hown =>
      obtain ⟨others, hothers, rfl⟩ := map_eq_ok.mp h
      refine List.append_subset.mpr ⟨fun other hother => ?_, ih hrest hothers⟩
      obtain ⟨heq, -⟩ := Option.filter_eq_some_iff.mp (Option.mem_toList.mp hother)
      exact mem_nodesOf_of_deref hnode (heq ▸ hown)

theorem exists_listedParameters_iff :
    (∃ found, listedParameters (.of document) node = .ok found) ↔
      ∀ listed ∈ ((node.get? "parameters").map Node.items).getD [], IsReadable document listed := by
  unfold listedParameters
  cases node.get? "parameters" with
  | none => simp
  | some listed => exact exists_derefAll_iff

theorem subset_nodesOf_of_listedParameters (hnode : node ∈ nodesOf document) {found : List Node}
    (h : listedParameters (.of document) node = .ok found) : found ⊆ nodesOf document := by
  unfold listedParameters at h
  split at h
  · next listed hlisted =>
    refine subset_nodesOf_of_derefAll (fun item hitem => ?_) h
    exact mem_nodesOf_of_items (mem_nodesOf_of_get? hnode hlisted) hitem
  · obtain rfl := Except.ok.inj h
    exact List.nil_subset _

theorem mem_of_mem_addParameter {parameter other : Node} {parameters : List Node}
    (h : other ∈ addParameter parameter parameters) : other = parameter ∨ other ∈ parameters := by
  induction parameters with
  | nil => exact .inl (List.mem_singleton.mp h)
  | cons first rest ih =>
    rw [addParameter] at h
    split at h
    · exact (List.mem_cons.mp h).imp_right (List.mem_cons_of_mem _)
    · rcases List.mem_cons.mp h with rfl | h
      · exact .inr List.mem_cons_self
      · exact (ih h).imp_right (List.mem_cons_of_mem _)

theorem subset_of_foldl_addParameter (parameters merged : List Node) :
    parameters.foldl (fun merged parameter => addParameter parameter merged) merged ⊆
      merged ++ parameters := by
  induction parameters generalizing merged with
  | nil => simp
  | cons parameter rest ih =>
    intro other hother
    rcases List.mem_append.mp (ih _ hother) with hother | hother
    · rcases mem_of_mem_addParameter hother with rfl | hother <;> simp [*]
    · simp [hother]

theorem exists_parametersOf_iff : (∃ parameters, parametersOf (.of document) e = .ok parameters) ↔
    (∃ shared, listedParameters (.of document) e.pathItem = .ok shared) ∧
      ∃ own, listedParameters (.of document) e.operation = .ok own := by
  unfold parametersOf
  cases listedParameters (.of document) e.pathItem with
  | error cause => simp
  | ok shared => simp [exists_map_eq_ok]

theorem subset_nodesOf_of_parametersOf (he : e ∈ endpoints document) {parameters : List Node}
    (h : parametersOf (.of document) e = .ok parameters) : parameters ⊆ nodesOf document := by
  obtain ⟨hpathItem, hoperation⟩ := mem_nodesOf_of_mem_endpoints he
  unfold parametersOf at h
  split at h
  · cases h
  · next shared hshared =>
    obtain ⟨own, hown, rfl⟩ := map_eq_ok.mp h
    refine List.Subset.trans (subset_of_foldl_addParameter _ []) ?_
    exact List.append_subset.mpr ⟨List.nil_subset _, List.append_subset.mpr
      ⟨subset_nodesOf_of_listedParameters hpathItem hshared,
        subset_nodesOf_of_listedParameters hoperation hown⟩⟩

theorem exists_bodyOf_iff : (∃ body, bodyOf (.of document) e = .ok body) ↔
    ∀ node ∈ (e.operation.get? "requestBody").toList, IsReadable document node := by
  unfold bodyOf
  cases e.operation.get? "requestBody" with
  | none => simp
  | some node =>
    rw [Option.toList_some, List.forall_mem_singleton, ← exists_deref_iff, exists_map_eq_ok]

theorem exists_mem_fieldNodes_of_jsonMedia? {content media : Node}
    (h : jsonMedia? content = some media) : ∃ key, (key, media) ∈ fieldNodes content := by
  unfold jsonMedia? at h
  dsimp only at h
  have hentry {test : String × Node → Bool}
      (h : (((fieldNodes content).filter (·.2.value.isObject)).find? test).map (·.2) = some media) :
      ∃ key, (key, media) ∈ fieldNodes content := by
    obtain ⟨⟨key, own⟩, hfound, rfl⟩ := Option.map_eq_some_iff.mp h
    exact ⟨key, List.mem_of_mem_filter (List.mem_of_find?_eq_some hfound)⟩
  split at h
  · next own hpreferred =>
    obtain rfl := Option.some.inj h
    obtain ⟨name, -, hname⟩ := List.exists_of_findSome?_eq_some hpreferred
    exact hentry hname
  · exact hentry h

theorem mem_nodesOf_of_bodyOf (he : e ∈ endpoints document) {schema : Node} {required : Bool}
    (h : bodyOf (.of document) e = .ok (some (schema, required))) : schema ∈ nodesOf document := by
  unfold bodyOf at h
  split at h
  · cases h
  · next node hnode =>
    obtain ⟨found?, hfound, h⟩ := map_eq_ok.mp h
    obtain ⟨body, hfound?, h⟩ := Option.bind_eq_some_iff.mp h
    obtain ⟨content, hcontent, h⟩ := Option.bind_eq_some_iff.mp h
    obtain ⟨media, hmedia, h⟩ := Option.bind_eq_some_iff.mp h
    obtain ⟨own, hown, h⟩ := Option.bind_eq_some_iff.mp h
    have hbody : body ∈ nodesOf document := mem_nodesOf_of_deref
      (mem_nodesOf_of_get? (mem_nodesOf_of_mem_endpoints he).2 hnode) (hfound? ▸ hfound)
    obtain ⟨key, hentry⟩ := exists_mem_fieldNodes_of_jsonMedia? hmedia
    have hmedia := mem_nodesOf_of_fieldNodes (mem_nodesOf_of_get? hbody hcontent) hentry
    dsimp only at h
    split_ifs at h
    obtain rfl := (Prod.mk.inj (Option.some.inj h)).1
    exact mem_nodesOf_of_get? hmedia hown

theorem mem_of_mem_slotted {location : String} {claimed : List String} {parameters : List Node}
    {entry : String × Node} (h : entry ∈ slotted location claimed parameters) :
    entry.2 ∈ parameters := by
  induction parameters generalizing claimed with
  | nil => cases h
  | cons parameter rest ih =>
    rw [slotted] at h
    split at h
    · exact List.mem_cons_of_mem _ (ih h)
    · rcases List.mem_cons.mp h with rfl | h
      · exact List.mem_cons_self
      · exact List.mem_cons_of_mem _ (ih h)

section
variable {source : Source} {schema : Node}

theorem mem_schemasOf_of_slotted {parameters : List Node}
    (hparameters : parametersOf source e = .ok parameters) {entry : String × Node}
    (hentry : entry ∈ slotted Origin.path.name [] parameters ++
      slotted Origin.query.name (Call.variableNames e.path ++
        (slotted Origin.path.name [] parameters).map Prod.fst) parameters)
    (hschema : schema ∈ (entry.2.get? "schema").filter (·.value.truthy)) :
    schema ∈ schemasOf source e := by
  rw [schemasOf, hparameters]
  exact List.mem_append_left _ (List.mem_filterMap.mpr ⟨entry, hentry, hschema⟩)

theorem mem_schemasOf_of_bodyOf {required : Bool}
    (hbody : bodyOf source e = .ok (some (schema, required))) : schema ∈ schemasOf source e := by
  rw [schemasOf, hbody]
  exact List.mem_append_right _ (List.mem_singleton_self schema)

end

/-- The schemas that are translated for an endpoint are nodes of the description. -/
theorem subset_nodesOf_of_schemasOf (he : e ∈ endpoints document) :
    schemasOf (.of document) e ⊆ nodesOf document := by
  intro schema hschema
  rcases List.mem_append.mp hschema with hschema | hschema
  · obtain ⟨parameter, hparameter, hschema⟩ := List.mem_filterMap.mp hschema
    have hmem : parameter.2 ∈ (parametersOf (.of document) e).toOption.getD [] :=
      (List.mem_append.mp hparameter).elim mem_of_mem_slotted mem_of_mem_slotted
    cases hparameters : parametersOf (.of document) e with
    | error cause =>
      rw [hparameters] at hmem
      cases hmem
    | ok parameters =>
      rw [hparameters] at hmem
      exact mem_nodesOf_of_get? (subset_nodesOf_of_parametersOf he hparameters hmem)
        (Option.filter_eq_some_iff.mp hschema).1
  · cases hbody : bodyOf (.of document) e with
    | error cause =>
      rw [hbody] at hschema
      cases hschema
    | ok body? =>
      rw [hbody] at hschema
      obtain ⟨⟨own, required⟩, hown, rfl⟩ := Option.map_eq_some_iff.mp (Option.mem_toList.mp hschema)
      obtain rfl : body? = some (own, required) := hown
      exact mem_nodesOf_of_bodyOf he hbody

end

/-! ## Slots and operations -/

/-- Nothing stops the compilation of an endpoint: the references to its parameters and to its body
can be read, and no node that the schemas for it come to is at fault. -/
structure Endpoint.Compiles (document : Json) (e : Endpoint) : Prop where
  readable : ∀ node ∈ e.named, IsReadable document node
  faultless : ∀ schema ∈ schemasOf (.of document) e, Faultless document schema

section
variable {document : Json} {e : Endpoint} {operation : String}

theorem exists_sourceForm_iff {schema : Node} (h : schema ∈ nodesOf document) (name : String) :
    (∃ form, (Source.of document).form schema name = .ok form) ↔ Faultless document schema :=
  Schema.exists_form_iff (Network.covers_nodesOf document) h name

theorem exists_formOrAny_iff {schema? : Option Node}
    (h : ∀ schema ∈ schema?, schema ∈ nodesOf document) (name : String) :
    (∃ form, (Source.of document).formOrAny schema? name = .ok form) ↔
      ∀ schema ∈ schema?.filter (·.value.truthy), Faultless document schema := by
  unfold Source.formOrAny
  cases hschema : schema?.filter (·.value.truthy) with
  | none => simp
  | some schema =>
    have hmem := h schema (Option.filter_eq_some_iff.mp hschema).1
    simp [exists_sourceForm_iff hmem]

/-- The names of the slots of parameters. -/
theorem names_parameterSlots {source : Source} {origin : Origin} {claimed : List String}
    {parameters : List Node} {slots : List Slot}
    (h : parameterSlots source operation origin claimed parameters = .ok slots) :
    slots.map (·.name) = (slotted origin.name claimed parameters).map Prod.fst := by
  induction parameters generalizing claimed slots with
  | nil =>
    obtain rfl := Except.ok.inj h
    rfl
  | cons parameter rest ih =>
    rw [parameterSlots] at h
    rw [slotted]
    revert h
    cases (parameterName? origin.name parameter).filter (!claimed.contains ·) with
    | none => exact ih
    | some name =>
      dsimp only
      intro h
      split at h
      · cases h
      · obtain ⟨others, hothers, rfl⟩ := map_eq_ok.mp h
        simp [ih hothers]

theorem exists_parameterSlots_iff {origin : Origin} {claimed : List String} {parameters : List Node}
    (h : parameters ⊆ nodesOf document) :
    (∃ slots, parameterSlots (.of document) operation origin claimed parameters = .ok slots) ↔
      ∀ parameter ∈ slotted origin.name claimed parameters,
        ∀ schema ∈ (parameter.2.get? "schema").filter (·.value.truthy),
          Faultless document schema := by
  induction parameters generalizing claimed with
  | nil => simp [parameterSlots, slotted]
  | cons parameter rest ih =>
    obtain ⟨hparameter, hrest⟩ := List.cons_subset.mp h
    rw [parameterSlots, slotted]
    cases hname : (parameterName? origin.name parameter).filter (!claimed.contains ·) with
    | none => exact ih hrest
    | some name =>
      dsimp only
      have hschema : ∀ schema ∈ parameter.get? "schema", schema ∈ nodesOf document :=
        fun schema hschema => mem_nodesOf_of_get? hparameter hschema
      have hform := exists_formOrAny_iff hschema (operation ++ "_" ++ name)
      rw [List.forall_mem_cons, ← hform, ← ih hrest]
      cases (Source.of document).formOrAny (parameter.get? "schema") (operation ++ "_" ++ name) with
      | error cause => simp
      | ok form => simp [exists_map_eq_ok]

theorem exists_pathAndQuerySlots_iff (operation : String) (he : e ∈ endpoints document)
    {parameters : List Node} (hparameters : parametersOf (.of document) e = .ok parameters) :
    (∃ slots, pathAndQuerySlots (.of document) operation e = .ok slots) ↔
      ∀ schema ∈ parameterSchemas parameters e.path, Faultless document schema := by
  have hmem := subset_nodesOf_of_parametersOf he hparameters
  have hsplit : (∀ schema ∈ parameterSchemas parameters e.path, Faultless document schema) ↔
      (∃ slots, parameterSlots (.of document) operation .path [] parameters = .ok slots) ∧
        ∃ slots, parameterSlots (.of document) operation .query (Call.variableNames e.path ++
          (slotted Origin.path.name [] parameters).map Prod.fst) parameters = .ok slots := by
    rw [exists_parameterSlots_iff hmem, exists_parameterSlots_iff hmem, ← List.forall_mem_append]
    simp only [parameterSchemas, List.mem_filterMap]
    exact ⟨fun h parameter hparameter schema hschema => h schema ⟨parameter, hparameter, hschema⟩,
      fun h schema ⟨parameter, hparameter, hschema⟩ => h parameter hparameter schema hschema⟩
  rw [hsplit, pathAndQuerySlots, hparameters]
  dsimp only
  cases hpath : parameterSlots (.of document) operation .path [] parameters with
  | error cause => simp
  | ok pathSlots => simp [exists_map_eq_ok, names_parameterSlots hpath]

/-- An endpoint has slots when nothing stops its compilation. -/
theorem exists_slotsOf_iff (he : e ∈ endpoints document) :
    (∃ slots, slotsOf (.of document) operation e = .ok slots) ↔ e.Compiles document := by
  have hreadable : (∀ node ∈ e.named, IsReadable document node) ↔
      (∃ parameters, parametersOf (.of document) e = .ok parameters) ∧
        ∃ body, bodyOf (.of document) e = .ok body := by
    rw [exists_parametersOf_iff, exists_listedParameters_iff, exists_listedParameters_iff,
      exists_bodyOf_iff, Endpoint.named]
    simp only [List.forall_mem_append]
  have hcompiles : e.Compiles document ↔ (∀ node ∈ e.named, IsReadable document node) ∧
      ∀ schema ∈ schemasOf (.of document) e, Faultless document schema :=
    ⟨fun h => ⟨h.readable, h.faultless⟩, fun h => ⟨h.1, h.2⟩⟩
  rw [hcompiles, hreadable, slotsOf, schemasOf]
  cases hparameters : parametersOf (.of document) e with
  | error cause => simp [pathAndQuerySlots, hparameters]
  | ok parameters =>
    have hslots := exists_pathAndQuerySlots_iff operation he hparameters
    dsimp only [Except.toOption, Option.getD_some]
    rw [List.forall_mem_append, ← hslots]
    cases pathAndQuerySlots (.of document) operation e with
    | error cause => simp
    | ok slots =>
      cases hbody : bodyOf (.of document) e with
      | error cause => simp
      | ok body? =>
        cases body? with
        | none => simp
        | some body =>
          simp [exists_map_eq_ok, exists_sourceForm_iff (mem_nodesOf_of_bodyOf he hbody)]

theorem exists_operationsFrom_iff {es : List Endpoint} (hes : es ⊆ endpoints document)
    (names : Naming.Names) (found : List (String × Operation)) :
    (∃ result, operationsFrom (.of document) names found es = .ok result) ↔
      ∀ e ∈ es, e.Compiles document := by
  induction es generalizing names found with
  | nil => simp [operationsFrom]
  | cons e rest ih =>
    obtain ⟨he, hrest⟩ := List.cons_subset.mp hes
    have hop : (∃ operation, Operation.ofEndpoint (.of document) (names.resolve e.candidate).1 e =
        .ok operation) ↔ e.Compiles document := by
      rw [Operation.ofEndpoint, exists_map_eq_ok, exists_slotsOf_iff he]
    rw [operationsFrom, List.forall_mem_cons, ← hop]
    dsimp only
    cases Operation.ofEndpoint (.of document) (names.resolve e.candidate).1 e with
    | error cause => simp
    | ok operation => simp [ih hrest]

end

/-- The fields of a schema whose format is a list. -/
def listFormat (type : String) : List (String × Json) :=
  [("type", .str type), ("format", .arr [])]

/-- An operation with one parameter, at a location, whose schema is that of a text. -/
def listFormatOperation (location : String) : Call.Fields :=
  [("parameters", .arr [.obj [("name", .str "q"), ("in", .str location),
    ("schema", .obj (listFormat "string"))]])]

theorem translate_listFormat {document : Json} {pending : List String} {place : Place}
    {name : String} :
    Schema.translate document pending [] ⟨.obj (listFormat "string"), place, false⟩ name =
      .error .unusableFormat := by
  rw [Schema.translate_of_no_ref rfl (by simp [listFormat, lookupField]) (.inr List.not_mem_nil),
    Schema.translateFields]
  rfl

/-- A node without parts that is no reference and no text is not at fault. -/
theorem faultless_listFormat_integer :
    Faultless .null ⟨.obj (listFormat "integer"), ⟨.given, []⟩, false⟩ := by
  intro depth call hnested
  obtain rfl := hnested.eq_first rfl
  intro cause hfault
  cases hfault with
  | pointer value lookup free unreadable =>
    obtain rfl := Json.obj.inj value
    cases lookup
  | listFormat text | objectFormat text | pattern text =>
    obtain rfl := Json.obj.inj text.value
    exact absurd text.type_eq (by decide)

end Toolgate.Catalog
