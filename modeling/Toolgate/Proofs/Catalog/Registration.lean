import Mathlib.Data.List.Forall2
import Toolgate.Catalog.Compile
import Toolgate.Proofs.Naming.Distinct
import Toolgate.Proofs.Result

/-!
# Registration of operations

Operations are put into the table under names that a namespace hands out. A write under a key that
is there already would replace what was registered before; that this never happens rests on one
invariant, kept along the walk over the endpoints and over the two reports behind it: the keys are
distinct, and each of them is taken in the namespace.
-/

namespace Toolgate.Catalog

open Naming (Names)

/-! ## Entries under handed-out names -/

/-- Entries are filed under their own names, each once, and all these names are taken. -/
structure Filed {β : Type} (nameOf : β → String) (names : Names) (found : List (String × β)) :
    Prop where
  nodup : (found.map Prod.fst).Nodup
  taken : ∀ key ∈ found.map Prod.fst, key ∈ names.taken
  named : ∀ entry ∈ found, entry.1 = nameOf entry.2

variable {β : Type} {nameOf : β → String} {names : Names} {found : List (String × β)}

theorem Filed.empty (names : Names) : Filed nameOf names [] :=
  ⟨List.nodup_nil, by simp, by simp⟩

/-- A name that is handed out now is not among the keys, so what is filed under it goes to the
end. -/
theorem Filed.setField_resolve (h : Filed nameOf names found) (candidate : String) (v : β) :
    setField (names.resolve candidate).1 v found = found ++ [((names.resolve candidate).1, v)] :=
  setField_of_notMem (fun hmem => names.resolve_notMem candidate (h.taken _ hmem)) v

theorem Filed.append_resolve (h : Filed nameOf names found) (candidate : String) {v : β}
    (hname : nameOf v = (names.resolve candidate).1) :
    Filed nameOf (names.resolve candidate).2
      (found ++ [((names.resolve candidate).1, v)]) where
  nodup := by
    rw [List.map_append, List.map_singleton]
    refine h.nodup.append (List.nodup_singleton _) ?_
    rw [List.disjoint_singleton]
    exact fun hmem => names.resolve_notMem candidate (h.taken _ hmem)
  taken := by
    intro key hkey
    rw [Naming.Names.taken_resolve]
    rw [List.map_append, List.mem_append] at hkey
    rcases hkey with hkey | hkey
    · exact List.mem_cons_of_mem _ (h.taken key hkey)
    · rw [List.mem_singleton.mp hkey]
      exact List.mem_cons_self
  named := by
    intro entry hentry
    rcases List.mem_append.mp hentry with hentry | hentry
    · exact h.named entry hentry
    · rw [List.mem_singleton.mp hentry]
      exact hname.symm

/-! ## Operations of endpoints -/

/-- The operation that an endpoint is compiled to under a name. -/
theorem Operation.ofEndpoint_spec {source : Source} {name : String} {e : Endpoint}
    {operation : Operation} (h : Operation.ofEndpoint source name e = .ok operation) :
    operation.name = name ∧ operation.path = e.path ∧ operation.method = Text.upper e.method ∧
      operation.action = .request (routeOf e operation.slots) := by
  obtain ⟨slots, -, rfl⟩ := map_eq_ok.mp h
  exact ⟨rfl, rfl, rfl, rfl⟩

/-- The slots of an operation are those of its endpoint, and its record is made of them. -/
theorem Operation.slots_of_ofEndpoint {source : Source} {name : String} {e : Endpoint}
    {operation : Operation} (h : Operation.ofEndpoint source name e = .ok operation) :
    slotsOf source name e = .ok operation.slots ∧
      operation.input = inputShape name operation.slots := by
  obtain ⟨slots, hslots, rfl⟩ := map_eq_ok.mp h
  exact ⟨hslots, rfl⟩

/-- One step of the walk appends the operation of the endpoint and keeps the table filed. -/
theorem exists_of_operationsFrom_cons {source : Source} {e : Endpoint} {rest : List Endpoint}
    {names after : Names} {found table : List (String × Operation)}
    (hfiled : Filed Operation.name names found)
    (h : operationsFrom source names found (e :: rest) = .ok (table, after)) :
    ∃ operation, Operation.ofEndpoint source (names.resolve e.candidate).1 e = .ok operation ∧
      Filed Operation.name (names.resolve e.candidate).2
        (found ++ [((names.resolve e.candidate).1, operation)]) ∧
      operationsFrom source (names.resolve e.candidate).2
        (found ++ [((names.resolve e.candidate).1, operation)]) rest = .ok (table, after) := by
  rw [operationsFrom] at h
  cases hop : Operation.ofEndpoint source (names.resolve e.candidate).1 e with
  | error cause => simp [hop] at h
  | ok operation =>
    simp only [hop, hfiled.setField_resolve] at h
    exact ⟨operation, rfl, hfiled.append_resolve _ (Operation.ofEndpoint_spec hop).1, h⟩

/-- Walking over endpoints appends the operation of each, in order, and keeps the table filed. -/
theorem operationsFrom_spec {source : Source} {es : List Endpoint} {names after : Names}
    {found table : List (String × Operation)} (hfiled : Filed Operation.name names found)
    (h : operationsFrom source names found es = .ok (table, after)) :
    Filed Operation.name after table ∧ ∃ new, table = found ++ new ∧
      List.Forall₂ (fun e entry => Operation.ofEndpoint source entry.1 e = .ok entry.2) es new := by
  induction es generalizing names found with
  | nil =>
    simp only [operationsFrom, Except.ok.injEq, Prod.mk.injEq] at h
    obtain ⟨rfl, rfl⟩ := h
    exact ⟨hfiled, [], by simp, .nil⟩
  | cons e rest ih =>
    obtain ⟨operation, hop, hfiled', hrest⟩ := exists_of_operationsFrom_cons hfiled h
    obtain ⟨hafter, new, rfl, hnew⟩ := ih hfiled' hrest
    refine ⟨hafter, ((names.resolve e.candidate).1, operation) :: new, ?_, .cons hop hnew⟩
    simp

/-- The keys of a walk are the names that the namespace hands out in turn. -/
theorem operationsFrom_keys {source : Source} {es : List Endpoint} {names after : Names}
    {found table : List (String × Operation)} (hfiled : Filed Operation.name names found)
    (h : operationsFrom source names found es = .ok (table, after)) :
    table.map Prod.fst =
      found.map Prod.fst ++ (names.resolveAll (es.map Endpoint.candidate)).1 := by
  induction es generalizing names found with
  | nil =>
    simp only [operationsFrom, Except.ok.injEq, Prod.mk.injEq] at h
    simp [h.1, Naming.Names.resolveAll]
  | cons e rest ih =>
    obtain ⟨operation, -, hfiled', hrest⟩ := exists_of_operationsFrom_cons hfiled h
    rw [ih hfiled' hrest, List.map_cons, Naming.Names.resolveAll_cons]
    simp

/-! ## The tag filter and the reports -/

/-- An endpoint passes the filter when there is none or when it shares a tag with it. -/
theorem Options.admits_iff (options : Options) (tags : List String) :
    options.admits tags = true ↔
      options.enabledTags = [] ∨ ∃ tag ∈ tags, tag ∈ options.enabledTags := by
  simp [Options.admits]

/-- The reports, too, go behind what is in the table. -/
theorem Filed.register_reports {found : List (String × Operation)}
    (h : Filed Operation.name names found) (tags server : Json) :
    ∃ tagsName serverName after,
      register found (reports names tags server) =
        found ++ [(tagsName, .listingTags tagsName tags),
          (serverName, .describingServer serverName server)] ∧
      Filed Operation.name after (register found (reports names tags server)) := by
  let first := Operation.listingTags (names.resolve "list_api_tags").1 tags
  have hfirst := h.append_resolve "list_api_tags" (show first.name = _ from rfl)
  let second := Operation.describingServer
    ((names.resolve "list_api_tags").2.resolve "get_server_info").1 server
  have hsecond := hfirst.append_resolve "get_server_info" (show second.name = _ from rfl)
  have htable : register found (reports names tags server) = _ :=
    (congrArg (setField _ _) (h.setField_resolve _ _)).trans (hfirst.setField_resolve _ _)
  rw [htable]
  exact ⟨_, _, _, List.append_assoc .., hsecond⟩

/-! ## Operations of the description -/

/-- Is the operation one of the description, and no report? -/
def Operation.isApi (operation : Operation) : Bool :=
  match operation.action with
  | .request _ => true
  | .report _ => false

/-- The operations of a table that are of the description. -/
def Table.api (table : Table) : List (String × Operation) :=
  table.operations.filter (·.2.isApi)

theorem Operation.isApi_of_ofEndpoint {source : Source} {name : String} {e : Endpoint}
    {operation : Operation} (h : Operation.ofEndpoint source name e = .ok operation) :
    operation.isApi = true := by
  simp [isApi, (Operation.ofEndpoint_spec h).2.2.2]

theorem Operation.tags_of_ofEndpoint {source : Source} {name : String} {e : Endpoint}
    {operation : Operation} (h : Operation.ofEndpoint source name e = .ok operation) :
    operation.tags = e.tags := by
  obtain ⟨slots, -, rfl⟩ := map_eq_ok.mp h
  rfl

/-- How the operations of a table come about: those of the description from the endpoints that
pass the filter, in order, under the names that an empty namespace gives to their candidates, and
behind them the reports. -/
theorem api_of_compile {options : Options} {clientUrl : String} {description : Json}
    {table : Table} (h : compile options clientUrl description = .ok table) :
    let es := endpoints (documentOf description)
    let admitted := es.filter fun e => options.admits e.tags
    table.api.map Prod.fst = (({} : Names).resolveAll (admitted.map Endpoint.candidate)).1 ∧
      List.Forall₂ (fun e entry =>
        Operation.ofEndpoint (.of (documentOf description)) entry.1 e = .ok entry.2)
        admitted table.api ∧
      ∃ tagsName serverName report,
        table.operations = table.api ++ [(tagsName, .listingTags tagsName (tagReport options es)),
          (serverName, .describingServer serverName report)] := by
  intro es admitted
  simp only [compile] at h
  obtain ⟨⟨api, names⟩, hwalk, htable⟩ := map_eq_ok.mp h
  obtain ⟨hfiled, new, happend, hnew⟩ := operationsFrom_spec (.empty {}) hwalk
  obtain rfl : api = new := by simpa using happend
  obtain ⟨tagsName, serverName, after, hregister, -⟩ := hfiled.register_reports
    (tagReport options es) (serverReport options clientUrl api.length
      (resourcesOf options.scheme (documentOf description)).length)
  have hoperations : table.operations = _ := (congrArg Table.operations htable).symm.trans hregister
  have hall : ∀ entry ∈ api, entry.2.isApi = true := fun entry hentry =>
    let ⟨_, _, hop⟩ := exists_of_mem_of_forall₂ hnew hentry
    Operation.isApi_of_ofEndpoint hop
  have hapi : table.api = api := by
    rw [Table.api, hoperations, List.filter_append, List.filter_eq_self.mpr hall]
    exact List.append_nil api
  rw [hapi]
  exact ⟨by simpa using operationsFrom_keys (.empty {}) hwalk, hnew, _, _, _, hoperations⟩

theorem tags_of_compile {options : Options} {clientUrl : String} {description : Json}
    {table : Table} (h : compile options clientUrl description = .ok table) :
    table.tags = (tagCounts (endpoints (documentOf description))).map (·.1) := by
  simp only [compile] at h
  obtain ⟨⟨api, names⟩, -, rfl⟩ := map_eq_ok.mp h
  rfl

/-! ## The table -/

/-- What a compiled table holds comes from endpoints or reports. -/
theorem exists_endpoint_or_reporting {options : Options} {clientUrl : String} {description : Json}
    {table : Table} {entry : String × Operation}
    (h : compile options clientUrl description = .ok table) (hentry : entry ∈ table.operations) :
    (∃ e ∈ endpoints (documentOf description),
      Operation.ofEndpoint (.of (documentOf description)) entry.1 e = .ok entry.2) ∨
      ∃ description report, entry.2 = .reporting entry.1 description report := by
  obtain ⟨-, hops, tagsName, serverName, report, htable⟩ := api_of_compile h
  rw [htable] at hentry
  simp only [List.mem_append, List.mem_cons, List.not_mem_nil, or_false] at hentry
  rcases hentry with hentry | rfl | rfl
  · obtain ⟨e, he, hop⟩ := exists_of_mem_of_forall₂ hops hentry
    exact .inl ⟨e, List.mem_of_mem_filter he, hop⟩
  · exact .inr ⟨_, _, rfl⟩
  · exact .inr ⟨_, _, rfl⟩

/-- What a compiled table holds besides reports comes from endpoints. -/
theorem exists_endpoint_of_mem {options : Options} {clientUrl : String} {description : Json}
    {table : Table} {entry : String × Operation} {route : Call.Route}
    (h : compile options clientUrl description = .ok table) (hentry : entry ∈ table.operations)
    (haction : entry.2.action = .request route) :
    ∃ e ∈ endpoints (documentOf description),
      Operation.ofEndpoint (.of (documentOf description)) entry.1 e = .ok entry.2 := by
  rcases exists_endpoint_or_reporting h hentry with hop | ⟨_, _, hreporting⟩
  · exact hop
  · rw [hreporting] at haction
    cases haction

theorem resources_of_compile {options : Options} {clientUrl : String} {description : Json}
    {table : Table} (h : compile options clientUrl description = .ok table) :
    table.resources = resourcesOf options.scheme (documentOf description) := by
  simp only [compile] at h
  obtain ⟨⟨api, names⟩, -, rfl⟩ := map_eq_ok.mp h
  rfl

/-- An endpoint whose slots can be translated is compiled. -/
theorem exists_compiled_of_slotsOf {options : Options} (clientUrl : String) {description : Json}
    {e : Endpoint} {slots : List Slot} (hendpoints : endpoints (documentOf description) = [e])
    (hadmits : options.admits e.tags = true)
    (hslots : slotsOf (.of (documentOf description)) (({} : Names).resolve e.candidate).1 e =
      .ok slots) :
    ∃ table, compile options clientUrl description = .ok table ∧
      ∃ entry ∈ table.operations, entry.1 = (({} : Names).resolve e.candidate).1 ∧
        Operation.ofEndpoint (.of (documentOf description)) entry.1 e = .ok entry.2 ∧
          entry.2.slots = slots := by
  set name := (({} : Names).resolve e.candidate).1
  obtain ⟨operation, hop⟩ : ∃ operation,
      Operation.ofEndpoint (.of (documentOf description)) name e = .ok operation := by
    simp only [Operation.ofEndpoint, hslots]
    exact ⟨_, rfl⟩
  have hwalk : operationsFrom (.of (documentOf description)) {} [] [e] =
      .ok ([(name, operation)], (({} : Names).resolve e.candidate).2) := by
    simp only [operationsFrom, name, hop]
    rfl
  have hadmitted : [e].filter (fun e => options.admits e.tags) = [e] := by simp [hadmits]
  obtain ⟨hfiled, -⟩ := operationsFrom_spec (.empty {}) hwalk
  obtain ⟨tagsName, serverName, after, htable, -⟩ := hfiled.register_reports
    (tagReport options [e]) (serverReport options clientUrl 1
      (resourcesOf options.scheme (documentOf description)).length)
  obtain ⟨table, hcompile, hmem⟩ : ∃ table, compile options clientUrl description = .ok table ∧
      (name, operation) ∈ table.operations := by
    simp only [compile, hendpoints, hadmitted, hwalk, Except.map, Except.ok.injEq]
    refine ⟨_, rfl, ?_⟩
    exact htable ▸ List.mem_cons_self
  refine ⟨table, hcompile, (name, operation), hmem, rfl, hop, ?_⟩
  exact Except.ok.inj ((Operation.slots_of_ofEndpoint hop).1.symm.trans hslots)

/-! ### A single operation -/

/-- A description of one operation. -/
def soleDescription (path method : String) (operation : Call.Fields) : Json :=
  .obj [("paths", .obj [(path, .obj [(method, .obj operation)])])]

/-- The endpoint of that operation. -/
def soleEndpoint (path method : String) (operation : Call.Fields) : Endpoint :=
  let place : Place := ⟨.document, [.key path, .key "paths"]⟩
  ⟨path, method, ⟨.obj [(method, .obj operation)], place, false⟩,
    ⟨.obj operation, place.step (.key method), false⟩⟩

theorem lower_of_mem_httpMethods : ∀ method ∈ httpMethods, Text.lower method = method := by
  decide +kernel

theorem endpoints_of_paths {document : Json} {path method : String} {operation : Call.Fields}
    (hpaths : (Node.root document).get? "paths" =
      some ⟨.obj [(path, .obj [(method, .obj operation)])], ⟨.document, [.key "paths"]⟩, false⟩)
    (h : method ∈ httpMethods) : endpoints document = [soleEndpoint path method operation] := by
  have hmethod : httpMethods.contains method = true := List.contains_iff_mem.mpr h
  simp only [endpoints, hpaths, fieldNodes, List.map_cons, List.map_nil, List.flatMap_cons,
    List.flatMap_nil, List.append_nil, endpointsAt, List.filterMap_cons, List.filterMap_nil,
    endpoint?, lower_of_mem_httpMethods method h, hmethod, Bool.true_and]
  rfl

theorem endpoints_soleDescription {path method : String} {operation : Call.Fields}
    (h : method ∈ httpMethods) :
    endpoints (documentOf (soleDescription path method operation)) =
      [soleEndpoint path method operation] :=
  endpoints_of_paths rfl h

/-- A description of one operation whose slots can be translated is compiled. -/
theorem exists_compiled_sole {options : Options} (clientUrl : String) {path method name : String}
    {operation : Call.Fields} {slots : List Slot} (hmethod : method ∈ httpMethods)
    (hadmits : options.admits (tagsOf (.obj operation)) = true)
    (hname : (({} : Names).resolve (soleEndpoint path method operation).candidate).1 = name)
    (hslots : slotsOf (.of (documentOf (soleDescription path method operation))) name
      (soleEndpoint path method operation) = .ok slots) :
    ∃ table entry, compile options clientUrl (soleDescription path method operation) = .ok table ∧
      entry ∈ table.operations ∧ entry.2.slots = slots ∧
      entry.2.action = .request (routeOf (soleEndpoint path method operation) slots) ∧
      Operation.ofEndpoint (.of (documentOf (soleDescription path method operation))) entry.1
        (soleEndpoint path method operation) = .ok entry.2 := by
  obtain ⟨table, hcompile, entry, hentry, -, hop, hentrySlots⟩ :=
    exists_compiled_of_slotsOf clientUrl (endpoints_soleDescription hmethod) hadmits
      (hname ▸ hslots)
  refine ⟨table, entry, hcompile, hentry, hentrySlots, ?_, hop⟩
  rw [(Operation.ofEndpoint_spec hop).2.2.2, hentrySlots]

/-! ### Every operation -/

/-- A compiled table holds, in the order of the description, one operation for each endpoint that
passes the filter, and the two reports behind them. Every operation stands under its own name, no
name stands twice, and the report of the configuration counts what is in the table. -/
theorem compile_registers_each_endpoint {options : Options} {clientUrl : String}
    {description : Json} {table : Table} (h : compile options clientUrl description = .ok table) :
    let es := endpoints (documentOf description)
    let admitted := es.filter fun e =>
      options.enabledTags = [] ∨ ∃ tag ∈ e.tags, tag ∈ options.enabledTags
    ∃ api tagsName serverName report,
      table.operations = api ++ [(tagsName, .listingTags tagsName (tagReport options es)),
        (serverName, .describingServer serverName report)] ∧
      List.Forall₂ (fun e entry =>
        entry.2.path = e.path ∧ entry.2.method = Text.upper e.method ∧
          Operation.ofEndpoint (.of (documentOf description)) entry.1 e = .ok entry.2)
        admitted api ∧
      (∀ entry ∈ table.operations, entry.1 = entry.2.name) ∧
      (table.operations.map Prod.fst).Nodup ∧
      report.get? "operation_count" = some (.int api.length) ∧
      report.get? "resource_count" = some (.int table.resources.length) := by
  intro es admitted
  have hadmitted : (es.filter fun e => options.admits e.tags) = admitted :=
    List.filter_congr fun e _ => Bool.eq_iff_iff.mpr <| by
      simpa using options.admits_iff e.tags
  simp only [compile] at h
  rw [hadmitted] at h
  cases hwalk : operationsFrom (.of (documentOf description)) {} [] admitted with
  | error cause => simp [hwalk, Except.map] at h
  | ok walked =>
    obtain ⟨api, names⟩ := walked
    simp only [hwalk, Except.map, Except.ok.injEq] at h
    subst h
    obtain ⟨hfiled, new, happend, hnew⟩ := operationsFrom_spec (.empty {}) hwalk
    obtain rfl : api = new := by simpa using happend
    obtain ⟨tagsName, serverName, after, htable, hall⟩ := hfiled.register_reports _ _
    refine ⟨api, tagsName, serverName, _, htable, ?_, hall.named, hall.nodup, rfl, rfl⟩
    refine hnew.imp fun e entry hop => ?_
    obtain ⟨-, hpath, hmethod, -⟩ := Operation.ofEndpoint_spec hop
    exact ⟨hpath, hmethod, hop⟩

/-- An operation that passes the filter and bears the name of a report, beside one that does not
pass. -/
theorem compile_registers_beside_report :
    let description := Json.obj [("paths", .obj [("/tags", .obj [
      ("get", .obj [("operationId", .str "list_api_tags"), ("tags", .arr [.str "open"])]),
      ("put", .obj [("operationId", .str "list_api_tags")])])])]
    ∃ table, compile { enabledTags := ["open"] } "" description = .ok table ∧
      table.operations.length = 3 ∧ (table.operations.map Prod.fst).Nodup := by
  intro description
  have hok : (compile { enabledTags := ["open"] } "" description).isOk = true := by
    decide +kernel
  cases h : compile { enabledTags := ["open"] } "" description with
  | error cause => simp [h, Except.isOk, Except.toBool] at hok
  | ok table =>
    obtain ⟨api, tagsName, serverName, report, htable, hapi, -, hnodup, -⟩ :=
      compile_registers_each_endpoint h
    have hadmitted : api.length = 1 := hapi.length_eq.symm.trans (by decide +kernel)
    refine ⟨table, rfl, ?_, hnodup⟩
    rw [htable, List.length_append, hadmitted]
    rfl

end Toolgate.Catalog
