import Toolgate.Proofs.Call.Template
import Toolgate.Proofs.Catalog.Registration

/-!
# Resources are the first reads of paths

The walk over the endpoints tells resources apart by their paths but files them under names of a
namespace of its own. The two are kept in step: a path that is new is given a name that is free,
so nothing that the path check lets through is lost in the table. What is left of the walk is a
scan for the endpoint that reads a path first.

## Main definitions

* `firstReads`: the endpoints that resources are made of
-/

namespace Toolgate.Catalog

open Naming (Names)

/-! ## The first reads -/

/-- The text that the resource of an endpoint is named after. -/
def Endpoint.readCandidate (e : Endpoint) : String :=
  Naming.candidate "read" e.path (e.operation.value.getD "operationId")

/-- The endpoints that are read as resources, the first for each path that was not `seen`. -/
def firstReads (seen : List String) : List Endpoint → List Endpoint
  | [] => []
  | e :: rest =>
    if !isReadable e || seen.contains e.path then firstReads seen rest
    else e :: firstReads (e.path :: seen) rest

theorem isReadable_iff {e : Endpoint} :
    isReadable e = true ↔ e.method = "get" ∧ Call.HasVariable e.path := by
  simp [isReadable, Call.hasVariable_iff]

/-- The first reads are of the distinct paths that are read, in order. -/
theorem map_path_firstReads (seen : List String) (es : List Endpoint) :
    (firstReads seen es).map (·.path) =
      (((es.filter isReadable).map (·.path)).filter (!seen.contains ·)).eraseDups := by
  induction es generalizing seen with
  | nil => rfl
  | cons e rest ih =>
    rw [firstReads]
    by_cases hread : isReadable e = true
    · by_cases hseen : e.path ∈ seen
      · simp [hread, hseen, ih seen]
      · simp [hread, hseen, ih (e.path :: seen), List.eraseDups_cons, List.filter_filter,
          beq_eq_decide]
    · simp [hread, ih seen]

theorem notMem_seen_of_mem_firstReads {seen : List String} {es : List Endpoint} {e : Endpoint}
    (h : e ∈ firstReads seen es) : e.path ∉ seen := by
  have hpath := List.mem_map_of_mem (f := (·.path)) h
  rw [map_path_firstReads] at hpath
  simpa using (List.mem_filter.mp (List.mem_eraseDups.mp hpath)).2

theorem nodup_map_path_firstReads (seen : List String) (es : List Endpoint) :
    ((firstReads seen es).map (·.path)).Nodup := by
  induction es generalizing seen with
  | nil => exact List.nodup_nil
  | cons e rest ih =>
    rw [firstReads]
    split
    · exact ih seen
    · refine List.nodup_cons.mpr ⟨fun hmem => ?_, ih (e.path :: seen)⟩
      obtain ⟨other, hother, heq⟩ := List.mem_map.mp hmem
      exact notMem_seen_of_mem_firstReads hother (heq ▸ List.mem_cons_self)

/-- Before a first read there is no other of its path. -/
theorem find?_of_mem_firstReads {seen : List String} {es : List Endpoint} {e : Endpoint}
    (h : e ∈ firstReads seen es) :
    (es.filter isReadable).find? (·.path = e.path) = some e := by
  induction es generalizing seen with
  | nil => simp [firstReads] at h
  | cons head rest ih =>
    -- whatever is passed over is not read, or is of a path other than that of `e`
    have hskip (hother : isReadable head = true → head.path ≠ e.path)
        (hfind : (rest.filter isReadable).find? (·.path = e.path) = some e) :
        ((head :: rest).filter isReadable).find? (·.path = e.path) = some e := by
      by_cases hread : isReadable head = true
      · rw [List.filter_cons_of_pos hread, List.find?_cons_of_neg (by simpa using hother hread)]
        exact hfind
      · rwa [List.filter_cons_of_neg hread]
    rw [firstReads] at h
    split at h
    · next hpassed =>
      refine hskip (fun hread heq => ?_) (ih h)
      have hseen : head.path ∈ seen := by simpa [hread] using hpassed
      exact notMem_seen_of_mem_firstReads h (heq ▸ hseen)
    · next htaken =>
      rcases List.mem_cons.mp h with rfl | h
      · have hread : isReadable e = true := by
          simp only [Bool.or_eq_true, not_or, Bool.not_eq_true', Bool.not_eq_false] at htaken
          exact htaken.1
        rw [List.filter_cons_of_pos hread, List.find?_cons_of_pos (by simp)]
      · refine hskip (fun _ heq => ?_) (ih h)
        exact notMem_seen_of_mem_firstReads h (heq ▸ List.mem_cons_self)

/-! ## The walk -/

section Walk

variable (scheme : String) {names : Names} {seen : List String} {found : List (String × Resource)}

/-- An endpoint that is read on a new path is given a free name, and its resource goes to the end
of the table. -/
theorem Filed.resourcesFrom_cons (hfiled : Filed Resource.name names found) {e : Endpoint}
    (hnew : ¬(!isReadable e || seen.contains e.path) = true) :
    ∃ entry : String × Resource, entry.1 = (names.resolve e.readCandidate).1 ∧
      entry.2 = .ofEndpoint scheme entry.1 e ∧
      Filed Resource.name (names.resolve e.readCandidate).2 (found ++ [entry]) ∧
      ∀ more, resourcesFrom scheme names seen found (e :: more) =
        resourcesFrom scheme (names.resolve e.readCandidate).2 (e.path :: seen) (found ++ [entry])
          more := by
  let resource := Resource.ofEndpoint scheme (names.resolve e.readCandidate).1 e
  have hname : resource.name = (names.resolve e.readCandidate).1 := rfl
  refine ⟨(_, resource), rfl, rfl, hfiled.append_resolve e.readCandidate hname, fun more => ?_⟩
  rw [resourcesFrom, if_neg hnew, ← hfiled.setField_resolve]
  rfl

/-- The walk appends the resource of each first read, in order, under the names that the namespace
hands out in turn. -/
theorem resourcesFrom_spec (hfiled : Filed Resource.name names found) (es : List Endpoint) :
    ∃ new, resourcesFrom scheme names seen found es = found ++ new ∧
      new.map Prod.fst =
        (names.resolveAll ((firstReads seen es).map Endpoint.readCandidate)).1 ∧
      List.Forall₂ (fun e entry => entry.2 = Resource.ofEndpoint scheme entry.1 e)
        (firstReads seen es) new := by
  induction es generalizing names seen found with
  | nil => exact ⟨[], by simp [resourcesFrom], rfl, .nil⟩
  | cons e rest ih =>
    by_cases hpassed : (!isReadable e || seen.contains e.path) = true
    · rw [resourcesFrom, firstReads, if_pos hpassed, if_pos hpassed]
      exact ih hfiled
    · obtain ⟨entry, hkey, hentry, hafter, hstep⟩ := hfiled.resourcesFrom_cons scheme hpassed
      obtain ⟨new, hnew, hkeys, hresources⟩ := ih hafter
      rw [hstep, firstReads, if_neg hpassed]
      refine ⟨entry :: new, hnew.trans (List.append_assoc _ _ _), ?_, .cons hentry hresources⟩
      rw [List.map_cons, List.map_cons, Names.resolveAll_cons, hkey, hkeys]

/-- Resources of further endpoints go behind those that are there. -/
theorem resourcesFrom_append (hfiled : Filed Resource.name names found)
    (es more : List Endpoint) :
    resourcesFrom scheme names seen found es <+:
      resourcesFrom scheme names seen found (es ++ more) := by
  induction es generalizing names seen found with
  | nil =>
    obtain ⟨new, hnew, -⟩ := @resourcesFrom_spec scheme names seen found hfiled more
    exact ⟨new, hnew.symm⟩
  | cons e rest ih =>
    rw [List.cons_append]
    by_cases hpassed : (!isReadable e || seen.contains e.path) = true
    · rw [resourcesFrom, resourcesFrom, if_pos hpassed, if_pos hpassed]
      exact ih hfiled
    · obtain ⟨entry, -, -, hafter, hstep⟩ := hfiled.resourcesFrom_cons scheme hpassed
      rw [hstep, hstep]
      exact ih hafter

end Walk

/-! ## The resources of a table -/

/-- How the resources of a table come about: from the first reads, in order, under the names that
an empty namespace gives to their candidates. -/
theorem firstReads_of_compile {options : Options} {clientUrl : String} {description : Json}
    {table : Table} (h : compile options clientUrl description = .ok table) :
    let firsts := firstReads [] (endpoints (documentOf description))
    table.resources.map Prod.fst =
        (({} : Names).resolveAll (firsts.map Endpoint.readCandidate)).1 ∧
      List.Forall₂ (fun e entry => entry.2 = Resource.ofEndpoint options.scheme entry.1 e)
        firsts table.resources := by
  obtain ⟨new, hnew, hkeys, hresources⟩ := @resourcesFrom_spec options.scheme {} [] [] (.empty {})
    (endpoints (documentOf description))
  rw [resources_of_compile h, resourcesOf, hnew]
  exact ⟨hkeys, hresources⟩

/-- Every resource of a table is that of an endpoint. -/
theorem exists_endpoint_of_mem_resources {options : Options} {clientUrl : String}
    {description : Json} {table : Table} {entry : String × Resource}
    (h : compile options clientUrl description = .ok table) (hentry : entry ∈ table.resources) :
    ∃ e ∈ endpoints (documentOf description), isReadable e = true ∧
      entry.2 = .ofEndpoint options.scheme entry.1 e := by
  obtain ⟨e, hfirst, hread⟩ := exists_of_mem_of_forall₂ (firstReads_of_compile h).2 hentry
  obtain ⟨he, hreadable⟩ :=
    List.mem_filter.mp (List.mem_of_find?_eq_some (find?_of_mem_firstReads hfirst))
  exact ⟨e, he, hreadable, hread⟩

theorem variableNames_of_mem_resources {options : Options} {clientUrl : String}
    {description : Json} {table : Table} {entry : String × Resource}
    (h : compile options clientUrl description = .ok table) (hentry : entry ∈ table.resources) :
    entry.2.variableNames = Call.variableNames entry.2.path := by
  obtain ⟨e, -, -, hread⟩ := exists_endpoint_of_mem_resources h hentry
  rw [hread]
  rfl

/-- A compiled table holds one resource for each distinct path that is got and has a variable, in
the order of the description, whatever the tag filter. It is that of the first such operation of
the path, and lists the variables of the path. No name and no URI template stands twice. -/
theorem compile_reads_each_path {options : Options} {clientUrl : String} {description : Json}
    {table : Table} (h : compile options clientUrl description = .ok table) :
    let reads := (endpoints (documentOf description)).filter fun e =>
      e.method = "get" ∧ Call.HasVariable e.path
    ∃ firsts : List Endpoint,
      firsts.map (·.path) = (reads.map (·.path)).eraseDups ∧
      (∀ e ∈ firsts, reads.find? (·.path = e.path) = some e) ∧
      List.Forall₂ (fun e entry =>
        entry.2 = .ofEndpoint options.scheme entry.1 e ∧ entry.2.name = entry.1 ∧
          entry.2.path = e.path ∧ Call.ListsVariables e.path entry.2.variableNames)
        firsts table.resources ∧
      table.resources.map Prod.fst =
        (({} : Names).resolveAll (firsts.map Endpoint.readCandidate)).1 ∧
      (table.resources.map Prod.fst).Nodup ∧
      (table.resources.map (·.2.uriTemplate)).Nodup ∧
      ∀ tags other, compile { options with enabledTags := tags } clientUrl description = .ok other →
        other.resources = table.resources := by
  intro reads
  have hreads : (endpoints (documentOf description)).filter isReadable = reads :=
    List.filter_congr fun e _ => Bool.eq_iff_iff.mpr <| by simpa using isReadable_iff
  obtain ⟨hkeys, hresources⟩ := firstReads_of_compile h
  set firsts := firstReads [] (endpoints (documentOf description))
  have hpaths : firsts.map (·.path) = (reads.map (·.path)).eraseDups := by
    simpa [hreads] using map_path_firstReads [] (endpoints (documentOf description))
  refine ⟨firsts, hpaths, fun e he => hreads ▸ find?_of_mem_firstReads he, ?_, hkeys, ?_, ?_, ?_⟩
  · refine hresources.imp fun e entry heq => ⟨heq, ?_⟩
    rw [heq]
    exact ⟨rfl, rfl, Call.listsVariables_variableNames e.path⟩
  · exact hkeys ▸ (Names.nodup_resolveAll {} _).1
  · have huris : (firsts.map (·.path)).map (options.scheme ++ "://api" ++ ·) =
        table.resources.map (·.2.uriTemplate) := by
      rw [List.map_map]
      refine map_eq_map_of_forall₂ hresources fun e entry heq => ?_
      rw [heq]
      rfl
    rw [← huris]
    exact (nodup_map_path_firstReads [] _).map fun path other heq => by simpa using heq
  · intro tags other hother
    exact (resources_of_compile hother).trans (resources_of_compile h).symm

/-- A path that is got twice in different letter case, beside one whose operation bears the same
identifier. -/
theorem compile_reads_colliding_paths :
    let description := Json.obj [("paths", .obj [
      ("/a/\x7bid\x7d", .obj [("GET", .obj [("operationId", .str "read")]),
        ("get", .obj [("operationId", .str "again")])]),
      ("/b/\x7bid\x7d/\x7bid\x7d", .obj [("get", .obj [("operationId", .str "read")])])])]
    ∃ table other, compile { enabledTags := ["none"] } "" description = .ok table ∧
      compile {} "" description = .ok other ∧ other.resources = table.resources ∧
      table.resources.map (fun entry => (entry.1, entry.2.variableNames)) =
        [("read", ["id"]), ("read_2", ["id"])] ∧
      (table.resources.map (·.2.uriTemplate)).Nodup := by
  intro description
  obtain ⟨table, htable, hnames⟩ := exists_eq_ok
    (x := compile { enabledTags := ["none"] } "" description)
    (fun table => table.resources.map (fun entry => (entry.1, entry.2.variableNames)) ==
      [("read", ["id"]), ("read_2", ["id"])]) (by decide +kernel)
  obtain ⟨other, hother, -⟩ := exists_eq_ok (x := compile {} "" description) (fun _ => true)
    (by decide +kernel)
  obtain ⟨-, -, -, -, -, -, huris, hfilter⟩ := compile_reads_each_path htable
  exact ⟨table, other, htable, hother, hfilter [] other hother, beq_iff_eq.mp hnames, huris⟩

end Toolgate.Catalog
