import Toolgate.Proofs.Catalog.Resources

/-!
# Names outlast the growth of a description

Entries behind the paths of a description give endpoints behind its endpoints. A namespace hands
out names in the order in which it is asked, so what comes behind has no influence on the names
before it; only the reports, which are named last, may have to give way.

## Main definitions

* `appendPaths`: a description with further entries behind its paths
* `calledBy`: what an operation is called by
-/

namespace Toolgate.Catalog

open Naming (Names)

/-! ## Entries behind the paths -/

/-- The entries of the paths of a document. -/
def pathEntries (document : Json) : Call.Fields :=
  (document.getD "paths").fields?.getD []

/-- The description with further entries behind those of its paths, and all else as it was. -/
def appendPaths (more : Call.Fields) (description : Json) : Json :=
  let document := documentOf description
  .obj (setField "paths" (.obj (pathEntries document ++ more)) (document.fields?.getD []))

/-- The endpoints of entries that stand among the paths of a document. -/
def endpointsIn (entries : Call.Fields) : List Endpoint :=
  (fieldNodes ⟨.obj entries, ⟨.document, [.key "paths"]⟩, false⟩).flatMap
    fun (path, pathItem) => endpointsAt path pathItem

theorem endpointsIn_append (entries more : Call.Fields) :
    endpointsIn (entries ++ more) = endpointsIn entries ++ endpointsIn more := by
  simp [endpointsIn, fieldNodes]

theorem endpoints_eq_endpointsIn (document : Json) :
    endpoints document = endpointsIn (pathEntries document) := by
  cases hpaths : document.get? "paths" with
  | none => simp [endpoints, Node.get?, Node.root, hpaths, pathEntries, Json.getD]; rfl
  | some paths =>
    simp only [endpoints, Node.get?, Node.root, hpaths, pathEntries, Json.getD, Option.map_some,
      Option.getD_some]
    cases paths <;> rfl

theorem endpoints_appendPaths (more : Call.Fields) (description : Json) :
    endpoints (documentOf (appendPaths more description)) =
      endpoints (documentOf description) ++ endpointsIn more := by
  have hentries : pathEntries (appendPaths more description) =
      pathEntries (documentOf description) ++ more := by
    simp [pathEntries, appendPaths, Json.getD, Json.get?, Json.fields?]
  rw [show documentOf (appendPaths more description) = appendPaths more description from rfl,
    endpoints_eq_endpointsIn, endpoints_eq_endpointsIn, hentries, endpointsIn_append]

/-! ## What operations are called by -/

/-- What an operation is called by: its key, its name, its method and its path. -/
def calledBy (entry : String × Operation) : String × String × String × String :=
  (entry.1, entry.2.name, entry.2.method, entry.2.path)

theorem map_calledBy_of_forall₂ {source : Source} {es : List Endpoint}
    {api : List (String × Operation)} (h : List.Forall₂ (fun e entry =>
      Operation.ofEndpoint source entry.1 e = .ok entry.2) es api) :
    api.map calledBy = List.zipWith (fun name e => (name, name, Text.upper e.method, e.path))
      (api.map Prod.fst) es := by
  induction h with
  | nil => rfl
  | cons hop _ ih =>
    obtain ⟨hname, hpath, hmethod, -⟩ := Operation.ofEndpoint_spec hop
    rw [List.map_cons, List.map_cons, List.zipWith_cons_cons, ih, calledBy, hname, hpath, hmethod]

/-! ## The table of a grown description -/

/-- Entries behind the paths of a description leave its operations where they are, under the same
names and with the same methods and paths, and its resources as well. New operations come behind
them and before the two reports, whose names alone may change. -/
theorem compile_appendPaths {options : Options} {clientUrl : String} {description : Json}
    {more : Call.Fields} {first second : Table}
    (hfirst : compile options clientUrl description = .ok first)
    (hsecond : compile options clientUrl (appendPaths more description) = .ok second) :
    first.api.map calledBy <+: second.api.map calledBy ∧
      first.resources <+: second.resources ∧
      (∃ tags tagsReport server serverReport, first.operations = first.api ++
        [(tags, .listingTags tags tagsReport), (server, .describingServer server serverReport)]) ∧
      ∃ tags tagsReport server serverReport, second.operations = second.api ++
        [(tags, .listingTags tags tagsReport), (server, .describingServer server serverReport)] := by
  obtain ⟨hkeys, hops, _, _, _, htable⟩ := api_of_compile hfirst
  obtain ⟨hkeys', hops', _, _, _, htable'⟩ := api_of_compile hsecond
  refine ⟨?_, ?_, ⟨_, _, _, _, htable⟩, _, _, _, _, htable'⟩
  · rw [map_calledBy_of_forall₂ hops, map_calledBy_of_forall₂ hops', hkeys, hkeys',
      endpoints_appendPaths, List.filter_append, List.map_append, Names.resolveAll_append,
      List.zipWith_append (by rw [Names.length_resolveAll, List.length_map])]
    exact List.prefix_append _ _
  · rw [resources_of_compile hfirst, resources_of_compile hsecond, resourcesOf, resourcesOf,
      endpoints_appendPaths]
    exact resourcesFrom_append _ (.empty {}) _ _

/-- A new operation that takes the name of a report. -/
theorem compile_appendPaths_list_api_tags :
    let description := Json.obj [("paths", .obj [
      ("/a", .obj [("get", .obj [("operationId", .str "op")])])])]
    let more : Call.Fields :=
      [("/b", .obj [("get", .obj [("operationId", .str "list_api_tags")])])]
    ∃ first second, compile {} "" description = .ok first ∧
      compile {} "" (appendPaths more description) = .ok second ∧
      first.api.map Prod.fst = ["op"] ∧ second.api.map Prod.fst = ["op", "list_api_tags"] ∧
      first.api.map calledBy <+: second.api.map calledBy := by
  intro description more
  obtain ⟨first, hfirst, hkeys⟩ := exists_eq_ok (x := compile {} "" description)
    (fun table => table.api.map Prod.fst == ["op"]) (by decide +kernel)
  obtain ⟨second, hsecond, hkeys'⟩ := exists_eq_ok
    (x := compile {} "" (appendPaths more description))
    (fun table => table.api.map Prod.fst == ["op", "list_api_tags"]) (by decide +kernel)
  exact ⟨first, second, hfirst, hsecond, beq_iff_eq.mp hkeys, beq_iff_eq.mp hkeys',
    (compile_appendPaths hfirst hsecond).1⟩

end Toolgate.Catalog
