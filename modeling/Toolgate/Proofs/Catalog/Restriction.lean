import Toolgate.Proofs.Catalog.Registration

/-!
# A tag filter restricts

Names are handed out only to endpoints that pass the filter, so that an endpoint that is left out
could give its name to another. Where the slugs of all candidates are distinct it cannot: every
name is the slug of its own candidate, and an operation then depends on nothing but its endpoint.
The tag report and the resources are made of all endpoints, before the filter.

## Main definitions

* `tallies`: what a report of the tags counts
-/

namespace Toolgate.Catalog

open Naming (Names slug)

/-! ## Operations -/

/-- What an operation is when it stands under the slug of its endpoint's candidate. -/
def IsSlugged (source : Source) (e : Endpoint) (entry : String × Operation) : Prop :=
  slug e.candidate = entry.1 ∧ Operation.ofEndpoint source entry.1 e = .ok entry.2

/-- An endpoint leaves no choice of the operation under its slug. -/
theorem rightUnique_isSlugged (source : Source) : Relator.RightUnique (IsSlugged source) := by
  rintro e ⟨key, operation⟩ ⟨key', operation'⟩ ⟨rfl, hop⟩ ⟨rfl, hop'⟩
  exact congrArg _ (Except.ok.inj (hop.symm.trans hop'))

variable {options : Options} {clientUrl : String} {description : Json} {table : Table}

/-- With distinct slugs every operation stands under its own, whatever else passes the filter. -/
theorem forall₂_isSlugged_of_compile
    (hdistinct : ((endpoints (documentOf description)).map fun e => slug e.candidate).Nodup)
    (h : compile options clientUrl description = .ok table) :
    List.Forall₂ (IsSlugged (.of (documentOf description)))
      ((endpoints (documentOf description)).filter fun e => options.admits e.tags) table.api := by
  obtain ⟨hkeys, hops, -⟩ := api_of_compile h
  set admitted := (endpoints (documentOf description)).filter fun e => options.admits e.tags
  have hnodup : ((admitted.map Endpoint.candidate).map slug).Nodup := by
    rw [List.map_map]
    exact hdistinct.sublist (List.filter_sublist.map _)
  rw [Names.resolveAll_of_nodup hnodup (by simp), List.map_map] at hkeys
  exact forall₂_and_of_map_eq_map hops hkeys.symm

/-! ## The report of the tags -/

/-- What a report of the tags counts: how often each tag is written, and how many endpoints have
no tag. -/
def tallies (report : Json) : List (Json × Json) × Json :=
  (((report.getD "tags").items?.getD []).map fun entry =>
      (entry.getD "name", entry.getD "operations"),
    report.getD "untagged_operations")

theorem tallies_tagReport (options options' : Options) (es : List Endpoint) :
    tallies (tagReport options es) = tallies (tagReport options' es) := by
  have hentries (options : Options) : tallies (tagReport options es) =
      ((tagCounts es).map fun entry => (Json.str entry.1, Json.int entry.2),
        .int (untagged es)) := by
    simp [tallies, tagReport, Json.getD, Json.get?, lookupField, Json.items?, Function.comp_def]
  rw [hentries, hentries]

/-! ## Two filters -/

/-- Compiling under a filter is compiling under a wider one, or under none, and leaving out the
operations without a tag of the filter. -/
theorem compile_restricts {few many : List String} {narrow wide : Table}
    (hdistinct : ((endpoints (documentOf description)).map fun e => slug e.candidate).Nodup)
    (hfew : few ≠ []) (hmany : many = [] ∨ few ⊆ many)
    (hnarrow : compile { options with enabledTags := few } clientUrl description = .ok narrow)
    (hwide : compile { options with enabledTags := many } clientUrl description = .ok wide) :
    narrow.api = wide.api.filter (fun entry => ∃ tag ∈ entry.2.tags, tag ∈ few) ∧
      narrow.tags = wide.tags ∧ narrow.resources = wide.resources ∧
      ∃ tags report server info tags' report' server' info',
        narrow.operations = narrow.api ++
          [(tags, .listingTags tags report), (server, .describingServer server info)] ∧
        wide.operations = wide.api ++
          [(tags', .listingTags tags' report'), (server', .describingServer server' info')] ∧
        tallies report = tallies report' := by
  set narrowed : Options := { options with enabledTags := few }
  set widened : Options := { options with enabledTags := many }
  have hadmits (tags : List String) :
      narrowed.admits tags = true ↔ ∃ tag ∈ tags, tag ∈ few := by
    rw [Options.admits_iff]
    exact or_iff_right hfew
  have hwider (tags : List String) (h : narrowed.admits tags = true) :
      widened.admits tags = true := by
    obtain ⟨tag, htag, hmem⟩ := (hadmits tags).mp h
    exact (widened.admits_iff tags).mpr (hmany.imp_right fun hsub => ⟨tag, htag, hsub hmem⟩)
  refine ⟨?_, (tags_of_compile hnarrow).trans (tags_of_compile hwide).symm,
    (resources_of_compile hnarrow).trans (resources_of_compile hwide).symm, ?_⟩
  · set es := endpoints (documentOf description)
    have hnested : (es.filter fun e => widened.admits e.tags).filter
        (fun e => narrowed.admits e.tags) = es.filter fun e => narrowed.admits e.tags := by
      rw [List.filter_filter]
      refine List.filter_congr fun e _ => ?_
      rw [Bool.and_eq_left_iff_imp]
      exact hwider e.tags
    -- both sides are made of the endpoints that pass the narrow filter
    refine List.right_unique_forall₂' (rightUnique_isSlugged _)
      (forall₂_isSlugged_of_compile hdistinct hnarrow) ?_
    rw [← hnested]
    refine List.rel_filter (fun e entry hslugged => ?_)
      (forall₂_isSlugged_of_compile hdistinct hwide)
    simp only [hadmits, decide_eq_true_eq, Operation.tags_of_ofEndpoint hslugged.2]
  · obtain ⟨-, -, _, _, _, hnarrow⟩ := api_of_compile hnarrow
    obtain ⟨-, -, _, _, _, hwide⟩ := api_of_compile hwide
    exact ⟨_, _, _, _, _, _, _, _, hnarrow, hwide, tallies_tagReport _ _ _⟩

/-- Three operations, of which one has a tag of the narrow filter and two have one of the wide. -/
theorem compile_restricts_one_of_three :
    let description := Json.obj [("paths", .obj [
      ("/a", .obj [("get", .obj [("operationId", .str "Get a"),
          ("tags", .arr [.str "open", .str "slow"])]),
        ("put", .obj [("tags", .arr [.str "slow"])])]),
      ("/b", .obj [("get", .obj [])])])]
    ∃ narrow wide, compile { enabledTags := ["open"] } "" description = .ok narrow ∧
      compile { enabledTags := ["slow", "open"] } "" description = .ok wide ∧
      narrow.api.map Prod.fst = ["get_a"] ∧ wide.api.map Prod.fst = ["get_a", "put_a"] ∧
      narrow.api = wide.api.filter (fun entry => ∃ tag ∈ entry.2.tags, tag ∈ ["open"]) := by
  intro description
  obtain ⟨narrow, hnarrow, hnarrowKeys⟩ := exists_eq_ok
    (x := compile { enabledTags := ["open"] } "" description)
    (fun table => table.api.map Prod.fst == ["get_a"]) (by decide +kernel)
  obtain ⟨wide, hwide, hwideKeys⟩ := exists_eq_ok
    (x := compile { enabledTags := ["slow", "open"] } "" description)
    (fun table => table.api.map Prod.fst == ["get_a", "put_a"]) (by decide +kernel)
  have hrestricted := (@compile_restricts {} "" description _ _ narrow wide (by decide +kernel)
    (by simp) (.inr (by simp)) hnarrow hwide).1
  exact ⟨narrow, wide, hnarrow, hwide, beq_iff_eq.mp hnarrowKeys, beq_iff_eq.mp hwideKeys,
    hrestricted⟩

end Toolgate.Catalog
