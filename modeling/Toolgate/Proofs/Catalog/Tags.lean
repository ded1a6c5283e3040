import Toolgate.Proofs.Catalog.Registration

/-!
# The report of the tags

The report lists each tag of a description once, in order of first appearance, with a number. That
number is how often the tag is written. It is the number of operations under the tag if and only
if none of them lists the tag twice.

## Main definitions

* `occurringTags`: the tags of endpoints, each once
* `timesWritten`, `carriers`: how often a tag is written, and how many endpoints have it
* `tagListing`: the report that shows some number for each tag
-/

namespace Toolgate.Catalog

/-- The tags of endpoints, each at its first appearance. -/
def occurringTags (es : List Endpoint) : List String :=
  (es.flatMap Endpoint.tags).eraseDups

/-- How often a tag is written. -/
def timesWritten (es : List Endpoint) (tag : String) : ℕ :=
  (es.map fun e => e.tags.count tag).sum

/-- How many endpoints have a tag, however often each of them lists it. -/
def carriers (es : List Endpoint) (tag : String) : ℕ :=
  es.countP fun e => tag ∈ e.tags

/-- The report that shows for each tag a number and whether the filter lets it pass, and how many
endpoints have no tag. -/
def tagListing (options : Options) (number : String → ℕ) (es : List Endpoint) : Json :=
  .obj [("tags", .arr ((occurringTags es).map fun tag => .obj [("name", .str tag),
      ("operations", .int (number tag)), ("enabled", .bool (options.admits [tag]))])),
    ("untagged_operations", .int (es.countP fun e => e.tags = []))]

/-! ## Counting -/

section Counting

variable {tag : String} {keys : List String} {number : String → ℕ}

/-- A tag that is counted already has its number raised. -/
theorem countTag_of_mem (hnodup : keys.Nodup) (h : tag ∈ keys) :
    countTag tag (keys.map fun key => (key, number key)) =
      keys.map fun key => (key, number key + if key = tag then 1 else 0) := by
  induction keys with
  | nil => simp at h
  | cons key rest ih =>
    obtain ⟨hkey, hrest⟩ := List.nodup_cons.mp hnodup
    rw [List.map_cons, List.map_cons, countTag]
    by_cases heq : key = tag
    · subst heq
      rw [if_pos (beq_self_eq_true key), if_pos rfl]
      congr 1
      refine List.map_congr_left fun other hother => ?_
      rw [if_neg (ne_of_mem_of_not_mem hother hkey), Nat.add_zero]
    · rw [if_neg (by simpa using heq), if_neg heq, Nat.add_zero,
        ih hrest ((List.mem_cons.mp h).resolve_left (Ne.symm heq))]

/-- A tag that is new goes to the end. -/
theorem countTag_of_notMem (h : tag ∉ keys) :
    countTag tag (keys.map fun key => (key, number key)) =
      keys.map (fun key => (key, number key)) ++ [(tag, 1)] := by
  induction keys with
  | nil => rfl
  | cons key rest ih =>
    rw [List.mem_cons, not_or] at h
    rw [List.map_cons, countTag, if_neg (by simpa using Ne.symm h.1), ih h.2, List.cons_append]

/-- Counting one text after the other gives each at its first place with its number. -/
theorem foldl_countTag (written : List String) :
    written.foldl (fun counts tag => countTag tag counts) [] =
      written.eraseDups.map fun tag => (tag, written.count tag) := by
  induction written using List.reverseRecOn with
  | nil => rfl
  | append_singleton front tag ih =>
    rw [List.foldl_append, List.foldl_cons, List.foldl_nil, ih, eraseDups_concat]
    simp only [List.count_append, List.count_singleton, beq_iff_eq, @eq_comm _ tag]
    by_cases h : tag ∈ front
    · rw [if_pos h, countTag_of_mem (nodup_eraseDups front) (List.mem_eraseDups.mpr h)]
    · rw [if_neg h, countTag_of_notMem (mt List.mem_eraseDups.mp h), List.map_append,
        List.map_singleton, if_pos rfl, List.count_eq_zero.mpr h, Nat.zero_add]
      congr 1
      refine List.map_congr_left fun other hother => ?_
      rw [if_neg (ne_of_mem_of_not_mem (List.mem_eraseDups.mp hother) h), Nat.add_zero]

end Counting

theorem tagCounts_eq (es : List Endpoint) :
    tagCounts es = (occurringTags es).map fun tag => (tag, timesWritten es tag) := by
  rw [tagCounts, foldl_countTag]
  simp only [occurringTags, timesWritten, List.count_flatMap, Function.comp_def]

theorem tagReport_eq_tagListing (options : Options) (es : List Endpoint) :
    tagReport options es = tagListing options (timesWritten es) es := by
  have huntagged : untagged es = es.countP fun e => e.tags = [] := by
    rw [untagged, ← List.countP_eq_length_filter]
    exact List.countP_congr fun e _ => by simp
  simp [tagReport, tagListing, tagCounts_eq, huntagged, Function.comp_def]

/-! ## Written and carried -/

variable {es : List Endpoint} {tag : String}

theorem carriers_le_timesWritten (es : List Endpoint) (tag : String) :
    carriers es tag ≤ timesWritten es tag := by
  induction es with
  | nil => exact le_rfl
  | cons e rest ih =>
    rw [carriers, List.countP_cons, timesWritten, List.map_cons, List.sum_cons, Nat.add_comm]
    refine Nat.add_le_add ?_ ih
    split
    · next h => exact List.count_pos_iff.mpr (of_decide_eq_true h)
    · exact Nat.zero_le _

/-- A tag is written more often than it is carried only where an endpoint lists it again. -/
theorem timesWritten_eq_carriers_iff :
    timesWritten es tag = carriers es tag ↔ ∀ e ∈ es, e.tags.count tag ≤ 1 := by
  induction es with
  | nil => simp [timesWritten, carriers]
  | cons e rest ih =>
    have hle := carriers_le_timesWritten rest tag
    have hwritten : timesWritten (e :: rest) tag = e.tags.count tag + timesWritten rest tag := rfl
    have hcarried : carriers (e :: rest) tag =
        carriers rest tag + if tag ∈ e.tags then 1 else 0 := by
      simp [carriers, List.countP_cons]
    rw [List.forall_mem_cons, ← ih, hwritten, hcarried]
    split
    · next h =>
      have hpos : 0 < e.tags.count tag := List.count_pos_iff.mpr h
      omega
    · next h =>
      have hzero : e.tags.count tag = 0 := List.count_eq_zero.mpr h
      omega

theorem tagListing_inj {options : Options} {number other : String → ℕ} :
    tagListing options number es = tagListing options other es ↔
      ∀ tag ∈ occurringTags es, number tag = other tag := by
  simp [tagListing]

/-- Showing how often each tag is written is showing how many endpoints have it if and only if none
of them lists a tag twice. -/
theorem tagListing_timesWritten_eq_iff (options : Options) (es : List Endpoint) :
    tagListing options (timesWritten es) es = tagListing options (carriers es) es ↔
      ∀ e ∈ es, e.tags.Nodup := by
  simp only [tagListing_inj, timesWritten_eq_carriers_iff, List.nodup_iff_count_le_one]
  constructor
  · intro h e he tag
    by_cases hmem : tag ∈ e.tags
    · exact h tag (List.mem_eraseDups.mpr (List.mem_flatMap.mpr ⟨e, he, hmem⟩)) e he
    · exact (List.count_eq_zero.mpr hmem).trans_le (Nat.zero_le 1)
  · exact fun h tag _ e he => h e he tag

/-! ## The report of a table -/

/-- An endpoint has an operation in a table if and only if its tags pass the filter. -/
theorem exists_operation_iff_admits {options : Options} {clientUrl : String} {description : Json}
    {table : Table} (h : compile options clientUrl description = .ok table) {e : Endpoint}
    (he : e ∈ endpoints (documentOf description)) :
    (∃ entry ∈ table.api, Operation.ofEndpoint (.of (documentOf description)) entry.1 e =
      .ok entry.2) ↔ options.admits e.tags = true := by
  obtain ⟨-, hops, -⟩ := api_of_compile h
  constructor
  · rintro ⟨entry, hentry, hop⟩
    obtain ⟨other, hother, hop'⟩ := exists_of_mem_of_forall₂ hops hentry
    rw [← Operation.tags_of_ofEndpoint hop, Operation.tags_of_ofEndpoint hop']
    exact (List.mem_filter.mp hother).2
  · intro hadmits
    exact exists_of_mem_of_forall₂ hops.flip (List.mem_filter.mpr ⟨he, hadmits⟩)

/-- The report of the tags of a compiled table lists each tag of the description in order of first
appearance, and the endpoints without a tag. A tag is shown as enabled if and only if an endpoint
with that tag alone has an operation under the filter. The number of a tag is how often it is
written; for all tags it is the number of endpoints that have it if and only if no endpoint lists a
tag twice. -/
theorem tagReport_counts_operations_iff {options : Options} {clientUrl : String}
    {description : Json} {table : Table} (h : compile options clientUrl description = .ok table) :
    let es := endpoints (documentOf description)
    ∃ tagsName serverName report info,
      table.operations = table.api ++ [(tagsName, .listingTags tagsName report),
        (serverName, .describingServer serverName info)] ∧
      report = tagListing options (timesWritten es) es ∧
      (report = tagListing options (carriers es) es ↔ ∀ e ∈ es, e.tags.Nodup) ∧
      ∀ tag clientUrl' description' table',
        compile options clientUrl' description' = .ok table' →
        ∀ e ∈ endpoints (documentOf description'), e.tags = [tag] →
          (options.admits [tag] = true ↔ ∃ entry ∈ table'.api,
            Operation.ofEndpoint (.of (documentOf description')) entry.1 e = .ok entry.2) := by
  intro es
  obtain ⟨-, -, tagsName, serverName, info, htable⟩ := api_of_compile h
  have hreport := tagReport_eq_tagListing options es
  refine ⟨tagsName, serverName, _, info, htable, hreport, ?_, ?_⟩
  · rw [hreport]
    exact tagListing_timesWritten_eq_iff options es
  · intro tag _ _ _ hcompile e he htags
    rw [← htags]
    exact (exists_operation_iff_admits hcompile he).symm

/-- Operations under tags that are no texts, under two tags, under none, and one whose tags are no
list; the filter lets one of the tags pass. -/
theorem tagReport_counts_operations_filtered :
    let description := Json.obj [("paths", .obj [
      ("/a", .obj [("get", .obj [("tags", .arr [.str "open", .int 5, .str "slow"])]),
        ("put", .obj [("tags", .arr [.null])])]),
      ("/b", .obj [("get", .obj [("tags", .arr [.str "slow"])]),
        ("put", .obj [("tags", .str "open")])])])]
    ∃ table tagsName report, compile { enabledTags := ["slow"] } "" description = .ok table ∧
      (tagsName, .listingTags tagsName report) ∈ table.operations ∧
      report = .obj [("tags", .arr [
          .obj [("name", .str "open"), ("operations", .int 1), ("enabled", .bool false)],
          .obj [("name", .str "slow"), ("operations", .int 2), ("enabled", .bool true)]]),
        ("untagged_operations", .int 2)] := by
  intro description
  obtain ⟨table, htable, -⟩ := exists_eq_ok
    (x := compile { enabledTags := ["slow"] } "" description) (fun _ => true) (by decide +kernel)
  obtain ⟨tagsName, serverName, report, info, hoperations, -, hcarried, -⟩ :=
    tagReport_counts_operations_iff htable
  refine ⟨table, tagsName, report, htable, by simp [hoperations], ?_⟩
  rw [hcarried.mpr (by decide +kernel)]
  rfl

/-- An operation that lists its tag twice is counted twice. -/
theorem tag_counted_twice :
    let description := Json.obj [("paths", .obj [
      ("/a", .obj [("get", .obj [("tags", .arr [.str "open", .str "open"])])])])]
    ∃ table tagsName serverName report info,
      compile {} "" description = .ok table ∧
      table.operations = table.api ++ [(tagsName, .listingTags tagsName report),
        (serverName, .describingServer serverName info)] ∧
      report = .obj [("tags", .arr [
          .obj [("name", .str "open"), ("operations", .int 2), ("enabled", .bool true)]]),
        ("untagged_operations", .int 0)] ∧
      carriers (endpoints (documentOf description)) "open" = 1 := by
  intro description
  obtain ⟨table, htable, -⟩ := exists_eq_ok
    (x := compile {} "" description) (fun _ => true) (by decide +kernel)
  obtain ⟨-, -, tagsName, serverName, info, hoperations⟩ := api_of_compile htable
  refine ⟨table, tagsName, serverName, _, info, htable, hoperations, ?_, by decide +kernel⟩
  rw [tagReport_eq_tagListing]
  rfl

end Toolgate.Catalog
