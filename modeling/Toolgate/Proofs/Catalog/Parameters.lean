import Toolgate.Proofs.Catalog.Distinct

/-!
# Parameters that override others

A path lists parameters for all its operations, and an operation its own. Of those with one name
and location the last counts: one of the operation before any of the path. It stands where such a
parameter is listed first, and what a slot is made of is taken from it alone.

## Main definitions

* `parameterKey?`: the name and the location of a parameter
* `counting`: the parameter that counts for a name and a location
* `Slot.IsMadeOf`: a slot takes all that it is from one parameter
-/

namespace Toolgate.Catalog

open Schema (TranslationError)

/-- The name and the location of a parameter, if both are texts. -/
def parameterKey? (parameter : Node) : Option (String × String) :=
  match parameter.value.getD "name", parameter.value.getD "in" with
  | .str name, .str location => some (name, location)
  | _, _ => none

/-- The last of the parameters with a name and a location. -/
def lastNamed (key : String × String) (parameters : List Node) : Option Node :=
  parameters.reverse.find? (parameterKey? · == some key)

/-- The parameter that counts for a name and a location: the last that the operation lists, and
without one the last that the path lists. -/
def counting (shared own : List Node) (key : String × String) : Option Node :=
  (lastNamed key own).or (lastNamed key shared)

/-- The schema, the description and the required flag of a slot are those of a parameter. Where the
parameter has no description, that of its schema stands. -/
structure Slot.IsMadeOf (source : Source) (operation : String) (slot : Slot) (parameter : Node) :
    Prop where
  form : ∃ form, source.formOrAny (parameter.get? "schema") (operation ++ "_" ++ slot.name) =
      .ok form ∧
    slot.form = { form with description :=
      (trimmedText? (parameter.value.getD "description")).getD form.description }
  required : slot.required = true ↔ parameter.value.getD "required" = .bool true

/-! ## Merging -/

section Merging

variable {parameter other : Node} {key : String × String} {parameters : List Node}

theorem parameterKey?_eq_some_iff : parameterKey? parameter = some key ↔
    parameter.value.getD "name" = .str key.1 ∧ parameter.value.getD "in" = .str key.2 := by
  unfold parameterKey?
  split
  · next name location hname hlocation => simp [hname, hlocation, Prod.ext_iff]
  · next hnone => simpa using hnone key.1 key.2

theorem sameParameter_iff (h : (parameterKey? parameter).isSome)
    (hother : (parameterKey? other).isSome) :
    sameParameter other parameter = true ↔ parameterKey? other = parameterKey? parameter := by
  obtain ⟨key, hkey⟩ := Option.isSome_iff_exists.mp h
  obtain ⟨key', hkey'⟩ := Option.isSome_iff_exists.mp hother
  rw [hkey, hkey', Option.some_inj, Prod.ext_iff]
  rw [parameterKey?_eq_some_iff] at hkey hkey'
  simp [sameParameter, hkey, hkey', Json.display]

/-- A parameter goes in the place of the one with its key, or to the end. -/
theorem map_addParameter (h : (parameterKey? parameter).isSome)
    (hparameters : ∀ other ∈ parameters, (parameterKey? other).isSome) :
    (addParameter parameter parameters).map parameterKey? =
      if parameterKey? parameter ∈ parameters.map parameterKey? then parameters.map parameterKey?
      else parameters.map parameterKey? ++ [parameterKey? parameter] := by
  induction parameters with
  | nil => rfl
  | cons first rest ih =>
    obtain ⟨hfirst, hrest⟩ := List.forall_mem_cons.mp hparameters
    rw [addParameter]
    by_cases hsame : parameterKey? first = parameterKey? parameter
    · rw [if_pos ((sameParameter_iff h hfirst).mpr hsame)]
      simp [hsame]
    · rw [if_neg (mt (sameParameter_iff h hfirst).mp hsame), List.map_cons, ih hrest]
      simp only [List.map_cons, List.mem_cons, Ne.symm hsame, false_or]
      split <;> rfl

/-- A parameter that is added counts for its key, and for every other key nothing changes. -/
theorem find?_addParameter (h : (parameterKey? parameter).isSome)
    (hparameters : ∀ other ∈ parameters, (parameterKey? other).isSome) :
    (addParameter parameter parameters).find? (parameterKey? · == some key) =
      ([parameter].find? (parameterKey? · == some key)).or
        (parameters.find? (parameterKey? · == some key)) := by
  induction parameters with
  | nil => simp [addParameter]
  | cons first rest ih =>
    obtain ⟨hfirst, hrest⟩ := List.forall_mem_cons.mp hparameters
    rw [addParameter]
    by_cases hsame : parameterKey? first = parameterKey? parameter
    · rw [if_pos ((sameParameter_iff h hfirst).mpr hsame), List.find?_cons, List.find?_cons,
        List.find?_cons, hsame]
      split <;> simp
    · rw [if_neg (mt (sameParameter_iff h hfirst).mp hsame), List.find?_cons, ih hrest]
      by_cases hkey : parameterKey? first = some key
      · have hother : parameterKey? parameter ≠ some key := fun heq => hsame (hkey.trans heq.symm)
        simp [hkey, hother]
      · simp [beq_false_of_ne hkey]

theorem lastNamed_append (key : String × String) (parameters others : List Node) :
    lastNamed key (parameters ++ others) =
      (lastNamed key others).or (lastNamed key parameters) := by
  rw [lastNamed, List.reverse_append, List.find?_append]
  rfl

/-- Of parameters added one after the other each key stands at its first place, with the last
parameter of that key. -/
theorem foldl_addParameter (h : ∀ parameter ∈ parameters, (parameterKey? parameter).isSome) :
    let merged := parameters.foldl (fun merged parameter => addParameter parameter merged) []
    merged.map parameterKey? = (parameters.map parameterKey?).eraseDups ∧
      ∀ key, merged.find? (parameterKey? · == some key) = lastNamed key parameters := by
  induction parameters using List.reverseRecOn with
  | nil => exact ⟨rfl, fun _ => rfl⟩
  | append_singleton front parameter ih =>
    obtain ⟨hfront, hlast⟩ := List.forall_mem_append.mp h
    have hparameter := hlast parameter (List.mem_singleton_self _)
    obtain ⟨hkeys, hfound⟩ := ih hfront
    set merged := front.foldl (fun merged parameter => addParameter parameter merged) []
    have hmerged : ∀ other ∈ merged, (parameterKey? other).isSome := fun other hother => by
      have hkey : parameterKey? other ∈ merged.map parameterKey? := List.mem_map_of_mem hother
      rw [hkeys, List.mem_eraseDups] at hkey
      obtain ⟨listed, hlisted, heq⟩ := List.mem_map.mp hkey
      exact heq ▸ hfront listed hlisted
    simp only [List.foldl_append, List.foldl_cons, List.foldl_nil]
    refine ⟨?_, fun key => ?_⟩
    · rw [map_addParameter hparameter hmerged, hkeys, List.map_append, List.map_singleton,
        eraseDups_concat]
      simp only [List.mem_eraseDups]
    · rw [find?_addParameter hparameter hmerged, hfound, lastNamed_append]
      rfl

/-- With distinct keys a parameter is the one that is found under its key. -/
theorem find?_of_mem_of_nodup (hnodup : (parameters.map parameterKey?).Nodup)
    (hmem : parameter ∈ parameters) (hkey : parameterKey? parameter = some key) :
    parameters.find? (parameterKey? · == some key) = some parameter := by
  induction parameters with
  | nil => simp at hmem
  | cons first rest ih =>
    rw [List.map_cons, List.nodup_cons] at hnodup
    rw [List.find?_cons]
    rcases List.mem_cons.mp hmem with rfl | hmem
    · simp [hkey]
    · have hfirst : parameterKey? first ≠ some key := fun heq =>
        hnodup.1 (List.mem_map.mpr ⟨parameter, hmem, hkey.trans heq.symm⟩)
      simpa [beq_false_of_ne hfirst] using ih hnodup.2 hmem

end Merging

/-! ## Slots -/

section Slots

variable {source : Source} {operation : String} {origin : Origin} {claimed : List String}
  {parameter : Node} {parameters : List Node} {slots : List Slot}

theorem parameterName?_eq_some_iff {location name : String} :
    parameterName? location parameter = some name ↔
      parameterKey? parameter = some (name, location) ∧ name ≠ "" := by
  unfold parameterName?
  split
  · next place own hplace hown =>
    simp only [parameterKey?_eq_some_iff, hplace, hown, Json.str.injEq]
    split
    · next h =>
      simp only [Bool.and_eq_true, beq_iff_eq, Bool.not_eq_true', String.isEmpty_eq_false_iff] at h
      obtain ⟨rfl, hne⟩ := h
      simp only [Option.some.injEq, and_true]
      exact ⟨fun heq => ⟨heq, heq ▸ hne⟩, And.left⟩
    · next h =>
      simp only [Bool.and_eq_true, beq_iff_eq, Bool.not_eq_true', String.isEmpty_eq_false_iff] at h
      simp only [reduceCtorEq, false_iff]
      rintro ⟨⟨rfl, rfl⟩, hne⟩
      exact h ⟨rfl, hne⟩
  · next hnone =>
    simp only [reduceCtorEq, parameterKey?_eq_some_iff, false_iff]
    rintro ⟨⟨hname, hlocation⟩, -⟩
    exact hnone location name hlocation hname

/-- Each slot of the parameters at a location is made of one of them, which bears its name. -/
theorem isMadeOf_of_parameterSlots
    (h : parameterSlots source operation origin claimed parameters = .ok slots) {slot : Slot}
    (hslot : slot ∈ slots) : ∃ parameter ∈ parameters,
      parameterName? origin.name parameter = some slot.name ∧
        slot.IsMadeOf source operation parameter := by
  induction parameters generalizing claimed slots with
  | nil =>
    obtain rfl := Except.ok.inj h
    simp at hslot
  | cons first rest ih =>
    rw [parameterSlots] at h
    split at h
    · obtain ⟨parameter, hparameter, hmade⟩ := ih h hslot
      exact ⟨parameter, List.mem_cons_of_mem _ hparameter, hmade⟩
    · next name hname =>
      split at h
      · cases h
      · next form hform =>
        obtain ⟨others, hothers, rfl⟩ := map_eq_ok.mp h
        rcases List.mem_cons.mp hslot with rfl | hslot
        · refine ⟨first, List.mem_cons_self, (Option.filter_eq_some_iff.mp hname).1,
            ⟨form, hform, rfl⟩, ?_⟩
          cases first.value.getD "required" <;> simp
        · obtain ⟨parameter, hparameter, hmade⟩ := ih hothers hslot
          exact ⟨parameter, List.mem_cons_of_mem _ hparameter, hmade⟩

/-- A slot that is not of the body is one of the path and the query. -/
theorem mem_pathAndQuerySlots_of_slotsOf {e : Endpoint} (h : slotsOf source operation e = .ok slots)
    {slot : Slot} (hslot : slot ∈ slots) (horigin : slot.origin = .path ∨ slot.origin = .query) :
    ∃ outside, pathAndQuerySlots source operation e = .ok outside ∧ slot ∈ outside := by
  unfold slotsOf at h
  split at h
  · cases h
  next outside houtside =>
  refine ⟨outside, houtside, ?_⟩
  split at h
  · cases h
  · exact Except.ok.inj h ▸ hslot
  · next schema required _ =>
    obtain ⟨form, -, rfl⟩ := map_eq_ok.mp h
    refine (List.mem_append.mp hslot).resolve_right fun hbody => ?_
    unfold bodySlots at hbody
    split at hbody
    · have hfield := ((memberSlots_spec _ form.members).2 slot hbody).1
      simp [hfield] at horigin
    · obtain rfl := List.mem_singleton.mp hbody
      simp at horigin

/-- A slot of the path or the query is made of a parameter that bears its name there, or it stands
for a variable of the path that no parameter declares. -/
theorem isMadeOf_or_variableSlot {e : Endpoint} (h : slotsOf source operation e = .ok slots)
    (hparameters : parametersOf source e = .ok parameters) {slot : Slot} (hslot : slot ∈ slots)
    (horigin : slot.origin = .path ∨ slot.origin = .query) :
    (∃ parameter ∈ parameters, parameterName? slot.origin.name parameter = some slot.name ∧
        slot.IsMadeOf source operation parameter) ∨
      slot = variableSlot slot.name ∧ slot.name ∈ Call.variableNames e.path ∧
        slot.name ∉ parameters.filterMap (parameterName? Origin.path.name) := by
  obtain ⟨outside, houtside, houter⟩ := mem_pathAndQuerySlots_of_slotsOf h hslot horigin
  rw [pathAndQuerySlots, hparameters] at houtside
  dsimp only at houtside
  split at houtside
  · cases houtside
  next pathSlots hpath =>
  obtain ⟨querySlots, hquery, rfl⟩ := map_eq_ok.mp houtside
  obtain ⟨hpathNames, hpathSlots⟩ := parameterSlots_spec hpath
  obtain ⟨-, hquerySlots⟩ := parameterSlots_spec hquery
  rcases List.mem_append.mp houter with hdeclared | hvariable
  · rcases List.mem_append.mp hdeclared with hslot | hslot
    · exact .inl (hpathSlots slot hslot ▸ isMadeOf_of_parameterSlots hpath hslot)
    · exact .inl (hquerySlots slot hslot ▸ isMadeOf_of_parameterSlots hquery hslot)
  · obtain ⟨name, hname, rfl⟩ := List.mem_map.mp hvariable
    obtain ⟨hname, hfree⟩ := List.mem_filter.mp hname
    refine .inr ⟨rfl, hname, fun hmem => ?_⟩
    have hpathName : name ∈ pathSlots.map (·.name) :=
      (hpathNames name).mpr ⟨hmem, List.not_mem_nil⟩
    simp [hpathName] at hfree

end Slots

/-! ## Overriding -/

section Overriding

variable {source : Source} {e : Endpoint} {shared own : List Node}

/-- The parameters of an endpoint are those its path and its operation list, each name and location
once: at the place where it is listed first, with the parameter that counts for it. -/
theorem exists_parametersOf (hshared : listedParameters source e.pathItem = .ok shared)
    (hown : listedParameters source e.operation = .ok own)
    (hnamed : ∀ parameter ∈ shared ++ own, (parameterKey? parameter).isSome) :
    ∃ merged, parametersOf source e = .ok merged ∧
      merged.map parameterKey? = ((shared ++ own).map parameterKey?).eraseDups ∧
      ∀ key, merged.find? (parameterKey? · == some key) = counting shared own key := by
  obtain ⟨hkeys, hfound⟩ := foldl_addParameter hnamed
  refine ⟨_, by rw [parametersOf, hshared, hown]; rfl, hkeys, fun key => ?_⟩
  rw [hfound, lastNamed_append]
  rfl

/-- A name that is not empty is declared at a location if and only if a parameter counts for it. -/
theorem mem_filterMap_parameterName?_iff {merged : List Node}
    (hfound : ∀ key, merged.find? (parameterKey? · == some key) = counting shared own key)
    {location name : String} : name ∈ merged.filterMap (parameterName? location) ↔
      name ≠ "" ∧ (counting shared own (name, location)).isSome := by
  rw [← hfound, List.find?_isSome, List.mem_filterMap]
  simp only [parameterName?_eq_some_iff, beq_iff_eq]
  constructor
  · rintro ⟨parameter, hparameter, hkey, hne⟩
    exact ⟨hne, parameter, hparameter, hkey⟩
  · rintro ⟨hne, parameter, hparameter, hkey⟩
    exact ⟨parameter, hparameter, hkey, hne⟩

/-- Where the parameters that a path and its operation list have texts for name and location, the
merged parameters have one entry for each name and location, in order of first appearance. It is the
last one that the operation lists, and without one the last that the path lists. What an operation
offers in its path and its query are the names declared there, the path going first, and each slot
takes its schema, its description and its required flag from the one entry that counts for it;
only a variable of the path that no parameter declares has a standing slot. -/
theorem parametersOf_override (hshared : listedParameters source e.pathItem = .ok shared)
    (hown : listedParameters source e.operation = .ok own)
    (hnamed : ∀ parameter ∈ shared ++ own, (parameterKey? parameter).isSome) :
    (∃ merged, parametersOf source e = .ok merged ∧
      merged.map parameterKey? = ((shared ++ own).map parameterKey?).eraseDups ∧
      (merged.map parameterKey?).Nodup ∧
      ∀ key, merged.find? (parameterKey? · == some key) = counting shared own key) ∧
    ∀ name operation, Operation.ofEndpoint source name e = .ok operation →
      (∀ slot ∈ operation.slots, slot.origin = .path ∨ slot.origin = .query →
        (∃ parameter, counting shared own (slot.name, slot.origin.name) = some parameter ∧
          slot.IsMadeOf source name parameter) ∨
        slot = variableSlot slot.name ∧ counting shared own (slot.name, "path") = none) ∧
      ∀ text ≠ "",
        (text ∈ namesFrom .path operation.slots ↔ text ∈ Call.variableNames e.path ∨
          (counting shared own (text, "path")).isSome) ∧
        (text ∈ namesFrom .query operation.slots ↔ text ∉ Call.variableNames e.path ∧
          counting shared own (text, "path") = none ∧
          (counting shared own (text, "query")).isSome) := by
  obtain ⟨merged, hmerged, hkeys, hfound⟩ := exists_parametersOf hshared hown hnamed
  have hnodup : (merged.map parameterKey?).Nodup := hkeys ▸ nodup_eraseDups _
  refine ⟨⟨merged, hmerged, hkeys, hnodup, hfound⟩, fun name operation hop => ⟨?_, ?_⟩⟩
  · intro slot hslot horigin
    have hslots := (Operation.slots_of_ofEndpoint hop).1
    rcases isMadeOf_or_variableSlot hslots hmerged hslot horigin with
      ⟨parameter, hparameter, hname, hmade⟩ | ⟨hvariable, hmem, hfree⟩
    · have hkey := (parameterName?_eq_some_iff.mp hname).1
      exact .inl ⟨parameter, (hfound _).symm.trans (find?_of_mem_of_nodup hnodup hparameter hkey),
        hmade⟩
    · have hne : slot.name ≠ "" := fun heq =>
        (Call.isName_of_mem_variableNames hmem).ne_nil (by simp [heq])
      have hnone : ¬(counting shared own (slot.name, "path")).isSome := fun hsome =>
        hfree ((mem_filterMap_parameterName?_iff hfound).mpr ⟨hne, hsome⟩)
      exact .inr ⟨hvariable, Option.not_isSome_iff_eq_none.mp hnone⟩
  · intro text hne
    obtain ⟨declaration, hdeclaration, -, hoffers⟩ :=
      exists_offers_of_slotsOf (Operation.slots_of_ofEndpoint hop).1
    rw [declarationOf, hmerged] at hdeclaration
    obtain ⟨body, -, rfl⟩ := map_eq_ok.mp hdeclaration
    have hdeclared (origin : Origin) :
        text ∈ Declaration.named ⟨e.path, merged, body⟩ origin ↔
          (counting shared own (text, origin.name)).isSome :=
      (mem_filterMap_parameterName?_iff hfound).trans (and_iff_right hne)
    rw [hoffers.mem_iff (by simp), hoffers.mem_iff (by simp), Declaration.originOf?_eq_path_iff,
      Declaration.originOf?_eq_query_iff, hdeclared, hdeclared]
    refine ⟨Iff.rfl, ?_⟩
    rw [not_or, and_comm, and_assoc, Option.not_isSome_iff_eq_none]
    rfl

end Overriding

/-- The path lists a limit twice, in the query and in the header; the operation lists it for the
query again, behind a reference, and its own parameter behind it. -/
theorem parametersOf_override_limit :
    let limit := fun location description => Json.obj [("name", .str "limit"),
      ("in", .str location), ("description", .str description)]
    let document := Json.obj [("limit", limit "query" "of the operation")]
    let pathItem := Json.obj [("parameters", .arr [limit "query" "first", limit "header" "other",
      limit "query" "second", .null])]
    let operation := Json.obj [("parameters", .arr [.obj [("$ref", .str "#/limit")],
      .obj [("name", .str "id"), ("in", .str "path")]])]
    let e : Endpoint := ⟨"/s/\x7bid\x7d", "get", .root pathItem, .root operation⟩
    ∃ merged, parametersOf (.of document) e = .ok merged ∧
      merged.map parameterKey? =
        [some ("limit", "query"), some ("limit", "header"), some ("id", "path")] ∧
      (merged.find? (parameterKey? · == some ("limit", "query"))).bind
        (fun parameter => (parameter.value.getD "description").text?) = some "of the operation" := by
  intro limit document pathItem operation e
  obtain ⟨shared, hshared, hsharedKeys⟩ := exists_eq_ok
    (x := listedParameters (.of document) e.pathItem)
    (fun shared => shared.map parameterKey? ==
      [some ("limit", "query"), some ("limit", "header"), some ("limit", "query")])
    (by decide +kernel)
  obtain ⟨own, hown, hownTest⟩ := exists_eq_ok (x := listedParameters (.of document) e.operation)
    (fun own => own.map parameterKey? == [some ("limit", "query"), some ("id", "path")] &&
      (lastNamed ("limit", "query") own).any fun parameter =>
        (parameter.value.getD "description").text? == some "of the operation")
    (by decide +kernel)
  obtain ⟨hownKeys, hlast⟩ := Bool.and_eq_true_iff.mp hownTest
  obtain ⟨parameter, hparameter, hdescription⟩ := (Option.any_eq_true _ _).mp hlast
  have hkeys : (shared ++ own).map parameterKey? = [some ("limit", "query"),
      some ("limit", "header"), some ("limit", "query"), some ("limit", "query"),
      some ("id", "path")] := by
    rw [List.map_append, beq_iff_eq.mp hsharedKeys, beq_iff_eq.mp hownKeys]
    rfl
  have hnamed : ∀ key? ∈ (shared ++ own).map parameterKey?, key?.isSome := by
    rw [hkeys]
    decide
  obtain ⟨⟨merged, hmerged, hmergedKeys, -, hfound⟩, -⟩ :=
    parametersOf_override hshared hown (List.forall_mem_map.mp hnamed)
  refine ⟨merged, hmerged, by rw [hmergedKeys, hkeys]; decide, ?_⟩
  rw [hfound, counting, hparameter]
  exact beq_iff_eq.mp hdescription

end Toolgate.Catalog
