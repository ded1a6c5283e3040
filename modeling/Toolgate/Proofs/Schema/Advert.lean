import Toolgate.Proofs.Decimal.Digits
import Toolgate.Proofs.Schema.RecordNames
import Toolgate.Schema.Advert

/-!
# Advertised records

The advertised schema of a record lists its fields in order. References to the definitions of inner
records are shortened wherever their text occurs in a schema, in the list of required fields too. A
required field is listed under another name if and only if its own name is such a reference.

## Main definitions

* `IsNumbered`: definitions that are told apart by their names and numbers
* `draftReferences`: the references that stand for the inner records of a record in a draft
* `listedRequired`: what a schema says must be given

## Main statements

* `properties_advertise`: the properties of an advertised record are its fields, in order
* `exists_listedRequired_advertise`: its required fields are listed under names that are no
  references to inner records
-/

namespace Toolgate.Schema

open Decimal (natText natDigits)

/-! ## Definitions in a draft -/

/-- Definitions are told apart by their names and numbers: those of one name are numbered from one
on. -/
structure IsNumbered (definitions : List Definition) : Prop where
  nodup : (definitions.map fun d => (d.name, d.index)).Nodup
  index_le : ∀ d ∈ definitions, d.index ≤ (definitions.filter (·.name == d.name)).length

theorem isNumbered_nil : IsNumbered [] :=
  ⟨List.nodup_nil, List.forall_mem_nil _⟩

/-- A new definition of a name has the next number. -/
theorem IsNumbered.concat {definitions : List Definition} (h : IsNumbered definitions)
    (name : String) (schema : Json) :
    IsNumbered (definitions ++ [⟨name, nextIndex definitions name, schema⟩]) := by
  refine ⟨?_, fun d hd => ?_⟩
  · rw [List.map_append, List.map_singleton]
    refine h.nodup.append (List.nodup_singleton _) fun pair hpair hlast => ?_
    obtain ⟨d, hd, rfl⟩ := List.mem_map.mp hpair
    obtain ⟨hname, hindex⟩ := Prod.mk.inj (List.mem_singleton.mp hlast)
    have hle : nextIndex definitions name ≤ (definitions.filter (·.name == name)).length := by
      simpa only [hindex, hname] using h.index_le d hd
    exact absurd hle (Nat.not_succ_le_self _)
  · rw [List.filter_append, List.length_append]
    rcases List.mem_append.mp hd with hd | hd
    · exact (h.index_le d hd).trans (Nat.le_add_right _ _)
    · obtain rfl := List.mem_singleton.mp hd
      simp [nextIndex]

mutual

/-- A draft defines the records of the shape, in order, each under a number of its own. -/
theorem draft_spec {definitions : List Definition} (h : IsNumbered definitions) (shape : Shape) :
    IsNumbered (draft definitions shape).2 ∧ (draft definitions shape).2.map (·.name) =
      definitions.map (·.name) ++ shape.recordNames := by
  match shape with
  | .anything | .text _ | .choice _ | .timestamp | .whole _ | .number _ | .truth =>
    simp [draft, Shape.recordNames, h]
  | .list inner | .table inner | .optional inner | .described _ inner =>
    rw [draft, Shape.recordNames]
    exact draft_spec h inner
  | .either variants =>
    rw [draft, Shape.recordNames]
    exact draftEach_spec h variants
  | .record name fields =>
    obtain ⟨hnumbered, hnames⟩ := draftFields_spec h fields
    rw [draft, Shape.recordNames]
    refine ⟨hnumbered.concat name _, ?_⟩
    simp [hnames]

theorem draftFields_spec {definitions : List Definition} (h : IsNumbered definitions)
    (fields : List (Field Shape)) :
    IsNumbered (draftFields definitions fields).2 ∧
      (draftFields definitions fields).2.map (·.name) =
        definitions.map (·.name) ++ Shape.fieldRecordNames fields := by
  match fields with
  | [] => simp [draftFields, Shape.fieldRecordNames, h]
  | ⟨_, _, _, _, shape⟩ :: rest =>
    obtain ⟨hfirst, hfirstNames⟩ := draft_spec h shape
    obtain ⟨hrest, hrestNames⟩ := draftFields_spec hfirst rest
    rw [draftFields, Shape.fieldRecordNames, ← List.append_assoc, ← hfirstNames]
    exact ⟨hrest, hrestNames⟩

theorem draftEach_spec {definitions : List Definition} (h : IsNumbered definitions)
    (shapes : List Shape) :
    IsNumbered (draftEach definitions shapes).2 ∧
      (draftEach definitions shapes).2.map (·.name) =
        definitions.map (·.name) ++ Shape.variantRecordNames shapes := by
  match shapes with
  | [] => simp [draftEach, Shape.variantRecordNames, h]
  | shape :: rest =>
    obtain ⟨hfirst, hfirstNames⟩ := draft_spec h shape
    obtain ⟨hrest, hrestNames⟩ := draftEach_spec hfirst rest
    rw [draftEach, Shape.variantRecordNames, ← List.append_assoc, ← hfirstNames]
    exact ⟨hrest, hrestNames⟩

end

/-- Each field of a record is drafted in its place. -/
theorem map_fst_draftFields (definitions : List Definition) (fields : List (Field Shape)) :
    (draftFields definitions fields).1.map Prod.fst = fields := by
  induction fields generalizing definitions with
  | nil => rfl
  | cons field rest ih => exact congrArg (field :: ·) (ih _)

/-! ## Short names -/

theorem isPlain_natText (n : ℕ) : IsPlain (natText n) := by
  intro c hc
  rw [natText, String.toList_ofList] at hc
  have hdigit := Decimal.isAsciiDigit_of_mem_natDigits c hc
  constructor <;> rintro rfl <;> exact absurd hdigit (by decide)

namespace Definition

variable {d e : Definition}
def numbered (d : Definition) : String :=
  definitionScope ++ (d.name ++ ("__" ++ natText d.index))

/-- The names that come into question before the key of a definition. -/
def shortChoices (d : Definition) : List String :=
  [d.name, d.name ++ "-Input", definitionScope ++ d.name, definitionScope ++ (d.name ++ "-Input"),
    d.numbered]

theorem key_eq (d : Definition) :
    d.key = definitionScope ++ (d.name ++ ("-Input__" ++ natText d.index)) := by
  simp only [key, String.append_assoc]

theorem choices_eq (d : Definition) : d.choices = d.shortChoices ++ [d.key] := by
  have hmark : "-Input__" = "-Input" ++ "__" := rfl
  simp only [choices, shortChoices, numbered, key, hmark, String.append_assoc, List.cons_append,
    List.nil_append]

theorem ne_of_mem_of_notMem {c : Char} {s t : String} (hs : c ∈ s.toList) (ht : c ∉ t.toList) :
    s ≠ t :=
  fun h => ht (h ▸ hs)

theorem key_notMem_shortChoices (he : IsPlain e.name) :
    d.key ∉ e.shortChoices := by
  have hname : '_' ∉ e.name.toList := fun h => (he _ h).1 rfl
  have hname' : '-' ∉ e.name.toList := fun h => (he _ h).2 rfl
  have hindex : '-' ∉ (natText e.index).toList := fun h => (isPlain_natText _ _ h).2 rfl
  have hscope : '_' ∈ definitionScope.toList := by decide
  have hmark : '_' ∈ "-Input__".toList := by decide
  have hmark' : '-' ∈ "-Input__".toList := by decide
  simp only [shortChoices, List.mem_cons, List.not_mem_nil, or_false, not_or, numbered, key_eq,
    String.append_right_inj]
  refine ⟨ne_of_mem_of_notMem (c := '_') ?_ ?_, ne_of_mem_of_notMem (c := '_') ?_ ?_,
    ne_of_mem_of_notMem (c := '_') ?_ ?_, ne_of_mem_of_notMem (c := '_') ?_ ?_,
    ne_of_mem_of_notMem (c := '-') ?_ ?_⟩ <;> simp [*]

/-- Plain names that are followed by a mark and something else are read off the text. -/
theorem eq_of_append_mark {s t u v : String} (hs : IsPlain s) (ht : IsPlain t)
    (h : s ++ ("__" ++ u) = t ++ ("__" ++ v)) : s = t ∧ u = v := by
  have hs' : ∀ c ∈ s.toList, (c != '_') = true := fun c hc => by simpa using (hs c hc).1
  have ht' : ∀ c ∈ t.toList, (c != '_') = true := fun c hc => by simpa using (ht c hc).1
  have hchars : s.toList ++ ('_' :: '_' :: u.toList) = t.toList ++ ('_' :: '_' :: v.toList) := by
    simpa using congrArg String.toList h
  have hname : s = t := by
    have := congrArg (List.takeWhile (· != '_')) hchars
    rw [List.takeWhile_append_of_pos hs', List.takeWhile_append_of_pos ht'] at this
    simpa [String.toList_inj] using this
  exact ⟨hname, by simpa [hname] using h⟩

theorem numbered_mem_choices_iff (hd : IsPlain d.name) (he : IsPlain e.name) :
    d.numbered ∈ e.choices ↔ e.name = d.name ∧ e.index = d.index := by
  have hname : '_' ∉ e.name.toList := fun h => (he _ h).1 rfl
  have hhyphen : '-' ∉ d.name.toList := fun h => (hd _ h).2 rfl
  have hindex : '-' ∉ (natText d.index).toList := fun h => (isPlain_natText _ _ h).2 rfl
  have hscope : '_' ∈ definitionScope.toList := by decide
  constructor
  · intro h
    simp only [choices_eq, shortChoices, List.mem_append, List.mem_cons, List.not_mem_nil, or_false,
      numbered, key_eq, String.append_right_inj] at h
    rcases h with (h | h | h | h | h) | h
    · exact absurd h (ne_of_mem_of_notMem (c := '_') (by simp [hscope]) hname)
    · exact absurd h (ne_of_mem_of_notMem (c := '_') (by simp [hscope]) (by simp [hname]))
    · exact absurd h (ne_of_mem_of_notMem (c := '_') (by simp) hname)
    · exact absurd h (ne_of_mem_of_notMem (c := '_') (by simp) (by simp [hname]))
    · obtain ⟨heq, hnumber⟩ := eq_of_append_mark hd he h
      exact ⟨heq.symm, (Decimal.natText_injective hnumber).symm⟩
    · exact absurd h.symm (ne_of_mem_of_notMem (c := '-') (by simp) (by simp [hhyphen, hindex]))
  · rintro ⟨hname, hindex⟩
    have heq : d.numbered = e.numbered := by rw [numbered, numbered, hname, hindex]
    rw [heq, choices_eq]
    simp [shortChoices]

end Definition

section
variable {definitions : List Definition} {d e : Definition}

/-- A definition always gets one of its short names: under the numbered one there is no other. -/
theorem shortName_mem_shortChoices (hnodup : (definitions.map fun d => (d.name, d.index)).Nodup)
    (hplain : ∀ d ∈ definitions, IsPlain d.name) (hd : d ∈ definitions) :
    shortName definitions d ∈ d.shortChoices := by
  have halone : definitions.filter (·.choices.contains d.numbered) = [d] := by
    rw [← filter_eq_singleton hnodup hd]
    refine List.filter_congr fun e he => Bool.eq_iff_iff.mpr ?_
    rw [List.contains_iff_mem, Definition.numbered_mem_choices_iff (hplain d hd) (hplain e he),
      beq_iff_eq, Prod.mk.injEq]
  have hnumbered : d.numbered ∈ d.shortChoices := by simp [Definition.shortChoices]
  unfold shortName
  rw [Definition.choices_eq, List.find?_append]
  set test := fun choice => (distinctSchemas [] ((definitions.filter
    (·.choices.contains choice)).map (·.schema))).length == 1 with htest
  obtain ⟨choice, hchoice⟩ : ∃ choice, d.shortChoices.find? test = some choice := by
    refine Option.isSome_iff_exists.mp (List.find?_isSome.mpr ⟨_, hnumbered, ?_⟩)
    rw [htest]
    dsimp only
    rw [halone]
    rfl
  rw [hchoice]
  exact List.mem_of_find?_eq_some hchoice
end

section
variable {definitions : List Definition} {newNames : Renaming}

/-- Renaming shortens the names of definitions that have got the same names and numbers. -/
theorem exists_rename (definitions : List Definition) (names : List String) (rounds : ℕ) :
    ∃ others : List Definition, others.map (fun d => (d.name, d.index)) =
        definitions.map (fun d => (d.name, d.index)) ∧
      rename definitions names (rounds + 1) = others.map (shortName others) := by
  induction rounds generalizing definitions names with
  | zero =>
    refine ⟨definitions, rfl, ?_⟩
    rw [rename]
    dsimp only
    split
    · next heq => exact (beq_iff_eq.mp heq).symm
    · rfl
  | succ rounds ih =>
    rw [rename]
    dsimp only
    split
    · next heq => exact ⟨definitions, rfl, (beq_iff_eq.mp heq).symm⟩
    · obtain ⟨others, hothers, hrename⟩ := ih (definitions.map fun d => { d with
        schema := renameRefs (refRenaming definitions (definitions.map (shortName definitions)))
          d.schema }) (definitions.map (shortName definitions))
      refine ⟨others, hothers.trans ?_, hrename⟩
      rw [List.map_map]
      rfl

/-- No definition ends up under the key of a definition in the draft. -/
theorem ne_key_of_mem_rename (hnodup : (definitions.map fun d => (d.name, d.index)).Nodup)
    (hplain : ∀ d ∈ definitions, IsPlain d.name) (names : List String) (rounds : ℕ) :
    ∀ name ∈ rename definitions names (rounds + 1), ∀ d : Definition, name ≠ d.key := by
  obtain ⟨others, hothers, hrename⟩ := exists_rename definitions names rounds
  have hplain : ∀ d ∈ others, IsPlain d.name := by
    have hnames := congrArg (List.map Prod.fst) hothers
    rw [List.map_map, List.map_map] at hnames
    intro d hd
    have hmem : d.name ∈ definitions.map (·.name) := hnames ▸ List.mem_map_of_mem hd
    obtain ⟨e, he, heq⟩ := List.mem_map.mp hmem
    exact heq ▸ hplain e he
  rw [hrename]
  intro name hname e
  obtain ⟨d, hd, rfl⟩ := List.mem_map.mp hname
  exact ne_of_mem_of_not_mem (shortName_mem_shortChoices (hothers ▸ hnodup) hplain hd)
    (Definition.key_notMem_shortChoices (hplain d hd))

/-- A text is renamed if and only if it is a reference to a definition. -/
theorem lookup_refRenaming {names : List String} (hlength : names.length = definitions.length)
    (s : String) :
    s ∉ definitions.map (refTo ·.key) ∧ (refRenaming definitions names).lookup s = none ∨
      s ∈ definitions.map (refTo ·.key) ∧ ∃ name ∈ names,
        (refRenaming definitions names).lookup s = some (refTo name) := by
  induction definitions generalizing names with
  | nil => exact .inl ⟨List.not_mem_nil, rfl⟩
  | cons d rest ih =>
    obtain ⟨name, others, rfl⟩ := List.exists_cons_of_length_eq_add_one hlength
    rw [refRenaming, List.zipWith_cons_cons, List.lookup_cons, ← refRenaming]
    by_cases heq : s = refTo d.key
    · rw [beq_iff_eq.mpr heq]
      exact .inr ⟨by simp [heq], name, List.mem_cons_self, rfl⟩
    · rw [beq_false_of_ne heq]
      rcases ih (Nat.succ.inj hlength) with ⟨hnotMem, hlookup⟩ | ⟨hmem, other, hother, hlookup⟩
      · exact .inl ⟨by simpa [heq] using hnotMem, hlookup⟩
      · exact .inr ⟨List.mem_cons_of_mem _ hmem, other, List.mem_cons_of_mem _ hother, hlookup⟩

end

/-! ## Schemas with shortened references -/

section
variable {newNames : Renaming} {fields : List (String × Json)}

theorem renameRefsItems_eq (items : List Json) :
    renameRefsItems newNames items = items.map (renameRefs newNames) := by
  induction items with
  | nil => rfl
  | cons v rest ih => rw [renameRefsItems, ih, List.map_cons]

theorem renameRefsFields_eq (fields : List (String × Json)) :
    renameRefsFields newNames fields =
      fields.map fun field => (field.1, renameRefs newNames field.2) := by
  induction fields with
  | nil => rfl
  | cons field rest ih => rw [renameRefsFields, ih, List.map_cons]

/-- Under every other key than that of the definitions, a schema with definitions has what it has
without them, by the short names. -/
theorem getD_withDefinitions {key : String} (hkey : key ≠ "$defs") (fields : List (String × Json))
    (definitions : List Definition) :
    (withDefinitions (.obj fields) definitions).getD key =
      renameRefs (refRenaming definitions
        (rename definitions (definitions.map Definition.key) renameRounds))
        ((lookupField key fields).getD .null) := by
  have hrenamed (newNames : Renaming) :
      lookupField key (renameRefsFields newNames fields) =
        (lookupField key fields).map (renameRefs newNames) := by
    rw [renameRefsFields_eq]
    exact lookupField_map (fun _ => renameRefs newNames) key fields
  unfold withDefinitions
  dsimp only
  rw [renameRefs]
  split
  · rw [Json.getD, Json.get?, hrenamed]
    cases lookupField key fields <;> rfl
  · rw [withKeyword, Json.getD, Json.get?, lookupField_setField_of_ne hkey, hrenamed]
    cases lookupField key fields <;> rfl

end

/-- The references that stand for the inner records of a record in a draft. -/
def draftReferences (fields : List (Field Shape)) : List String :=
  (draftFields [] fields).2.map (refTo ·.key)

/-- What a schema says must be given. -/
def listedRequired (schema : Json) : List Json :=
  (schema.getD "required").items?.getD []

section
variable {fields : List (Field Shape)}

/-- A record is not referred to but written out. -/
theorem advertise_record (name : String) (fields : List (Field Shape)) :
    advertise (.record name fields) =
      withDefinitions (recordSchema name (draftFields [] fields).1) (draftFields [] fields).2 := by
  rw [advertise, draft]
  simp

/-- What the schema of a record lists as required are the names of its required fields. -/
theorem items_required_withDefinitions (name : String) (drafted : List (Field Shape × Json))
    (definitions : List Definition) :
    ((withDefinitions (recordSchema name drafted) definitions).getD "required").items?.getD [] =
      (drafted.filter (·.1.required)).map fun pair =>
        renameRefs
          (refRenaming definitions
            (rename definitions (definitions.map Definition.key) renameRounds))
          (.str pair.1.wire) := by
  rw [recordSchema, getD_withDefinitions (by decide)]
  dsimp only
  cases hrequired : drafted.filter (·.1.required) with
  | nil => rfl
  | cons pair rest =>
    simp only [List.map_cons, List.isEmpty_cons, Bool.false_eq_true, if_false]
    simp [lookupField, renameRefs, renameRefsItems_eq, Json.items?]

/-- The properties of the advertised schema of a record are its fields, in order. -/
theorem properties_advertise (name : String) (hnodup : (fields.map (·.wire)).Nodup) :
    ∃ properties, (advertise (.record name fields)).getD "properties" = .obj properties ∧
      properties.map Prod.fst = fields.map (·.wire) := by
  set drafted := (draftFields [] fields).1 with hdrafted
  set shown := drafted.map fun pair => (pair.1.wire, fieldSchema pair.1 pair.2) with hshown
  have hkeys : shown.map Prod.fst = fields.map (·.wire) := by
    rw [hshown, List.map_map, ← map_fst_draftFields [] fields, ← hdrafted, List.map_map]
    rfl
  have hmerged : drafted.foldl (fun done pair =>
      setField pair.1.wire (fieldSchema pair.1 pair.2) done) [] = shown := by
    rw [← mergeFields_of_nodup (hkeys ▸ hnodup : (shown.map Prod.fst).Nodup), mergeFields, hshown,
      List.foldl_map]
  rw [advertise_record, recordSchema, getD_withDefinitions (by decide), ← hdrafted]
  refine ⟨_, rfl, ?_⟩
  rw [renameRefsFields_eq, List.map_map, ← hkeys]
  exact congrArg (List.map Prod.fst) hmerged

/-- The advertised schema of a record lists its required fields, each by a name that is no reference
to an inner record: by its own where that is none. -/
theorem exists_listedRequired_advertise (name : String)
    (hplain : ∀ record ∈ Shape.fieldRecordNames fields, IsPlain record) :
    ∃ shown : String → String,
      listedRequired (advertise (.record name fields)) =
        (fields.filter (·.required)).map (fun field => .str (shown field.wire)) ∧
      (∀ s, shown s ∉ draftReferences fields) ∧ ∀ s ∉ draftReferences fields, shown s = s := by
  obtain ⟨hnumbered, hnames⟩ := draftFields_spec isNumbered_nil fields
  set definitions := (draftFields [] fields).2 with hdefinitions
  set names := rename definitions (definitions.map Definition.key) renameRounds with hrename
  have hplain : ∀ d ∈ definitions, IsPlain d.name := fun d hd =>
    hplain d.name (by
      rw [List.map_nil, List.nil_append] at hnames
      exact hnames ▸ List.mem_map_of_mem hd)
  have hlength : names.length = definitions.length := by
    obtain ⟨others, hothers, heq⟩ := exists_rename definitions (definitions.map Definition.key) 99
    rw [hrename, renameRounds, heq, List.length_map]
    simpa using congrArg List.length hothers
  have hfree : ∀ choice ∈ names, ∀ d : Definition, refTo choice ≠ refTo d.key :=
    fun choice hchoice d heq =>
      ne_key_of_mem_rename hnumbered.nodup hplain _ 99 choice hchoice d (by simpa [refTo] using heq)
  refine ⟨fun s => ((refRenaming definitions names).lookup s).getD s, ?_, fun s => ?_,
    fun s hs => ?_⟩ <;> dsimp only
  · rw [listedRequired, advertise_record, items_required_withDefinitions, ← hdefinitions, ← hrename]
    conv_rhs => rw [← map_fst_draftFields [] fields, List.filter_map, List.map_map]
    rfl
  · rcases lookup_refRenaming hlength s with ⟨hs, hlookup⟩ | ⟨-, choice, hchoice, hlookup⟩
    · rw [hlookup]
      exact hs
    · rw [hlookup, draftReferences, ← hdefinitions, Option.getD_some, List.mem_map]
      rintro ⟨d, -, heq⟩
      exact hfree choice hchoice d heq.symm
  · rcases lookup_refRenaming hlength s with ⟨-, hlookup⟩ | ⟨hmem, -⟩
    · rw [hlookup, Option.getD_none]
    · exact absurd hmem hs

end

end Toolgate.Schema
