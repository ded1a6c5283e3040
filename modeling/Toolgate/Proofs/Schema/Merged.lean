import Toolgate.Proofs.Schema.Definite

/-!
# Objects that are merged

Objects that a schema asks for all together are compiled to one record of their members. Its fields
are named anew, next to the fields of all the objects. Still a value is found by the name of its
property, and what is given for a property that an object does not declare does not count for it.
So where the objects declare different properties, a value is accepted as the merged object exactly
when it is accepted as each of the objects.

## Main statements

* `Translated.accepts_object_iff`: which objects an object form accepts
* `names_mergeMembers`, `find?_mergeMembers`: which members are left when members are merged
* `translate_allOf_objects`: the form of a schema that puts objects together
-/

namespace Toolgate.Schema

/-! ## Object forms -/

/-- The form is the record of its members, each of which can be checked; null may be let in. -/
structure Form.IsRecord (form : Form) : Prop where
  shape : ∃ called, form.shape = .record called (fieldsOf [] form.members) ∨
    form.shape = (Shape.record called (fieldsOf [] form.members)).orNull
  sound : ∀ member ∈ form.members, member.form.shape.isSound = true

theorem isRecord_ofMembers {name : String} {members : List (Member Form)}
    (hkind : (Form.ofMembers name members).kind = .object) :
    (Form.ofMembers name members).IsRecord := by
  by_cases hsound : ∀ member ∈ members, member.form.shape.isSound = true
  · rw [ofMembers_of_sound name hsound]
    exact ⟨⟨_, .inl rfl⟩, hsound⟩
  · rw [← all_isSound_fieldsOf_iff []] at hsound
    simp [Form.ofMembers, recordOf?, hsound, Form.looseObject] at hkind

theorem Form.IsRecord.annotated {form : Form} (h : form.IsRecord) (fields : List (String × Json)) :
    (annotated fields form).IsRecord := by
  obtain ⟨hshape, hmembers⟩ := annotated_spec fields form
  obtain ⟨⟨called, hown⟩, hsound⟩ := h
  rw [← hmembers] at hown hsound
  refine ⟨⟨called, ?_⟩, hsound⟩
  rcases hshape with hshape | hshape <;> rw [hshape]
  · exact hown
  · rcases hown with hown | hown
    · exact .inr (by rw [hown])
    · exact .inr (by rw [hown]; rfl)

/-- Whatever an object form was compiled from, it is the record of its members. -/
theorem Translated.isRecord {form : Form} (h : Translated form) (hkind : form.kind = .object) :
    form.IsRecord := by
  induction h with
  | anything | whole | number | truth | list | bareList | table | looseObject => cases hkind
  | text h =>
    rcases kind_textForm h with hown | hown | hown <;> rw [hown] at hkind <;> cases hkind
  | object name => exact isRecord_ofMembers hkind
  | @united forms hne _ ih =>
    unfold unitedForm at hkind ⊢
    split at hkind
    · exact ih _ List.mem_cons_self hkind
    · cases hkind
  | @merged name forms _ ih =>
    unfold mergedForm at hkind ⊢
    split at hkind
    · cases hkind
    · split_ifs at hkind ⊢
      · exact isRecord_ofMembers hkind
      · exact ih _ List.mem_cons_self hkind
  | @annotated fields form _ ih =>
    rw [annotated_kind] at hkind
    exact (ih hkind).annotated fields

/-- An object form accepts the objects that are fit for each of its members. -/
theorem Translated.accepts_object_iff {form : Form} (h : Translated form)
    (hkind : form.kind = .object) (given : List (String × Json)) :
    form.shape.accepts (.obj given) = true ↔ ∀ member ∈ form.members, member.Admits given := by
  obtain ⟨⟨called, hshape⟩, -⟩ := h.isRecord hkind
  have haccept : form.shape.accepts (.obj given) =
      (Shape.record called (fieldsOf [] form.members)).accepts (.obj given) := by
    rcases hshape with hshape | hshape
    · rw [hshape]
    · rw [hshape, Shape.accepts, Shape.accepts, Shape.validate, Shape.validate,
        accept_orNull (by simp)]
  rw [haccept, Shape.accepts_iff]
  simp only [accept_record_fieldsOf_iff h.isProper.members]
  constructor
  · rintro ⟨w, given', heq, hadmits, -⟩
    exact Json.obj.inj heq ▸ hadmits
  · exact fun hadmits => ⟨_, given, rfl, hadmits, rfl⟩

/-! ## Merged members -/

theorem removeAll_append_singleton (names others : List String) (name : String) :
    names.removeAll (others ++ [name]) = (names.removeAll others).filter (!· == name) := by
  rw [List.removeAll, List.removeAll, List.filter_filter]
  refine List.filter_congr fun x _ => ?_
  rw [List.elem_eq_mem, List.elem_eq_mem]
  by_cases hx : x = name <;> simp [hx]

/-- Each name stands at its first place. -/
theorem names_mergeMembers (merged members : List (Member Form)) :
    (mergeMembers merged members).map (·.name) = merged.map (·.name) ++
      ((members.map (·.name)).removeAll (merged.map (·.name))).eraseDups := by
  induction members generalizing merged with
  | nil => simp [mergeMembers, List.removeAll]
  | cons member rest ih =>
    rw [mergeMembers, ih, List.map_cons, List.cons_removeAll]
    by_cases hknown : merged.any (·.name == member.name) = true
    · have hmem : member.name ∈ merged.map (·.name) := by simpa using hknown
      rw [if_pos hknown, names_overwritten, if_neg (by simpa using hmem)]
    · have hmem : member.name ∉ merged.map (·.name) := by simpa using hknown
      rw [if_neg hknown, if_pos (by simpa using hmem), List.map_append, List.map_singleton,
        removeAll_append_singleton, List.eraseDups_cons, List.append_assoc, List.singleton_append]

/-- One member more is what its name stands for, and nothing else changes. -/
theorem find?_overwritten (member : Member Form) (merged : List (Member Form)) (name : String) :
    (if merged.any (·.name == member.name) then
        merged.map fun other => if other.name == member.name then member else other
      else merged ++ [member]).find? (·.name == name) =
      ([member].find? (·.name == name)).or (merged.find? (·.name == name)) := by
  have hmap : (merged.map fun other => if other.name == member.name then member else other).find?
      (·.name == name) = (merged.find? (·.name == name)).map
        fun other => if other.name == member.name then member else other := by
    rw [List.find?_map]
    congr 2
    funext other
    rw [Function.comp_apply, name_overwritten]
  by_cases hname : member.name = name
  · subst hname
    rw [List.find?_singleton, if_pos (beq_self_eq_true _), Option.some_or]
    split
    · next hknown =>
      obtain ⟨other, hfound⟩ := Option.isSome_iff_exists.mp (List.find?_isSome.mpr
        (List.any_eq_true.mp hknown))
      rw [hmap, hfound, Option.map_some, if_pos (List.find?_some hfound)]
    · next hnew =>
      have hnone : merged.find? (·.name == member.name) = none := by simpa using hnew
      rw [List.find?_append, hnone, Option.none_or, List.find?_singleton,
        if_pos (beq_self_eq_true _)]
  · have hnone : [member].find? (·.name == name) = none := by simpa using hname
    rw [hnone, Option.none_or]
    split
    · rw [hmap]
      cases hfound : merged.find? (·.name == name) with
      | none => rfl
      | some other =>
        have hother : other.name = name := by simpa using List.find?_some hfound
        rw [Option.map_some, if_neg (by simpa [hother] using Ne.symm hname)]
    · rw [List.find?_append, hnone, Option.or_none]

/-- Each name has its last content. -/
theorem find?_mergeMembers (merged members : List (Member Form)) (name : String) :
    (mergeMembers merged members).find? (·.name == name) =
      (members.reverse.find? (·.name == name)).or (merged.find? (·.name == name)) := by
  induction members generalizing merged with
  | nil => rfl
  | cons member rest ih =>
    rw [mergeMembers, ih, find?_overwritten, List.reverse_cons, List.find?_append, Option.or_assoc]

theorem find?_name_of_nodup {members : List (Member Form)} {member : Member Form}
    (hnodup : (members.map (·.name)).Nodup) (h : member ∈ members) :
    members.find? (·.name == member.name) = some member := by
  have hsome : (members.find? (·.name == member.name)).isSome = true :=
    List.find?_isSome.mpr ⟨member, h, beq_self_eq_true _⟩
  obtain ⟨found, hfound⟩ := Option.isSome_iff_exists.mp hsome
  have hname : found.name = member.name := by simpa using List.find?_some hfound
  rw [hfound, List.inj_on_of_nodup_map hnodup (List.mem_of_find?_eq_some hfound) h hname]

theorem mergeMembers_of_nodup {merged members : List (Member Form)}
    (h : ((merged ++ members).map (·.name)).Nodup) :
    mergeMembers merged members = merged ++ members := by
  induction members generalizing merged with
  | nil => simp [mergeMembers]
  | cons member rest ih =>
    have hnew : ¬merged.any (·.name == member.name) = true := by
      rw [List.any_eq_true]
      rintro ⟨other, hother, hname⟩
      rw [List.map_append, List.nodup_append] at h
      exact h.2.2 _ (List.mem_map_of_mem hother) _ List.mem_cons_self (beq_iff_eq.mp hname)
    have hassoc : merged ++ member :: rest = merged ++ [member] ++ rest := by simp
    rw [mergeMembers, if_neg hnew, ih (hassoc ▸ h), hassoc]

/-! ## Schemas that put objects together -/

/-- The names of the members of a form. -/
def Form.memberNames (form : Form) : List String :=
  form.members.map (·.name)

section
variable {document : Json} {pending : List String} {active : List Place} {node : Node}
  {name : String} {fields : List (String × Json)} {items : List Json} {forms : List Form}

/-- A schema that lists schemas of objects to hold all together is compiled to an object form, with
the members of all these objects: each name stands where it comes first and has the form and the
requirement it comes with last. Where no name comes twice, the form accepts just the objects that
each of the listed schemas accepts. -/
theorem translate_allOf_objects (hnode : node.value = .obj fields)
    (href : ∀ ref, lookupField "$ref" fields ≠ some (.str ref))
    (hfree : node.altered = true ∨ node.place ∉ active)
    (hone : listNamed? fields "oneOf" = none) (hany : listNamed? fields "anyOf" = none)
    (hall : listNamed? fields "allOf" = some items)
    (hforms : List.Forall₂ (fun entry own =>
      listedForm document pending active node "allOf" (name ++ "Part") entry = .ok own ∧
        own.kind = .object) items.zipIdx forms) :
    ∃ form, translate document pending active node name = .ok form ∧ form.kind = .object ∧
      form.memberNames = (forms.flatMap (·.memberNames)).eraseDups ∧
      (∀ member ∈ form.members,
        (forms.flatMap (·.members)).reverse.find? (·.name == member.name) = some member) ∧
      (∀ given, form.shape.accepts (.obj given) = true ↔
        ∀ member ∈ form.members, member.Admits given) ∧
      ((∀ own ∈ forms, own.memberNames.Nodup) →
        forms.Pairwise (fun own other => own.memberNames.Disjoint other.memberNames) →
          ∀ given, form.shape.accepts (.obj given) = true ↔
            ∀ own ∈ forms, own.shape.accepts (.obj given) = true) := by
  have hobjects : ∀ own ∈ forms, Translated own ∧ own.kind = .object := fun own hown => by
    obtain ⟨entry, -, hform, hkind⟩ := exists_of_mem_of_forall₂ hforms hown
    exact ⟨translated_of_translate hform, hkind⟩
  set flat := forms.flatMap (·.members) with hflat
  have hnames : forms.flatMap (·.memberNames) = flat.map (·.name) := by
    simp only [hflat, Form.memberNames, List.map_flatMap]
  have hmembers : ∀ member ∈ mergeMembers [] flat, ∃ own ∈ forms, member ∈ own.members :=
    forall_mem_mergeMembers fun own hown _ hmember => ⟨own, hown, hmember⟩
  have hsound : ∀ member ∈ mergeMembers [] flat, member.form.shape.isSound = true :=
    fun member hmember => by
      obtain ⟨own, hown, hmember⟩ := hmembers member hmember
      exact ((hobjects own hown).1.isRecord (hobjects own hown).2).sound member hmember
  have hmerged : mergedForm name forms = .ofMembers name (mergeMembers [] flat) := by
    have hlength : 0 < forms.length := by
      rw [← hforms.length_eq, List.length_zipIdx]
      exact length_pos_of_listNamed hall
    obtain ⟨first, rest, rfl⟩ := List.exists_cons_of_length_pos hlength
    refine if_pos (List.all_eq_true.mpr fun own hown => ?_)
    exact beq_iff_eq.mpr (hobjects own hown).2
  have htranslate : translate document pending active node name =
      .ok (annotated fields (.ofMembers name (mergeMembers [] flat))) := by
    have hitems : translateItems document pending (activeBelow active node)
        (node.place.step (.key "allOf")) (name ++ "Part") 0 items = .ok forms :=
      translateItems_eq_ok_iff.mpr (hforms.imp fun _ _ => And.left)
    rw [translate_of_no_ref hnode href hfree, translateFields, hone, hany, hall]
    dsimp only
    rw [hitems]
    exact congrArg (fun form => Except.ok (annotated fields form)) hmerged
  set form := annotated fields (.ofMembers name (mergeMembers [] flat)) with hform
  have hofMembers := ofMembers_of_sound name hsound
  have hkind : form.kind = .object := by rw [hform, annotated_kind, hofMembers]
  have hown : form.members = mergeMembers [] flat := by
    rw [hform, (annotated_spec fields _).2, hofMembers]
  have haccepts := (translated_of_translate htranslate).accepts_object_iff hkind
  refine ⟨form, htranslate, hkind, ?_, ?_, haccepts, fun hdistinct happart given => ?_⟩
  · rw [Form.memberNames, hown, names_mergeMembers, hnames]
    simp [List.removeAll]
  · intro member hmember
    rw [hown] at hmember
    have hfind := find?_mergeMembers [] flat member.name
    rw [List.find?_nil, Option.or_none] at hfind
    rw [← hfind]
    exact find?_name_of_nodup (nodup_mergeMembers (by simp) _) hmember
  · -- Without a name that comes twice nothing is overwritten.
    have hnodup : (flat.map (·.name)).Nodup := by
      rw [← hnames, List.nodup_flatMap]
      exact ⟨hdistinct, happart⟩
    rw [haccepts, hown, mergeMembers_of_nodup hnodup, List.nil_append, hflat,
      List.forall_mem_flatMap]
    exact forall₂_congr fun own hmem =>
      ((hobjects own hmem).1.accepts_object_iff (hobjects own hmem).2 given).symm

/-- An object schema with one property, an integer that must be given. -/
def integerObject (key : String) : List (String × Json) :=
  [("type", .str "object"), ("properties", .obj [(key, integerSchema)]),
    ("required", .arr [.str key])]

/-- The form of an object with one property, an integer that must be given. -/
def integerObjectForm (name key : String) : Form :=
  .ofMembers name [⟨key, true, ⟨.integer, .whole {}, "", []⟩⟩]

theorem memberNames_integerObjectForm (name key : String) :
    (integerObjectForm name key).memberNames = [key] := rfl

theorem translate_integerObject {place : Place} {key : String} (hfree : place ∉ active)
    (hbelow : (place.step (.key "properties")).step (.key key) ∉ place :: active) :
    translate document pending active ⟨.obj (integerObject key), place, false⟩ name =
      .ok (integerObjectForm name key) := by
  have hobject : DescribesObject (integerObject key) [(key, integerSchema)] :=
    ⟨by simp [integerObject, lookupField], rfl, rfl, rfl, rfl, rfl, List.cons_ne_nil _ _⟩
  have hmembers : translateMembers document pending (place :: active)
      (place.step (.key "properties")) name [key] [(key, integerSchema)] =
        .ok [⟨key, true, ⟨.integer, .whole {}, "", []⟩⟩] := by
    rw [translateMembers, translate_integerSchema hbelow, translateMembers]
    simp [Except.map]
  have hrequired : requiredNames (said (integerObject key) "required") = [key] := rfl
  rw [translate_of_no_ref rfl hobject.no_ref (.inr hfree), activeBelow, if_neg (by simp),
    translateFields_of_describesObject hobject, hrequired, hmembers]
  rfl

theorem listedForm_integerObject {keyword called key : String} {n : ℕ}
    (hfree : (node.place.step (.key keyword)).step (.index n) ∉ activeBelow active node)
    (hbelow : ((((node.place.step (.key keyword)).step (.index n)).step (.key "properties")).step
      (.key key)) ∉ (node.place.step (.key keyword)).step (.index n) :: activeBelow active node) :
    listedForm document pending active node keyword called (.obj (integerObject key), n) =
      .ok (integerObjectForm (called ++ Decimal.natText (n + 1)) key) :=
  translate_integerObject hfree hbelow

/-- The schemas of an object with the property `a-b` and of one with `a_b`, the second inside a
list of its own. -/
def twinObjects : List Json :=
  [.obj (integerObject "a-b"), .obj [("allOf", .arr [.obj (integerObject "a_b")])]]

/-- A schema that puts objects together. -/
def allOfNode (items : List Json) (place : Place) : Node :=
  ⟨.obj [("allOf", .arr items)], place, false⟩

theorem allOf_no_ref (items : List Json) (ref : String) :
    lookupField "$ref" [("allOf", Json.arr items)] ≠ some (.str ref) := by
  simp [lookupField]

/-- The second property has another name inside the merged record than inside its own. -/
theorem translate_allOf_objects_twins : ∃ form own other,
    translate .null [] [] (allOfNode twinObjects ⟨.given, []⟩) "Value" = .ok form ∧
      List.Forall₂ (fun entry own => listedForm .null [] [] (allOfNode twinObjects ⟨.given, []⟩)
        "allOf" ("Value" ++ "Part") entry = .ok own ∧ own.kind = .object)
          twinObjects.zipIdx [own, other] ∧
      form.memberNames = ["a-b", "a_b"] ∧
      Naming.attributeNames [] form.memberNames = ["a_b", "a_b_2"] ∧
      ∀ given, form.shape.accepts (.obj given) = true ↔
        own.shape.accepts (.obj given) = true ∧ other.shape.accepts (.obj given) = true := by
  let called := "Value" ++ "Part" ++ Decimal.natText 2
  let node := allOfNode twinObjects ⟨.given, []⟩
  let inner := allOfNode [.obj (integerObject "a_b")] ⟨.given, [.index 1, .key "allOf"]⟩
  -- The second schema is itself one that puts objects together.
  have hinner : List.Forall₂ (fun entry own =>
      listedForm .null [] [node.place] inner "allOf" (called ++ "Part") entry = .ok own ∧
        own.kind = .object) ([Json.obj (integerObject "a_b")].zipIdx)
          [integerObjectForm (called ++ "Part" ++ Decimal.natText 1) "a_b"] :=
    .cons ⟨listedForm_integerObject (by decide) (by decide), rfl⟩ .nil
  obtain ⟨other, hother, hkind, hnames, -⟩ := translate_allOf_objects
    (rfl : inner.value = .obj _) (allOf_no_ref _) (.inr (by decide)) rfl rfl rfl hinner
  have hforms : List.Forall₂ (fun entry own =>
      listedForm .null [] [] node "allOf" ("Value" ++ "Part") entry = .ok own ∧
        own.kind = .object) twinObjects.zipIdx
          [integerObjectForm ("Value" ++ "Part" ++ Decimal.natText 1) "a-b", other] :=
    .cons ⟨listedForm_integerObject (by decide) (by decide), rfl⟩ (.cons ⟨hother, hkind⟩ .nil)
  obtain ⟨form, hform, -, hmemberNames, -, -, haccepts⟩ := translate_allOf_objects
    (rfl : node.value = .obj _) (allOf_no_ref _) (.inr (by decide)) rfl rfl rfl hforms
  have hother : other.memberNames = ["a_b"] := hnames.trans (by decide)
  have hall : form.memberNames = ["a-b", "a_b"] := by
    have hflat : [integerObjectForm ("Value" ++ "Part" ++ Decimal.natText 1) "a-b", other].flatMap
        (·.memberNames) = ["a-b", "a_b"] := by
      simp [memberNames_integerObjectForm, hother]
    rw [hmemberNames, hflat]
    decide
  refine ⟨form, _, other, hform, hforms, hall, ?_, fun given => ?_⟩
  · rw [hall]
    decide +kernel
  · rw [haccepts ?_ ?_]
    · simp
    · simp [memberNames_integerObjectForm, hother]
    · simp [memberNames_integerObjectForm, hother]

end

end Toolgate.Schema
