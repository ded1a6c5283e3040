import Toolgate.Proofs.Schema.Akin

/-!
# Two spellings of a type with null

A type with null beside it is spelled in two ways: as a list of the type and `null`, or as the type
alone with a flag. Only the flag lets null in. From a list the first entry other than `null` is
taken, and that null was listed is forgotten. For all other values, both spellings come to the same.

## Main definitions

* `ListsNull`: the fields list a type beside null
* `flagged`: the same fields with the type alone and the flag
* `LetsNullIn`: what lets null in where it is listed beside a type
* `IsRespelling`, `Respells`: a form and a result that differ from others for null alone

## Main statements

* `respells_translate`: the two spellings come to the same but for null
* `takes_null_translateFields_iff`: when null is accepted where it is listed
* `spellings_agree_iff`: on which values, and when, the spellings agree
-/

namespace Toolgate.Schema

/-- The fields list one type beside null, in either order. -/
def ListsNull (fields : List (String × Json)) (named : String) : Prop :=
  lookupField "type" fields = some (.arr [.str named, .str "null"]) ∨
    lookupField "type" fields = some (.arr [.str "null", .str named])

/-- The fields with the type alone, and with the flag that lets null in. -/
def flagged (named : String) (fields : List (String × Json)) : List (String × Json) :=
  setField "nullable" (.bool true) (setField "type" (.str named) fields)

section
variable {fields : List (String × Json)} {named : String}

/-! ## What is said in either spelling -/

theorem lookupField_flagged {key : String} (htype : key ≠ "type") (hnullable : key ≠ "nullable") :
    lookupField key (flagged named fields) = lookupField key fields := by
  rw [flagged, lookupField_setField_of_ne hnullable, lookupField_setField_of_ne htype]

theorem said_flagged {key : String} (htype : key ≠ "type") (hnullable : key ≠ "nullable") :
    said (flagged named fields) key = said fields key := by
  rw [said, lookupField_flagged htype hnullable]

theorem said_type_flagged : said (flagged named fields) "type" = .str named := by
  rw [said, flagged, lookupField_setField_of_ne (by decide), lookupField_setField_self,
    Option.getD_some]

theorem said_nullable_flagged : said (flagged named fields) "nullable" = .bool true := by
  rw [said, flagged, lookupField_setField_self, Option.getD_some]

theorem listNamed?_flagged {key : String} (htype : key ≠ "type") (hnullable : key ≠ "nullable") :
    listNamed? (flagged named fields) key = listNamed? fields key := by
  rw [listNamed?, lookupField_flagged htype hnullable, listNamed?]

theorem typeNamed?_of_listsNull (h : ListsNull fields named) :
    typeNamed? (said fields "type") = if named = "null" then none else some named := by
  rcases h with h | h <;> by_cases hnamed : named = "null" <;>
    simp [said, h, typeNamed?, hnamed]

theorem textForm_flagged : textForm (flagged named fields) = textForm fields := by
  simp [textForm, said_flagged]

theorem boundsOf_flagged : boundsOf (flagged named fields) = boundsOf fields := by
  simp [boundsOf, said_flagged]

section
variable {document : Json} {pending : List String} {active : List Place} {place : Place}
  {name : String}

/-- The types that are told apart. -/
def knownTypes : List String :=
  ["string", "integer", "number", "boolean", "array", "object"]

/-- A type that is not known asks for nothing. -/
theorem translateFields_of_unknown (hone : listNamed? fields "oneOf" = none)
    (hany : listNamed? fields "anyOf" = none) (hall : listNamed? fields "allOf" = none)
    (htype : ∀ known ∈ knownTypes, typeNamed? (said fields "type") ≠ some known) :
    ∃ note, translateFields document pending active place fields name = .ok (.anything note) := by
  simp only [knownTypes, List.forall_mem_cons, List.not_mem_nil, false_implies, implies_true,
    and_true] at htype
  obtain ⟨hstring, hinteger, hnumber, hboolean, harray, hobject⟩ := htype
  rw [translateFields, hone, hany, hall]
  dsimp only
  split
  · exact ⟨_, rfl⟩
  · next heq => exact absurd heq hstring
  · next heq => exact absurd heq hinteger
  · next heq => exact absurd heq hnumber
  · next heq => exact absurd heq hboolean
  · next heq => exact absurd heq harray
  · next heq => exact absurd heq hobject
  · exact ⟨_, rfl⟩

/-- The keywords ask for the same form in either spelling; only a type that is not known may be
noted differently. -/
theorem translateFields_flagged (h : ListsNull fields named) :
    translateFields document pending active place (flagged named fields) name =
        translateFields document pending active place fields name ∨
      ∃ note note',
        translateFields document pending active place fields name = .ok (.anything note) ∧
        translateFields document pending active place (flagged named fields) name =
          .ok (.anything note') := by
  have htype := typeNamed?_of_listsNull h
  have hlisted (key : String) (hkey : key ∈ ["oneOf", "anyOf", "allOf"]) :
      listNamed? (flagged named fields) key = listNamed? fields key := by
    refine listNamed?_flagged ?_ ?_ <;> rintro rfl <;> exact absurd hkey (by decide)
  have hone := hlisted "oneOf" (by decide)
  have hany := hlisted "anyOf" (by decide)
  have hall := hlisted "allOf" (by decide)
  by_cases hplain : listNamed? fields "oneOf" = none ∧ listNamed? fields "anyOf" = none ∧
      listNamed? fields "allOf" = none
  · obtain ⟨hone', hany', hall'⟩ := hplain
    by_cases hknown : named ∈ knownTypes
    · left
      have hnull : named ≠ "null" := by
        rintro rfl
        exact absurd hknown (by decide)
      rw [translateFields, translateFields, hone, hany, hall, hone', hany', hall', htype,
        if_neg hnull, said_type_flagged, typeNamed?, textForm_flagged, boundsOf_flagged,
        lookupField_flagged (by decide) (by decide), lookupField_flagged (by decide) (by decide),
        lookupField_flagged (by decide) (by decide), said_flagged (by decide) (by decide)]
      simp only [knownTypes, List.mem_cons, List.not_mem_nil, or_false] at hknown
      rcases hknown with rfl | rfl | rfl | rfl | rfl | rfl <;> rfl
    · right
      have hother (known : String) (hmem : known ∈ knownTypes) : some named ≠ some known := by
        rintro heq
        exact hknown (Option.some.inj heq ▸ hmem)
      obtain ⟨note, hnote⟩ : ∃ note, translateFields document pending active place fields name =
          .ok (.anything note) :=
        translateFields_of_unknown hone' hany' hall' fun known hmem => by
          rw [htype]
          split
          · exact nofun
          · exact hother known hmem
      obtain ⟨note', hnote'⟩ : ∃ note, translateFields document pending active place
          (flagged named fields) name = .ok (.anything note) :=
        translateFields_of_unknown (hone.trans hone') (hany.trans hany') (hall.trans hall')
          fun known hmem => by
          rw [said_type_flagged]
          exact hother known hmem
      exact ⟨note, note', hnote, hnote'⟩
  · left
    rw [translateFields, translateFields, hone, hany, hall]
    split
    · rfl
    split
    · rfl
    split
    · rfl
    · exact absurd ⟨‹_›, ‹_›, ‹_›⟩ hplain

end

/-! ## When null is accepted -/

theorem null_mem_membersFrom_iff {kept items : List Json} :
    .null ∈ membersFrom kept items ↔ .null ∈ kept ∨ .null ∈ items := by
  induction items generalizing kept with
  | nil => simp [membersFrom]
  | cons v rest ih =>
    rw [membersFrom]
    split
    · rw [ih, List.mem_cons, List.mem_cons, or_assoc, or_left_comm]
    · next hold =>
      have hkept : .null = v → .null ∈ kept := by
        rintro rfl
        obtain ⟨w, hw, hsame⟩ : ∃ w ∈ kept, Json.same .null w = true := by
          simpa [isMember] using hold
        exact eq_null_of_same hsame ▸ hw
      rw [ih, List.mem_cons, ← or_assoc, or_iff_left_of_imp (a := .null ∈ kept) hkept]

theorem null_mem_enumMembers_iff {v : Json} :
    .null ∈ enumMembers v ↔ ∃ items, v = .arr items ∧ .null ∈ items := by
  cases v with
  | arr items => simp [enumMembers, null_mem_membersFrom_iff]
  | _ => simp [enumMembers]

/-- A text is null only where null is listed among its values. -/
theorem takes_null_textForm_iff {inRecord : Bool} {form : Form} (h : textForm fields = .ok form) :
    form.shape.Takes inRecord .null ↔ .null ∈ enumMembers (said fields "enum") := by
  have hsame (member : Json) : member.same .null = true ↔ member = .null := by
    cases member <;> simp [Json.same, Json.number?]
  unfold textForm at h
  dsimp only at h
  split at h
  · obtain rfl := Except.ok.inj h
    rw [takes_choice_iff]
    simp [hsame]
  · next hempty =>
    have hnone : enumMembers (said fields "enum") = [] := by simpa using hempty
    obtain ⟨isDate, -, h⟩ := bind_eq_ok.mp h
    rw [hnone]
    split at h
    · obtain rfl := Except.ok.inj h
      rw [dateShape, takes_either_iff]
      simp [Shape.Takes, accept, readText, settle, complain]
    · obtain ⟨pattern, -, h⟩ := bind_eq_ok.mp h
      obtain rfl := Except.ok.inj h
      simp [Shape.Takes, accept, readText, settle, complain]

/-- What lets null in where it is listed beside a type: the flag, a type that is not known, or null
among the values of a text. -/
def LetsNullIn (fields : List (String × Json)) (named : String) : Prop :=
  said fields "nullable" = .bool true ∨ named ∉ knownTypes ∨
    named = "string" ∧ ∃ items, said fields "enum" = .arr items ∧ .null ∈ items

/-- The fields are put together from no other schemas. -/
structure IsUncombined (fields : List (String × Json)) : Prop where
  no_oneOf : listNamed? fields "oneOf" = none
  no_anyOf : listNamed? fields "anyOf" = none
  no_allOf : listNamed? fields "allOf" = none

/-- The form that the keywords of a plain schema ask for accepts null where the type is not known or
null is among the values of a text. -/
theorem takes_null_translateFields_iff {document : Json} {pending : List String}
    {active : List Place} {place : Place} {name : String} {form : Form}
    (hplain : IsUncombined fields) (hlists : ListsNull fields named)
    (h : translateFields document pending active place fields name = .ok form) (inRecord : Bool) :
    form.shape.Takes inRecord .null ↔ named ∉ knownTypes ∨
      named = "string" ∧ ∃ items, said fields "enum" = .arr items ∧ .null ∈ items := by
  have htype := typeNamed?_of_listsNull hlists
  have hnamed {known : String} (heq : (if named = "null" then none else some named) = some known) :
      named = known := by
    split at heq
    · cases heq
    · exact Option.some.inj heq
  have hanything : Shape.anything.Takes inRecord .null := ⟨_, _, by rw [accept]⟩
  rw [translateFields, hplain.no_oneOf, hplain.no_anyOf, hplain.no_allOf, htype] at h
  dsimp only at h
  split at h
  case h_1 heq =>
    obtain rfl : named = "null" := by simpa using heq
    exact Except.ok.inj h ▸ iff_of_true hanything (.inl (by decide))
  case h_2 heq =>
    obtain rfl := hnamed heq
    rw [takes_null_textForm_iff h, null_mem_enumMembers_iff]
    simp [knownTypes]
  case h_3 heq =>
    obtain rfl := hnamed heq
    obtain rfl := Except.ok.inj h
    simp [knownTypes, Shape.Takes, accept, readWhole, settle, complain]
  case h_4 heq =>
    obtain rfl := hnamed heq
    obtain rfl := Except.ok.inj h
    simp [knownTypes, Shape.Takes, accept, readNumber, settle, complain]
  case h_5 heq =>
    obtain rfl := hnamed heq
    obtain rfl := Except.ok.inj h
    simp [knownTypes, Shape.Takes, accept, readTruth, settle, complain]
  case h_6 heq =>
    obtain rfl := hnamed heq
    obtain ⟨item, hshape⟩ : ∃ item, form.shape = .list item := by
      split at h
      · split at h
        · obtain ⟨inner, -, rfl⟩ := map_eq_ok.mp h
          exact ⟨_, rfl⟩
        · exact Except.ok.inj h ▸ ⟨_, rfl⟩
      · exact Except.ok.inj h ▸ ⟨_, rfl⟩
    simp [knownTypes, hshape, Shape.Takes, accept, complain]
  case h_7 heq =>
    obtain rfl := hnamed heq
    have hobject : (∃ value, form.shape = .table value) ∨
        ∃ called members, form.shape = .record called members := by
      split at h
      · obtain ⟨members, -, rfl⟩ := map_eq_ok.mp h
        unfold Form.ofMembers recordOf?
        dsimp only
        split_ifs
        · exact .inr ⟨_, _, rfl⟩
        · exact .inl ⟨_, rfl⟩
      · split at h
        · obtain ⟨inner, -, rfl⟩ := map_eq_ok.mp h
          exact .inl ⟨_, rfl⟩
        · exact Except.ok.inj h ▸ .inl ⟨_, rfl⟩
    rcases hobject with ⟨value, hshape⟩ | ⟨called, members, hshape⟩ <;>
      simp [knownTypes, hshape, Shape.Takes, accept, complain]
  case h_8 other hstring hinteger hnumber hboolean harray hobject heq =>
    obtain rfl := hnamed heq
    exact Except.ok.inj h ▸ iff_of_true hanything (.inl (by simp_all [knownTypes]))

/-! ## The forms of the two spellings -/

/-- The second form is that of the schema with the flag. It is like the first for all values but
null, and accepts null unless the schema is a reference, beside which nothing else counts. -/
structure IsRespelling (fields : List (String × Json)) (form spelled : Form) : Prop where
  kind : spelled.kind = form.kind
  isSound : spelled.shape.isSound = form.shape.isSound
  accept_eq : ∀ inRecord v, v ≠ .null →
    accept inRecord spelled.shape v = accept inRecord form.shape v
  takes_null_iff : ∀ inRecord, spelled.shape.Takes inRecord .null ↔
    (∀ ref, lookupField "$ref" fields ≠ some (.str ref)) ∨ form.shape.Takes inRecord .null

/-- The results for the two spellings: both have a form, or both stop for the same cause. -/
inductive Respells (fields : List (String × Json)) :
    Except TranslationError Form → Except TranslationError Form → Prop where
  | error (cause : TranslationError) : Respells fields (.error cause) (.error cause)
  | ok {form spelled : Form} (h : IsRespelling fields form spelled) :
      Respells fields (.ok form) (.ok spelled)

theorem respells_of_ref {ref : String} (href : lookupField "$ref" fields = some (.str ref))
    (result : Except TranslationError Form) : Respells fields result result := by
  cases result with
  | error cause => exact .error cause
  | ok form =>
    refine .ok ⟨rfl, rfl, fun _ _ _ => rfl, fun _ => (or_iff_right ?_).symm⟩
    exact fun hno => hno ref href

/-- Annotations do not change what becomes of values that are not null. -/
theorem accept_annotated (fields : List (String × Json)) (form : Form) {inRecord : Bool} {v : Json}
    (hv : v ≠ .null) :
    accept inRecord (annotated fields form).shape v = accept inRecord form.shape v := by
  rcases (annotated_spec fields form).1 with hshape | hshape <;> rw [hshape]
  exact accept_orNull hv

theorem isRespelling_annotated {form spelled : Form}
    (href : ∀ ref, lookupField "$ref" fields ≠ some (.str ref)) (hkind : spelled.kind = form.kind)
    (hshape : spelled.shape = form.shape) (htranslated : Translated spelled) :
    IsRespelling fields (annotated fields form) (annotated (flagged named fields) spelled) where
  kind := by rw [annotated_kind, annotated_kind, hkind]
  isSound := by rw [isSound_annotated, isSound_annotated, hshape]
  accept_eq inRecord v hv := by rw [accept_annotated _ _ hv, accept_annotated _ _ hv, hshape]
  takes_null_iff inRecord := by
    rw [takes_annotated_iff htranslated, said_nullable_flagged]
    exact iff_of_true (.inl ⟨rfl, rfl⟩) (.inl href)

section
variable {document : Json} {place : Place} {altered : Bool} {name : String}

/-- Wherever a node stands, its two spellings come to the same but for null. -/
theorem respells_translate {pending : List String} {active : List Place}
    (h : ListsNull fields named) :
    Respells fields (translate document pending active ⟨.obj fields, place, altered⟩ name)
      (translate document pending active ⟨.obj (flagged named fields), place, altered⟩ name) := by
  have hlookup : lookupField "$ref" (flagged named fields) = lookupField "$ref" fields :=
    lookupField_flagged (by decide) (by decide)
  by_cases href : ∃ ref, lookupField "$ref" fields = some (.str ref)
  · obtain ⟨ref, href⟩ := href
    rw [translate_of_ref rfl href, translate_of_ref rfl (hlookup.trans href),
      said_flagged (by decide) (by decide)]
    exact respells_of_ref href _
  rw [not_exists] at href
  have hrefs : ∀ ref, lookupField "$ref" (flagged named fields) ≠ some (.str ref) := by
    rwa [hlookup]
  by_cases hcircular : altered = false ∧ place ∈ active
  · obtain ⟨rfl, hactive⟩ := hcircular
    rw [translate_of_circular rfl href rfl hactive, translate_of_circular rfl hrefs rfl hactive]
    exact .ok ⟨rfl, rfl, fun _ _ _ => rfl,
      fun _ => iff_of_true ⟨_, _, by rw [Form.anything, accept]⟩ (.inl href)⟩
  have hfree : altered = true ∨ place ∉ active := by
    rwa [not_and_or, Bool.not_eq_false] at hcircular
  rw [translate_of_no_ref rfl href hfree, translate_of_no_ref rfl hrefs hfree]
  simp only [activeBelow]
  rcases translateFields_flagged h with heq | ⟨note, note', hnote, hnote'⟩
  · rw [heq]
    cases hform : translateFields document pending (if altered = true then active
        else place :: active) place fields name with
    | error cause => exact .error cause
    | ok form =>
      exact .ok (isRespelling_annotated href rfl rfl (translated_of_translateFields hform))
  · rw [hnote, hnote']
    exact .ok (isRespelling_annotated href rfl rfl (.anything note'))

/-- The form of a node by itself does not depend on which other texts may be followed. -/
theorem translate_eq_formOf (node : Node) {refs : List String} (hnode : node.altered = false)
    (hdocument : refTexts document ⊆ refs) (hvalue : refTexts node.value ⊆ refs) :
    translate document refs [] node name = formOf document node name := by
  have hbeside := Network.covers_nodesBeside document node
  have hcovers : Network.Covers document (nodesBeside document node) refs :=
    ⟨hbeside.closed, hbeside.unaltered, fun other hother =>
      List.Subset.trans (hbeside.refTexts other hother)
        (List.append_subset.mpr ⟨hdocument, hvalue⟩)⟩
  have hform := formAt_start_eq_formOf hcovers (mem_nodesBeside document hnode) name
  rw [formAt_start] at hform
  exact mapError_injective (fun _ _ => Halt.fault.inj) hform

theorem refTextsFields_cons (key : String) (v : Json) (rest : List (String × Json)) :
    refTextsFields ((key, v) :: rest) = refTextsFields [(key, v)] ++ refTextsFields rest := by
  cases v <;> simp only [refTextsFields, List.append_nil]
  split <;> rfl

/-- Writing a field that holds no reference adds no text to follow. -/
theorem refTextsFields_setField_subset {key : String} {v : Json} (hkey : key ≠ "$ref")
    (hv : refTexts v = []) (fields : List (String × Json)) :
    refTextsFields (setField key v fields) ⊆ refTextsFields fields := by
  have hnone : refTextsFields [(key, v)] = [] := by
    cases v <;> simp_all [refTextsFields]
  induction fields with
  | nil => rw [setField, hnone]; exact List.Subset.refl _
  | cons field rest ih =>
    obtain ⟨k, w⟩ := field
    rw [setField]
    split
    · next heq =>
      rw [beq_iff_eq.mp heq, refTextsFields_cons, hnone, List.nil_append, refTextsFields_cons]
      exact List.subset_append_right _ _
    · rw [refTextsFields_cons, refTextsFields_cons k w rest]
      exact List.append_subset.mpr ⟨List.subset_append_left _ _,
        List.Subset.trans ih (List.subset_append_right _ _)⟩

theorem refTexts_flagged_subset (fields : List (String × Json)) (named : String) :
    refTexts (.obj (flagged named fields)) ⊆ refTexts (.obj fields) := by
  rw [refTexts, refTexts, flagged]
  exact List.Subset.trans (refTextsFields_setField_subset (by decide) (by simp [refTexts]) _)
    (refTextsFields_setField_subset (by decide) (by simp [refTexts]) _)

theorem respells_formOf (h : ListsNull fields named) :
    Respells fields (formOf document ⟨.obj fields, place, false⟩ name)
      (formOf document ⟨.obj (flagged named fields), place, false⟩ name) := by
  have hrefs : refTexts (.obj (flagged named fields)) ⊆
      refTexts document ++ refTexts (.obj fields) :=
    List.Subset.trans (refTexts_flagged_subset fields named) (List.subset_append_right _ _)
  rw [← translate_eq_formOf ⟨.obj (flagged named fields), place, false⟩ rfl
    (List.subset_append_left _ _) hrefs]
  exact respells_translate h

end

/-- The spellings agree on all values just when null is accepted in either case. -/
theorem IsRespelling.agree_iff {form spelled : Form} (h : IsRespelling fields form spelled) :
    (∀ inRecord v, spelled.shape.Takes inRecord v ↔ form.shape.Takes inRecord v) ↔
      (∃ ref, lookupField "$ref" fields = some (.str ref)) ∨
        ∀ inRecord, form.shape.Takes inRecord .null := by
  have hothers {inRecord : Bool} {v : Json} (hv : v ≠ .null) :
      spelled.shape.Takes inRecord v ↔ form.shape.Takes inRecord v := by
    rw [Shape.Takes, h.accept_eq inRecord v hv, Shape.Takes]
  constructor
  · intro hagree
    by_cases href : ∃ ref, lookupField "$ref" fields = some (.str ref)
    · exact .inl href
    · rw [not_exists] at href
      refine .inr fun inRecord => (hagree inRecord .null).mp ?_
      exact (h.takes_null_iff inRecord).mpr (.inl href)
  · intro hnull inRecord v
    by_cases hv : v = .null
    · subst hv
      rw [h.takes_null_iff inRecord]
      refine or_iff_right_of_imp fun hno => ?_
      rcases hnull with ⟨ref, href⟩ | hnull
      · exact absurd href (hno ref)
      · exact hnull inRecord
    · exact hothers hv

/-- What may be left out may be null anyway, so that the spellings agree there. -/
theorem IsRespelling.takes_orNull_iff {form spelled : Form} (h : IsRespelling fields form spelled)
    (inRecord : Bool) (v : Json) :
    spelled.shape.orNull.Takes inRecord v ↔ form.shape.orNull.Takes inRecord v := by
  rw [Schema.takes_orNull_iff, Schema.takes_orNull_iff]
  refine or_congr_right' fun hv => ?_
  rw [Shape.Takes, h.accept_eq inRecord v hv, Shape.Takes]

/-- A schema that lists one type beside null and the same schema with the type alone and the flag
have forms together, or stop for the same cause, wherever they stand. Their forms are alike and take
the same values but null in the same way; where a member need not be given, they take the same
values altogether. Null is taken by the second unless the schema is a reference, but by the first
only where something else lets it in: that null is listed beside the type does not. So the spellings
agree just when the schema is a reference or accepts null already. -/
theorem spellings_agree_iff {document : Json} {place : Place} {name : String}
    (h : ListsNull fields named) :
    (∀ pending active altered,
      Respells fields (translate document pending active ⟨.obj fields, place, altered⟩ name)
        (translate document pending active ⟨.obj (flagged named fields), place, altered⟩ name)) ∧
    Respells fields (formOf document ⟨.obj fields, place, false⟩ name)
      (formOf document ⟨.obj (flagged named fields), place, false⟩ name) ∧
    ∀ form spelled, formOf document ⟨.obj fields, place, false⟩ name = .ok form →
      formOf document ⟨.obj (flagged named fields), place, false⟩ name = .ok spelled →
      (∀ inRecord v, spelled.shape.orNull.Takes inRecord v ↔ form.shape.orNull.Takes inRecord v) ∧
      ((∀ inRecord v, spelled.shape.Takes inRecord v ↔ form.shape.Takes inRecord v) ↔
        (∃ ref, lookupField "$ref" fields = some (.str ref)) ∨
          ∀ inRecord, form.shape.Takes inRecord .null) ∧
      (IsUncombined fields → (∀ ref, lookupField "$ref" fields ≠ some (.str ref)) → ∀ inRecord,
        (form.shape.Takes inRecord .null ↔ LetsNullIn fields named)) := by
  refine ⟨fun pending active altered => respells_translate h, respells_formOf h,
    fun form spelled hform hspelled => ?_⟩
  have hrespells : Respells fields (formOf document ⟨.obj fields, place, false⟩ name)
      (formOf document ⟨.obj (flagged named fields), place, false⟩ name) := respells_formOf h
  rw [hform, hspelled] at hrespells
  cases hrespells with
  | ok hrespelling =>
    refine ⟨hrespelling.takes_orNull_iff, hrespelling.agree_iff, fun hplain href inRecord => ?_⟩
    rw [formOf, translate_of_no_ref rfl href (.inr List.not_mem_nil)] at hform
    obtain ⟨inner, hinner, rfl⟩ := map_eq_ok.mp hform
    rw [takes_annotated_iff (translated_of_translateFields hinner),
      takes_null_translateFields_iff hplain h hinner, LetsNullIn, and_iff_left rfl]

end

/-! ### Null listed beside a type -/

/-- A schema of integers that lists null first. -/
def countFields : List (String × Json) :=
  [("type", .arr [.str "null", .str "integer"]), ("minimum", .int 0)]

theorem formOf_countFields :
    formOf .null (.ofValue (.obj countFields)) "Value" =
      .ok ⟨.integer, .whole { atLeast := some (.whole 0) }, "", []⟩ :=
  formOf_of_translateWithin rfl (show _ ≤ 60 by decide +kernel) rfl

theorem formOf_flagged_countFields :
    formOf .null (.ofValue (.obj (flagged "integer" countFields))) "Value" =
      .ok ⟨.integer, .optional (.whole { atLeast := some (.whole 0) }), "", []⟩ :=
  formOf_of_translateWithin rfl (show _ ≤ 60 by decide +kernel) rfl

/-- Where nothing else lets null in, the spellings do not agree. -/
theorem spellings_agree_iff_count :
    ListsNull countFields "integer" ∧
    ¬∀ inRecord v,
      (Shape.optional (.whole { atLeast := some (.whole 0) })).Takes inRecord v ↔
        (Shape.whole { atLeast := some (.whole 0) }).Takes inRecord v := by
  have hlists : ListsNull countFields "integer" := .inr rfl
  have href : ∀ ref, lookupField "$ref" countFields ≠ some (.str ref) := by
    simp [countFields, lookupField]
  obtain ⟨-, -, hforms⟩ :=
    @spellings_agree_iff countFields "integer" .null ⟨.given, []⟩ "Value" hlists
  obtain ⟨-, hagree, hnull⟩ := hforms _ _ formOf_countFields formOf_flagged_countFields
  refine ⟨hlists, fun hall => ?_⟩
  rcases hagree.mp hall with ⟨ref, hlookup⟩ | htakes
  · exact href ref hlookup
  · have hlets := (hnull ⟨rfl, rfl, rfl⟩ href false).mp (htakes false)
    simp [LetsNullIn, countFields, said, lookupField, knownTypes] at hlets

/-- Null is listed beside the type, but only the flag lets it in. -/
theorem null_listed_but_refused :
    ∃ form spelled, formOf .null (.ofValue (.obj countFields)) "Value" = .ok form ∧
      formOf .null (.ofValue (.obj (flagged "integer" countFields))) "Value" = .ok spelled ∧
      form.shape.accepts .null = false ∧ spelled.shape.accepts .null = true := by
  refine ⟨_, _, formOf_countFields, formOf_flagged_countFields, ?_, ?_⟩
  · simp [Shape.accepts, Shape.validate, accept, readWhole, settle, complain, Except.map]
  · simp [Shape.accepts, Shape.validate, accept, Json.isNull, Except.map]

end Toolgate.Schema
