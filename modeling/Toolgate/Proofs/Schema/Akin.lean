import Toolgate.Proofs.Schema.Linked

/-!
# Forms that accept the same

Whether values can be checked against a form, and which are accepted, depends on the same of the
forms that it is put together from. Records matter by the names of their members only, descriptions
not at all.

## Main definitions

* `Form.IsAkin`: two forms that accept the same

## Main statements

* `isCongruence_isSound`: what is put together of forms that can be checked can be checked
* `isCongruence_isAkin`: what is put together of forms that accept the same accepts the same
-/

namespace Toolgate.Schema

/-! ## Described and united forms -/

section
variable {inRecord : Bool} {v : Json} {shape : Shape} {form : Form} {forms : List Form}

/-- A description does not change what is accepted. -/
theorem accept_describedShape (form : Form) :
    accept inRecord form.describedShape v = accept inRecord form.shape v := by
  unfold Form.describedShape Shape.withDescription
  split
  · rfl
  · rw [accept]

theorem takes_describedShape_iff :
    form.describedShape.Takes inRecord v ↔ form.shape.Takes inRecord v := by
  rw [Shape.Takes, Shape.Takes, accept_describedShape]

theorem isSound_describedShape (form : Form) :
    form.describedShape.isSound = form.shape.isSound := by
  unfold Form.describedShape Shape.withDescription
  split <;> rfl

theorem Translated.isTidy_describedShape (h : Translated form) : form.describedShape.IsTidy :=
  h.isTidy.withDescription form.description

theorem isTidy_map_describedShape (h : ∀ own ∈ forms, Translated own) :
    ∀ s ∈ forms.map (·.describedShape), s.IsTidy :=
  List.forall_mem_map.mpr fun own hown => (h own hown).isTidy_describedShape

/-- United forms accept what one of them accepts. -/
theorem takes_unitedForm_iff (h : ∀ own ∈ forms, Translated own) :
    (unitedForm forms).shape.Takes inRecord v ↔ ∃ own ∈ forms, own.shape.Takes inRecord v := by
  unfold unitedForm
  split
  · simp
  · have hproper : ∀ s ∈ forms.map (·.describedShape), s.IsProper :=
      List.forall_mem_map.mpr fun own hown => (h own hown).isProper.describedShape
    rw [takes_unite_iff (isTidy_map_describedShape h) hproper]
    simp [takes_describedShape_iff]

theorem isSound_unitedForm_iff (h : ∀ own ∈ forms, Translated own) :
    (unitedForm forms).shape.isSound = true ↔ ∀ own ∈ forms, own.shape.isSound = true := by
  unfold unitedForm
  split
  · simp
  · rw [isSound_unite_iff (isTidy_map_describedShape h), List.forall_mem_map]
    simp only [isSound_describedShape]

/-! ## Annotated forms -/

theorem takes_orNull_iff :
    shape.orNull.Takes inRecord v ↔ v = .null ∨ shape.Takes inRecord v := by
  cases shape with
  | optional inner => simp [Shape.orNull, takes_optional_iff]
  | _ => exact takes_optional_iff

/-- What is listed as anything accepts everything. -/
theorem Translated.shape_of_any (h : Translated form) (hkind : form.kind = .any) :
    form.shape = .anything := by
  induction h with
  | anything => rfl
  | whole | number | truth | list | bareList | table | looseObject => cases hkind
  | text h =>
    rcases kind_textForm h with hown | hown | hown <;> rw [hown] at hkind <;> cases hkind
  | object name =>
    unfold Form.ofMembers at hkind
    split at hkind <;> cases hkind
  | @united forms hne _ ih =>
    unfold unitedForm at hkind ⊢
    split at hkind
    · exact ih _ List.mem_cons_self hkind
    · cases hkind
  | @merged name forms _ ih =>
    unfold mergedForm at hkind ⊢
    split at hkind
    · rfl
    · split_ifs at hkind ⊢
      · unfold Form.ofMembers at hkind
        split at hkind <;> cases hkind
      · exact ih _ List.mem_cons_self hkind
  | @annotated fields form _ ih =>
    rw [annotated_kind] at hkind
    rcases (isAnnotated_annotated fields form).shape with ⟨-, hother, -⟩ | ⟨-, hshape⟩
    · exact absurd hkind hother
    · rw [hshape, ih hkind]

theorem isSound_annotated (fields : List (String × Json)) (form : Form) :
    (annotated fields form).shape.isSound = form.shape.isSound := by
  rcases (isAnnotated_annotated fields form).shape with ⟨-, -, hshape⟩ | ⟨-, hshape⟩ <;> rw [hshape]
  exact isSound_orNull _

/-- A schema that says so lets null in. -/
theorem takes_annotated_iff (h : Translated form) (fields : List (String × Json)) :
    (annotated fields form).shape.Takes inRecord v ↔
      said fields "nullable" = .bool true ∧ v = .null ∨ form.shape.Takes inRecord v := by
  rcases (isAnnotated_annotated fields form).shape with
    ⟨hnullable, -, hshape⟩ | ⟨hkind, hshape⟩ <;> rw [hshape]
  · rw [takes_orNull_iff, and_iff_right hnullable]
  · refine (or_iff_right_of_imp ?_).symm
    rintro ⟨hnullable, -⟩
    rw [h.shape_of_any (hkind hnullable)]
    exact ⟨v, _, by rw [accept]⟩

end

/-! ## Forms that can be checked -/

section
variable {forms others : List Form} {R : Form → Form → Prop}

theorem isSound_ofMembers (name : String) (members : List (Member Form)) :
    (Form.ofMembers name members).shape.isSound = true := by
  unfold Form.ofMembers recordOf?
  dsimp only
  split_ifs <;> rfl

theorem Translated.isSound_of_object {form : Form} (h : Translated form)
    (hobject : form.isObject = true) : form.shape.isSound = true := by
  obtain ⟨⟨called, hshape | hshape⟩, -⟩ := h.isRecord (beq_iff_eq.mp hobject) <;> rw [hshape]
  · rfl
  · rfl

theorem left_of_linked (h : List.Forall₂ (Linked R) forms others) :
    ∀ form ∈ forms, Translated form := by
  intro form hform
  obtain ⟨other, -, hlinked⟩ := exists_of_mem_of_forall₂ h.flip hform
  exact hlinked.left

theorem right_of_linked (h : List.Forall₂ (Linked R) forms others) :
    ∀ other ∈ others, Translated other := by
  intro other hother
  obtain ⟨form, -, hlinked⟩ := exists_of_mem_of_forall₂ h hother
  exact hlinked.right

/-- What is put together of forms that can be checked can be checked. -/
theorem isCongruence_isSound :
    IsCongruence fun form other => form.shape.isSound = true → other.shape.isSound = true where
  refl _ := id
  list {form other} h := by
    change form.describedShape.isSound = true → other.describedShape.isSound = true
    rw [isSound_describedShape, isSound_describedShape]
    exact h.related
  table {form other} h := by
    change form.describedShape.isSound = true → other.describedShape.isSound = true
    rw [isSound_describedShape, isSound_describedShape]
    exact h.related
  object _ name' {_ others} _ _ := isSound_ofMembers name' others
  united {forms others} h := by
    rw [isSound_unitedForm_iff (left_of_linked h), isSound_unitedForm_iff (right_of_linked h)]
    intro hsound other hother
    obtain ⟨form, hform, hlinked⟩ := exists_of_mem_of_forall₂ h hother
    exact hlinked.related (hsound form hform)
  merged name name' {forms others} h := by
    cases h with
    | nil => exact id
    | @cons form other forms others hfirst hrest =>
      unfold mergedForm
      dsimp only
      split_ifs with hall hall'
      · exact fun _ => isSound_ofMembers _ _
      · -- The first of objects can be checked anyway.
        exact fun _ => hfirst.related (hfirst.left.isSound_of_object
          (List.all_eq_true.mp hall form List.mem_cons_self))
      · exact fun _ => isSound_ofMembers _ _
      · exact hfirst.related
  annotated fields {form other} h := by
    rw [isSound_annotated, isSound_annotated]
    exact h.related

end

/-! ## Forms that accept the same -/

/-- Values can be checked against both shapes or neither, and both accept the same. -/
structure Shape.IsAkin (shape other : Shape) : Prop where
  isSound : shape.isSound = other.isSound
  takes (inRecord : Bool) (v : Json) : shape.Takes inRecord v ↔ other.Takes inRecord v

/-- Two members under one name, required or not, that accept the same. -/
structure Member.IsAkin (member other : Member Form) : Prop where
  name : member.name = other.name
  required : member.required = other.required
  shape : member.form.shape.IsAkin other.form.shape

/-- Both forms are those of objects or neither is, and they accept the same. -/
structure Form.IsAkin (form other : Form) : Prop where
  isObject : form.isObject = other.isObject
  shape : form.shape.IsAkin other.shape
  members : List.Forall₂ Member.IsAkin form.members other.members

section
variable {shape other : Shape}

theorem Shape.IsAkin.refl (shape : Shape) : shape.IsAkin shape :=
  ⟨rfl, fun _ _ => Iff.rfl⟩

theorem Form.IsAkin.refl (form : Form) : form.IsAkin form :=
  ⟨rfl, .refl _, List.forall₂_same.mpr fun _ _ => ⟨rfl, rfl, .refl _⟩⟩

theorem Shape.IsAkin.list (h : shape.IsAkin other) (hproper : shape.IsProper)
    (hproper' : other.IsProper) : (Shape.list shape).IsAkin (.list other) where
  isSound := h.isSound
  takes inRecord v := by
    rw [takes_list_iff hproper.complains_self, takes_list_iff hproper'.complains_self]
    simp only [h.takes]

theorem Shape.IsAkin.table (h : shape.IsAkin other) (hproper : shape.IsProper)
    (hproper' : other.IsProper) : (Shape.table shape).IsAkin (.table other) where
  isSound := h.isSound
  takes inRecord v := by
    rw [takes_table_iff hproper.complains_self, takes_table_iff hproper'.complains_self]
    simp only [h.takes]

theorem Form.IsAkin.describedShape {form other : Form} (h : form.IsAkin other) :
    form.describedShape.IsAkin other.describedShape where
  isSound := by rw [isSound_describedShape, isSound_describedShape, h.shape.isSound]
  takes inRecord v := by rw [takes_describedShape_iff, takes_describedShape_iff, h.shape.takes]

end

/-! ### Objects -/

section
variable {member other : Member Form} {members others merged merged' : List (Member Form)}

theorem Member.IsAkin.symm (h : member.IsAkin other) : other.IsAkin member :=
  ⟨h.name.symm, h.required.symm, h.shape.isSound.symm,
    fun inRecord v => (h.shape.takes inRecord v).symm⟩

theorem Member.IsAkin.admits_iff (h : member.IsAkin other) (given : List (String × Json)) :
    member.Admits given ↔ other.Admits given := by
  have transfer {member other : Member Form} (h : member.IsAkin other) :
      member.Admits given → other.Admits given
    | .accepted lookup accepted => by
      obtain ⟨w, fit, haccept⟩ := (h.shape.takes true _).mp ⟨_, _, accepted⟩
      exact .accepted (h.name ▸ lookup) haccept
    | .null lookup optional => .null (h.name ▸ lookup) (h.required ▸ optional)
    | .absent lookup optional => .absent (h.name ▸ lookup) (h.required ▸ optional)
  exact ⟨transfer h, transfer h.symm⟩

theorem all_isSound_of_isAkin (h : List.Forall₂ Member.IsAkin members others) :
    (∀ member ∈ members, member.form.shape.isSound = true) ↔
      ∀ other ∈ others, other.form.shape.isSound = true :=
  forall_mem_iff_of_forall₂ h fun _ _ hakin => by rw [hakin.shape.isSound]

theorem takes_record_fieldsOf_iff (hproper : ∀ member ∈ members, member.form.shape.IsProper)
    {inRecord : Bool} {taken : List String} {called : String} {v : Json} :
    (Shape.record called (fieldsOf taken members)).Takes inRecord v ↔
      ∃ given, v = .obj given ∧ ∀ member ∈ members, member.Admits given := by
  rw [Shape.Takes]
  simp only [accept_record_fieldsOf_iff hproper]
  constructor
  · rintro ⟨_, given, hv, hadmits, -⟩
    exact ⟨given, hv, hadmits⟩
  · rintro ⟨given, hv, hadmits⟩
    exact ⟨_, given, hv, hadmits, rfl⟩

theorem ofMembers_of_unsound (name : String)
    (h : ¬∀ member ∈ members, member.form.shape.isSound = true) :
    Form.ofMembers name members = .looseObject := by
  rw [← all_isSound_fieldsOf_iff []] at h
  simp [Form.ofMembers, recordOf?, h]

/-- Objects with such members accept the same. -/
theorem isAkin_ofMembers (h : List.Forall₂ Member.IsAkin members others)
    (hproper : ∀ member ∈ members, member.form.shape.IsProper)
    (hproper' : ∀ other ∈ others, other.form.shape.IsProper) (name name' : String) :
    (Form.ofMembers name members).IsAkin (Form.ofMembers name' others) := by
  by_cases hsound : ∀ member ∈ members, member.form.shape.isSound = true
  · rw [ofMembers_of_sound name hsound,
      ofMembers_of_sound name' ((all_isSound_of_isAkin h).mp hsound)]
    refine ⟨rfl, ⟨rfl, fun inRecord v => ?_⟩, h⟩
    dsimp only
    rw [takes_record_fieldsOf_iff hproper, takes_record_fieldsOf_iff hproper']
    refine exists_congr fun given => and_congr_right fun _ => ?_
    exact forall_mem_iff_of_forall₂ h fun _ _ hakin => hakin.admits_iff given
  · rw [ofMembers_of_unsound name hsound,
      ofMembers_of_unsound name' (mt (all_isSound_of_isAkin h).mpr hsound)]
    exact .refl _

theorem forall₂_mergeMembers (hmerged : List.Forall₂ Member.IsAkin merged merged')
    (h : List.Forall₂ Member.IsAkin members others) :
    List.Forall₂ Member.IsAkin (mergeMembers merged members) (mergeMembers merged' others) := by
  induction h generalizing merged merged' with
  | nil => exact hmerged
  | @cons member other members others hfirst _ ih =>
    have hknown : merged.any (·.name == member.name) = merged'.any (·.name == other.name) := by
      rw [Bool.eq_iff_iff, List.any_eq_true, List.any_eq_true]
      exact exists_mem_iff_of_forall₂ hmerged fun _ _ hakin => by rw [hakin.name, hfirst.name]
    rw [mergeMembers, mergeMembers, hknown]
    refine ih ?_
    split
    · rw [List.forall₂_map_left_iff, List.forall₂_map_right_iff]
      refine hmerged.imp fun own own' hakin => ?_
      rw [hakin.name, hfirst.name]
      split
      · exact hfirst
      · exact hakin
    · exact List.rel_append hmerged (.cons hfirst .nil)

end

/-! ### Forms put together -/

section
variable {forms others : List Form}

theorem isAkin_unitedForm (h : List.Forall₂ (Linked Form.IsAkin) forms others) :
    (unitedForm forms).IsAkin (unitedForm others) := by
  have hshape : (unitedForm forms).shape.IsAkin (unitedForm others).shape := by
    refine ⟨?_, fun inRecord v => ?_⟩
    · rw [Bool.eq_iff_iff, isSound_unitedForm_iff (left_of_linked h),
        isSound_unitedForm_iff (right_of_linked h)]
      exact forall_mem_iff_of_forall₂ h fun _ _ hlinked => by rw [hlinked.related.shape.isSound]
    · rw [takes_unitedForm_iff (left_of_linked h), takes_unitedForm_iff (right_of_linked h)]
      exact exists_mem_iff_of_forall₂ h fun _ _ hlinked => hlinked.related.shape.takes inRecord v
  refine ⟨?_, hshape, ?_⟩
  all_goals
    cases h with
    | nil => first | rfl | exact .nil
    | cons hfirst hrest =>
      cases hrest with
      | nil => first | exact hfirst.related.isObject | exact hfirst.related.members
      | cons => first | rfl | exact .nil

theorem isAkin_mergedForm (h : List.Forall₂ (Linked Form.IsAkin) forms others)
    (name name' : String) : (mergedForm name forms).IsAkin (mergedForm name' others) := by
  have hall : forms.all Form.isObject = others.all Form.isObject := by
    rw [Bool.eq_iff_iff, List.all_eq_true, List.all_eq_true]
    exact forall_mem_iff_of_forall₂ h fun _ _ hlinked => by rw [hlinked.related.isObject]
  have hmembers : List.Forall₂ Member.IsAkin (mergeMembers [] (forms.flatMap (·.members)))
      (mergeMembers [] (others.flatMap (·.members))) :=
    forall₂_mergeMembers .nil (List.rel_flatMap h fun _ _ hlinked => hlinked.related.members)
  have hproper {forms : List Form} (h : ∀ form ∈ forms, Translated form) :
      ∀ member ∈ mergeMembers [] (forms.flatMap (·.members)), member.form.shape.IsProper :=
    forall_mem_mergeMembers fun form hform => (h form hform).isProper.members
  have hleft := hproper (left_of_linked h)
  have hright := hproper (right_of_linked h)
  cases h with
  | nil => exact .refl _
  | cons hfirst hrest =>
    unfold mergedForm
    dsimp only
    rw [hall]
    split
    · exact isAkin_ofMembers hmembers hleft hright name name'
    · exact hfirst.related

/-- What is put together of forms that accept the same accepts the same. -/
theorem isCongruence_isAkin : IsCongruence Form.IsAkin where
  refl {form} _ := .refl form
  list h := ⟨rfl, h.related.describedShape.list h.left.isProper.describedShape
    h.right.isProper.describedShape, .nil⟩
  table h := ⟨rfl, h.related.describedShape.table h.left.isProper.describedShape
    h.right.isProper.describedShape, .nil⟩
  object name name' {members others} h := by
    have hmembers : List.Forall₂ Member.IsAkin members others :=
      h.imp fun _ _ hlinked => ⟨hlinked.name, hlinked.required, hlinked.form.related.shape⟩
    refine isAkin_ofMembers hmembers (fun member hmember => ?_) (fun other hother => ?_) name name'
    · obtain ⟨other, -, hlinked⟩ := exists_of_mem_of_forall₂ h.flip hmember
      exact hlinked.form.left.isProper.shape
    · obtain ⟨member, -, hlinked⟩ := exists_of_mem_of_forall₂ h hother
      exact hlinked.form.right.isProper.shape
  united h := isAkin_unitedForm h
  merged name name' {_ _} h := isAkin_mergedForm h name name'
  annotated fields {form other} h := by
    refine ⟨?_, ⟨?_, fun inRecord v => ?_⟩, ?_⟩
    · rw [Form.isObject, Form.isObject, annotated_kind, annotated_kind]
      exact h.related.isObject
    · rw [isSound_annotated, isSound_annotated, h.related.shape.isSound]
    · rw [takes_annotated_iff h.left, takes_annotated_iff h.right, h.related.shape.takes]
    · rw [(annotated_spec fields form).2, (annotated_spec fields other).2]
      exact h.related.members

end

end Toolgate.Schema
