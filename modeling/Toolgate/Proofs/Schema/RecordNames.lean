import Toolgate.Proofs.Naming.Slug
import Toolgate.Proofs.Schema.Definite

/-!
# Names of records

The record that stands for an object is named by a text of ASCII letters and digits. So are all the
records inside a translated form.

## Main definitions

* `IsPlain`: a text without underscore and hyphen
* `Shape.recordNames`: the names of the records in a shape, in the order of their definitions

## Main statements

* `isPlain_typeName`: the name of a record is plain
* `Translated.namesPlainly`: the records in a translated form have plain names
-/

namespace Toolgate.Schema

/-! ## Plain names -/

/-- A text without underscore and hyphen. -/
def IsPlain (s : String) : Prop :=
  ∀ c ∈ s.toList, c ≠ '_' ∧ c ≠ '-'

/-- A small letter is made a capital, and everything else is left alone. -/
theorem toUpper_cases (c : Char) :
    c.toUpper = c ∨ 65 ≤ c.toUpper.toNat ∧ c.toUpper.toNat ≤ 90 := by
  unfold Char.toUpper
  split
  · next hrange =>
    refine .inr ?_
    rw [UInt32.le_iff_toNat_le, UInt32.le_iff_toNat_le] at hrange
    have hlow : 'a'.val.toNat = 97 := rfl
    have hhigh : 'z'.val.toNat = 122 := rfl
    have hshift : ('A'.val - 'a'.val).toNat = 4294967264 := rfl
    simp only [Char.toNat, UInt32.toNat_add, hshift]
    omega
  · exact .inl rfl

theorem toUpper_ne {c : Char} (h : Text.isAsciiAlnum c = true) :
    c.toUpper ≠ '_' ∧ c.toUpper ≠ '-' := by
  rcases toUpper_cases c with heq | hrange
  · rw [heq]
    constructor <;> rintro rfl <;> exact absurd h (by decide)
  · constructor <;> intro heq <;> rw [heq] at hrange <;> exact absurd hrange (by decide)

theorem isPlain_typeName (s : String) : IsPlain (Naming.typeName s) := by
  have hcapitalized {word : List Char} (hword : ∀ c ∈ word, Text.isAsciiAlnum c = true) :
      ∀ c ∈ Naming.capitalized word, c ≠ '_' ∧ c ≠ '-' := by
    cases word with
    | nil => exact List.forall_mem_nil _
    | cons first rest =>
      obtain ⟨hfirst, hrest⟩ := List.forall_mem_cons.mp hword
      refine List.forall_mem_cons.mpr ⟨toUpper_ne hfirst, fun c hc => ?_⟩
      have hc := hrest c hc
      constructor <;> rintro rfl <;> exact absurd hc (by decide)
  have hwords : ∀ c ∈ (Text.pieces (fun c => !Text.isAsciiAlnum c) s.toList).flatMap
      Naming.capitalized, c ≠ '_' ∧ c ≠ '-' := by
    intro c hc
    obtain ⟨word, hword, hc⟩ := List.mem_flatMap.mp hc
    refine hcapitalized (fun d hd => ?_) c hc
    simpa using Text.not_cut_of_mem_piecesFrom (List.forall_mem_nil _) word hword d hd
  unfold Naming.typeName
  dsimp only
  split
  · simp [IsPlain]
  · next first rest heq =>
    rw [heq] at hwords
    unfold IsPlain
    rw [String.toList_ofList]
    split
    · exact List.forall_mem_cons.mpr ⟨by decide, hwords⟩
    · exact hwords

/-! ## The records in a shape -/

namespace Shape

mutual

/-- The names of the records in a shape, in the order in which they are defined. -/
def recordNames : Shape → List String
  | list item => item.recordNames
  | table value => value.recordNames
  | record name fields => fieldRecordNames fields ++ [name]
  | either variants => variantRecordNames variants
  | optional inner => inner.recordNames
  | described _ inner => inner.recordNames
  | _ => []

/-- The names of the records in the shapes of fields. -/
def fieldRecordNames : List (Field Shape) → List String
  | [] => []
  | ⟨_, _, _, _, shape⟩ :: rest => shape.recordNames ++ fieldRecordNames rest

/-- The names of the records in several shapes. -/
def variantRecordNames : List Shape → List String
  | [] => []
  | shape :: rest => shape.recordNames ++ variantRecordNames rest

end

variable {name : String} {shape : Shape} {shapes : List Shape} {fields : List (Field Shape)}

theorem mem_fieldRecordNames :
    name ∈ fieldRecordNames fields ↔ ∃ field ∈ fields, name ∈ field.shape.recordNames := by
  induction fields with
  | nil => simp [fieldRecordNames]
  | cons field rest ih => simp [fieldRecordNames, ih]

theorem mem_variantRecordNames :
    name ∈ variantRecordNames shapes ↔ ∃ shape ∈ shapes, name ∈ shape.recordNames := by
  induction shapes with
  | nil => simp [variantRecordNames]
  | cons shape rest ih => simp [variantRecordNames, ih]

theorem recordNames_orNull (shape : Shape) : shape.orNull.recordNames = shape.recordNames := by
  cases shape <;> simp [orNull, recordNames]

theorem recordNames_withDescription (shape : Shape) (description : String) :
    (shape.withDescription description).recordNames = shape.recordNames := by
  unfold withDescription
  split <;> simp [recordNames]

/-- The variants that a shape brings into an alternative have its records. -/
theorem mem_recordNames_of_mem_variants {variant : Shape} (hvariant : variant ∈ shape.variants)
    (h : name ∈ variant.recordNames) : name ∈ shape.recordNames := by
  cases shape with
  | either variants =>
    rw [recordNames, mem_variantRecordNames]
    exact ⟨variant, hvariant, h⟩
  | optional inner =>
    cases inner with
    | either variants =>
      rw [recordNames, recordNames, mem_variantRecordNames]
      exact ⟨variant, hvariant, h⟩
    | _ => exact List.mem_singleton.mp hvariant ▸ h
  | _ => exact List.mem_singleton.mp hvariant ▸ h

theorem mem_recordNames_oneOf :
    name ∈ (oneOf shapes).recordNames ↔ ∃ shape ∈ shapes, name ∈ shape.recordNames := by
  unfold oneOf
  split
  · simp
  · rw [recordNames, mem_variantRecordNames]

/-- Alternatives have only records of the shapes they are made of. -/
theorem exists_of_mem_recordNames_unite (h : name ∈ (unite shapes).recordNames) :
    ∃ shape ∈ shapes, name ∈ shape.recordNames := by
  have hcore : name ∈ (oneOf (distinctFrom [] (shapes.flatMap variants))).recordNames := by
    unfold unite at h
    dsimp only at h
    split at h
    · rwa [recordNames] at h
    · exact h
  obtain ⟨variant, hvariant, hname⟩ := mem_recordNames_oneOf.mp hcore
  obtain ⟨shape, hshape, hvariant⟩ := List.mem_flatMap.mp (mem_of_mem_distinctFrom hvariant)
  exact ⟨shape, hshape, mem_recordNames_of_mem_variants hvariant hname⟩

/-- The records in a shape have plain names. -/
def NamesPlainly (shape : Shape) : Prop :=
  ∀ name ∈ shape.recordNames, IsPlain name

end Shape

/-! ## The records in a form -/

/-- The records in the shapes of a form and of its members have plain names. -/
structure Form.NamesPlainly (form : Form) : Prop where
  shape : form.shape.NamesPlainly
  members : ∀ member ∈ form.members, member.form.shape.NamesPlainly

section
variable {form : Form} {members : List (Member Form)}

theorem Form.namesPlainly_of_no_record (h : form.shape.recordNames = [])
    (hmembers : form.members = []) : form.NamesPlainly :=
  ⟨by simp [Shape.NamesPlainly, h], by simp [hmembers]⟩

theorem Form.NamesPlainly.describedShape (h : form.NamesPlainly) :
    form.describedShape.NamesPlainly := by
  rw [Form.describedShape, Shape.NamesPlainly, Shape.recordNames_withDescription]
  exact h.shape

theorem namesPlainly_fieldsOf (taken : List String)
    (h : ∀ member ∈ members, member.form.shape.NamesPlainly) :
    ∀ field ∈ fieldsOf taken members, field.shape.NamesPlainly := by
  refine forall_shape_fieldsOf (fun shape hplain => ?_) h
  rwa [Shape.NamesPlainly, Shape.recordNames_orNull]

theorem namesPlainly_ofMembers (name : String)
    (h : ∀ member ∈ members, member.form.shape.NamesPlainly) :
    (Form.ofMembers name members).NamesPlainly := by
  unfold Form.ofMembers recordOf?
  dsimp only
  split_ifs
  · refine ⟨fun record hrecord => ?_, h⟩
    simp only [Shape.recordNames, List.mem_append, List.mem_singleton,
      Shape.mem_fieldRecordNames] at hrecord
    rcases hrecord with ⟨field, hfield, hrecord⟩ | rfl
    · exact namesPlainly_fieldsOf [] h field hfield record hrecord
    · exact isPlain_typeName name
  · exact Form.namesPlainly_of_no_record rfl rfl

theorem Translated.namesPlainly (h : Translated form) : form.NamesPlainly := by
  induction h with
  | anything | whole | number | truth | bareList | looseObject =>
    exact Form.namesPlainly_of_no_record rfl rfl
  | text h =>
    obtain ⟨hmembers, hshape⟩ := textForm_cases h
    refine Form.namesPlainly_of_no_record ?_ hmembers
    rcases hshape with hshape | hshape | ⟨limits, hshape⟩ <;> rw [hshape] <;> rfl
  | list _ ih => exact ⟨ih.describedShape, List.forall_mem_nil _⟩
  | table _ ih => exact ⟨ih.describedShape, List.forall_mem_nil _⟩
  | object name _ ih =>
    exact namesPlainly_ofMembers name fun member hmember => (ih member hmember).shape
  | @united forms hne _ ih =>
    unfold unitedForm
    split
    · exact ih _ List.mem_cons_self
    · refine ⟨fun record hrecord => ?_, by simp⟩
      obtain ⟨shape, hshape, hrecord⟩ := Shape.exists_of_mem_recordNames_unite hrecord
      obtain ⟨form, hform, rfl⟩ := List.mem_map.mp hshape
      exact (ih form hform).describedShape record hrecord
  | @merged name forms _ ih =>
    unfold mergedForm
    split
    · exact Form.namesPlainly_of_no_record rfl rfl
    · next first rest =>
      split
      · exact namesPlainly_ofMembers name (forall_mem_mergeMembers fun form hform =>
          (ih form hform).members)
      · exact ih _ List.mem_cons_self
  | @annotated fields form _ ih =>
    obtain ⟨hshape, hmembers⟩ := annotated_spec fields form
    refine ⟨?_, hmembers ▸ ih.members⟩
    rcases hshape with hshape | hshape <;> rw [hshape]
    · exact ih.shape
    · rw [Shape.NamesPlainly, Shape.recordNames_orNull]
      exact ih.shape

end

end Toolgate.Schema
