import Toolgate.Proofs.Naming.Attribute
import Toolgate.Proofs.Schema.Forms
import Toolgate.Proofs.Schema.Record

/-!
# Objects are checked by wire name

An object schema with properties is compiled to a record with a field for each of them. The field
has a name of its own inside the record, made from the name of the property, but it is found in a
value by the name of the property alone. So what is accepted can be said without those inner names:
each property is given with a value that its own form accepts, or it is missing or null and need
not be there.

## Main definitions

* `Member.Admits`: are given fields fit for a member?
* `DescribesObject`: the fields of a schema of an object with properties
* `propertyForm`, `listedForm`: the form of a property, of a schema in a list

## Main statements

* `accept_record_fieldsOf_iff`: which values are accepted as the record of members
* `translate_object_accepts_iff`: which objects an object schema accepts
-/

namespace Toolgate.Schema

/-! ## Fields and members -/

/-- Are the given fields fit for the member? A member that is required must be given; a value must
be accepted, or be null where the member is not required. -/
inductive Member.Admits (member : Member Form) (given : List (String × Json)) : Prop where
  | accepted {v w : Json} {fit : Fit} (lookup : lookupField member.name given = some v)
      (accepted : accept true member.form.shape v = .ok (w, fit))
  | null (lookup : lookupField member.name given = some .null) (optional : member.required = false)
  | absent (lookup : lookupField member.name given = none) (optional : member.required = false)

/-- What is given under other keys does not count. -/
theorem Member.admits_congr {member : Member Form} {given other : List (String × Json)}
    (h : lookupField member.name given = lookupField member.name other) :
    member.Admits given ↔ member.Admits other := by
  have transfer {given other : List (String × Json)}
      (h : lookupField member.name given = lookupField member.name other) :
      member.Admits given → member.Admits other
    | .accepted lookup accepted => .accepted (h ▸ lookup) accepted
    | .null lookup optional => .null (h ▸ lookup) optional
    | .absent lookup optional => .absent (h ▸ lookup) optional
  exact ⟨transfer h, transfer h.symm⟩

section
variable {inRecord : Bool} {shape : Shape} {v : Json}

/-- With null let in, a value that is not null is checked as before. -/
theorem accept_orNull (hv : v ≠ .null) :
    accept inRecord shape.orNull v = accept inRecord shape v := by
  have hnull : ¬v.isNull = true := by
    cases v <;> simp_all [Json.isNull]
  cases shape <;> simp [Shape.orNull, accept, hnull]

theorem accept_orNull_null (shape : Shape) :
    accept inRecord shape.orNull .null = .ok (.null, {}) := by
  cases shape <;> simp [Shape.orNull, accept, Json.isNull]

theorem isSound_orNull (shape : Shape) : shape.orNull.isSound = shape.isSound := by
  cases shape <;> rfl

end

section
variable {member : Member Form} {members : List (Member Form)} {taken : List String}
  {given : List (String × Json)}

/-- A value is accepted for a member as its form has it, and null where it is not required. -/
theorem Member.exists_accept_toField_iff (name : String) {v : Json} :
    (∃ r, accept true (member.toField name).shape v = .ok r) ↔
      (∃ r, accept true member.form.shape v = .ok r) ∨ v = .null ∧ member.required = false := by
  rw [Member.shape_toField]
  cases member.required with
  | true => simp
  | false =>
    by_cases hv : v = .null
    · subst hv
      simp [accept_orNull_null]
    · simp [accept_orNull hv, hv]

/-- The field of a member is fit where what is given is fit for the member, whatever the field is
called inside the record. -/
theorem Member.isFit_toField_iff (name : String) :
    (member.toField name).IsFit given ↔ member.Admits given := by
  constructor
  · rintro (@⟨v, w, fit, lookup, accepted⟩ | ⟨lookup, optional⟩)
    · rcases (Member.exists_accept_toField_iff name).mp ⟨_, accepted⟩ with
        ⟨r, haccept⟩ | ⟨rfl, hoptional⟩
      · exact .accepted lookup haccept
      · exact .null lookup hoptional
    · exact .absent lookup optional
  · rintro (@⟨v, w, fit, lookup, accepted⟩ | ⟨lookup, optional⟩ | ⟨lookup, optional⟩)
    · obtain ⟨r, haccept⟩ := (Member.exists_accept_toField_iff name).mpr (.inl ⟨_, accepted⟩)
      exact .given lookup haccept
    · obtain ⟨r, haccept⟩ :=
        (Member.exists_accept_toField_iff name).mpr (.inr ⟨rfl, optional⟩)
      exact .given lookup haccept
    · exact .absent lookup optional

theorem wires_fieldsOf (taken : List String) (members : List (Member Form)) :
    (fieldsOf taken members).map (·.wire) = members.map (·.name) := by
  induction members generalizing taken with
  | nil => rfl
  | cons member rest ih => exact congrArg (member.name :: ·) (ih _)

theorem names_fieldsOf (taken : List String) (members : List (Member Form)) :
    (fieldsOf taken members).map (·.name) = Naming.attributeNames taken (members.map (·.name)) := by
  induction members generalizing taken with
  | nil => rfl
  | cons member rest ih =>
    rw [fieldsOf, List.map_cons, ih, List.map_cons, Naming.attributeNames_cons]
    rfl

/-- Inside a record no two fields share a name, and no field has a name that is spoken for. -/
theorem nodup_names_fieldsOf (members : List (Member Form)) :
    ((fieldsOf [] members).map (·.name)).Nodup ∧
      ∀ field ∈ fieldsOf [] members, Naming.IsAttributeName field.name := by
  rw [names_fieldsOf]
  refine ⟨(Naming.nodup_attributeNames [] _).1, fun field hfield => ?_⟩
  refine Naming.isAttributeName_of_mem_attributeNames [] (members.map (·.name)) _ ?_
  rw [← names_fieldsOf]
  exact List.mem_map_of_mem hfield

theorem exists_toField_mem_fieldsOf (h : member ∈ members) :
    ∃ name, member.toField name ∈ fieldsOf taken members := by
  induction members generalizing taken with
  | nil => simp at h
  | cons first rest ih =>
    rw [fieldsOf]
    rcases List.mem_cons.mp h with rfl | h
    · exact ⟨_, List.mem_cons_self⟩
    · obtain ⟨name, hname⟩ := ih h
      exact ⟨name, List.mem_cons_of_mem _ hname⟩

theorem forall_isFit_fieldsOf_iff :
    (∀ field ∈ fieldsOf taken members, field.IsFit given) ↔
      ∀ member ∈ members, member.Admits given := by
  constructor
  · intro hfit member hmember
    obtain ⟨name, hfield⟩ := exists_toField_mem_fieldsOf hmember
    exact (Member.isFit_toField_iff name).mp (hfit _ hfield)
  · intro hadmits field hfield
    obtain ⟨member, hmember, name, rfl⟩ := mem_fieldsOf hfield
    exact (Member.isFit_toField_iff name).mpr (hadmits member hmember)

theorem all_isSound_fieldsOf_iff (taken : List String) :
    ((fieldsOf taken members).all fun field => field.shape.isSound) = true ↔
      ∀ member ∈ members, member.form.shape.isSound = true := by
  have hsound (member : Member Form) (name : String) :
      (member.toField name).shape.isSound = member.form.shape.isSound := by
    rw [Member.shape_toField]
    split
    · rfl
    · exact isSound_orNull _
  rw [List.all_eq_true]
  constructor
  · intro h member hmember
    obtain ⟨name, hfield⟩ := exists_toField_mem_fieldsOf hmember
    exact hsound member name ▸ h _ hfield
  · intro h field hfield
    obtain ⟨member, hmember, name, rfl⟩ := mem_fieldsOf hfield
    exact (hsound member name).trans (h member hmember)

/-- A value is accepted as the record of members when it is an object that is fit for each. -/
theorem accept_record_fieldsOf_iff (h : ∀ member ∈ members, member.form.shape.IsProper)
    {inRecord : Bool} {called : String} {v w : Json} :
    (∃ fit, accept inRecord (.record called (fieldsOf taken members)) v = .ok (w, fit)) ↔
      ∃ given, v = .obj given ∧ (∀ member ∈ members, member.Admits given) ∧
        w = .obj (mergeFields (recordFields given (fieldsOf taken members))) := by
  have hcomplains : ∀ field ∈ fieldsOf taken members, field.shape.Complains :=
    fun field hfield => (isProper_fieldsOf taken h field hfield).complains_self
  rw [accept_record_iff hcomplains]
  simp only [forall_isFit_fieldsOf_iff]

/-- Members that can all be checked have a record. -/
theorem ofMembers_of_sound (name : String)
    (hsound : ∀ member ∈ members, member.form.shape.isSound = true) : Form.ofMembers name members =
      ⟨.object, .record (Naming.typeName name) (fieldsOf [] members), "", members⟩ := by
  rw [← all_isSound_fieldsOf_iff []] at hsound
  simp [Form.ofMembers, recordOf?, hsound]

end

/-! ## Object schemas -/

/-- The fields are those of a schema of an object with properties: it is no reference, is not put
together from other schemas, and lists at least one property. -/
structure DescribesObject (fields properties : List (String × Json)) : Prop where
  no_ref : ∀ ref, lookupField "$ref" fields ≠ some (.str ref)
  no_oneOf : listNamed? fields "oneOf" = none
  no_anyOf : listNamed? fields "anyOf" = none
  no_allOf : listNamed? fields "allOf" = none
  type_eq : typeNamed? (said fields "type") = some "object"
  properties_eq : lookupField "properties" fields = some (.obj properties)
  ne_nil : properties ≠ []

/-- The places of the nodes being translated below a node. A copy that was altered has none. -/
def activeBelow (active : List Place) (node : Node) : List Place :=
  if node.altered then active else node.place :: active

/-- The form of a property of a node. -/
def propertyForm (document : Json) (pending : List String) (active : List Place) (node : Node)
    (name : String) (property : String × Json) : Except TranslationError Form :=
  translate document pending (activeBelow active node)
    ⟨property.2, (node.place.step (.key "properties")).step (.key property.1), false⟩
    (name ++ "_" ++ property.1)

/-- The form of a schema that a keyword of a node lists, given with its index. -/
def listedForm (document : Json) (pending : List String) (active : List Place) (node : Node)
    (key called : String) (entry : Json × ℕ) : Except TranslationError Form :=
  translate document pending (activeBelow active node)
    ⟨entry.1, (node.place.step (.key key)).step (.index entry.2), false⟩
    (called ++ Decimal.natText (entry.2 + 1))

section
variable {document : Json} {pending : List String} {active : List Place} {node : Node}
  {name : String} {fields properties : List (String × Json)}

/-- A node that is no reference and is not being translated is translated by its keywords. -/
theorem translate_of_no_ref (hnode : node.value = .obj fields)
    (href : ∀ ref, lookupField "$ref" fields ≠ some (.str ref))
    (hfree : node.altered = true ∨ node.place ∉ active) :
    translate document pending active node name =
      (translateFields document pending (activeBelow active node) node.place fields name).map
        (annotated fields) := by
  obtain ⟨value, place, altered⟩ := node
  obtain rfl : value = .obj fields := hnode
  have hguard : ¬(!altered && active.contains place) = true := by
    rcases hfree with rfl | hfree
    · simp
    · simp [hfree]
  rw [translate]
  dsimp only
  split
  · next ref hlookup => exact absurd hlookup (href ref)
  · rw [if_neg hguard, activeBelow]

/-- Where each property has a form, they make the members in order. -/
theorem translateMembers_eq_ok {place : Place} {required : List String}
    {formFor : String × Json → Form} (h : ∀ property ∈ properties,
      translate document pending active ⟨property.2, place.step (.key property.1), false⟩
        (name ++ "_" ++ property.1) = .ok (formFor property)) :
    translateMembers document pending active place name required properties = .ok
      (properties.map fun property =>
        ⟨property.1, required.contains property.1, formFor property⟩) := by
  induction properties with
  | nil => rw [translateMembers]; rfl
  | cons property rest ih =>
    rw [List.forall_mem_cons] at h
    rw [translateMembers, h.1, ih h.2]
    rfl

/-- A list of schemas has forms where each of the schemas has one. -/
theorem translateItems_eq_ok_iff {place : Place} {n : ℕ} {items : List Json} {forms : List Form} :
    translateItems document pending active place name n items = .ok forms ↔
      List.Forall₂ (fun entry form => translate document pending active
        ⟨entry.1, place.step (.index entry.2), false⟩ (name ++ Decimal.natText (entry.2 + 1)) =
          .ok form) (items.zipIdx n) forms := by
  induction items generalizing n forms with
  | nil =>
    rw [translateItems, List.zipIdx_nil, List.forall₂_nil_left_iff, Except.ok.injEq, eq_comm]
  | cons v rest ih =>
    rw [translateItems, List.zipIdx_cons, List.forall₂_cons_left_iff]
    dsimp only
    split
    · next cause herror => simp [herror]
    · next form hform =>
      rw [map_eq_ok]
      constructor
      · rintro ⟨others, hothers, rfl⟩
        exact ⟨form, others, hform, ih.mp hothers, rfl⟩
      · rintro ⟨own, others, hown, hothers, rfl⟩
        obtain rfl := Except.ok.inj (hform.symm.trans hown)
        exact ⟨others, ih.mpr hothers, rfl⟩

theorem translateFields_of_describesObject (h : DescribesObject fields properties)
    (place : Place) : translateFields document pending active place fields name =
      (translateMembers document pending active (place.step (.key "properties")) name
        (requiredNames (said fields "required")) properties).map (Form.ofMembers name) := by
  obtain ⟨first, rest, rfl⟩ := List.exists_cons_of_ne_nil h.ne_nil
  rw [translateFields, h.no_oneOf, h.no_anyOf, h.no_allOf, h.type_eq, h.properties_eq]
  rfl

/-- Annotations do not change which values are accepted that are not null. -/
theorem accepts_annotated (fields : List (String × Json)) (form : Form) {v : Json}
    (hv : v ≠ .null) : (annotated fields form).shape.accepts v = form.shape.accepts v := by
  rcases (annotated_spec fields form).1 with hshape | hshape
  · rw [hshape]
  · rw [hshape, Shape.accepts, Shape.accepts, Shape.validate, Shape.validate, accept_orNull hv]

theorem Shape.accepts_iff {shape : Shape} {v : Json} :
    shape.accepts v = true ↔ ∃ w fit, accept false shape v = .ok (w, fit) := by
  rw [Shape.accepts, Shape.validate]
  cases accept false shape v with
  | error troubles => simp [Except.map]
  | ok checked => simp [Except.map, Prod.ext_iff]

/-- A schema of integers. -/
def integerSchema : Json :=
  .obj [("type", .str "integer")]

theorem translate_integerSchema {place : Place} (hfree : place ∉ active) :
    translate document pending active ⟨integerSchema, place, false⟩ name =
      .ok ⟨.integer, .whole {}, "", []⟩ := by
  rw [translate_of_no_ref rfl (by simp [lookupField]) (.inr hfree), translateFields]
  rfl

end

/-! ### Properties that are alike inside the record -/

/-- The properties `a-b` and `a_b`; the second is called `a_b_2` inside the record. -/
def twinProperties : List (String × Json) :=
  [("a-b", integerSchema), ("a_b", integerSchema)]

/-- An object schema with these properties, of which the second is required. -/
def twinFields : List (String × Json) :=
  [("type", .str "object"), ("properties", .obj twinProperties),
    ("required", .arr [.str "a_b"])]

theorem describesObject_twinFields : DescribesObject twinFields twinProperties where
  no_ref := by simp [twinFields, lookupField]
  no_oneOf := rfl
  no_anyOf := rfl
  no_allOf := rfl
  type_eq := rfl
  properties_eq := rfl
  ne_nil := by simp [twinProperties]

end Toolgate.Schema
