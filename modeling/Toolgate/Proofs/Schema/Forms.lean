import Mathlib.Tactic.SplitIfs
import Toolgate.Proofs.Result
import Toolgate.Proofs.Schema.Complaint
import Toolgate.Schema.Translation

/-!
# Translated forms

What a schema node can be translated to is built up by a few rules, one for each kind of node.
Facts about translated forms follow by induction on these rules, and not along the references that
lead through a document.

## Main definitions

* `Translated`: the forms that come out of a translation

## Main statements

* `translated_of_translate`: a translation gives a form that is built up by the rules
* `Translated.isProper`: the shapes of such a form and of its members are proper
-/

namespace Toolgate.Schema

/-- The forms that schema nodes are translated to. -/
inductive Translated : Form → Prop where
  | anything (note : String) : Translated (.anything note)
  | text {fields : List (String × Json)} {form : Form} (h : textForm fields = .ok form) :
      Translated form
  | whole (bounds : Bounds) : Translated ⟨.integer, .whole bounds, "", []⟩
  | number (bounds : Bounds) : Translated ⟨.number, .number bounds, "", []⟩
  | truth : Translated ⟨.boolean, .truth, "", []⟩
  | list {form : Form} (h : Translated form) :
      Translated ⟨.array, .list form.describedShape, "", []⟩
  | bareList : Translated ⟨.array, .list .anything, "", []⟩
  | table {form : Form} (h : Translated form) :
      Translated ⟨.map, .table form.describedShape, "", []⟩
  | looseObject : Translated .looseObject
  | object (name : String) {members : List (Member Form)}
      (h : ∀ member ∈ members, Translated member.form) : Translated (.ofMembers name members)
  | united {forms : List Form} (hne : forms ≠ []) (h : ∀ form ∈ forms, Translated form) :
      Translated (unitedForm forms)
  | merged (name : String) {forms : List Form} (h : ∀ form ∈ forms, Translated form) :
      Translated (mergedForm name forms)
  | annotated (fields : List (String × Json)) {form : Form} (h : Translated form) :
      Translated (annotated fields form)

/-! ## Translations follow the rules -/

theorem length_pos_of_listNamed {fields : List (String × Json)} {key : String} {items : List Json}
    (h : listNamed? fields key = some items) : 0 < items.length := by
  unfold listNamed? at h
  split at h
  · exact Option.some.inj h ▸ Nat.succ_pos _
  · cases h

mutual

theorem translated_of_translate {document : Json} {pending : List String} {active : List Place}
    {node : Node} {name : String} {form : Form}
    (h : translate document pending active node name = .ok form) : Translated form := by
  rw [translate] at h
  split at h
  · next fields hv =>
    split at h
    · next ref hlookup =>
      split at h
      · next hpending =>
        split at h
        · cases h
        · exact Except.ok.inj h ▸ .anything _
        · next target hresolve =>
          split at h
          · exact translated_of_translate h
          · exact Except.ok.inj h ▸ .anything _
      · exact Except.ok.inj h ▸ .anything _
    · split at h
      · exact Except.ok.inj h ▸ .anything _
      · obtain ⟨plain, hplain, rfl⟩ := map_eq_ok.mp h
        exact .annotated fields (translated_of_translateFields hplain)
  · exact Except.ok.inj h ▸ .anything _
termination_by (pending.length, sizeOf node.value, 0)
decreasing_by
  · exact Prod.Lex.left _ _ (length_filter_ne ‹_›)
  · rw [‹node.value = _›]
    apply Prod.Lex.right
    apply Prod.Lex.left
    simp

theorem translated_of_translateFields {document : Json} {pending : List String}
    {active : List Place} {place : Place} {fields : List (String × Json)} {name : String}
    {form : Form} (h : translateFields document pending active place fields name = .ok form) :
    Translated form := by
  rw [translateFields] at h
  split at h
  · next items hone =>
    obtain ⟨forms, hforms, rfl⟩ := map_eq_ok.mp h
    obtain ⟨hlength, hall⟩ := translated_of_translateItems hforms
    exact .united (List.ne_nil_of_length_pos (hlength ▸ length_pos_of_listNamed hone)) hall
  split at h
  · next items hany =>
    obtain ⟨forms, hforms, rfl⟩ := map_eq_ok.mp h
    obtain ⟨hlength, hall⟩ := translated_of_translateItems hforms
    exact .united (List.ne_nil_of_length_pos (hlength ▸ length_pos_of_listNamed hany)) hall
  split at h
  · next items hmerged =>
    obtain ⟨forms, hforms, rfl⟩ := map_eq_ok.mp h
    exact .merged name (translated_of_translateItems hforms).2
  split at h
  · exact Except.ok.inj h ▸ .anything _
  · exact .text h
  · exact Except.ok.inj h ▸ .whole _
  · exact Except.ok.inj h ▸ .number _
  · exact Except.ok.inj h ▸ .truth
  · split at h
    · next v hitems =>
      split at h
      · obtain ⟨inner, hinner, rfl⟩ := map_eq_ok.mp h
        exact .list (translated_of_translate hinner)
      · exact Except.ok.inj h ▸ .bareList
    · exact Except.ok.inj h ▸ .bareList
  · split at h
    · next first rest hproperties =>
      obtain ⟨members, hmembers, rfl⟩ := map_eq_ok.mp h
      exact .object name (translated_of_translateMembers hmembers)
    · split at h
      · next values hvalues =>
        obtain ⟨inner, hinner, rfl⟩ := map_eq_ok.mp h
        exact .table (translated_of_translate hinner)
      · exact Except.ok.inj h ▸ .looseObject
  · exact Except.ok.inj h ▸ .anything _
termination_by (pending.length, sizeOf fields, 1)
decreasing_by
  all_goals apply Prod.Lex.right
  all_goals apply Prod.Lex.left
  · exact sizeOf_listNamed ‹listNamed? fields "oneOf" = _›
  · exact sizeOf_listNamed ‹listNamed? fields "anyOf" = _›
  · exact sizeOf_listNamed ‹listNamed? fields "allOf" = _›
  · exact sizeOf_lookupField ‹lookupField "items" fields = _›
  · have := sizeOf_lookupField ‹lookupField "properties" fields = _›
    simp at this ⊢
    omega
  · have := sizeOf_lookupField ‹lookupField "additionalProperties" fields = _›
    simp at this ⊢
    omega

theorem translated_of_translateItems {document : Json} {pending : List String}
    {active : List Place} {place : Place} {name : String} {n : Nat} {items : List Json}
    {forms : List Form}
    (h : translateItems document pending active place name n items = .ok forms) :
    forms.length = items.length ∧ ∀ form ∈ forms, Translated form := by
  match items, h with
  | [], h =>
    rw [translateItems] at h
    obtain rfl := Except.ok.inj h
    simp
  | v :: rest, h =>
    rw [translateItems] at h
    split at h
    · cases h
    · next form hform =>
      obtain ⟨others, hothers, rfl⟩ := map_eq_ok.mp h
      obtain ⟨hlength, hall⟩ := translated_of_translateItems hothers
      have hfirst := translated_of_translate hform
      exact ⟨congrArg (· + 1) hlength, List.forall_mem_cons.mpr ⟨hfirst, hall⟩⟩
termination_by (pending.length, sizeOf items, 0)
decreasing_by
  all_goals apply Prod.Lex.right
  all_goals apply Prod.Lex.left
  all_goals simp only [List.cons.sizeOf_spec]
  all_goals omega

theorem translated_of_translateMembers {document : Json} {pending : List String}
    {active : List Place} {place : Place} {name : String} {required : List String}
    {properties : List (String × Json)} {members : List (Member Form)}
    (h : translateMembers document pending active place name required properties = .ok members) :
    ∀ member ∈ members, Translated member.form := by
  match properties, h with
  | [], h =>
    rw [translateMembers] at h
    obtain rfl := Except.ok.inj h
    simp
  | (key, v) :: rest, h =>
    rw [translateMembers] at h
    split at h
    · cases h
    · next form hform =>
      obtain ⟨others, hothers, rfl⟩ := map_eq_ok.mp h
      have hfirst := translated_of_translate hform
      exact List.forall_mem_cons.mpr ⟨hfirst, translated_of_translateMembers hothers⟩
termination_by (pending.length, sizeOf properties, 0)
decreasing_by
  all_goals apply Prod.Lex.right
  all_goals apply Prod.Lex.left
  all_goals simp only [List.cons.sizeOf_spec, Prod.mk.sizeOf_spec]
  all_goals omega

end

/-! ## Translated forms are proper -/

/-- The shapes of a form and of its members are proper. -/
structure Form.IsProper (form : Form) : Prop where
  shape : form.shape.IsProper
  members : ∀ member ∈ form.members, member.form.shape.IsProper

theorem Form.isProper_of_leaf {form : Form} (h : form.shape.isLeaf = true)
    (hmembers : form.members = []) : form.IsProper :=
  ⟨.leaf h, by simp [hmembers]⟩

theorem Form.isProper_looseObject : looseObject.IsProper :=
  ⟨.table (.leaf rfl), List.forall_mem_nil _⟩

theorem Form.IsProper.describedShape {form : Form} (h : form.IsProper) :
    form.describedShape.IsProper :=
  h.shape.withDescription form.description

section
variable {members : List (Member Form)} {taken : List String}

theorem Member.shape_toField (member : Member Form) (name : String) : (member.toField name).shape =
    if member.required then member.form.shape else member.form.shape.orNull := rfl

theorem mem_fieldsOf {field : Field Shape} (h : field ∈ fieldsOf taken members) :
    ∃ member ∈ members, ∃ name, field = member.toField name := by
  induction members generalizing taken with
  | nil => simp [fieldsOf] at h
  | cons member rest ih =>
    rw [fieldsOf] at h
    rcases List.mem_cons.mp h with rfl | h
    · exact ⟨member, List.mem_cons_self, _, rfl⟩
    · obtain ⟨other, hother, heq⟩ := ih h
      exact ⟨other, List.mem_cons_of_mem _ hother, heq⟩

/-- What is true of the shapes of all members, with null let in or not, is true of their fields. -/
theorem forall_shape_fieldsOf {P : Shape → Prop} (horNull : ∀ shape, P shape → P shape.orNull)
    (h : ∀ member ∈ members, P member.form.shape) :
    ∀ field ∈ fieldsOf taken members, P field.shape := by
  intro field hfield
  obtain ⟨member, hmember, name, rfl⟩ := mem_fieldsOf hfield
  rw [Member.shape_toField]
  split
  · exact h member hmember
  · exact horNull _ (h member hmember)

theorem isProper_fieldsOf (taken : List String)
    (h : ∀ member ∈ members, member.form.shape.IsProper) :
    ∀ field ∈ fieldsOf taken members, field.shape.IsProper :=
  forall_shape_fieldsOf (fun _ hproper => hproper.orNull) h

end

theorem isProper_ofMembers (name : String) {members : List (Member Form)}
    (h : ∀ member ∈ members, member.form.shape.IsProper) :
    (Form.ofMembers name members).IsProper := by
  unfold Form.ofMembers recordOf?
  dsimp only
  split_ifs
  · exact ⟨.record _ (isProper_fieldsOf [] h), h⟩
  · exact Form.isProper_looseObject

theorem isProper_textForm {fields : List (String × Json)} {form : Form}
    (h : textForm fields = .ok form) : form.IsProper := by
  unfold textForm at h
  dsimp only at h
  split at h
  · obtain rfl := Except.ok.inj h
    exact Form.isProper_of_leaf rfl rfl
  · obtain ⟨isDate, -, h⟩ := bind_eq_ok.mp h
    split at h
    · obtain rfl := Except.ok.inj h
      refine ⟨.either (List.cons_ne_nil _ _) ?_, List.forall_mem_nil _⟩
      exact List.forall_mem_cons.mpr ⟨.leaf rfl, List.forall_mem_singleton.mpr (.leaf rfl)⟩
    · obtain ⟨pattern, -, h⟩ := bind_eq_ok.mp h
      obtain rfl := Except.ok.inj h
      exact Form.isProper_of_leaf rfl rfl

theorem mem_or_mem_of_mem_mergeMembers {merged members : List (Member Form)} {member : Member Form}
    (h : member ∈ mergeMembers merged members) : member ∈ merged ∨ member ∈ members := by
  induction members generalizing merged with
  | nil => exact .inl h
  | cons next rest ih =>
    rw [mergeMembers] at h
    rcases ih h with h | h
    · split at h
      · obtain ⟨other, hother, rfl⟩ := List.mem_map.mp h
        split
        · exact .inr List.mem_cons_self
        · exact .inl hother
      · rcases List.mem_append.mp h with h | h
        · exact .inl h
        · exact .inr (List.mem_singleton.mp h ▸ List.mem_cons_self)
    · exact .inr (List.mem_cons_of_mem _ h)

/-- What is true of the members of all forms is true of those that they are merged to. -/
theorem forall_mem_mergeMembers {P : Member Form → Prop} {forms : List Form}
    (h : ∀ form ∈ forms, ∀ member ∈ form.members, P member) :
    ∀ member ∈ mergeMembers [] (forms.flatMap (·.members)), P member := by
  intro member hmember
  obtain ⟨form, hform, hmember⟩ := List.mem_flatMap.mp
    ((mem_or_mem_of_mem_mergeMembers hmember).resolve_left List.not_mem_nil)
  exact h form hform member hmember

/-- The other form is the form with what the fields say about it: all but the description and the
shape are the same, and null is let in where the fields say so, unless everything is accepted
anyway. -/
structure Form.IsAnnotated (fields : List (String × Json)) (form other : Form) : Prop where
  kind : other.kind = form.kind
  members : other.members = form.members
  shape : said fields "nullable" = .bool true ∧ form.kind ≠ .any ∧ other.shape = form.shape.orNull ∨
    (said fields "nullable" = .bool true → form.kind = .any) ∧ other.shape = form.shape

theorem isAnnotated_annotated (fields : List (String × Json)) (form : Form) :
    form.IsAnnotated fields (annotated fields form) := by
  have hnoted {nullable : Form} (h : form.IsAnnotated fields nullable) (note : String) :
      form.IsAnnotated fields
        (if note.isEmpty then nullable else { nullable with description := note }) := by
    split
    · exact h
    · exact ⟨h.kind, h.members, h.shape⟩
  refine hnoted ?_ _
  split
  · next hnullable =>
    by_cases hkind : form.kind = .any
    · rw [if_pos (beq_iff_eq.mpr hkind)]
      exact ⟨rfl, rfl, .inr ⟨fun _ => hkind, rfl⟩⟩
    · rw [if_neg (by simpa using hkind)]
      exact ⟨rfl, rfl, .inl ⟨hnullable, hkind, rfl⟩⟩
  · next hnullable => exact ⟨rfl, rfl, .inr ⟨fun h => absurd h hnullable, rfl⟩⟩

theorem annotated_kind (fields : List (String × Json)) (form : Form) :
    (annotated fields form).kind = form.kind :=
  (isAnnotated_annotated fields form).kind

/-- Annotations may let null in; they change nothing else of what is accepted. -/
theorem annotated_spec (fields : List (String × Json)) (form : Form) :
    ((annotated fields form).shape = form.shape ∨
      (annotated fields form).shape = form.shape.orNull) ∧
        (annotated fields form).members = form.members := by
  obtain ⟨-, hmembers, hshape⟩ := isAnnotated_annotated fields form
  exact ⟨hshape.symm.imp (·.2) (·.2.2), hmembers⟩

theorem Translated.isProper {form : Form} (h : Translated form) : form.IsProper := by
  induction h with
  | text h => exact isProper_textForm h
  | anything | whole | number | truth => exact Form.isProper_of_leaf rfl rfl
  | list _ ih => exact ⟨.list ih.describedShape, List.forall_mem_nil _⟩
  | bareList => exact ⟨.list (.leaf rfl), List.forall_mem_nil _⟩
  | table _ ih => exact ⟨.table ih.describedShape, List.forall_mem_nil _⟩
  | looseObject => exact Form.isProper_looseObject
  | object name _ ih =>
    exact isProper_ofMembers name fun member hmember => (ih member hmember).shape
  | @united forms hne _ ih =>
    unfold unitedForm
    split
    · exact ih _ List.mem_cons_self
    · refine ⟨Shape.isProper_unite (by simpa using hne) fun shape hshape => ?_, by simp⟩
      obtain ⟨form, hform, rfl⟩ := List.mem_map.mp hshape
      exact (ih form hform).describedShape
  | @merged name forms _ ih =>
    unfold mergedForm
    split
    · exact Form.isProper_of_leaf rfl rfl
    · next first rest =>
      split
      · exact isProper_ofMembers name (forall_mem_mergeMembers fun form hform =>
          (ih form hform).members)
      · exact ih _ List.mem_cons_self
  | @annotated fields form _ ih =>
    obtain ⟨hshape, hmembers⟩ := annotated_spec fields form
    refine ⟨?_, hmembers ▸ ih.members⟩
    rcases hshape with hshape | hshape
    · exact hshape ▸ ih.shape
    · exact hshape ▸ ih.shape.orNull

end Toolgate.Schema
