import Toolgate.Proofs.Result
import Toolgate.Schema.Accept
import Toolgate.Schema.Translation

/-!
# Forms without names

The records of a form bear names that are made from the way the schema was reached. Names occur in
complaints and nowhere else: which values are accepted, what they are accepted as, which shapes are
the same and which can be checked does not depend on them. So forms that differ in names only stay
so under everything that is made of them.

## Main definitions

* `Shape.unnamed`, `Form.unnamed`: a shape and a form with all names of records left out

## Main statements

* `outcome_unnamed`: names have no influence on what is accepted
* `unnamed_annotated`, `unnamed_unitedForm`, `unnamed_mergedForm`, `unnamed_ofMembers`: names have
  no influence on how forms are put together
-/

namespace Toolgate.Schema

/-! ## Shapes -/

namespace Shape

mutual

/-- The shape with all names of records left out. -/
def unnamed : Shape → Shape
  | list item => list item.unnamed
  | table value => table value.unnamed
  | record _ fields => record "" (unnamedFields fields)
  | either variants => either (unnamedAll variants)
  | optional inner => optional inner.unnamed
  | described note inner => described note inner.unnamed
  | shape => shape

/-- The fields with all names of records left out. -/
def unnamedFields : List (Field Shape) → List (Field Shape)
  | [] => []
  | ⟨name, wire, required, description, shape⟩ :: rest =>
    ⟨name, wire, required, description, shape.unnamed⟩ :: unnamedFields rest

/-- The shapes with all names of records left out. -/
def unnamedAll : List Shape → List Shape
  | [] => []
  | shape :: rest => shape.unnamed :: unnamedAll rest

end

end Shape

/-- The field with all names of records left out. -/
def Field.unnamed (field : Field Shape) : Field Shape :=
  { field with shape := field.shape.unnamed }

namespace Shape

theorem unnamedFields_eq_map (fields : List (Field Shape)) :
    unnamedFields fields = fields.map Field.unnamed := by
  induction fields with
  | nil => rfl
  | cons field rest ih => rw [unnamedFields, ih]; rfl

theorem unnamedAll_eq_map (shapes : List Shape) : unnamedAll shapes = shapes.map unnamed := by
  induction shapes with
  | nil => rfl
  | cons shape rest ih => rw [unnamedAll, ih]; rfl

/-! ### Building shapes -/

mutual

theorem isSound_unnamed (shape : Shape) : shape.unnamed.isSound = shape.isSound := by
  match shape with
  | list item => exact isSound_unnamed item
  | table value => exact isSound_unnamed value
  | either variants => exact allSound_unnamed variants
  | optional inner => exact isSound_unnamed inner
  | described _ inner => exact isSound_unnamed inner
  | record _ _ => rfl
  | anything | text _ | choice _ | timestamp | whole _ | number _ | truth => rfl

theorem allSound_unnamed (shapes : List Shape) :
    allSound (unnamedAll shapes) = allSound shapes := by
  match shapes with
  | [] => rfl
  | shape :: rest =>
    rw [unnamedAll, allSound, allSound, isSound_unnamed shape, allSound_unnamed rest]

end

mutual

theorem same_unnamed (a b : Shape) : a.unnamed.same b.unnamed = a.same b := by
  match a with
  | list item =>
    have ih := same_unnamed item
    cases b <;> simp [unnamed, same, ih]
  | table value =>
    have ih := same_unnamed value
    cases b <;> simp [unnamed, same, ih]
  | optional inner =>
    have ih := same_unnamed inner
    cases b <;> simp [unnamed, same, ih]
  | either variants =>
    have ih := sameEach_unnamed variants
    cases b with
    | either others =>
      rw [unnamed, unnamed, same, same, ih, unnamedAll_eq_map, unnamedAll_eq_map, List.length_map,
        List.length_map]
    | _ => simp [unnamed, same]
  | anything | text _ | choice _ | timestamp | whole _ | number _ | truth | record _ _
  | described _ _ => cases b <;> simp [unnamed, same]

theorem sameEach_unnamed (xs ys : List Shape) :
    sameEach (unnamedAll xs) (unnamedAll ys) = sameEach xs ys := by
  match xs with
  | [] => rw [unnamedAll, sameEach, sameEach]
  | x :: rest =>
    rw [unnamedAll, sameEach, sameEach, sameSome_unnamed x ys, sameEach_unnamed rest ys]

theorem sameSome_unnamed (x : Shape) (ys : List Shape) :
    sameSome x.unnamed (unnamedAll ys) = sameSome x ys := by
  match ys with
  | [] => rw [unnamedAll, sameSome, sameSome]
  | y :: rest => rw [unnamedAll, sameSome, sameSome, same_unnamed x y, sameSome_unnamed x rest]

end

theorem distinctFrom_unnamed (kept shapes : List Shape) :
    distinctFrom (kept.map unnamed) (shapes.map unnamed) =
      (distinctFrom kept shapes).map unnamed := by
  induction shapes generalizing kept with
  | nil => rfl
  | cons shape rest ih =>
    have hany : (kept.map unnamed).any (·.same shape.unnamed) = kept.any (·.same shape) := by
      simp only [List.any_map, Function.comp_def, same_unnamed]
    rw [List.map_cons, distinctFrom, distinctFrom, hany]
    split
    · exact ih kept
    · have hkept : kept.map unnamed ++ [shape.unnamed] = (kept ++ [shape]).map unnamed := by simp
      rw [hkept, ih, List.map_cons]

theorem variants_unnamed (shape : Shape) :
    shape.unnamed.variants = shape.variants.map unnamed := by
  cases shape with
  | either variants => exact unnamedAll_eq_map variants
  | optional inner => cases inner <;> first | rfl | exact unnamedAll_eq_map _
  | _ => rfl

theorem isOptional_unnamed (shape : Shape) : shape.unnamed.isOptional = shape.isOptional := by
  cases shape <;> rfl

theorem oneOf_unnamed (shapes : List Shape) :
    oneOf (shapes.map unnamed) = (oneOf shapes).unnamed := by
  match shapes with
  | [] => rfl
  | [shape] => rfl
  | first :: second :: rest =>
    exact congrArg either (unnamedAll_eq_map (first :: second :: rest)).symm

theorem unite_unnamed (shapes : List Shape) :
    unite (shapes.map unnamed) = (unite shapes).unnamed := by
  have hvariants :
      (shapes.map unnamed).flatMap variants = (shapes.flatMap variants).map unnamed := by
    induction shapes with
    | nil => rfl
    | cons shape rest ih => simp [ih, variants_unnamed]
  have hoptional : (shapes.map unnamed).any isOptional = shapes.any isOptional := by
    simp only [List.any_map, Function.comp_def, isOptional_unnamed]
  have hdistinct := distinctFrom_unnamed [] (shapes.flatMap variants)
  rw [List.map_nil] at hdistinct
  rw [unite, unite, hvariants, hoptional, hdistinct, oneOf_unnamed]
  split <;> rfl

theorem orNull_unnamed (shape : Shape) : shape.unnamed.orNull = shape.orNull.unnamed := by
  cases shape <;> rfl

theorem withDescription_unnamed (shape : Shape) (description : String) :
    shape.unnamed.withDescription description = (shape.withDescription description).unnamed := by
  unfold withDescription
  split <;> rfl

end Shape

/-! ### Checking values -/

/-- What came of checking a value: what it was accepted as and how well it fits, or the number of
the troubles. -/
def outcome (checked : Checked) : Except ℕ (Json × Fit) :=
  checked.mapError List.length

/-- The parts have come to the same, up to what the troubles say. -/
structure Parts.Like {α β : Type} (image : α → β) (parts : Parts α) (others : Parts β) : Prop where
  values : parts.values.map image = others.values
  fit : parts.fit = others.fit
  troubles : parts.troubles.length = others.troubles.length

section
variable {α β : Type} {image : α → β}

theorem Parts.Like.cons {step : Step} {wrap : Json → α} {wrap' : Json → β} {head head' : Checked}
    {rest : Parts α} {rest' : Parts β} (h : rest.Like image rest')
    (hhead : outcome head = outcome head') (hwrap : ∀ v, image (wrap v) = wrap' v) :
    (Parts.cons step wrap head rest).Like image (Parts.cons step wrap' head' rest') := by
  cases head with
  | error troubles =>
    cases head' with
    | error others =>
      have hlength : troubles.length = others.length := Except.error.inj hhead
      exact ⟨h.values, h.fit, by simp [Parts.cons, hlength, h.troubles]⟩
    | ok checked => cases hhead
  | ok checked =>
    cases head' with
    | error others => cases hhead
    | ok other =>
      obtain rfl := Except.ok.inj hhead
      exact ⟨by simp [Parts.cons, h.values, hwrap], by simp [Parts.cons, h.fit], h.troubles⟩

theorem Parts.Like.close {parts : Parts α} {others : Parts β} (h : parts.Like image others)
    {wrap : List α → Json} {wrap' : List β → Json}
    (hwrap : ∀ values, wrap values = wrap' (values.map image)) :
    outcome (parts.close wrap) = outcome (others.close wrap') := by
  have hempty : parts.troubles.isEmpty = others.troubles.isEmpty := by
    rw [Bool.eq_iff_iff, List.isEmpty_iff_length_eq_zero, List.isEmpty_iff_length_eq_zero,
      h.troubles]
  rw [Parts.close, Parts.close, hempty, hwrap, h.values, h.fit]
  split
  · rfl
  · exact congrArg Except.error h.troubles

end

section
variable {check check' : Json → Checked}

theorem acceptItems_like (h : ∀ v, outcome (check v) = outcome (check' v)) (n : ℕ)
    (items : List Json) : (acceptItems check n items).Like id (acceptItems check' n items) := by
  induction items generalizing n with
  | nil => exact ⟨rfl, rfl, rfl⟩
  | cons v rest ih => exact (ih (n + 1)).cons (h v) fun _ => rfl

theorem acceptValues_like (h : ∀ v, outcome (check v) = outcome (check' v))
    (given : List (String × Json)) :
    (acceptValues check given).Like id (acceptValues check' given) := by
  induction given with
  | nil => exact ⟨rfl, rfl, rfl⟩
  | cons field rest ih => exact ih.cons (h field.2) fun _ => rfl

end

theorem extraFields_unnamed (fields : List (Field Shape)) (given : List (String × Json)) :
    extraFields (fields.map Field.unnamed) given = extraFields fields given := by
  simp only [extraFields, List.any_map]
  rfl

theorem arrangeFields_unnamed (extras : List (String × Json))
    (values : List (Field Shape × Option Json)) :
    arrangeFields extras (values.map (Prod.map Field.unnamed id)) = arrangeFields extras values := by
  induction values with
  | nil => rfl
  | cons value rest ih =>
    obtain ⟨field, _ | v⟩ := value
    · rw [List.map_cons, Prod.map, id, arrangeFields, arrangeFields, ih]
      rfl
    · rw [List.map_cons, Prod.map, id, arrangeFields, arrangeFields, ih]
      rfl

theorem closeRecord_like {fields : List (Field Shape)} {given : List (String × Json)}
    {parts others : Parts (Field Shape × Option Json)}
    (h : parts.Like (Prod.map Field.unnamed id) others) :
    outcome (closeRecord fields given parts) =
      outcome (closeRecord (fields.map Field.unnamed) given others) := by
  have hcount : (parts.values.filter (·.2.isSome)).length =
      (others.values.filter (·.2.isSome)).length := by
    rw [← h.values, List.filter_map, List.length_map]
    rfl
  rw [closeRecord, closeRecord, extraFields_unnamed, hcount, h.fit]
  have hcounted (fit : Fit) : Parts.Like (Prod.map Field.unnamed id) { parts with fit }
      { others with fit } := ⟨h.values, rfl, h.troubles⟩
  exact (hcounted _).close fun values => by rw [arrangeFields_unnamed]

mutual

/-- Names have no influence on what is accepted, and on how many troubles there are. -/
theorem outcome_unnamed (inRecord : Bool) (shape : Shape) (v : Json) :
    outcome (accept inRecord shape v) = outcome (accept inRecord shape.unnamed v) := by
  match shape with
  | .list item =>
    cases v with
    | arr items =>
      have hitems := acceptItems_like (fun v => outcome_unnamed inRecord item v) 0 items
      exact hitems.close fun values => by rw [List.map_id]
    | _ => rfl
  | .table value =>
    cases v with
    | obj given =>
      have hvalues := acceptValues_like (fun v => outcome_unnamed inRecord value v) given
      exact hvalues.close fun values => by rw [List.map_id]
    | _ => rfl
  | .record name fields =>
    cases v with
    | obj given =>
      rw [Shape.unnamed, Shape.unnamedFields_eq_map]
      exact closeRecord_like (acceptFields_like given fields)
    | _ => rfl
  | .either variants =>
    rw [Shape.unnamed, accept, accept]
    exact outcome_acceptVariants inRecord v none rfl variants
  | .optional inner =>
    rw [Shape.unnamed, accept, accept]
    split
    · rfl
    · exact outcome_unnamed inRecord inner v
  | .described _ inner =>
    rw [Shape.unnamed, accept, accept]
    exact outcome_unnamed inRecord inner v
  | .anything | .text _ | .choice _ | .timestamp | .whole _ | .number _ | .truth => rfl

theorem acceptFields_like (given : List (String × Json)) (fields : List (Field Shape)) :
    (acceptFields given fields).Like (Prod.map Field.unnamed id)
      (acceptFields given (fields.map Field.unnamed)) := by
  match fields with
  | [] => exact ⟨rfl, rfl, rfl⟩
  | ⟨name, wire, required, description, shape⟩ :: rest =>
    have hrest := acceptFields_like given rest
    rw [List.map_cons, Field.unnamed, acceptFields, acceptFields]
    dsimp only
    cases lookupField wire given with
    | some v => exact hrest.cons (outcome_unnamed true shape v) fun _ => rfl
    | none =>
      cases required with
      | true => exact ⟨hrest.values, hrest.fit, by simp [hrest.troubles]⟩
      | false => exact ⟨by simp [hrest.values, Field.unnamed], hrest.fit, hrest.troubles⟩

theorem outcome_acceptVariants (inRecord : Bool) (v : Json) (best : Option (Json × Fit))
    {troubles others : List Trouble} (htroubles : troubles.length = others.length)
    (variants : List Shape) :
    outcome (acceptVariants inRecord v best troubles variants) =
      outcome (acceptVariants inRecord v best others (Shape.unnamedAll variants)) := by
  match variants with
  | [] =>
    rw [Shape.unnamedAll, acceptVariants, acceptVariants]
    cases best with
    | none => exact congrArg Except.error htroubles
    | some found => rfl
  | variant :: rest =>
    have hvariant := outcome_unnamed inRecord variant v
    rw [Shape.unnamedAll, acceptVariants, acceptVariants]
    cases hfirst : accept inRecord variant v with
    | error found =>
      cases hother : accept inRecord variant.unnamed v with
      | error other =>
        rw [hfirst, hother] at hvariant
        have hlength : found.length = other.length := Except.error.inj hvariant
        exact outcome_acceptVariants inRecord v best (by simp [htroubles, hlength]) rest
      | ok other => simp [hfirst, hother, outcome, Except.mapError] at hvariant
    | ok found =>
      cases hother : accept inRecord variant.unnamed v with
      | error other => simp [hfirst, hother, outcome, Except.mapError] at hvariant
      | ok other =>
        rw [hfirst, hother] at hvariant
        obtain rfl := Except.ok.inj hvariant
        dsimp only
        split
        · rfl
        · split
          · exact outcome_acceptVariants inRecord v _ htroubles rest
          · exact outcome_acceptVariants inRecord v _ htroubles rest

end

/-- Names have no influence on what a value is accepted as. -/
theorem toOption_validate_unnamed (shape : Shape) (v : Json) :
    (shape.validate v).toOption = (shape.unnamed.validate v).toOption := by
  have h := outcome_unnamed false shape v
  rw [Shape.validate, Shape.validate]
  cases hfirst : accept false shape v <;> cases hother : accept false shape.unnamed v <;>
    simp_all [outcome, Except.mapError, Except.map, Except.toOption]

/-! ## Forms -/

mutual

/-- The form with all names of records left out. -/
def Form.unnamed : Form → Form
  | ⟨kind, shape, description, members⟩ =>
    ⟨kind, shape.unnamed, description, unnamedMembers members⟩

/-- The members with all names of records left out. -/
def unnamedMembers : List (Member Form) → List (Member Form)
  | [] => []
  | ⟨name, required, form⟩ :: rest => ⟨name, required, form.unnamed⟩ :: unnamedMembers rest

end

/-- The member with all names of records left out. -/
def Member.unnamed (member : Member Form) : Member Form :=
  { member with form := member.form.unnamed }

theorem unnamedMembers_eq_map (members : List (Member Form)) :
    unnamedMembers members = members.map Member.unnamed := by
  induction members with
  | nil => rw [unnamedMembers, List.map_nil]
  | cons member rest ih => rw [unnamedMembers, ih]; rfl

section
variable (form : Form)

theorem Form.unnamed_kind : form.unnamed.kind = form.kind := by
  cases form
  rw [Form.unnamed]

theorem Form.unnamed_shape : form.unnamed.shape = form.shape.unnamed := by
  cases form
  rw [Form.unnamed]

theorem Form.unnamed_description : form.unnamed.description = form.description := by
  cases form
  rw [Form.unnamed]

theorem Form.unnamed_members : form.unnamed.members = form.members.map Member.unnamed := by
  cases form
  rw [Form.unnamed, unnamedMembers_eq_map]

theorem Form.describedShape_unnamed :
    form.unnamed.describedShape = form.describedShape.unnamed := by
  rw [Form.describedShape, Form.describedShape, Form.unnamed_shape, Form.unnamed_description,
    Shape.withDescription_unnamed]

theorem Form.isObject_unnamed : form.unnamed.isObject = form.isObject := by
  rw [Form.isObject, Form.isObject, Form.unnamed_kind]

end

/-! ### Building forms -/

/-- The form of an object with members that bear no names, without a name itself. -/
def unnamedObject (members : List (Member Form)) : Form :=
  if (fieldsOf [] members).all fun field => field.shape.isSound then
    ⟨.object, .record "" (fieldsOf [] members), "", members⟩
  else .looseObject

theorem fieldsOf_unnamed (taken : List String) (members : List (Member Form)) :
    fieldsOf taken (members.map Member.unnamed) = (fieldsOf taken members).map Field.unnamed := by
  induction members generalizing taken with
  | nil => rfl
  | cons member rest ih =>
    have hfield (name : String) : member.unnamed.toField name = (member.toField name).unnamed := by
      rw [Member.toField, Member.toField, Field.unnamed, Member.unnamed, Form.unnamed_shape,
        Form.unnamed_description]
      dsimp only
      split
      · rfl
      · rw [Shape.orNull_unnamed]
    rw [List.map_cons, fieldsOf, fieldsOf, List.map_cons, hfield, ih]
    rfl

theorem unnamed_ofMembers (name : String) (members : List (Member Form)) :
    (Form.ofMembers name members).unnamed = unnamedObject (members.map Member.unnamed) := by
  have hsound : ((fieldsOf [] members).map Field.unnamed).all (fun field => field.shape.isSound) =
      (fieldsOf [] members).all fun field => field.shape.isSound := by
    simp only [List.all_map, Function.comp_def, Field.unnamed, Shape.isSound_unnamed]
  rw [Form.ofMembers, recordOf?, unnamedObject, fieldsOf_unnamed, hsound]
  split_ifs
  · simp only [Form.unnamed, Shape.unnamed, Shape.unnamedFields_eq_map, unnamedMembers_eq_map]
  · rfl

theorem unnamed_unitedForm (forms : List Form) :
    (unitedForm forms).unnamed = unitedForm (forms.map Form.unnamed) := by
  have hunite (forms : List Form) :
      (⟨.union, .unite (forms.map (·.describedShape)), "", []⟩ : Form).unnamed =
        ⟨.union, .unite ((forms.map Form.unnamed).map (·.describedShape)), "", []⟩ := by
    have hshapes : (forms.map Form.unnamed).map (·.describedShape) =
        (forms.map (·.describedShape)).map Shape.unnamed := by
      simp only [List.map_map, Function.comp_def, Form.describedShape_unnamed]
    rw [hshapes, Shape.unite_unnamed]
    rfl
  match forms with
  | [] => exact hunite []
  | [form] => rfl
  | first :: second :: rest => exact hunite (first :: second :: rest)

theorem mergeMembers_unnamed (merged members : List (Member Form)) :
    mergeMembers (merged.map Member.unnamed) (members.map Member.unnamed) =
      (mergeMembers merged members).map Member.unnamed := by
  induction members generalizing merged with
  | nil => rfl
  | cons member rest ih =>
    have hany : (merged.map Member.unnamed).any (·.name == member.unnamed.name) =
        merged.any (·.name == member.name) := by
      simp only [List.any_map]
      rfl
    rw [List.map_cons, mergeMembers, mergeMembers, hany, ← ih]
    split
    · congr 1
      simp only [List.map_map]
      refine List.map_congr_left fun other _ => ?_
      dsimp only [Function.comp]
      split <;> simp_all [Member.unnamed]
    · congr 1
      simp

theorem unnamed_mergedForm (name : String) (forms : List Form) :
    (mergedForm name forms).unnamed =
      match forms.map Form.unnamed with
      | [] => .anything ""
      | first :: rest =>
        if (first :: rest).all Form.isObject then
          unnamedObject (mergeMembers [] ((first :: rest).flatMap (·.members)))
        else first := by
  have hobjects : (forms.map Form.unnamed).all Form.isObject = forms.all Form.isObject := by
    simp only [List.all_map, Function.comp_def, Form.isObject_unnamed]
  have hmembers : (forms.map Form.unnamed).flatMap (·.members) =
      (forms.flatMap (·.members)).map Member.unnamed := by
    simp only [List.flatMap_map, List.map_flatMap, Form.unnamed_members]
  have hmerged := mergeMembers_unnamed [] (forms.flatMap (·.members))
  cases forms with
  | nil => rfl
  | cons first rest =>
    rw [List.map_cons] at hobjects hmembers ⊢
    rw [List.map_nil] at hmerged
    dsimp only
    rw [mergedForm, hobjects, hmembers, hmerged]
    split
    · exact unnamed_ofMembers name _
    · rfl

theorem unnamed_annotated (fields : List (String × Json)) (form : Form) :
    (annotated fields form).unnamed = annotated fields form.unnamed := by
  have hnoted (note : String) {nullable other : Form} (h : nullable.unnamed = other) :
      (if note.isEmpty then nullable else { nullable with description := note }).unnamed =
        if note.isEmpty then other else { other with description := note } := by
    split
    · exact h
    · rw [← h]
      cases nullable
      rfl
  rw [annotated, annotated, Form.unnamed_kind, Form.unnamed_description]
  refine hnoted _ ?_
  split
  · split
    · rfl
    · cases form
      simp only [Form.unnamed, Shape.orNull_unnamed]
  · rfl

end Toolgate.Schema
