import Toolgate.Proofs.Schema.Akin
import Toolgate.Proofs.Schema.Standing

/-!
# Schemas that list alternatives

A schema that lists alternatives accepts the values that one of them accepts by itself. Inside the
schema a reference back to it is cut short, while by itself an alternative follows the reference.
That is no difference to what is accepted: the schema that is come back to lists the alternative
again, and this time it is cut short and accepts everything.

What a value is accepted as is chosen among all alternatives that accept it. Those that list
alternatives themselves are taken apart for this, unless they have a description, so that the choice
is made at once among the alternatives at the bottom. It can fall on one that its own list would not
have chosen: how many fields of a record were given counts for more than how well they fit.

## Main definitions

* `Shape.alternatives`, `Form.alternatives`: the alternatives that a shape or a form is made of
* `ListsAlternatives`: the fields of a schema that lists alternatives

## Main statements

* `exists_of_accept_unitedForm`: what united forms make of a value, one of them makes of it
* `exists_isAkin_listed`: inside a schema an alternative accepts what it accepts by itself
* `formOf_alternatives`: the form of a schema that lists alternatives
-/

namespace Toolgate.Schema

open Relation (ReflTransGen)

/-! ## Shapes made of alternatives -/

/-- The alternatives that a shape is made of, null aside; none when it is of another kind. -/
def Shape.alternatives : Shape → List Shape
  | either xs => xs
  | optional (either xs) => xs
  | _ => []

/-- The alternatives that a form brings in among others. One with a description stands for
itself. -/
def Form.alternatives (form : Form) : List Shape :=
  if form.description.isEmpty then form.shape.alternatives else []

section
variable {inRecord : Bool} {v w : Json} {shape x : Shape} {forms : List Form} {fit : Fit}

theorem takes_of_mem_alternatives (hx : x ∈ shape.alternatives) (h : x.Takes inRecord v) :
    shape.Takes inRecord v := by
  cases shape with
  | either xs => exact takes_either_iff.mpr ⟨x, hx, h⟩
  | optional inner =>
    cases inner with
    | either xs => exact takes_optional_iff.mpr (.inr (takes_either_iff.mpr ⟨x, hx, h⟩))
    | _ => cases hx
  | _ => cases hx

/-- What an alternative that a shape brings in makes of a value, the shape makes of it, or the shape
is made of alternatives. -/
theorem accept_or_mem_alternatives (hx : x ∈ shape.variants)
    (hnull : v = .null → shape.isOptional = false) (h : accept inRecord x v = .ok (w, fit)) :
    accept inRecord shape v = .ok (w, fit) ∨ x ∈ shape.alternatives := by
  cases shape with
  | either xs => exact .inr hx
  | optional inner =>
    have hv : ¬v.isNull = true := by
      cases v <;> simp_all [Json.isNull, Shape.isOptional]
    cases inner with
    | either xs => exact .inr hx
    | _ =>
      obtain rfl := List.mem_singleton.mp hx
      exact .inl (by rw [accept, if_neg hv, h])
  | _ => exact .inl (List.mem_singleton.mp hx ▸ h)

theorem alternatives_describedShape (form : Form) :
    form.describedShape.alternatives = form.alternatives := by
  unfold Form.describedShape Shape.withDescription Form.alternatives
  split <;> rfl

/-- What united forms make of a value, one of them makes of it that accepts it, or one of the
alternatives that such a form brings in. -/
theorem exists_of_accept_unitedForm
    (h : accept inRecord (unitedForm forms).shape v = .ok (w, fit)) :
    ∃ own ∈ forms, own.shape.Takes inRecord v ∧
      ((∃ fit, accept inRecord own.shape v = .ok (w, fit)) ∨
        ∃ x ∈ own.alternatives, ∃ fit, accept inRecord x v = .ok (w, fit)) := by
  unfold unitedForm at h
  split at h
  · exact ⟨_, List.mem_cons_self, ⟨w, fit, h⟩, .inl ⟨fit, h⟩⟩
  · rcases exists_of_accept_unite h with
      ⟨rfl, rfl, s, hs, hoptional⟩ | ⟨s, hs, hnull, x, hx, fit, haccept⟩
    · obtain ⟨own, hown, rfl⟩ := List.mem_map.mp hs
      obtain ⟨inner, hinner⟩ : ∃ inner, own.describedShape = .optional inner := by
        cases hshape : own.describedShape <;> simp_all [Shape.isOptional]
      have haccept : accept inRecord own.shape .null = .ok (.null, {}) := by
        rw [← accept_describedShape, hinner, accept]
        rfl
      exact ⟨own, hown, ⟨_, _, haccept⟩, .inl ⟨_, haccept⟩⟩
    · obtain ⟨own, hown, rfl⟩ := List.mem_map.mp hs
      rcases accept_or_mem_alternatives hx hnull haccept with hwhole | hx
      · rw [accept_describedShape] at hwhole
        exact ⟨own, hown, ⟨w, fit, hwhole⟩, .inl ⟨fit, hwhole⟩⟩
      · have htakes := takes_of_mem_alternatives hx ⟨w, fit, haccept⟩
        rw [takes_describedShape_iff] at htakes
        rw [alternatives_describedShape] at hx
        exact ⟨own, hown, htakes, .inr ⟨x, hx, fit, haccept⟩⟩

end

/-! ## Schemas that list alternatives -/

/-- The fields are those of a schema that lists alternatives under a keyword: it is no reference. -/
structure ListsAlternatives (fields : List (String × Json)) (key : String) (items : List Json) :
    Prop where
  no_ref : ∀ ref, lookupField "$ref" fields ≠ some (.str ref)
  listed : listNamed? fields key = some items
  first : key = "oneOf" ∨ key = "anyOf" ∧ listNamed? fields "oneOf" = none

/-- The node of a schema that a keyword of a node lists, given with its index. -/
def listedNode (node : Node) (key : String) (entry : Json × ℕ) : Node :=
  ⟨entry.1, (node.place.step (.key key)).step (.index entry.2), false⟩

section
variable {document : Json} {pending : List String} {active : List Place} {node : Node}
  {name key : String} {fields : List (String × Json)} {items : List Json} {forms : List Form}
  {form : Form}

theorem translateFields_of_listsAlternatives (h : ListsAlternatives fields key items)
    (place : Place) : translateFields document pending active place fields name =
      (translateItems document pending active (place.step (.key key)) (name ++ "Option") 0
        items).map unitedForm := by
  obtain ⟨-, hlisted, rfl | ⟨rfl, hone⟩⟩ := h
  · rw [translateFields, hlisted]
  · rw [translateFields, hone, hlisted]

/-- The form of a schema that lists alternatives unites their forms. -/
theorem translate_of_listsAlternatives (hnode : node.value = .obj fields)
    (hlists : ListsAlternatives fields key items)
    (hfree : node.altered = true ∨ node.place ∉ active) :
    translate document pending active node name = .ok form ↔
      ∃ forms, List.Forall₂ (fun entry own =>
          listedForm document pending active node key (name ++ "Option") entry = .ok own)
        items.zipIdx forms ∧ annotated fields (unitedForm forms) = form := by
  rw [translate_of_no_ref hnode hlists.no_ref hfree, translateFields_of_listsAlternatives hlists,
    map_eq_ok]
  simp only [map_eq_ok, translateItems_eq_ok_iff]
  constructor
  · rintro ⟨_, ⟨forms, hforms, rfl⟩, rfl⟩
    exact ⟨forms, hforms, rfl⟩
  · rintro ⟨forms, hforms, rfl⟩
    exact ⟨_, ⟨forms, hforms, rfl⟩, rfl⟩

theorem mem_itemsFrom_of_mem_zipIdx {n : ℕ} {entry : Json × ℕ} (h : entry ∈ items.zipIdx n) :
    ⟨entry.1, node.place.step (.index entry.2), false⟩ ∈ node.itemsFrom n items := by
  induction items generalizing n with
  | nil => simp at h
  | cons v rest ih =>
    rw [List.zipIdx_cons, List.mem_cons] at h
    rcases h with rfl | h
    · exact List.mem_cons_self
    · exact List.mem_cons_of_mem _ (ih h)

theorem lookupField_of_listNamed? (h : listNamed? fields key = some items) :
    lookupField key fields = some (.arr items) := by
  unfold listNamed? at h
  split at h
  · next hlookup => exact hlookup.trans (congrArg (some ∘ Json.arr) (Option.some.inj h))
  · cases h

/-- An alternative inside the schema is a part that is met on the way from it. -/
theorem formAt_listedNode (hnode : node.altered = false) (refs resolving : List String)
    (active : List Place) (key called : String) (entry : Json × ℕ) :
    formAt document refs ⟨resolving, node.place :: active, listedNode node key entry, none⟩
        (called ++ Decimal.natText (entry.2 + 1)) =
      (listedForm document (remaining refs resolving) active node key called entry).mapError
        .fault := by
  rw [listedForm, activeBelow, hnode, if_neg Bool.false_ne_true]
  rfl

theorem listedNode_place_ne (node : Node) (key : String) (entry : Json × ℕ) :
    (listedNode node key entry).place ≠ node.place := by
  intro h
  have hlength := congrArg (·.steps.length) h
  simp only [listedNode, Place.step, List.length_cons] at hlength
  omega

/-- What a schema lists as alternatives is part of it. -/
theorem ListsAlternatives.listedNode_mem (h : ListsAlternatives fields key items)
    (hnode : node.value = .obj fields) {entry : Json × ℕ} (hentry : entry ∈ items.zipIdx) :
    listedNode node key entry ∈ schemaParts node := by
  have hlookup := lookupField_of_listNamed? h.listed
  let list : Node := ⟨.arr items, node.place.step (.key key), false⟩
  refine mem_schemaParts.mpr ⟨key, list, ?_, ?_⟩
  · rw [Catalog.fieldNodes, hnode]
    exact List.mem_map.mpr ⟨(key, .arr items), mem_of_lookupField hlookup, rfl⟩
  · have hparts : partsAt key list = list.itemsFrom 0 items := by
      rcases h.first with rfl | ⟨rfl, -⟩ <;> rfl
    rw [hparts]
    exact mem_itemsFrom_of_mem_zipIdx hentry

/-- Calls for one node in two runs, which start with a part of a schema and with the schema. In the
second run the schema is being translated, and once past the part it would be stopped in either. -/
structure Call.IsInside (document : Json) (node first : Node) (call other : Call Node Place) :
    Prop where
  same : call.SameNode other
  resolving : other.resolving = call.resolving
  active (place : Place) : place ∈ other.active ↔ place = node.place ∨ place ∈ call.active
  reaches : ReflTransGen (Leads document) node call.node
  past : call = .start Place first ∨ Stops ⟨call.resolving, call.active, first, none⟩

theorem isHandedOn_isInside (document : Json) (node first : Node) :
    IsHandedOn document (Call.IsInside document node first) where
  same h := h.same
  followed {call other ref target} h is_ref resolved := by
    refine ⟨h.same.followed ref target, congrArg (ref :: ·) h.resolving, h.active,
      h.reaches.tail (.reference is_ref resolved), .inr ?_⟩
    rcases h.past with rfl | hstops
    · exact .reference is_ref List.mem_cons_self
    · exact hstops.of_isAbove ⟨⟨rfl, rfl⟩, List.subset_cons_self _ _, List.Subset.refl _⟩
  entered {call other part} h no_ref mem := by
    have hbelow : (Network.ofDocument document).activeBelow call =
        if call.noted.isNone then call.node.place :: call.active else call.active := rfl
    have hbelow' : (Network.ofDocument document).activeBelow other =
        if call.noted.isNone then call.node.place :: other.active else other.active := by
      rw [Network.activeBelow, ← h.same.node, ← h.same.noted]
      rfl
    refine ⟨sameNode_entered document call other part, h.resolving, fun place => ?_,
      h.reaches.tail (.part no_ref mem), .inr ?_⟩
    · rw [Network.entered, Network.entered, hbelow, hbelow']
      split
      · rw [List.mem_cons, List.mem_cons, h.active, or_left_comm]
      · exact h.active place
    · rcases h.past with rfl | hstops
      · exact .schema no_ref rfl List.mem_cons_self
      · refine hstops.of_isAbove ⟨⟨rfl, rfl⟩, List.Subset.refl _, ?_⟩
        rw [Network.entered, hbelow]
        split
        · exact List.subset_cons_self _ _
        · exact List.Subset.refl _

theorem Call.IsInside.isAbove {first : Node} {call other : Call Node Place}
    (h : call.IsInside document node first other) : call.IsAbove other where
  same := h.same
  resolving := h.resolving ▸ List.Subset.refl _
  active place hplace := (h.active place).mpr (.inr hplace)

/-- Where just the second run is stopped, it has come back to the place of the schema. -/
theorem Call.IsInside.back_of_stops {first : Node} {call other : Call Node Place}
    (h : call.IsInside document node first other) (hcall : ¬Stops call) (hother : Stops other) :
    call.node.place = node.place ∧ call.noted = none ∧ call.node.place ∉ call.active := by
  cases hother with
  | reference is_ref following =>
    exact absurd (.reference (h.same.node ▸ is_ref) (h.resolving ▸ following)) hcall
  | schema no_ref unnoted translating =>
    rw [← h.same.node] at no_ref translating
    rw [← h.same.noted] at unnoted
    have hfree : call.node.place ∉ call.active := fun hplace =>
      hcall (.schema no_ref unnoted hplace)
    exact ⟨((h.active _).mp translating).resolve_right hfree, unnoted, hfree⟩

/-- Where one of united forms accepts everything, they all together do. -/
theorem isAkin_annotated_unitedForm (h : ∀ own ∈ forms, Translated own)
    (hsound : ∀ own ∈ forms, own.shape.isSound = true) {note : String}
    (hmem : .anything note ∈ forms) (fields : List (String × Json)) (note' : String) :
    (annotated fields (unitedForm forms)).IsAkin (.anything note') := by
  have hunited : Translated (unitedForm forms) := .united (List.ne_nil_of_mem hmem) h
  have hany (inRecord : Bool) (v : Json) : Shape.anything.Takes inRecord v :=
    ⟨v, _, by rw [accept]⟩
  have hleaf : (unitedForm forms).isObject = false ∧ (unitedForm forms).members = [] := by
    unfold unitedForm
    split
    · obtain rfl := List.mem_singleton.mp hmem
      exact ⟨rfl, rfl⟩
    · exact ⟨rfl, rfl⟩
  refine ⟨?_, ⟨?_, fun inRecord v => iff_of_true ?_ (hany inRecord v)⟩, ?_⟩
  · rw [Form.isObject, annotated_kind]
    exact hleaf.1
  · rw [isSound_annotated]
    exact (isSound_unitedForm_iff h).mpr hsound
  · rw [takes_annotated_iff hunited, takes_unitedForm_iff h]
    exact .inr ⟨_, hmem, hany inRecord v⟩
  · rw [(annotated_spec fields _).2, hleaf.2]
    exact .nil

section
variable {nodes : List Node} {refs : List String} {call : Call Node Place} {entry : Json × ℕ}

/-- What can be checked by itself can be checked further down as well. -/
theorem exists_isSound_of_isAbove {other : Call Node Place}
    (hcovers : Network.Covers document nodes refs) (habove : call.IsAbove other)
    (hkept : (Network.ofDocument document).Kept nodes call)
    (hkept' : (Network.ofDocument document).Kept nodes other)
    (h : formAt document refs call name = .ok form) (hsound : form.shape.isSound = true)
    (name' : String) :
    ∃ below, formAt document refs other name' = .ok below ∧ below.shape.isSound = true := by
  have hcut {call other : Call Node Place} (habove : call.IsAbove other)
      (_ : (Network.ofDocument document).Kept nodes call)
      (hkept' : (Network.ofDocument document).Kept nodes other) (hstops : Stops call ∨ Stops other)
      (name name' : String) (form : Form) (_ : formAt document refs call name = .ok form) :
      ∃ related, formAt document refs other name' = .ok related ∧
        (form.shape.isSound = true → related.shape.isSound = true) := by
    have hstops' : Stops other := hstops.elim (·.of_isAbove habove) id
    obtain ⟨note, hnote⟩ := hstops'.formAt_eq hcovers hkept'.node
    exact ⟨_, hnote name', fun _ => rfl⟩
  obtain ⟨below, hbelow, hlinked⟩ := exists_linked hcovers isCongruence_isSound
    (isHandedOn_isAbove document) hcut habove hkept hkept' name name' form h
  exact ⟨below, hbelow, hlinked.related hsound⟩

/-- The schemas that a node lists can be checked, each by itself. -/
def ChecksListed (document : Json) (refs : List String) (node : Node) (key : String)
    (items : List Json) : Prop :=
  ∀ entry ∈ items.zipIdx, ∃ called own,
    formAt document refs (.start Place (listedNode node key entry)) called = .ok own ∧
      own.shape.isSound = true

section
variable (hcovers : Network.Covers document nodes refs) (hmem : node ∈ nodes)
  (hnode : node.value = .obj fields) (hlists : ListsAlternatives fields key items)
  (hchecks : ChecksListed document refs node key items) (hentry : entry ∈ items.zipIdx)
include hcovers hmem hnode hlists hchecks hentry

/-- A schema that is come back to from one of its alternatives accepts everything. -/
theorem isAkin_anything_of_back (hkept : (Network.ofDocument document).Kept nodes call)
    (hback : call.node = node) (hnoted : call.noted = none) (hfree : node.place ∉ call.active)
    (hstops : Stops ⟨call.resolving, call.active, listedNode node key entry, none⟩)
    (h : formAt document refs call name = .ok form) (note : String) :
    form.IsAkin (.anything note) := by
  subst hback
  have htranslate : translate document (remaining refs call.resolving) call.active call.node name =
      .ok form := by
    rw [formAt, Call.toNode, hnoted] at h
    exact mapError_eq_ok.mp h
  obtain ⟨forms, hforms, rfl⟩ :=
    (translate_of_listsAlternatives hnode hlists (.inr hfree)).mp htranslate
  let below (entry : Json × ℕ) : Call Node Place :=
    ⟨call.resolving, call.node.place :: call.active, listedNode call.node key entry, none⟩
  have hbelow (entry : Json × ℕ) (hentry : entry ∈ items.zipIdx) :
      (Network.ofDocument document).Kept nodes (below entry) :=
    kept_below hcovers hkept hfree (hlists.listedNode_mem hnode hentry)
  have hlisted {entry : Json × ℕ} {own : Form} (hform : listedForm document
      (remaining refs call.resolving) call.active call.node key (name ++ "Option") entry =
        .ok own) :
      formAt document refs (below entry)
        (name ++ "Option" ++ Decimal.natText (entry.2 + 1)) = .ok own := by
    rw [formAt_listedNode (hcovers.unaltered _ hmem), hform]
    rfl
  -- The alternative is come to for the second time.
  obtain ⟨noteOwn, hown⟩ : ∃ note, .anything note ∈ forms := by
    obtain ⟨own, hown, hform⟩ := exists_of_mem_of_forall₂ hforms.flip hentry
    have hstops' : Stops (below entry) :=
      hstops.of_isAbove ⟨⟨rfl, rfl⟩, List.Subset.refl _, List.subset_cons_self _ _⟩
    obtain ⟨note, hnote⟩ := hstops'.formAt_eq hcovers (hbelow entry hentry).node
    obtain rfl := Except.ok.inj ((hlisted hform).symm.trans (hnote _))
    exact ⟨note, hown⟩
  refine isAkin_annotated_unitedForm (fun own hown => ?_) (fun own hown => ?_) hown fields note
  · obtain ⟨entry, -, hform⟩ := exists_of_mem_of_forall₂ hforms hown
    exact translated_of_translate hform
  · obtain ⟨entry, hentry, hform⟩ := exists_of_mem_of_forall₂ hforms hown
    obtain ⟨called, alone, halone, hsound⟩ := hchecks entry hentry
    have habove : (Call.start Place (listedNode call.node key entry)).IsAbove (below entry) :=
      ⟨⟨rfl, rfl⟩, List.nil_subset _, List.nil_subset _⟩
    obtain ⟨related, hrelated, hsound⟩ := exists_isSound_of_isAbove hcovers habove
      (Network.kept_start _ (hbelow entry hentry).node) (hbelow entry hentry) halone hsound _
    rw [Except.ok.inj ((hlisted hform).symm.trans hrelated)]
    exact hsound

variable {given : Json} (hkeys : document.HasDistinctKeys) (hkeys' : given.HasDistinctKeys)
  (hplaced : node.IsInPlace document given)
include hkeys hkeys' hplaced

/-- Where one of the runs is stopped, both come to forms that accept the same. -/
theorem exists_isAkin_of_stops {other : Call Node Place}
    (hinside : call.IsInside document node (listedNode node key entry) other)
    (hkept : (Network.ofDocument document).Kept nodes call)
    (hkept' : (Network.ofDocument document).Kept nodes other) (hstops : Stops call ∨ Stops other)
    (h : formAt document refs call name = .ok form) (name' : String) :
    ∃ related, formAt document refs other name' = .ok related ∧ form.IsAkin related := by
  have hother : Stops other := hstops.elim (·.of_isAbove hinside.isAbove) id
  obtain ⟨note', hnote'⟩ := hother.formAt_eq hcovers hkept'.node
  refine ⟨_, hnote' name', ?_⟩
  by_cases hcall : Stops call
  · obtain ⟨note, hnote⟩ := hcall.formAt_eq hcovers hkept.node
    obtain rfl := Except.ok.inj (h.symm.trans (hnote name))
    exact ⟨rfl, .refl _, .nil⟩
  · obtain ⟨hown, hnoted, hfree⟩ := hinside.back_of_stops hcall hother
    have hcalled := isInPlace_of_reaches hkeys hkeys' hplaced hinside.reaches
    have hback := hplaced.eq_of_place hcalled hown
    have hpast : Stops ⟨call.resolving, call.active, listedNode node key entry, none⟩ := by
      refine hinside.past.resolve_left ?_
      rintro rfl
      exact listedNode_place_ne node key entry (congrArg Node.place hback)
    exact isAkin_anything_of_back hcovers hmem hnode hlists hchecks hentry hkept hback hnoted
      (hown ▸ hfree) hpast h note'

/-- Inside the schema that lists it an alternative has a form that accepts what it accepts by
itself. -/
theorem exists_isAkin_listed {called : String} {own : Form}
    (h : formAt document refs (.start Place (listedNode node key entry)) called = .ok own)
    (name : String) :
    ∃ inner, formAt document refs ⟨[], [node.place], listedNode node key entry, none⟩ name =
      .ok inner ∧ own.IsAkin inner := by
  have hpart := hlists.listedNode_mem hnode hentry
  have hleads : Leads document node (listedNode node key entry) :=
    .part (ref?_eq_none_of_lookupField hnode hlists.no_ref) hpart
  have hinside : (Call.start Place (listedNode node key entry)).IsInside document node
      (listedNode node key entry) ⟨[], [node.place], listedNode node key entry, none⟩ :=
    ⟨⟨rfl, rfl⟩, rfl, by simp [Call.start], .single hleads, .inl rfl⟩
  obtain ⟨inner, hinner, hlinked⟩ := exists_linked hcovers isCongruence_isAkin
    (isHandedOn_isInside document node _)
    (fun hinside hkept hkept' hstops _ name' _ hform => exists_isAkin_of_stops hcovers hmem hnode
      hlists hchecks hentry hkeys hkeys' hplaced hinside hkept hkept' hstops hform name')
    hinside (Network.kept_start _ (hcovers.of_schemaParts hmem hpart))
    (kept_part hcovers hmem hpart) called name own h
  exact ⟨inner, hinner, hlinked.related⟩

end

end

/-! ## The form of a schema that lists alternatives -/

/-- Beside the form that an alternative has by itself there is the one inside the schema. -/
theorem exists_listedForm {given : Json} (hkeys : document.HasDistinctKeys)
    (hkeys' : given.HasDistinctKeys) (hplaced : node.IsInPlace document given)
    (hnode : node.value = .obj fields) (hlists : ListsAlternatives fields key items)
    (hforms : List.Forall₂ (fun entry own => ∃ called,
      formOf document (listedNode node key entry) called = .ok own ∧ own.shape.isSound = true)
        items.zipIdx forms) (called : String) :
    ∃ inner, List.Forall₂ (fun entry own => listedForm document
        (refTexts document ++ refTexts node.value) [] node key called entry = .ok own)
          items.zipIdx inner ∧ List.Forall₂ Form.IsAkin forms inner := by
  have hcovers := Network.covers_nodesBeside document node
  have hmem := mem_nodesBeside document hplaced.unaltered
  have hpart {entry : Json × ℕ} (hentry : entry ∈ items.zipIdx) :
      listedNode node key entry ∈ nodesBeside document node :=
    hcovers.of_schemaParts hmem (hlists.listedNode_mem hnode hentry)
  have halone {entry : Json × ℕ} (hentry : entry ∈ items.zipIdx) {called : String} {own : Form}
      (h : formOf document (listedNode node key entry) called = .ok own) :
      formAt document (refTexts document ++ refTexts node.value)
        (.start Place (listedNode node key entry)) called = .ok own := by
    rw [formAt_start_eq_formOf hcovers (hpart hentry), h]
    rfl
  have hchecks :
      ChecksListed document (refTexts document ++ refTexts node.value) node key items := by
    intro entry hentry
    obtain ⟨own, -, called, hform, hsound⟩ := exists_of_mem_of_forall₂ hforms.flip hentry
    exact ⟨called, own, halone hentry hform, hsound⟩
  refine exists_forall₂_of_forall₂ hforms fun entry hentry own howned => ?_
  obtain ⟨alone, hform, -⟩ := howned
  obtain ⟨inner, hinner, hakin⟩ := exists_isAkin_listed hcovers hmem hnode hlists hchecks
    hentry hkeys hkeys' hplaced (halone hentry hform) (called ++ Decimal.natText (entry.2 + 1))
  rw [formAt_listedNode hplaced.unaltered, remaining_nil] at hinner
  exact ⟨inner, mapError_eq_ok.mp hinner, hakin⟩

/-- A schema that lists alternatives, each of which can be checked by itself, can be checked, and it
accepts the values that one of the alternatives accepts by itself. What a value is accepted as is
what an alternative that accepts it makes of it inside the schema, or what one of those makes of it
that the alternative brings in, when it is made of alternatives itself and has no description.
Inside the schema an alternative accepts what it accepts by itself, and where nothing leads back it
has the same form. -/
theorem formOf_alternatives {given : Json} (hkeys : document.HasDistinctKeys)
    (hkeys' : given.HasDistinctKeys) (hplaced : node.IsInPlace document given)
    (hnode : node.value = .obj fields) (hlists : ListsAlternatives fields key items)
    (hnullable : said fields "nullable" ≠ .bool true)
    (hforms : List.Forall₂ (fun entry own => ∃ called,
      formOf document (listedNode node key entry) called = .ok own ∧ own.shape.isSound = true)
        items.zipIdx forms) (name : String) :
    ∃ form inner, formOf document node name = .ok form ∧ form.shape.isSound = true ∧
      (∀ v, form.shape.accepts v = true ↔ ∃ own ∈ forms, own.shape.accepts v = true) ∧
      List.Forall₂ (fun entry own => listedForm document
        (refTexts document ++ refTexts node.value) [] node key (name ++ "Option") entry = .ok own)
          items.zipIdx inner ∧
      List.Forall₂ (fun own other => ∀ v, own.shape.accepts v = other.shape.accepts v) forms inner ∧
      (∀ v w, form.shape.validate v = .ok w → ∃ own ∈ inner, own.shape.accepts v = true ∧
        (own.shape.validate v = .ok w ∨ ∃ x ∈ own.alternatives, x.validate v = .ok w)) ∧
      (LeadsNowhereBack document node → ∀ entry ∈ items.zipIdx,
        listedForm document (refTexts document ++ refTexts node.value) [] node key
          (name ++ "Option") entry = formOf document (listedNode node key entry)
            (name ++ "Option" ++ Decimal.natText (entry.2 + 1))) := by
  obtain ⟨inner, hinner, hakin⟩ :=
    exists_listedForm hkeys hkeys' hplaced hnode hlists hforms (name ++ "Option")
  have htranslated : ∀ own ∈ inner, Translated own := by
    intro own hown
    obtain ⟨entry, -, hform⟩ := exists_of_mem_of_forall₂ hinner hown
    exact translated_of_translate hform
  have hshape : (annotated fields (unitedForm inner)).shape = (unitedForm inner).shape := by
    rcases (isAnnotated_annotated fields (unitedForm inner)).shape with ⟨hnull, -⟩ | ⟨-, hshape⟩
    · exact absurd hnull hnullable
    · exact hshape
  refine ⟨annotated fields (unitedForm inner), inner, ?_, ?_, fun v => ?_, hinner, ?_,
    fun v w hvalidate => ?_, fun hback entry hentry => ?_⟩
  · exact (translate_of_listsAlternatives hnode hlists (.inr List.not_mem_nil)).mpr
      ⟨inner, hinner, rfl⟩
  · rw [hshape, isSound_unitedForm_iff htranslated]
    intro own hown
    obtain ⟨alone, halone, hakin⟩ := exists_of_mem_of_forall₂ hakin hown
    obtain ⟨entry, -, called, -, hsound⟩ := exists_of_mem_of_forall₂ hforms halone
    rw [← hakin.shape.isSound, hsound]
  · simp only [hshape, Shape.accepts_iff]
    exact (takes_unitedForm_iff htranslated).trans
      (exists_mem_iff_of_forall₂ hakin fun _ _ hakin => hakin.shape.takes false v).symm
  · refine hakin.imp fun own other hakin v => ?_
    rw [Bool.eq_iff_iff, Shape.accepts_iff, Shape.accepts_iff]
    exact hakin.shape.takes false v
  · rw [hshape] at hvalidate
    obtain ⟨⟨_, fit⟩, haccept, rfl⟩ := map_eq_ok.mp hvalidate
    obtain ⟨own, hown, htakes, ⟨fit, hwhole⟩ | ⟨x, hx, fit, hpart⟩⟩ :=
      exists_of_accept_unitedForm haccept
    · exact ⟨own, hown, Shape.accepts_iff.mpr htakes, .inl (map_eq_ok.mpr ⟨_, hwhole, rfl⟩)⟩
    · exact ⟨own, hown, Shape.accepts_iff.mpr htakes,
        .inr ⟨x, hx, map_eq_ok.mpr ⟨_, hpart, rfl⟩⟩⟩
  · rw [listedForm, activeBelow, hplaced.unaltered, if_neg Bool.false_ne_true]
    exact translate_part hback hplaced.unaltered (ref?_eq_none_of_lookupField hnode hlists.no_ref)
      (hlists.listedNode_mem hnode hentry) _

end

/-! ### Alternatives that lead back -/

/-- A schema that asks for a type. -/
def typeSchema (name : String) : Json :=
  .obj [("type", .str name)]

/-- A schema of lists whose items are what `#/n` describes. -/
def listSchema : Json :=
  .obj [("type", .str "array"), ("items", .obj [("$ref", .str "#/n")])]

/-- Numbers, and lists of such numbers and lists. -/
def nestedNumbers : Json :=
  .obj [("n", .obj [("oneOf", .arr [typeSchema "number", listSchema])])]

/-- The node of the schema. -/
def numbersNode : Node :=
  ⟨.obj [("oneOf", .arr [typeSchema "number", listSchema])], ⟨.document, [.key "n"]⟩, false⟩

/-- The shape of the lists by themselves, where the reference is followed once. -/
def listShape : Shape :=
  .list (.unite [.number {}, .described "Circular schema" .anything])

theorem listsAlternatives_oneOf (hitems : items ≠ []) :
    ListsAlternatives [("oneOf", .arr items)] "oneOf" items where
  no_ref := by simp [lookupField]
  listed := by
    cases items with
    | nil => exact absurd rfl hitems
    | cons => rfl
  first := .inl rfl

theorem hasDistinctKeys_nestedNumbers : nestedNumbers.HasDistinctKeys := by
  simp [nestedNumbers, typeSchema, listSchema, Json.hasDistinctKeys_obj, Json.hasDistinctKeys_arr]

theorem formOf_numbersNode_number :
    formOf nestedNumbers (listedNode numbersNode "oneOf" (typeSchema "number", 0)) "Value" =
      .ok ⟨.number, .number {}, "", []⟩ :=
  formOf_of_translateWithin rfl (show _ ≤ 60 by decide +kernel) rfl

theorem formOf_numbersNode_list :
    formOf nestedNumbers (listedNode numbersNode "oneOf" (listSchema, 1)) "Value" =
      .ok ⟨.array, listShape, "", []⟩ :=
  formOf_of_translateWithin rfl (show _ ≤ 60 by decide +kernel) rfl

theorem unite_number_described (note : String) (bounds : Bounds) (shape : Shape) :
    Shape.unite [.number bounds, .described note shape] =
      .either [.number bounds, .described note shape] := by
  simp [Shape.unite, Shape.variants, Shape.distinctFrom, Shape.same, Shape.oneOf, Shape.isOptional]

theorem unite_number_list (bounds : Bounds) (item : Shape) :
    Shape.unite [.number bounds, .list item] = .either [.number bounds, .list item] := by
  simp [Shape.unite, Shape.variants, Shape.distinctFrom, Shape.same, Shape.oneOf, Shape.isOptional]

/-- Inside the schema the lists are not looked into, and by themselves they are looked into one
level deep; both accept the same, whatever is in them. -/
theorem formOf_alternatives_numbers :
    resolveRef nestedNumbers "#/n" = .ok (some numbersNode) ∧
    ∃ form, formOf nestedNumbers numbersNode "Value" = .ok form ∧ form.shape.isSound = true ∧
      ∀ v, form.shape.accepts v = true ↔
        (Shape.number {}).accepts v = true ∨ listShape.accepts v = true := by
  have hsound : listShape.isSound = true := by
    rw [listShape, unite_number_described]
    rfl
  have hplaced : numbersNode.IsInPlace nestedNumbers .null := ⟨rfl, rfl⟩
  obtain ⟨form, -, hform, hchecked, haccepts, -⟩ :=
    formOf_alternatives hasDistinctKeys_nestedNumbers Json.hasDistinctKeys_null hplaced rfl
      (listsAlternatives_oneOf (List.cons_ne_nil _ _)) (by simp [said, lookupField])
      (.cons ⟨_, formOf_numbersNode_number, rfl⟩
        (.cons ⟨_, formOf_numbersNode_list, hsound⟩ .nil)) "Value"
  exact ⟨rfl, form, hform, hchecked, fun v => by simp [haccepts]⟩

/-! ### Values that no alternative returns -/

/-- Objects with one property, which is a truth value. -/
def flagSchema : Json :=
  .obj [("type", .str "object"), ("properties", .obj [("x", typeSchema "boolean")])]

/-- Tables of integers, or objects with two properties. -/
def innerChoice : Json :=
  .obj [("oneOf", .arr [
    .obj [("type", .str "object"), ("additionalProperties", typeSchema "integer")],
    .obj [("type", .str "object"), ("properties", .obj [
      ("x", typeSchema "integer"), ("y", typeSchema "string")])]])]

/-- Alternatives of which one lists alternatives itself. -/
def outerChoice : Node :=
  .ofValue (.obj [("oneOf", .arr [flagSchema, innerChoice])])

/-- The record of the objects with one property. -/
def flagShape (name : String) : Shape :=
  .record (Naming.typeName name) [⟨"x", "x", false, "", .optional .truth⟩]

/-- The record of the objects with two properties. -/
def pairShape (name : String) : Shape :=
  .record (Naming.typeName name) [⟨"x", "x", false, "", .optional (.whole {})⟩,
    ⟨"y", "y", false, "", .optional (.text {})⟩]

theorem unite_table_pair (name : String) :
    Shape.unite [.table (.whole {}), pairShape name] =
      .either [.table (.whole {}), pairShape name] := by
  simp [pairShape, Shape.unite, Shape.variants, Shape.distinctFrom, Shape.same, Shape.oneOf,
    Shape.isOptional]

theorem unite_flag_unite (name other : String) :
    Shape.unite [flagShape name, .unite [.table (.whole {}), pairShape other]] =
      .either [flagShape name, .table (.whole {}), pairShape other] := by
  rw [unite_table_pair]
  simp [flagShape, pairShape, Shape.unite, Shape.variants, Shape.distinctFrom, Shape.same,
    Shape.oneOf, Shape.isOptional]

theorem formOf_outerChoice : formOf .null outerChoice "Value" = .ok ⟨.union, .unite [
    flagShape ("Value" ++ "Option" ++ Decimal.natText 1),
    .unite [.table (.whole {}),
      pairShape ("Value" ++ "Option" ++ Decimal.natText 2 ++ "Option" ++ Decimal.natText 2)]],
    "", []⟩ :=
  formOf_of_translateWithin rfl (show _ ≤ 60 by decide +kernel) rfl

theorem formOf_innerChoice :
    formOf .null (listedNode outerChoice "oneOf" (innerChoice, 1)) "Value" = .ok ⟨.union, .unite [
      .table (.whole {}), pairShape ("Value" ++ "Option" ++ Decimal.natText 2)], "", []⟩ :=
  formOf_of_translateWithin rfl (show _ ≤ 60 by decide +kernel) rfl

theorem formOf_flagSchema : ∃ members,
    formOf .null (listedNode outerChoice "oneOf" (flagSchema, 0)) "Value" =
      .ok ⟨.object, flagShape "Value", "", members⟩ :=
  ⟨_, formOf_of_translateWithin rfl (show _ ≤ 60 by decide +kernel) rfl⟩

theorem formOf_numbersNode : formOf nestedNumbers numbersNode "Value" = .ok ⟨.union, .unite [
    .number {}, .list (.described "Circular schema" .anything)], "", []⟩ :=
  formOf_of_translateWithin rfl (show _ ≤ 60 by decide +kernel) rfl

/-- A reference beside which an alternative is listed. -/
def referringChoice : Node :=
  .ofValue (.obj [("$ref", .str "#/t"), ("oneOf", .arr [typeSchema "boolean"])])

/-- A schema of integers, as the target of the reference. -/
def integerTarget : Json :=
  .obj [("t", typeSchema "integer")]

theorem formOf_referringChoice :
    formOf integerTarget referringChoice "Value" = .ok ⟨.integer, .whole {}, "", []⟩ :=
  formOf_of_translateWithin rfl (show _ ≤ 60 by decide +kernel) rfl

theorem formOf_referringChoice_truth :
    formOf integerTarget (listedNode referringChoice "oneOf" (typeSchema "boolean", 0)) "Value" =
      .ok ⟨.boolean, .truth, "", []⟩ :=
  formOf_of_translateWithin rfl (show _ ≤ 60 by decide +kernel) rfl

/-- A record among the alternatives of an alternative is chosen for having more of its fields given,
where its own list would choose the table before it. Where a reference leads back, an integer that
is too large for a double stays as it is, while the alternative by itself rounds it. And what stands
beside a reference does not count as an alternative. -/
theorem validate_ne_alternatives :
    (∃ form own other, formOf .null outerChoice "Value" = .ok form ∧
      formOf .null (listedNode outerChoice "oneOf" (flagSchema, 0)) "Value" = .ok own ∧
      formOf .null (listedNode outerChoice "oneOf" (innerChoice, 1)) "Value" = .ok other ∧
      own.shape.isSound = true ∧ other.shape.isSound = true ∧
      form.shape.validate (.obj [("x", .str "1"), ("y", .str "2")]) =
        .ok (.obj [("x", .int 1), ("y", .str "2")]) ∧
      own.shape.validate (.obj [("x", .str "1"), ("y", .str "2")]) =
        .ok (.obj [("x", .bool true), ("y", .str "2")]) ∧
      other.shape.validate (.obj [("x", .str "1"), ("y", .str "2")]) =
        .ok (.obj [("x", .int 1), ("y", .int 2)])) ∧
    (∃ form own other, formOf nestedNumbers numbersNode "Value" = .ok form ∧
      formOf nestedNumbers (listedNode numbersNode "oneOf" (typeSchema "number", 0)) "Value" =
        .ok own ∧
      formOf nestedNumbers (listedNode numbersNode "oneOf" (listSchema, 1)) "Value" = .ok other ∧
      own.shape.isSound = true ∧ other.shape.isSound = true ∧
      form.shape.validate (.arr [.int 9007199254740993]) = .ok (.arr [.int 9007199254740993]) ∧
      own.shape.accepts (.arr [.int 9007199254740993]) = false ∧
      other.shape.validate (.arr [.int 9007199254740993]) =
        .ok (.arr [.float 9007199254740992])) ∧
    ∃ form own, formOf integerTarget referringChoice "Value" = .ok form ∧
      formOf integerTarget (listedNode referringChoice "oneOf" (typeSchema "boolean", 0)) "Value" =
        .ok own ∧
      own.shape.isSound = true ∧ form.shape.accepts (.int 2) = true ∧
      own.shape.accepts (.int 2) = false := by
  refine ⟨?_, ?_, ?_⟩
  · obtain ⟨members, hflag⟩ := formOf_flagSchema
    refine ⟨_, _, _, formOf_outerChoice, hflag, formOf_innerChoice, rfl, ?_, ?_, rfl, ?_⟩
    · rw [unite_table_pair]
      rfl
    · rw [unite_flag_unite]
      rfl
    · rw [unite_table_pair]
      rfl
  · refine ⟨_, _, _, formOf_numbersNode, formOf_numbersNode_number, formOf_numbersNode_list, rfl,
      ?_, ?_, rfl, ?_⟩
    · rw [listShape, unite_number_described]
      rfl
    · rw [unite_number_list]
      rfl
    · rw [listShape, unite_number_described]
      rfl
  · exact ⟨_, _, formOf_referringChoice, formOf_referringChoice_truth, rfl, by decide +kernel,
      by decide +kernel⟩

end Toolgate.Schema
