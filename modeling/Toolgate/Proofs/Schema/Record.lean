import Mathlib.Data.List.Find
import Mathlib.Data.List.Forall2
import Toolgate.Proofs.Json.Fields
import Toolgate.Proofs.Schema.Complaint

/-!
# Records

An object is accepted as a record exactly when each declared field is fit: it is given with a value
that is accepted, or it is not given and need not be. The checked record has under a declared key
what the given value was accepted as.

## Main definitions

* `Field.IsFit`: is a field given as it must be?
* `recordFields`: the fields of a checked record

## Main statements

* `accept_record_iff`: which values are accepted as a record
* `lookupField_recordFields`: what is found under a declared key
* `accept_ne_null`: checking makes no null
-/

namespace Toolgate.Schema

/-! ## Fields merged by key -/

/-- Of several values under a key the last one counts. -/
theorem lookupField_mergeFields (key : String) (fields : List (String × Json)) :
    lookupField key (mergeFields fields) = lookupField key fields.reverse := by
  have hfold (merged : List (String × Json)) :
      lookupField key (fields.foldl (fun merged field => setField field.1 field.2 merged) merged) =
        (lookupField key fields.reverse).or (lookupField key merged) := by
    induction fields generalizing merged with
    | nil => rfl
    | cons field rest ih =>
      obtain ⟨k, v⟩ := field
      rw [List.foldl_cons, ih, List.reverse_cons, lookupField_append, Option.or_assoc]
      congr 1
      by_cases hk : key = k
      · subst hk
        simp [lookupField]
      · simp [lookupField_setField_of_ne hk, lookupField, Ne.symm hk]
  simpa [mergeFields, lookupField] using hfold []

/-! ## Declared fields -/

/-- Is a field fit in an object with the given fields? It is when its value is accepted, or when it
is not given and need not be. -/
inductive Field.IsFit (given : List (String × Json)) (field : Field Shape) : Prop where
  | given {v w : Json} {fit : Fit} (lookup : lookupField field.wire given = some v)
      (accepted : accept true field.shape v = .ok (w, fit))
  | absent (lookup : lookupField field.wire given = none) (optional : field.required = false)

/-- What the value of a field is accepted as. -/
def Field.checked? (given : List (String × Json)) (field : Field Shape) : Option Json :=
  (lookupField field.wire given).bind fun v =>
    (accept true field.shape v).toOption.map Prod.fst

section
variable {given : List (String × Json)} {fields : List (Field Shape)}

theorem Field.checked?_eq_some {field : Field Shape} {v w : Json} {fit : Fit}
    (lookup : lookupField field.wire given = some v)
    (accepted : accept true field.shape v = .ok (w, fit)) : field.checked? given = some w := by
  simp [Field.checked?, lookup, accepted, Except.toOption]

/-- There are no troubles where each field is fit. -/
theorem acceptFields_of_isFit (h : ∀ field ∈ fields, field.IsFit given) :
    (acceptFields given fields).troubles = [] ∧
      (acceptFields given fields).values =
        fields.map fun field => (field, field.checked? given) := by
  induction fields with
  | nil => exact ⟨rfl, rfl⟩
  | cons field rest ih =>
    have hfield := h field List.mem_cons_self
    obtain ⟨htroubles, hvalues⟩ := ih fun field hmem => h field (List.mem_cons_of_mem _ hmem)
    obtain ⟨name, wire, required, description, shape⟩ := field
    rw [acceptFields, List.map_cons, ← hvalues, Field.checked?]
    cases hfield with
    | given lookup accepted =>
      dsimp only at lookup accepted ⊢
      simp only [lookup, accepted, Parts.cons, htroubles, Option.bind_some]
      exact ⟨trivial, rfl⟩
    | absent lookup optional =>
      dsimp only at lookup optional ⊢
      simp only [lookup, optional, Bool.false_eq_true, if_false, htroubles]
      exact ⟨trivial, rfl⟩

/-- Without troubles each field is fit. -/
theorem isFit_of_troubles_eq_nil (hcomplains : ∀ field ∈ fields, field.shape.Complains)
    (h : (acceptFields given fields).troubles = []) : ∀ field ∈ fields, field.IsFit given := by
  induction fields with
  | nil => simp
  | cons field rest ih =>
    have hrest := ih fun field hfield => hcomplains field (List.mem_cons_of_mem _ hfield)
    rw [List.forall_mem_cons]
    obtain ⟨name, wire, required, description, shape⟩ := field
    rw [acceptFields] at h
    dsimp only at h
    cases hlookup : lookupField wire given with
    | some v =>
      simp only [hlookup] at h
      cases hshape : accept true shape v with
      | error troubles =>
        simp only [hshape, Parts.cons, List.append_eq_nil_iff, List.map_eq_nil_iff] at h
        exact absurd (h.1 ▸ hshape) (hcomplains _ List.mem_cons_self true v)
      | ok checked =>
        simp only [hshape, Parts.cons] at h
        exact ⟨.given hlookup hshape, hrest h⟩
    | none =>
      simp only [hlookup] at h
      cases required with
      | true => simp at h
      | false =>
        simp only [Bool.false_eq_true, if_false] at h
        exact ⟨.absent hlookup rfl, hrest h⟩

/-! ## Checked records -/

/-- The fields of a checked record, before they are merged. -/
def recordFields (given : List (String × Json)) (fields : List (Field Shape)) :
    List (String × Json) :=
  arrangeFields (extraFields fields given) (fields.map fun field => (field, field.checked? given))
    ++ extraFields fields given

/-- A value is accepted as a record when it is an object in which each declared field is fit. -/
theorem accept_record_iff (hcomplains : ∀ field ∈ fields, field.shape.Complains) {inRecord : Bool}
    {name : String} {v w : Json} :
    (∃ fit, accept inRecord (.record name fields) v = .ok (w, fit)) ↔
      ∃ given, v = .obj given ∧ (∀ field ∈ fields, field.IsFit given) ∧
        w = .obj (mergeFields (recordFields given fields)) := by
  constructor
  · rintro ⟨fit, haccept⟩
    cases v with
    | obj given =>
      rw [accept, closeRecord, Parts.close] at haccept
      dsimp only at haccept
      split at haccept
      · next hnone =>
        have hfit := isFit_of_troubles_eq_nil hcomplains (List.isEmpty_iff.mp hnone)
        refine ⟨given, rfl, hfit, ?_⟩
        rw [recordFields, ← (acceptFields_of_isFit hfit).2]
        exact (Prod.mk.inj (Except.ok.inj haccept)).1.symm
      · cases haccept
    | _ => cases haccept
  · rintro ⟨given, rfl, hfit, rfl⟩
    obtain ⟨htroubles, hvalues⟩ := acceptFields_of_isFit hfit
    rw [accept, closeRecord, Parts.close, recordFields, ← hvalues]
    dsimp only
    rw [htroubles]
    exact ⟨_, rfl⟩

/-- Those fields are arranged that have a value, and those whose inner name is an undeclared key. -/
theorem arrangeFields_eq (extras : List (String × Json))
    (values : List (Field Shape × Option Json)) : arrangeFields extras values =
      (values.filter fun value => value.2.isSome || extras.any (·.1 == value.1.name)).map
        fun value => (value.1.wire, value.2.getD .null) := by
  induction values with
  | nil => rfl
  | cons value rest ih =>
    obtain ⟨field, v?⟩ := value
    cases v? with
    | some v => simp [arrangeFields, ih]
    | none =>
      rw [arrangeFields, List.filter_cons]
      split <;> simp_all

/-- Under a declared key that is given, the checked record has what the last field of that key
accepted the value as. -/
theorem lookupField_recordFields_of_last (hfit : ∀ field ∈ fields, field.IsFit given)
    {field : Field Shape} {key : String} {v : Json}
    (last : fields.reverse.find? (·.wire == key) = some field)
    (hgiven : lookupField key given = some v) : ∃ w fit, accept true field.shape v = .ok (w, fit) ∧
      lookupField key (mergeFields (recordFields given fields)) = some w := by
  obtain ⟨hfield, hwire⟩ : field ∈ fields ∧ field.wire = key :=
    ⟨List.mem_reverse.mp (List.mem_of_find?_eq_some last), by simpa using List.find?_some last⟩
  -- A fit field of this key was accepted.
  have accepted {other : Field Shape} (hother : other ∈ fields) (hkey : other.wire = key) :
      ∃ w fit, accept true other.shape v = .ok (w, fit) ∧ other.checked? given = some w := by
    cases hfit other hother with
    | @given u w fit lookup accepted =>
      rw [hkey, hgiven] at lookup
      obtain rfl := Option.some.inj lookup
      exact ⟨w, fit, accepted, Field.checked?_eq_some (hkey ▸ hgiven) accepted⟩
    | absent lookup optional => simp [hkey, hgiven] at lookup
  -- An undeclared field has another key.
  have hextras : (extraFields fields given).reverse.find? (·.1 == key) = none := by
    refine List.find?_eq_none.mpr fun entry hentry heq => ?_
    have hfree := (List.mem_filter.mp (List.mem_reverse.mp hentry)).2
    simp only [Bool.not_eq_true', List.any_eq_false, beq_iff_eq] at hfree heq
    exact hfree field hfield (hwire.trans heq.symm)
  have harranged : fields.reverse.find? (fun other => decide (((other.checked? given).isSome ||
      (extraFields fields given).any (·.1 == other.name)) = true ∧ (other.wire == key) = true)) =
        some field := by
    rw [← last]
    refine List.find?_congr fun other hother => Bool.eq_iff_iff.mpr ?_
    rw [decide_eq_true_iff, and_iff_right_iff_imp, beq_iff_eq]
    intro hkey
    obtain ⟨_, _, -, hchecked⟩ := accepted (List.mem_reverse.mp hother) hkey
    simp [hchecked]
  obtain ⟨w, fit, haccept, hchecked⟩ := accepted hfield hwire
  refine ⟨w, fit, haccept, ?_⟩
  rw [lookupField_mergeFields, recordFields, arrangeFields_eq, List.reverse_append,
    lookupField_append, lookupField_eq_find?, hextras, lookupField_eq_find?, ← List.map_reverse,
    ← List.filter_reverse, ← List.map_reverse, List.find?_map, List.find?_filter, List.find?_map]
  simp only [Function.comp_def, harranged, Option.map_none, Option.map_some, Option.none_or,
    hchecked, Option.getD_some]

/-- Under a declared key that is given, the checked record has what the value was accepted as. -/
theorem lookupField_recordFields (hfit : ∀ field ∈ fields, field.IsFit given)
    {field : Field Shape} {v : Json} (hfield : field ∈ fields)
    (hgiven : lookupField field.wire given = some v) :
    ∃ other ∈ fields, other.wire = field.wire ∧ ∃ w fit, accept true other.shape v = .ok (w, fit) ∧
      lookupField field.wire (mergeFields (recordFields given fields)) = some w := by
  obtain ⟨other, last⟩ : ∃ other, fields.reverse.find? (·.wire == field.wire) = some other :=
    Option.isSome_iff_exists.mp (List.find?_isSome.mpr ⟨field, List.mem_reverse.mpr hfield, by simp⟩)
  exact ⟨other, List.mem_reverse.mp (List.mem_of_find?_eq_some last),
    by simpa using List.find?_some last, lookupField_recordFields_of_last hfit last hgiven⟩

end

/-! ## Checking makes no null -/

theorem exists_of_settle {α : Type} {toJson : α → Json} {broken? : α → Option Complaint}
    {read : Except Complaint (α × Closeness)} {w : Json} {fit : Fit}
    (h : settle toJson broken? read = .ok (w, fit)) : ∃ x closeness,
      read = .ok (x, closeness) ∧ toJson x = w := by
  unfold settle at h
  split at h
  · cases h
  · next x closeness =>
    split at h
    · cases h
    · exact ⟨x, closeness, rfl, (Prod.mk.inj (Except.ok.inj h)).1⟩

theorem exists_of_close {α : Type} {parts : Parts α} {wrap : List α → Json} {w : Json} {fit : Fit}
    (h : parts.close wrap = .ok (w, fit)) : ∃ values, wrap values = w := by
  unfold Parts.close at h
  split at h
  · exact ⟨_, (Prod.mk.inj (Except.ok.inj h)).1⟩
  · cases h

theorem eq_null_of_same {v : Json} (h : Json.same .null v = true) : v = .null := by
  cases v <;> first | rfl | cases h

theorem ne_null_of_acceptMember {members : List Json} {v w : Json} {fit : Fit}
    (h : acceptMember members v = .ok (w, fit)) (hv : v ≠ .null) : w ≠ .null := by
  unfold acceptMember at h
  dsimp only at h
  split_ifs at h
  · cases h
  · split at h
    · next member hfound =>
      obtain rfl := (Prod.mk.inj (Except.ok.inj h)).1
      rintro rfl
      exact hv (eq_null_of_same (by simpa using List.find?_some hfound))
    · cases h

/-- Alternatives hand on what one of the variants made of the value. -/
theorem exists_of_acceptVariants {inRecord : Bool} {v w : Json} {best : Option (Json × Fit)}
    {troubles : List Trouble} {variants : List Shape} {fit : Fit}
    (h : acceptVariants inRecord v best troubles variants = .ok (w, fit)) :
    (∃ fit, best = some (w, fit)) ∨
      ∃ variant ∈ variants, ∃ fit, accept inRecord variant v = .ok (w, fit) := by
  induction variants generalizing best troubles with
  | nil =>
    rw [acceptVariants] at h
    cases best with
    | none => cases h
    | some found => exact .inl ⟨found.2, by rw [← (Prod.mk.inj (Except.ok.inj h)).1]⟩
  | cons variant rest ih =>
    have later (h : ∃ variant ∈ rest, ∃ fit, accept inRecord variant v = .ok (w, fit)) :
        ∃ other ∈ variant :: rest, ∃ fit, accept inRecord other v = .ok (w, fit) := by
      obtain ⟨other, hother, haccept⟩ := h
      exact ⟨other, List.mem_cons_of_mem _ hother, haccept⟩
    rw [acceptVariants] at h
    split at h
    · exact (ih h).imp_right later
    · next u found hfound =>
      have here (heq : u = w) : ∃ other ∈ variant :: rest, ∃ fit,
          accept inRecord other v = .ok (w, fit) :=
        ⟨variant, List.mem_cons_self, found, heq ▸ hfound⟩
      split at h
      · exact .inr (here (Prod.mk.inj (Except.ok.inj h)).1)
      · split at h
        · rcases ih h with ⟨fit, hbest⟩ | hrest
          · exact .inr (here (Prod.mk.inj (Option.some.inj hbest)).1)
          · exact .inr (later hrest)
        · exact (ih h).imp_right later

/-- What is not null is accepted as something that is not null. -/
theorem accept_ne_null {inRecord : Bool} {shape : Shape} {v w : Json} {fit : Fit}
    (h : accept inRecord shape v = .ok (w, fit)) (hv : v ≠ .null) : w ≠ .null := by
  match shape with
  | .anything =>
    rw [accept] at h
    exact (Prod.mk.inj (Except.ok.inj h)).1 ▸ hv
  | .text _ | .timestamp | .whole _ | .number _ | .truth =>
    rw [accept] at h
    obtain ⟨x, -, -, rfl⟩ := exists_of_settle h
    simp
  | .choice members =>
    rw [accept] at h
    exact ne_null_of_acceptMember h hv
  | .list item =>
    cases v with
    | arr items =>
      obtain ⟨values, rfl⟩ := exists_of_close h
      simp
    | _ => cases h
  | .table value =>
    cases v with
    | obj given =>
      obtain ⟨values, rfl⟩ := exists_of_close h
      simp
    | _ => cases h
  | .record name fields =>
    cases v with
    | obj given =>
      rw [accept, closeRecord] at h
      obtain ⟨values, rfl⟩ := exists_of_close h
      simp
    | _ => cases h
  | .either variants =>
    rw [accept] at h
    rcases exists_of_acceptVariants h with ⟨fit, hnone⟩ | ⟨variant, hvariant, fit, haccept⟩
    · cases hnone
    · exact accept_ne_null haccept hv
  | .optional inner =>
    have hnull : ¬v.isNull = true := by
      cases v <;> simp_all [Json.isNull]
    rw [accept, if_neg hnull] at h
    exact accept_ne_null h hv
  | .described text inner =>
    rw [accept] at h
    exact accept_ne_null h hv
termination_by sizeOf shape
decreasing_by
  · have := List.sizeOf_lt_of_mem hvariant
    simp only [Shape.either.sizeOf_spec]
    omega
  · simp
  · simp only [Shape.described.sizeOf_spec]
    omega

end Toolgate.Schema
