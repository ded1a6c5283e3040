import Toolgate.Proofs.Result
import Toolgate.Proofs.Schema.Record

/-!
# Missing fields

That something is missing is told of a field that is required and not given, and of nothing else: a
value that is there is never called missing.

## Main statements

* `missing_notMem_of_accept`: no value is itself called missing
* `missingAt_mem_acceptFields_iff`: a field of a record is called missing if and only if it is
  required and not given
-/

namespace Toolgate.Schema

/-- The complaint that a value is missing where it should stand. -/
def missingHere : Trouble :=
  ⟨[], .missing⟩

theorem inside_ne_missingHere (step : Step) (trouble : Trouble) :
    trouble.inside step ≠ missingHere :=
  fun h => List.cons_ne_nil _ _ (congrArg Trouble.path h)

theorem missingHere_notMem_map_inside (step : Step) (troubles : List Trouble) :
    missingHere ∉ troubles.map (.inside step) := fun h =>
  let ⟨trouble, _, heq⟩ := List.mem_map.mp h
  inside_ne_missingHere step trouble heq

/-! ## Values that are there -/

section
variable {inRecord : Bool} {v : Json} {troubles : List Trouble}

theorem missingHere_notMem_of_complain {α : Type} {complaint : Complaint}
    (h : (complain complaint : Except (List Trouble) α) = .error troubles)
    (hne : complaint ≠ .missing) : missingHere ∉ troubles := by
  obtain rfl := Except.error.inj h
  exact fun hmem => hne (congrArg Trouble.complaint (List.mem_singleton.mp hmem)).symm

theorem missingHere_notMem_of_settle {α : Type} {toJson : α → Json}
    {broken? : α → Option Complaint} {read : Except Complaint (α × Closeness)}
    (h : settle toJson broken? read = .error troubles) (hread : read ≠ .error .missing)
    (hbroken : ∀ x, broken? x ≠ some .missing) : missingHere ∉ troubles := by
  unfold settle at h
  split at h
  · exact missingHere_notMem_of_complain h fun heq => hread (heq ▸ rfl)
  · split at h
    · next heq => exact missingHere_notMem_of_complain h fun hmissing => hbroken _ (hmissing ▸ heq)
    · cases h

theorem readText_ne_missing : readText inRecord v ≠ .error .missing := by
  cases v <;> grind [readText]

theorem readWhole_ne_missing : readWhole v ≠ .error .missing := by
  cases v <;> grind [readWhole]

theorem readNumber_ne_missing : readNumber v ≠ .error .missing := by
  cases v <;> grind [readNumber]

theorem readTruth_ne_missing : readTruth v ≠ .error .missing := by
  cases v <;> grind [readTruth, truthOfWhole]

theorem TextLimits.broken?_ne_missing (limits : TextLimits) (s : String) :
    limits.broken? s ≠ some .missing := by
  grind [TextLimits.broken?]

theorem timestampComplaint?_ne_missing (s : String) : timestampComplaint? s ≠ some .missing := by
  grind [timestampComplaint?]

theorem Bounds.brokenByWhole?_ne_missing (bounds : Bounds) (n : ℤ) :
    bounds.brokenByWhole? n ≠ some .missing := by
  grind [Bounds.brokenByWhole?]

theorem Bounds.brokenByReal?_ne_missing (bounds : Bounds) (x : Float) :
    bounds.brokenByReal? x ≠ some .missing := by
  grind [Bounds.brokenByReal?]

theorem missingHere_notMem_of_acceptMember {members : List Json}
    (h : acceptMember members v = .error troubles) : missingHere ∉ troubles := by
  unfold acceptMember at h
  dsimp only at h
  split_ifs at h
  · exact missingHere_notMem_of_complain h (by simp)
  · split at h
    · cases h
    · exact missingHere_notMem_of_complain h (by simp)

end

/-! ## Parts -/

section
variable {α : Type} {given : List (String × Json)} {inRecord : Bool}

/-- Troubles with parts are told of the parts. -/
theorem missingHere_notMem_cons {step : Step} {wrap : Json → α} {head : Checked} {rest : Parts α}
    (h : missingHere ∉ rest.troubles) :
    missingHere ∉ (Parts.cons step wrap head rest).troubles := by
  unfold Parts.cons
  split
  · exact h
  · exact List.not_mem_append (missingHere_notMem_map_inside step _) h

theorem missingHere_notMem_acceptItems (check : Json → Checked) (n : ℕ) (items : List Json) :
    missingHere ∉ (acceptItems check n items).troubles := by
  induction items generalizing n with
  | nil => exact List.not_mem_nil
  | cons v rest ih => exact missingHere_notMem_cons (ih _)

theorem missingHere_notMem_acceptValues (check : Json → Checked) (given : List (String × Json)) :
    missingHere ∉ (acceptValues check given).troubles := by
  induction given with
  | nil => exact List.not_mem_nil
  | cons field rest ih => exact missingHere_notMem_cons ih

theorem missingHere_notMem_acceptFields (given : List (String × Json))
    (fields : List (Field Shape)) : missingHere ∉ (acceptFields given fields).troubles := by
  induction fields with
  | nil => exact List.not_mem_nil
  | cons field rest ih =>
    rw [acceptFields]
    dsimp only
    split
    · exact missingHere_notMem_cons ih
    · split
      · exact List.not_mem_cons_of_ne_of_not_mem (by simp [missingHere]) ih
      · exact ih

theorem missingHere_notMem_acceptVariants {v : Json} {best : Option (Json × Fit)}
    {noted troubles : List Trouble} {variants : List Shape}
    (h : acceptVariants inRecord v best noted variants = .error troubles)
    (hnoted : missingHere ∉ noted) : missingHere ∉ troubles := by
  induction variants generalizing best noted with
  | nil =>
    rw [acceptVariants] at h
    cases best with
    | none => exact Except.error.inj h ▸ hnoted
    | some found => cases h
  | cons variant rest ih =>
    rw [acceptVariants] at h
    split at h
    · exact ih h (List.not_mem_append hnoted (missingHere_notMem_map_inside _ _))
    · split at h
      · cases h
      · split at h
        · exact ih h hnoted
        · exact ih h hnoted

theorem eq_of_close {parts : Parts α} {wrap : List α → Json} {troubles : List Trouble}
    (h : parts.close wrap = .error troubles) : troubles = parts.troubles := by
  unfold Parts.close at h
  split at h
  · cases h
  · exact (Except.error.inj h).symm

/-- No value is itself called missing. -/
theorem missing_notMem_of_accept {shape : Shape} {v : Json} {troubles : List Trouble}
    (h : accept inRecord shape v = .error troubles) : missingHere ∉ troubles := by
  match shape with
  | .anything => cases h
  | .text limits =>
    exact missingHere_notMem_of_settle h readText_ne_missing limits.broken?_ne_missing
  | .choice members => exact missingHere_notMem_of_acceptMember h
  | .timestamp =>
    exact missingHere_notMem_of_settle h readText_ne_missing timestampComplaint?_ne_missing
  | .whole bounds =>
    exact missingHere_notMem_of_settle h readWhole_ne_missing bounds.brokenByWhole?_ne_missing
  | .number bounds =>
    exact missingHere_notMem_of_settle h readNumber_ne_missing bounds.brokenByReal?_ne_missing
  | .truth => exact missingHere_notMem_of_settle h readTruth_ne_missing (by simp)
  | .list item =>
    cases v with
    | arr items => exact eq_of_close h ▸ missingHere_notMem_acceptItems _ 0 items
    | _ => exact missingHere_notMem_of_complain h (by simp)
  | .table value =>
    cases v with
    | obj given => exact eq_of_close h ▸ missingHere_notMem_acceptValues _ given
    | _ => exact missingHere_notMem_of_complain h (by simp)
  | .record name fields =>
    cases v with
    | obj given =>
      rw [accept, closeRecord] at h
      exact eq_of_close h ▸ missingHere_notMem_acceptFields given fields
    | _ => exact missingHere_notMem_of_complain h (by simp)
  | .either variants => exact missingHere_notMem_acceptVariants h List.not_mem_nil
  | .optional inner =>
    rw [accept] at h
    split at h
    · cases h
    · exact missing_notMem_of_accept h
  | .described _ inner =>
    rw [accept] at h
    exact missing_notMem_of_accept h

/-! ## Fields of a record -/

/-- The complaint that there is nothing under a key. -/
def missingAt (key : String) : Trouble :=
  ⟨[.key key], .missing⟩

/-- What is wrong with a value that is given is not that it is missing. -/
theorem missingAt_notMem_map_inside {shape : Shape} {v : Json} {troubles : List Trouble}
    (h : accept inRecord shape v = .error troubles) (key wire : String) :
    missingAt key ∉ troubles.map (.inside (.key wire)) := by
  intro hmem
  obtain ⟨trouble, htrouble, heq⟩ := List.mem_map.mp hmem
  obtain ⟨path, complaint⟩ := trouble
  simp only [Trouble.inside, missingAt, Trouble.mk.injEq, List.cons.injEq] at heq
  obtain ⟨⟨-, rfl⟩, rfl⟩ := heq
  exact missing_notMem_of_accept h htrouble

/-- A field is called missing if and only if it is required and not given. -/
theorem missingAt_mem_acceptFields_iff {fields : List (Field Shape)} {key : String} :
    missingAt key ∈ (acceptFields given fields).troubles ↔
      ∃ field ∈ fields,
        field.wire = key ∧ field.required = true ∧ lookupField key given = none := by
  induction fields with
  | nil => simp [acceptFields]
  | cons field rest ih =>
    obtain ⟨name, wire, required, description, shape⟩ := field
    rw [acceptFields, List.exists_mem_cons_iff, ← ih]
    dsimp only
    cases hlookup : lookupField wire given with
    | some v =>
      have hfirst : ¬(wire = key ∧ required = true ∧ lookupField key given = none) := by
        rintro ⟨rfl, -, hnone⟩
        simp [hlookup] at hnone
      rw [or_iff_right hfirst]
      dsimp only
      cases haccept : accept true shape v with
      | ok found => rfl
      | error troubles =>
        exact List.mem_append.trans (or_iff_right (missingAt_notMem_map_inside haccept key wire))
    | none =>
      cases required with
      | false => simp
      | true =>
        simp only [if_true, List.mem_cons, missingAt, Trouble.mk.injEq, List.cons.injEq,
          Step.key.injEq, and_true, true_and]
        constructor
        · rintro (rfl | hrest)
          · exact .inl ⟨rfl, hlookup⟩
          · exact .inr hrest
        · rintro (⟨rfl, -⟩ | hrest)
          · exact .inl rfl
          · exact .inr hrest

/-- An object is refused for the lack of a key if and only if a required field has that key. -/
theorem missingAt_mem_of_validate_iff {name key : String} {fields : List (Field Shape)} :
    (∃ troubles, (Shape.record name fields).validate (.obj given) = .error troubles ∧
        missingAt key ∈ troubles) ↔
      ∃ field ∈ fields,
        field.wire = key ∧ field.required = true ∧ lookupField key given = none := by
  rw [← missingAt_mem_acceptFields_iff]
  constructor
  · rintro ⟨troubles, hvalidate, hmem⟩
    rw [Shape.validate, map_eq_error, accept, closeRecord] at hvalidate
    exact eq_of_close hvalidate ▸ hmem
  · intro hmem
    refine ⟨_, ?_, hmem⟩
    have hsome : (acceptFields given fields).troubles.isEmpty = false :=
      List.isEmpty_eq_false_iff.mpr (List.ne_nil_of_mem hmem)
    rw [Shape.validate, map_eq_error, accept, closeRecord, Parts.close]
    dsimp only
    rw [hsome]
    rfl

end

end Toolgate.Schema
