import Toolgate.Proofs.Json.Fields
import Toolgate.Proofs.Json.RoundTrip

/-!
# Values that texts are read as

What is read has no dates, its integers are not too long, and each of its objects has distinct keys.
Such a value is written as a text that is read as just that value, whatever the layout, as long as
its numbers are finite: the fields of its objects keep their order, and none is lost.

## Main definitions

* `Json.IsReadable`: the values that texts are read as

## Main statements

* `isReadable_of_read?`: what is read is of this kind
* `read?_print_of_isReadable`: such a value is read from its own text
-/

namespace Toolgate.Json

mutual

/-- Can the value be read from a text? It has no dates, its integers are not too long, and no object
in it has a key twice. -/
def IsReadable : Json → Prop
  | .int n => (Decimal.natDigits n.natAbs).length ≤ Decimal.maxDigits
  | .date _ => False
  | .arr items => ItemsReadable items
  | .obj fields => (fields.map Prod.fst).Nodup ∧ FieldsReadable fields
  | _ => True

/-- Can each item be read? -/
def ItemsReadable : List Json → Prop
  | [] => True
  | v :: rest => IsReadable v ∧ ItemsReadable rest

/-- Can the value of each field be read? -/
def FieldsReadable : List (String × Json) → Prop
  | [] => True
  | (_, v) :: rest => IsReadable v ∧ FieldsReadable rest

end

variable {fields : List (String × Json)} {fuel : ℕ} {cs rest : List Char}

theorem fieldsReadable_setField (key : String) {v : Json} (hv : IsReadable v)
    (h : FieldsReadable fields) : FieldsReadable (setField key v fields) := by
  induction fields with
  | nil => exact ⟨hv, trivial⟩
  | cons field rest ih =>
    rw [setField]
    split
    · exact ⟨hv, h.2⟩
    · exact ⟨h.1, ih h.2⟩

/-! ## What is read -/

/-- What is read as a number begins with digits, and an integer has no more of them than may be. -/
theorem readNumber_cases {negative : Bool} {v : Json}
    (h : readNumber negative cs = some (v, rest)) :
    ∃ whole left, cs = whole ++ left ∧ whole ≠ [] ∧ (∀ c ∈ whole, Text.isAsciiDigit c = true) ∧
      ((∃ x, v = .float x) ∨ whole.length ≤ Decimal.maxDigits ∧
        v = .int (if negative then -(Decimal.natValue whole : ℤ) else Decimal.natValue whole)) := by
  unfold readNumber at h
  split at h
  next whole left hparts =>
  obtain ⟨hcs, hdigits⟩ : cs = whole ++ left ∧ ∀ c ∈ whole, Text.isAsciiDigit c = true := by
    split at hparts
    · obtain ⟨rfl, rfl⟩ := Prod.mk.inj hparts
      exact ⟨rfl, List.forall_mem_singleton.mpr rfl⟩
    · obtain ⟨rfl, rfl⟩ := Prod.mk.inj hparts
      exact ⟨List.takeWhile_append_dropWhile.symm, fun c hc => List.mem_takeWhile_imp hc⟩
  split at h
  · cases h
  next hne =>
  refine ⟨whole, left, hcs, by simpa using hne, hdigits, ?_⟩
  dsimp only at h
  split at h
  · split at h
    · cases h
    · next hlength =>
      obtain ⟨rfl, -⟩ := Prod.mk.inj (Option.some.inj h)
      exact .inr ⟨not_lt.mp hlength, rfl⟩
  · obtain ⟨rfl, -⟩ := Prod.mk.inj (Option.some.inj h)
    exact .inl ⟨_, rfl⟩

theorem isReadable_of_readNumber {negative : Bool} {v : Json}
    (h : readNumber negative cs = some (v, rest)) : IsReadable v := by
  obtain ⟨whole, -, -, hne, hdigits, ⟨x, rfl⟩ | ⟨hlength, rfl⟩⟩ := readNumber_cases h
  · trivial
  · have hshort := Decimal.length_natDigits_le (Decimal.natValue_lt_pow hdigits)
      (List.length_pos_iff.mpr hne)
    have habs : (if negative then -(Decimal.natValue whole : ℤ)
        else (Decimal.natValue whole : ℤ)).natAbs = Decimal.natValue whole := by
      split <;> simp
    rw [IsReadable, habs]
    omega

/-- Whatever so much fuel reads can be read. -/
structure ReadsReadable (fuel : ℕ) : Prop where
  value : ∀ {cs v rest}, readValue fuel cs = some (v, rest) → IsReadable v
  items : ∀ {cs items rest}, readItems fuel cs = some (items, rest) → ItemsReadable items
  fields : ∀ {done cs fields rest}, readFields fuel done cs = some (fields, rest) →
    (done.map Prod.fst).Nodup → FieldsReadable done →
      (fields.map Prod.fst).Nodup ∧ FieldsReadable fields

theorem ReadsReadable.value_succ (ih : ReadsReadable fuel) {v : Json}
    (h : readValue (fuel + 1) cs = some (v, rest)) : IsReadable v := by
  rw [readValue.eq_def] at h
  dsimp only at h
  split at h
  · obtain ⟨read, -, hv⟩ := Option.map_eq_some_iff.mp h
    obtain ⟨rfl, -⟩ := Prod.mk.inj hv
    trivial
  · split at h
    · obtain ⟨rfl, -⟩ := Prod.mk.inj (Option.some.inj h)
      trivial
    · obtain ⟨read, hread, hv⟩ := Option.map_eq_some_iff.mp h
      obtain ⟨rfl, -⟩ := Prod.mk.inj hv
      exact ih.items hread
  · split at h
    · obtain ⟨rfl, -⟩ := Prod.mk.inj (Option.some.inj h)
      exact ⟨List.nodup_nil, trivial⟩
    · obtain ⟨read, hread, hv⟩ := Option.map_eq_some_iff.mp h
      obtain ⟨rfl, -⟩ := Prod.mk.inj hv
      exact ih.fields hread List.nodup_nil trivial
  iterate 6
    · obtain ⟨rfl, -⟩ := Prod.mk.inj (Option.some.inj h)
      trivial
  · exact isReadable_of_readNumber h
  · exact isReadable_of_readNumber h

theorem ReadsReadable.items_succ (ih : ReadsReadable fuel) {items : List Json}
    (h : readItems (fuel + 1) cs = some (items, rest)) : ItemsReadable items := by
  rw [readItems] at h
  split at h
  · cases h
  next v left hv =>
  split at h
  · obtain ⟨rfl, -⟩ := Prod.mk.inj (Option.some.inj h)
    exact ⟨ih.value hv, trivial⟩
  · obtain ⟨read, hread, hitems⟩ := Option.map_eq_some_iff.mp h
    obtain ⟨rfl, -⟩ := Prod.mk.inj hitems
    exact ⟨ih.value hv, ih.items hread⟩
  · cases h

theorem ReadsReadable.fields_succ (ih : ReadsReadable fuel) {done : List (String × Json)}
    (h : readFields (fuel + 1) done cs = some (fields, rest))
    (hnodup : (done.map Prod.fst).Nodup) (hdone : FieldsReadable done) :
    (fields.map Prod.fst).Nodup ∧ FieldsReadable fields := by
  rw [readFields.eq_def] at h
  dsimp only at h
  split at h
  · split at h
    · cases h
    next key left hkey =>
    split at h
    · split at h
      · cases h
      next v after hv =>
      have hwritten := fieldsReadable_setField key (ih.value hv) hdone
      have hkeys := nodup_setField key v hnodup
      split at h
      · obtain ⟨rfl, -⟩ := Prod.mk.inj (Option.some.inj h)
        exact ⟨hkeys, hwritten⟩
      · exact ih.fields h hkeys hwritten
      · cases h
    · cases h
  · cases h

theorem readsReadable (fuel : ℕ) : ReadsReadable fuel := by
  induction fuel with
  | zero => exact ⟨nofun, nofun, nofun⟩
  | succ fuel ih => exact ⟨ih.value_succ, ih.items_succ, ih.fields_succ⟩

/-- What is read is readable. -/
theorem isReadable_of_read? {s : String} {v : Json} (h : read? s = some v) : IsReadable v := by
  unfold read? readChars? at h
  split at h
  · next hread =>
    split at h
    · exact Option.some.inj h ▸ (readsReadable _).value hread
    · cases h
  · cases h

/-! ## What is read back -/

mutual

/-- What can be read is read as it is. -/
theorem asRead_eq_self : ∀ {v : Json}, IsReadable v → v.asRead = v
  | .null, _ | .bool _, _ | .int _, _ | .float _, _ | .str _, _ => rfl
  | .arr _, h => congrArg arr (itemsAsRead_eq_self h)
  | .obj fields, h => by
    rw [asRead, fieldsAsRead_eq_self h.2, ofFields, foldl_setField_of_nodup h.1]

theorem itemsAsRead_eq_self : ∀ {items : List Json}, ItemsReadable items → itemsAsRead items = items
  | [], _ => rfl
  | _ :: _, h => congrArg₂ List.cons (asRead_eq_self h.1) (itemsAsRead_eq_self h.2)

theorem fieldsAsRead_eq_self : ∀ {fields : List (String × Json)}, FieldsReadable fields →
    fieldsAsRead fields = fields
  | [], _ => rfl
  | (key, _) :: _, h => congrArg₂ (fun v rest => (key, v) :: rest) (asRead_eq_self h.1)
    (fieldsAsRead_eq_self h.2)

end

mutual

/-- What can be read has a text, where its numbers are finite. -/
theorem hasText_of_isReadable : ∀ {v : Json}, IsReadable v → v.holdsNonFinite = false → HasText v
  | .null, _, _ | .bool _, _, _ | .str _, _, _ => trivial
  | .int _, h, _ => h
  | .float _, _, hfinite => by rwa [holdsNonFinite, Bool.not_eq_false'] at hfinite
  | .arr _, h, hfinite => itemsHaveText_of_readable h hfinite
  | .obj _, h, hfinite => fieldsHaveText_of_readable h.2 hfinite

theorem itemsHaveText_of_readable : ∀ {items : List Json}, ItemsReadable items →
    holdsNonFiniteItems items = false → ItemsHaveText items
  | [], _, _ => trivial
  | _ :: _, h, hfinite =>
    have hparts := Bool.or_eq_false_iff.mp hfinite
    ⟨hasText_of_isReadable h.1 hparts.1, itemsHaveText_of_readable h.2 hparts.2⟩

theorem fieldsHaveText_of_readable : ∀ {fields : List (String × Json)}, FieldsReadable fields →
    holdsNonFiniteFields fields = false → FieldsHaveText fields
  | [], _, _ => trivial
  | (_, _) :: _, h, hfinite =>
    have hparts := Bool.or_eq_false_iff.mp hfinite
    ⟨hasText_of_isReadable h.1 hparts.1, fieldsHaveText_of_readable h.2 hparts.2⟩

end

/-- A readable value is read from its own text as just what it is. -/
theorem read?_print_of_isReadable {layout : Layout} (hl : layout.IsSound) {v : Json}
    (h : IsReadable v) (hfinite : v.holdsNonFinite = false) :
    read? (v.print layout) = some v := by
  rw [read?_print hl (hasText_of_isReadable h hfinite), asRead_eq_self h]

end Toolgate.Json
