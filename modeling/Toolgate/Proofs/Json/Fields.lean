import Mathlib.Data.List.Induction
import Mathlib.Data.List.Nodup
import Toolgate.Json.Basic

/-!
# Fields of objects

Writing a field leaves all others alone. A key that is new goes to the end, so that nothing that
was there before is lost or moved.
-/

namespace Toolgate

variable {β : Type}

@[simp] theorem lookupField_setField_self (key : String) (v : β) (fields : List (String × β)) :
    lookupField key (setField key v fields) = some v := by
  induction fields with
  | nil => simp [setField, lookupField]
  | cons field rest ih =>
    rw [setField]
    split
    · simp_all [lookupField]
    · next hne => simp [lookupField, hne, ih]

theorem lookupField_setField_of_ne {key other : String} (h : other ≠ key) (v : β)
    (fields : List (String × β)) :
    lookupField other (setField key v fields) = lookupField other fields := by
  induction fields with
  | nil => simp [setField, lookupField, h.symm]
  | cons field rest ih =>
    rw [setField]
    split
    · next heq =>
      have : (field.1 == other) = false := by simpa [beq_iff_eq.mp heq] using h.symm
      simp [lookupField, this]
    · simp [lookupField, ih]

/-- Writing a field that nothing is made of changes nothing. -/
theorem flatMap_setField {γ : Type} {f : String × β → List γ} {key : String}
    (h : ∀ v, f (key, v) = []) (v : β) (fields : List (String × β)) :
    (setField key v fields).flatMap f = fields.flatMap f := by
  induction fields with
  | nil => simp [setField, h]
  | cons field rest ih =>
    obtain ⟨k, w⟩ := field
    rw [setField]
    split
    · next heq =>
      obtain rfl : k = key := beq_iff_eq.mp heq
      rw [List.flatMap_cons, List.flatMap_cons, h, h]
    · rw [List.flatMap_cons, List.flatMap_cons, ih]

theorem mem_of_lookupField {key : String} {v : β} {fields : List (String × β)}
    (h : lookupField key fields = some v) : (key, v) ∈ fields := by
  induction fields with
  | nil => simp [lookupField] at h
  | cons field rest ih =>
    obtain ⟨k, w⟩ := field
    rw [lookupField] at h
    split at h
    · next heq => simp_all
    · exact List.mem_cons_of_mem _ (ih h)

theorem lookupField_eq_none_iff {key : String} {fields : List (String × β)} :
    lookupField key fields = none ↔ key ∉ fields.map Prod.fst := by
  induction fields with
  | nil => simp [lookupField]
  | cons field rest ih =>
    obtain ⟨k, w⟩ := field
    by_cases hk : k = key
    · simp [lookupField, hk]
    · simpa [lookupField, hk, Ne.symm hk] using ih

/-- What stands under a key is the first field of the key. -/
theorem lookupField_eq_find? (key : String) (fields : List (String × β)) :
    lookupField key fields = (fields.find? (·.1 == key)).map Prod.snd := by
  induction fields with
  | nil => rfl
  | cons field rest ih =>
    obtain ⟨k, v⟩ := field
    by_cases hk : k = key
    · simp [lookupField, hk]
    · simp [lookupField, hk, ih]

theorem lookupField_append (key : String) (fields others : List (String × β)) :
    lookupField key (fields ++ others) = (lookupField key fields).or (lookupField key others) := by
  induction fields with
  | nil => rfl
  | cons field rest ih =>
    obtain ⟨k, w⟩ := field
    rw [List.cons_append, lookupField, lookupField]
    split
    · rfl
    · exact ih

/-- Leaving out one key leaves what stands under the others. -/
theorem lookupField_filter_ne (key other : String) (fields : List (String × β)) :
    lookupField key (fields.filter (·.1 != other)) =
      if key = other then none else lookupField key fields := by
  induction fields with
  | nil => simp [lookupField]
  | cons field rest ih =>
    obtain ⟨k, v⟩ := field
    by_cases hother : k = other
    · subst hother
      by_cases hkey : key = k
      · subst hkey
        simpa using ih
      · simp [lookupField, hkey, Ne.symm hkey, ih]
    · by_cases hkey : k = key
      · subst hkey
        simp [lookupField, hother]
      · simp [lookupField, hother, hkey, ih]

/-- With distinct keys a key has the value it is listed with. -/
theorem lookupField_of_mem {key : String} {v : β} {fields : List (String × β)}
    (hnodup : (fields.map Prod.fst).Nodup) (h : (key, v) ∈ fields) :
    lookupField key fields = some v := by
  induction fields with
  | nil => simp at h
  | cons field rest ih =>
    obtain ⟨k, w⟩ := field
    rw [List.map_cons, List.nodup_cons] at hnodup
    rcases List.mem_cons.mp h with heq | h
    · obtain ⟨rfl, rfl⟩ := Prod.mk.inj heq
      simp [lookupField]
    · have hne : k ≠ key := by
        rintro rfl
        exact hnodup.1 (List.mem_map.mpr ⟨_, h, rfl⟩)
      simpa [lookupField, hne] using ih hnodup.2 h

/-- With distinct keys the order of the fields says nothing about what stands under a key. -/
theorem lookupField_perm {fields others : List (String × β)}
    (hnodup : (fields.map Prod.fst).Nodup) (h : fields.Perm others) (key : String) :
    lookupField key fields = lookupField key others := by
  have hkeys : (fields.map Prod.fst).Perm (others.map Prod.fst) := h.map Prod.fst
  cases hlookup : lookupField key others with
  | some v => exact lookupField_of_mem hnodup (h.mem_iff.mpr (mem_of_lookupField hlookup))
  | none =>
    rw [lookupField_eq_none_iff] at hlookup ⊢
    exact fun hkey => hlookup (hkeys.mem_iff.mp hkey)

/-- A new key goes to the end. -/
theorem setField_of_notMem {key : String} {fields : List (String × β)}
    (h : key ∉ fields.map Prod.fst) (v : β) : setField key v fields = fields ++ [(key, v)] := by
  induction fields with
  | nil => rfl
  | cons field rest ih =>
    simp only [List.map_cons, List.mem_cons, not_or] at h
    rw [setField, if_neg (by simpa using Ne.symm h.1), ih h.2, List.cons_append]

/-- A key that is there already keeps its place. -/
theorem keys_setField {β : Type} (key : String) (v : β) (fields : List (String × β)) :
    (setField key v fields).map Prod.fst = if key ∈ fields.map Prod.fst then fields.map Prod.fst
      else fields.map Prod.fst ++ [key] := by
  induction fields with
  | nil => rfl
  | cons field rest ih =>
    obtain ⟨k, w⟩ := field
    by_cases hk : k = key
    · simp [setField, hk]
    · simp only [setField, beq_iff_eq, hk, if_false, List.map_cons, ih, List.mem_cons, Ne.symm hk,
        false_or]
      split <;> rfl

/-- Writing a field leaves distinct keys distinct. -/
theorem nodup_setField {fields : List (String × β)} (key : String) (v : β)
    (h : (fields.map Prod.fst).Nodup) : ((setField key v fields).map Prod.fst).Nodup := by
  rw [keys_setField]
  split
  · exact h
  · next hnew => exact List.nodup_append_comm.mp (List.nodup_cons.mpr ⟨hnew, h⟩)

/-- Fields with distinct keys that are written one after the other stand as they are. -/
theorem foldl_setField_of_nodup {fields : List (String × β)} (h : (fields.map Prod.fst).Nodup) :
    fields.foldl (fun done field => setField field.1 field.2 done) [] = fields := by
  induction fields using List.reverseRecOn with
  | nil => rfl
  | append_singleton fields field ih =>
    rw [List.map_append, List.map_singleton] at h
    obtain ⟨hfields, -, hapart⟩ := List.nodup_append.mp h
    have hnew : field.1 ∉ fields.map Prod.fst := fun hmem =>
      hapart _ hmem _ (List.mem_singleton_self _) rfl
    rw [List.foldl_append, ih hfields, List.foldl_cons, List.foldl_nil, setField_of_notMem hnew]

end Toolgate
