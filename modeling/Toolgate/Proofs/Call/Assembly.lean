import Toolgate.Call.Assembly
import Toolgate.Proofs.Call.Template
import Toolgate.Proofs.Json.Fields

/-!
# Picking arguments

What is picked from a bag of arguments are those that were asked for, given and not null, each once.
-/

namespace Toolgate.Call

variable {bag : Fields} {names : List String} {key : String} {v : Json}

/-! ## Picked arguments -/

theorem mem_pick : (key, v) ∈ pick bag names ↔
    key ∈ names ∧ lookupField key bag = some v ∧ v ≠ .null := by
  rw [pick, List.mem_filterMap]
  constructor
  · rintro ⟨name, hname, hpick⟩
    split at hpick
    · cases hpick
    · cases hpick
    · next w hnull hlookup =>
      obtain ⟨rfl, rfl⟩ := Prod.mk.inj (Option.some.inj hpick)
      exact ⟨mem_distinct.mp hname, hlookup, hnull⟩
  · rintro ⟨hname, hlookup, hnull⟩
    refine ⟨key, mem_distinct.mpr hname, ?_⟩
    rw [hlookup]
    split
    · next hnone => cases hnone
    · next hsome => exact absurd (Option.some.inj hsome) hnull
    · next w _ hsome => rw [Option.some.inj hsome]

/-- No argument is picked twice. -/
theorem nodup_keys_pick (bag : Fields) (names : List String) :
    ((pick bag names).map Prod.fst).Nodup := by
  refine List.Nodup.sublist ?_ (nodup_distinct names)
  rw [pick]
  induction distinct names with
  | nil => exact .slnil
  | cons name rest ih =>
    rw [List.filterMap_cons]
    split
    · exact ih.cons name
    · next field hfield =>
      have hkey : field.1 = name := by
        split at hfield
        · cases hfield
        · cases hfield
        · rw [← Option.some.inj hfield]
      rw [List.map_cons, hkey]
      exact ih.cons_cons name

/-- Bags that agree on some names give the same arguments of these names. -/
theorem pick_congr {other : Fields}
    (h : ∀ name ∈ names, lookupField name bag = lookupField name other) :
    pick bag names = pick other names := by
  refine List.filterMap_congr fun name hname => ?_
  rw [h name (mem_distinct.mp hname)]

/-! ## Parts -/

@[simp] theorem getD_unlessEmpty (fields : Fields) : (unlessEmpty fields).getD [] = fields := by
  cases fields <;> rfl

end Toolgate.Call
