import Mathlib.Data.Nat.Notation
import Toolgate.Text.Case

/-!
# Small letters of ASCII texts

An ASCII text is put in small letters character by character, so that it stays as long as it was
and, where every character is small already, stays as it is.
-/

namespace Toolgate.Text

/-- Small letters of ASCII characters. -/
theorem toList_lower_of_ascii {cs : List Char} (h : ∀ c ∈ cs, c.toNat < 0x80) :
    (lower (String.ofList cs)).toList = cs.map Char.toLower := by
  have hlower (before : List Char) : lowerChars before cs = cs.map Char.toLower := by
    induction cs generalizing before with
    | nil => rfl
    | cons c cs ih =>
      obtain ⟨hc, hcs⟩ := List.forall_mem_cons.mp h
      have hsigma : ¬(c.toNat == 0x3A3) = true := by
        rw [beq_iff_eq]
        omega
      rw [lowerChars, ih hcs, lowerIn, if_neg hsigma, lowerChar, if_pos hc]
      rfl
  rw [lower, String.toList_ofList, String.toList_ofList, hlower]

/-- Only the capital letters of ASCII have another small form. -/
theorem toLower_eq_self {c : Char} (h : c.toNat < 65 ∨ 90 < c.toNat) : c.toLower = c := by
  have hrange : ¬(c.val ≥ 'A'.val ∧ c.val ≤ 'Z'.val) := by
    rw [ge_iff_le, UInt32.le_iff_toNat_le, UInt32.le_iff_toNat_le]
    change ¬(65 ≤ c.toNat ∧ c.toNat ≤ 90)
    omega
  exact dif_neg hrange

/-- An ASCII text without capital letters is in small letters. -/
theorem lower_eq_self {s : String}
    (h : ∀ c ∈ s.toList, c.toNat < 0x80 ∧ (c.toNat < 65 ∨ 90 < c.toNat)) : lower s = s := by
  have hlower := toList_lower_of_ascii fun c hc => (h c hc).1
  rw [String.ofList_toList] at hlower
  rw [← String.toList_inj, hlower]
  exact (List.map_congr_left fun c hc => toLower_eq_self (h c hc).2).trans (List.map_id _)

end Toolgate.Text
