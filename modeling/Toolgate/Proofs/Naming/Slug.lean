import Mathlib.Data.Nat.Notation
import Toolgate.Naming.Slug
import Toolgate.Proofs.Text.Pieces

/-!
# What slugs are made of

Every slug is a name of 1 to 64 characters, each a small letter or digit of ASCII or an underscore.
-/

namespace Toolgate.Naming

/-! ## Joined words -/

/-- A character of joined words is one of a word or the underscore between two. -/
theorem mem_joinWords {words : List (List Char)} {c : Char} (hc : c ∈ joinWords words) :
    (∃ w ∈ words, c ∈ w) ∨ c = '_' :=
  (Text.mem_of_mem_intercalate hc).imp_right List.mem_singleton.mp

/-! ## Trimming -/

theorem trimEnd_isPrefix (drop : Char → Bool) (cs : List Char) :
    Text.trimEnd drop cs <+: cs := by
  rw [Text.trimEnd, ← List.reverse_suffix, List.reverse_reverse]
  exact List.dropWhile_suffix drop

/-! ## Slugs -/

/-- A slug that is not the standing one is a beginning of the joined words that fits. -/
theorem slugChars_eq (cs : List Char) :
    slugChars cs = fallback ∨
      slugChars cs ≠ [] ∧ slugChars cs <+:
        (joinWords (Text.pieces (fun c => !isSlugChar c) cs)).take maxLength := by
  have hprefix := trimEnd_isPrefix (· == '_')
    ((joinWords (Text.pieces (fun c => !isSlugChar c) cs)).take maxLength)
  simp only [slugChars]
  split
  · exact .inl rfl
  · next hname => exact .inr ⟨hname, hprefix⟩

theorem isNameChar_of_mem_slugChars {cs : List Char} :
    ∀ c ∈ slugChars cs, isNameChar c = true := by
  rcases slugChars_eq cs with h | ⟨-, h⟩
  · rw [h]
    exact List.all_eq_true.mp (by decide : fallback.all isNameChar = true)
  · intro c hc
    have hjoined := List.mem_of_mem_take (h.subset hc)
    rcases mem_joinWords hjoined with ⟨w, hw, hcw⟩ | rfl
    · have : isSlugChar c = true := by
        simpa using Text.not_cut_of_mem_piecesFrom (by simp) w hw c hcw
      simp [isNameChar, this]
    · rfl

theorem length_slugChars (cs : List Char) :
    0 < (slugChars cs).length ∧ (slugChars cs).length ≤ maxLength := by
  rcases slugChars_eq cs with h | ⟨hne, h⟩
  · rw [h]
    decide
  · exact ⟨List.length_pos_iff.mpr hne, Nat.le_trans h.length_le (List.length_take_le _ _)⟩

theorem isNameChar_of_mem_slug {s : String} : ∀ c ∈ (slug s).toList, isNameChar c = true := by
  simpa [slug] using isNameChar_of_mem_slugChars

theorem length_slug (s : String) :
    0 < (slug s).toList.length ∧ (slug s).toList.length ≤ maxLength := by
  simpa [slug] using length_slugChars (Text.lower s).toList

end Toolgate.Naming
