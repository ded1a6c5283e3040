import Mathlib.Computability.Language
import Toolgate.Proofs.Naming.Slug
import Toolgate.Proofs.Text.Case
import Toolgate.Proofs.Text.Trim

/-!
# The normal form of slugs

Slugs are the texts of 1 to 64 characters of the form `[a-z0-9]+(_[a-z0-9]+)*`, and each such text
is its own slug. A cut may fall into a word or behind an underscore; trimmed at its end, what is
left of joined words is again words that are joined, so the form outlasts the cut.

## Main definitions

* `slugLanguage`: the form of a slug as a language
* `IsSlug`: a text of that form that is not too long

## Main statements

* `exists_joinWords_trimEnd_take`: joined words that are cut and trimmed are joined words
* `slug_eq_self_of_isSlug`: a text in normal form is its own slug
* `slug_normal_form`: slugs are exactly the texts in normal form
-/

namespace Toolgate.Naming

/-! ## Words -/

/-- A word: at least one character, and only such as slugs are made of. -/
structure IsWord (w : List Char) : Prop where
  ne_nil : w ≠ []
  isSlugChar : ∀ c ∈ w, isSlugChar c = true

theorem ne_underscore {c : Char} (h : isSlugChar c = true) : (c == '_') = false := by
  rw [beq_eq_false_iff_ne]
  rintro rfl
  exact absurd h (by decide)

theorem joinWords_cons_cons (w next : List Char) (rest : List (List Char)) :
    joinWords (w :: next :: rest) = w ++ '_' :: joinWords (next :: rest) := by
  rw [joinWords, List.intercalate_cons_cons, List.append_assoc]
  rfl

/-- The words behind the first each follow an underscore. -/
theorem joinWords_cons (w : List Char) (words : List (List Char)) :
    joinWords (w :: words) = w ++ words.flatMap ('_' :: ·) := by
  induction words generalizing w with
  | nil => simp [joinWords]
  | cons next rest ih => rw [joinWords_cons_cons, ih, List.flatMap_cons, List.cons_append]

theorem joinWords_ne_nil {words : List (List Char)} (h : ∀ w ∈ words, IsWord w)
    (hne : words ≠ []) : joinWords words ≠ [] := by
  obtain ⟨w, rest, rfl⟩ := List.exists_cons_of_ne_nil hne
  rw [joinWords_cons]
  exact List.append_ne_nil_of_left_ne_nil (h w List.mem_cons_self).ne_nil _

/-! ## The words of a text -/

/-- The pieces that a slug is joined of are words. -/
theorem isWord_of_mem_pieces {cs w : List Char}
    (h : w ∈ Text.pieces (fun c => !isSlugChar c) cs) : IsWord w where
  ne_nil := Text.ne_nil_of_mem_piecesFrom [] cs w h
  isSlugChar c hc := by simpa using Text.not_cut_of_mem_piecesFrom (by simp) w h c hc

/-- Words are found again in what they are joined to. -/
theorem pieces_joinWords {words : List (List Char)} (h : ∀ w ∈ words, IsWord w) :
    Text.pieces (fun c => !isSlugChar c) (joinWords words) = words := by
  induction words with
  | nil => rfl
  | cons w rest ih =>
    obtain ⟨hw, hrest⟩ := List.forall_mem_cons.mp h
    have hkept : ∀ c ∈ w, (!isSlugChar c) = false := by simpa using hw.isSlugChar
    cases rest with
    | nil => simpa [joinWords] using Text.pieces_of_not_cut hw.ne_nil hkept
    | cons next rest =>
      rw [joinWords_cons_cons, Text.pieces_append_of_cut hw.ne_nil hkept (by decide), ih hrest]

/-! ## Cutting and trimming joined words -/

/-- There is nothing to trim where there is no underscore. -/
theorem trimEnd_of_isSlugChar {cs : List Char} (h : ∀ c ∈ cs, isSlugChar c = true) :
    Text.trimEnd (· == '_') cs = cs :=
  Text.trimEnd_of_getLast fun c hc => ne_underscore (h c (List.mem_of_getLast? hc))

/-- Trimming takes the underscore behind a word only where it leaves nothing behind that. -/
theorem trimEnd_append_underscore {w : List Char} (hw : ∀ c ∈ w, isSlugChar c = true)
    (back : List Char) : Text.trimEnd (· == '_') (w ++ '_' :: back) =
      if Text.trimEnd (· == '_') back = [] then w
      else w ++ '_' :: Text.trimEnd (· == '_') back := by
  have hback : Text.trimEnd (· == '_') ('_' :: back) =
      if Text.trimEnd (· == '_') back = [] then [] else '_' :: Text.trimEnd (· == '_') back :=
    Text.trimEnd_append_eq_ite ['_'] back
  rw [Text.trimEnd_append_eq_ite, hback]
  split
  · rw [if_pos rfl, trimEnd_of_isSlugChar hw]
  · rw [if_neg (List.cons_ne_nil _ _)]

theorem trimEnd_joinWords {words : List (List Char)} (h : ∀ w ∈ words, IsWord w) :
    Text.trimEnd (· == '_') (joinWords words) = joinWords words := by
  induction words with
  | nil => rfl
  | cons w rest ih =>
    obtain ⟨hw, hrest⟩ := List.forall_mem_cons.mp h
    cases rest with
    | nil => simpa [joinWords] using trimEnd_of_isSlugChar hw.isSlugChar
    | cons next rest =>
      rw [joinWords_cons_cons, trimEnd_append_underscore hw.isSlugChar, ih hrest,
        if_neg (joinWords_ne_nil hrest (List.cons_ne_nil next rest))]

/-- A part of a word is a word or nothing. -/
theorem exists_joinWords_of_isSlugChar {cs : List Char} (h : ∀ c ∈ cs, isSlugChar c = true) :
    ∃ kept, (∀ w ∈ kept, IsWord w) ∧ Text.trimEnd (· == '_') cs = joinWords kept := by
  rw [trimEnd_of_isSlugChar h]
  by_cases hne : cs = []
  · exact ⟨[], by simp, hne⟩
  · exact ⟨[cs], by simpa using ⟨hne, h⟩, by simp [joinWords]⟩

/-- Joined words that are cut and trimmed are joined words: a cut falls into a word, of which the
beginning is left, or behind an underscore, which is trimmed. -/
theorem exists_joinWords_trimEnd_take {words : List (List Char)} (h : ∀ w ∈ words, IsWord w)
    (n : ℕ) : ∃ kept, (∀ w ∈ kept, IsWord w) ∧
      Text.trimEnd (· == '_') ((joinWords words).take n) = joinWords kept := by
  induction words generalizing n with
  | nil => exact ⟨[], by simp, by simp [joinWords, Text.trimEnd]⟩
  | cons w rest ih =>
    obtain ⟨hw, hrest⟩ := List.forall_mem_cons.mp h
    have hpart : ∀ c ∈ w.take n, isSlugChar c = true :=
      fun c hc => hw.isSlugChar c (List.mem_of_mem_take hc)
    cases rest with
    | nil =>
      have hjoin : joinWords [w] = w := by simp [joinWords]
      rw [hjoin]
      exact exists_joinWords_of_isSlugChar hpart
    | cons next rest =>
      rw [joinWords_cons_cons, List.take_append]
      rcases Nat.lt_or_ge w.length n with hlt | hle
      · obtain ⟨m, hm⟩ : ∃ m, n - w.length = m + 1 := ⟨n - w.length - 1, by omega⟩
        obtain ⟨kept, hkept, hcut⟩ := ih hrest m
        rw [List.take_of_length_le hlt.le, hm, List.take_succ_cons,
          trimEnd_append_underscore hw.isSlugChar, hcut]
        -- Where nothing is kept behind the word, its underscore went with the rest.
        cases kept with
        | nil => exact ⟨[w], by simpa using hw, by simp [joinWords]⟩
        | cons first others =>
          refine ⟨w :: first :: others, List.forall_mem_cons.mpr ⟨hw, hkept⟩, ?_⟩
          rw [if_neg (joinWords_ne_nil hkept (List.cons_ne_nil _ _)), joinWords_cons_cons]
      · rw [Nat.sub_eq_zero_of_le hle, List.take_zero, List.append_nil]
        exact exists_joinWords_of_isSlugChar hpart

/-! ## The form as a language -/

open scoped Computability

/-- One small letter or digit of ASCII: `[a-z0-9]`. -/
def letterLanguage : Language Char :=
  {cs | ∃ c, (('a' ≤ c ∧ c ≤ 'z') ∨ ('0' ≤ c ∧ c ≤ '9')) ∧ cs = [c]}

/-- At least one of them: `[a-z0-9]+`. -/
def wordLanguage : Language Char :=
  letterLanguage * letterLanguage∗

/-- Words with single underscores between them: `[a-z0-9]+(_[a-z0-9]+)*`. -/
def slugLanguage : Language Char :=
  wordLanguage * ({['_']} * wordLanguage)∗

theorem mem_letterLanguage {cs : List Char} :
    cs ∈ letterLanguage ↔ ∃ c, isSlugChar c = true ∧ cs = [c] := by
  simp only [isSlugChar, Text.isAsciiLower, Text.isAsciiDigit, Bool.or_eq_true, Bool.and_eq_true,
    decide_eq_true_eq]
  exact Iff.rfl

theorem mem_kstar_letterLanguage {cs : List Char} :
    cs ∈ letterLanguage∗ ↔ ∀ c ∈ cs, isSlugChar c = true := by
  rw [Language.mem_kstar]
  constructor
  · rintro ⟨parts, rfl, hparts⟩ c hc
    obtain ⟨part, hpart, hc⟩ := List.mem_flatten.mp hc
    obtain ⟨d, hd, rfl⟩ := mem_letterLanguage.mp (hparts part hpart)
    rwa [List.mem_singleton.mp hc]
  · intro h
    refine ⟨cs.map ([·]), by simp [← List.flatMap_def], ?_⟩
    intro part hpart
    obtain ⟨c, hc, rfl⟩ := List.mem_map.mp hpart
    exact mem_letterLanguage.mpr ⟨c, h c hc, rfl⟩

theorem mem_wordLanguage {cs : List Char} : cs ∈ wordLanguage ↔ IsWord cs := by
  rw [wordLanguage, Language.mem_mul]
  constructor
  · rintro ⟨front, hfront, back, hback, rfl⟩
    obtain ⟨c, hc, rfl⟩ := mem_letterLanguage.mp hfront
    exact ⟨List.cons_ne_nil _ _,
      List.forall_mem_cons.mpr ⟨hc, mem_kstar_letterLanguage.mp hback⟩⟩
  · intro h
    obtain ⟨c, rest, rfl⟩ := List.exists_cons_of_ne_nil h.ne_nil
    obtain ⟨hc, hrest⟩ := List.forall_mem_cons.mp h.isSlugChar
    exact ⟨[c], mem_letterLanguage.mpr ⟨c, hc, rfl⟩, rest, mem_kstar_letterLanguage.mpr hrest, rfl⟩

theorem mem_singleton_mul_wordLanguage {cs : List Char} :
    cs ∈ ({['_']} * wordLanguage : Language Char) ↔ ∃ w, IsWord w ∧ cs = '_' :: w := by
  rw [Language.mem_mul]
  constructor
  · rintro ⟨front, hfront, w, hw, rfl⟩
    obtain rfl := Set.mem_singleton_iff.mp hfront
    exact ⟨w, mem_wordLanguage.mp hw, rfl⟩
  · rintro ⟨w, hw, rfl⟩
    exact ⟨['_'], Set.mem_singleton _, w, mem_wordLanguage.mpr hw, rfl⟩

/-- What stands behind the first word are words that each follow an underscore. -/
theorem mem_kstar_singleton_mul_wordLanguage {cs : List Char} :
    cs ∈ ({['_']} * wordLanguage : Language Char)∗ ↔
      ∃ words : List (List Char), (∀ w ∈ words, IsWord w) ∧
        cs = words.flatMap ('_' :: ·) := by
  rw [Language.mem_kstar]
  constructor
  · rintro ⟨parts, rfl, hparts⟩
    induction parts with
    | nil => exact ⟨[], by simp, rfl⟩
    | cons part rest ih =>
      obtain ⟨hpart, hrest⟩ := List.forall_mem_cons.mp hparts
      obtain ⟨w, hw, rfl⟩ := mem_singleton_mul_wordLanguage.mp hpart
      obtain ⟨words, hwords, heq⟩ := ih hrest
      exact ⟨w :: words, List.forall_mem_cons.mpr ⟨hw, hwords⟩, by simp [heq]⟩
  · rintro ⟨words, hwords, rfl⟩
    refine ⟨words.map ('_' :: ·), List.flatMap_def, fun part hpart => ?_⟩
    obtain ⟨w, hw, rfl⟩ := List.mem_map.mp hpart
    exact mem_singleton_mul_wordLanguage.mpr ⟨w, hwords w hw, rfl⟩

/-- A text is of the form of a slug when it is joined of words. -/
theorem mem_slugLanguage_iff {cs : List Char} : cs ∈ slugLanguage ↔
    ∃ words, words ≠ [] ∧ (∀ w ∈ words, IsWord w) ∧ cs = joinWords words := by
  rw [slugLanguage, Language.mem_mul]
  constructor
  · rintro ⟨w, hw, back, hback, rfl⟩
    obtain ⟨rest, hrest, rfl⟩ := mem_kstar_singleton_mul_wordLanguage.mp hback
    exact ⟨w :: rest, List.cons_ne_nil _ _,
      List.forall_mem_cons.mpr ⟨mem_wordLanguage.mp hw, hrest⟩, (joinWords_cons w rest).symm⟩
  · rintro ⟨words, hne, hwords, rfl⟩
    obtain ⟨w, rest, rfl⟩ := List.exists_cons_of_ne_nil hne
    obtain ⟨hw, hrest⟩ := List.forall_mem_cons.mp hwords
    exact ⟨w, mem_wordLanguage.mpr hw, _,
      mem_kstar_singleton_mul_wordLanguage.mpr ⟨rest, hrest, rfl⟩, (joinWords_cons w rest).symm⟩

/-! ## Slugs -/

/-- A text in the normal form of slugs: of the form `[a-z0-9]+(_[a-z0-9]+)*`, with 1 to 64
characters. -/
structure IsSlug (s : String) : Prop where
  mem_slugLanguage : s.toList ∈ slugLanguage
  one_le_length : 1 ≤ s.toList.length
  length_le : s.toList.length ≤ 64

theorem slugChars_mem_slugLanguage (cs : List Char) : slugChars cs ∈ slugLanguage := by
  have hwords : ∀ w ∈ Text.pieces (fun c => !isSlugChar c) cs, IsWord w :=
    fun _ => isWord_of_mem_pieces
  obtain ⟨kept, hkept, hcut⟩ := exists_joinWords_trimEnd_take hwords maxLength
  rw [mem_slugLanguage_iff]
  simp only [slugChars, hcut]
  split
  · have hword : IsWord fallback := ⟨by decide, List.all_eq_true.mp (by decide)⟩
    exact ⟨[fallback], List.cons_ne_nil _ _, by simpa using hword, by simp [joinWords]⟩
  · next hne =>
    refine ⟨kept, ?_, hkept, rfl⟩
    rintro rfl
    exact hne rfl

theorem isSlug_slug (s : String) : IsSlug (slug s) where
  mem_slugLanguage := by simpa [slug] using slugChars_mem_slugLanguage (Text.lower s).toList
  one_le_length := (length_slug s).1
  length_le := (length_slug s).2

/-- Neither taking words apart nor cutting nor trimming changes joined words that are not too
long. -/
theorem slugChars_joinWords {words : List (List Char)} (hne : words ≠ [])
    (h : ∀ w ∈ words, IsWord w) (hlength : (joinWords words).length ≤ maxLength) :
    slugChars (joinWords words) = joinWords words := by
  simp only [slugChars, pieces_joinWords h, List.take_of_length_le hlength, trimEnd_joinWords h]
  split
  · next hnil => exact absurd hnil (joinWords_ne_nil h hne)
  · rfl

theorem toNat_of_isNameChar {c : Char} (h : isNameChar c = true) :
    (97 ≤ c.toNat ∧ c.toNat ≤ 122) ∨ (48 ≤ c.toNat ∧ c.toNat ≤ 57) ∨ c.toNat = 95 := by
  simp only [isNameChar, isSlugChar, Text.isAsciiLower, Text.isAsciiDigit, Bool.or_eq_true,
    Bool.and_eq_true, decide_eq_true_eq, beq_iff_eq, Char.le_def, UInt32.le_iff_toNat_le] at h
  rcases h with (h | h) | rfl
  · exact .inl h
  · exact .inr (.inl h)
  · exact .inr (.inr rfl)

/-- A text of characters of slugs has no other small form. -/
theorem lower_of_isNameChar {s : String} (h : ∀ c ∈ s.toList, isNameChar c = true) :
    Text.lower s = s := by
  refine Text.lower_eq_self fun c hc => ?_
  have := toNat_of_isNameChar (h c hc)
  omega

/-- A text in normal form is its own slug. -/
theorem slug_eq_self_of_isSlug {s : String} (h : IsSlug s) : slug s = s := by
  obtain ⟨words, hne, hwords, hjoin⟩ := mem_slugLanguage_iff.mp h.mem_slugLanguage
  have hchars : ∀ c ∈ s.toList, isNameChar c = true := by
    rw [hjoin]
    intro c hc
    rcases mem_joinWords hc with ⟨w, hw, hcw⟩ | rfl
    · simp [isNameChar, (hwords w hw).isSlugChar c hcw]
    · rfl
  rw [slug, lower_of_isNameChar hchars, hjoin,
    slugChars_joinWords hne hwords (hjoin ▸ h.length_le), ← hjoin, String.ofList_toList]

/-- Slugs are exactly the texts in normal form: every slug is one, a text is its own slug just when
it is one, and so a slug of a slug is that slug. -/
theorem slug_normal_form :
    (∀ s, IsSlug (slug s)) ∧ (∀ s, slug s = s ↔ IsSlug s) ∧ (∀ s, slug (slug s) = slug s) ∧
      Set.range slug = {s | IsSlug s} := by
  refine ⟨isSlug_slug, fun s => ⟨fun heq => ?_, slug_eq_self_of_isSlug⟩,
    fun s => slug_eq_self_of_isSlug (isSlug_slug s), ?_⟩
  · exact heq ▸ isSlug_slug s
  · ext s
    constructor
    · rintro ⟨t, rfl⟩
      exact isSlug_slug t
    · exact fun h => ⟨s, slug_eq_self_of_isSlug h⟩

/-- A cut that falls behind an underscore leaves a slug of 63 characters. -/
example : slug (String.ofList (List.replicate 63 'X' ++ ['-', 'Y'])) =
    String.ofList (List.replicate 63 'x') := by decide +kernel

end Toolgate.Naming
