import Mathlib.Data.List.Infix
import Toolgate.Text.Edit

/-!
# Pieces and replacements

What happens to a text character by character, or word by word, happens to each of its pieces on
its own, as long as separators are neither made nor lost. Splitting therefore commutes with a
mapping of characters and with the replacement of a word. Where a text is cut at a class of
characters, the pieces are not empty and hold none of the class.
-/

namespace Toolgate.Text

/-! ## Pieces between separators -/

section
variable {sep : Char}

theorem splitAt_cons_self (sep : Char) (cs : List Char) :
    splitAt sep (sep :: cs) = [] :: splitAt sep cs := by
  simp [splitAt]

theorem splitAt_ne_nil (sep : Char) (cs : List Char) : splitAt sep cs ≠ [] := by
  cases cs with
  | nil => simp [splitAt]
  | cons c cs =>
    rw [splitAt]
    split
    · simp
    · split <;> simp

theorem splitAt_cons_of_ne {c : Char} (h : c ≠ sep) (cs : List Char) :
    splitAt sep (c :: cs) = (splitAt sep cs).modifyHead (c :: ·) := by
  rw [splitAt, if_neg (by simpa using h)]
  split
  · next hnil => exact absurd hnil (splitAt_ne_nil sep cs)
  · next piece pieces hcons => rw [hcons, List.modifyHead_cons]

theorem splitAt_append {front : List Char} (h : sep ∉ front) (cs : List Char) :
    splitAt sep (front ++ cs) = (splitAt sep cs).modifyHead (front ++ ·) := by
  induction front with
  | nil =>
    rw [List.nil_append]
    cases splitAt sep cs <;> rfl
  | cons c front ih =>
    rw [List.mem_cons, not_or] at h
    rw [List.cons_append, splitAt_cons_of_ne (Ne.symm h.1), ih h.2, List.modifyHead_modifyHead]
    rfl

theorem splitAt_of_notMem {cs : List Char} (h : sep ∉ cs) : splitAt sep cs = [cs] := by
  simpa [splitAt] using splitAt_append h []

theorem notMem_of_mem_splitAt {cs piece : List Char} (h : piece ∈ splitAt sep cs) :
    sep ∉ piece := by
  induction cs generalizing piece with
  | nil =>
    rw [splitAt, List.mem_singleton] at h
    simp [h]
  | cons c cs ih =>
    by_cases hc : c = sep
    · subst hc
      rw [splitAt_cons_self, List.mem_cons] at h
      rcases h with rfl | h
      · exact List.not_mem_nil
      · exact ih h
    · obtain ⟨head, tail, hsplit⟩ := List.exists_cons_of_ne_nil (splitAt_ne_nil sep cs)
      rw [splitAt_cons_of_ne hc, hsplit, List.modifyHead_cons, List.mem_cons] at h
      rcases h with rfl | h
      · have := ih (hsplit ▸ List.mem_cons_self)
        simp [Ne.symm hc, this]
      · exact ih (hsplit ▸ List.mem_cons_of_mem _ h)

/-- The first piece is what the text begins with. -/
theorem isPrefix_of_splitAt_eq_cons {cs head : List Char} {tail : List (List Char)}
    (h : splitAt sep cs = head :: tail) : head <+: cs := by
  induction cs generalizing head tail with
  | nil =>
    rw [splitAt, List.cons.injEq] at h
    simp [← h.1]
  | cons c cs ih =>
    by_cases hc : c = sep
    · subst hc
      rw [splitAt_cons_self, List.cons.injEq] at h
      simp [← h.1]
    · obtain ⟨piece, rest, hsplit⟩ := List.exists_cons_of_ne_nil (splitAt_ne_nil sep cs)
      rw [splitAt_cons_of_ne hc, hsplit, List.modifyHead_cons, List.cons.injEq] at h
      rw [← h.1]
      exact (List.cons_prefix_cons).mpr ⟨rfl, ih hsplit⟩

/-- Splitting takes joined pieces apart again. -/
theorem splitAt_intercalate {pieces : List (List Char)} (hne : pieces ≠ [])
    (h : ∀ piece ∈ pieces, sep ∉ piece) :
    splitAt sep (List.intercalate [sep] pieces) = pieces := by
  induction pieces with
  | nil => exact absurd rfl hne
  | cons piece rest ih =>
    have hpiece := h piece List.mem_cons_self
    cases rest with
    | nil => simpa using splitAt_of_notMem hpiece
    | cons next rest =>
      have hrest := ih (List.cons_ne_nil _ _) fun p hp => h p (List.mem_cons_of_mem _ hp)
      rw [List.intercalate_cons_cons, List.append_assoc, splitAt_append hpiece,
        List.singleton_append, splitAt_cons_self, hrest, List.modifyHead_cons, List.append_nil]

/-- A character of joined pieces is one of a piece or of what stands between two. -/
theorem mem_of_mem_intercalate {between : List Char} {pieces : List (List Char)} {c : Char}
    (h : c ∈ List.intercalate between pieces) : (∃ piece ∈ pieces, c ∈ piece) ∨ c ∈ between := by
  induction pieces with
  | nil => simp at h
  | cons piece rest ih =>
    cases rest with
    | nil => exact .inl ⟨piece, List.mem_cons_self, by simpa using h⟩
    | cons next rest =>
      rw [List.intercalate_cons_cons, List.mem_append, List.mem_append] at h
      rcases h with (h | h) | h
      · exact .inl ⟨piece, List.mem_cons_self, h⟩
      · exact .inr h
      · refine (ih h).imp_left ?_
        rintro ⟨other, hother, hc⟩
        exact ⟨other, List.mem_cons_of_mem _ hother, hc⟩

/-- A mapping of characters that keeps the separator, and makes none, maps each piece. -/
theorem splitAt_flatMap {f : Char → List Char} (hsep : f sep = [sep])
    (hother : ∀ c, c ≠ sep → sep ∉ f c) (cs : List Char) :
    splitAt sep (cs.flatMap f) = (splitAt sep cs).map (List.flatMap f) := by
  induction cs with
  | nil => rfl
  | cons c cs ih =>
    by_cases hc : c = sep
    · subst hc
      rw [List.flatMap_cons, hsep, List.singleton_append, splitAt_cons_self, splitAt_cons_self, ih]
      rfl
    · obtain ⟨head, tail, hsplit⟩ := List.exists_cons_of_ne_nil (splitAt_ne_nil sep cs)
      rw [List.flatMap_cons, splitAt_append (hother c hc), ih, splitAt_cons_of_ne hc, hsplit]
      rfl

end

/-! ## Pieces without a class of characters -/

section
variable {cut : Char → Bool}

/-- Pieces hold no character they are cut at, if the piece in hand holds none. -/
theorem not_cut_of_mem_piecesFrom {cs piece : List Char} (hpiece : ∀ c ∈ piece, cut c = false) :
    ∀ w ∈ piecesFrom cut piece cs, ∀ c ∈ w, cut c = false := by
  fun_induction piecesFrom cut piece cs with
  | case1 piece => simp
  | case2 piece => simpa using hpiece
  | case3 piece c rest hc ih =>
    exact ih (by simpa using ⟨by simpa using hc, hpiece⟩)
  | case4 piece c rest hc hempty ih => exact ih (by simp)
  | case5 piece c rest hc hempty ih =>
    intro w hw
    rcases List.mem_cons.mp hw with rfl | hw
    · simpa using hpiece
    · exact ih (by simp) w hw

theorem ne_nil_of_mem_piecesFrom (piece cs : List Char) :
    ∀ w ∈ piecesFrom cut piece cs, w ≠ [] := by
  fun_induction piecesFrom cut piece cs with
  | case1 piece => simp
  | case2 piece hpiece => simpa using hpiece
  | case3 piece c rest hc ih => exact ih
  | case4 piece c rest hc hempty ih => exact ih
  | case5 piece c rest hc hempty ih =>
    exact List.forall_mem_cons.mpr ⟨by simpa using hempty, ih⟩

/-- What is not cut is taken in hand. -/
theorem piecesFrom_append {w : List Char} (h : ∀ c ∈ w, cut c = false) (piece cs : List Char) :
    piecesFrom cut piece (w ++ cs) = piecesFrom cut (w.reverse ++ piece) cs := by
  induction w generalizing piece with
  | nil => rfl
  | cons c w ih =>
    obtain ⟨hc, hw⟩ := List.forall_mem_cons.mp h
    rw [List.cons_append, piecesFrom, if_pos (by simp [hc]), ih hw]
    simp

/-- A text that begins with what is not cut, up to the first cut or the end, has it as a piece. -/
theorem pieces_append_of_cut {w : List Char} (hne : w ≠ []) (h : ∀ c ∈ w, cut c = false)
    {sep : Char} (hsep : cut sep = true) (cs : List Char) :
    pieces cut (w ++ sep :: cs) = w :: pieces cut cs := by
  rw [pieces, piecesFrom_append h, piecesFrom, if_neg (by simp [hsep]),
    if_neg (by simpa using hne)]
  simp [pieces]

theorem pieces_of_not_cut {w : List Char} (hne : w ≠ []) (h : ∀ c ∈ w, cut c = false) :
    pieces cut w = [w] := by
  have happend := piecesFrom_append h [] []
  rw [List.append_nil, List.append_nil] at happend
  rw [pieces, happend, piecesFrom, if_neg (by simpa using hne), List.reverse_reverse]

end

/-! ## Replacing a word -/

section
variable {word new : List Char}

theorem replaceFrom_eq_drop (word new : List Char) (n : ℕ) (cs : List Char) :
    replaceFrom word new n cs = replaceAll word new (cs.drop n) := by
  induction n generalizing cs with
  | zero => rfl
  | succ n ih =>
    cases cs with
    | nil => rfl
    | cons c cs => exact ih cs

theorem replaceAll_word_append (h : word ≠ []) (cs : List Char) :
    replaceAll word new (word ++ cs) = new ++ replaceAll word new cs := by
  obtain ⟨w, rest, rfl⟩ := List.exists_cons_of_ne_nil h
  have hfound : (w :: rest).isPrefixOf (w :: (rest ++ cs)) = true :=
    List.isPrefixOf_iff_prefix.mpr (List.prefix_append (w :: rest) cs)
  rw [replaceAll, List.cons_append, replaceFrom]
  simp [hfound, replaceFrom_eq_drop]

theorem replaceAll_self (h : word ≠ []) : replaceAll word new word = new := by
  have happend : replaceAll word new (word ++ []) = _ := replaceAll_word_append h []
  rw [List.append_nil] at happend
  exact happend.trans (List.append_nil new)

theorem replaceAll_cons {c : Char} {cs : List Char} (h : ¬word <+: c :: cs) :
    replaceAll word new (c :: cs) = c :: replaceAll word new cs := by
  rw [replaceAll, replaceFrom, if_neg]
  · rfl
  · simp only [Bool.and_eq_true, not_and, List.isPrefixOf_iff_prefix]
    exact fun _ => h

/-- Induction along the occurrences of a word, from the left. -/
theorem occurrence_induction {P : List Char → Prop} (hword : word ≠ []) (nil : P [])
    (found : ∀ cs, P cs → P (word ++ cs))
    (passed : ∀ c cs, ¬word <+: c :: cs → P cs → P (c :: cs)) (cs : List Char) : P cs := by
  induction hlen : cs.length using Nat.strongRecOn generalizing cs with
  | _ n ih =>
    subst hlen
    by_cases hpre : word <+: cs
    · obtain ⟨rest, rfl⟩ := hpre
      have := List.length_pos_of_ne_nil hword
      exact found rest (ih _ (by rw [List.length_append]; omega) rest rfl)
    · cases cs with
      | nil => exact nil
      | cons c cs => exact passed c cs hpre (ih _ (Nat.lt_succ_self _) cs rfl)

theorem replaceAll_of_not_isInfix {cs : List Char} (h : ¬word <:+: cs) :
    replaceAll word new cs = cs := by
  induction cs with
  | nil => rfl
  | cons c cs ih =>
    rw [List.infix_cons_iff, not_or] at h
    rw [replaceAll_cons h.1, ih h.2]

theorem mem_or_mem_of_mem_replaceAll (hword : word ≠ []) {cs : List Char} {c : Char}
    (h : c ∈ replaceAll word new cs) : c ∈ cs ∨ c ∈ new := by
  induction cs using occurrence_induction hword with
  | nil => exact .inl h
  | found cs ih =>
    rw [replaceAll_word_append hword, List.mem_append] at h
    rcases h with h | h
    · exact .inr h
    · exact (ih h).imp_left (List.mem_append_right _)
  | passed first cs hnot ih =>
    rw [replaceAll_cons hnot, List.mem_cons] at h
    rcases h with rfl | h
    · exact .inl List.mem_cons_self
    · exact (ih h).imp_left (List.mem_cons_of_mem _)

/-- A replacement that neither seeks nor puts in the separator replaces in each piece. -/
theorem splitAt_replaceAll {sep : Char} (hword : word ≠ []) (hsep : sep ∉ word)
    (hnew : sep ∉ new) (cs : List Char) :
    splitAt sep (replaceAll word new cs) = (splitAt sep cs).map (replaceAll word new) := by
  induction cs using occurrence_induction hword with
  | nil => rfl
  | found cs ih =>
    obtain ⟨head, tail, hsplit⟩ := List.exists_cons_of_ne_nil (splitAt_ne_nil sep cs)
    rw [replaceAll_word_append hword, splitAt_append hnew, ih, splitAt_append hsep, hsplit]
    simp [replaceAll_word_append hword]
  | passed c cs hnot ih =>
    rw [replaceAll_cons hnot]
    by_cases hc : c = sep
    · subst hc
      rw [splitAt_cons_self, splitAt_cons_self, ih]
      rfl
    · obtain ⟨head, tail, hsplit⟩ := List.exists_cons_of_ne_nil (splitAt_ne_nil sep cs)
      have hpiece : ¬word <+: c :: head := fun hpre =>
        hnot (hpre.trans (List.cons_prefix_cons.mpr ⟨rfl, isPrefix_of_splitAt_eq_cons hsplit⟩))
      rw [splitAt_cons_of_ne hc, ih, splitAt_cons_of_ne hc, hsplit]
      simp [replaceAll_cons hpiece]

/-! ### What is between the occurrences -/

theorem length_replaceAll_le (hword : word ≠ []) (h : new.length ≤ word.length) (cs : List Char) :
    (replaceAll word new cs).length ≤ cs.length := by
  induction cs using occurrence_induction hword with
  | nil => rfl
  | found cs ih =>
    rw [replaceAll_word_append hword, List.length_append, List.length_append]
    omega
  | passed c cs hnot ih =>
    rw [replaceAll_cons hnot, List.length_cons, List.length_cons]
    omega

/-- A text that holds the word is shorter once the word is taken out. -/
theorem length_replaceAll_lt (hword : word ≠ []) (h : new.length < word.length) {cs : List Char}
    (hin : word <:+: cs) : (replaceAll word new cs).length < cs.length := by
  induction cs using occurrence_induction hword with
  | nil => exact absurd (List.eq_nil_of_infix_nil hin) hword
  | found cs _ =>
    have := length_replaceAll_le hword h.le cs
    rw [replaceAll_word_append hword, List.length_append, List.length_append]
    omega
  | passed c cs hnot ih =>
    have := ih ((List.infix_cons_iff.mp hin).resolve_left hnot)
    rw [replaceAll_cons hnot, List.length_cons, List.length_cons]
    omega

/-- No end of the word begins it but the whole, so that two occurrences never overlap. -/
def IsBorderless (word : List Char) : Prop :=
  ∀ front back, word = front ++ back → back <+: word → front = [] ∨ back = []

theorem isBorderless_cons {w : Char} {rest : List Char} (h : w ∉ rest) :
    IsBorderless (w :: rest) := by
  rintro (_ | ⟨f, front⟩) back heq hback
  · exact .inl rfl
  · cases back with
    | nil => exact .inr rfl
    | cons b back =>
      rw [List.cons_prefix_cons] at hback
      rw [List.cons_append, List.cons.injEq] at heq
      refine absurd ?_ h
      rw [heq.2, ← hback.1]
      exact List.mem_append_right _ List.mem_cons_self

/-- Before an occurrence of such a word there is none that reaches into it. -/
theorem IsBorderless.not_isPrefix_append (hborder : IsBorderless word) {front : List Char}
    (hne : front ≠ []) (hfront : ¬word <:+: front) (cs : List Char) :
    ¬word <+: front ++ (word ++ cs) := by
  intro hpre
  rcases Nat.le_total word.length front.length with hle | hle
  · exact hfront (List.prefix_of_prefix_length_le hpre (List.prefix_append _ _) hle).isInfix
  · obtain ⟨back, hback⟩ := List.prefix_of_prefix_length_le (List.prefix_append front _) hpre hle
    have hbegins : back <+: word ++ cs := by
      rwa [← hback, List.prefix_append_right_inj, hback] at hpre
    have hlength : back.length ≤ word.length := by
      rw [← hback, List.length_append]
      exact Nat.le_add_left _ _
    rcases hborder front back hback.symm
      (List.prefix_of_prefix_length_le hbegins (List.prefix_append _ _) hlength) with h | rfl
    · exact hne h
    · rw [List.append_nil] at hback
      exact hfront (hback ▸ List.infix_rfl)

theorem IsBorderless.replaceAll_append (hborder : IsBorderless word) (hword : word ≠ [])
    {front : List Char} (hfront : ¬word <:+: front) (cs : List Char) :
    replaceAll word new (front ++ (word ++ cs)) = front ++ (new ++ replaceAll word new cs) := by
  induction front with
  | nil => exact replaceAll_word_append hword cs
  | cons c front ih =>
    have hnot := hborder.not_isPrefix_append (List.cons_ne_nil c front) hfront cs
    rw [List.infix_cons_iff, not_or] at hfront
    rw [List.cons_append, replaceAll_cons (by simpa using hnot), ih hfront.2, List.cons_append]

theorem IsBorderless.replaceAll_intercalate (hborder : IsBorderless word) (hword : word ≠ [])
    {pieces : List (List Char)} (h : ∀ piece ∈ pieces, ¬word <:+: piece) :
    replaceAll word new (List.intercalate word pieces) = List.intercalate new pieces := by
  induction pieces with
  | nil => rfl
  | cons piece rest ih =>
    have hpiece := h piece List.mem_cons_self
    cases rest with
    | nil => simpa using replaceAll_of_not_isInfix hpiece
    | cons next rest =>
      have hrest := ih fun other hother => h other (List.mem_cons_of_mem _ hother)
      rw [List.intercalate_cons_cons, List.append_assoc, hborder.replaceAll_append hword hpiece,
        hrest, List.intercalate_cons_cons, List.append_assoc]

/-- Every text is made of pieces without the word, with the word between each two. -/
theorem exists_intercalate (hword : word ≠ []) (cs : List Char) :
    ∃ pieces, pieces ≠ [] ∧ cs = List.intercalate word pieces ∧
      ∀ piece ∈ pieces, ¬word <:+: piece := by
  have hnil : ¬word <:+: [] := fun h => hword (List.eq_nil_of_infix_nil h)
  induction cs using occurrence_induction hword with
  | nil => exact ⟨[[]], by simp, by simp, by simpa using hnil⟩
  | found cs ih =>
    obtain ⟨pieces, hne, rfl, hpieces⟩ := ih
    obtain ⟨piece, rest, rfl⟩ := List.exists_cons_of_ne_nil hne
    refine ⟨[] :: piece :: rest, by simp, ?_, List.forall_mem_cons.mpr ⟨hnil, hpieces⟩⟩
    rw [List.intercalate_cons_cons, List.nil_append]
  | passed c cs hnot ih =>
    obtain ⟨pieces, hne, rfl, hpieces⟩ := ih
    obtain ⟨piece, rest, rfl⟩ := List.exists_cons_of_ne_nil hne
    obtain ⟨tail, hcons⟩ :
        ∃ tail, ∀ front, List.intercalate word (front :: rest) = front ++ tail := by
      cases rest with
      | nil => exact ⟨[], by simp⟩
      | cons next rest => exact ⟨word ++ List.intercalate word (next :: rest), by simp⟩
    have hfirst : ¬word <:+: c :: piece := by
      rw [List.infix_cons_iff, not_or]
      refine ⟨fun hpre => hnot ?_, hpieces piece List.mem_cons_self⟩
      rw [hcons, ← List.cons_append]
      exact hpre.trans (List.prefix_append _ _)
    refine ⟨(c :: piece) :: rest, by simp, by rw [hcons, hcons, List.cons_append], ?_⟩
    exact List.forall_mem_cons.mpr ⟨hfirst, fun other hother =>
      hpieces other (List.mem_cons_of_mem _ hother)⟩

theorem intercalate_nil_left (pieces : List (List Char)) :
    List.intercalate [] pieces = pieces.flatten := by
  induction pieces with
  | nil => rfl
  | cons piece rest ih =>
    cases rest with
    | nil => simp
    | cons next rest => simp [List.intercalate_cons_cons, ih]

/-- Replacing a word puts the new one between the pieces. -/
theorem IsBorderless.replaceAll_eq_iff (hborder : IsBorderless word) (hword : word ≠ [])
    {cs out : List Char} : replaceAll word new cs = out ↔
      ∃ pieces, pieces ≠ [] ∧ cs = List.intercalate word pieces ∧
        (∀ piece ∈ pieces, ¬word <:+: piece) ∧ List.intercalate new pieces = out := by
  constructor
  · rintro rfl
    obtain ⟨pieces, hne, rfl, hpieces⟩ := exists_intercalate hword cs
    exact ⟨pieces, hne, rfl, hpieces, (hborder.replaceAll_intercalate hword hpieces).symm⟩
  · rintro ⟨pieces, -, rfl, hpieces, rfl⟩
    exact hborder.replaceAll_intercalate hword hpieces

end

end Toolgate.Text
