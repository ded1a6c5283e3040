import Mathlib.Tactic.IntervalCases
import Mathlib.Tactic.SplitIfs
import Toolgate.Proofs.Text.Pieces
import Toolgate.Text.Encoding

/-!
# Percent-encoded texts

A text that is percent-encoded as one piece of a path consists of percent signs and of characters
that stand for themselves everywhere in a URL. Its bytes are those of UTF-8, and reading bytes of
UTF-8 gives the text back.
-/

namespace Toolgate.Text

/-! ## Characters of an encoded text -/

theorem toNat_lt_of_isUnreserved {c : Char} (h : isUnreserved c = true) : c.toNat < 128 := by
  simp only [isUnreserved, isAsciiAlnum, isAsciiLetter, isAsciiLower, isAsciiUpper, isAsciiDigit,
    Bool.or_eq_true, Bool.and_eq_true, decide_eq_true_eq, beq_iff_eq] at h
  have below (d : Char) (hd : d.toNat < 128) (hc : c ≤ d) : c.toNat < 128 :=
    Nat.lt_of_le_of_lt hc hd
  rcases h with (((((⟨-, h⟩ | ⟨-, h⟩) | ⟨-, h⟩) | rfl) | rfl) | rfl) | rfl
  · exact below 'z' (by decide) h
  · exact below 'Z' (by decide) h
  · exact below '9' (by decide) h
  all_goals decide

/-- What holds of the unreserved characters is decided on ASCII. -/
theorem of_isUnreserved {p : Char → Bool}
    (h : ∀ n < 128, isUnreserved (Char.ofNat n) = true → p (Char.ofNat n) = true) {c : Char}
    (hc : isUnreserved c = true) : p c = true := by
  have := h c.toNat (toNat_lt_of_isUnreserved hc)
  rw [Char.ofNat_toNat] at this
  exact this hc

theorem isUnreserved_capitalHex {d : ℕ} (h : d < 16) : isUnreserved (capitalHex d) = true := by
  interval_cases d <;> rfl

theorem hexValue?_capitalHex {d : ℕ} (h : d < 16) : hexValue? (capitalHex d) = some d := by
  interval_cases d <;> rfl

/-- A percent sign, or a character that stands for itself everywhere. -/
def isEncodedChar (c : Char) : Bool :=
  c == '%' || isUnreserved c

theorem isEncodedChar_of_mem_percentChar {char : Char} :
    ∀ c ∈ percentChar char, isEncodedChar c = true := by
  intro c hc
  obtain ⟨n, -, hc⟩ := List.mem_flatMap.mp hc
  have hhigh := isUnreserved_capitalHex (Nat.mod_lt (n / 16) (by decide : 16 > 0))
  have hlow := isUnreserved_capitalHex (Nat.mod_lt n (by decide : 16 > 0))
  simp only [percentByte, List.mem_cons, List.not_mem_nil, or_false] at hc
  rcases hc with rfl | rfl | rfl
  · rfl
  · simp [isEncodedChar, hhigh]
  · simp [isEncodedChar, hlow]

theorem isEncodedChar_of_mem_percent {cs : List Char} :
    ∀ c ∈ percent isUnreserved cs, isEncodedChar c = true := by
  intro c hc
  obtain ⟨char, -, hc⟩ := List.mem_flatMap.mp hc
  split at hc
  · next hkept => simp [isEncodedChar, List.mem_singleton.mp hc, hkept]
  · exact isEncodedChar_of_mem_percentChar c hc

/-- A text whose characters are all kept is encoded as it is. -/
theorem percent_eq_self {kept : Char → Bool} {cs : List Char} (h : ∀ c ∈ cs, kept c = true) :
    percent kept cs = cs := by
  induction cs with
  | nil => rfl
  | cons c cs ih =>
    have hrest := ih fun c hc => h c (List.mem_cons_of_mem _ hc)
    rw [percent, List.flatMap_cons, if_pos (h c List.mem_cons_self)]
    exact congrArg (c :: ·) hrest

/-- An encoded character is three characters long at least. -/
theorem exists_percentChar_eq (c : Char) : ∃ a b tail, percentChar c = '%' :: a :: b :: tail := by
  rw [percentChar, utf8Bytes]
  split_ifs <;> exact ⟨_, _, _, rfl⟩

theorem percent_ne_nil {kept : Char → Bool} {cs : List Char} (h : cs ≠ []) :
    percent kept cs ≠ [] := by
  obtain ⟨c, rest, rfl⟩ := List.exists_cons_of_ne_nil h
  obtain ⟨a, b, tail, hchar⟩ := exists_percentChar_eq c
  rw [percent, List.flatMap_cons]
  split <;> simp [hchar]

/-- Where nothing was encoded, the text is as it was. -/
theorem eq_of_percent_eq {kept : Char → Bool} {cs new : List Char} (h : percent kept cs = new)
    (hnew : '%' ∉ new) : cs = new := by
  have hkept : ∀ c ∈ cs, kept c = true := by
    intro c hc
    by_contra hchar
    obtain ⟨a, b, tail, hpercent⟩ := exists_percentChar_eq c
    refine hnew (h ▸ List.mem_flatMap.mpr ⟨c, hc, ?_⟩)
    rw [if_neg hchar, hpercent]
    exact List.mem_cons_self
  exact (percent_eq_self hkept).symm.trans h

/-! ## UTF-8 -/

theorem toNat_valid (c : Char) : c.toNat < 0xD800 ∨ 0xDFFF < c.toNat ∧ c.toNat < 0x110000 :=
  c.valid

theorem lt_of_mem_utf8Bytes {c : Char} {n : ℕ} (h : n ∈ utf8Bytes c) : n < 256 := by
  have hc := toNat_valid c
  simp only [utf8Bytes] at h
  split_ifs at h <;> simp at h <;> omega

theorem isContinuation_add {n : ℕ} (h : n < 0x40) : isContinuation (0x80 + n) = true := by
  simp [isContinuation]
  omega

section
variable {n : ℕ} (rest : Bytes)

theorem utf8_two (hlow : 0x80 ≤ n) (hhigh : n < 0x800) :
    utf8 ([0xC0 + n / 0x40, 0x80 + n % 0x40] ++ rest) = some (Char.ofNat n) :: utf8 rest := by
  have hlead : 0xC2 ≤ 0xC0 + n / 0x40 ∧ 0xC0 + n / 0x40 < 0xE0 := by omega
  have hmark : isContinuation (0x80 + n % 0x40) = true := isContinuation_add (by omega)
  have hvalue : (0xC0 + n / 0x40 - 0xC0) * 0x40 + (0x80 + n % 0x40 - 0x80) = n := by omega
  rw [List.cons_append, utf8.eq_def]
  dsimp only [List.cons_append, List.nil_append]
  rw [if_neg (by omega), if_pos (by simpa using hlead), if_pos hmark, hvalue]

theorem utf8_three (hlow : 0x800 ≤ n) (hhigh : n < 0x10000) (hvalid : n < 0xD800 ∨ 0xDFFF < n) :
    utf8 ([0xE0 + n / 0x1000, 0x80 + n / 0x40 % 0x40, 0x80 + n % 0x40] ++ rest)
      = some (Char.ofNat n) :: utf8 rest := by
  have hlead : 0xE0 ≤ 0xE0 + n / 0x1000 ∧ 0xE0 + n / 0x1000 < 0xF0 := by omega
  have hfollow : mayFollow (0xE0 + n / 0x1000) (0x80 + n / 0x40 % 0x40) = true := by
    simp only [mayFollow, isContinuation, beq_iff_eq]
    split_ifs <;> simp <;> omega
  have hlast : isContinuation (0x80 + n % 0x40) = true := isContinuation_add (by omega)
  have hvalue : ((0xE0 + n / 0x1000 - 0xE0) * 0x40 + (0x80 + n / 0x40 % 0x40 - 0x80)) * 0x40
      + (0x80 + n % 0x40 - 0x80) = n := by omega
  rw [List.cons_append, utf8.eq_def]
  dsimp only [List.cons_append, List.nil_append]
  rw [if_neg (by omega), if_neg (by simp), if_pos (by simpa using hlead), if_pos hfollow,
    if_pos hlast, hvalue]

theorem utf8_four (hlow : 0x10000 ≤ n) (hhigh : n < 0x110000) :
    utf8 ([0xF0 + n / 0x40000, 0x80 + n / 0x1000 % 0x40, 0x80 + n / 0x40 % 0x40,
      0x80 + n % 0x40] ++ rest) = some (Char.ofNat n) :: utf8 rest := by
  have hlead : 0xF0 ≤ 0xF0 + n / 0x40000 ∧ 0xF0 + n / 0x40000 < 0xF5 := by omega
  have hfollow : mayFollow (0xF0 + n / 0x40000) (0x80 + n / 0x1000 % 0x40) = true := by
    simp only [mayFollow, isContinuation, beq_iff_eq]
    split_ifs <;> simp <;> omega
  have hthird : isContinuation (0x80 + n / 0x40 % 0x40) = true := isContinuation_add (by omega)
  have hlast : isContinuation (0x80 + n % 0x40) = true := isContinuation_add (by omega)
  have hvalue : (((0xF0 + n / 0x40000 - 0xF0) * 0x40 + (0x80 + n / 0x1000 % 0x40 - 0x80)) * 0x40
      + (0x80 + n / 0x40 % 0x40 - 0x80)) * 0x40 + (0x80 + n % 0x40 - 0x80) = n := by omega
  rw [List.cons_append, utf8.eq_def]
  dsimp only [List.cons_append, List.nil_append]
  rw [if_neg (by omega), if_neg (by simp; omega), if_neg (by simp), if_pos (by simpa using hlead),
    if_pos hfollow, if_pos hthird, if_pos hlast, hvalue]

end

/-- The bytes of a character are read as that character. -/
theorem utf8_utf8Bytes_append (c : Char) (rest : Bytes) :
    utf8 (utf8Bytes c ++ rest) = some c :: utf8 rest := by
  have hvalid := toNat_valid c
  rw [utf8Bytes]
  split_ifs with h₁ h₂ h₃
  · rw [List.singleton_append, utf8.eq_def]
    dsimp only
    rw [if_pos h₁, Char.ofNat_toNat]
  · rw [utf8_two rest (by omega) h₂, Char.ofNat_toNat]
  · rw [utf8_three rest (by omega) h₃ (by omega), Char.ofNat_toNat]
  · rw [utf8_four rest (by omega) (by omega), Char.ofNat_toNat]

/-- The bytes of a text are read as that text. -/
theorem strict?_utf8_flatMap (cs : List Char) :
    strict? (utf8 (cs.flatMap utf8Bytes)) = some cs := by
  have hread : utf8 (cs.flatMap utf8Bytes) = cs.map some := by
    induction cs with
    | nil => rfl
    | cons c cs ih => rw [List.flatMap_cons, utf8_utf8Bytes_append, ih, List.map_cons]
  rw [hread, strict?, List.mapM_map]
  simpa using List.mapM_pure (m := Option) (f := id) (l := cs)

end Toolgate.Text
