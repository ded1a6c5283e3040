import Toolgate.Json.Printer
import Toolgate.Json.Reader
import Toolgate.Proofs.Text.Percent

/-!
# Quoted texts

A text in quotes is read as that text, in each layout: the reader turns an escaped character into
its code, or into the codes of a surrogate pair, and puts the codes together again.

## Main statements

* `readCodes_escapeChar_append`: one character is read as its codes
* `pairCodes_flatMap_codes`: the codes of a text are put together to it
* `readString_quoted`: a text in quotes is read as that text
-/

namespace Toolgate.Json

open Text (hexChar hexDigits hexValue? toNat_valid)

/-! ## Units -/

theorem hexValue?_hexChar {d : ℕ} (h : d < 16) : hexValue? (hexChar d) = some d := by
  interval_cases d <;> rfl

theorem readCodes_escapeUnit_append {n : ℕ} (h : n < 0x10000) (rest : List Char) :
    readCodes (escapeUnit n ++ rest) =
      (readCodes rest).map (Prod.map (n :: ·) id) := by
  have hunit : unit? (hexChar (n / 16 / 16 / 16 % 16)) (hexChar (n / 16 / 16 % 16))
      (hexChar (n / 16 % 16)) (hexChar (n % 16)) = some n := by
    simp only [unit?, hexValue?_hexChar (Nat.mod_lt _ (by decide : 0 < 16)), Option.bind_eq_bind,
      Option.bind_some, Option.some.injEq]
    omega
  have hdigits : hexDigits n 4 = [hexChar (n / 16 / 16 / 16 % 16), hexChar (n / 16 / 16 % 16),
      hexChar (n / 16 % 16), hexChar (n % 16)] := rfl
  rw [escapeUnit, hdigits]
  simp only [List.cons_append, List.nil_append]
  rw [readCodes]
  simp only [Char.reduceBEq, Bool.false_eq_true, if_false, if_true, hunit]
  cases readCodes rest <;> rfl

/-! ## Characters -/

/-- The codes that an escaped character is read as: a surrogate pair where it is escaped as two
units. -/
def codes (ascii : Bool) (c : Char) : List ℕ :=
  if ascii && 0xFFFF < c.toNat then
    [0xD800 + (c.toNat - 0x10000) / 0x400, 0xDC00 + (c.toNat - 0x10000) % 0x400]
  else [c.toNat]

theorem codes_of_lt {ascii : Bool} {c : Char} (h : c.toNat < 0x10000) :
    codes ascii c = [c.toNat] := by
  rw [codes, if_neg]
  simp
  omega

/-- A character after a backslash is read as the code that its letter stands for. -/
theorem readCodes_escape {e : Char} {n : ℕ} (h : escapeCode? e = some n) (hu : e ≠ 'u')
    (rest : List Char) :
    readCodes ('\\' :: e :: rest) =
      (readCodes rest).map (Prod.map (n :: ·) id) := by
  rw [readCodes.eq_def]
  simp only [Char.reduceBEq, Bool.false_eq_true, if_false, if_true]
  split
  · next heq => exact absurd (List.cons.inj heq).1 hu
  · next heq =>
    obtain ⟨rfl, rfl⟩ := List.cons.inj heq
    rw [h]
    cases readCodes rest <;> rfl
  · next heq => cases heq

/-- A character that stands for itself is read as its code. -/
theorem readCodes_cons {c : Char} (hquote : c ≠ '"') (hslash : c ≠ '\\') (h : 0x20 ≤ c.toNat)
    (rest : List Char) :
    readCodes (c :: rest) = (readCodes rest).map (Prod.map (c.toNat :: ·) id) := by
  have hshown : ¬ c.toNat < 0x20 := by omega
  rw [readCodes.eq_def]
  simp only [beq_iff_eq, hquote, hslash, hshown, if_false]
  rfl

theorem readCodes_escapeChar_append_of_lt {c : Char} (h : c.toNat < 0x10000) (ascii : Bool)
    (rest : List Char) :
    readCodes (escapeChar ascii c ++ rest) =
      (readCodes rest).map (Prod.map (c.toNat :: ·) id) := by
  rw [escapeChar]
  split_ifs with h₁ h₂ h₃ h₄ h₅ h₆ h₇ h₈ h₉
  · exact readCodes_escape (by rw [beq_iff_eq.mp h₁]; rfl) (by decide) rest
  · exact readCodes_escape (by rw [beq_iff_eq.mp h₂]; rfl) (by decide) rest
  · exact readCodes_escape (by rw [beq_iff_eq.mp h₃]; rfl) (by decide) rest
  · exact readCodes_escape (by rw [beq_iff_eq.mp h₄]; rfl) (by decide) rest
  · exact readCodes_escape (by rw [beq_iff_eq.mp h₅]; rfl) (by decide) rest
  · exact readCodes_escape (by rw [beq_iff_eq.mp h₆]; rfl) (by decide) rest
  · exact readCodes_escape (by rw [beq_iff_eq.mp h₇]; rfl) (by decide) rest
  · exact readCodes_escapeUnit_append h rest
  · rw [escapeUnits, if_pos h]
    exact readCodes_escapeUnit_append h rest
  · exact readCodes_cons (by simpa using h₁) (by simpa using h₂) (by omega) rest

theorem readCodes_escapeChar_append_of_le {c : Char} (h : 0x10000 ≤ c.toNat) (ascii : Bool)
    (rest : List Char) :
    readCodes (escapeChar ascii c ++ rest) =
      (readCodes rest).map (Prod.map (codes ascii c ++ ·) id) := by
  have hvalid := toNat_valid c
  have hplain (n : ℕ) (hn : n < 0x10000) : c.toNat ≠ n := by omega
  have hchar (d : Char) (hd : d.toNat < 0x10000) : c ≠ d := fun heq => hplain _ hd (congrArg _ heq)
  have hescape : escapeChar ascii c = if ascii then escapeUnits c else [c] := by
    simp [escapeChar, hchar, hplain, show ¬ c.toNat < 32 by omega, show 126 < c.toNat by omega]
  rw [hescape]
  cases ascii with
  | false =>
    simpa [codes] using readCodes_cons (hchar '"' (by decide)) (hchar '\\' (by decide))
      (by omega) rest
  | true =>
    have hcodes : codes true c =
        [0xD800 + (c.toNat - 0x10000) / 0x400, 0xDC00 + (c.toNat - 0x10000) % 0x400] := by
      rw [codes, if_pos]
      simp
      omega
    rw [hcodes, if_pos rfl, escapeUnits, if_neg (not_lt.mpr h), List.append_assoc,
      readCodes_escapeUnit_append (by omega), readCodes_escapeUnit_append (by omega)]
    cases readCodes rest <;> rfl

/-- A character is read as its codes. -/
theorem readCodes_escapeChar_append (ascii : Bool) (c : Char) (rest : List Char) :
    readCodes (escapeChar ascii c ++ rest) =
      (readCodes rest).map (Prod.map (codes ascii c ++ ·) id) := by
  rcases lt_or_ge c.toNat 0x10000 with h | h
  · rw [codes_of_lt h]
    exact readCodes_escapeChar_append_of_lt h ascii rest
  · exact readCodes_escapeChar_append_of_le h ascii rest

/-! ## Texts -/

/-- The codes up to the closing quote are those of the characters. -/
theorem readCodes_flatMap_escapeChar (ascii : Bool) (cs rest : List Char) :
    readCodes (cs.flatMap (escapeChar ascii) ++ '"' :: rest) =
      some (cs.flatMap (codes ascii), rest) := by
  induction cs with
  | nil => exact readCodes.eq_def _
  | cons c cs ih =>
    rw [List.flatMap_cons, List.append_assoc, readCodes_escapeChar_append, ih]
    rfl

/-- A code that is no first half of a pair is read on its own. -/
theorem pairCodes_cons {n : ℕ} (h : isHighUnit n = false) (ns : List ℕ) :
    pairCodes (n :: ns) = codeChar n :: pairCodes ns := by
  cases ns with
  | nil => rfl
  | cons m ns => rw [pairCodes, h, Bool.false_and, if_neg Bool.false_ne_true]

theorem pairCodes_codes_append (ascii : Bool) (c : Char) (ns : List ℕ) :
    pairCodes (codes ascii c ++ ns) = c :: pairCodes ns := by
  have hvalid := toNat_valid c
  unfold codes
  split
  · next h =>
    have hlarge : 0xFFFF < c.toNat := by simpa using (Bool.and_eq_true_iff.mp h).2
    simp only [List.cons_append, List.nil_append]
    rw [pairCodes, if_pos]
    · have hcode : 0x10000 + (0xD800 + (c.toNat - 0x10000) / 0x400 - 0xD800) * 0x400 +
          (0xDC00 + (c.toNat - 0x10000) % 0x400 - 0xDC00) = c.toNat := by omega
      rw [hcode, Char.ofNat_toNat]
    · simp [isHighUnit, isLowUnit]
      omega
  · have hhigh : isHighUnit c.toNat = false := by
      simp [isHighUnit]
      omega
    have hlow : isLowUnit c.toNat = false := by
      simp [isLowUnit]
      omega
    rw [List.singleton_append, pairCodes_cons hhigh, codeChar, hhigh, hlow]
    simp

/-- The codes of a text are put together to that text. -/
theorem pairCodes_flatMap_codes (ascii : Bool) (cs : List Char) :
    pairCodes (cs.flatMap (codes ascii)) = cs := by
  induction cs with
  | nil => rfl
  | cons c cs ih => rw [List.flatMap_cons, pairCodes_codes_append, ih]

/-- A text in quotes, the first of which has been passed, is read as that text. -/
theorem readString_quoted (ascii : Bool) (s : String) (rest : List Char) :
    readString (s.toList.flatMap (escapeChar ascii) ++ '"' :: rest) = some (s, rest) := by
  simp only [readString, readCodes_flatMap_escapeChar, Option.map_some, pairCodes_flatMap_codes,
    String.ofList_toList]

end Toolgate.Json
