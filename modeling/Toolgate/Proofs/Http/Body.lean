import Toolgate.Http.Response
import Toolgate.Proofs.Json.Readable
import Toolgate.Proofs.Text.Percent

/-!
# Bodies that are JSON texts

The encoding of a body is told by its first bytes. A JSON text begins with a character of ASCII, and
neither that one nor the next is NUL, so that its bytes in UTF-8 are taken for what they are: the
value of the body is that of the text.

## Main statements

* `jsonBody?_encodeUtf8`: the bytes of a JSON text are read as its value
* `Answer.payload_eq_of_read?`: so is an answer that has them for a body
-/

namespace Toolgate

/-! ## Heads of JSON texts -/

namespace Json

/-- A value begins with a visible character of ASCII. -/
theorem toNat_head_of_readValue {fuel : ℕ} {c : Char} {cs : List Char} {read : Json × List Char}
    (h : readValue fuel (c :: cs) = some read) : 0x20 < c.toNat ∧ c.toNat < 0x80 := by
  cases fuel with
  | zero => cases h
  | succ fuel =>
    rw [readValue.eq_def] at h
    dsimp only at h
    split at h
    case h_11 =>
      obtain ⟨whole, left, hcs, hne, hdigits, -⟩ := readNumber_cases h
      obtain ⟨d, ds, rfl⟩ := List.exists_cons_of_ne_nil hne
      obtain ⟨rfl, -⟩ := List.cons.inj hcs
      obtain ⟨hlow, hhigh⟩ := Decimal.toNat_of_isAsciiDigit (hdigits c List.mem_cons_self)
      exact ⟨lt_of_lt_of_le (by decide) hlow, lt_of_le_of_lt hhigh (by decide)⟩
    -- all others begin with a mark or a letter of their own
    all_goals
      next heq =>
        obtain ⟨rfl, -⟩ := List.cons.inj heq
        decide

theorem readString_nul (cs : List Char) : readString ('\x00' :: cs) = none := by
  rw [readString, readCodes.eq_def]
  rfl

theorem readValue_nul (fuel : ℕ) (cs : List Char) : readValue fuel ('\x00' :: cs) = none := by
  rw [Option.eq_none_iff_forall_ne_some]
  intro read h
  exact absurd (toNat_head_of_readValue h).1 (by decide)

theorem readItems_nul (fuel : ℕ) (cs : List Char) : readItems fuel ('\x00' :: cs) = none := by
  cases fuel with
  | zero => rfl
  | succ fuel => rw [readItems, readValue_nul]

/-- Behind one character a NUL ends what is read as a value, if anything is. -/
theorem readValue_cons_nul {fuel : ℕ} {c : Char} {cs : List Char} {read : Json × List Char}
    (h : readValue fuel (c :: '\x00' :: cs) = some read) : read.2 = '\x00' :: cs := by
  cases fuel with
  | zero => cases h
  | succ fuel =>
    rw [readValue.eq_def] at h
    dsimp only at h
    split at h
    case h_1 heq =>
      obtain ⟨-, rfl⟩ := List.cons.inj heq
      rw [readString_nul] at h
      cases h
    case h_2 heq =>
      obtain ⟨-, rfl⟩ := List.cons.inj heq
      rw [show skipGap ('\x00' :: cs) = '\x00' :: cs from rfl] at h
      simp [readItems_nul] at h
    case h_3 heq =>
      obtain ⟨-, rfl⟩ := List.cons.inj heq
      cases fuel <;> cases h
    case h_10 heq =>
      obtain ⟨-, rfl⟩ := List.cons.inj heq
      cases h
    case h_11 =>
      obtain ⟨whole, left, hcs, hne, hdigits, -⟩ := readNumber_cases h
      obtain ⟨d, ds, rfl⟩ := List.exists_cons_of_ne_nil hne
      obtain ⟨rfl, -⟩ := List.cons.inj hcs
      have hwhole : Decimal.IsWhole [c] :=
        ⟨List.cons_ne_nil c [], by simpa using hdigits c List.mem_cons_self, by simp⟩
      have hends : Decimal.EndsNumber ('\x00' :: cs) := by
        simp [Decimal.EndsNumber, Text.isAsciiDigit]
      have hread := readNumber_append false hwhole (fun c hc => (hends c hc).1)
        (Decimal.readFraction_of_head_ne (by simp)) (Decimal.readExponent_of_endsNumber hends)
      rw [List.singleton_append, h] at hread
      obtain ⟨-, rfl⟩ : ¬Decimal.maxDigits = 0 ∧
          read = (int (Decimal.natValue [c]), '\x00' :: cs) := by simpa using hread
      rfl
    all_goals
      next heq => cases heq

/-- No NUL follows the first character of a JSON text. -/
theorem readChars?_cons_nul (c : Char) (cs : List Char) :
    readChars? (c :: '\x00' :: cs) = none := by
  have hskip : skipGap ('\x00' :: cs) = '\x00' :: cs := rfl
  unfold readChars?
  split
  · next v left h =>
    cases hc : isGap c with
    | true =>
      rw [skipGap, List.dropWhile_cons_of_pos hc, ← skipGap, hskip, readValue_nul] at h
      cases h
    | false =>
      rw [skipGap, List.dropWhile_cons_of_neg (by simp [hc])] at h
      obtain rfl : left = '\x00' :: cs := readValue_cons_nul h
      rw [hskip]
      rfl
  · rfl

/-- A JSON text begins with a character of ASCII, and neither it nor the next is NUL. -/
theorem exists_cons_of_readChars? {cs : List Char} {v : Json} (h : readChars? cs = some v) :
    ∃ c rest, cs = c :: rest ∧ 0 < c.toNat ∧ c.toNat < 0x80 ∧ rest.head? ≠ some '\x00' := by
  cases cs with
  | nil => cases h
  | cons c rest =>
    have hnul : rest.head? ≠ some '\x00' := by
      intro hhead
      obtain ⟨tail, rfl⟩ := List.head?_eq_some_iff.mp hhead
      rw [readChars?_cons_nul] at h
      cases h
    refine ⟨c, rest, rfl, ?_⟩
    cases hc : isGap c with
    | true =>
      have hblank : c = ' ' ∨ c = '\t' ∨ c = '\n' ∨ c = '\r' := by
        simpa [isGap, or_assoc] using hc
      rcases hblank with rfl | rfl | rfl | rfl <;> exact ⟨by decide, by decide, hnul⟩
    | false =>
      unfold readChars? at h
      rw [skipGap, List.dropWhile_cons_of_neg (by simp [hc])] at h
      split at h
      · next hread =>
        obtain ⟨hlow, hhigh⟩ := toNat_head_of_readValue hread
        exact ⟨by omega, hhigh, hnul⟩
      · cases h

end Json

/-! ## Bytes -/

namespace Text

/-- Only a NUL has a zero for its first byte. -/
theorem eq_nul_of_head?_utf8Bytes {c : Char} (h : (utf8Bytes c).head? = some 0) : c = '\x00' := by
  have hcode : c.toNat = 0 := by
    simp only [utf8Bytes] at h
    split_ifs at h <;> simp at h
    exact h
  exact Char.toNat_inj.mp hcode

theorem utf8Bytes_ne_nil (c : Char) : utf8Bytes c ≠ [] := by
  simp only [utf8Bytes]
  split_ifs <;> exact List.cons_ne_nil _ _

theorem head?_flatMap_utf8Bytes_ne {cs : List Char} (h : cs.head? ≠ some '\x00') :
    (cs.flatMap utf8Bytes).head? ≠ some 0 := by
  cases cs with
  | nil => exact nofun
  | cons c cs =>
    rw [List.flatMap_cons, List.head?_append_of_ne_nil _ (utf8Bytes_ne_nil c)]
    exact fun hhead => h (congrArg some (eq_nul_of_head?_utf8Bytes hhead))

end Text

namespace Http

/-- Bytes that begin like a JSON text in UTF-8 are taken for UTF-8. -/
theorem jsonChars_eq_utf8 {a : ℕ} {rest : Text.Bytes} (hpos : 0 < a) (hascii : a < 0x80)
    (hrest : rest.head? ≠ some 0) : jsonChars (a :: rest) = Text.utf8 (a :: rest) := by
  unfold jsonChars
  split
  case h_6 heq =>
    obtain ⟨rfl, rfl⟩ := List.cons.inj heq
    rw [if_neg (by simpa using hpos.ne'), if_neg (by simpa using hrest)]
  case h_7 heq =>
    obtain ⟨rfl, rfl⟩ := List.cons.inj heq
    rw [if_neg (by simpa using hpos.ne'), if_neg (by simpa using hrest)]
  case h_8 => rfl
  -- the others begin with a byte order mark
  all_goals
    next heq =>
      obtain ⟨rfl, -⟩ := List.cons.inj heq
      omega

/-- The bytes of a JSON text are read as its value. -/
theorem jsonBody?_encodeUtf8 {s : String} {v : Json} (h : Json.read? s = some v) :
    jsonBody? (Text.encodeUtf8 s) = some v := by
  rw [Json.read?] at h
  obtain ⟨c, rest, hcs, hpos, hascii, hnul⟩ := Json.exists_cons_of_readChars? h
  have hbytes : Text.encodeUtf8 s = c.toNat :: rest.flatMap Text.utf8Bytes := by
    rw [Text.encodeUtf8, hcs, List.flatMap_cons, Text.utf8Bytes, if_pos hascii]
    rfl
  have hchars : Text.strict? (Text.utf8 (Text.encodeUtf8 s)) = some s.toList :=
    Text.strict?_utf8_flatMap s.toList
  rw [hbytes] at hchars ⊢
  rw [jsonBody?, jsonChars_eq_utf8 hpos hascii (Text.head?_flatMap_utf8Bytes_ne hnul), hchars]
  exact h

/-- An answer that has the bytes of a JSON text for a body brings the value of that text. -/
theorem Answer.payload_eq_of_read? {answer : Answer} {s : String} {v : Json}
    (hbody : answer.body = Text.encodeUtf8 s) (h : Json.read? s = some v) :
    answer.payload = .ok v := by
  have hread := jsonBody?_encodeUtf8 h
  have hne : Text.encodeUtf8 s ≠ [] := by
    intro hnil
    rw [hnil] at hread
    cases hread
  rw [payload, hbody, hread, List.isEmpty_eq_false_iff.mpr hne]
  rfl

end Http

end Toolgate
