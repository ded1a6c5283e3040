import Mathlib.Tactic.IntervalCases
import Toolgate.Proofs.Decimal.Bits
import Toolgate.Proofs.Json.RoundTrip

/-!
# JSON proper

The reader takes the words `NaN`, `Infinity` and `-Infinity`, which are no JSON: a text that it
reads is JSON proper when none of them stands outside its quoted texts, as nothing else there has an
`N` or an `I`. The text of a value is of this kind where no infinite or undefined number occurs in
it.

## Main definitions

* `Json.namesNonFinite`: does one of the words stand in a text?
* `Json.IsProper`: JSON texts

## Main statements

* `namesNonFinite_print`: the words stand where infinite or undefined numbers occur, and only there
-/

namespace Toolgate.Json

/-- Where a character of a text stands: outside its quoted texts, in one of them, or in one behind a
backslash. -/
inductive Place where
  | outside
  | quoted
  | escaped

/-- Does one of the words for numbers that are not finite stand outside the quoted texts? -/
def namesNonFinite : Place → List Char → Bool
  | _, [] => false
  | .outside, c :: rest =>
    if c == '"' then namesNonFinite .quoted rest
    else c == 'N' || c == 'I' || namesNonFinite .outside rest
  | .quoted, c :: rest =>
    if c == '"' then namesNonFinite .outside rest
    else if c == '\\' then namesNonFinite .escaped rest
    else namesNonFinite .quoted rest
  | .escaped, _ :: rest => namesNonFinite .quoted rest

/-- The text is JSON, without the words for numbers that are not finite. -/
def IsProper (s : String) : Prop :=
  (read? s).isSome = true ∧ namesNonFinite .outside s.toList = false

/-! ## Quoted texts -/

theorem namesNonFinite_quoted_append {cs : List Char} (h : ∀ c ∈ cs, c ≠ '"' ∧ c ≠ '\\')
    (rest : List Char) :
    namesNonFinite .quoted (cs ++ rest) = namesNonFinite .quoted rest := by
  induction cs with
  | nil => rfl
  | cons c cs ih =>
    obtain ⟨⟨hquote, hslash⟩, htail⟩ := List.forall_mem_cons.mp h
    simpa [namesNonFinite, hquote, hslash] using ih htail

/-- Hexadecimal digits are neither quotes nor backslashes. -/
theorem hexDigits_ne_mark (n width : ℕ) :
    ∀ c ∈ Text.hexDigits n width, c ≠ '"' ∧ c ≠ '\\' := by
  induction width generalizing n with
  | zero => exact List.forall_mem_nil _
  | succ width ih =>
    intro c hc
    rcases List.mem_append.mp hc with hc | hc
    · exact ih _ c hc
    · obtain rfl := List.mem_singleton.mp hc
      have hlt : n % 16 < 16 := Nat.mod_lt _ (by decide)
      interval_cases n % 16 <;> decide

theorem namesNonFinite_escapeUnit_append (n : ℕ) (rest : List Char) :
    namesNonFinite .quoted (escapeUnit n ++ rest) = namesNonFinite .quoted rest :=
  namesNonFinite_quoted_append (hexDigits_ne_mark n 4) rest

/-- An escaped character stays inside the quotes. -/
theorem namesNonFinite_escapeChar_append (ascii : Bool) (c : Char) (rest : List Char) :
    namesNonFinite .quoted (escapeChar ascii c ++ rest) = namesNonFinite .quoted rest := by
  rw [escapeChar]
  split_ifs with h₁ h₂ h₃ h₄ h₅ h₆ h₇ h₈ h₉
  any_goals rfl
  · exact namesNonFinite_escapeUnit_append _ rest
  · rw [escapeUnits]
    split
    · exact namesNonFinite_escapeUnit_append _ rest
    · rw [List.append_assoc, namesNonFinite_escapeUnit_append, namesNonFinite_escapeUnit_append]
  · simp_all [namesNonFinite]

/-- A quoted text holds no word of its own. -/
theorem namesNonFinite_quote_append (ascii : Bool) (s : String) (rest : List Char) :
    namesNonFinite .outside (quote ascii s ++ rest) = namesNonFinite .outside rest := by
  have hchars (cs : List Char) :
      namesNonFinite .quoted (cs.flatMap (escapeChar ascii) ++ '"' :: rest) =
        namesNonFinite .outside rest := by
    induction cs with
    | nil => rfl
    | cons c cs ih =>
      rw [List.flatMap_cons, List.append_assoc, namesNonFinite_escapeChar_append, ih]
  simpa [quote, namesNonFinite] using hchars s.toList

/-! ## Numbers -/

/-- Does the character stand for itself outside quoted texts? -/
def isPlain (c : Char) : Bool :=
  c != '"' && c != 'N' && c != 'I'

theorem namesNonFinite_append_of_isPlain {cs : List Char} (h : ∀ c ∈ cs, isPlain c = true)
    (rest : List Char) :
    namesNonFinite .outside (cs ++ rest) = namesNonFinite .outside rest := by
  induction cs with
  | nil => rfl
  | cons c cs ih =>
    obtain ⟨hc, htail⟩ := List.forall_mem_cons.mp h
    simp only [isPlain, Bool.and_eq_true, bne_iff_ne] at hc
    obtain ⟨⟨hquote, hN⟩, hI⟩ := hc
    simp [namesNonFinite, hquote, hN, hI, ih htail]

theorem isPlain_of_isAsciiDigit {c : Char} (h : Text.isAsciiDigit c = true) : isPlain c = true := by
  simp only [isPlain, Bool.and_eq_true, bne_iff_ne]
  refine ⟨⟨?_, ?_⟩, ?_⟩
  all_goals
    rintro rfl
    exact absurd h (by decide)

theorem isPlain_natDigits {n : ℕ} : ∀ c ∈ Decimal.natDigits n, isPlain c = true := fun c hc =>
  isPlain_of_isAsciiDigit (Decimal.isAsciiDigit_of_mem_natDigits c hc)

theorem isPlain_intDigits {n : ℤ} : ∀ c ∈ Decimal.intDigits n, isPlain c = true := by
  unfold Decimal.intDigits
  split
  · exact List.forall_mem_cons.mpr ⟨rfl, isPlain_natDigits⟩
  · exact isPlain_natDigits

theorem isPlain_significant {cs : List Char} (h : ∀ c ∈ cs, isPlain c = true) :
    ∀ c ∈ Decimal.significant cs, isPlain c = true := by
  unfold Decimal.significant
  split
  · simp [isPlain]
  · intro c hc
    have hkept := (List.dropWhile_sublist _).mem (List.mem_reverse.mp hc)
    exact h c (List.mem_reverse.mp hkept)

theorem isPlain_zeros (k : ℕ) : ∀ c ∈ List.replicate k '0', isPlain c = true := by
  intro c hc
  rw [List.eq_of_mem_replicate hc]
  rfl

theorem isPlain_exponentText (e : ℤ) : ∀ c ∈ Decimal.exponentText e, isPlain c = true := by
  have hdigits := isPlain_natDigits (n := e.natAbs)
  unfold Decimal.exponentText
  refine List.forall_mem_cons.mpr ⟨?_, ?_⟩
  · split <;> rfl
  · split
    · exact List.forall_mem_cons.mpr ⟨rfl, hdigits⟩
    · exact hdigits

theorem isPlain_append {xs ys : List Char} (hxs : ∀ c ∈ xs, isPlain c = true)
    (hys : ∀ c ∈ ys, isPlain c = true) : ∀ c ∈ xs ++ ys, isPlain c = true :=
  List.forall_mem_append.mpr ⟨hxs, hys⟩

/-- Digits stay plain in every layout. -/
theorem isPlain_arrange {layout : Decimal.Layout} {digits : List Char}
    (h : ∀ c ∈ digits, isPlain c = true) (lead : ℤ) :
    ∀ c ∈ layout.arrange digits lead, isPlain c = true := by
  have hexponent : ∀ c ∈ 'e' :: Decimal.exponentText lead, isPlain c = true :=
    List.forall_mem_cons.mpr ⟨rfl, isPlain_exponentText lead⟩
  have hpoint {cs : List Char} (hcs : ∀ c ∈ cs, isPlain c = true) :
      ∀ c ∈ '.' :: cs, isPlain c = true := List.forall_mem_cons.mpr ⟨rfl, hcs⟩
  unfold Decimal.Layout.arrange
  dsimp only
  split
  · split
    · exact List.forall_mem_cons.mpr ⟨rfl, hpoint (isPlain_append (isPlain_zeros _) h)⟩
    · split
      · refine isPlain_append (isPlain_append h (isPlain_zeros _)) ?_
        split <;> simp [isPlain]
      · exact isPlain_append (fun c hc => h c (List.mem_of_mem_take hc))
          (hpoint fun c hc => h c (List.mem_of_mem_drop hc))
  · refine isPlain_append ?_ hexponent
    split
    · exact List.forall_mem_nil _
    · exact h
    · obtain ⟨hd, hrest⟩ := List.forall_mem_cons.mp h
      exact List.forall_mem_cons.mpr ⟨hd, hpoint hrest⟩

theorem isPlain_body {layout : Decimal.Layout} (b : Decimal.Binary) :
    ∀ c ∈ layout.body b, isPlain c = true := by
  unfold Decimal.Layout.body
  split
  · exact isPlain_arrange (by simp [isPlain]) 0
  · exact isPlain_arrange (isPlain_significant isPlain_natDigits) _

/-- The text of a finite number holds no word, and that of another is one. -/
theorem namesNonFinite_float_append (x : Float) (rest : List Char) :
    namesNonFinite .outside ((Decimal.jsonLayout.text x).toList ++ rest) =
      (!x.isFinite || namesNonFinite .outside rest) := by
  rw [← Decimal.isSome_ofFloat?]
  cases h : Decimal.Binary.ofFloat? x with
  | none =>
    simp only [Decimal.Layout.text, h]
    split
    · rfl
    · split <;> rfl
  | some b =>
    rw [Decimal.toList_text h, namesNonFinite_append_of_isPlain]
    · rfl
    · split
      · exact List.forall_mem_cons.mpr ⟨rfl, isPlain_body b⟩
      · exact isPlain_body b

/-! ## Values -/

section
variable {layout : Layout}

theorem isPlain_of_isGap {c : Char} (h : isGap c = true) : isPlain c = true := by
  simp only [isPlain, Bool.and_eq_true, bne_iff_ne]
  refine ⟨⟨?_, ?_⟩, ?_⟩
  all_goals
    rintro rfl
    exact absurd h (by decide)

theorem isPlain_colon (hl : layout.IsSound) : ∀ c ∈ layout.colon.toList, isPlain c = true := by
  obtain ⟨gap, hcolon, hgap⟩ := hl.colon
  rw [hcolon]
  exact List.forall_mem_cons.mpr ⟨rfl, fun c hc => isPlain_of_isGap (hgap c hc)⟩

theorem isPlain_opening (depth : ℕ) : ∀ c ∈ layout.opening depth, isPlain c = true := fun c hc =>
  isPlain_of_isGap (isGap_of_mem_opening layout depth c hc)

theorem isPlain_closing (depth : ℕ) : ∀ c ∈ layout.closing depth, isPlain c = true := fun c hc =>
  isPlain_of_isGap (isGap_of_mem_closing layout depth c hc)

theorem isPlain_between (hl : layout.IsSound) (depth : ℕ) :
    ∀ c ∈ layout.between depth, isPlain c = true := by
  obtain ⟨gap, hcomma, hgap⟩ := hl.comma
  rw [Layout.between, hcomma]
  exact isPlain_append (List.forall_mem_cons.mpr ⟨rfl, fun c hc => isPlain_of_isGap (hgap c hc)⟩)
    (isPlain_opening depth)

mutual

/-- The words stand where infinite or undefined numbers occur, and only there. -/
theorem namesNonFinite_chars_append (hl : layout.IsSound) :
    ∀ (v : Json) (depth : ℕ) (rest : List Char),
      namesNonFinite .outside (chars layout depth v ++ rest) =
        (v.holdsNonFinite || namesNonFinite .outside rest)
  | .null, _, _ => rfl
  | .bool true, _, _ => rfl
  | .bool false, _, _ => rfl
  | .int _, _, rest => namesNonFinite_append_of_isPlain isPlain_intDigits rest
  | .float x, _, rest => namesNonFinite_float_append x rest
  | .str s, _, rest => namesNonFinite_quote_append layout.ascii s rest
  | .date text, _, rest => namesNonFinite_quote_append layout.ascii text rest
  | .arr [], _, _ => rfl
  | .arr (v :: items), depth, rest => by
    have hopening : ∀ c ∈ '[' :: layout.opening depth, isPlain c = true :=
      List.forall_mem_cons.mpr ⟨rfl, isPlain_opening depth⟩
    simp only [chars, List.append_assoc]
    rw [namesNonFinite_append_of_isPlain hopening, namesNonFinite_chars_append hl v,
      namesNonFinite_itemChars_append hl items,
      namesNonFinite_append_of_isPlain (isPlain_closing depth)]
    simp [holdsNonFinite, holdsNonFiniteItems, Bool.or_assoc, namesNonFinite]
  | .obj [], _, _ => rfl
  | .obj ((key, v) :: fields), depth, rest => by
    have hopening : ∀ c ∈ '\x7b' :: layout.opening depth, isPlain c = true :=
      List.forall_mem_cons.mpr ⟨rfl, isPlain_opening depth⟩
    simp only [chars, List.append_assoc]
    rw [namesNonFinite_append_of_isPlain hopening, namesNonFinite_quote_append,
      namesNonFinite_append_of_isPlain (isPlain_colon hl), namesNonFinite_chars_append hl v,
      namesNonFinite_fieldChars_append hl fields,
      namesNonFinite_append_of_isPlain (isPlain_closing depth)]
    simp [holdsNonFinite, holdsNonFiniteFields, Bool.or_assoc, namesNonFinite]

theorem namesNonFinite_itemChars_append (hl : layout.IsSound) :
    ∀ (items : List Json) (depth : ℕ) (rest : List Char),
      namesNonFinite .outside (itemChars layout depth items ++ rest) =
        (holdsNonFiniteItems items || namesNonFinite .outside rest)
  | [], _, _ => rfl
  | v :: items, depth, rest => by
    simp only [itemChars, List.append_assoc]
    rw [namesNonFinite_append_of_isPlain (isPlain_between hl depth),
      namesNonFinite_chars_append hl v, namesNonFinite_itemChars_append hl items,
      holdsNonFiniteItems, Bool.or_assoc]

theorem namesNonFinite_fieldChars_append (hl : layout.IsSound) :
    ∀ (fields : List (String × Json)) (depth : ℕ) (rest : List Char),
      namesNonFinite .outside (fieldChars layout depth fields ++ rest) =
        (holdsNonFiniteFields fields || namesNonFinite .outside rest)
  | [], _, _ => rfl
  | (key, v) :: fields, depth, rest => by
    simp only [fieldChars, List.append_assoc]
    rw [namesNonFinite_append_of_isPlain (isPlain_between hl depth), namesNonFinite_quote_append,
      namesNonFinite_append_of_isPlain (isPlain_colon hl), namesNonFinite_chars_append hl v,
      namesNonFinite_fieldChars_append hl fields, holdsNonFiniteFields, Bool.or_assoc]

end

/-- The words stand in the text of a value where infinite or undefined numbers occur in it. -/
theorem namesNonFinite_print (hl : layout.IsSound) (v : Json) :
    namesNonFinite .outside (v.print layout).toList = v.holdsNonFinite := by
  have hchars := namesNonFinite_chars_append hl v 0 []
  rw [List.append_nil, namesNonFinite, Bool.or_false] at hchars
  rw [print, String.toList_ofList, hchars]

/-- The text of a value that is read back is JSON proper where no infinite or undefined number
occurs in it. -/
theorem isProper_print_iff (hl : layout.IsSound) {v : Json} (h : HasText v) :
    IsProper (v.print layout) ↔ v.holdsNonFinite = false := by
  rw [IsProper, read?_print hl h, namesNonFinite_print hl]
  simp

end

end Toolgate.Json
