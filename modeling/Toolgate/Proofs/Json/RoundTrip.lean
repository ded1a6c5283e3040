import Toolgate.Json.Loaded
import Toolgate.Proofs.Json.Numbers
import Toolgate.Proofs.Json.Strings

/-!
# JSON texts that are read back

A JSON text is read as the value that was written, whatever its layout. A calendar date is read as a
text, and where an object was written with one key twice, the reader keeps the last value in the
place of the first.

## Main definitions

* `Json.HasText`: the values that are read back from their texts
* `Json.asRead`: the value that is read from the text of another
* `Layout.IsSound`: layouts that put nothing but blanks around commas and colons

## Main statements

* `readsBack_of_hasText`: a value at the head of a text is read as what it is
* `read?_print`: a whole text is read as its value
-/

namespace Toolgate.Json

open Decimal (EndsNumber)

/-! ## Values that are read back -/

mutual

/-- Is the value read back from its text? Its integers are not too long, and its numbers are
finite. -/
def HasText : Json → Prop
  | .int n => (Decimal.natDigits n.natAbs).length ≤ Decimal.maxDigits
  | .float x => x.isFinite = true
  | .arr items => ItemsHaveText items
  | .obj fields => FieldsHaveText fields
  | _ => True

/-- Is each item read back? -/
def ItemsHaveText : List Json → Prop
  | [] => True
  | v :: rest => HasText v ∧ ItemsHaveText rest

/-- Is the value of each field read back? -/
def FieldsHaveText : List (String × Json) → Prop
  | [] => True
  | (_, v) :: rest => HasText v ∧ FieldsHaveText rest

end

mutual

/-- The value with its dates as texts, and the fields of each object written one after the other. -/
def asRead : Json → Json
  | .date text => .str text
  | .arr items => .arr (itemsAsRead items)
  | .obj fields => .ofFields (fieldsAsRead fields)
  | v => v

/-- Each item as it is read. -/
def itemsAsRead : List Json → List Json
  | [] => []
  | v :: rest => asRead v :: itemsAsRead rest

/-- Each field with its value as it is read. -/
def fieldsAsRead : List (String × Json) → List (String × Json)
  | [] => []
  | (key, v) :: rest => (key, asRead v) :: fieldsAsRead rest

end

/-! ## Layouts -/

/-- Commas and colons of a layout are followed by blanks and by nothing else. -/
structure Layout.IsSound (layout : Layout) : Prop where
  comma : ∃ gap, layout.comma.toList = ',' :: gap ∧ ∀ c ∈ gap, isGap c = true
  colon : ∃ gap, layout.colon.toList = ':' :: gap ∧ ∀ c ∈ gap, isGap c = true

theorem isSound_spaced : spaced.IsSound :=
  ⟨⟨[' '], rfl, by simp [isGap]⟩, ⟨[' '], rfl, by simp [isGap]⟩⟩

theorem isSound_indented : indented.IsSound :=
  ⟨⟨[], rfl, List.forall_mem_nil _⟩, ⟨[' '], rfl, by simp [isGap]⟩⟩

section
variable (layout : Layout) (depth : ℕ)

theorem isGap_of_mem_lineBreak : ∀ c ∈ lineBreak depth, isGap c = true := by
  intro c hc
  rcases List.mem_cons.mp hc with rfl | hc
  · rfl
  · rw [List.eq_of_mem_replicate hc]
    rfl

theorem isGap_of_mem_opening : ∀ c ∈ layout.opening depth, isGap c = true := by
  intro c hc
  unfold Layout.opening at hc
  split at hc
  · exact isGap_of_mem_lineBreak _ c hc
  · cases hc

theorem isGap_of_mem_closing : ∀ c ∈ layout.closing depth, isGap c = true := by
  intro c hc
  unfold Layout.closing at hc
  split at hc
  · exact isGap_of_mem_lineBreak _ c hc
  · cases hc

end

/-- Blanks are passed over, up to what is none. -/
theorem skipGap_append {gap rest : List Char} (hgap : ∀ c ∈ gap, isGap c = true)
    (hrest : ∀ c ∈ rest.head?, isGap c = false) : skipGap (gap ++ rest) = rest := by
  induction gap with
  | nil =>
    cases rest with
    | nil => rfl
    | cons c rest => simp [skipGap, hrest c rfl]
  | cons g gap ih =>
    have htail := ih fun c hc => hgap c (List.mem_cons_of_mem _ hc)
    simpa [skipGap, hgap g List.mem_cons_self] using htail

/-! ## Heads of texts -/

/-- May the character stand at the head of a value? It is no blank and closes nothing. -/
def opensValue (c : Char) : Bool :=
  !isGap c && c != ']' && c != '\x7d'

/-- A text that a value is read from begins with that value. -/
theorem exists_cons_of_readValue {fuel : ℕ} {cs : List Char} {read : Json × List Char}
    (h : readValue fuel cs = some read) : ∃ c rest, cs = c :: rest ∧ opensValue c = true := by
  cases fuel with
  | zero => cases h
  | succ fuel =>
    cases cs with
    | nil => cases h
    | cons c rest =>
      refine ⟨c, rest, rfl, ?_⟩
      by_contra hc
      have hmarks : c = ' ' ∨ c = '\t' ∨ c = '\n' ∨ c = '\r' ∨ c = ']' ∨ c = '\x7d' := by
        simpa [opensValue, isGap, or_assoc, imp_iff_not_or] using hc
      rcases hmarks with rfl | rfl | rfl | rfl | rfl | rfl <;>
        simp [readValue, readNumber, Decimal.spanDigits, Text.isAsciiDigit] at h

theorem head_of_readValue {fuel : ℕ} {cs : List Char} {read : Json × List Char}
    (h : readValue fuel cs = some read) : ∀ c ∈ cs.head?, isGap c = false := by
  obtain ⟨d, rest, rfl, hopens⟩ := exists_cons_of_readValue h
  intro c hc
  obtain rfl : d = c := by simpa using hc
  simp only [opensValue, Bool.and_eq_true, Bool.not_eq_true'] at hopens
  exact hopens.1.1

theorem head_quote_append (ascii : Bool) (key : String) (rest : List Char) :
    ∀ c ∈ (quote ascii key ++ rest).head?, isGap c = false := by
  intro c hc
  obtain rfl : '"' = c := by simpa [quote] using hc
  rfl

/-! ## What follows a value -/

theorem endsNumber_nil : EndsNumber [] := by
  simp [EndsNumber]

theorem endsNumber_cons {c : Char} (h : c = ',' ∨ c = ']' ∨ c = '\x7d' ∨ c = '\n')
    (rest : List Char) : EndsNumber (c :: rest) := by
  intro d hd
  obtain rfl : c = d := by simpa using hd
  rcases h with rfl | rfl | rfl | rfl <;> decide

section
variable {layout : Layout}

theorem endsNumber_closing_append (depth : ℕ) {close : Char} (h : close = ']' ∨ close = '\x7d')
    (rest : List Char) : EndsNumber (layout.closing depth ++ close :: rest) := by
  unfold Layout.closing lineBreak
  split
  · exact endsNumber_cons (by simp) _
  · exact endsNumber_cons (by rcases h with rfl | rfl <;> simp) _

theorem endsNumber_between_append (hl : layout.IsSound) (depth : ℕ) (rest : List Char) :
    EndsNumber (layout.between depth ++ rest) := by
  obtain ⟨gap, hgap, -⟩ := hl.comma
  rw [Layout.between, hgap]
  exact endsNumber_cons (.inl rfl) _

theorem endsNumber_itemChars_append (hl : layout.IsSound) (depth : ℕ) (items : List Json)
    (rest : List Char) :
    EndsNumber (itemChars layout depth items ++ (layout.closing depth ++ ']' :: rest)) := by
  cases items with
  | nil => exact endsNumber_closing_append depth (.inl rfl) rest
  | cons v items =>
    simp only [itemChars, List.append_assoc]
    exact endsNumber_between_append hl depth _

theorem endsNumber_fieldChars_append (hl : layout.IsSound) (depth : ℕ)
    (fields : List (String × Json)) (rest : List Char) :
    EndsNumber (fieldChars layout depth fields ++ (layout.closing depth ++ '\x7d' :: rest)) := by
  cases fields with
  | nil => exact endsNumber_closing_append depth (.inr rfl) rest
  | cons field fields =>
    obtain ⟨key, v⟩ := field
    simp only [fieldChars, List.append_assoc]
    exact endsNumber_between_append hl depth _

/-! ## Reading -/

/-- The text of a value is read up to where it ends. -/
def ReadsBack (layout : Layout) (v : Json) : Prop :=
  ∀ depth fuel rest, EndsNumber rest → (chars layout depth v).length < fuel →
    readValue fuel (chars layout depth v ++ rest) = some (v.asRead, rest)

theorem readsBack_of_succ {v : Json}
    (h : ∀ depth n rest, EndsNumber rest → (chars layout depth v).length ≤ n →
      readValue (n + 1) (chars layout depth v ++ rest) = some (v.asRead, rest)) :
    ReadsBack layout v := by
  intro depth fuel rest hrest hfuel
  obtain ⟨n, rfl⟩ : ∃ n, fuel = n + 1 := ⟨fuel - 1, by omega⟩
  exact h depth n rest hrest (Nat.le_of_lt_succ hfuel)

theorem readsBack_str (s : String) : ReadsBack layout (.str s) := by
  refine readsBack_of_succ fun depth n rest _ _ => ?_
  simp only [chars, quote, List.cons_append, List.append_assoc, List.nil_append]
  rw [readValue, readString_quoted]
  rfl

theorem readsBack_date (text : String) : ReadsBack layout (.date text) :=
  readsBack_str text

/-- What stands between two items or fields, the comma apart, is passed over. -/
theorem skipGap_between (hl : layout.IsSound) (depth : ℕ) {next : List Char}
    (hnext : ∀ c ∈ next.head?, isGap c = false) :
    ∃ rest, layout.between depth ++ next = ',' :: rest ∧ skipGap rest = next := by
  obtain ⟨gap, hcomma, hgap⟩ := hl.comma
  refine ⟨gap ++ layout.opening depth ++ next, ?_, skipGap_append (fun c hc => ?_) hnext⟩
  · rw [Layout.between, hcomma]
    simp
  · rcases List.mem_append.mp hc with hc | hc
    · exact hgap c hc
    · exact isGap_of_mem_opening layout depth c hc

theorem skipGap_closing (depth : ℕ) {close : Char} (h : close = ']' ∨ close = '\x7d')
    (rest : List Char) : skipGap (layout.closing depth ++ close :: rest) = close :: rest := by
  refine skipGap_append (isGap_of_mem_closing layout depth) fun c hc => ?_
  obtain rfl : close = c := by simpa using hc
  rcases h with rfl | rfl <;> rfl

theorem skipGap_comma (rest : List Char) : skipGap (',' :: rest) = ',' :: rest := rfl

theorem chars_length_pos {v : Json} (hv : ReadsBack layout v) (depth : ℕ) :
    0 < (chars layout depth v).length := by
  obtain ⟨c, rest, heq, -⟩ :=
    exists_cons_of_readValue (hv depth _ [] endsNumber_nil (Nat.lt_succ_self _))
  rw [List.append_nil] at heq
  simp [heq]

/-- Items that are read back are read one after the other. -/
theorem readItems_itemChars (hl : layout.IsSound) {items : List Json} :
    ∀ {v : Json} {depth fuel : ℕ} {rest : List Char}, ReadsBack layout v →
      (∀ w ∈ items, ReadsBack layout w) →
      (chars layout (depth + 1) v).length + (itemChars layout depth items).length + 1 < fuel →
      readItems fuel (chars layout (depth + 1) v ++
        (itemChars layout depth items ++ (layout.closing depth ++ ']' :: rest))) =
      some (v.asRead :: itemsAsRead items, rest) := by
  induction items with
  | nil =>
    intro v depth fuel rest hv _ hfuel
    obtain ⟨n, rfl⟩ : ∃ n, fuel = n + 1 := ⟨fuel - 1, by omega⟩
    have hread := hv (depth + 1) n _ (endsNumber_itemChars_append hl depth [] rest) (by omega)
    rw [readItems, hread]
    simp only [itemChars, List.nil_append, skipGap_closing depth (.inl rfl)]
    rfl
  | cons w items ih =>
    intro v depth fuel rest hv hitems hfuel
    obtain ⟨n, rfl⟩ : ∃ n, fuel = n + 1 := ⟨fuel - 1, by omega⟩
    obtain ⟨hw, hitems⟩ := List.forall_mem_cons.mp hitems
    have hread := hv (depth + 1) n _ (endsNumber_itemChars_append hl depth (w :: items) rest)
      (by omega)
    have hlength := chars_length_pos hv (depth + 1)
    simp only [itemChars, List.append_assoc, List.length_append] at hread hfuel ⊢
    have hnext := hw (depth + 1) n _ (endsNumber_itemChars_append hl depth items rest) (by omega)
    obtain ⟨tail, hcomma, hskip⟩ := skipGap_between hl depth (head_of_readValue hnext)
    rw [readItems, hread, hcomma]
    simp only [skipGap_comma, hskip]
    rw [ih hw hitems (by omega)]
    rfl

/-- A field is read up to the end of its object, or up to the field that follows it. -/
theorem readFields_field (hl : layout.IsSound) {key : String} {cs tail rest : List Char} {n : ℕ}
    {v : Json} (done : List (String × Json)) (h : readValue n (cs ++ tail) = some (v, rest)) :
    (∀ left, skipGap rest = '\x7d' :: left →
      readFields (n + 1) done (quote layout.ascii key ++ (layout.colon.toList ++ (cs ++ tail))) =
        some (setField key v done, left)) ∧
    ∀ left, skipGap rest = ',' :: left →
      readFields (n + 1) done (quote layout.ascii key ++ (layout.colon.toList ++ (cs ++ tail))) =
        readFields n (setField key v done) (skipGap left) := by
  obtain ⟨gap, hcolon, hgap⟩ := hl.colon
  have hskip : skipGap (':' :: (gap ++ (cs ++ tail))) = ':' :: (gap ++ (cs ++ tail)) := rfl
  have hvalue := skipGap_append hgap (head_of_readValue h)
  simp only [quote, hcolon, List.cons_append, List.append_assoc, List.nil_append]
  rw [readFields, readString_quoted]
  simp only [hskip, hvalue, h]
  constructor
  · intro left hrest
    rw [hrest]
    rfl
  · intro left hrest
    rw [hrest]
    rfl

/-- Fields whose values are read back are read one after the other. -/
theorem readFields_fieldChars (hl : layout.IsSound) {fields : List (String × Json)} :
    ∀ {key : String} {v : Json} {done : List (String × Json)} {depth fuel : ℕ} {rest : List Char},
      ReadsBack layout v → (∀ field ∈ fields, ReadsBack layout field.2) →
      (chars layout (depth + 1) v).length + (fieldChars layout depth fields).length + 1 < fuel →
      readFields fuel done (quote layout.ascii key ++ (layout.colon.toList ++
        (chars layout (depth + 1) v ++
          (fieldChars layout depth fields ++ (layout.closing depth ++ '\x7d' :: rest))))) =
      some (((key, v.asRead) :: fieldsAsRead fields).foldl
        (fun done field => setField field.1 field.2 done) done, rest) := by
  induction fields with
  | nil =>
    intro key v done depth fuel rest hv _ hfuel
    obtain ⟨n, rfl⟩ : ∃ n, fuel = n + 1 := ⟨fuel - 1, by omega⟩
    have hread := hv (depth + 1) n _ (endsNumber_fieldChars_append hl depth [] rest) (by omega)
    rw [(readFields_field hl done hread).1 _ (skipGap_closing depth (.inr rfl) rest)]
    rfl
  | cons field fields ih =>
    obtain ⟨next, w⟩ := field
    intro key v done depth fuel rest hv hfields hfuel
    obtain ⟨n, rfl⟩ : ∃ n, fuel = n + 1 := ⟨fuel - 1, by omega⟩
    have hw : ReadsBack layout w := hfields _ List.mem_cons_self
    replace hfields := (List.forall_mem_cons.mp hfields).2
    have hread := hv (depth + 1) n _
      (endsNumber_fieldChars_append hl depth ((next, w) :: fields) rest) (by omega)
    have hlength := chars_length_pos hv (depth + 1)
    simp only [fieldChars, List.append_assoc, List.length_append] at hread hfuel ⊢
    obtain ⟨left, hcomma, hskip⟩ := skipGap_between hl depth
      (head_quote_append layout.ascii next (layout.colon.toList ++ (chars layout (depth + 1) w ++
        (fieldChars layout depth fields ++ (layout.closing depth ++ '\x7d' :: rest)))))
    rw [(readFields_field hl done hread).2 left (by rw [hcomma]; rfl), hskip,
      ih hw hfields (by omega)]
    rfl

/-- An array is read from its first item on. -/
theorem readValue_bracket {gap cs tail left : List Char} {m n : ℕ} {read : Json × List Char}
    {items : List Json} (hgap : ∀ c ∈ gap, isGap c = true)
    (h : readValue m (cs ++ tail) = some read)
    (hitems : readItems n (cs ++ tail) = some (items, left)) :
    readValue (n + 1) ('[' :: (gap ++ (cs ++ tail))) = some (.arr items, left) := by
  have hskip := skipGap_append hgap (head_of_readValue h)
  obtain ⟨c, rest, heq, hopens⟩ := exists_cons_of_readValue h
  have hne : c ≠ ']' := by
    rintro rfl
    exact absurd hopens (by decide)
  rw [heq] at hskip hitems ⊢
  simp [readValue, hskip, hne, hitems]

/-- An object is read from its first key on. -/
theorem readValue_brace {gap tail left : List Char} {n : ℕ} {key : String}
    {fields : List (String × Json)} (hgap : ∀ c ∈ gap, isGap c = true)
    (hfields : readFields n [] (quote layout.ascii key ++ tail) = some (fields, left)) :
    readValue (n + 1) ('\x7b' :: (gap ++ (quote layout.ascii key ++ tail))) =
      some (.obj fields, left) := by
  have hskip := skipGap_append hgap (head_quote_append layout.ascii key tail)
  rw [readValue, hskip]
  simp only [quote, List.cons_append, List.append_assoc, List.nil_append] at hfields ⊢
  simp [hfields]

mutual

/-- A value at the head of a text is read as what it is. -/
theorem readsBack_of_hasText (hl : layout.IsSound) : ∀ {v : Json}, HasText v → ReadsBack layout v
  | .null, _ | .arr [], _ | .obj [], _ => readsBack_of_succ fun _ _ _ _ _ => rfl
  | .bool b, _ => readsBack_of_succ fun _ _ _ _ _ => by cases b <;> rfl
  | .int _, h => readsBack_of_succ fun _ n _ hrest _ => readValue_intDigits n h hrest
  | .float _, h => readsBack_of_succ fun _ n _ hrest _ => readValue_float n h hrest
  | .str s, _ => readsBack_str s
  | .date text, _ => readsBack_date text
  | .arr (v :: items), h => readsBack_of_succ fun depth n rest _ hfuel => by
    have hv := readsBack_of_hasText hl h.1
    have hitems := readsBack_of_itemsHaveText hl h.2
    simp only [chars, List.cons_append, List.append_assoc, List.length_cons, List.length_append,
      List.nil_append] at hfuel ⊢
    have hread := hv (depth + 1) n _ (endsNumber_itemChars_append hl depth items rest) (by omega)
    exact readValue_bracket (isGap_of_mem_opening layout depth) hread
      (readItems_itemChars hl hv hitems (by omega))
  | .obj ((key, v) :: fields), h => readsBack_of_succ fun depth n rest _ hfuel => by
    have hv := readsBack_of_hasText hl h.1
    have hfields := readsBack_of_fieldsHaveText hl h.2
    simp only [chars, List.cons_append, List.append_assoc, List.length_cons, List.length_append,
      List.nil_append] at hfuel ⊢
    exact readValue_brace (isGap_of_mem_opening layout depth)
      (readFields_fieldChars hl hv hfields (by omega))

theorem readsBack_of_itemsHaveText (hl : layout.IsSound) :
    ∀ {items : List Json}, ItemsHaveText items → ∀ v ∈ items, ReadsBack layout v
  | [], _ => List.forall_mem_nil _
  | _ :: _, h => List.forall_mem_cons.mpr
    ⟨readsBack_of_hasText hl h.1, readsBack_of_itemsHaveText hl h.2⟩

theorem readsBack_of_fieldsHaveText (hl : layout.IsSound) :
    ∀ {fields : List (String × Json)}, FieldsHaveText fields →
      ∀ field ∈ fields, ReadsBack layout field.2
  | [], _ => List.forall_mem_nil _
  | (_, _) :: _, h => List.forall_mem_cons.mpr
    ⟨readsBack_of_hasText hl h.1, readsBack_of_fieldsHaveText hl h.2⟩

end

/-- A whole text is read as its value. -/
theorem read?_print (hl : layout.IsSound) {v : Json} (h : HasText v) :
    read? (v.print layout) = some v.asRead := by
  have hread := readsBack_of_hasText hl h 0 ((chars layout 0 v).length + 1) [] endsNumber_nil
    (Nat.lt_succ_self _)
  have hskip := skipGap_append (List.forall_mem_nil _) (head_of_readValue hread)
  simp only [List.nil_append, List.append_nil] at hread hskip
  rw [read?, print, String.toList_ofList, readChars?, hskip, hread]
  rfl

end

end Toolgate.Json
