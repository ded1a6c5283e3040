import Toolgate.Naming.Attribute
import Toolgate.Proofs.Naming.Distinct

/-!
# Attribute names are distinct identifiers

The attribute name of a wire name is made in steps: characters that no word has are replaced, a
head that no identifier may have is anchored, a word that is spoken for gets an underscore behind
it, and a name that is taken gets a number. A step only adds to the end of a name or puts `f_` in
front, so what the steps before it made sure of stays; and what it adds ends the name in a way that
no word that is spoken for ends. The search for a number ends, since no two numbers give the same
name.

## Main definitions

* `IsIdentifier`: characters that an identifier is made of, with a head that it may have
* `IsAttributeName`: an identifier that is not spoken for
* `tried`: the names that are tried in turn for a base
* `IsFirstFree`: the first of them that is not taken

## Main statements

* `isFirstFree_attributeName`: the search for an attribute name ends at the first free one
* `nodup_attributeNames`: attribute names are distinct
* `attributeNames_distinct_identifiers`: attribute names are distinct identifiers that are not
  spoken for
-/

namespace Toolgate.Naming

/-! ## Identifiers -/

/-- An identifier: characters of words, the first neither an underscore nor a digit. -/
structure IsIdentifier (cs : List Char) : Prop where
  ne_nil : cs ≠ []
  isWord : ∀ c ∈ cs, Text.isWord c = true
  head : ∀ c, cs.head? = some c → c ≠ '_' ∧ Text.isNumeral c = false

/-- What is put behind an identifier leaves it one. -/
theorem IsIdentifier.append {cs back : List Char} (h : IsIdentifier cs)
    (hback : ∀ c ∈ back, Text.isWord c = true) : IsIdentifier (cs ++ back) where
  ne_nil := List.append_ne_nil_of_left_ne_nil h.ne_nil back
  isWord := List.forall_mem_append.mpr ⟨h.isWord, hback⟩
  head c hc := by
    rw [List.head?_append_of_ne_nil _ h.ne_nil] at hc
    exact h.head c hc

theorem isWord_of_mem_wordChars {cs : List Char} :
    ∀ c ∈ wordChars cs, Text.isWord c = true := by
  intro c hc
  obtain ⟨d, -, rfl⟩ := List.mem_map.mp hc
  split
  · assumption
  · rfl

/-- Characters of words become an identifier once they are anchored. -/
theorem isIdentifier_anchored {cs : List Char} (h : ∀ c ∈ cs, Text.isWord c = true) :
    IsIdentifier (anchored cs) := by
  have hanchor : IsIdentifier ['f', '_'] := by
    refine ⟨List.cons_ne_nil _ _, List.all_eq_true.mp (by decide), fun c hc => ?_⟩
    obtain rfl : 'f' = c := by simpa using hc
    decide
  cases cs with
  | nil => exact hanchor
  | cons c rest =>
    rw [anchored]
    split
    · refine hanchor.append fun d hd => h d ?_
      exact (List.dropWhile_suffix _).subset hd
    · next hhead =>
      refine ⟨List.cons_ne_nil c rest, h, ?_⟩
      simpa [and_comm] using hhead

theorem isWord_of_isAsciiDigit {c : Char} (h : Text.isAsciiDigit c = true) :
    Text.isWord c = true := by
  simp [Text.isWord, Text.isAsciiAlnum, h]

/-! ## Names that are spoken for -/

/-- An attribute name: an identifier that is neither a reserved word nor a name that every record
has already. Further names that a record has begin with an underscore, as no identifier does. -/
structure IsAttributeName (name : String) : Prop where
  isIdentifier : IsIdentifier name.toList
  notMem_reservedWords : name ∉ reservedWords
  notMem_recordWords : name ∉ recordWords

/-- No word that is spoken for ends in an underscore or a digit. -/
theorem getLast_of_mem_spokenWords {name : String} (h : name ∈ reservedWords ++ recordWords)
    {c : Char} (hlast : name.toList.getLast? = some c) :
    c ≠ '_' ∧ Text.isAsciiDigit c = false := by
  have hall : (reservedWords ++ recordWords).all (fun word =>
      word.toList.getLast?.all fun c => c != '_' && !Text.isAsciiDigit c) = true := by
    decide +kernel
  simpa [hlast] using List.all_eq_true.mp hall name h

/-- An identifier that ends in an underscore or a digit is not spoken for. -/
theorem isAttributeName_of_getLast {name : String} {c : Char} (h : IsIdentifier name.toList)
    (hlast : name.toList.getLast? = some c) (hc : c = '_' ∨ Text.isAsciiDigit c = true) :
    IsAttributeName name := by
  have hnot : name ∉ reservedWords ++ recordWords := by
    intro hmem
    obtain ⟨hunderscore, hdigit⟩ := getLast_of_mem_spokenWords hmem hlast
    rcases hc with hc | hc
    · exact hunderscore hc
    · rw [hdigit] at hc
      cases hc
  rw [List.mem_append, not_or] at hnot
  exact ⟨h, hnot.1, hnot.2⟩

theorem isAttributeName_identifier (wire : String) : IsAttributeName (identifier wire) := by
  have hid : IsIdentifier (String.ofList (anchored (wordChars wire.toList))).toList := by
    rw [String.toList_ofList]
    exact isIdentifier_anchored isWord_of_mem_wordChars
  rw [identifier]
  split
  · refine isAttributeName_of_getLast (c := '_') ?_ (by simp) (.inl rfl)
    rw [String.toList_append]
    exact hid.append (List.forall_mem_singleton.mpr (by decide))
  · next hfree =>
    simp only [Bool.or_eq_true, List.contains_iff_mem, not_or] at hfree
    exact ⟨hid, hfree.1, hfree.2⟩

/-! ## The search for a free name -/

/-- The names that are tried in turn for a base: the base, and the base with the numbers from two
on behind it. -/
def tried (base : String) : ℕ → String
  | 0 => base
  | n + 1 => base ++ "_" ++ Decimal.natText (n + 2)

theorem toList_tried_succ (base : String) (n : ℕ) :
    (tried base (n + 1)).toList = base.toList ++ '_' :: Decimal.natDigits (n + 2) := by
  simp [tried, Decimal.natText]

theorem tried_injective (base : String) : Function.Injective (tried base) := by
  have hne (n : ℕ) : tried base 0 ≠ tried base (n + 1) := by
    intro h
    have hlength := congrArg (fun s => s.toList.length) h
    simp only [toList_tried_succ, List.length_append, List.length_cons] at hlength
    change base.toList.length = _ at hlength
    omega
  intro m n h
  cases m <;> cases n
  case zero.zero => rfl
  case zero.succ n => exact absurd h (hne n)
  case succ.zero m => exact absurd h.symm (hne m)
  case succ.succ m n =>
    have hlist := congrArg String.toList h
    rw [toList_tried_succ, toList_tried_succ, List.append_cancel_left_eq, List.cons.injEq] at hlist
    have := Decimal.natDigits_injective hlist.2
    omega

theorem isAttributeName_tried {base : String} (h : IsAttributeName base) (n : ℕ) :
    IsAttributeName (tried base n) := by
  cases n with
  | zero => exact h
  | succ n =>
    have hback : ∀ c ∈ '_' :: Decimal.natDigits (n + 2), Text.isWord c = true :=
      List.forall_mem_cons.mpr ⟨by decide, fun c hc =>
        isWord_of_isAsciiDigit (Decimal.isAsciiDigit_of_mem_natDigits c hc)⟩
    obtain ⟨digit, hdigit⟩ : ∃ digit, (Decimal.natDigits (n + 2)).getLast? = some digit :=
      ⟨_, List.getLast?_eq_some_getLast (Decimal.natDigits_ne_nil (n + 2))⟩
    refine isAttributeName_of_getLast (c := digit) ?_ ?_
      (.inr (Decimal.isAsciiDigit_of_mem_natDigits digit (List.mem_of_getLast? hdigit)))
    · rw [toList_tried_succ]
      exact h.isIdentifier.append hback
    · simp [toList_tried_succ, List.getLast?_cons, hdigit]

/-- The first name that is tried for a base and is not taken. -/
def IsFirstFree (taken : List String) (base name : String) : Prop :=
  ∃ n, IsLeast {n | tried base n ∉ taken} n ∧ name = tried base n

section
variable {taken : List String} {base name : String}

theorem IsFirstFree.notMem (h : IsFirstFree taken base name) : name ∉ taken := by
  obtain ⟨n, hn, rfl⟩ := h
  exact hn.1

theorem IsFirstFree.isAttributeName (h : IsFirstFree taken base name)
    (hbase : IsAttributeName base) : IsAttributeName name := by
  obtain ⟨n, -, rfl⟩ := h
  exact isAttributeName_tried hbase n

theorem IsFirstFree.congr {taken' : List String} (hmem : ∀ name, name ∈ taken ↔ name ∈ taken')
    (h : IsFirstFree taken base name) : IsFirstFree taken' base name := by
  simpa only [IsFirstFree, hmem] using h

end

/-- Searching the numbers passes over taken names only, and ends early only at a free name. -/
theorem exists_freeAttribute_eq_tried (taken : List String) (base : String) (n fuel : ℕ) :
    ∃ j ≤ fuel, freeAttribute taken base (n + 2) fuel = tried base (n + 1 + j) ∧
      (∀ i, n + 1 ≤ i → i < n + 1 + j → tried base i ∈ taken) ∧
      (j < fuel → tried base (n + 1 + j) ∉ taken) := by
  induction fuel generalizing n with
  | zero => exact ⟨0, Nat.le_refl 0, rfl, fun i _ _ => by omega, fun h => by omega⟩
  | succ fuel ih =>
    rw [freeAttribute]
    change ∃ j ≤ fuel + 1, (if taken.contains (tried base (n + 1)) then _ else _) = _ ∧ _
    by_cases htaken : tried base (n + 1) ∈ taken
    · obtain ⟨j, hj, heq, hpassed, hfree⟩ := ih (n + 1)
      have hshift : n + 1 + (j + 1) = n + 1 + 1 + j := by omega
      refine ⟨j + 1, Nat.succ_le_succ hj, ?_, fun i hi hlt => ?_, fun hlt => ?_⟩
      · rw [if_pos (by simpa using htaken), hshift, ← heq]
      · rcases Nat.eq_or_lt_of_le hi with rfl | hi
        · exact htaken
        · exact hpassed i hi (by omega)
      · rw [hshift]
        exact hfree (by omega)
    · refine ⟨0, Nat.zero_le _, ?_, fun i _ _ => by omega, fun _ => htaken⟩
      rw [if_neg (by simpa using htaken)]
      rfl

/-- The search ends, since no more numbers can be taken than there are names, and what it ends at
is the first name that is free. -/
theorem isFirstFree_attributeName (taken : List String) (wire : String) :
    IsFirstFree taken (identifier wire) (attributeName taken wire) := by
  rw [attributeName]
  by_cases hbase : identifier wire ∈ taken
  · obtain ⟨j, hj, heq, hpassed, hfree⟩ :=
      exists_freeAttribute_eq_tried taken (identifier wire) 0 (taken.length + 1)
    -- A search that used up its tries would have passed over more names than are taken.
    have hlt : j < taken.length + 1 := by
      refine Nat.lt_of_le_of_ne hj fun hend => ?_
      have := le_length_of_forall_mem (tried_injective (identifier wire)) hpassed
      omega
    refine ⟨0 + 1 + j, ⟨hfree hlt, fun m hm => ?_⟩, ?_⟩
    · by_contra hless
      rcases Nat.eq_zero_or_pos m with rfl | hpos
      · exact hm hbase
      · exact hm (hpassed m hpos (Nat.lt_of_not_le hless))
    · rw [if_pos (by simpa using hbase), ← heq]
  · refine ⟨0, ⟨hbase, fun m _ => Nat.zero_le m⟩, ?_⟩
    rw [if_neg (by simpa using hbase)]
    rfl

/-! ## A run of names -/

theorem attributeNames_cons (taken : List String) (wire : String) (rest : List String) :
    attributeNames taken (wire :: rest) =
      attributeName taken wire :: attributeNames (attributeName taken wire :: taken) rest := rfl

theorem length_attributeNames (taken wires : List String) :
    (attributeNames taken wires).length = wires.length := by
  induction wires generalizing taken with
  | nil => rfl
  | cons wire rest ih => rw [attributeNames_cons, List.length_cons, ih, List.length_cons]

/-- Attribute names are apart from each other and from those taken before them. -/
theorem nodup_attributeNames (taken wires : List String) :
    (attributeNames taken wires).Nodup ∧ ∀ name ∈ attributeNames taken wires, name ∉ taken := by
  induction wires generalizing taken with
  | nil => simp [attributeNames]
  | cons wire rest ih =>
    obtain ⟨hnodup, hfresh⟩ := ih (attributeName taken wire :: taken)
    rw [attributeNames_cons]
    refine ⟨List.nodup_cons.mpr ⟨fun hmem => hfresh _ hmem List.mem_cons_self, hnodup⟩, ?_⟩
    refine List.forall_mem_cons.mpr ⟨(isFirstFree_attributeName taken wire).notMem, ?_⟩
    exact fun name hname hmem => hfresh name hname (List.mem_cons_of_mem _ hmem)

theorem isAttributeName_of_mem_attributeNames (taken wires : List String) :
    ∀ name ∈ attributeNames taken wires, IsAttributeName name := by
  induction wires generalizing taken with
  | nil => simp [attributeNames]
  | cons wire rest ih =>
    rw [attributeNames_cons]
    refine List.forall_mem_cons.mpr ⟨?_, ih _⟩
    exact (isFirstFree_attributeName taken wire).isAttributeName (isAttributeName_identifier wire)

/-- Every name of a run is the first that is free when it is its turn. -/
theorem isFirstFree_attributeNames (taken : List String) {wires : List String} {i : ℕ}
    {wire : String} (hi : wires[i]? = some wire) :
    ∃ name, (attributeNames taken wires)[i]? = some name ∧
      IsFirstFree (((attributeNames taken wires).take i).reverse ++ taken) (identifier wire)
        name := by
  induction wires generalizing taken i with
  | nil => simp at hi
  | cons first rest ih =>
    rw [attributeNames_cons]
    cases i with
    | zero =>
      obtain rfl : first = wire := by simpa using hi
      exact ⟨_, rfl, by simpa using isFirstFree_attributeName taken first⟩
    | succ i =>
      obtain ⟨name, hname, hfirst⟩ := ih (attributeName taken first :: taken) (by simpa using hi)
      exact ⟨name, by simpa using hname, by simpa using hfirst⟩

/-- The attribute names of any list of wire names are pairwise distinct identifiers that are not
spoken for. The search for each of them ends, at the first of the names tried for it that is apart
from the attribute names before it. -/
theorem attributeNames_distinct_identifiers (wires : List String) :
    (attributeNames [] wires).length = wires.length ∧
      (attributeNames [] wires).Nodup ∧
      (∀ name ∈ attributeNames [] wires, IsAttributeName name) ∧
      ∀ i wire, wires[i]? = some wire → ∃ name, (attributeNames [] wires)[i]? = some name ∧
        IsFirstFree ((attributeNames [] wires).take i) (identifier wire) name := by
  refine ⟨length_attributeNames [] wires, (nodup_attributeNames [] wires).1,
    isAttributeName_of_mem_attributeNames [] wires, fun i wire hi => ?_⟩
  obtain ⟨name, hname, hfirst⟩ := isFirstFree_attributeNames [] hi
  exact ⟨name, hname, hfirst.congr (by simp)⟩

/-- A wire name that is written like a numbered name takes that number from another base. -/
theorem attributeNames_passes_over_taken_names :
    let wires := ["a-b", "a_b_2", "a.b", "class", "class_", "__", "2²", "json"]
    let names := attributeNames [] wires
    names = ["a_b", "a_b_2", "a_b_3", "class_", "class__2", "f_", "f_2²", "json_"] ∧
      names.Nodup ∧ IsAttributeName "f_2²" ∧
      ∃ name, names[2]? = some name ∧ IsFirstFree (names.take 2) (identifier "a.b") name := by
  intro wires names
  have hnames : names =
      ["a_b", "a_b_2", "a_b_3", "class_", "class__2", "f_", "f_2²", "json_"] := by
    decide +kernel
  obtain ⟨-, hnodup, hformed, hfirst⟩ := attributeNames_distinct_identifiers wires
  have hmem : "f_2²" ∈ names := by
    rw [hnames]
    decide
  exact ⟨hnames, hnodup, hformed "f_2²" hmem, hfirst 2 "a.b" rfl⟩

end Toolgate.Naming
