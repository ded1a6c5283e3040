import Mathlib.Data.List.Nodup
import Mathlib.Data.List.Perm.Subperm
import Mathlib.Order.Bounds.Basic
import Toolgate.Naming.Names
import Toolgate.Proofs.Decimal.Digits
import Toolgate.Proofs.Json.Fields
import Toolgate.Proofs.Naming.Slug

/-!
# Names are distinct and numbered without gaps

A namespace remembers for a slug the number to try next, so that a search need not begin at two
again. What makes this sound is an invariant: every number below the remembered one gives a name
that is taken. Names are never given back, so the invariant outlasts what other slugs do in the
meantime. That a search ends rests on the numbers being readable off the end of the names they
give, however much of the base is cut away.
-/

namespace Toolgate.Naming

/-- Where numbers give distinct names, consecutive ones that are all taken are no more than there
are names. -/
theorem le_length_of_forall_mem {name : ℕ → String} (hname : Function.Injective name)
    {taken : List String} {k m : ℕ} (h : ∀ j, k ≤ j → j < k + m → name j ∈ taken) :
    m ≤ taken.length := by
  have hnodup : ((List.range' k m).map name).Nodup := (List.nodup_range' 1).map hname
  have hsub : (List.range' k m).map name ⊆ taken := by
    intro other hother
    obtain ⟨j, hj, rfl⟩ := List.mem_map.mp hother
    rw [List.mem_range'_1] at hj
    exact h j hj.1 hj.2
  simpa using (hnodup.subperm hsub).length_le

namespace Names

/-! ## Numbered names -/

theorem toList_suffixed (base : String) (k : ℕ) :
    (suffixed base k).toList =
      base.toList.take (maxLength - ((Decimal.natDigits k).length + 1))
        ++ '_' :: Decimal.natDigits k := by
  simp [suffixed]

/-- The digits behind the last underscore of a list. -/
theorem takeWhile_reverse_append {kept digits : List Char}
    (h : ∀ c ∈ digits, Text.isAsciiDigit c = true) :
    (kept ++ '_' :: digits).reverse.takeWhile Text.isAsciiDigit = digits.reverse := by
  have hrev : (kept ++ '_' :: digits).reverse = digits.reverse ++ '_' :: kept.reverse := by simp
  rw [hrev, List.takeWhile_append_of_pos (by simpa using h),
    List.takeWhile_cons_of_neg (by decide), List.append_nil]

/-- The number of a numbered name is read off its end, wherever the base was cut. -/
theorem suffixed_injective (base : String) : Function.Injective (suffixed base) := by
  intro j k h
  have hlist := congrArg (fun s => s.toList.reverse.takeWhile Text.isAsciiDigit) h
  simp only [toList_suffixed] at hlist
  rw [takeWhile_reverse_append Decimal.isAsciiDigit_of_mem_natDigits,
    takeWhile_reverse_append Decimal.isAsciiDigit_of_mem_natDigits] at hlist
  exact Decimal.natDigits_injective (List.reverse_injective hlist)

theorem isNameChar_of_mem_suffixed {base : String} (h : ∀ c ∈ base.toList, isNameChar c = true)
    (k : ℕ) : ∀ c ∈ (suffixed base k).toList, isNameChar c = true := by
  intro c hc
  rw [toList_suffixed, List.mem_append, List.mem_cons] at hc
  rcases hc with hc | rfl | hc
  · exact h c (List.mem_of_mem_take hc)
  · rfl
  · simp [isNameChar, isSlugChar, Decimal.isAsciiDigit_of_mem_natDigits c hc]

/-- A number of at most 63 digits leaves the name within its length. -/
theorem length_suffixed {k : ℕ} (h : k < 10 ^ 63) (base : String) :
    0 < (suffixed base k).toList.length ∧ (suffixed base k).toList.length ≤ maxLength := by
  have hdigits := Decimal.length_natDigits_le h (by decide)
  have hkept := List.length_take_le (maxLength - ((Decimal.natDigits k).length + 1)) base.toList
  rw [toList_suffixed, List.length_append, List.length_cons]
  have : maxLength = 64 := rfl
  omega

/-! ## The search for a free number -/

variable {taken : List String} {base : String}

/-- A search passes over taken numbers only. -/
theorem mem_of_lt_firstFree {k fuel : ℕ} :
    ∀ j, k ≤ j → j < firstFree taken base k fuel → suffixed base j ∈ taken := by
  fun_induction firstFree taken base k fuel with
  | case1 k => omega
  | case2 k fuel htaken ih =>
    intro j hj hlt
    rcases Nat.eq_or_lt_of_le hj with rfl | hj
    · simpa using htaken
    · exact ih j hj hlt
  | case3 k fuel hfree => omega

theorem le_firstFree (k fuel : ℕ) : k ≤ firstFree taken base k fuel := by
  fun_induction firstFree taken base k fuel with
  | case1 k => exact Nat.le_refl k
  | case2 k fuel htaken ih => exact Nat.le_of_succ_le ih
  | case3 k fuel hfree => exact Nat.le_refl k

theorem firstFree_le (k fuel : ℕ) : firstFree taken base k fuel ≤ k + fuel := by
  fun_induction firstFree taken base k fuel with
  | case1 k => omega
  | case2 k fuel htaken ih => omega
  | case3 k fuel hfree => omega

/-- A search that ends before its fuel ends at a free number. -/
theorem suffixed_firstFree_notMem_of_lt {k fuel : ℕ}
    (h : firstFree taken base k fuel < k + fuel) :
    suffixed base (firstFree taken base k fuel) ∉ taken := by
  fun_induction firstFree taken base k fuel with
  | case1 k => omega
  | case2 k fuel htaken ih => exact ih (by omega)
  | case3 k fuel hfree => simpa using hfree

/-- One try more than there are names finds a free number. -/
theorem suffixed_firstFree_notMem (k : ℕ) :
    suffixed base (firstFree taken base k (taken.length + 1)) ∉ taken := by
  refine suffixed_firstFree_notMem_of_lt (Nat.lt_of_le_of_ne (firstFree_le k _) fun hend => ?_)
  have hpassed : ∀ j, k ≤ j → j < k + (taken.length + 1) → suffixed base j ∈ taken :=
    fun j hj hlt => mem_of_lt_firstFree j hj (hend ▸ hlt)
  have := le_length_of_forall_mem (suffixed_injective base) hpassed
  omega

/-! ## The memo -/

/-- Every number below the one remembered for a slug, from two on, gives a name that is taken. -/
structure Sound (names : Names) : Prop where
  two_le_nextFor : ∀ base, 2 ≤ names.nextFor base
  mem_of_lt_nextFor : ∀ base j, 2 ≤ j → j < names.nextFor base → suffixed base j ∈ names.taken

/-- Without a memo a search begins at two. -/
theorem sound_of_next_nil (taken : List String) : Sound ⟨taken, []⟩ where
  two_le_nextFor _ := by simp [nextFor, lookupField]
  mem_of_lt_nextFor _ j hj hlt := by
    simp only [nextFor, lookupField, Option.getD_none] at hlt
    omega

/-- The numbers from two on whose names are free for a base. -/
def freeNumbers (taken : List String) (base : String) : Set ℕ :=
  {k | 2 ≤ k ∧ suffixed base k ∉ taken}

/-- The rule names are given by: the slug of the candidate when it was not handed out before, else
that slug with the least free number. -/
def NamedBy (taken : List String) (candidate name : String) : Prop :=
  (slug candidate ∉ taken → name = slug candidate) ∧
    (slug candidate ∈ taken →
      ∃ k, IsLeast (freeNumbers taken (slug candidate)) k ∧ name = suffixed (slug candidate) k)

/-- The rule leaves no choice. -/
theorem NamedBy.unique {candidate name name' : String} (h : NamedBy taken candidate name)
    (h' : NamedBy taken candidate name') : name = name' := by
  by_cases hmem : slug candidate ∈ taken
  · obtain ⟨k, hk, rfl⟩ := h.2 hmem
    obtain ⟨k', hk', rfl⟩ := h'.2 hmem
    rw [hk.unique hk']
  · rw [h.1 hmem, h'.1 hmem]

theorem NamedBy.congr {taken' : List String} (h : ∀ name, name ∈ taken ↔ name ∈ taken')
    {candidate name : String} (hname : NamedBy taken candidate name) :
    NamedBy taken' candidate name := by
  have hfree : freeNumbers taken' (slug candidate) = freeNumbers taken (slug candidate) := by
    ext k
    simp [freeNumbers, h]
  simpa only [NamedBy, hfree, h] using hname

/-! ## One name -/

variable {names : Names}

theorem resolve_of_notMem {candidate : String} (h : slug candidate ∉ names.taken) :
    names.resolve candidate =
      (slug candidate, { names with taken := slug candidate :: names.taken }) := by
  simp [resolve, h]

/-- The number that a taken slug is given next. -/
def nextNumber (names : Names) (base : String) : ℕ :=
  firstFree names.taken base (names.nextFor base) (names.taken.length + 1)

theorem resolve_of_mem {candidate : String} (h : slug candidate ∈ names.taken) :
    names.resolve candidate =
      (suffixed (slug candidate) (names.nextNumber (slug candidate)),
        ⟨suffixed (slug candidate) (names.nextNumber (slug candidate)) :: names.taken,
          setField (slug candidate) (names.nextNumber (slug candidate) + 1) names.next⟩) := by
  simp [resolve, nextNumber, h]

/-- What is handed out is taken from then on, and nothing is given back. -/
theorem taken_resolve (names : Names) (candidate : String) :
    (names.resolve candidate).2.taken = (names.resolve candidate).1 :: names.taken := by
  by_cases h : slug candidate ∈ names.taken
  · rw [resolve_of_mem h]
  · rw [resolve_of_notMem h]

/-- What is handed out was not handed out before. -/
theorem resolve_notMem (names : Names) (candidate : String) :
    (names.resolve candidate).1 ∉ names.taken := by
  by_cases h : slug candidate ∈ names.taken
  · rw [resolve_of_mem h]
    exact suffixed_firstFree_notMem _
  · rwa [resolve_of_notMem h]

/-- The memo makes the search skip taken numbers only. -/
theorem Sound.isLeast_nextNumber (h : names.Sound) (base : String) :
    IsLeast (freeNumbers names.taken base) (names.nextNumber base) := by
  have hfrom : names.nextFor base ≤ names.nextNumber base := le_firstFree _ _
  refine ⟨⟨(h.two_le_nextFor base).trans hfrom, suffixed_firstFree_notMem _⟩, ?_⟩
  rintro j ⟨hj, hfree⟩
  by_contra hlt
  refine hfree ?_
  rcases Nat.lt_or_ge j (names.nextFor base) with hskipped | htried
  · exact h.mem_of_lt_nextFor base j hj hskipped
  · exact mem_of_lt_firstFree j htried (Nat.lt_of_not_le hlt)

theorem Sound.namedBy_resolve (h : names.Sound) (candidate : String) :
    NamedBy names.taken candidate (names.resolve candidate).1 := by
  refine ⟨fun hfree => by rw [resolve_of_notMem hfree], fun hmem => ?_⟩
  rw [resolve_of_mem hmem]
  exact ⟨_, h.isLeast_nextNumber _, rfl⟩

/-- The invariant outlasts a name: the slug's own numbers were searched, and those of all other
slugs stay taken. -/
theorem Sound.resolve (h : names.Sound) (candidate : String) :
    (names.resolve candidate).2.Sound := by
  by_cases hmem : slug candidate ∈ names.taken
  · have hleast := h.isLeast_nextNumber (slug candidate)
    rw [resolve_of_mem hmem]
    constructor
    · intro base
      by_cases hbase : base = slug candidate
      · subst hbase
        simpa [nextFor] using Nat.le_succ_of_le hleast.1.1
      · simpa [nextFor, lookupField_setField_of_ne hbase] using h.two_le_nextFor base
    · intro base j hj hlt
      by_cases hbase : base = slug candidate
      · subst hbase
        simp only [nextFor, lookupField_setField_self, Option.getD_some] at hlt
        rcases Nat.lt_succ_iff_lt_or_eq.mp hlt with hlt | rfl
        · refine List.mem_cons_of_mem _ ?_
          by_contra hfree
          exact absurd (hleast.2 ⟨hj, hfree⟩) (Nat.not_le.mpr hlt)
        · exact List.mem_cons_self
      · simp only [nextFor, lookupField_setField_of_ne hbase] at hlt
        exact List.mem_cons_of_mem _ (h.mem_of_lt_nextFor base j hj hlt)
  · rw [resolve_of_notMem hmem]
    exact ⟨h.two_le_nextFor, fun base j hj hlt =>
      List.mem_cons_of_mem _ (h.mem_of_lt_nextFor base j hj hlt)⟩

/-- A least free number exceeds the number of names by two at most. -/
theorem le_of_isLeast_freeNumbers {k : ℕ} (h : IsLeast (freeNumbers taken base) k) :
    k ≤ taken.length + 2 := by
  have hpassed : ∀ j, 2 ≤ j → j < 2 + (k - 2) → suffixed base j ∈ taken := by
    intro j hj hlt
    by_contra hfree
    have := h.2 ⟨hj, hfree⟩
    omega
  have := le_length_of_forall_mem (suffixed_injective base) hpassed
  omega

/-- A name has 1 to 64 characters of the alphabet of names. -/
def WellFormed (name : String) : Prop :=
  1 ≤ name.toList.length ∧ name.toList.length ≤ 64 ∧ ∀ c ∈ name.toList, isNameChar c = true

theorem NamedBy.wellFormed {candidate name : String} (h : NamedBy taken candidate name)
    (few : taken.length + 2 < 10 ^ 63) : WellFormed name := by
  by_cases hmem : slug candidate ∈ taken
  · obtain ⟨k, hk, rfl⟩ := h.2 hmem
    have hlen := length_suffixed (Nat.lt_of_le_of_lt (le_of_isLeast_freeNumbers hk) few)
      (slug candidate)
    exact ⟨hlen.1, hlen.2, isNameChar_of_mem_suffixed isNameChar_of_mem_slug k⟩
  · rw [h.1 hmem]
    exact ⟨(length_slug candidate).1, (length_slug candidate).2, isNameChar_of_mem_slug⟩

/-! ## A run of names -/

theorem resolveAll_cons (names : Names) (candidate : String) (rest : List String) :
    (names.resolveAll (candidate :: rest)).1 =
      (names.resolve candidate).1 :: ((names.resolve candidate).2.resolveAll rest).1 := rfl

/-- The first names of a run do not depend on the candidates that come behind. -/
theorem resolveAll_append (names : Names) (candidates others : List String) :
    (names.resolveAll (candidates ++ others)).1 =
      (names.resolveAll candidates).1 ++
        ((names.resolveAll candidates).2.resolveAll others).1 := by
  induction candidates generalizing names with
  | nil => rfl
  | cons candidate rest ih =>
    rw [List.cons_append, resolveAll_cons, resolveAll_cons, ih, List.cons_append]
    rfl

/-- Candidates with distinct free slugs are all named by them. -/
theorem resolveAll_of_nodup {names : Names} {candidates : List String}
    (hnodup : (candidates.map slug).Nodup)
    (hfree : ∀ candidate ∈ candidates, slug candidate ∉ names.taken) :
    (names.resolveAll candidates).1 = candidates.map slug := by
  induction candidates generalizing names with
  | nil => rfl
  | cons candidate rest ih =>
    rw [List.map_cons, List.nodup_cons] at hnodup
    obtain ⟨hfirst, hrest⟩ := List.forall_mem_cons.mp hfree
    have hname : (names.resolve candidate).1 = slug candidate := by rw [resolve_of_notMem hfirst]
    rw [resolveAll_cons, List.map_cons, hname, ih hnodup.2]
    intro other hother
    rw [taken_resolve, hname, List.mem_cons, not_or]
    exact ⟨fun heq => hnodup.1 (heq ▸ List.mem_map_of_mem hother), hrest other hother⟩

/-- Names of a run are apart from each other and from those taken before it. -/
theorem nodup_resolveAll (names : Names) (candidates : List String) :
    (names.resolveAll candidates).1.Nodup ∧
      ∀ name ∈ (names.resolveAll candidates).1, name ∉ names.taken := by
  induction candidates generalizing names with
  | nil => simp [resolveAll]
  | cons candidate rest ih =>
    obtain ⟨hnodup, hfresh⟩ := ih (names.resolve candidate).2
    rw [taken_resolve] at hfresh
    rw [resolveAll_cons]
    constructor
    · refine List.nodup_cons.mpr ⟨fun hmem => ?_, hnodup⟩
      exact hfresh _ hmem List.mem_cons_self
    · intro name hname
      rcases List.mem_cons.mp hname with rfl | hname
      · exact resolve_notMem names candidate
      · exact fun hmem => hfresh name hname (List.mem_cons_of_mem _ hmem)

/-- Every name of a run is given by the rule, out of the names that were taken when it was its
turn. -/
theorem Sound.namedBy_resolveAll (h : names.Sound) {candidates : List String} {i : ℕ}
    {candidate : String} (hi : candidates[i]? = some candidate) :
    ∃ name, (names.resolveAll candidates).1[i]? = some name ∧
      NamedBy (((names.resolveAll candidates).1.take i).reverse ++ names.taken) candidate name := by
  induction candidates generalizing names i with
  | nil => simp at hi
  | cons first rest ih =>
    rw [resolveAll_cons]
    cases i with
    | zero =>
      obtain rfl : first = candidate := by simpa using hi
      exact ⟨_, rfl, by simpa using h.namedBy_resolve first⟩
    | succ i =>
      obtain ⟨name, hname, hrule⟩ := ih (h.resolve first) (by simpa using hi)
      refine ⟨name, by simpa using hname, ?_⟩
      simpa [taken_resolve] using hrule

theorem length_resolveAll (names : Names) (candidates : List String) :
    (names.resolveAll candidates).1.length = candidates.length := by
  induction candidates generalizing names with
  | nil => rfl
  | cons candidate rest ih => rw [resolveAll_cons, List.length_cons, ih, List.length_cons]

/-- Names of a run from the empty namespace are given by the rule out of the names before them. -/
theorem namedBy_resolveAll {candidates : List String} {i : ℕ} {candidate : String}
    (hi : candidates[i]? = some candidate) :
    ∃ name, (resolveAll {} candidates).1[i]? = some name ∧
      NamedBy ((resolveAll {} candidates).1.take i) candidate name := by
  obtain ⟨name, hname, hrule⟩ := (sound_of_next_nil []).namedBy_resolveAll hi
  exact ⟨name, hname, hrule.congr (by simp)⟩

/-- The names of any run are pairwise distinct and well formed. Each is the slug of its candidate
when that was not handed out before, else that slug, cut to fit, with the least number from two on
whose name is free; so the memo gives what a search without it would give. -/
theorem resolveAll_distinct_least_free (candidates : List String)
    (few : candidates.length < 10 ^ 62) :
    (resolveAll {} candidates).1.length = candidates.length ∧
      (resolveAll {} candidates).1.Nodup ∧
      (∀ name ∈ (resolveAll {} candidates).1, WellFormed name) ∧
      ∀ i candidate, candidates[i]? = some candidate →
        ∃ name, (resolveAll {} candidates).1[i]? = some name ∧
          NamedBy ((resolveAll {} candidates).1.take i) candidate name ∧
          name = (resolve ⟨(resolveAll {} candidates).1.take i, []⟩ candidate).1 := by
  set names := (resolveAll {} candidates).1
  have hlength : names.length = candidates.length := length_resolveAll {} candidates
  refine ⟨hlength, (nodup_resolveAll {} candidates).1, ?_, ?_⟩
  · intro name hmem
    obtain ⟨i, hi⟩ := List.getElem?_of_mem hmem
    have hlt : i < candidates.length := by
      rw [← hlength]
      exact (List.getElem?_eq_some_iff.mp hi).1
    obtain ⟨name', hname', hrule⟩ := namedBy_resolveAll (List.getElem?_eq_getElem hlt)
    obtain rfl : name = name' := Option.some.inj (hi.symm.trans hname')
    refine hrule.wellFormed ?_
    have hbefore : (names.take i).length ≤ i := List.length_take_le i names
    change (names.take i).length + 2 < 10 ^ 63
    have : (10 : ℕ) ^ 62 + 2 < 10 ^ 63 := by decide
    omega
  · intro i candidate hi
    obtain ⟨name, hname, hrule⟩ := namedBy_resolveAll hi
    exact ⟨name, hname, hrule, hrule.unique ((sound_of_next_nil _).namedBy_resolve candidate)⟩

/-- A number that another slug has taken is passed over, and the memo goes on behind it. -/
theorem resolveAll_passes_over_taken_number :
    let candidates := ["op_2", "op", "Op!", "op"]
    let names := (resolveAll {} candidates).1
    candidates.length < 10 ^ 62 ∧ names = ["op_2", "op", "op_3", "op_4"] ∧ names.Nodup ∧
      (∀ name ∈ names, WellFormed name) ∧
      ∃ name, names[3]? = some name ∧ NamedBy (names.take 3) "op" name := by
  intro candidates names
  have few : candidates.length < 10 ^ 62 := by decide
  obtain ⟨-, hnodup, hformed, hrule⟩ := resolveAll_distinct_least_free candidates few
  obtain ⟨name, hname, hnamed, -⟩ := hrule 3 "op" rfl
  exact ⟨few, by decide +kernel, hnodup, hformed, name, hname, hnamed⟩

end Names

end Toolgate.Naming
