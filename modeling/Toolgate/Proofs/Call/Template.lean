import Mathlib.Data.List.Nodup
import Toolgate.Call.Template
import Toolgate.Proofs.Text.Pieces

/-!
# Placeholders are filled in

A name in braces holds no brace itself, so that two placeholders never overlap and one is found
inside another only if they are the same. Where all braces of a template belong to placeholders,
replacing one of them leaves just the others.

## Main definitions

* `placeholder`: a name in braces
* `IsName`: what can stand between the braces of a placeholder
* `ListsVariables`: a list of the variables of a template, in order of first appearance
* `Braced`: templates whose braces all belong to placeholders
-/

namespace Toolgate.Call

open Text (replaceAll)

/-- A name in braces. -/
def placeholder (name : List Char) : List Char :=
  '\x7b' :: name ++ ['\x7d']

/-- Is the character a brace? -/
def isBrace (c : Char) : Bool :=
  c == '\x7b' || c == '\x7d'

theorem brace_cases (c : Char) : c = '\x7b' ∨ c = '\x7d' ∨ isBrace c = false := by
  cases h : isBrace c with
  | false => exact .inr (.inr rfl)
  | true =>
    simp only [isBrace, Bool.or_eq_true, beq_iff_eq] at h
    exact h.imp_right .inl

theorem not_isBrace_of_all {cs : List Char} (h : cs.all (!isBrace ·) = true) :
    ∀ c ∈ cs, isBrace c = false := by
  simpa using h

/-- What can stand between the braces of a placeholder. -/
structure IsName (name : List Char) : Prop where
  ne_nil : name ≠ []
  not_brace : ∀ c ∈ name, isBrace c = false

theorem placeholder_ne_nil (name : List Char) : placeholder name ≠ [] :=
  List.cons_ne_nil _ _

theorem toList_fill (path name text : String) :
    (fill path name text).toList =
      replaceAll (placeholder name.toList) text.toList path.toList := by
  simp [fill, Text.replaced, placeholder]

/-! ## Where placeholders are found -/

theorem not_isInfix_of_not_brace {name cs : List Char} (h : ∀ c ∈ cs, isBrace c = false) :
    ¬placeholder name <:+: cs := fun hfound =>
  absurd (h '\x7b' (hfound.subset List.mem_cons_self)) (by decide)

/-- A placeholder at the front of another is that other. -/
theorem eq_of_placeholder_isPrefix {name other cs : List Char} (hname : IsName name)
    (hother : IsName other) (h : placeholder name <+: placeholder other ++ cs) : name = other := by
  obtain ⟨rest, hrest⟩ := h
  simp only [placeholder, List.cons_append, List.append_assoc, List.cons.injEq, true_and,
    List.nil_append] at hrest
  have cut (word : List Char) (hword : IsName word) (tail : List Char) :
      (word ++ '\x7d' :: tail).takeWhile (!isBrace ·) = word := by
    rw [List.takeWhile_append_of_pos (by simpa using hword.not_brace)]
    simp [isBrace]
  rw [← cut name hname rest, hrest, cut other hother]

/-- A placeholder is found inside another only if they are the same. -/
theorem eq_of_placeholder_isInfix {name other : List Char} (hname : IsName name)
    (hother : IsName other) (h : placeholder name <:+: placeholder other) : name = other := by
  have hcons : placeholder other = '\x7b' :: (other ++ ['\x7d']) := rfl
  rw [hcons, List.infix_cons_iff] at h
  rcases h with h | h
  · rw [← hcons, ← List.append_nil (placeholder other)] at h
    exact eq_of_placeholder_isPrefix hname hother h
  · have hopen := h.subset (List.mem_cons_self : '\x7b' ∈ placeholder name)
    rw [List.mem_append, List.mem_singleton] at hopen
    rcases hopen with hopen | hopen
    · exact absurd (hother.not_brace _ hopen) (by decide)
    · exact absurd hopen (by decide)

/-! ## The names in a template -/

theorem placeholdersFrom_cons_of_not_brace {c : Char} (h : isBrace c = false)
    (name? : Option (List Char)) (cs : List Char) :
    placeholdersFrom name? (c :: cs) = placeholdersFrom (name?.map (c :: ·)) cs := by
  simp only [isBrace, Bool.or_eq_false_iff, beq_eq_false_iff_ne] at h
  rw [placeholdersFrom]
  · exact h.1
  · exact h.2

theorem placeholdersFrom_append {front : List Char} (h : ∀ c ∈ front, isBrace c = false)
    (name? : Option (List Char)) (cs : List Char) :
    placeholdersFrom name? (front ++ cs) =
      placeholdersFrom (name?.map (front.reverse ++ ·)) cs := by
  induction front generalizing name? with
  | nil => simp
  | cons c front ih =>
    rw [List.cons_append, placeholdersFrom_cons_of_not_brace (h c List.mem_cons_self),
      ih fun d hd => h d (List.mem_cons_of_mem _ hd), Option.map_map]
    congr 2
    funext name
    simp

/-- The name of a placeholder is read, whatever stands before it. -/
theorem placeholdersFrom_placeholder_append {name : List Char} (h : IsName name)
    (name? : Option (List Char)) (cs : List Char) :
    placeholdersFrom name? (placeholder name ++ cs) = name :: placeholdersFrom none cs := by
  obtain ⟨c, rest, hrev⟩ := List.exists_cons_of_ne_nil (List.reverse_ne_nil_iff.mpr h.ne_nil)
  have hread : placeholdersFrom (some name.reverse) ('\x7d' :: cs)
      = name :: placeholdersFrom none cs := by
    rw [hrev, placeholdersFrom, ← hrev, List.reverse_reverse]
  rw [placeholder, List.cons_append, List.cons_append, placeholdersFrom, List.append_assoc,
    placeholdersFrom_append h.not_brace]
  simpa using hread

/-- What is read between braces is a name. -/
theorem isName_of_mem_placeholdersFrom {name? : Option (List Char)} {cs name : List Char}
    (hread : ∀ read ∈ name?, ∀ c ∈ read, isBrace c = false)
    (h : name ∈ placeholdersFrom name? cs) : IsName name := by
  induction cs generalizing name? with
  | nil => simp [placeholdersFrom] at h
  | cons c cs ih =>
    rcases brace_cases c with rfl | rfl | hbrace
    · exact ih (by simp) h
    · rcases name? with _ | _ | ⟨first, read⟩
      · exact ih (by simp) h
      · exact ih (by simp) h
      · rcases List.mem_cons.mp h with rfl | h
        · exact ⟨by simp, fun d hd => hread _ rfl d (List.mem_reverse.mp hd)⟩
        · exact ih (by simp) h
    · rw [placeholdersFrom_cons_of_not_brace hbrace] at h
      refine ih ?_ h
      cases name? with
      | none => simp
      | some read => simpa using ⟨hbrace, hread read rfl⟩

theorem isName_of_mem_placeholders {path name : String} (h : name ∈ placeholders path) :
    IsName name.toList := by
  obtain ⟨read, hread, rfl⟩ := List.mem_map.mp h
  rw [String.toList_ofList]
  exact isName_of_mem_placeholdersFrom (by simp) hread

/-! ## Distinct names -/

theorem mem_distinct {s : String} {texts : List String} : s ∈ distinct texts ↔ s ∈ texts := by
  induction texts with
  | nil => simp [distinct]
  | cons t rest ih =>
    by_cases h : s = t <;> simp [distinct, ih, h]

theorem nodup_distinct (texts : List String) : (distinct texts).Nodup := by
  induction texts with
  | nil => simp [distinct]
  | cons t rest ih =>
    rw [distinct, List.nodup_cons]
    exact ⟨by simp, ih.filter _⟩

theorem mem_variableNames {path name : String} :
    name ∈ variableNames path ↔ name ∈ placeholders path :=
  mem_distinct

theorem isName_of_mem_variableNames {path name : String} (h : name ∈ variableNames path) :
    IsName name.toList :=
  isName_of_mem_placeholders (mem_variableNames.mp h)

/-! ## First appearance -/

/-- Where a placeholder stands, its name comes between the names before it and those behind. -/
theorem placeholdersFrom_append_placeholder {name : List Char} (h : IsName name)
    (name? : Option (List Char)) (front back : List Char) :
    placeholdersFrom name? (front ++ (placeholder name ++ back)) =
      placeholdersFrom name? front ++ name :: placeholdersFrom none back := by
  induction front generalizing name? with
  | nil =>
    rw [List.nil_append, placeholdersFrom_placeholder_append h, placeholdersFrom, List.nil_append]
  | cons c front ih =>
    rw [List.cons_append]
    rcases brace_cases c with rfl | rfl | hbrace
    · exact ih (some [])
    · rcases name? with _ | _ | ⟨first, read⟩
      · exact ih none
      · exact ih none
      · exact congrArg ((first :: read).reverse :: ·) (ih none)
    · rw [placeholdersFrom_cons_of_not_brace hbrace, ih, placeholdersFrom_cons_of_not_brace hbrace]

/-- Every name that is read stands in braces there, counting what has been read since the last
opening brace. -/
theorem placeholder_isInfix_of_mem {name? : Option (List Char)} {cs name : List Char}
    (h : name ∈ placeholdersFrom name? cs) :
    placeholder name <:+: (name?.elim [] fun read => '\x7b' :: read.reverse) ++ cs := by
  induction cs generalizing name? with
  | nil => simp [placeholdersFrom] at h
  | cons c cs ih =>
    have hbehind (hname : name ∈ placeholdersFrom none cs) : placeholder name <:+:
        (name?.elim [] fun read => '\x7b' :: read.reverse) ++ c :: cs :=
      (ih hname).trans ((List.suffix_cons c cs).trans (List.suffix_append _ _)).isInfix
    rcases brace_cases c with rfl | rfl | hbrace
    · exact (@ih (some []) h).trans (List.suffix_append _ _).isInfix
    · rcases name? with _ | _ | ⟨first, read⟩
      · exact hbehind h
      · exact hbehind h
      · rcases List.mem_cons.mp h with rfl | h
        · exact (List.prefix_append _ cs).isInfix.trans (by simp [placeholder])
        · exact hbehind h
    · rw [placeholdersFrom_cons_of_not_brace hbrace] at h
      cases name? with
      | none => exact hbehind h
      | some read => simpa using ih h

/-- A text comes before another among the distinct ones when it comes before every place of the
other. -/
theorem pairwise_distinct (texts : List String) :
    (distinct texts).Pairwise fun s t => ∀ front back, texts = front ++ t :: back → s ∈ front := by
  induction texts with
  | nil => exact .nil
  | cons first rest ih =>
    rw [distinct, List.pairwise_cons]
    constructor
    · intro t ht front back hsplit
      have hne : t ≠ first := by simpa using (List.mem_filter.mp ht).2
      cases front with
      | nil => exact absurd (List.cons.inj hsplit).1.symm hne
      | cons head front => exact (List.cons.inj hsplit).1 ▸ List.mem_cons_self
    · refine (ih.filter _).imp_of_mem fun {s t} _ ht hbefore front back hsplit => ?_
      have hne : t ≠ first := by simpa using (List.mem_filter.mp ht).2
      cases front with
      | nil => exact absurd (List.cons.inj hsplit).1.symm hne
      | cons head front =>
        exact List.mem_cons_of_mem _ (hbefore front back (List.cons.inj hsplit).2)

/-- A list names the variables of a template: each once, and just those that have a placeholder in
it; and one comes before another when it has a placeholder before every place where the other
has one. -/
structure ListsVariables (path : String) (names : List String) : Prop where
  nodup : names.Nodup
  mem_iff : ∀ name, name ∈ names ↔
    IsName name.toList ∧ placeholder name.toList <:+: path.toList
  inOrder : names.Pairwise fun name other => ∀ front back,
    path.toList = front ++ (placeholder other.toList ++ back) →
      placeholder name.toList <:+: front

theorem placeholders_of_split {path name : String} {front back : List Char}
    (hname : IsName name.toList)
    (h : path.toList = front ++ (placeholder name.toList ++ back)) :
    placeholders path = (placeholdersFrom none front).map String.ofList ++
      name :: (placeholdersFrom none back).map String.ofList := by
  rw [placeholders, h, placeholdersFrom_append_placeholder hname]
  simp

theorem listsVariables_variableNames (path : String) :
    ListsVariables path (variableNames path) where
  nodup := nodup_distinct _
  mem_iff name := by
    rw [mem_variableNames]
    constructor
    · intro hmem
      refine ⟨isName_of_mem_placeholders hmem, ?_⟩
      obtain ⟨read, hread, rfl⟩ := List.mem_map.mp hmem
      simpa using placeholder_isInfix_of_mem hread
    · rintro ⟨hname, front, back, hsplit⟩
      rw [placeholders_of_split hname (by rw [← hsplit, List.append_assoc])]
      exact List.mem_append_right _ List.mem_cons_self
  inOrder := by
    refine (pairwise_distinct (placeholders path)).imp_of_mem
      fun {name other} _ hother hbefore front back hsplit => ?_
    have hname := isName_of_mem_variableNames hother
    have hmem := hbefore _ _ (placeholders_of_split hname hsplit)
    obtain ⟨read, hread, rfl⟩ := List.mem_map.mp hmem
    simpa using placeholder_isInfix_of_mem hread

/-- A variable has a placeholder in the template. -/
def HasVariable (path : String) : Prop :=
  ∃ name : String, IsName name.toList ∧ placeholder name.toList <:+: path.toList

theorem hasVariable_iff {path : String} : HasVariable path ↔ variableNames path ≠ [] := by
  simp only [HasVariable, ← (listsVariables_variableNames path).mem_iff]
  exact ⟨fun ⟨_, hmem⟩ => List.ne_nil_of_mem hmem, List.exists_mem_of_ne_nil _⟩

instance (path : String) : Decidable (HasVariable path) :=
  decidable_of_iff _ hasVariable_iff.symm

/-! ## Templates without stray braces -/

/-- All braces of the template belong to placeholders. -/
inductive Braced : List Char → Prop
  | nil : Braced []
  | char {c : Char} {cs : List Char} (h : isBrace c = false) : Braced cs → Braced (c :: cs)
  | placeholder {name cs : List Char} (h : IsName name) : Braced cs →
      Braced (Call.placeholder name ++ cs)

theorem Braced.append {front cs : List Char} (hfront : ∀ c ∈ front, isBrace c = false)
    (h : Braced cs) : Braced (front ++ cs) := by
  induction front with
  | nil => exact h
  | cons c front ih =>
    exact .char (hfront c List.mem_cons_self) (ih fun d hd => hfront d (List.mem_cons_of_mem _ hd))

/-- A placeholder does not begin with a character that is no brace. -/
theorem replaceAll_cons_of_not_brace {name new : List Char} {c : Char} (hc : isBrace c = false)
    (cs : List Char) : replaceAll (placeholder name) new (c :: cs) =
      c :: replaceAll (placeholder name) new cs := by
  have hnot : ¬placeholder name <+: c :: cs := by
    rw [placeholder, List.cons_append, List.cons_prefix_cons, not_and]
    rintro rfl
    exact absurd hc (by decide)
  exact Text.replaceAll_cons hnot

/-- A placeholder is found neither in a text without braces nor across its end. -/
theorem replaceAll_append_of_not_brace {name new front : List Char}
    (h : ∀ c ∈ front, isBrace c = false) (cs : List Char) :
    replaceAll (placeholder name) new (front ++ cs) =
      front ++ replaceAll (placeholder name) new cs := by
  induction front with
  | nil => rfl
  | cons c front ih =>
    rw [List.cons_append, replaceAll_cons_of_not_brace (h c List.mem_cons_self),
      ih fun d hd => h d (List.mem_cons_of_mem _ hd), List.cons_append]

/-- Another placeholder is passed over. -/
theorem replaceAll_placeholder_append {name other new : List Char} (hname : IsName name)
    (hother : IsName other) (hne : name ≠ other) (cs : List Char) :
    replaceAll (placeholder name) new (placeholder other ++ cs) =
      placeholder other ++ replaceAll (placeholder name) new cs := by
  have hsplit : placeholder other ++ cs = '\x7b' :: (other ++ '\x7d' :: cs) := by
    simp [placeholder]
  have hnot : ¬placeholder name <+: '\x7b' :: (other ++ '\x7d' :: cs) := fun h =>
    hne (eq_of_placeholder_isPrefix hname hother (hsplit ▸ h))
  have hclose : ¬placeholder name <+: '\x7d' :: cs := by
    rw [placeholder, List.cons_append, List.cons_prefix_cons, not_and]
    exact fun h => absurd h (by decide)
  rw [hsplit, Text.replaceAll_cons hnot, replaceAll_append_of_not_brace hother.not_brace,
    Text.replaceAll_cons hclose]
  simp [placeholder]

/-- Filling in a placeholder leaves just the others. -/
theorem Braced.replaceAll {name new cs : List Char} (h : Braced cs) (hname : IsName name)
    (hnew : ∀ c ∈ new, isBrace c = false) :
    Braced (Text.replaceAll (Call.placeholder name) new cs) ∧
      placeholdersFrom none (Text.replaceAll (Call.placeholder name) new cs) =
        (placeholdersFrom none cs).filter (· != name) := by
  induction h with
  | nil => exact ⟨.nil, rfl⟩
  | @char c cs hc _ ih =>
    rw [replaceAll_cons_of_not_brace hc, placeholdersFrom_cons_of_not_brace hc,
      placeholdersFrom_cons_of_not_brace hc]
    exact ⟨.char hc ih.1, ih.2⟩
  | @placeholder other cs hother _ ih =>
    rw [placeholdersFrom_placeholder_append hother]
    by_cases hne : name = other
    · subst hne
      rw [Text.replaceAll_word_append (placeholder_ne_nil name), placeholdersFrom_append hnew]
      exact ⟨ih.1.append hnew, by simpa using ih.2⟩
    · rw [replaceAll_placeholder_append hname hother hne,
        placeholdersFrom_placeholder_append hother, ih.2]
      exact ⟨.placeholder hother ih.1, by simp [Ne.symm hne]⟩

end Toolgate.Call
