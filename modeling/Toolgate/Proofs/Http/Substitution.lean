import Mathlib.Logic.Function.Basic
import Toolgate.Proofs.Http.Target
import Toolgate.Proofs.Json.Fields
import Toolgate.Proofs.Text.Trim

/-!
# Templates are filled in at once

A template is filled in one variable after another, each over the whole text that the variables
before it have left. An encoded value holds no brace, so that what is put in for one variable is
never taken for the placeholder of another, and the outcome is that of reading the template once
and putting the value of its variable in the place of each placeholder.

## Main definitions

* `Call.substituted`: a template read once, with a text in the place of each placeholder
* `filler`: what is put in the place of a placeholder

## Main statements

* `fillChars_eq_substituted`: one variable after another is all variables at once
* `toList_buildUrl_eq_substituted`: the URL for a template and the values of its variables
-/

namespace Toolgate.Call

/-- What has been read since an opening brace that belongs to no placeholder. -/
def opened : Option (List Char) → List Char
  | none => []
  | some read => '\x7b' :: read.reverse

/-- The template with `value name` in the place of each placeholder; `name?` holds, in reverse,
what has been read since the last opening brace. -/
def substituteFrom (value : List Char → List Char) (name? : Option (List Char)) :
    List Char → List Char
  | [] => opened name?
  | '\x7b' :: rest => opened name? ++ substituteFrom value (some []) rest
  | '\x7d' :: rest =>
    match name? with
    | some (c :: name) => value (c :: name).reverse ++ substituteFrom value none rest
    | _ => opened name? ++ '\x7d' :: substituteFrom value none rest
  | c :: rest =>
    match name? with
    | none => c :: substituteFrom value none rest
    | some read => substituteFrom value (some (c :: read)) rest

/-- The template with `value name` in the place of each placeholder. -/
def substituted (value : List Char → List Char) (cs : List Char) : List Char :=
  substituteFrom value none cs

section
variable {value : List Char → List Char} {cs name : List Char}

theorem substituted_cons_of_not_brace {c : Char} (h : isBrace c = false) :
    substituted value (c :: cs) = c :: substituted value cs := by
  simp only [isBrace, Bool.or_eq_false_iff, beq_eq_false_iff_ne] at h
  rw [substituted, substituteFrom]
  · rfl
  · exact h.1
  · exact h.2

theorem substituted_append {front : List Char} (h : ∀ c ∈ front, isBrace c = false) :
    substituted value (front ++ cs) = front ++ substituted value cs := by
  induction front with
  | nil => rfl
  | cons c front ih =>
    rw [List.cons_append, substituted_cons_of_not_brace (h c List.mem_cons_self),
      ih fun d hd => h d (List.mem_cons_of_mem _ hd), List.cons_append]

/-- What stands between braces is read to its end. -/
theorem substituteFrom_some_append {front : List Char} (h : ∀ c ∈ front, isBrace c = false)
    (read : List Char) :
    substituteFrom value (some read) (front ++ cs) =
      substituteFrom value (some (front.reverse ++ read)) cs := by
  induction front generalizing read with
  | nil => rfl
  | cons c front ih =>
    have hc := h c List.mem_cons_self
    simp only [isBrace, Bool.or_eq_false_iff, beq_eq_false_iff_ne] at hc
    rw [List.cons_append, substituteFrom]
    · rw [ih fun d hd => h d (List.mem_cons_of_mem _ hd), List.reverse_cons, List.append_assoc]
      rfl
    · exact hc.1
    · exact hc.2

/-- In the place of a placeholder stands the value of its name. -/
theorem substituted_placeholder_append (h : IsName name) :
    substituted value (placeholder name ++ cs) = value name ++ substituted value cs := by
  obtain ⟨c, rest, hrev⟩ := List.exists_cons_of_ne_nil (List.reverse_ne_nil_iff.mpr h.ne_nil)
  have hread : substituteFrom value (some name.reverse) ('\x7d' :: cs) =
      value name ++ substituted value cs := by
    rw [hrev, substituteFrom, ← hrev, List.reverse_reverse, substituted]
  rw [substituted, placeholder, List.cons_append, List.cons_append, substituteFrom,
    List.append_assoc, substituteFrom_some_append h.not_brace, List.append_nil]
  exact hread

/-- A template stays as it is where each placeholder stands for itself. -/
theorem Braced.substituted_eq_self (h : Braced cs) : substituted Call.placeholder cs = cs := by
  induction h with
  | nil => rfl
  | char hc _ ih => rw [substituted_cons_of_not_brace hc, ih]
  | placeholder hname _ ih => rw [substituted_placeholder_append hname, ih]

/-- To replace one placeholder and then substitute for the rest is to substitute for all at once:
nothing in the text that was put in is read as a placeholder. -/
theorem Braced.substituted_replaceAll {new : List Char} (h : Braced cs) (hname : IsName name)
    (hnew : ∀ c ∈ new, isBrace c = false) :
    substituted value (Text.replaceAll (Call.placeholder name) new cs) =
      substituted (Function.update value name new) cs := by
  induction h with
  | nil => rfl
  | @char c cs hc _ ih =>
    rw [replaceAll_cons_of_not_brace hc, substituted_cons_of_not_brace hc,
      substituted_cons_of_not_brace hc, ih]
  | @placeholder other cs hother _ ih =>
    rw [substituted_placeholder_append hother]
    by_cases hsame : name = other
    · subst hsame
      rw [Text.replaceAll_word_append (placeholder_ne_nil name), substituted_append hnew, ih,
        Function.update_self]
    · rw [replaceAll_placeholder_append hname hother hsame, substituted_placeholder_append hother,
        ih, Function.update_of_ne (Ne.symm hsame)]

end

end Toolgate.Call

namespace Toolgate.Http

open Call (placeholder isBrace IsName Braced substituted)

/-- What is put in the place of a placeholder: the value of its variable, encoded. A placeholder
without a value stays. -/
def filler (params : List (String × Json)) (name : List Char) : List Char :=
  match lookupField (String.ofList name) params with
  | some v => encoded v
  | none => placeholder name

section
variable {params others : List (String × Json)} {cs : List Char}

theorem filler_cons (param : String × Json) (params : List (String × Json)) :
    filler (param :: params) =
      Function.update (filler params) param.1.toList (encoded param.2) := by
  funext name
  obtain ⟨key, v⟩ := param
  by_cases h : name = key.toList
  · subst h
    rw [Function.update_self, filler, String.ofList_toList, lookupField,
      if_pos (beq_self_eq_true _)]
  · have hkey : ¬(key == String.ofList name) = true := by
      rw [beq_iff_eq]
      rintro rfl
      exact h String.toList_ofList.symm
    rw [Function.update_of_ne h, filler, filler, lookupField, if_neg hkey]

theorem filler_perm (hnodup : (params.map Prod.fst).Nodup) (h : params.Perm others) :
    filler params = filler others := by
  funext name
  rw [filler, filler, lookupField_perm hnodup h]

theorem filler_of_mem {name : String} {v : Json} (hnodup : (params.map Prod.fst).Nodup)
    (h : (name, v) ∈ params) : filler params name.toList = encoded v := by
  rw [filler, String.ofList_toList, lookupField_of_mem hnodup h]

/-- Filling in one variable after another is filling in all of them at once. -/
theorem fillChars_eq_substituted (h : Braced cs)
    (hnames : ∀ param ∈ params, IsName param.1.toList) :
    fillChars params cs = substituted (filler params) cs := by
  induction params generalizing cs with
  | nil => exact h.substituted_eq_self.symm
  | cons param rest ih =>
    obtain ⟨hparam, hrest⟩ := List.forall_mem_cons.mp hnames
    have hpiece := @not_isBrace_of_mem_encoded param.2
    calc fillChars (param :: rest) cs
        = fillChars rest (Text.replaceAll (placeholder param.1.toList) (encoded param.2) cs) := rfl
      _ = substituted (filler rest)
            (Text.replaceAll (placeholder param.1.toList) (encoded param.2) cs) :=
          ih (h.replaceAll hparam hpiece).1 hrest
      _ = substituted (filler (param :: rest)) cs := by
          rw [h.substituted_replaceAll hparam hpiece, filler_cons]

theorem notMem_of_mem_encoded {v : Json} : ∀ c ∈ encoded v, c ∉ "/?#\x7b\x7d ".toList := by
  intro c hc hspecial
  have hnone : ("/?#\x7b\x7d ".toList.all fun d => !Text.isEncodedChar d) = true := by
    decide +kernel
  have hown := List.all_eq_true.mp hnone c hspecial
  rw [Text.isEncodedChar_of_mem_percent c hc] at hown
  cases hown

/-- What is taken off a base URL are the slashes at its end, all of them. -/
theorem exists_trimBase (base : String) :
    (∃ n, base.toList = (trimBase base).toList ++ List.replicate n '/') ∧
      (trimBase base).toList.getLast? ≠ some '/' := by
  rw [trimBase, String.toList_ofList]
  constructor
  · obtain ⟨slashes, hbase, hslashes⟩ := Text.exists_trimEnd (· == '/') base.toList
    refine ⟨slashes.length, hbase.trans ?_⟩
    rw [← List.eq_replicate_of_mem fun c hc => beq_iff_eq.mp (hslashes c hc)]
  · intro hlast
    simpa using Text.getLast_trimEnd hlast

/-- The URL for a template without stray braces and one value for each of its variables, in any
order, is the base without its trailing slashes and the template in which the encoded value of its
variable stands in the place of each placeholder. An encoded value has no meaning in a URL or a
template and is read back as the text of the value. -/
theorem toList_buildUrl_eq_substituted (base : String) {path : String}
    (hbraced : Braced path.toList) (hnodup : (params.map Prod.fst).Nodup)
    (hnames : ∀ name, name ∈ params.map Prod.fst ↔ name ∈ Call.variableNames path) :
    ((∃ n, base.toList = (trimBase base).toList ++ List.replicate n '/') ∧
      (trimBase base).toList.getLast? ≠ some '/') ∧
    (∀ others, params.Perm others →
      (buildUrl base path others).toList =
        (trimBase base).toList ++ substituted (filler params) path.toList) ∧
    ∀ name v, (name, v) ∈ params →
      filler params name.toList = Text.percent Text.isUnreserved (argumentText v).toList ∧
      (∀ c ∈ filler params name.toList, c ∉ "/?#\x7b\x7d ".toList) ∧
      segmentText? (filler params name.toList) = some (argumentText v).toList := by
  refine ⟨exists_trimBase base, fun others hperm => ?_, fun name v hmem => ?_⟩
  · have hothers : ∀ param ∈ others, IsName param.1.toList := fun param hparam =>
      Call.isName_of_mem_variableNames
        ((hnames param.1).mp (List.mem_map_of_mem (hperm.mem_iff.mpr hparam)))
    rw [buildUrl, String.toList_append, toList_fillPath, fillChars_eq_substituted hbraced hothers,
      filler_perm hnodup hperm]
  · rw [filler_of_mem hnodup hmem]
    exact ⟨rfl, notMem_of_mem_encoded, segmentText?_encoded v⟩

/-- The template `/a/{x}/{xy}/{x}`. -/
def lookalikePath : String := "/a/\x7bx\x7d/\x7bxy\x7d/\x7bx\x7d"

/-- The value of one variable is written like the placeholder of the other. -/
def lookalikeParams : List (String × Json) := [("x", .str "\x7bxy\x7d"), ("xy", .int 7)]

theorem braced_lookalikePath : Braced lookalikePath.toList := by
  have hx : IsName "x".toList := ⟨by decide, Call.not_isBrace_of_all (by decide)⟩
  have hxy : IsName "xy".toList := ⟨by decide, Call.not_isBrace_of_all (by decide)⟩
  have hpath : lookalikePath.toList = "/a/".toList ++ (placeholder "x".toList ++
      '/' :: (placeholder "xy".toList ++ '/' :: (placeholder "x".toList ++ []))) := rfl
  rw [hpath]
  exact Call.Braced.append (Call.not_isBrace_of_all (by decide))
    (.placeholder hx (.char (by decide) (.placeholder hxy (.char (by decide)
      (.placeholder hx .nil)))))

/-- Whichever of the variables is filled in first, neither value is taken for a placeholder. -/
theorem buildUrl_lookalike :
    Braced lookalikePath.toList ∧ (lookalikeParams.map Prod.fst).Nodup ∧
      (∀ name, name ∈ lookalikeParams.map Prod.fst ↔ name ∈ Call.variableNames lookalikePath) ∧
      ∀ given ∈ [lookalikeParams, lookalikeParams.reverse],
        (buildUrl "https://e.org//" lookalikePath given).toList =
          "https://e.org/a/%7Bxy%7D/7/%7Bxy%7D".toList := by
  have hnodup : (lookalikeParams.map Prod.fst).Nodup := by decide
  have hnames : ∀ name, name ∈ lookalikeParams.map Prod.fst ↔
      name ∈ Call.variableNames lookalikePath := by
    have hvariables : Call.variableNames lookalikePath = ["x", "xy"] := by decide +kernel
    simp [hvariables, lookalikeParams]
  obtain ⟨-, hurl, -⟩ := toList_buildUrl_eq_substituted "https://e.org//" braced_lookalikePath
    hnodup hnames
  have hvalue : (trimBase "https://e.org//").toList ++
      substituted (filler lookalikeParams) lookalikePath.toList =
        "https://e.org/a/%7Bxy%7D/7/%7Bxy%7D".toList := by
    decide +kernel
  refine ⟨braced_lookalikePath, hnodup, hnames, ?_⟩
  rw [List.forall_mem_cons, List.forall_mem_singleton]
  exact ⟨(hurl _ (.refl _)).trans hvalue, (hurl _ (List.reverse_perm _).symm).trans hvalue⟩

end

end Toolgate.Http
