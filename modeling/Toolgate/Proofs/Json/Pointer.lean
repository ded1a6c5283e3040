import Toolgate.Json.Pointer
import Toolgate.Proofs.Decimal.Digits
import Toolgate.Proofs.Text.Pieces

/-!
# References lead where they point

A reference that is written out from the steps of a path leads to the value at that path. In a key,
tildes are escaped before slashes are, so that the two escapes are never taken for one another; what
is escaped last is resolved first. The escaped key holds no slash, and so the steps are found again
between the slashes of the reference.

## Main definitions

* `Json.at?`: the value at a path
* `pointer`: the reference for a path, with `escapeStep` for its keys

## Main statements

* `unescapeStep_escapeStep`: a key is read as it was written
* `Node.followAll_append`: a path that is there is followed to its end
* `resolveRef_pointer`: where the reference for a path leads
-/

namespace Toolgate

open Text (splitAt replaceAll)

/-! ## Paths -/

/-- The value at a path: a key leads into an object and an index into an array. -/
def Json.at? (v : Json) : List Step → Option Json
  | [] => some v
  | .key name :: rest => (v.get? name).bind (·.at? rest)
  | .index n :: rest => (v.items?.bind (·[n]?)).bind (·.at? rest)

/-- A key as it is written in a reference: `~0` for a tilde, then `~1` for a slash. -/
def escapeStep (cs : List Char) : List Char :=
  replaceAll ['/'] ['~', '1'] (replaceAll ['~'] ['~', '0'] cs)

/-- What a step is called: a key as it is, and an index by its digits. -/
def Step.name : Step → String
  | .key name => name
  | .index n => Decimal.natText n

/-- A step as it is written in a reference. -/
def Step.written : Step → List Char
  | .key name => escapeStep name.toList
  | .index n => Decimal.natDigits n

/-- The reference for a path: each step stands after a slash. -/
def pointer (steps : List Step) : String :=
  String.ofList ('#' :: steps.flatMap fun step => '/' :: step.written)

/-- An index has no more digits than an integer may have that is read. All indices of an array are
such, unless it has more than `10 ^ 4300` items. -/
def Step.IsReadable : Step → Prop
  | .key _ => True
  | .index n => (Decimal.natDigits n).length ≤ Decimal.maxDigits

/-! ## Escapes -/

/-- A single character is replaced wherever it stands. -/
theorem replaceAll_singleton (c : Char) (new cs : List Char) :
    replaceAll [c] new cs = cs.flatMap fun d => if d = c then new else [d] := by
  induction cs with
  | nil => rfl
  | cons d cs ih =>
    rw [List.flatMap_cons, ← ih]
    by_cases hd : d = c
    · subst hd
      rw [if_pos rfl]
      exact Text.replaceAll_word_append (List.cons_ne_nil d []) cs
    · have hnot : ¬[c] <+: d :: cs := by
        rw [List.cons_prefix_cons]
        exact fun h => hd h.1.symm
      rw [if_neg hd, Text.replaceAll_cons hnot, List.singleton_append]

/-- A character of a key as it is written. -/
def escapedChar (c : Char) : List Char :=
  if c = '~' then ['~', '0'] else if c = '/' then ['~', '1'] else [c]

theorem escapeStep_eq (cs : List Char) : escapeStep cs = cs.flatMap escapedChar := by
  rw [escapeStep, replaceAll_singleton, replaceAll_singleton, List.flatMap_assoc]
  congr 1
  funext c
  by_cases htilde : c = '~'
  · subst htilde
    rfl
  · by_cases hslash : c = '/'
    · subst hslash
      rfl
    · simp [escapedChar, htilde, hslash]

theorem slash_notMem_escapeStep (cs : List Char) : '/' ∉ escapeStep cs := by
  rw [escapeStep_eq, List.mem_flatMap]
  rintro ⟨c, -, hc⟩
  unfold escapedChar at hc
  split_ifs at hc with htilde hslash
  · exact absurd hc (by decide)
  · exact absurd hc (by decide)
  · exact hslash (List.mem_singleton.mp hc).symm

/-- A word that begins with a tilde is not found where another character stands. -/
theorem replaceAll_tilde_cons {c : Char} (h : c ≠ '~') (mark : Char) (new cs : List Char) :
    replaceAll ['~', mark] new (c :: cs) = c :: replaceAll ['~', mark] new cs := by
  refine Text.replaceAll_cons ?_
  rw [List.cons_prefix_cons]
  exact fun hpre => h hpre.1.symm

/-- A tilde before another mark is passed over, and the mark with it. -/
theorem replaceAll_tilde_mark {mark other : Char} (hne : mark ≠ other) (hother : other ≠ '~')
    (new cs : List Char) :
    replaceAll ['~', mark] new ('~' :: other :: cs) =
      '~' :: other :: replaceAll ['~', mark] new cs := by
  rw [Text.replaceAll_cons, replaceAll_tilde_cons hother]
  rw [List.cons_prefix_cons, List.cons_prefix_cons]
  exact fun hpre => hne hpre.2.1

/-- Once the slashes are back, just the tildes are still escaped. -/
theorem replaceAll_slash_escapeStep (cs : List Char) :
    replaceAll ['~', '1'] ['/'] (escapeStep cs) = replaceAll ['~'] ['~', '0'] cs := by
  rw [escapeStep_eq, replaceAll_singleton]
  induction cs with
  | nil => rfl
  | cons c cs ih =>
    rw [List.flatMap_cons, List.flatMap_cons, ← ih, escapedChar]
    by_cases htilde : c = '~'
    · subst htilde
      exact replaceAll_tilde_mark (by decide) (by decide) _ _
    · rw [if_neg htilde, if_neg htilde]
      by_cases hslash : c = '/'
      · subst hslash
        exact Text.replaceAll_word_append (List.cons_ne_nil _ _) _
      · rw [if_neg hslash]
        exact replaceAll_tilde_cons htilde _ _ _

theorem replaceAll_tilde_replaceAll (cs : List Char) :
    replaceAll ['~', '0'] ['~'] (replaceAll ['~'] ['~', '0'] cs) = cs := by
  rw [replaceAll_singleton]
  induction cs with
  | nil => rfl
  | cons c cs ih =>
    rw [List.flatMap_cons]
    by_cases htilde : c = '~'
    · subst htilde
      rw [if_pos rfl]
      exact (Text.replaceAll_word_append (List.cons_ne_nil _ _) _).trans (congrArg _ ih)
    · rw [if_neg htilde]
      exact (replaceAll_tilde_cons htilde _ _ _).trans (congrArg _ ih)

/-- A key is read as it was written. -/
theorem unescapeStep_escapeStep (cs : List Char) : Naming.unescapeStep (escapeStep cs) = cs := by
  rw [Naming.unescapeStep, replaceAll_slash_escapeStep, replaceAll_tilde_replaceAll]

/-! ## Indices -/

section
variable {n : ℕ}

theorem notMem_natDigits {c : Char} (h : Text.isAsciiDigit c = false) :
    c ∉ Decimal.natDigits n := by
  intro hc
  rw [Decimal.isAsciiDigit_of_mem_natDigits c hc] at h
  cases h

/-- Digits hold no escapes. -/
theorem unescapeStep_natDigits :
    Naming.unescapeStep (Decimal.natDigits n) = Decimal.natDigits n := by
  have hplain (mark : Char) : ¬['~', mark] <:+: Decimal.natDigits n := fun h =>
    notMem_natDigits (by decide) (h.subset List.mem_cons_self)
  rw [Naming.unescapeStep, Text.replaceAll_of_not_isInfix (hplain '1'),
    Text.replaceAll_of_not_isInfix (hplain '0')]

theorem decimalPart_of_digits {cs : List Char} (h : ∀ c ∈ cs, Text.isAsciiDigit c = true) :
    decimalPart cs = (cs.map Decimal.digitValue, false) := by
  induction cs with
  | nil => rfl
  | cons c cs ih =>
    obtain ⟨hc, hcs⟩ := List.forall_mem_cons.mp h
    rw [decimalPart, Text.decimalValue, if_pos hc, ih hcs]
    rfl

/-- The digits of an index are read as that index. -/
theorem readIndex_natText (h : (Step.index n).IsReadable) :
    readIndex (Decimal.natText n) = .ok (some n) := by
  have hdigits := @Decimal.isAsciiDigit_of_mem_natDigits n
  have hnumerals : (Decimal.natDigits n).all Text.isNumeral = true := by
    rw [List.all_eq_true]
    intro c hc
    rw [Text.isNumeral, hdigits c hc, Bool.true_or]
  have hvalue :
      ((Decimal.natDigits n).map Decimal.digitValue).foldl (fun m d => m * 10 + d) 0 = n := by
    rw [List.foldl_map]
    exact Decimal.natValue_natDigits n
  rw [readIndex, Decimal.natText, String.toList_ofList]
  simp only [decimalPart_of_digits hdigits, List.length_map, hnumerals, hvalue, Bool.not_true,
    Bool.or_false, List.isEmpty_iff, Decimal.natDigits_ne_nil, Bool.false_eq_true, if_false,
    Nat.not_lt.mpr h]

end

/-! ## The steps of a reference -/

theorem slash_notMem_written (step : Step) : '/' ∉ step.written := by
  cases step with
  | key name => exact slash_notMem_escapeStep _
  | index n => exact notMem_natDigits (by decide)

theorem unescapeStep_written (step : Step) :
    String.ofList (Naming.unescapeStep step.written) = step.name := by
  cases step with
  | key name => rw [Step.written, unescapeStep_escapeStep, String.ofList_toList, Step.name]
  | index n => rw [Step.written, unescapeStep_natDigits, Step.name, Decimal.natText]

/-- Before the first slash there is nothing, and a step after each. -/
theorem splitAt_written (steps : List Step) :
    splitAt '/' (steps.flatMap fun step => '/' :: step.written) = [] :: steps.map Step.written := by
  induction steps with
  | nil => rfl
  | cons step steps ih =>
    rw [List.flatMap_cons, List.cons_append, Text.splitAt_cons_self,
      Text.splitAt_append (slash_notMem_written step), ih, List.modifyHead_cons, List.append_nil,
      List.map_cons]

theorem refSteps?_pointer (steps : List Step) :
    refSteps? (pointer steps) = some (steps.map Step.name) := by
  rw [refSteps?, pointer, String.toList_ofList]
  simp only [splitAt_written, List.drop_succ_cons, List.drop_zero, List.map_map]
  congr 2
  funext step
  exact unescapeStep_written step

/-- A reference other than that of the root is named after its last step. -/
theorem refName_pointer (front : List Step) (last : Step) :
    Naming.refName (pointer (front ++ [last])) = last.name := by
  have hsplit : splitAt '/' ('#' :: (front ++ [last]).flatMap fun step => '/' :: step.written) =
      ['#'] :: (front ++ [last]).map Step.written := by
    rw [Text.splitAt_cons_of_ne (by decide), splitAt_written, List.modifyHead_cons]
  rw [Naming.refName, pointer, String.toList_ofList, hsplit, List.map_append, List.map_singleton,
    ← List.cons_append, List.getLastD_concat, unescapeStep_written]

/-! ## Where a reference leads -/

/-- What is at a step of a path is what following the step comes to. -/
theorem Node.follow_name {node : Node} {step : Step} {v : Json} (hreadable : step.IsReadable)
    (h : node.value.at? [step] = some v) :
    node.follow step.name = .ok (some ⟨v, node.place.step step, false⟩) := by
  obtain ⟨value, place, altered⟩ := node
  cases step with
  | key name =>
    cases value with
    | obj given =>
      have hlookup : lookupField name given = some v := by
        simpa [Json.at?, Json.get?] using h
      rw [Node.follow]
      simp only [Step.name, Node.get?, Json.get?, hlookup, Option.map_some]
    | _ => simp [Json.at?, Json.get?] at h
  | index n =>
    cases value with
    | arr items =>
      have hitem : items[n]? = some v := by
        simpa [Json.at?, Json.items?] using h
      rw [Node.follow]
      simp only [Step.name, readIndex_natText hreadable, bind, Except.bind, hitem, Option.map_some]
      rfl
    | _ => simp [Json.at?, Json.items?] at h

/-- A path that is there is followed to its end, and what comes behind it from there. -/
theorem Node.followAll_append (node : Node) {front : List Step} {v : Json}
    (hreadable : ∀ step ∈ front, step.IsReadable) (h : node.value.at? front = some v)
    (hplain : node.altered = false) (back : List String) :
    node.followAll (front.map Step.name ++ back) =
      (⟨v, ⟨node.place.origin, front.reverse ++ node.place.steps⟩, false⟩ : Node).followAll
        back := by
  induction front generalizing node with
  | nil =>
    obtain ⟨value, place, altered⟩ := node
    obtain rfl : value = v := Option.some.inj h
    obtain rfl : altered = false := hplain
    rfl
  | cons step front ih =>
    obtain ⟨hstep, hfront⟩ := List.forall_mem_cons.mp hreadable
    obtain ⟨w, hw, hrest⟩ : ∃ w, node.value.at? [step] = some w ∧ w.at? front = some v := by
      cases step <;> simpa [Json.at?, Option.bind_eq_some_iff] using h
    have hnext := Node.follow_name hstep hw
    rw [List.map_cons, List.cons_append, Node.followAll, hnext]
    refine (ih _ hfront hrest rfl).trans ?_
    simp [Place.step]

/-- The reference for a path leads to the value at it, and to nothing when the path ends at a key
that its object does not have. The name that it gives to its target is the last step. -/
theorem resolveRef_pointer {document : Json} {steps : List Step}
    (hreadable : ∀ step ∈ steps, step.IsReadable) :
    (∀ v, document.at? steps = some v → resolveRef document (pointer steps) =
      .ok (some ⟨v, ⟨.document, steps.reverse⟩, false⟩)) ∧
    (∀ front key given, steps = front ++ [.key key] → document.at? front = some (.obj given) →
      lookupField key given = none → resolveRef document (pointer steps) = .ok none) ∧
    ∀ front last, steps = front ++ [last] → Naming.refName (pointer steps) = last.name := by
  have hresolve : resolveRef document (pointer steps) =
      (Node.root document).followAll (steps.map Step.name) := by
    rw [resolveRef, refSteps?_pointer]
  refine ⟨fun v hv => ?_, fun front key given hsteps hgiven hlookup => ?_,
    fun front last hsteps => ?_⟩
  · have hfollow := (Node.root document).followAll_append hreadable hv rfl []
    rw [List.append_nil] at hfollow
    rw [hresolve, hfollow]
    simp [Node.followAll, Node.root]
  · subst hsteps
    have hfront : ∀ step ∈ front, step.IsReadable := fun step hstep =>
      hreadable step (List.mem_append_left _ hstep)
    have hfollow := (Node.root document).followAll_append hfront hgiven rfl [key]
    rw [hresolve, List.map_append, List.map_singleton, Step.name, hfollow]
    simp [Node.followAll, Node.follow, Node.get?, Json.get?, hlookup]
    rfl
  · subst hsteps
    exact refName_pointer front last

/-- A document whose keys are empty, or hold slashes, tildes and digits. -/
def oddKeys : Json :=
  .obj [("", .obj [("a/b~1", .arr [.null, .obj [("~01", .int 7), ("0", .bool true)]])])]

/-- The reference goes through the empty key, an escaped key and an array; the tilde of `~01` does
not make a slash of what follows it. -/
theorem resolveRef_pointer_oddKeys :
    pointer [.key "", .key "a/b~1", .index 1, .key "~01"] = "#//a~1b~01/1/~001" ∧
    resolveRef oddKeys "#//a~1b~01/1/~001" = .ok (some ⟨.int 7, ⟨.document,
      [.key "~01", .index 1, .key "a/b~1", .key ""]⟩, false⟩) ∧
    resolveRef oddKeys "#//a~1b~01/1/~01" = .ok none ∧
    Naming.refName "#//a~1b~01/1/~001" = "~01" := by
  have hindex : (Step.index 1).IsReadable := by
    rw [Step.IsReadable, show (Decimal.natDigits 1).length = 1 by decide +kernel]
    decide
  have hreadable (key : String) :
      ∀ step ∈ [Step.key "", .key "a/b~1", .index 1, .key key], step.IsReadable := by
    simpa [Step.IsReadable] using hindex
  have hpointer : pointer [.key "", .key "a/b~1", .index 1, .key "~01"] = "#//a~1b~01/1/~001" := by
    decide +kernel
  have hmissing : pointer [.key "", .key "a/b~1", .index 1, .key "~1"] = "#//a~1b~01/1/~01" := by
    decide +kernel
  obtain ⟨hfound, -, hname⟩ := @resolveRef_pointer oddKeys _ (hreadable "~01")
  obtain ⟨-, hnone, -⟩ := @resolveRef_pointer oddKeys _ (hreadable "~1")
  refine ⟨hpointer, ?_, ?_, ?_⟩
  · rw [← hpointer]
    exact hfound _ rfl
  · rw [← hmissing]
    exact hnone [.key "", .key "a/b~1", .index 1] _ _ rfl rfl rfl
  · rw [← hpointer]
    exact hname [.key "", .key "a/b~1", .index 1] _ rfl

end Toolgate
