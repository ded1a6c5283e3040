import Mathlib.Algebra.Ring.Int.Defs
import Toolgate.Proofs.Json.Fields
import Toolgate.Proofs.Schema.Object

/-!
# What bounds on integers mean

Two dialects write the bounds of a number. The older one has a flag beside a bound, which says that
the bound itself is left out; the newer one writes an exclusive bound as a number of its own. A
schema of integers may use either for each of its ends, and both together. Its bounds are compared
with integers of any size, and rewriting the flags into numbers changes nothing.

## Main definitions

* `DescribesInteger`: the fields of a schema of integers with bounds
* `MeetsBounds`: what these fields ask of an integer
* `withoutFlags`: the same fields in the newer dialect

## Main statements

* `Bounds.brokenByWhole?_eq_none_iff`: which integers keep within bounds
* `boundsOf_withoutFlags`: both dialects give the same bounds
* `integers_accepted_iff`: what schemas of integers accept
-/

namespace Toolgate.Schema

/-! ## Integers within bounds -/

theorem Amount.toInt?_asWhole (bound : Amount) : bound.asWhole.toInt? = bound.toInt? := by
  rw [Amount.asWhole]
  cases hwhole : bound.toInt? with
  | none => exact hwhole
  | some m => rfl

/-- The integer passes a test against a bound, where the bound is given and whole. -/
def Amount.Passed (test : Int → Prop) (bound : Option Amount) : Prop :=
  ∀ b ∈ bound, ∀ m ∈ b.toInt?, test m

/-- A bound is broken by what fails its test. -/
theorem filter_asWhole_eq_none_iff (fails : Int → Bool) {test : Int → Prop}
    (h : ∀ m, fails m = false ↔ test m) (bound : Option Amount) :
    ((bound.map Amount.asWhole).filter fun b => b.toInt?.any fails) = none ↔
      Amount.Passed test bound := by
  cases bound with
  | none => simp [Amount.Passed]
  | some b =>
    rw [Option.map_some, Option.filter_some, Amount.toInt?_asWhole]
    cases hwhole : b.toInt? <;> simp [Amount.Passed, hwhole, h]

/-- An integer keeps within bounds when it passes the test of each. -/
theorem Bounds.brokenByWhole?_eq_none_iff {bounds : Bounds} {n : Int} :
    bounds.brokenByWhole? n = none ↔
      Amount.Passed (· ≤ n) bounds.atLeast ∧ Amount.Passed (· < n) bounds.above ∧
      Amount.Passed (n ≤ ·) bounds.atMost ∧ Amount.Passed (n < ·) bounds.below ∧
      Amount.Passed (· ∣ n) bounds.multipleOf := by
  have hdvd (m : Int) : (Int.fmod n m != 0) = false ↔ m ∣ n := by
    rw [bne_eq_false_iff_eq]
    exact ⟨Int.dvd_of_fmod_eq_zero, Int.fmod_eq_zero_of_dvd⟩
  rw [← filter_asWhole_eq_none_iff (n < ·) (by simp),
    ← filter_asWhole_eq_none_iff (n ≤ ·) (by simp),
    ← filter_asWhole_eq_none_iff (· < n) (by simp),
    ← filter_asWhole_eq_none_iff (· ≤ n) (by simp),
    ← filter_asWhole_eq_none_iff _ hdvd, Bounds.brokenByWhole?]
  dsimp only
  generalize Option.filter _ (Option.map _ bounds.multipleOf) = multiple
  generalize Option.filter _ (Option.map _ bounds.atMost) = most
  generalize Option.filter _ (Option.map _ bounds.below) = below
  generalize Option.filter _ (Option.map _ bounds.atLeast) = least
  generalize Option.filter _ (Option.map _ bounds.above) = above
  rcases multiple, most, below, least, above with
    ⟨_ | _, _ | _, _ | _, _ | _, _ | _⟩ <;> simp

/-! ## Schemas of integers with bounds -/

/-- The keywords whose value is a number. -/
def amountKeywords : List String :=
  ["minimum", "maximum", "multipleOf"]

/-- The keywords whose value is a flag in one dialect and a number in the other. -/
def exclusiveKeywords : List String :=
  ["exclusiveMinimum", "exclusiveMaximum"]

/-- What may stand under a keyword of a schema of integers with bounds. -/
inductive IsConstraint : String → Json → Prop where
  | amount {key : String} (h : key ∈ amountKeywords) (m : Int) : IsConstraint key (.int m)
  | flag {key : String} (h : key ∈ exclusiveKeywords) (b : Bool) : IsConstraint key (.bool b)
  | exclusive {key : String} (h : key ∈ exclusiveKeywords) (m : Int) : IsConstraint key (.int m)

/-- The fields are those of a schema of integers with bounds: besides the type there is any choice
of constraints, in any order, and nothing else. -/
structure DescribesInteger (fields : List (String × Json)) : Prop where
  type_eq : lookupField "type" fields = some (.str "integer")
  isConstraint : ∀ key v, lookupField key fields = some v → key ≠ "type" → IsConstraint key v

/-- The integer meets every constraint that the fields put on it. A bound counts by itself, and more
strictly where the flag beside it is set; a number in the place of the flag is a bound of its own;
only what is greater than zero counts as a divisor. -/
structure MeetsBounds (fields : List (String × Json)) (n : Int) : Prop where
  minimum : ∀ m, said fields "minimum" = .int m →
    m ≤ n ∧ (said fields "exclusiveMinimum" = .bool true → m < n)
  exclusiveMinimum : ∀ m, said fields "exclusiveMinimum" = .int m → m < n
  maximum : ∀ m, said fields "maximum" = .int m →
    n ≤ m ∧ (said fields "exclusiveMaximum" = .bool true → n < m)
  exclusiveMaximum : ∀ m, said fields "exclusiveMaximum" = .int m → n < m
  multipleOf : ∀ m, said fields "multipleOf" = .int m → 0 < m → m ∣ n

/-- What is said under a keyword that may have a number only. -/
inductive IsAmount : Json → Prop where
  | none : IsAmount .null
  | int (m : Int) : IsAmount (.int m)

/-- What is said under a keyword that may have a flag or a number. -/
inductive IsExclusive : Json → Prop where
  | none : IsExclusive .null
  | flag (b : Bool) : IsExclusive (.bool b)
  | int (m : Int) : IsExclusive (.int m)

section
variable {fields : List (String × Json)}

theorem DescribesInteger.lookupField_eq_none (h : DescribesInteger fields) {key : String}
    (hkey : key ∉ "type" :: amountKeywords ++ exclusiveKeywords) :
    lookupField key fields = none := by
  simp only [List.cons_append, List.mem_cons, List.mem_append, not_or] at hkey
  rw [Option.eq_none_iff_forall_ne_some]
  intro v hv
  cases h.isConstraint key v hv hkey.1 with
  | amount hamount => exact hkey.2.1 hamount
  | flag hexclusive | exclusive hexclusive => exact hkey.2.2 hexclusive

theorem DescribesInteger.isAmount (h : DescribesInteger fields) (key : String)
    (hkey : key ∈ amountKeywords) : IsAmount (said fields key) := by
  have hnot : key ∉ exclusiveKeywords := by
    revert key
    decide
  cases hv : lookupField key fields with
  | none => simpa [said, hv] using IsAmount.none
  | some v =>
    have htype : key ≠ "type" := by
      rintro rfl
      exact absurd hkey (by decide)
    cases h.isConstraint key v hv htype with
    | amount => simpa [said, hv] using IsAmount.int _
    | flag hexclusive | exclusive hexclusive => exact absurd hexclusive hnot

theorem DescribesInteger.isExclusive (h : DescribesInteger fields) (key : String)
    (hkey : key ∈ exclusiveKeywords) : IsExclusive (said fields key) := by
  cases hv : lookupField key fields with
  | none => simpa [said, hv] using IsExclusive.none
  | some v =>
    have htype : key ≠ "type" := by
      rintro rfl
      exact absurd hkey (by decide)
    cases h.isConstraint key v hv htype with
    | amount | exclusive => simpa [said, hv] using IsExclusive.int _
    | flag => simpa [said, hv] using IsExclusive.flag _

/-- A schema of integers with bounds is translated to these bounds. -/
theorem translate_of_describesInteger {document : Json} {pending : List String}
    {active : List Place} {node : Node} {name : String} (hnode : node.value = .obj fields)
    (hinteger : DescribesInteger fields) (hfree : node.altered = true ∨ node.place ∉ active) :
    translate document pending active node name =
      .ok ⟨.integer, .whole (boundsOf fields), "", []⟩ := by
  have hnone {key : String} (hkey : key ∉ "type" :: amountKeywords ++ exclusiveKeywords) :=
    hinteger.lookupField_eq_none hkey
  have hlisted {key : String} (hkey : key ∉ "type" :: amountKeywords ++ exclusiveKeywords) :
      listNamed? fields key = none := by
    rw [listNamed?, hnone hkey]
  have hplain : annotated fields ⟨.integer, .whole (boundsOf fields), "", []⟩ =
      ⟨.integer, .whole (boundsOf fields), "", []⟩ := by
    have hnote : describe fields = "" := by
      simp [describe, trimmedField, headedField, hnone, amountKeywords, exclusiveKeywords]
      rfl
    simp [annotated, hnote, said, hnone, amountKeywords, exclusiveKeywords]
  rw [translate_of_no_ref hnode (by simp [hnone, amountKeywords, exclusiveKeywords]) hfree,
    translateFields, hlisted (by decide), hlisted (by decide), hlisted (by decide), said,
    hinteger.type_eq]
  exact congrArg Except.ok hplain

/-- One end of the bounds asks for what is said of it: what it is compared with may reach the bound,
where no flag is set, and must keep off an exclusive one. -/
theorem passed_boundEnd_iff {bound exclusive : Json} (hbound : IsAmount bound)
    (hexclusive : IsExclusive exclusive) (within strictly : Int → Prop)
    (h : ∀ m, strictly m → within m) :
    Amount.Passed within (boundEnd bound exclusive).1 ∧
      Amount.Passed strictly (boundEnd bound exclusive).2 ↔
    (∀ m, bound = .int m → within m ∧ (exclusive = .bool true → strictly m)) ∧
      ∀ m, exclusive = .int m → strictly m := by
  cases hbound with
  | none =>
    cases hexclusive with
    | none | int => simp [boundEnd, Amount.ofJson?, Amount.Passed, Amount.toInt?]
    | flag b => cases b <;> simp [boundEnd, Amount.ofJson?, Amount.Passed, Amount.toInt?]
  | int m =>
    cases hexclusive with
    | none | int => simp [boundEnd, Amount.ofJson?, Amount.Passed, Amount.toInt?]
    | flag b =>
      cases b with
      | false => simp [boundEnd, Amount.ofJson?, Amount.Passed, Amount.toInt?]
      | true => simpa [boundEnd, Amount.ofJson?, Amount.Passed, Amount.toInt?] using h m

theorem passed_multipleOf_iff {divisor : Json} (h : IsAmount divisor) (test : Int → Prop) :
    Amount.Passed test ((Amount.ofJson? divisor).filter Amount.isPositive) ↔
      ∀ m, divisor = .int m → 0 < m → test m := by
  cases h with
  | none => simp [Amount.ofJson?, Amount.Passed]
  | int m =>
    by_cases hpositive : 0 < m <;>
      simp [Amount.ofJson?, Amount.Passed, Amount.isPositive, Amount.toInt?, Option.filter_some,
        hpositive]

theorem isWhole_of_mem_ofJson {v : Json} (h : IsAmount v) {amount : Amount}
    (hamount : amount ∈ Amount.ofJson? v) : amount.isWhole = true := by
  cases h with
  | none => cases hamount
  | int m =>
    obtain rfl := Option.some.inj hamount
    rfl

theorem isWhole_of_mem_boundEnd {bound exclusive : Json} (hbound : IsAmount bound)
    (hexclusive : IsExclusive exclusive) (amount : Amount)
    (h : amount ∈ (boundEnd bound exclusive).1 ∨ amount ∈ (boundEnd bound exclusive).2) :
    amount.isWhole = true := by
  have hown : amount ∈ Amount.ofJson? bound → amount.isWhole = true :=
    isWhole_of_mem_ofJson hbound
  cases hexclusive with
  | none => exact h.elim hown nofun
  | flag b => cases b with
    | false => exact h.elim hown nofun
    | true => exact h.elim nofun hown
  | int m => exact h.elim hown (isWhole_of_mem_ofJson (.int m))

/-- Values can be checked against the bounds of a schema. -/
theorem isSound_boundsOf (h : DescribesInteger fields) :
    (Shape.whole (boundsOf fields)).isSound = true := by
  have hlow := isWhole_of_mem_boundEnd (h.isAmount "minimum" (by decide))
    (h.isExclusive "exclusiveMinimum" (by decide))
  have hhigh := isWhole_of_mem_boundEnd (h.isAmount "maximum" (by decide))
    (h.isExclusive "exclusiveMaximum" (by decide))
  rw [Shape.isSound, List.all_eq_true]
  intro amount hamount
  simp only [Bounds.amounts, List.mem_append, Option.mem_toList] at hamount
  rcases hamount with (((hleast | habove) | hmost) | hbelow) | hmultiple
  · exact hlow _ (.inl hleast)
  · exact hlow _ (.inr habove)
  · exact hhigh _ (.inl hmost)
  · exact hhigh _ (.inr hbelow)
  · exact isWhole_of_mem_ofJson (h.isAmount "multipleOf" (by decide))
      (Option.filter_eq_some_iff.mp hmultiple).1

/-- An integer keeps within the bounds of a schema when it meets the constraints. -/
theorem brokenByWhole?_boundsOf_eq_none_iff (h : DescribesInteger fields) {n : Int} :
    (boundsOf fields).brokenByWhole? n = none ↔ MeetsBounds fields n := by
  have hlow := passed_boundEnd_iff (h.isAmount "minimum" (by decide))
    (h.isExclusive "exclusiveMinimum" (by decide)) (· ≤ n) (· < n) fun _ => le_of_lt
  have hhigh := passed_boundEnd_iff (h.isAmount "maximum" (by decide))
    (h.isExclusive "exclusiveMaximum" (by decide)) (n ≤ ·) (n < ·) fun _ => le_of_lt
  have hdivisor := passed_multipleOf_iff (h.isAmount "multipleOf" (by decide)) (· ∣ n)
  rw [Bounds.brokenByWhole?_eq_none_iff]
  constructor
  · rintro ⟨hleast, habove, hmost, hbelow, hmultiple⟩
    obtain ⟨hminimum, hexclusiveMinimum⟩ := hlow.mp ⟨hleast, habove⟩
    obtain ⟨hmaximum, hexclusiveMaximum⟩ := hhigh.mp ⟨hmost, hbelow⟩
    exact ⟨hminimum, hexclusiveMinimum, hmaximum, hexclusiveMaximum, hdivisor.mp hmultiple⟩
  · rintro ⟨hminimum, hexclusiveMinimum, hmaximum, hexclusiveMaximum, hmultiple⟩
    obtain ⟨hleast, habove⟩ := hlow.mpr ⟨hminimum, hexclusiveMinimum⟩
    obtain ⟨hmost, hbelow⟩ := hhigh.mpr ⟨hmaximum, hexclusiveMaximum⟩
    exact ⟨hleast, habove, hmost, hbelow, hdivisor.mpr hmultiple⟩

/-! ## From one dialect to the other -/

/-- One end of the bounds without its flag. A flag that is set makes the bound beside it an
exclusive one; any other says nothing. -/
def withoutFlag (bound exclusive : String) (fields : List (String × Json)) :
    List (String × Json) :=
  match said fields exclusive with
  | .bool flag =>
    let others := fields.filter (·.1 != exclusive)
    match flag, said fields bound with
    | true, .int m => others.filter (·.1 != bound) ++ [(exclusive, .int m)]
    | _, _ => others
  | _ => fields

/-- The fields with the flags of the older dialect rewritten into the numbers of the newer one. -/
def withoutFlags (fields : List (String × Json)) : List (String × Json) :=
  withoutFlag "minimum" "exclusiveMinimum" (withoutFlag "maximum" "exclusiveMaximum" fields)

section
variable {bound exclusive : String}

/-- Other keywords than those of the end stay as they are. -/
theorem lookupField_withoutFlag_of_ne {key : String} (hbound : key ≠ bound)
    (hexclusive : key ≠ exclusive) :
    lookupField key (withoutFlag bound exclusive fields) = lookupField key fields := by
  unfold withoutFlag
  split
  · dsimp only
    split
    · rw [lookupField_append, lookupField_filter_ne, if_neg hbound, lookupField_filter_ne,
        if_neg hexclusive]
      simp [lookupField, hexclusive.symm]
    · rw [lookupField_filter_ne, if_neg hexclusive]
  · rfl

/-- What stands in the rewritten fields stood there before, or is an exclusive bound. -/
theorem lookupField_withoutFlag {key : String} {v : Json}
    (h : lookupField key (withoutFlag bound exclusive fields) = some v) :
    lookupField key fields = some v ∨ key = exclusive ∧ ∃ m, v = .int m := by
  unfold withoutFlag at h
  split at h
  · dsimp only at h
    split at h
    · next m _ _ =>
      rw [lookupField_append, lookupField_filter_ne, lookupField_filter_ne] at h
      by_cases hkey : key = exclusive
      · right
        simp [lookupField, hkey] at h
        exact ⟨hkey, m, h.symm⟩
      · by_cases hbound : key = bound <;> simp_all [lookupField, Ne.symm hkey]
    · left
      rw [lookupField_filter_ne] at h
      by_cases hkey : key = exclusive <;> simp_all
  · exact .inl h

theorem DescribesInteger.withoutFlag (h : DescribesInteger fields) (hbound : bound ∈ amountKeywords)
    (hexclusive : exclusive ∈ exclusiveKeywords) :
    DescribesInteger (withoutFlag bound exclusive fields) where
  type_eq := by
    rw [lookupField_withoutFlag_of_ne, h.type_eq]
    · rintro rfl
      exact absurd hbound (by decide)
    · rintro rfl
      exact absurd hexclusive (by decide)
  isConstraint key v hv hkey := by
    rcases lookupField_withoutFlag hv with hold | ⟨rfl, m, rfl⟩
    · exact h.isConstraint key v hold hkey
    · exact .exclusive hexclusive m

/-- The rewritten end has no flag and asks for the same. -/
theorem boundEnd_withoutFlag (hne : bound ≠ exclusive) (hbound : IsAmount (said fields bound))
    (hexclusive : IsExclusive (said fields exclusive)) :
    boundEnd (said (withoutFlag bound exclusive fields) bound)
        (said (withoutFlag bound exclusive fields) exclusive) =
      boundEnd (said fields bound) (said fields exclusive) ∧
    ∀ flag, said (withoutFlag bound exclusive fields) exclusive ≠ .bool flag := by
  generalize hsaid : said fields exclusive = flagged at hexclusive
  cases hexclusive with
  | none | int => simp [withoutFlag, hsaid]
  | flag b =>
    have hbound' : said (fields.filter (·.1 != exclusive)) bound = said fields bound := by
      rw [said, lookupField_filter_ne, if_neg hne]
    have hexclusive' : said (fields.filter (·.1 != exclusive)) exclusive = .null := by
      rw [said, lookupField_filter_ne, if_pos rfl, Option.getD_none]
    cases b with
    | false => simp [withoutFlag, hsaid, hbound', hexclusive', boundEnd, Amount.ofJson?]
    | true =>
      generalize hamount : said fields bound = amount at hbound
      cases hbound with
      | none =>
        simp [withoutFlag, hsaid, hamount, hbound', hexclusive', boundEnd, Amount.ofJson?]
      | int m =>
        have hmoved : said ((fields.filter (·.1 != exclusive)).filter (·.1 != bound) ++
            [(exclusive, .int m)]) bound = .null := by
          rw [said, lookupField_append, lookupField_filter_ne, if_pos rfl]
          simp [lookupField, hne.symm]
        have hnumber : said ((fields.filter (·.1 != exclusive)).filter (·.1 != bound) ++
            [(exclusive, .int m)]) exclusive = .int m := by
          rw [said, lookupField_append, lookupField_filter_ne, if_neg hne.symm,
            lookupField_filter_ne, if_pos rfl]
          simp [lookupField]
        simp only [withoutFlag, hsaid, hamount, hmoved, hnumber]
        simp [boundEnd, Amount.ofJson?]

theorem said_withoutFlag_of_ne {key : String} (hbound : key ≠ bound)
    (hexclusive : key ≠ exclusive) :
    said (withoutFlag bound exclusive fields) key = said fields key := by
  rw [said, lookupField_withoutFlag_of_ne hbound hexclusive]

end

theorem DescribesInteger.withoutFlags (h : DescribesInteger fields) :
    DescribesInteger (withoutFlags fields) :=
  (h.withoutFlag (by decide) (by decide)).withoutFlag (by decide) (by decide)

/-- No flag is left. -/
theorem said_withoutFlags_ne_flag (h : DescribesInteger fields) {key : String}
    (hkey : key ∈ exclusiveKeywords) (flag : Bool) :
    said (withoutFlags fields) key ≠ .bool flag := by
  have hhigh : DescribesInteger (withoutFlag "maximum" "exclusiveMaximum" fields) :=
    h.withoutFlag (by decide) (by decide)
  rcases List.mem_pair.mp hkey with rfl | rfl
  · exact (boundEnd_withoutFlag (by decide) (hhigh.isAmount _ (by decide))
      (hhigh.isExclusive _ (by decide))).2 flag
  · rw [Schema.withoutFlags, said_withoutFlag_of_ne (by decide) (by decide)]
    exact (boundEnd_withoutFlag (by decide) (h.isAmount _ (by decide))
      (h.isExclusive _ (by decide))).2 flag

/-- Both dialects give the same bounds. -/
theorem boundsOf_withoutFlags (h : DescribesInteger fields) :
    boundsOf (withoutFlags fields) = boundsOf fields := by
  have hhigh : DescribesInteger (withoutFlag "maximum" "exclusiveMaximum" fields) :=
    h.withoutFlag (by decide) (by decide)
  have hlowEnd := (boundEnd_withoutFlag (by decide) (hhigh.isAmount "minimum" (by decide))
    (hhigh.isExclusive "exclusiveMinimum" (by decide))).1
  have hhighEnd := (boundEnd_withoutFlag (by decide) (h.isAmount "maximum" (by decide))
    (h.isExclusive "exclusiveMaximum" (by decide))).1
  have hkept (key : String) (hkey : key ∉ ["maximum", "exclusiveMaximum"]) :
      said (withoutFlag "maximum" "exclusiveMaximum" fields) key = said fields key := by
    simp only [List.mem_cons, List.not_mem_nil, or_false, not_or] at hkey
    exact said_withoutFlag_of_ne hkey.1 hkey.2
  have hmoved (key : String) (hkey : key ∉ ["minimum", "exclusiveMinimum"]) :
      said (withoutFlags fields) key =
        said (withoutFlag "maximum" "exclusiveMaximum" fields) key := by
    simp only [List.mem_cons, List.not_mem_nil, or_false, not_or] at hkey
    exact said_withoutFlag_of_ne hkey.1 hkey.2
  rw [hkept "minimum" (by decide), hkept "exclusiveMinimum" (by decide)]
    at hlowEnd
  rw [boundsOf, boundsOf, hmoved "maximum" (by decide),
    hmoved "exclusiveMaximum" (by decide), hmoved "multipleOf" (by decide),
    hkept "multipleOf" (by decide), hhighEnd, Schema.withoutFlags, hlowEnd]

end

/-- A schema of integers with bounds in either dialect is translated to a form of integers. It
accepts an integer of any size just when that meets every constraint, and hands it on as it is. The
schema with its flags rewritten into exclusive bounds is translated to the same form. -/
theorem integers_accepted_iff {document : Json} {pending : List String} {active : List Place}
    {node : Node} {name : String} {fields : List (String × Json)}
    (hnode : node.value = .obj fields) (hinteger : DescribesInteger fields)
    (hfree : node.altered = true ∨ node.place ∉ active) :
    ∃ form, translate document pending active node name = .ok form ∧
      form.kind = .integer ∧ form.shape.isSound = true ∧
      (∀ inRecord n,
        ((∃ v fit, accept inRecord form.shape (.int n) = .ok (v, fit)) ↔ MeetsBounds fields n) ∧
        ∀ v fit, accept inRecord form.shape (.int n) = .ok (v, fit) → v = .int n) ∧
      DescribesInteger (withoutFlags fields) ∧
      (∀ key ∈ exclusiveKeywords, ∀ flag, said (withoutFlags fields) key ≠ .bool flag) ∧
      translate document pending active { node with value := .obj (withoutFlags fields) } name =
        .ok form := by
  refine ⟨_, translate_of_describesInteger hnode hinteger hfree, rfl,
    isSound_boundsOf hinteger, fun inRecord n => ?_, hinteger.withoutFlags,
    fun key => said_withoutFlags_ne_flag hinteger, ?_⟩
  · rw [← brokenByWhole?_boundsOf_eq_none_iff hinteger, accept]
    cases hbroken : (boundsOf fields).brokenByWhole? n with
    | none => simp [readWhole, settle, hbroken, eq_comm]
    | some complaint => simp [readWhole, settle, hbroken, complain]
  · rw [← boundsOf_withoutFlags hinteger]
    exact translate_of_describesInteger rfl hinteger.withoutFlags hfree

/-- A schema with a flag at one end and a bound too large for a machine word. -/
def rangeFields : List (String × Json) :=
  [("type", .str "integer"), ("minimum", .int 0), ("maximum", .int (10 ^ 30)),
    ("exclusiveMaximum", .bool true), ("multipleOf", .int 5)]

example : withoutFlags rangeFields = [("type", .str "integer"), ("minimum", .int 0),
    ("multipleOf", .int 5), ("exclusiveMaximum", .int (10 ^ 30))] := rfl

theorem describesInteger_rangeFields : DescribesInteger rangeFields where
  type_eq := rfl
  isConstraint key v hv hkey := by
    have hmem := mem_of_lookupField hv
    simp only [rangeFields, List.mem_cons, Prod.mk.injEq, List.not_mem_nil, or_false] at hmem
    rcases hmem with ⟨rfl, -⟩ | ⟨rfl, rfl⟩ | ⟨rfl, rfl⟩ | ⟨rfl, rfl⟩ | ⟨rfl, rfl⟩
    · exact absurd rfl hkey
    · exact .amount (by decide) _
    · exact .amount (by decide) _
    · exact .flag (by decide) _
    · exact .amount (by decide) _

theorem meetsBounds_rangeFields_iff {n : Int} :
    MeetsBounds rangeFields n ↔ 0 ≤ n ∧ n < 10 ^ 30 ∧ 5 ∣ n := by
  constructor
  · intro h
    exact ⟨(h.minimum 0 rfl).1, (h.maximum _ rfl).2 rfl, h.multipleOf 5 rfl (by decide)⟩
  · rintro ⟨hlow, hhigh, hmultiple⟩
    refine ⟨?_, nofun, ?_, nofun, ?_⟩ <;> rintro m ⟨⟩
    · exact ⟨hlow, nofun⟩
    · exact ⟨hhigh.le, fun _ => hhigh⟩
    · exact fun _ => hmultiple

/-- The bound itself is left out, in either dialect, and what stands just below it is accepted. -/
theorem integers_accepted_iff_range :
    DescribesInteger rangeFields ∧
    ∃ form, translate .null [] [] (.ofValue (.obj rangeFields)) "Value" = .ok form ∧
      translate .null [] [] (.ofValue (.obj (withoutFlags rangeFields))) "Value" = .ok form ∧
      (∃ v fit, accept false form.shape (.int (10 ^ 30 - 5)) = .ok (v, fit)) ∧
      (∃ v fit, accept false form.shape (.int 0) = .ok (v, fit)) ∧
      (¬∃ v fit, accept false form.shape (.int (10 ^ 30)) = .ok (v, fit)) ∧
      ¬∃ v fit, accept false form.shape (.int 7) = .ok (v, fit) := by
  obtain ⟨form, hform, -, -, haccepts, -, -, hmodern⟩ := @integers_accepted_iff .null [] []
    (.ofValue (.obj rangeFields)) "Value" rangeFields rfl describesInteger_rangeFields
    (.inr List.not_mem_nil)
  refine ⟨describesInteger_rangeFields, form, hform, hmodern, ?_, ?_, ?_, ?_⟩
  · exact (haccepts false _).1.mpr (meetsBounds_rangeFields_iff.mpr (by decide))
  · exact (haccepts false _).1.mpr (meetsBounds_rangeFields_iff.mpr (by decide))
  · rw [(haccepts false _).1, meetsBounds_rangeFields_iff]
    decide
  · rw [(haccepts false _).1, meetsBounds_rangeFields_iff]
    decide

end Toolgate.Schema
