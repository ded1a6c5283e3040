import Toolgate.Proofs.Pattern.Row
import Toolgate.Proofs.Schema.Object
import Toolgate.Proofs.Text.Timestamp

/-!
# What is accepted as a date

A date schema is to take a date, or a timestamp with its offset, as a text that is handed on as it
was given. The check of timestamps takes just these. The pattern for dates, however, is tied to the
start of a text alone: it takes every text that begins with digits and dashes like a date, and so
every timestamp too, with an offset or without.

## Main definitions

* `DescribesDate`: the fields of a schema of dates

## Main statements

* `Translated.shape_of_datetime`: all forms of dates have one shape
* `accept_dateShape_iff`: what that shape accepts
* `dates_accepted_iff`: what schemas of dates accept
-/

namespace Toolgate.Schema

open Text (IsDate IsTime IsTimestamp beginsLike dateTests)

/-! ## The shape of dates -/

theorem occursIn_datePattern (s : String) :
    datePattern.pattern.occursIn s = beginsLike dateTests s.toList := by
  have hdigit := Pattern.isRow_digit
  have hdash := Pattern.isRow_single '-'
  have hrow := (hdigit.times 4).seq (hdash.seq ((hdigit.times 2).seq (hdash.seq (hdigit.times 2))))
  exact hrow.occursIn_textStart s

theorem timestampComplaint?_eq_none_iff {s : String} :
    timestampComplaint? s = none ↔ IsTimestamp s.toList := by
  rw [← Text.looksLikeTimestamp_and_isTimestamp_iff, timestampComplaint?]
  split_ifs with hlooks hreads <;> simp_all

/-- A text is checked as it is, inside records or not. -/
theorem accept_timestamp_iff {inRecord : Bool} {s : String} :
    (∃ v fit, accept inRecord .timestamp (.str s) = .ok (v, fit)) ↔ IsTimestamp s.toList := by
  rw [← timestampComplaint?_eq_none_iff]
  simp only [accept, readText, settle]
  cases timestampComplaint? s <;> simp [complain]

theorem broken?_of_pattern (p : WrittenPattern) (s : String) :
    TextLimits.broken? ⟨none, none, some p⟩ s =
      if p.pattern.occursIn s then none else some (.mismatch p.text) := by
  cases hoccurs : p.pattern.occursIn s <;>
    simp [TextLimits.broken?, Option.filter_some, hoccurs]

/-- What begins like a date is accepted, and comes back as it was given. -/
theorem accept_dateShape (inRecord : Bool) {s : String}
    (h : beginsLike dateTests s.toList = true) :
    ∃ fit, accept inRecord dateShape (.str s) = .ok (.str s, fit) := by
  have hpattern : TextLimits.broken? ⟨none, none, some datePattern⟩ s = none := by
    rw [broken?_of_pattern, occursIn_datePattern, if_pos h]
  cases hcomplaint : timestampComplaint? s with
  | none =>
    simp [dateShape, accept, acceptVariants, readText, settle, hcomplaint, Fit.isPerfect,
      Fit.ofCloseness]
  | some complaint =>
    simp [dateShape, accept, acceptVariants, readText, settle, hcomplaint, hpattern, complain,
      Fit.isPerfect, Fit.ofCloseness]

/-- What does not begin like a date is refused. -/
theorem not_accept_dateShape (inRecord : Bool) {s : String}
    (h : beginsLike dateTests s.toList = false) :
    ∃ troubles, accept inRecord dateShape (.str s) = .error troubles := by
  have hpattern : TextLimits.broken? ⟨none, none, some datePattern⟩ s =
      some (.mismatch datePattern.text) := by
    rw [broken?_of_pattern, occursIn_datePattern, if_neg (by simp [h])]
  have hcomplaint : timestampComplaint? s = some .noTimestamp := by
    simp [timestampComplaint?, Text.looksLikeTimestamp_eq, h]
  simp [dateShape, accept, acceptVariants, readText, settle, hcomplaint, hpattern, complain,
    closeVariants]

/-- Just the texts that begin like a date are accepted, whatever follows. -/
theorem accept_dateShape_iff (inRecord : Bool) {s : String} :
    (∃ v fit, accept inRecord dateShape (.str s) = .ok (v, fit)) ↔
      beginsLike dateTests s.toList = true := by
  cases hbegins : beginsLike dateTests s.toList with
  | true =>
    obtain ⟨fit, hfit⟩ := accept_dateShape inRecord hbegins
    exact iff_of_true ⟨_, fit, hfit⟩ rfl
  | false =>
    obtain ⟨troubles, htroubles⟩ := not_accept_dateShape inRecord hbegins
    simp [htroubles]

/-! ## Schemas of dates -/

theorem orNull_orNull (shape : Shape) : shape.orNull.orNull = shape.orNull := by
  cases shape <;> rfl

/-- All forms of dates have one shape, and may accept null besides. -/
theorem Translated.shape_of_datetime {form : Form} (h : Translated form)
    (hkind : form.kind = .datetime) : form.shape = dateShape ∨ form.shape = dateShape.orNull := by
  have hofMembers (name : String) (members : List (Member Form)) :
      (Form.ofMembers name members).kind ≠ .datetime := by
    unfold Form.ofMembers
    split <;> exact Kind.noConfusion
  induction h with
  | @text fields form h =>
    unfold textForm at h
    dsimp only at h
    split at h
    · obtain rfl := Except.ok.inj h
      cases hkind
    · obtain ⟨isDate, -, h⟩ := bind_eq_ok.mp h
      split at h
      · exact .inl (Except.ok.inj h ▸ rfl)
      · obtain ⟨pattern, -, h⟩ := bind_eq_ok.mp h
        obtain rfl := Except.ok.inj h
        cases hkind
  | object name => exact absurd hkind (hofMembers name _)
  | @united forms _ _ ih =>
    unfold unitedForm at hkind ⊢
    split at hkind
    · exact ih _ List.mem_cons_self hkind
    · cases hkind
  | @merged name forms _ ih =>
    unfold mergedForm at hkind ⊢
    split at hkind
    · cases hkind
    · next first rest =>
      split at hkind
      · exact absurd hkind (hofMembers name _)
      · next hobjects =>
        simp only [hobjects]
        exact ih _ List.mem_cons_self hkind
  | annotated fields _ ih =>
    rw [annotated_kind] at hkind
    rcases (annotated_spec fields _).1 with hshape | hshape
    · rw [hshape]
      exact ih hkind
    · rw [hshape]
      rcases ih hkind with hform | hform <;> rw [hform]
      · exact .inr rfl
      · exact .inr (orNull_orNull _)
  | _ => cases hkind

/-- The fields are those of a schema of dates: it is no reference, is not put together from other
schemas, lists no values, and its format is one of the two for dates. -/
structure DescribesDate (fields : List (String × Json)) : Prop where
  no_ref : ∀ ref, lookupField "$ref" fields ≠ some (.str ref)
  no_oneOf : listNamed? fields "oneOf" = none
  no_anyOf : listNamed? fields "anyOf" = none
  no_allOf : listNamed? fields "allOf" = none
  type_eq : typeNamed? (said fields "type") = some "string"
  no_enum : enumMembers (said fields "enum") = []
  format_eq : said fields "format" = .str "date" ∨ said fields "format" = .str "date-time"

theorem translate_of_describesDate {document : Json} {pending : List String} {active : List Place}
    {node : Node} {name : String} {fields : List (String × Json)}
    (hnode : node.value = .obj fields) (hdate : DescribesDate fields)
    (hfree : node.altered = true ∨ node.place ∉ active) :
    translate document pending active node name =
      .ok (annotated fields ⟨.datetime, dateShape, "", []⟩) := by
  have htext : textForm fields = .ok ⟨.datetime, dateShape, "", []⟩ := by
    rcases hdate.format_eq with hformat | hformat <;>
      simp [textForm, hdate.no_enum, hformat, isDateFormat] <;> rfl
  rw [translate_of_no_ref hnode hdate.no_ref hfree, translateFields, hdate.no_oneOf,
    hdate.no_anyOf, hdate.no_allOf, hdate.type_eq]
  simp only [htext]
  rfl

/-- Every schema of dates is translated to a form of dates. All of these accept the texts that begin
like a date, and no others, and hand them on as they are given. Dates and timestamps with an offset
are among them; of the others those are accepted wrongly whose first ten characters name no day, and
those with more behind them that is no time with its offset. The check of timestamps on its own
makes no such mistake. -/
theorem dates_accepted_iff {document : Json} {pending : List String} {active : List Place}
    {node : Node} {name : String} {form : Form}
    (h : translate document pending active node name = .ok form) :
    (∀ fields, node.value = .obj fields → DescribesDate fields →
      (node.altered = true ∨ node.place ∉ active) → form.kind = .datetime) ∧
    (form.kind = .datetime → ∀ inRecord s,
      ((∃ v fit, accept inRecord form.shape (.str s) = .ok (v, fit)) ↔
        beginsLike dateTests s.toList = true) ∧
      (∀ v fit, accept inRecord form.shape (.str s) = .ok (v, fit) → v = .str s) ∧
      (IsDate s.toList ∨ IsTimestamp s.toList → ∃ v fit,
        accept inRecord form.shape (.str s) = .ok (v, fit)) ∧
      (IsDate s.toList ∨ IsTimestamp s.toList ↔
        IsDate (s.toList.take 10) ∧ (s.toList.drop 10 = [] ∨ IsTime (s.toList.drop 10))) ∧
      ((∃ v fit, accept inRecord .timestamp (.str s) = .ok (v, fit)) ↔ IsTimestamp s.toList)) := by
  refine ⟨fun fields hnode hdate hfree => ?_, fun hkind inRecord s => ?_⟩
  · rw [translate_of_describesDate hnode hdate hfree] at h
    rw [← Except.ok.inj h, annotated_kind]
  · have haccept : accept inRecord form.shape (.str s) = accept inRecord dateShape (.str s) := by
      rcases (translated_of_translate h).shape_of_datetime hkind with hshape | hshape
      · rw [hshape]
      · rw [hshape, accept_orNull (by simp)]
    have hiff := accept_dateShape_iff inRecord (s := s)
    rw [haccept]
    refine ⟨hiff, fun v fit hfit => ?_, fun hiso => hiff.mpr ?_, Text.isDate_or_isTimestamp_iff,
      accept_timestamp_iff⟩
    · obtain ⟨fit', hfit'⟩ := accept_dateShape inRecord (hiff.mp ⟨v, fit, hfit⟩)
      exact (Prod.mk.inj (Except.ok.inj (hfit.symm.trans hfit'))).1
    · rw [← List.take_append_drop 10 s.toList]
      exact (Text.isDate_or_isTimestamp_iff.mp hiso).1.beginsLike _

/-- The fields of a schema of timestamps. -/
def momentFields : List (String × Json) :=
  [("type", .str "string"), ("format", .str "date-time")]

theorem describesDate_momentFields : DescribesDate momentFields where
  no_ref := by simp [momentFields, lookupField]
  no_oneOf := rfl
  no_anyOf := rfl
  no_allOf := rfl
  type_eq := rfl
  no_enum := rfl
  format_eq := .inr rfl

theorem translate_momentFields :
    translate .null [] [] (.ofValue (.obj momentFields)) "Value" =
      .ok ⟨.datetime, dateShape, "", []⟩ :=
  translate_of_describesDate rfl describesDate_momentFields (.inr List.not_mem_nil)

/-- A timestamp with an offset is accepted, and other texts are not. -/
theorem dates_accepted_iff_moment :
    ∃ form, translate .null [] [] (.ofValue (.obj momentFields)) "Value" = .ok form ∧
      form.kind = .datetime ∧ IsTimestamp "2024-01-01T12:00:00+02:00".toList ∧
      (∃ v fit, accept false form.shape (.str "2024-01-01T12:00:00+02:00") = .ok (v, fit) ∧
        v = .str "2024-01-01T12:00:00+02:00") ∧
      ¬∃ v fit, accept false form.shape (.str "yesterday") = .ok (v, fit) := by
  obtain ⟨hdescribed, haccepts⟩ := dates_accepted_iff translate_momentFields
  have hkind := hdescribed _ rfl describesDate_momentFields (.inr List.not_mem_nil)
  have hmoment : IsTimestamp "2024-01-01T12:00:00+02:00".toList :=
    Text.looksLikeTimestamp_and_isTimestamp_iff.mp ⟨by decide +kernel, by decide +kernel⟩
  obtain ⟨-, hsame, hiso, -, -⟩ := haccepts hkind false "2024-01-01T12:00:00+02:00"
  obtain ⟨v, fit, hfit⟩ := hiso (.inr hmoment)
  refine ⟨_, translate_momentFields, hkind, hmoment, ⟨v, fit, hfit, hsame v fit hfit⟩, ?_⟩
  rw [(haccepts hkind false "yesterday").1]
  decide +kernel

/-- A timestamp without an offset is accepted too. -/
theorem local_time_accepted :
    ∃ form, translate .null [] [] (.ofValue (.obj momentFields)) "Value" = .ok form ∧
      form.kind = .datetime ∧
      (∃ v fit, accept false form.shape (.str "2024-01-01T12:00:00") = .ok (v, fit)) ∧
      ¬IsDate "2024-01-01T12:00:00".toList ∧ ¬IsTimestamp "2024-01-01T12:00:00".toList := by
  have hbegins : beginsLike dateTests "2024-01-01T12:00:00".toList = true := by decide +kernel
  obtain ⟨fit, hfit⟩ := accept_dateShape false hbegins
  refine ⟨_, translate_momentFields, rfl, ⟨_, fit, hfit⟩, fun hdate => ?_, fun hmoment => ?_⟩
  · exact absurd hdate.length_eq (by decide +kernel)
  · have hreads := (Text.looksLikeTimestamp_and_isTimestamp_iff.mpr hmoment).2
    exact absurd hreads (by decide +kernel)

end Toolgate.Schema
