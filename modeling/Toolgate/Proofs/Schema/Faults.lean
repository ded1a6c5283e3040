import Toolgate.Proofs.Schema.Document

/-!
# What stops a translation

A node has a form unless some node that its translation comes to is at fault by itself. There are
three faults: the path of a reference goes through an array by an index that cannot be read, the
format of a text is a list or an object, and the pattern of a text is refused by more than its
syntax. Everything else that is unknown or malformed is translated to something.

## Main definitions

* `AsksText`: the fields of a node that asks for a text
* `Faulty`: the faults of a node
* `Faultless`: no node that a translation comes to is at fault

## Main statements

* `fault?_eq_some_iff`: these are all faults
* `exists_form_iff`: a node has a form unless a node that is come to is at fault
-/

namespace Toolgate.Schema

/-! ## Where a fault comes from -/

namespace Network

section
variable {ν ι : Type} [DecidableEq ι] {net : Network ν ι} {nodes : List ν} {first call : Call ν ι}
  {translate : Call ν ι → String → Except Halt Form} {name : String} (hclosed : net.Closed nodes)
  (hstep : ∀ call, net.Kept nodes call → ∀ name,
    translate call name = net.step translate call name) (h : net.Kept nodes first)
include hclosed hstep h

/-- Where there is no form, one of the calls is at fault by itself. -/
theorem exists_fault_of_eq_error {halt : Halt} (herror : translate first name = .error halt) :
    ∃ depth call cause, net.Nested first depth call ∧ net.fault? call = some cause ∧
      halt = .fault cause := by
  induction hbudget : net.budget nodes first using Nat.strong_induction_on
    generalizing first name with
  | _ budget ih =>
    rcases exists_of_step_eq_error (hstep first h name ▸ herror) with
      ⟨cause, hfault, heq⟩ | ⟨callee, hcallee, called, herror⟩
    · exact ⟨0, first, cause, .first, hfault, heq⟩
    · obtain ⟨depth, call, cause, hnested, hfault⟩ := ih _ (hbudget ▸ budget_lt h hcallee)
        (h.of_mem_callees hclosed hcallee) herror rfl
      exact ⟨depth + 1, call, cause, hnested.head hcallee, hfault⟩

/-- Where there is a form, none of the calls is at fault by itself. -/
theorem Nested.fault?_eq_none {form : Form} (hform : translate first name = .ok form) {depth : ℕ}
    (hnested : net.Nested first depth call) : net.fault? call = none := by
  have hcall : ∃ name form, translate call name = .ok form := by
    induction hnested with
    | first => exact ⟨name, form, hform⟩
    | @callee depth call callee hnested hcallee ih =>
      obtain ⟨name, form, hform⟩ := ih
      rw [hstep _ (hnested.kept hclosed h).1] at hform
      exact (of_step_eq_ok hform).2 callee hcallee
  obtain ⟨name, form, hform⟩ := hcall
  rw [hstep _ (hnested.kept hclosed h).1] at hform
  exact (of_step_eq_ok hform).1

/-- There is a form exactly when none of the calls is at fault by itself. -/
theorem exists_eq_ok_iff : (∃ form, translate first name = .ok form) ↔
    ∀ depth call, net.Nested first depth call → net.fault? call = none := by
  constructor
  · rintro ⟨form, hform⟩ depth call hnested
    exact hnested.fault?_eq_none hclosed hstep h hform
  · intro hnone
    cases hresult : translate first name with
    | ok form => exact ⟨form, rfl⟩
    | error halt =>
      obtain ⟨depth, call, cause, hnested, hfault, -⟩ :=
        exists_fault_of_eq_error hclosed hstep h hresult
      rw [hnone depth call hnested] at hfault
      cases hfault

end

end Network

/-! ## The faults of a node -/

/-- The node of a call asks for a text without listing its members, and its keywords are carried
out: it is no reference, and not a node that is being translated already. -/
structure AsksText (call : Call Node Place) (fields : List (String × Json)) : Prop where
  value : call.toNode.value = .obj fields
  no_ref : ∀ ref, lookupField "$ref" fields ≠ some (.str ref)
  free : call.noted = none → call.node.place ∉ call.active
  no_oneOf : listNamed? fields "oneOf" = none
  no_anyOf : listNamed? fields "anyOf" = none
  no_allOf : listNamed? fields "allOf" = none
  type_eq : typeNamed? (said fields "type") = some "string"
  no_members : enumMembers (said fields "enum") = []

/-- The faults of a node of a document. -/
inductive Faulty (document : Json) (call : Call Node Place) : TranslationError → Prop where
  /-- It is a reference that is not being followed, and its path cannot be read. -/
  | pointer {fields : List (String × Json)} {ref : String} {cause : PointerError}
      (value : call.toNode.value = .obj fields)
      (lookup : lookupField "$ref" fields = some (.str ref)) (free : ref ∉ call.resolving)
      (unreadable : resolveRef document ref = .error cause) : Faulty document call (.pointer cause)
  /-- The format of a text is a list. -/
  | listFormat {fields : List (String × Json)} {items : List Json} (text : AsksText call fields)
      (format_eq : said fields "format" = .arr items) : Faulty document call .unusableFormat
  /-- The format of a text is an object. -/
  | objectFormat {fields entries : List (String × Json)} (text : AsksText call fields)
      (format_eq : said fields "format" = .obj entries) : Faulty document call .unusableFormat
  /-- The pattern of a text that is no date is refused by more than its syntax. -/
  | pattern {fields : List (String × Json)} {s : String} {cause : PatternError}
      (text : AsksText call fields) (no_date : isDateFormat (said fields "format") = .ok false)
      (pattern_eq : said fields "pattern" = .str s) (ne_empty : s.isEmpty = false)
      (refused : Pattern.read s = .error cause) (cause_ne : cause ≠ .malformed) :
      Faulty document call (.pattern cause)

/-- No node that the translation of a node comes to is at fault. -/
def Faultless (document : Json) (node : Node) : Prop :=
  ∀ depth call, (Network.ofDocument document).Nested (.start Place node) depth call →
    ∀ cause, ¬Faulty document call cause

section
variable {document : Json} {nodes : List Node} {refs : List String} {call : Call Node Place}
  {cause : TranslationError} {fields : List (String × Json)}

/-- The text of a node is at fault by its format or its pattern. -/
theorem textForm_eq_error_iff : textForm fields = .error cause ↔
    enumMembers (said fields "enum") = [] ∧
      (isDateFormat (said fields "format") = .error cause ∨
        isDateFormat (said fields "format") = .ok false ∧
          pattern? (said fields "pattern") = .error cause) := by
  unfold textForm
  dsimp only
  cases enumMembers (said fields "enum") with
  | cons member rest => simp
  | nil =>
    cases isDateFormat (said fields "format") with
    | error other => simp [bind, Except.bind]
    | ok isDate =>
      cases isDate with
      | true => simp [bind, Except.bind, pure, Except.pure]
      | false =>
        cases pattern? (said fields "pattern") <;> simp [bind, Except.bind, pure, Except.pure]

theorem isDateFormat_eq_error_iff {v : Json} : isDateFormat v = .error cause ↔
    cause = .unusableFormat ∧ ((∃ items, v = .arr items) ∨ ∃ entries, v = .obj entries) := by
  cases v <;> simp [isDateFormat, eq_comm]

theorem pattern?_eq_error_iff {v : Json} : pattern? v = .error cause ↔
    ∃ s refusal, v = .str s ∧ s.isEmpty = false ∧ Pattern.read s = .error refusal ∧
      refusal ≠ .malformed ∧ cause = .pattern refusal := by
  cases v with
  | str s =>
    rw [pattern?]
    constructor
    · intro h
      split_ifs at h with hempty
      split at h
      · cases h
      · cases h
      · next refusal hne hread =>
        exact ⟨s, refusal, rfl, by simpa using hempty, hread, hne,
          (Except.error.inj h).symm⟩
    · rintro ⟨_, refusal, ⟨⟩, hempty, hread, hne, rfl⟩
      rw [if_neg (by simp [hempty]), hread]
      cases refusal with
      | malformed => exact absurd rfl hne
      | _ => rfl
  | _ => simp [pattern?]

/-- A fault comes from a reference or from the keywords of a text. -/
theorem Network.fault?_eq_some {ν ι : Type} [DecidableEq ι] {net : Network ν ι}
    {call : Call ν ι} : net.fault? call = some cause ↔
      net.turn call = .settled (.error cause) ∨ net.turn call = .enter (.done (.error cause)) := by
  unfold Network.fault?
  split
  · next heq => simp [heq]
  · next heq => simp [heq]
  · next hsettled hdone => simpa using ⟨hsettled cause, hdone cause⟩

theorem Network.plan_eq_error_iff {ν ι : Type} {net : Network ν ι} {nodes : List (String × ν)} :
    net.plan nodes fields = .done (.error cause) ↔
      net.listed? nodes "oneOf" = none ∧ net.listed? nodes "anyOf" = none ∧
        net.listed? nodes "allOf" = none ∧ typeNamed? (said fields "type") = some "string" ∧
          textForm fields = .error cause := by
  unfold Network.plan
  split
  · next heq => simp [heq]
  · next heq => simp [heq]
  · next heq => simp [heq]
  next hone hany hall =>
  rw [hone, hany, hall]
  split
  case h_2 heq => simp [heq]
  case h_6 heq =>
    rw [heq, Network.listPlan]
    split <;> simp
  case h_7 heq =>
    rw [heq, Network.objectPlan]
    split
    · simp
    · split <;> simp
  case h_8 hne _ _ _ _ _ heq => simpa [heq] using fun h => absurd h hne
  all_goals next heq => simp [heq]

theorem exists_of_toNode_value (document : Json) (h : call.toNode.value = .obj fields) :
    ∃ own, call.node.value = .obj own ∧ (Network.ofDocument document).values call = fields := by
  cases hobject : call.node.value.isObject with
  | false =>
    rw [toNode_of_no_object hobject] at h
    rw [h] at hobject
    cases hobject
  | true =>
    obtain ⟨own, hvalue⟩ := exists_fields_of_isObject hobject
    refine ⟨own, hvalue, ?_⟩
    rw [toNode_value document hvalue] at h
    exact Json.obj.inj h

theorem turn_eq_settled_error_iff :
    (Network.ofDocument document).turn call = .settled (.error cause) ↔
      ∃ fields ref unreadable, call.toNode.value = .obj fields ∧
        lookupField "$ref" fields = some (.str ref) ∧ ref ∉ call.resolving ∧
          resolveRef document ref = .error unreadable ∧ cause = .pointer unreadable := by
  constructor
  · intro h
    rcases schema_cases call.node.value with
      hobject | ⟨own, ref, hvalue, href⟩ | ⟨own, hvalue, href⟩
    · rw [turn_of_no_object hobject] at h
      cases h
    · rw [turn_of_ref hvalue href] at h
      split_ifs at h with hfree
      · cases h
      split at h
      · next unreadable hresolve =>
        cases h
        exact ⟨_, ref, unreadable, toNode_value document hvalue,
          (lookupField_values document hvalue (by simp)).trans href, hfree, hresolve, rfl⟩
      · cases h
      · split_ifs at h
        cases h
    · rw [turn_of_no_ref hvalue href] at h
      split_ifs at h
      cases h
  · rintro ⟨fields, ref, unreadable, hvalue, hlookup, hfree, hresolve, rfl⟩
    obtain ⟨own, hown, rfl⟩ := exists_of_toNode_value document hvalue
    rw [lookupField_values document hown (by simp)] at hlookup
    rw [turn_of_ref hown hlookup, if_neg hfree, hresolve]

theorem turn_eq_enter_error_iff :
    (Network.ofDocument document).turn call = .enter (.done (.error cause)) ↔
      ∃ fields, AsksText call fields ∧ textForm fields = .error cause := by
  constructor
  · intro h
    rcases schema_cases call.node.value with
      hobject | ⟨own, ref, hvalue, href⟩ | ⟨own, hvalue, href⟩
    · rw [turn_of_no_object hobject] at h
      cases h
    · rw [turn_of_ref hvalue href] at h
      split_ifs at h
      split at h
      · cases h
      · cases h
      · split_ifs at h
    · rw [turn_of_no_ref hvalue href] at h
      split_ifs at h with hcircular
      obtain ⟨hone, hany, hall, htype, htext⟩ := Network.plan_eq_error_iff.mp (Turn.enter.inj h)
      rw [listed?_ofDocument (standsFor_values document hvalue) (by simp),
        Option.map_eq_none_iff] at hone hany hall
      have hlookup : lookupField "$ref" ((Network.ofDocument document).values call) =
          lookupField "$ref" own := lookupField_values document hvalue (by simp)
      exact ⟨_, ⟨toNode_value document hvalue, hlookup ▸ href, not_and.mp hcircular, hone, hany,
        hall, htype, (textForm_eq_error_iff.mp htext).1⟩, htext⟩
  · rintro ⟨fields, htext, hform⟩
    obtain ⟨own, hown, rfl⟩ := exists_of_toNode_value document htext.value
    have hlookup : lookupField "$ref" ((Network.ofDocument document).values call) =
        lookupField "$ref" own := lookupField_values document hown (by simp)
    have href := hlookup ▸ htext.no_ref
    have hstands := standsFor_values document hown
    rw [turn_of_no_ref hown href, if_neg (not_and.mpr htext.free), Network.plan_eq_error_iff.mpr]
    rw [listed?_ofDocument hstands (by simp), listed?_ofDocument hstands (by simp),
      listed?_ofDocument hstands (by simp)]
    simp only [Option.map_eq_none_iff]
    exact ⟨htext.no_oneOf, htext.no_anyOf, htext.no_allOf, htext.type_eq, hform⟩

/-- The faults of a node are the ones that stop its translation there. -/
theorem fault?_eq_some_iff :
    (Network.ofDocument document).fault? call = some cause ↔ Faulty document call cause := by
  rw [Network.fault?_eq_some, turn_eq_settled_error_iff, turn_eq_enter_error_iff]
  constructor
  · rintro (⟨fields, ref, unreadable, hvalue, hlookup, hfree, hresolve, rfl⟩ | ⟨fields, htext, h⟩)
    · exact .pointer hvalue hlookup hfree hresolve
    · obtain ⟨-, hformat | ⟨hformat, hpattern⟩⟩ := textForm_eq_error_iff.mp h
      · obtain ⟨rfl, ⟨items, heq⟩ | ⟨entries, heq⟩⟩ := isDateFormat_eq_error_iff.mp hformat
        · exact .listFormat htext heq
        · exact .objectFormat htext heq
      · obtain ⟨s, refusal, heq, hempty, hread, hne, rfl⟩ := pattern?_eq_error_iff.mp hpattern
        exact .pattern htext hformat heq hempty hread hne
  · rintro (⟨hvalue, hlookup, hfree, hresolve⟩ | ⟨htext, heq⟩ | ⟨htext, heq⟩ |
      ⟨htext, hformat, heq, hempty, hread, hne⟩)
    · exact .inl ⟨_, _, _, hvalue, hlookup, hfree, hresolve, rfl⟩
    · exact .inr ⟨_, htext, textForm_eq_error_iff.mpr
        ⟨htext.no_members, .inl (by rw [heq]; rfl)⟩⟩
    · exact .inr ⟨_, htext, textForm_eq_error_iff.mpr
        ⟨htext.no_members, .inl (by rw [heq]; rfl)⟩⟩
    · exact .inr ⟨_, htext, textForm_eq_error_iff.mpr ⟨htext.no_members, .inr ⟨hformat,
        pattern?_eq_error_iff.mpr ⟨_, _, heq, hempty, hread, hne, rfl⟩⟩⟩⟩

/-- A node of a document has a form exactly when none of the nodes that its translation comes to is
at fault. -/
theorem exists_form_iff (hcovers : Network.Covers document nodes refs) {node : Node}
    (hnode : node ∈ nodes) (name : String) :
    (∃ form, translate document refs [] node name = .ok form) ↔ Faultless document node := by
  have hresult : (∃ form, translate document refs [] node name = .ok form) ↔
      ∃ form, formAt document refs (.start Place node) name = .ok form := by
    rw [formAt_start]
    cases translate document refs [] node name <;> simp [Except.mapError]
  rw [hresult, Network.exists_eq_ok_iff hcovers.closed
    (fun _ hkept _ => formAt_eq_step hcovers hkept.node) (Network.kept_start _ hnode), Faultless]
  refine forall₃_congr fun depth call hnested => ?_
  rw [← not_exists, ← Option.not_isSome_iff_eq_none, Option.isSome_iff_exists]
  simp only [fault?_eq_some_iff]

end

end Toolgate.Schema
