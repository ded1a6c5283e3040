import Toolgate.Proofs.Schema.Dates
import Toolgate.Proofs.Schema.Keys
import Toolgate.Proofs.Schema.Members

/-!
# Checked values are checked to themselves

A check may change a value: a text becomes a number, a number a text, and the fields of an object
are put in order. What has come out of a check is not changed any more by the same check. This is
shown shape by shape. Records need fields of distinct keys for it, and fields that need not be given
must let null pass, since null is what a field may come back with that was not given. Alternatives
are left out: what one variant makes of a value may be taken by another, which changes it again. The
two variants for dates do not change a text.

## Main definitions

* `Shape.IsStable`: what comes out of a check comes out of the same check again as it is

## Main statements

* `Shape.IsStable.list`, `Shape.IsStable.table`, `Shape.isStable_record`: one statement a shape
-/

namespace Toolgate.Schema

/-- What comes out of a check against the shape comes out of the same check as it is. -/
def Shape.IsStable (shape : Shape) : Prop :=
  ∀ inRecord v w fit, accept inRecord shape v = .ok (w, fit) →
    ∃ fit, accept inRecord shape w = .ok (w, fit)

/-! ## Shapes without parts -/

theorem settle_of_settle {α : Type} {toJson : α → Json} {broken? : α → Option Complaint}
    {read : Except Complaint (α × Closeness)} {w : Json} {fit : Fit}
    (h : settle toJson broken? read = .ok (w, fit)) : ∃ x, toJson x = w ∧
      ∀ closeness, settle toJson broken? (.ok (x, closeness)) = .ok (w, .ofCloseness closeness) := by
  unfold settle at h
  split at h
  · cases h
  · next x closeness =>
    split at h
    · cases h
    · next hkept =>
      obtain ⟨rfl, -⟩ := Prod.mk.inj (Except.ok.inj h)
      exact ⟨x, rfl, fun closeness => by simp only [settle, hkept]⟩

namespace Shape

/-- A shape is stable whose values are read as what they are. -/
theorem isStable_of_settle {α : Type} {shape : Shape} {toJson : α → Json}
    {broken? : α → Option Complaint} {read : Bool → Json → Except Complaint (α × Closeness)}
    (haccept : ∀ inRecord v, accept inRecord shape v = settle toJson broken? (read inRecord v))
    (hread : ∀ inRecord x, read inRecord (toJson x) = .ok (x, .exact)) : shape.IsStable := by
  intro inRecord v w fit h
  rw [haccept] at h
  obtain ⟨x, rfl, hsettle⟩ := settle_of_settle h
  exact ⟨_, by rw [haccept, hread, hsettle]⟩

theorem isStable_anything : anything.IsStable := fun inRecord v w fit _ => ⟨_, by rw [accept]⟩

theorem isStable_text (limits : TextLimits) : (text limits).IsStable :=
  isStable_of_settle (fun inRecord v => by rw [accept]) fun _ _ => rfl

theorem isStable_whole (bounds : Bounds) : (whole bounds).IsStable :=
  isStable_of_settle (fun inRecord v => by rw [accept]) fun _ _ => rfl

theorem isStable_number (bounds : Bounds) : (number bounds).IsStable :=
  isStable_of_settle (fun inRecord v => by rw [accept]) fun _ _ => rfl

theorem isStable_truth : truth.IsStable :=
  isStable_of_settle (fun inRecord v => by rw [accept]) fun _ _ => rfl

theorem isStable_choice {members : List Json} (h : AreMembers members)
    (huniform : IsUniform members) : (choice members).IsStable := by
  intro inRecord v w fit haccept
  rw [accept] at haccept ⊢
  exact ⟨_, acceptMember_of_acceptMember h huniform haccept⟩

/-- Whichever variant takes a date hands on the text it was given, and all such texts begin like a
date. -/
theorem isStable_dateShape : dateShape.IsStable := by
  intro inRecord v w fit haccept
  suffices hdate : ∃ s, w = .str s ∧ Text.beginsLike Text.dateTests s.toList = true by
    obtain ⟨s, rfl, hbegins⟩ := hdate
    exact accept_dateShape inRecord hbegins
  rw [dateShape, accept] at haccept
  rcases exists_of_acceptVariants haccept with ⟨_, hnone⟩ | ⟨variant, hvariant, _, haccept⟩
  · cases hnone
  rcases List.mem_pair.mp hvariant with rfl | rfl
  · rw [accept] at haccept
    obtain ⟨s, rfl, hsettle⟩ := settle_of_settle haccept
    have hmoment : ∃ v fit, accept inRecord .timestamp (.str s) = .ok (v, fit) :=
      ⟨_, _, by rw [accept, readText, hsettle]⟩
    have hdate := (Text.isDate_or_isTimestamp_iff.mp (.inr (accept_timestamp_iff.mp hmoment))).1
    refine ⟨s, rfl, ?_⟩
    rw [← List.take_append_drop 10 s.toList]
    exact hdate.beginsLike _
  · rw [accept] at haccept
    obtain ⟨s, rfl, hsettle⟩ := settle_of_settle haccept
    refine ⟨s, rfl, ?_⟩
    have hkept := hsettle .exact
    rw [settle, broken?_of_pattern, occursIn_datePattern] at hkept
    by_contra hbegins
    simp [hbegins, complain] at hkept

/-! ## Shapes around others -/

theorem IsStable.optional {inner : Shape} (h : inner.IsStable) : (optional inner).IsStable := by
  intro inRecord v w fit haccept
  cases hnull : v.isNull with
  | true =>
    rw [accept, if_pos hnull] at haccept
    obtain ⟨rfl, -⟩ := Prod.mk.inj (Except.ok.inj haccept)
    exact ⟨_, by rw [accept]; rfl⟩
  | false =>
    rw [accept, if_neg (by simp [hnull])] at haccept
    have hv : v ≠ .null := by rintro rfl; cases hnull
    have hw : ¬w.isNull = true := by
      have := accept_ne_null haccept hv
      cases w <;> simp_all [Json.isNull]
    obtain ⟨fit, hagain⟩ := h inRecord v w fit haccept
    exact ⟨fit, by rw [accept, if_neg hw, hagain]⟩

theorem IsStable.orNull {shape : Shape} (h : shape.IsStable) : shape.orNull.IsStable := by
  cases shape with
  | optional inner => exact h
  | _ => exact h.optional

theorem IsStable.withDescription {shape : Shape} (h : shape.IsStable) (description : String) :
    (shape.withDescription description).IsStable := by
  unfold Shape.withDescription
  split
  · exact h
  · intro inRecord v w fit haccept
    rw [accept] at haccept ⊢
    exact h inRecord v w fit haccept

end Shape

/-! ## Lists and tables -/

section
variable {check : Json → Checked}

theorem Parts.exists_close_of_nil {α : Type} {parts : Parts α} (h : parts.troubles = [])
    (wrap : List α → Json) : ∃ fit, parts.close wrap = .ok (wrap parts.values, fit) :=
  ⟨parts.fit, if_pos (List.isEmpty_iff.mpr h)⟩

/-- Items that are checked to themselves stay as they are. -/
theorem exists_close_acceptItems {items : List Json}
    (h : ∀ v ∈ items, ∃ fit, check v = .ok (v, fit)) (n : ℕ) :
    ∃ fit, (acceptItems check n items).close .arr = .ok (.arr items, fit) := by
  suffices hparts : (acceptItems check n items).troubles = [] ∧
      (acceptItems check n items).values = items by
    have hclose := Parts.exists_close_of_nil hparts.1 .arr
    rwa [hparts.2] at hclose
  induction items generalizing n with
  | nil => exact ⟨rfl, rfl⟩
  | cons v rest ih =>
    obtain ⟨⟨fit, hfirst⟩, hrest⟩ := List.forall_mem_cons.mp h
    obtain ⟨htroubles, hvalues⟩ := ih hrest (n + 1)
    rw [acceptItems, hfirst]
    exact ⟨htroubles, congrArg (v :: ·) hvalues⟩

theorem exists_close_acceptValues {entries : List (String × Json)}
    (h : ∀ entry ∈ entries, ∃ fit, check entry.2 = .ok (entry.2, fit)) :
    ∃ fit, (acceptValues check entries).close .obj = .ok (.obj entries, fit) := by
  suffices hparts : (acceptValues check entries).troubles = [] ∧
      (acceptValues check entries).values = entries by
    have hclose := Parts.exists_close_of_nil hparts.1 .obj
    rwa [hparts.2] at hclose
  induction entries with
  | nil => exact ⟨rfl, rfl⟩
  | cons entry rest ih =>
    obtain ⟨⟨fit, hfirst⟩, hrest⟩ := List.forall_mem_cons.mp h
    obtain ⟨htroubles, hvalues⟩ := ih hrest
    rw [acceptValues, hfirst]
    exact ⟨htroubles, congrArg (entry :: ·) hvalues⟩

end

theorem Shape.IsStable.list {item : Shape} (h : item.IsStable) (hcomplains : item.Complains) :
    (Shape.list item).IsStable := by
  intro inRecord v w fit haccept
  cases v with
  | arr items =>
    rw [accept] at haccept
    obtain ⟨htroubles, rfl⟩ := Parts.of_close haccept
    have hitems := forall₂_of_acceptItems (hcomplains inRecord) htroubles
    rw [accept]
    refine exists_close_acceptItems (fun w hw => ?_) 0
    obtain ⟨v, -, fit, hfirst⟩ := exists_of_mem_of_forall₂ hitems hw
    exact h inRecord v w fit hfirst
  | _ => cases haccept

theorem Shape.IsStable.table {value : Shape} (h : value.IsStable) (hcomplains : value.Complains) :
    (Shape.table value).IsStable := by
  intro inRecord v w fit haccept
  cases v with
  | obj given =>
    rw [accept] at haccept
    obtain ⟨htroubles, rfl⟩ := Parts.of_close haccept
    have hentries := forall₂_of_acceptValues (hcomplains inRecord) htroubles
    rw [accept]
    refine exists_close_acceptValues fun entry hentry => ?_
    obtain ⟨given, -, -, fit, hfirst⟩ := exists_of_mem_of_forall₂ hentries hentry
    exact h inRecord given.2 entry.2 fit hfirst
  | _ => cases haccept

/-! ## Records -/

section
variable {key : String} {v : Json} {xs ys : List (String × Json)}

theorem setField_append_of_notMem (h : key ∉ xs.map Prod.fst) :
    setField key v (xs ++ ys) = xs ++ setField key v ys := by
  induction xs with
  | nil => rfl
  | cons x rest ih =>
    obtain ⟨k, w⟩ := x
    simp only [List.map_cons, List.mem_cons, not_or] at h
    rw [List.cons_append, setField, if_neg (by simpa using Ne.symm h.1), ih h.2, List.cons_append]

/-- Fields whose keys are not in front are merged as they would be alone. -/
theorem foldl_setField_append (h : ∀ key ∈ ys.map Prod.fst, key ∉ xs.map Prod.fst)
    (merged : List (String × Json)) :
    ys.foldl (fun merged field => setField field.1 field.2 merged) (xs ++ merged) =
      xs ++ ys.foldl (fun merged field => setField field.1 field.2 merged) merged := by
  induction ys generalizing merged with
  | nil => rfl
  | cons y rest ih =>
    rw [List.map_cons, List.forall_mem_cons] at h
    rw [List.foldl_cons, List.foldl_cons, setField_append_of_notMem h.1, ih h.2]

/-- Fields of distinct keys that are none of those behind them stay in front as they are. -/
theorem mergeFields_append (hnodup : (xs.map Prod.fst).Nodup)
    (h : ∀ key ∈ ys.map Prod.fst, key ∉ xs.map Prod.fst) :
    mergeFields (xs ++ ys) = xs ++ mergeFields ys := by
  induction xs with
  | nil => rfl
  | cons x rest ih =>
    obtain ⟨hfirst, hrest⟩ := List.nodup_cons.mp hnodup
    have hapart (key : String) (hkey : key ∈ ys.map Prod.fst) :
        key ≠ x.1 ∧ key ∉ rest.map Prod.fst := by
      simpa using h key hkey
    have hbehind : ∀ key ∈ (rest ++ ys).map Prod.fst, key ∉ [x].map Prod.fst := by
      intro key hkey
      rw [List.map_append, List.mem_append] at hkey
      rw [List.map_singleton, List.mem_singleton]
      rcases hkey with hkey | hkey
      · rintro rfl
        exact hfirst hkey
      · exact (hapart key hkey).1
    calc mergeFields (x :: rest ++ ys)
        = (rest ++ ys).foldl (fun merged field => setField field.1 field.2 merged) ([x] ++ []) := rfl
      _ = x :: mergeFields (rest ++ ys) := foldl_setField_append hbehind []
      _ = x :: (rest ++ mergeFields ys) := by rw [ih hrest fun key hkey => (hapart key hkey).2]

theorem mergeFields_of_nodup (h : (xs.map Prod.fst).Nodup) : mergeFields xs = xs :=
  foldl_setField_of_nodup h

theorem nodup_keys_mergeFields (fields : List (String × Json)) :
    ((mergeFields fields).map Prod.fst).Nodup := by
  rw [keys_mergeFields]
  exact Call.nodup_distinct _

end

section
variable {fields : List (Field Shape)} {given : List (String × Json)}
  (hfit : ∀ field ∈ fields, field.IsFit given) (hnodup : (fields.map (·.wire)).Nodup)

theorem keys_declaredFields (given : List (String × Json)) (fields : List (Field Shape)) :
    (declaredFields given fields).map Prod.fst =
      (fields.filter (·.comesOut fields given)).map (·.wire) := by
  rw [declaredFields, List.map_map]
  rfl

theorem notMem_declaredFields {key : String} (hkey : key ∈ undeclaredKeys fields given)
    (other : List (String × Json)) : key ∉ (declaredFields other fields).map Prod.fst := by
  rw [keys_declaredFields]
  intro hdeclared
  obtain ⟨field, hfield, rfl⟩ := List.mem_map.mp hdeclared
  exact (mem_undeclaredKeys.mp hkey).2 (List.mem_map_of_mem (List.mem_of_mem_filter hfield))

include hfit hnodup

/-- With fields of distinct keys the declared ones of a checked record come first, and then the
others as they were given. -/
theorem mergeFields_recordFields : mergeFields (recordFields given fields) =
    declaredFields given fields ++ mergeFields (extraFields fields given) := by
  rw [recordFields_eq hfit, mergeFields_append]
  · rw [keys_declaredFields]
    exact hnodup.sublist (List.filter_sublist.map _)
  · exact fun key hkey => notMem_declaredFields hkey given

/-- A checked record has no other undeclared fields than what was given. -/
theorem extraFields_mergeFields :
    extraFields fields (mergeFields (recordFields given fields)) =
      mergeFields (extraFields fields given) := by
  have hdeclared : (declaredFields given fields).filter
      (fun entry => !fields.any (·.wire == entry.1)) = [] := by
    refine List.filter_eq_nil_iff.mpr fun entry hentry => ?_
    have hkey := List.mem_map_of_mem (f := Prod.fst) hentry
    rw [keys_declaredFields] at hkey
    obtain ⟨field, hfield, hwire⟩ := List.mem_map.mp hkey
    simpa using ⟨field, List.mem_of_mem_filter hfield, hwire⟩
  have hundeclared : (mergeFields (extraFields fields given)).filter
      (fun entry => !fields.any (·.wire == entry.1)) = mergeFields (extraFields fields given) := by
    refine List.filter_eq_self.mpr fun entry hentry => ?_
    have hkey := List.mem_map_of_mem (f := Prod.fst) hentry
    rw [keys_mergeFields, Call.mem_distinct] at hkey
    have hfree := (mem_undeclaredKeys.mp hkey).2
    simpa using hfree
  rw [mergeFields_recordFields hfit hnodup, extraFields, List.filter_append, hdeclared, hundeclared,
    List.nil_append]

/-- The same fields come out of a checked record. -/
theorem Field.comesOut_mergeFields {field : Field Shape} (hfield : field ∈ fields) :
    field.comesOut fields (mergeFields (recordFields given fields)) =
      field.comesOut fields given := by
  have hname : field.name ∈ undeclaredKeys fields (mergeFields (recordFields given fields)) ↔
      field.name ∈ undeclaredKeys fields given := by
    rw [undeclaredKeys, extraFields_mergeFields hfit hnodup, keys_mergeFields, Call.mem_distinct]
    rfl
  rw [Bool.eq_iff_iff, Field.comesOut_iff, Field.comesOut_iff, hname, keys_recordFields hfit,
    mem_checkedKeys]
  constructor
  · rintro ((hgiven | ⟨other, hother, hwire, hmade⟩) | hmade)
    · exact .inl hgiven
    · obtain rfl := List.inj_on_of_nodup_map hnodup hother hfield hwire
      exact .inr hmade
    · exact .inr hmade
  · exact fun h => h.imp_left .inl

/-- A field that comes out of a check is found under its key, with its value. -/
theorem lookupField_of_comesOut {field : Field Shape} (hfield : field ∈ fields)
    (hout : field.comesOut fields given = true) :
    lookupField field.wire (mergeFields (recordFields given fields)) =
      some ((field.checked? given).getD .null) := by
  refine lookupField_of_mem (nodup_keys_mergeFields _) ?_
  rw [mergeFields_recordFields hfit hnodup]
  exact List.mem_append_left _
    (List.mem_map.mpr ⟨field, List.mem_filter.mpr ⟨hfield, hout⟩, rfl⟩)

end

section
variable {fields : List (Field Shape)} {given : List (String × Json)} {name : String}

/-- What a field comes out with is checked to itself. -/
theorem Field.IsFit.accept_checked {field : Field Shape} (h : field.IsFit given)
    (hstable : field.shape.IsStable) (hnull : field.required = false →
      ∃ fit, accept true field.shape .null = .ok (.null, fit)) :
    ∃ fit, accept true field.shape ((field.checked? given).getD .null) =
      .ok ((field.checked? given).getD .null, fit) := by
  cases h with
  | @given v w fit lookup accepted =>
    rw [Field.checked?_eq_some lookup accepted, Option.getD_some]
    exact hstable true v w fit accepted
  | absent lookup optional =>
    rw [Field.checked?, lookup]
    exact hnull optional

/-- A record is stable whose fields are, when they have distinct keys and those that need not be
given let null pass. -/
theorem Shape.isStable_record (hcomplains : ∀ field ∈ fields, field.shape.Complains)
    (hnodup : (fields.map (·.wire)).Nodup) (hstable : ∀ field ∈ fields, field.shape.IsStable)
    (hnull : ∀ field ∈ fields, field.required = false →
      ∃ fit, accept true field.shape .null = .ok (.null, fit)) :
    (Shape.record name fields).IsStable := by
  intro inRecord v w fit haccept
  obtain ⟨given, rfl, hfit, rfl⟩ := (accept_record_iff hcomplains).mp ⟨fit, haccept⟩
  rw [accept_record_iff hcomplains]
  set out := mergeFields (recordFields given fields) with hout
  have hvalue (field : Field Shape) (hfield : field ∈ fields) :=
    (hfit field hfield).accept_checked (hstable field hfield) (hnull field hfield)
  have hfit' : ∀ field ∈ fields, field.IsFit out := by
    intro field hfield
    cases hcomes : field.comesOut fields given with
    | true =>
      obtain ⟨fit, haccept⟩ := hvalue field hfield
      exact .given (lookupField_of_comesOut hfit hnodup hfield hcomes) haccept
    | false =>
      rw [← Field.comesOut_mergeFields hfit hnodup hfield, ← hout, ← Bool.not_eq_true,
        Field.comesOut_iff, not_or] at hcomes
      refine .absent (lookupField_eq_none_iff.mpr hcomes.1) ?_
      cases hfit field hfield with
      | given lookup accepted =>
        refine absurd ?_ hcomes.1
        rw [hout, keys_recordFields hfit, mem_checkedKeys]
        exact .inl (List.mem_map_of_mem (mem_of_lookupField lookup))
      | absent lookup optional => exact optional
  have hdeclared : declaredFields out fields = declaredFields given fields := by
    rw [declaredFields, declaredFields, List.filter_congr fun field hfield =>
      Field.comesOut_mergeFields hfit hnodup hfield]
    refine List.map_congr_left fun field hfield => ?_
    obtain ⟨hfield, hcomes⟩ := List.mem_filter.mp hfield
    obtain ⟨fit, haccept⟩ := hvalue field hfield
    rw [Field.checked?_eq_some (lookupField_of_comesOut hfit hnodup hfield hcomes) haccept,
      Option.getD_some]
  refine ⟨out, rfl, hfit', congrArg Json.obj ?_⟩
  rw [mergeFields_recordFields hfit' hnodup, hdeclared, hout, extraFields_mergeFields hfit hnodup,
    mergeFields_of_nodup (nodup_keys_mergeFields _), mergeFields_recordFields hfit hnodup]

end

end Toolgate.Schema
