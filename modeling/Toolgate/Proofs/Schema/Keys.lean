import Mathlib.Data.List.GetD
import Mathlib.Logic.Relation
import Toolgate.Proofs.Call.Template
import Toolgate.Proofs.Schema.Record

/-!
# Keys of checked objects

Out of the check of an object as a record come the declared fields that were given, in the order
they are declared in, and then the undeclared ones as they were given. The record keeps track of
what was given under inner names, so an undeclared key that is the inner name of a field that was
not given makes that field come back as null; where there is no such key, the object keeps its keys.

A check goes into the parts of a value along the shape. That each part of an accepted value is
accepted is shown for one step, and for all that is inside the value from that.

## Main definitions

* `undeclaredKeys`, `checkedKeys`: the keys of a checked object
* `KeepsKeys`: what becomes of the keys of an object
* `Check`, `Check.Part`: a check, and the checks of the parts of its value outside alternatives

## Main statements

* `keepsKeys_of_accept`: what becomes of the keys of an object accepted as a record
* `Check.Holds.inside`: all that is inside an accepted value is accepted
-/

namespace Toolgate.Schema

/-! ## Keys that are written -/

/-- Keys that are there already stay in front, and each of the others is added once. -/
theorem keys_foldl_setField (merged fields : List (String × Json)) :
    (fields.foldl (fun merged field => setField field.1 field.2 merged) merged).map Prod.fst =
      merged.map Prod.fst ++ (Call.distinct (fields.map Prod.fst)).filter
        (!(merged.map Prod.fst).contains ·) := by
  induction fields generalizing merged with
  | nil => simp [Call.distinct]
  | cons field rest ih =>
    rw [List.foldl_cons, ih, keys_setField, List.map_cons, Call.distinct, List.filter_cons,
      List.filter_filter]
    by_cases hmem : field.1 ∈ merged.map Prod.fst
    · simp only [hmem, if_true, List.contains_eq_mem, decide_true, Bool.not_true,
        Bool.false_eq_true, if_false]
      congr 1
      refine List.filter_congr fun key _ => ?_
      by_cases hkey : key = field.1
      · simp [hkey, hmem]
      · simp [hkey]
    · simp only [hmem, if_false, List.contains_eq_mem, decide_false, Bool.not_false, if_true,
        List.append_assoc, List.singleton_append]
      congr 2
      refine List.filter_congr fun key _ => Bool.eq_iff_iff.mpr ?_
      simp [and_comm]

/-- Merged fields have the keys of the fields, each at its first place. -/
theorem keys_mergeFields (fields : List (String × Json)) :
    (mergeFields fields).map Prod.fst = Call.distinct (fields.map Prod.fst) := by
  simpa [mergeFields] using keys_foldl_setField [] fields

/-! ## Fields of a checked record -/

section
variable {fields : List (Field Shape)} {given out : List (String × Json)} {field : Field Shape}
  {key : String}

/-- The keys of an object that a record does not declare, in the order they are given in. -/
def undeclaredKeys (fields : List (Field Shape)) (given : List (String × Json)) : List String :=
  (extraFields fields given).map Prod.fst

theorem undeclaredKeys_eq : undeclaredKeys fields given =
    (given.map Prod.fst).filter (· ∉ fields.map (·.wire)) := by
  rw [undeclaredKeys, extraFields, List.filter_map]
  congr 1
  refine List.filter_congr fun entry _ => Bool.eq_iff_iff.mpr ?_
  simp

theorem mem_undeclaredKeys : key ∈ undeclaredKeys fields given ↔
    key ∈ given.map Prod.fst ∧ key ∉ fields.map (·.wire) := by
  rw [undeclaredKeys_eq, List.mem_filter, decide_eq_true_iff]

/-- Does a declared field come out of a check? It does when it is given, and also when an undeclared
key is its inner name. -/
def Field.comesOut (fields : List (Field Shape)) (given : List (String × Json))
    (field : Field Shape) : Bool :=
  (given.map Prod.fst).contains field.wire || (undeclaredKeys fields given).contains field.name

theorem Field.comesOut_iff : field.comesOut fields given = true ↔
    field.wire ∈ given.map Prod.fst ∨ field.name ∈ undeclaredKeys fields given := by
  simp [Field.comesOut]

/-- The keys of a checked object: those of the declared fields that come out, in the order they are
declared in, and then the undeclared ones. -/
def checkedKeys (fields : List (Field Shape)) (given : List (String × Json)) : List String :=
  Call.distinct ((fields.filter (·.comesOut fields given)).map (·.wire) ++
    undeclaredKeys fields given)

theorem mem_checkedKeys : key ∈ checkedKeys fields given ↔
    key ∈ given.map Prod.fst ∨
      ∃ field ∈ fields, field.wire = key ∧ field.name ∈ undeclaredKeys fields given := by
  rw [checkedKeys, Call.mem_distinct, List.mem_append, mem_undeclaredKeys]
  simp only [List.mem_map, List.mem_filter, Field.comesOut_iff]
  constructor
  · rintro (⟨field, ⟨hfield, hgiven | hname⟩, rfl⟩ | ⟨hgiven, -⟩)
    · exact .inl hgiven
    · exact .inr ⟨field, hfield, rfl, hname⟩
    · exact .inl hgiven
  · rintro (hgiven | ⟨field, hfield, rfl, hname⟩)
    · by_cases hdeclared : ∃ field ∈ fields, field.wire = key
      · obtain ⟨field, hfield, rfl⟩ := hdeclared
        exact .inl ⟨field, ⟨hfield, .inl hgiven⟩, rfl⟩
      · exact .inr ⟨hgiven, by simpa using hdeclared⟩
    · exact .inl ⟨field, ⟨hfield, .inr hname⟩, rfl⟩

/-- A fit field has a value just when it is given. -/
theorem Field.IsFit.isSome_checked? (h : field.IsFit given) :
    (field.checked? given).isSome = true ↔ field.wire ∈ given.map Prod.fst := by
  cases h with
  | given lookup accepted =>
    rw [Field.checked?_eq_some lookup accepted]
    exact iff_of_true rfl (List.mem_map_of_mem (mem_of_lookupField lookup))
  | absent lookup optional =>
    rw [Field.checked?, lookup]
    exact iff_of_false Bool.false_ne_true (lookupField_eq_none_iff.mp lookup)

/-- The declared fields that come out of a check, each with its value. -/
def declaredFields (given : List (String × Json)) (fields : List (Field Shape)) :
    List (String × Json) :=
  (fields.filter (·.comesOut fields given)).map fun field =>
    (field.wire, (field.checked? given).getD .null)

/-- A checked record has the declared fields that come out, and behind them the undeclared ones. -/
theorem recordFields_eq (hfit : ∀ field ∈ fields, field.IsFit given) :
    recordFields given fields = declaredFields given fields ++ extraFields fields given := by
  rw [recordFields, declaredFields, arrangeFields_eq, List.filter_map, List.map_map]
  congr 1
  refine congrArg (List.map _) (List.filter_congr fun field hfield => Bool.eq_iff_iff.mpr ?_)
  rw [Field.comesOut_iff, ← (hfit field hfield).isSome_checked?]
  simp [undeclaredKeys]

/-- The keys of a checked record. -/
theorem keys_recordFields (hfit : ∀ field ∈ fields, field.IsFit given) :
    (mergeFields (recordFields given fields)).map Prod.fst = checkedKeys fields given := by
  rw [keys_mergeFields, checkedKeys, recordFields_eq hfit, List.map_append, declaredFields,
    List.map_map]
  rfl

/-- A key that was not given comes with null. -/
theorem mem_keys_of_mem_recordFields {v : Json} (h : (key, v) ∈ recordFields given fields)
    (hv : v ≠ .null) : key ∈ given.map Prod.fst := by
  rw [recordFields, List.mem_append, arrangeFields_eq] at h
  rcases h with h | h
  · obtain ⟨⟨field, checked?⟩, hmem, heq⟩ := List.mem_map.mp h
    obtain ⟨rfl, rfl⟩ := Prod.mk.inj heq
    obtain ⟨_, -, heq⟩ := List.mem_map.mp (List.mem_of_mem_filter hmem)
    obtain ⟨rfl, rfl⟩ := Prod.mk.inj heq
    by_contra hfree
    rw [Field.checked?, lookupField_eq_none_iff.mpr hfree] at hv
    exact hv rfl
  · exact List.mem_map_of_mem (List.mem_of_mem_filter h)

/-! ## What becomes of the keys -/

/-- What becomes of the keys of an object that is checked as a record. -/
structure KeepsKeys (fields : List (Field Shape)) (given out : List (String × Json)) : Prop where
  /-- The keys that come out, in order. -/
  keys_eq : out.map Prod.fst = checkedKeys fields given
  /-- Just the given keys come out, unless an undeclared one is the inner name of a field that is
  not given. -/
  kept_iff : (∀ key, key ∈ out.map Prod.fst ↔ key ∈ given.map Prod.fst) ↔
    ∀ field ∈ fields, field.wire ∉ given.map Prod.fst → field.name ∉ undeclaredKeys fields given
  /-- Then the declared ones come first, as they are declared, and then the others, as given. -/
  keys_eq_of_kept : (∀ key, key ∈ out.map Prod.fst ↔ key ∈ given.map Prod.fst) →
    out.map Prod.fst = Call.distinct
      ((fields.map (·.wire)).filter (· ∈ given.map Prod.fst) ++
        (given.map Prod.fst).filter (· ∉ fields.map (·.wire)))
  /-- A key that was not given comes with null. -/
  null : ∀ key v, lookupField key out = some v → key ∉ given.map Prod.fst → v = .null

theorem keepsKeys_of_isFit (hfit : ∀ field ∈ fields, field.IsFit given) :
    KeepsKeys fields given (mergeFields (recordFields given fields)) := by
  have hkept : (∀ key, key ∈ checkedKeys fields given ↔ key ∈ given.map Prod.fst) ↔
      ∀ field ∈ fields, field.wire ∉ given.map Prod.fst →
        field.name ∉ undeclaredKeys fields given := by
    simp only [mem_checkedKeys]
    constructor
    · intro h field hfield hfree hname
      exact hfree ((h field.wire).mp (.inr ⟨field, hfield, rfl, hname⟩))
    · intro h key
      refine ⟨fun hkey => hkey.elim id ?_, .inl⟩
      rintro ⟨field, hfield, rfl, hname⟩
      by_contra hfree
      exact h field hfield hfree hname
  refine ⟨keys_recordFields hfit, ?_, ?_, fun key v hlookup hfree => ?_⟩
  · rwa [keys_recordFields hfit]
  · rw [keys_recordFields hfit]
    intro hexact
    have hcomesOut : (fields.filter (·.comesOut fields given)).map (·.wire) =
        (fields.map (·.wire)).filter (· ∈ given.map Prod.fst) := by
      rw [List.filter_map]
      refine congrArg (List.map _) (List.filter_congr fun field hfield => Bool.eq_iff_iff.mpr ?_)
      have := hkept.mp hexact field hfield
      simp only [Field.comesOut_iff, Function.comp_apply, decide_eq_true_eq]
      tauto
    rw [checkedKeys, hcomesOut, undeclaredKeys_eq]
  · rw [lookupField_mergeFields] at hlookup
    have hmem := List.mem_reverse.mp (mem_of_lookupField hlookup)
    by_contra hv
    exact hfree (mem_keys_of_mem_recordFields hmem hv)

/-- An object is accepted as a record as an object whose keys are these. -/
theorem keepsKeys_of_accept (hcomplains : ∀ field ∈ fields, field.shape.Complains)
    {inRecord : Bool} {name : String} {v w : Json} {fit : Fit}
    (h : accept inRecord (.record name fields) v = .ok (w, fit)) :
    ∃ given out, v = .obj given ∧ w = .obj out ∧ KeepsKeys fields given out := by
  obtain ⟨given, hgiven, hfit, hout⟩ := (accept_record_iff hcomplains).mp ⟨fit, h⟩
  exact ⟨given, _, hgiven, hout, keepsKeys_of_isFit hfit⟩

end

/-! ## Parts of checked values -/

/-- A check: a value that is given, the shape it is checked against, and what it comes out as. -/
structure Check where
  shape : Shape
  given : Json
  checked : Json

namespace Check

/-- One check is of a part of the value of another. What is checked against alternatives has no
parts. -/
inductive Part : Check → Check → Prop where
  | item {item : Shape} {given checked : List Json} {v w : Json} (n : Nat)
      (hv : given[n]? = some v) (hw : checked[n]? = some w) :
      Part ⟨.list item, .arr given, .arr checked⟩ ⟨item, v, w⟩
  | value {value : Shape} {given checked : List (String × Json)} {v w : String × Json} (n : Nat)
      (hv : given[n]? = some v) (hw : checked[n]? = some w) :
      Part ⟨.table value, .obj given, .obj checked⟩ ⟨value, v.2, w.2⟩
  /-- Of several fields with one key the last one counts. -/
  | field {name key : String} {fields : List (Field Shape)} {field : Field Shape}
      {given checked : List (String × Json)} {v w : Json}
      (last : fields.reverse.find? (·.wire == key) = some field)
      (hv : lookupField key given = some v) (hw : lookupField key checked = some w) :
      Part ⟨.record name fields, .obj given, .obj checked⟩ ⟨field.shape, v, w⟩
  | optional {inner : Shape} {v w : Json} (hv : v ≠ .null) :
      Part ⟨.optional inner, v, w⟩ ⟨inner, v, w⟩
  | described {text : String} {inner : Shape} {v w : Json} :
      Part ⟨.described text inner, v, w⟩ ⟨inner, v, w⟩

/-- A check of the value itself or of something inside it, outside alternatives. -/
def Inside : Check → Check → Prop :=
  Relation.ReflTransGen Part

/-- The value is accepted, and comes out as it is said to. -/
structure Holds (check : Check) : Prop where
  proper : check.shape.IsProper
  accepted : ∃ inRecord fit, accept inRecord check.shape check.given = .ok (check.checked, fit)

end Check

/-! ### One step inside -/

section
variable {α : Type} {step : Step} {wrap : Json → α} {head : Checked} {rest : Parts α}

/-- Without troubles the first part was accepted, and there are none with the others. -/
theorem Parts.exists_of_cons (hhead : head ≠ .error [])
    (h : (Parts.cons step wrap head rest).troubles = []) :
    ∃ w fit, head = .ok (w, fit) ∧ rest.troubles = [] ∧
      (Parts.cons step wrap head rest).values = wrap w :: rest.values := by
  cases head with
  | error troubles =>
    simp only [Parts.cons, List.append_eq_nil_iff, List.map_eq_nil_iff] at h
    exact absurd (congrArg _ h.1) hhead
  | ok found => exact ⟨found.1, found.2, rfl, h, rfl⟩

theorem Parts.of_close {parts : Parts α} {close : List α → Json} {w : Json} {fit : Fit}
    (h : parts.close close = .ok (w, fit)) : parts.troubles = [] ∧ w = close parts.values := by
  unfold Parts.close at h
  split at h
  · next hnone => exact ⟨by simpa using hnone, (Prod.mk.inj (Except.ok.inj h)).1.symm⟩
  · cases h

end

section
variable {check : Json → Checked} (hcheck : ∀ v, check v ≠ .error [])

include hcheck in
/-- Without troubles each item was accepted. -/
theorem forall₂_of_acceptItems {items : List Json} {n : Nat}
    (h : (acceptItems check n items).troubles = []) :
    List.Forall₂ (fun v w => ∃ fit, check v = .ok (w, fit)) items
      (acceptItems check n items).values := by
  induction items generalizing n with
  | nil => exact .nil
  | cons v rest ih =>
    obtain ⟨w, fit, haccept, hrest, hvalues⟩ := Parts.exists_of_cons (hcheck v) h
    rw [acceptItems, hvalues]
    exact .cons ⟨fit, haccept⟩ (ih hrest)

include hcheck in
/-- Without troubles each value was accepted, and it is under its key. -/
theorem forall₂_of_acceptValues {entries : List (String × Json)}
    (h : (acceptValues check entries).troubles = []) :
    List.Forall₂ (fun v w => v.1 = w.1 ∧ ∃ fit, check v.2 = .ok (w.2, fit)) entries
      (acceptValues check entries).values := by
  induction entries with
  | nil => exact .nil
  | cons entry rest ih =>
    obtain ⟨w, fit, haccept, hrest, hvalues⟩ := Parts.exists_of_cons (hcheck entry.2) h
    rw [acceptValues, hvalues]
    exact .cons ⟨rfl, fit, haccept⟩ (ih hrest)

end

theorem getElem?_of_forall₂ {α β : Type} {R : α → β → Prop} {xs : List α} {ys : List β}
    (h : List.Forall₂ R xs ys) {n : Nat} {x : α} {y : β} (hx : xs[n]? = some x)
    (hy : ys[n]? = some y) : R x y := by
  induction h generalizing n with
  | nil => simp at hx
  | cons hhead _ ih =>
    cases n with
    | zero =>
      obtain rfl := Option.some.inj hx
      obtain rfl := Option.some.inj hy
      exact hhead
    | succ n => exact ih hx hy

namespace Check

/-- A part of an accepted value is accepted, and comes out as that part of what the value comes out
as. -/
theorem Part.holds {whole part : Check} (h : Part whole part) (hwhole : whole.Holds) :
    part.Holds := by
  obtain ⟨hproper, inRecord, fit, haccept⟩ := hwhole
  cases h with
  | @item item given checked v w n hv hw =>
    have hitem := hproper.of_list
    rw [accept] at haccept
    obtain ⟨htroubles, hvalues⟩ := Parts.of_close haccept
    obtain rfl := Json.arr.inj hvalues
    have hall := forall₂_of_acceptItems (hitem.complains_self inRecord) htroubles
    exact ⟨hitem, inRecord, getElem?_of_forall₂ hall hv hw⟩
  | @value value given checked v w n hv hw =>
    have hvalue := hproper.of_table
    rw [accept] at haccept
    obtain ⟨htroubles, hvalues⟩ := Parts.of_close haccept
    obtain rfl := Json.obj.inj hvalues
    have hall := forall₂_of_acceptValues (hvalue.complains_self inRecord) htroubles
    exact ⟨hvalue, inRecord, (getElem?_of_forall₂ hall hv hw).2⟩
  | @field name key fields field given checked v w last hv hw =>
    have hfields := hproper.of_record
    have hcomplains := fun field hfield => (hfields field hfield).complains_self
    obtain ⟨_, heq, hfit, hchecked⟩ := (accept_record_iff hcomplains).mp ⟨fit, haccept⟩
    obtain rfl := Json.obj.inj heq
    obtain rfl := Json.obj.inj hchecked
    obtain ⟨u, fit, hfield, hu⟩ := lookupField_recordFields_of_last hfit last hv
    obtain rfl := Option.some.inj (hw.symm.trans hu)
    exact ⟨hfields field (List.mem_reverse.mp (List.mem_of_find?_eq_some last)), true, fit, hfield⟩
  | @optional inner v w hv =>
    have hnull : ¬v.isNull = true := by
      cases v <;> simp_all [Json.isNull]
    rw [accept, if_neg hnull] at haccept
    exact ⟨hproper.of_optional, inRecord, fit, haccept⟩
  | @described text inner v w =>
    rw [accept] at haccept
    exact ⟨hproper.of_described, inRecord, fit, haccept⟩

/-- All that is inside an accepted value is accepted. -/
theorem Holds.inside {whole part : Check} (hwhole : whole.Holds) (h : whole.Inside part) :
    part.Holds := by
  induction h with
  | refl => exact hwhole
  | tail _ hpart ih => exact hpart.holds ih

/-- Inside an accepted value every object that is checked as a record keeps its keys, as far as
records do. -/
theorem Holds.keepsKeys {whole part : Check} (hwhole : whole.Holds) (h : whole.Inside part)
    {name : String} {fields : List (Field Shape)} (hshape : part.shape = .record name fields) :
    ∃ given out, part.given = .obj given ∧ part.checked = .obj out ∧
      KeepsKeys fields given out := by
  obtain ⟨hproper, inRecord, fit, haccept⟩ := hwhole.inside h
  rw [hshape] at hproper haccept
  exact keepsKeys_of_accept (fun field hfield => (hproper.of_record field hfield).complains_self)
    haccept

end Check

end Schema

end Toolgate
