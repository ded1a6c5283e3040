import Mathlib.Tactic.SplitIfs
import Toolgate.Catalog.Operation
import Toolgate.Proofs.Call.Template
import Toolgate.Proofs.Result

/-!
# The slots of an endpoint

The names of the slots follow from what an endpoint declares: its parameters by location, the
variables of its path, and the properties of an object that is its body. A name that is declared
more than once goes to the path before the query and to the query before the body.

## Main definitions

* `Declaration`, `declarationOf`: what an endpoint declares
* `Offers`: slots that stand for a declaration

## Main statements

* `exists_offers_of_slotsOf`: the slots of an endpoint stand for what it declares
-/

namespace Toolgate.Catalog

open Schema (Form Member TranslationError)

/-! ## Slots of parameters and members -/

section
variable {own name : String} {rest claimed : List String}

/-- A claimed name at the front is passed over. -/
theorem unclaimed_cons_of_mem (h : own ∈ claimed) :
    name ∈ rest ∧ name ∉ claimed ↔ name ∈ own :: rest ∧ name ∉ claimed := by
  by_cases heq : name = own
  · simp [heq, h]
  · simp [heq]

/-- A free name at the front is taken, and is claimed for those after it. -/
theorem unclaimed_cons_of_notMem (h : own ∉ claimed) :
    name = own ∨ name ∈ rest ∧ name ∉ own :: claimed ↔ name ∈ own :: rest ∧ name ∉ claimed := by
  by_cases heq : name = own
  · simp [heq, h]
  · simp [heq]

end

/-- The parameters at a location have a slot each, apart from claimed names. -/
theorem parameterSlots_spec {source : Source} {operation : String} {origin : Origin}
    {claimed : List String} {parameters : List Node} {slots : List Slot}
    (h : parameterSlots source operation origin claimed parameters = .ok slots) :
    (∀ name, name ∈ slots.map (·.name) ↔
      name ∈ parameters.filterMap (parameterName? origin.name) ∧ name ∉ claimed) ∧
      ∀ slot ∈ slots, slot.origin = origin := by
  induction parameters generalizing claimed slots with
  | nil =>
    obtain rfl := Except.ok.inj h
    simp
  | cons parameter rest ih =>
    rw [parameterSlots] at h
    split at h
    · next hnone =>
      obtain ⟨hnames, hslots⟩ := ih h
      refine ⟨fun name => ?_, hslots⟩
      rw [hnames, List.filterMap_cons]
      cases hname : parameterName? origin.name parameter with
      | none => rfl
      | some own => exact unclaimed_cons_of_mem (by simpa [hname] using hnone)
    · next own hsome =>
      obtain ⟨hname, hfree⟩ := Option.filter_eq_some_iff.mp hsome
      split at h
      · cases h
      · next form hform =>
        obtain ⟨others, hothers, rfl⟩ := map_eq_ok.mp h
        obtain ⟨hnames, hslots⟩ := ih hothers
        refine ⟨fun name => ?_, fun slot hslot => ?_⟩
        · rw [List.map_cons, List.mem_cons, hnames, List.filterMap_cons, hname]
          exact unclaimed_cons_of_notMem (by simpa using hfree)
        · rcases List.mem_cons.mp hslot with rfl | hslot
          · rfl
          · exact hslots slot hslot

/-- A parameter with a name that is not claimed has the first slot. -/
theorem parameterSlots_cons (source : Source) (operation : String) {name : String}
    {origin : Origin} {claimed : List String} {parameter : Node} {rest : List Node} {form : Form}
    {others : List Slot}
    (hname : (parameterName? origin.name parameter).filter (!claimed.contains ·) = some name)
    (hform : source.formOrAny (parameter.get? "schema") (operation ++ "_" ++ name) = .ok form)
    (hrest : parameterSlots source operation origin (name :: claimed) rest = .ok others) :
    parameterSlots source operation origin claimed (parameter :: rest) =
      .ok (⟨name, origin, { form with description :=
        (trimmedText? (parameter.value.getD "description")).getD form.description },
          match parameter.value.getD "required" with
          | .bool b => b
          | _ => false⟩ :: others) := by
  simp only [parameterSlots, hname, hform, hrest]
  rfl

/-- Where there is no body and nothing is asked for in the path, the slots are those of the
query. -/
theorem slotsOf_of_query {source : Source} {operation : String} {e : Endpoint}
    {parameters : List Node} {slots : List Slot}
    (hparameters : parametersOf source e = .ok parameters) (hbody : bodyOf source e = .ok none)
    (hvariables : Call.variableNames e.path = [])
    (hpath : parameterSlots source operation .path [] parameters = .ok [])
    (hquery : parameterSlots source operation .query [] parameters = .ok slots) :
    slotsOf source operation e = .ok slots := by
  simp [slotsOf, pathAndQuerySlots, hparameters, hbody, hpath, hvariables, hquery, Except.map]

/-- The members of a body have a slot each, apart from claimed names, with their own form. -/
theorem memberSlots_spec (claimed : List String) (members : List (Member Form)) :
    (∀ name, name ∈ (memberSlots claimed members).map (·.name) ↔
      name ∈ members.map (·.name) ∧ name ∉ claimed) ∧
      ∀ slot ∈ memberSlots claimed members,
        slot.origin = .bodyField ∧ ∃ member ∈ members, slot.form = member.form := by
  induction members generalizing claimed with
  | nil => simp [memberSlots]
  | cons member rest ih =>
    rw [memberSlots]
    split
    · next hclaimed =>
      obtain ⟨hnames, hslots⟩ := ih claimed
      refine ⟨fun name => ?_, fun slot hslot => ?_⟩
      · rw [hnames, List.map_cons]
        exact unclaimed_cons_of_mem (by simpa using hclaimed)
      · obtain ⟨horigin, other, hother, hform⟩ := hslots slot hslot
        exact ⟨horigin, other, List.mem_cons_of_mem _ hother, hform⟩
    · next hfree =>
      obtain ⟨hnames, hslots⟩ := ih (member.name :: claimed)
      refine ⟨fun name => ?_, fun slot hslot => ?_⟩
      · rw [List.map_cons, List.map_cons, List.mem_cons, hnames]
        exact unclaimed_cons_of_notMem (by simpa using hfree)
      · rcases List.mem_cons.mp hslot with rfl | hslot
        · exact ⟨rfl, member, List.mem_cons_self, rfl⟩
        · obtain ⟨horigin, other, hother, hform⟩ := hslots slot hslot
          exact ⟨horigin, other, List.mem_cons_of_mem _ hother, hform⟩

/-! ## Declarations -/

/-- What an endpoint declares. -/
structure Declaration where
  path : String
  parameters : List Node
  /-- The form of the request body. -/
  body : Option Form

namespace Declaration

/-- The names in the path. -/
def inPath (declaration : Declaration) : List String :=
  Call.variableNames declaration.path

/-- The names of the parameters at a location. -/
def named (declaration : Declaration) (origin : Origin) : List String :=
  declaration.parameters.filterMap (parameterName? origin.name)

/-- The properties of a body that is an object. -/
def properties (declaration : Declaration) : List String :=
  match declaration.body with
  | some form => if form.isObject then form.members.map (·.name) else []
  | none => []

/-- Where a name goes that is declared, perhaps in several places. -/
def originOf? (declaration : Declaration) (name : String) : Option Origin :=
  if name ∈ declaration.inPath ∨ name ∈ declaration.named .path then some .path
  else if name ∈ declaration.named .query then some .query
  else if name ∈ declaration.properties then some .bodyField
  else none

section
variable {declaration : Declaration} {name : String}

theorem originOf?_eq_path_iff : declaration.originOf? name = some .path ↔
    name ∈ declaration.inPath ∨ name ∈ declaration.named .path := by
  unfold originOf?
  split_ifs <;> simp_all

theorem originOf?_eq_query_iff : declaration.originOf? name = some .query ↔
    name ∈ declaration.named .query ∧
      ¬(name ∈ declaration.inPath ∨ name ∈ declaration.named .path) := by
  unfold originOf?
  split_ifs <;> simp_all

theorem originOf?_eq_bodyField_iff : declaration.originOf? name = some .bodyField ↔
    name ∈ declaration.properties ∧ name ∉ declaration.named .query ∧
      ¬(name ∈ declaration.inPath ∨ name ∈ declaration.named .path) := by
  unfold originOf?
  split_ifs <;> simp_all

theorem originOf?_ne_body : declaration.originOf? name ≠ some .body := by
  unfold originOf?
  split_ifs <;> simp

end

end Declaration

/-- The form of the request body of an endpoint. -/
def bodyFormOf (source : Source) (operation : String) (e : Endpoint) :
    Except TranslationError (Option Form) :=
  match bodyOf source e with
  | .error cause => .error cause
  | .ok none => .ok none
  | .ok (some (schema, _)) => (source.form schema (operation ++ "_body")).map some

/-- What an endpoint declares whose operation has the given name. -/
def declarationOf (source : Source) (operation : String) (e : Endpoint) :
    Except TranslationError Declaration :=
  match parametersOf source e with
  | .error cause => .error cause
  | .ok parameters =>
    (bodyFormOf source operation e).map fun body => ⟨e.path, parameters, body⟩

/-- The slots stand for what is declared: each name goes where it belongs, only a body that is no
object is a slot of its own, and what is in the path without being declared has a slot for a
text. -/
structure Offers (declaration : Declaration) (slots : List Slot) : Prop where
  mem_iff {origin : Origin} (h : origin ≠ .body) (name : String) :
    name ∈ namesFrom origin slots ↔ declaration.originOf? name = some origin
  undeclared {name : String} (h : name ∈ declaration.inPath)
    (hfree : name ∉ declaration.named .path) : variableSlot name ∈ slots
  body : (∀ form ∈ declaration.body, form.isObject = true) → namesFrom .body slots = []

/-! ## Names by origin -/

section
variable {origin other : Origin} {slots : List Slot}

theorem mem_namesFrom {name : String} :
    name ∈ namesFrom origin slots ↔ ∃ slot ∈ slots, slot.origin = origin ∧ slot.name = name := by
  simp [namesFrom, and_assoc]

theorem mem_names_iff {name : String} :
    name ∈ slots.map (·.name) ↔ ∃ origin, name ∈ namesFrom origin slots := by
  simp [mem_namesFrom]

theorem namesFrom_append (origin : Origin) (slots others : List Slot) :
    namesFrom origin (slots ++ others) = namesFrom origin slots ++ namesFrom origin others := by
  simp [namesFrom]

/-- The names of slots of one origin are there under that origin and under no other. -/
theorem namesFrom_of_forall (h : ∀ slot ∈ slots, slot.origin = other) :
    namesFrom origin slots = if other = origin then slots.map (·.name) else [] := by
  split
  · next heq =>
    rw [namesFrom, List.filter_eq_self.mpr fun slot hslot => by simpa [h slot hslot] using heq]
  · next hne =>
    rw [namesFrom, List.filter_eq_nil_iff.mpr fun slot hslot => by simpa [h slot hslot] using hne,
      List.map_nil]

end

/-! ## The slots of an endpoint -/

section
variable {source : Source} {operation : String} {e : Endpoint} {slots : List Slot}

/-- The slots of an endpoint without its body. -/
theorem pathAndQuerySlots_spec (h : pathAndQuerySlots source operation e = .ok slots) :
    ∃ parameters, parametersOf source e = .ok parameters ∧
      (∀ origin name, name ∈ namesFrom origin slots ↔
        Declaration.originOf? ⟨e.path, parameters, none⟩ name = some origin) ∧
      (∀ name ∈ Call.variableNames e.path,
        name ∉ parameters.filterMap (parameterName? Origin.path.name) →
          variableSlot name ∈ slots) := by
  unfold pathAndQuerySlots at h
  split at h
  · cases h
  next parameters hparameters =>
  split at h
  · cases h
  next pathSlots hpath =>
  obtain ⟨querySlots, hquery, rfl⟩ := map_eq_ok.mp h
  obtain ⟨hpathNames, hpathSlots⟩ := parameterSlots_spec hpath
  obtain ⟨hqueryNames, hquerySlots⟩ := parameterSlots_spec hquery
  have hdeclared (name : String) : name ∈ pathSlots.map (·.name) ↔
      name ∈ parameters.filterMap (parameterName? Origin.path.name) := by
    simpa only [List.not_mem_nil, not_false_eq_true, and_true] using hpathNames name
  have hqueried (name : String) : name ∈ querySlots.map (·.name) ↔
      name ∈ parameters.filterMap (parameterName? Origin.query.name) ∧
        ¬(name ∈ Call.variableNames e.path ∨ name ∈ pathSlots.map (·.name)) := by
    rw [hqueryNames, List.mem_append]
  have hundeclared (name : String) : name ∈ (Call.variableNames e.path).filter (fun name =>
        !(pathSlots.map (·.name) ++ querySlots.map (·.name)).contains name) ↔
      name ∈ Call.variableNames e.path ∧
        ¬(name ∈ pathSlots.map (·.name) ∨ name ∈ querySlots.map (·.name)) := by
    rw [List.mem_filter, Bool.not_eq_true', ← Bool.not_eq_true, List.contains_iff_mem,
      List.mem_append]
  refine ⟨parameters, hparameters, fun origin name => ?_, fun name hname hfree => ?_⟩
  · have hvariables (names : List String) :
        ∀ slot ∈ names.map variableSlot, slot.origin = .path := by
      simp [variableSlot]
    have hnames (names : List String) : (names.map variableSlot).map (·.name) = names := by
      simp [variableSlot, Function.comp_def]
    rw [namesFrom_append, namesFrom_append, namesFrom_of_forall hpathSlots,
      namesFrom_of_forall hquerySlots, namesFrom_of_forall (hvariables _), hnames, List.mem_append,
      List.mem_append]
    -- A name that is in the path has no slot in the query, so it has one as a variable.
    cases origin with
    | path =>
      simp only [if_true, reduceCtorEq, if_false, List.not_mem_nil, or_false, hdeclared,
        hqueried, hundeclared, Declaration.originOf?_eq_path_iff]
      tauto
    | query =>
      simp only [if_true, reduceCtorEq, if_false, List.not_mem_nil, or_false, false_or, hdeclared,
        hqueried, Declaration.originOf?_eq_query_iff]
      rfl
    | bodyField =>
      simp [Declaration.originOf?_eq_bodyField_iff, Declaration.properties]
    | body => simp [Declaration.originOf?_ne_body]
  · refine List.mem_append_right _ (List.mem_map_of_mem ((hundeclared name).mpr ⟨hname, ?_⟩))
    rw [hdeclared, hqueried]
    exact fun h => h.elim hfree fun hquery => hquery.2 (.inl hname)

section
variable {path : String} {parameters : List Node}
  (h : ∀ origin name, name ∈ namesFrom origin slots ↔
    Declaration.originOf? ⟨path, parameters, none⟩ name = some origin)
include h

/-- What is declared apart from a body is of the path or of the query. -/
theorem namesFrom_eq_nil_of_no_body :
    namesFrom .bodyField slots = [] ∧ namesFrom .body slots = [] := by
  simp only [List.eq_nil_iff_forall_not_mem]
  constructor
  · intro name hname
    exact List.not_mem_nil (Declaration.originOf?_eq_bodyField_iff.mp ((h _ name).mp hname)).1
  · intro name hname
    exact Declaration.originOf?_ne_body ((h _ name).mp hname)

theorem mem_names_iff_of_no_body (name : String) : name ∈ slots.map (·.name) ↔
    name ∈ namesFrom .path slots ∨ name ∈ namesFrom .query slots := by
  obtain ⟨hbodyField, hbody⟩ := namesFrom_eq_nil_of_no_body h
  rw [mem_names_iff]
  constructor
  · rintro ⟨origin, hname⟩
    cases origin <;> simp_all
  · exact fun hname => hname.elim (⟨_, ·⟩) (⟨_, ·⟩)

/-- The slots of a body behind those of the parameters and the path. -/
theorem offers_append_bodySlots
    (hundeclared : ∀ name ∈ Call.variableNames path,
      name ∉ parameters.filterMap (parameterName? Origin.path.name) → variableSlot name ∈ slots)
    (schema : Json) (required : Bool) (form : Form) :
    Offers ⟨path, parameters, some form⟩
      (slots ++ bodySlots (slots.map (·.name)) schema required form) := by
  have hpath (name : String) : name ∈ namesFrom .path slots ↔
      Declaration.originOf? ⟨path, parameters, some form⟩ name = some .path := by
    rw [h, Declaration.originOf?_eq_path_iff, Declaration.originOf?_eq_path_iff]
    rfl
  have hquery (name : String) : name ∈ namesFrom .query slots ↔
      Declaration.originOf? ⟨path, parameters, some form⟩ name = some .query := by
    rw [h, Declaration.originOf?_eq_query_iff, Declaration.originOf?_eq_query_iff]
    rfl
  obtain ⟨hbodyField, hbody⟩ := namesFrom_eq_nil_of_no_body h
  unfold bodySlots
  split
  · next hobject =>
    have hproperties : Declaration.properties ⟨path, parameters, some form⟩ =
        form.members.map (·.name) := if_pos hobject
    obtain ⟨hnames, hslots⟩ := memberSlots_spec (slots.map (·.name)) form.members
    refine ⟨fun {origin} horigin name => ?_,
      fun hname hfree => List.mem_append_left _ (hundeclared _ hname hfree), fun _ => ?_⟩
    · rw [namesFrom_append, namesFrom_of_forall fun s hs => (hslots s hs).1]
      cases origin with
      | path => simpa using hpath name
      | query => simpa using hquery name
      | bodyField =>
        rw [hbodyField, List.nil_append, if_pos rfl, hnames, mem_names_iff_of_no_body h, hpath,
          hquery, Declaration.originOf?_eq_path_iff, Declaration.originOf?_eq_query_iff,
          Declaration.originOf?_eq_bodyField_iff, hproperties]
        tauto
      | body => exact absurd rfl horigin
    · rw [namesFrom_append, namesFrom_of_forall fun s hs => (hslots s hs).1, hbody]
      rfl
  · next hother =>
    have hproperties : Declaration.properties ⟨path, parameters, some form⟩ = [] := if_neg hother
    refine ⟨fun {origin} horigin name => ?_,
      fun hname hfree => List.mem_append_left _ (hundeclared _ hname hfree),
      fun hobject => absurd (hobject form rfl) hother⟩
    rw [namesFrom_append, namesFrom_of_forall fun _ hs => congrArg _ (List.mem_singleton.mp hs),
      if_neg (Ne.symm horigin), List.append_nil]
    cases origin with
    | path => exact hpath name
    | query => exact hquery name
    | bodyField => simp [hbodyField, Declaration.originOf?_eq_bodyField_iff, hproperties]
    | body => exact absurd rfl horigin

end

/-- The slots of an endpoint stand for what it declares. -/
theorem exists_offers_of_slotsOf (h : slotsOf source operation e = .ok slots) :
    ∃ declaration, declarationOf source operation e = .ok declaration ∧ declaration.path = e.path ∧
      Offers declaration slots := by
  unfold slotsOf at h
  split at h
  · cases h
  next others hothers =>
  obtain ⟨parameters, hparameters, hnames, hundeclared⟩ := pathAndQuerySlots_spec hothers
  split at h
  · cases h
  · next hbody =>
    obtain rfl := Except.ok.inj h
    refine ⟨⟨e.path, parameters, none⟩, ?_, rfl, fun _ name => hnames _ name,
      fun hname hfree => hundeclared _ hname hfree, fun _ => ?_⟩
    · simp only [declarationOf, hparameters, bodyFormOf, hbody]
      rfl
    · refine List.eq_nil_iff_forall_not_mem.mpr fun name hname => ?_
      exact Declaration.originOf?_ne_body ((hnames .body name).mp hname)
  · next schema required hbody =>
    obtain ⟨form, hform, rfl⟩ := map_eq_ok.mp h
    refine ⟨⟨e.path, parameters, some form⟩, ?_, rfl,
      offers_append_bodySlots hnames hundeclared _ _ _⟩
    simp only [declarationOf, hparameters, bodyFormOf, hbody, hform]
    rfl

/-- Each variable of the path has a slot. -/
theorem Offers.exists_slot {declaration : Declaration} {name : String}
    (h : Offers declaration slots) (hname : name ∈ declaration.inPath) :
    ∃ slot ∈ slots, slot.origin = .path ∧ slot.name = name := by
  refine mem_namesFrom.mp ((h.mem_iff (by simp) name).mpr ?_)
  exact Declaration.originOf?_eq_path_iff.mpr (.inl hname)

end

end Toolgate.Catalog
