import Mathlib.Data.List.Dedup
import Toolgate.Proofs.Catalog.Registration
import Toolgate.Proofs.Catalog.Slots
import Toolgate.Proofs.Schema.Object

/-!
# Distinct slots

A slot is only made for a name that no slot before it has, whatever names an endpoint declares. The
one exception is the slot for a whole body: several names are tried for it, and the last of them,
which ends in a number, is given to it unseen. Where that name is taken as well, two slots share it.

## Main definitions

* `Declaration.outside`: the names that are declared outside the body
* `Declaration.Crowds`: no name is left for a whole body
* `Arranged`: the slots of an endpoint, those of its body apart

## Main statements

* `arranged_of_slotsOf`: how the slots of an endpoint are arranged
* `nodup_slots_iff`: which compiled operations have distinct slots
-/

namespace Toolgate.Catalog

open Schema (Form Member)

/-! ## Parts of the slots -/

section
variable {source : Source} {operation : String} {slots : List Slot}

theorem nodup_names_parameterSlots {origin : Origin} {claimed : List String}
    {parameters : List Node}
    (h : parameterSlots source operation origin claimed parameters = .ok slots) :
    (slots.map (·.name)).Nodup := by
  induction parameters generalizing claimed slots with
  | nil =>
    obtain rfl := Except.ok.inj h
    exact List.nodup_nil
  | cons parameter rest ih =>
    rw [parameterSlots] at h
    split at h
    · exact ih h
    · next name _ =>
      split at h
      · cases h
      · obtain ⟨others, hothers, rfl⟩ := map_eq_ok.mp h
        refine List.nodup_cons.mpr ⟨fun hmem => ?_, ih hothers⟩
        exact (((parameterSlots_spec hothers).1 name).mp hmem).2 List.mem_cons_self

theorem nodup_names_memberSlots (claimed : List String) (members : List (Member Form)) :
    ((memberSlots claimed members).map (·.name)).Nodup := by
  induction members generalizing claimed with
  | nil => exact List.nodup_nil
  | cons member rest ih =>
    rw [memberSlots]
    split
    · exact ih claimed
    · refine List.nodup_cons.mpr ⟨fun hmem => ?_, ih (member.name :: claimed)⟩
      exact (((memberSlots_spec (member.name :: claimed) rest).1 member.name).mp hmem).2
        List.mem_cons_self

/-- What is slotted in the query was not claimed by the path, and a variable of the path has a slot
of its own only when neither has one for it. -/
theorem nodup_names_pathAndQuerySlots {e : Endpoint}
    (h : pathAndQuerySlots source operation e = .ok slots) : (slots.map (·.name)).Nodup := by
  unfold pathAndQuerySlots at h
  split at h
  · cases h
  next parameters _ =>
  split at h
  · cases h
  next pathSlots hpath =>
  obtain ⟨querySlots, hquery, rfl⟩ := map_eq_ok.mp h
  have hvariables (names : List String) : (names.map variableSlot).map (·.name) = names := by
    simp [variableSlot, Function.comp_def]
  have hnamed : (pathSlots.map (·.name) ++ querySlots.map (·.name)).Nodup := by
    refine (nodup_names_parameterSlots hpath).append (nodup_names_parameterSlots hquery) ?_
    intro name hname hqueried
    have hfree := (((parameterSlots_spec hquery).1 name).mp hqueried).2
    exact hfree (List.mem_append_right _ hname)
  rw [List.map_append, List.map_append, hvariables]
  refine hnamed.append ((Call.nodup_distinct _).filter _) ?_
  intro name hname hundeclared
  have hfree := (List.mem_filter.mp hundeclared).2
  rw [List.contains_iff_mem.mpr hname] at hfree
  cases hfree

end

/-! ## Names for a whole body -/

/-- The name of the schema that a schema refers to; empty when it refers to none. -/
def referredName (schema : Json) : String :=
  match schema.getD "$ref" with
  | .str ref => Naming.refName ref
  | _ => ""

/-- The names that are tried for a whole body before the numbered one. -/
def bodyCandidates (schema : Json) : List String :=
  [referredName schema, "body", "request_body"].filter (!·.isEmpty)

/-- The name for a whole body that is given to it unseen, with so many claimed names. -/
def numberedBody (claimed : Nat) : String :=
  "body_" ++ Decimal.natText claimed

/-- A whole body gets a claimed name only when all names that are tried are claimed, and the
numbered one as well. -/
theorem bodyArgumentName_mem_iff {schema : Json} {claimed : List String} :
    bodyArgumentName schema claimed ∈ claimed ↔
      (∀ name ∈ bodyCandidates schema, name ∈ claimed) ∧ numberedBody claimed.length ∈ claimed := by
  have hname : bodyArgumentName schema claimed =
      ((bodyCandidates schema).find? (!claimed.contains ·)).getD (numberedBody claimed.length) := by
    simp only [bodyCandidates, List.find?_filter, Bool.decide_and, Bool.decide_eq_true]
    rfl
  rw [hname]
  cases hfind : (bodyCandidates schema).find? (!claimed.contains ·) with
  | none =>
    have hclaimed : ∀ name ∈ bodyCandidates schema, name ∈ claimed := by
      simpa using hfind
    exact (and_iff_right hclaimed).symm
  | some name =>
    have hfree : name ∉ claimed := by simpa using List.find?_some hfind
    exact iff_of_false hfree fun h => hfree (h.1 name (List.mem_of_find?_eq_some hfind))

/-! ## Slots by declaration -/

namespace Declaration

/-- The names that are declared outside the body. -/
def outside (declaration : Declaration) : List String :=
  declaration.inPath ++ declaration.named .path ++ declaration.named .query

/-- No name is left for a whole body: all that are tried are declared outside the body, and so is
the numbered one, whose number is how many names these are. -/
def Crowds (declaration : Declaration) (schema : Json) : Prop :=
  (∀ name ∈ bodyCandidates schema, name ∈ declaration.outside) ∧
    numberedBody declaration.outside.dedup.length ∈ declaration.outside

theorem mem_outside {declaration : Declaration} {name : String} :
    name ∈ declaration.outside ↔ declaration.originOf? name = some .path ∨
      declaration.originOf? name = some .query := by
  rw [originOf?_eq_path_iff, originOf?_eq_query_iff, outside, List.mem_append, List.mem_append]
  tauto

end Declaration

/-- The schema is that of a body that is one argument. -/
def IsWholeBody (source : Source) (e : Endpoint) (declaration : Declaration) (schema : Node) :
    Prop :=
  (∃ required, bodyOf source e = .ok (some (schema, required))) ∧
    ∃ form, declaration.body = some form ∧ form.isObject = false

theorem IsWholeBody.unique {source : Source} {e : Endpoint} {declaration : Declaration}
    {schema other : Node} (h : IsWholeBody source e declaration schema)
    (hother : IsWholeBody source e declaration other) : other = schema := by
  obtain ⟨⟨_, hschema⟩, -⟩ := h
  obtain ⟨⟨_, hother⟩, -⟩ := hother
  cases hother.symm.trans hschema
  rfl

/-- The slots of an endpoint: distinct ones for all names that are declared outside the body, and
behind them those of the body. -/
inductive Arranged (source : Source) (e : Endpoint) (declaration : Declaration) :
    List Slot → Prop where
  | spread {slots : List Slot} (apart : ∀ schema, ¬IsWholeBody source e declaration schema)
      (nodup : (slots.map (·.name)).Nodup) (fields : ∀ slot ∈ slots, slot.origin ≠ .body) :
      Arranged source e declaration slots
  | whole {outside : List Slot} {schema : Node} {form : Form} {required : Bool}
      (whole : IsWholeBody source e declaration schema)
      (nodup : (outside.map (·.name)).Nodup)
      (mem_iff : ∀ name, name ∈ outside.map (·.name) ↔ name ∈ declaration.outside)
      (fields : ∀ slot ∈ outside, slot.origin ≠ .body) :
      Arranged source e declaration (outside ++
        [⟨bodyArgumentName schema.value (outside.map (·.name)), .body, form, required⟩])

section
variable {source : Source} {operation : String} {e : Endpoint} {slots : List Slot}

/-- The slots without the body have the names that are declared outside it. -/
theorem mem_names_pathAndQuerySlots (h : pathAndQuerySlots source operation e = .ok slots) :
    ∃ parameters, parametersOf source e = .ok parameters ∧
      (∀ slot ∈ slots, slot.origin = .path ∨ slot.origin = .query) ∧
      ∀ body name, name ∈ slots.map (·.name) ↔
        name ∈ Declaration.outside ⟨e.path, parameters, body⟩ := by
  obtain ⟨parameters, hparameters, hnames, -⟩ := pathAndQuerySlots_spec h
  have horigin {origin : Origin} {name : String} (hname : name ∈ namesFrom origin slots) :
      origin = .path ∨ origin = .query := by
    rw [hnames] at hname
    cases origin with
    | path => exact .inl rfl
    | query => exact .inr rfl
    | bodyField => exact absurd (Declaration.originOf?_eq_bodyField_iff.mp hname).1 List.not_mem_nil
    | body => exact absurd hname Declaration.originOf?_ne_body
  refine ⟨parameters, hparameters, fun slot hslot => ?_, fun body name => ?_⟩
  · exact horigin (mem_namesFrom.mpr ⟨slot, hslot, rfl, rfl⟩)
  · rw [show Declaration.outside ⟨e.path, parameters, body⟩ =
      Declaration.outside ⟨e.path, parameters, none⟩ from rfl, Declaration.mem_outside, ← hnames,
      ← hnames, mem_names_iff]
    constructor
    · rintro ⟨origin, hname⟩
      rcases horigin hname with rfl | rfl
      · exact .inl hname
      · exact .inr hname
    · exact fun hname => hname.elim (⟨_, ·⟩) (⟨_, ·⟩)

/-- The slots of an endpoint are arranged. -/
theorem arranged_of_slotsOf (h : slotsOf source operation e = .ok slots) :
    ∃ declaration, declarationOf source operation e = .ok declaration ∧ declaration.path = e.path ∧
      Arranged source e declaration slots := by
  unfold slotsOf at h
  split at h
  · cases h
  next outside houtside =>
  have hnodup := nodup_names_pathAndQuerySlots houtside
  obtain ⟨parameters, hparameters, horigins, hmem⟩ := mem_names_pathAndQuerySlots houtside
  have hfields : ∀ slot ∈ outside, slot.origin ≠ .body := fun slot hslot hbody => by
    simpa [hbody] using horigins slot hslot
  split at h
  · cases h
  · next hbody =>
    obtain rfl := Except.ok.inj h
    refine ⟨⟨e.path, parameters, none⟩, ?_, rfl, .spread ?_ hnodup hfields⟩
    · simp only [declarationOf, hparameters, bodyFormOf, hbody]
      rfl
    · rintro schema ⟨⟨required, hwhole⟩, -⟩
      simp [hbody] at hwhole
  · next schema required hbody =>
    obtain ⟨form, hform, rfl⟩ := map_eq_ok.mp h
    refine ⟨⟨e.path, parameters, some form⟩, ?_, rfl, ?_⟩
    · simp only [declarationOf, hparameters, bodyFormOf, hbody, hform]
      rfl
    unfold bodySlots
    split
    · next hobject =>
      obtain ⟨hnames, hmembers⟩ := memberSlots_spec (outside.map (·.name)) form.members
      refine .spread ?_ ?_ fun slot hslot => ?_
      · rintro _ ⟨-, other, hother, hwhole⟩
        obtain rfl := Option.some.inj hother
        simp [hobject] at hwhole
      · rw [List.map_append]
        refine hnodup.append (nodup_names_memberSlots _ _) fun name hname hmember => ?_
        exact ((hnames name).mp hmember).2 hname
      · rcases List.mem_append.mp hslot with hslot | hslot
        · exact hfields slot hslot
        · simp [(hmembers slot hslot).1]
    · next hother =>
      exact .whole ⟨⟨required, hbody⟩, form, rfl, by simpa using hother⟩ hnodup (hmem _) hfields

end

/-- Among distinct names that are those declared outside the body, a whole body gets one of them
only when no name is left for it. -/
theorem bodyArgumentName_mem_iff_crowds {declaration : Declaration} {names : List String}
    (hnodup : names.Nodup) (hmem : ∀ name, name ∈ names ↔ name ∈ declaration.outside)
    (schema : Json) : bodyArgumentName schema names ∈ names ↔ declaration.Crowds schema := by
  have hlength : names.length = declaration.outside.dedup.length := by
    refine ((List.perm_ext_iff_of_nodup hnodup (List.nodup_dedup _)).mpr fun name => ?_).length_eq
    rw [hmem, List.mem_dedup]
  rw [bodyArgumentName_mem_iff, hlength]
  simp only [hmem]
  rfl

namespace Arranged

variable {source : Source} {e : Endpoint} {declaration : Declaration} {slots : List Slot}

/-- Slots are distinct unless no name is left for a whole body. -/
theorem nodup_iff (h : Arranged source e declaration slots) : (slots.map (·.name)).Nodup ↔
    ∀ schema, IsWholeBody source e declaration schema → ¬declaration.Crowds schema.value := by
  cases h with
  | spread apart nodup fields =>
    exact iff_of_true nodup fun schema hwhole => absurd hwhole (apart schema)
  | @whole outside schema form required whole nodup mem_iff fields =>
    rw [List.map_append, List.map_singleton, List.nodup_append_comm, List.singleton_append,
      List.nodup_cons, and_iff_left nodup, bodyArgumentName_mem_iff_crowds nodup mem_iff]
    exact ⟨fun hroom _ hother => whole.unique hother ▸ hroom, fun hroom => hroom schema whole⟩

/-- The slot of a whole body has a name that is declared outside the body only when no other name
is left for it. -/
theorem name_mem_outside_iff (h : Arranged source e declaration slots) {slot : Slot}
    (hslot : slot ∈ slots) (hbody : slot.origin = .body) : slot.name ∈ declaration.outside ↔
      ∃ schema, IsWholeBody source e declaration schema ∧ declaration.Crowds schema.value := by
  cases h with
  | spread apart nodup fields => exact absurd hbody (fields slot hslot)
  | @whole outside schema form required whole nodup mem_iff fields =>
    have hlast : slot.name = bodyArgumentName schema.value (outside.map (·.name)) := by
      rcases List.mem_append.mp hslot with hslot | hslot
      · exact absurd hbody (fields slot hslot)
      · rw [List.mem_singleton.mp hslot]
    rw [hlast, ← mem_iff, bodyArgumentName_mem_iff_crowds nodup mem_iff]
    exact ⟨fun hcrowds => ⟨schema, whole, hcrowds⟩,
      fun ⟨_, hother, hcrowds⟩ => whole.unique hother ▸ hcrowds⟩

end Arranged

/-! ## Compiled operations -/

/-- The slots of a compiled operation are distinct, and its whole body, if it has one, bears no name
that is declared for the path or the query, unless all names that are tried for a whole body are
declared there. Then the whole body bears one of them. A report has no slots. -/
theorem nodup_slots_iff {options : Options} {clientUrl : String} {description : Json}
    {table : Table} {entry : String × Operation}
    (hcompile : compile options clientUrl description = .ok table)
    (hentry : entry ∈ table.operations) :
    (entry.2.slots = [] ∧ ∃ payload, entry.2.action = .report payload) ∨
      let source := Source.of (documentOf description)
      ∃ e ∈ endpoints (documentOf description), ∃ declaration,
        Operation.ofEndpoint source entry.1 e = .ok entry.2 ∧
        declarationOf source entry.1 e = .ok declaration ∧ declaration.path = e.path ∧
        ((entry.2.slots.map (·.name)).Nodup ↔ ∀ schema,
          IsWholeBody source e declaration schema → ¬declaration.Crowds schema.value) ∧
        ∀ slot ∈ entry.2.slots, slot.origin = .body → (slot.name ∈ declaration.outside ↔
          ∃ schema, IsWholeBody source e declaration schema ∧ declaration.Crowds schema.value) := by
  rcases exists_endpoint_or_reporting hcompile hentry with ⟨e, he, hop⟩ | ⟨_, payload, hreporting⟩
  · obtain ⟨hslots, -⟩ := Operation.slots_of_ofEndpoint hop
    obtain ⟨declaration, hdeclaration, hpath, harranged⟩ := arranged_of_slotsOf hslots
    exact .inr ⟨e, he, declaration, hop, hdeclaration, hpath, harranged.nodup_iff,
      fun slot hslot hbody => harranged.name_mem_outside_iff hslot hbody⟩
  · rw [hreporting]
    exact .inl ⟨rfl, payload, rfl⟩

/-! ### Notes -/

/-- The members of an operation with such parameters of the query, whose whole body is an
integer. -/
def noteOperation (names : List String) : Call.Fields :=
  [("operationId", .str "s"),
    ("parameters", .arr (names.map fun name => .obj [("name", .str name), ("in", .str "query")])),
    ("requestBody", .obj [("content", .obj [("application/json", .obj [
      ("schema", .obj [("type", .str "integer")])])])])]

/-- The description of that operation. -/
def noteDescription (names : List String) : Json :=
  soleDescription "/notes" "post" (noteOperation names)

/-- The slots of these parameters. -/
def noteQuerySlots (names : List String) : List Slot :=
  names.map fun name => ⟨name, .query, .anything "", false⟩

theorem exists_compiled_notes (names : List String) (body : String)
    (houtside : pathAndQuerySlots (.of (documentOf (noteDescription names))) "s"
      (soleEndpoint "/notes" "post" (noteOperation names)) = .ok (noteQuerySlots names))
    (hbody : bodyArgumentName (.obj [("type", .str "integer")])
      ((noteQuerySlots names).map (·.name)) = body) :
    ∃ table entry, compile {} "" (noteDescription names) = .ok table ∧
      entry ∈ table.operations ∧ entry.2.slots = noteQuerySlots names ++
        [⟨body, .body, ⟨.integer, .whole {}, "", []⟩, false⟩] := by
  have hname : (({} : Naming.Names).resolve
      (soleEndpoint "/notes" "post" (noteOperation names)).candidate).1 = "s" := by
    rw [show (soleEndpoint "/notes" "post" (noteOperation names)).candidate = "s" from rfl]
    decide +kernel
  obtain ⟨place, hschema⟩ : ∃ place, bodyOf (.of (documentOf (noteDescription names)))
      (soleEndpoint "/notes" "post" (noteOperation names)) =
        .ok (some (⟨.obj [("type", .str "integer")], place, false⟩, false)) := ⟨_, rfl⟩
  have hform (source : Source) : source.form ⟨.obj [("type", .str "integer")], place, false⟩
      ("s" ++ "_body") = .ok ⟨.integer, .whole {}, "", []⟩ :=
    Schema.translate_integerSchema List.not_mem_nil
  have hslots : slotsOf (.of (documentOf (noteDescription names))) "s"
      (soleEndpoint "/notes" "post" (noteOperation names)) = .ok (noteQuerySlots names ++
        [⟨body, .body, ⟨.integer, .whole {}, "", []⟩, false⟩]) := by
    simp only [slotsOf, houtside, hschema, hform, bodySlots, hbody]
    rfl
  obtain ⟨table, entry, hcompile, hentry, hentrySlots, -⟩ :=
    exists_compiled_sole "" (by decide) (show ({} : Options).admits _ = true from rfl) hname hslots
  exact ⟨table, entry, hcompile, hentry, hentrySlots⟩

/-- Beside a parameter that is called `body` a whole body gets another name. -/
theorem nodup_slots_iff_notes : ∃ table entry,
    compile {} "" (noteDescription ["body"]) = .ok table ∧ entry ∈ table.operations ∧
      entry.2.slots.map (·.name) = ["body", "request_body"] ∧
      (entry.2.slots.map (·.name)).Nodup := by
  obtain ⟨table, entry, hcompile, hentry, hslots⟩ :=
    exists_compiled_notes ["body"] "request_body" rfl (by decide +kernel)
  refine ⟨table, entry, hcompile, hentry, by rw [hslots]; rfl, ?_⟩
  rcases nodup_slots_iff hcompile hentry with ⟨hnone, -⟩ | ⟨e, he, declaration, -, hdeclaration,
    -, hnodup, -⟩
  · simp [hslots, noteQuerySlots] at hnone
  · rw [noteDescription, endpoints_soleDescription (by decide), List.mem_singleton] at he
    obtain ⟨parameters, hparameters, houtside⟩ := exists_eq_ok
      (x := parametersOf (.of (documentOf (noteDescription ["body"]))) e)
      (fun parameters => Declaration.outside ⟨e.path, parameters, none⟩ == ["body"])
      (by subst he; decide +kernel)
    rw [declarationOf, hparameters] at hdeclaration
    obtain ⟨form?, -, rfl⟩ := map_eq_ok.mp hdeclaration
    refine hnodup.mpr fun schema _ hcrowds => ?_
    have hclaimed := hcrowds.1 "request_body" (by simp [bodyCandidates])
    rw [show Declaration.outside ⟨e.path, parameters, form?⟩ = ["body"] from
      beq_iff_eq.mp houtside] at hclaimed
    simp at hclaimed

/-- With parameters for all names that are tried, and for the numbered one, a whole body shares its
name with a parameter. -/
theorem shared_name_of_crowded : ∃ table entry,
    compile {} "" (noteDescription ["body", "request_body", "body_3"]) = .ok table ∧
      entry ∈ table.operations ∧
      entry.2.slots.map (fun slot => (slot.name, slot.origin)) =
        [("body", .query), ("request_body", .query), ("body_3", .query), ("body_3", .body)] ∧
      ¬(entry.2.slots.map (·.name)).Nodup := by
  obtain ⟨table, entry, hcompile, hentry, hslots⟩ :=
    exists_compiled_notes ["body", "request_body", "body_3"] "body_3" rfl (by decide +kernel)
  refine ⟨table, entry, hcompile, hentry, by rw [hslots]; rfl, ?_⟩
  rw [hslots]
  decide +kernel

end Toolgate.Catalog
