import Toolgate.Proofs.Spec.Session
import Toolgate.Proofs.Yaml.Faults

/-!
# What can come of loading a text

A load comes to a mapping or to null, or it stops with a fault. A text that is JSON never stops it,
and neither does one that is not well formed. What stops a load is well-formed YAML in which the
first of the outermost faults is a scalar that has the form of a value which does not exist; a text
of which no tree can be read at all stops it, too, for another cause than its form, such as an
escape that names a code point beyond the last one.

## Main definitions

* `WritesMapping`: the text is a mapping, in JSON or in YAML
* `Stops`: the text stops a load with a fault
* `Scene.after`: where a session stands after some steps
* `Store.KeepsMappings`: all that a store keeps are mappings

## Main statements

* `parse_cases`: what a text comes to
* `load_comes_to`: what a load in a session comes to
-/

namespace Toolgate.Spec

/-! ## Texts -/

/-- The text is a mapping, in JSON or, where it is no JSON, in YAML. -/
def WritesMapping (text : String) : Prop :=
  (∃ fields, Json.read? text = some (.obj fields)) ∨
    Json.read? text = none ∧ ∃ fields, Yaml.read text = .ok (.mapping fields)

/-- The text is no JSON, and reading it as YAML fails otherwise than by its form: no tree is read
for a cause of its own, or the tree answers for a scalar that has no value of its kind. -/
inductive Stops (text : String) : Yaml.Fault → Prop where
  | unread {fault : Yaml.Fault} (json : Json.read? text = none)
      (read : Yaml.Tree.read text = .error fault) (ne : fault ≠ .malformed) : Stops text fault
  | scalar {tree : Yaml.Tree} {e : Yaml.Failure} (json : Json.read? text = none)
      (read : Yaml.Tree.read text = .ok (some tree))
      (foremost : Yaml.foremost? tree.faults = some e) (ne : e.fault ≠ .malformed) :
      Stops text e.fault

section
variable {text : String} {fault : Yaml.Fault}

theorem yaml_read_eq_error_iff : Yaml.read text = .error fault ↔
    Yaml.Tree.read text = .error fault ∨
      ∃ tree e, Yaml.Tree.read text = .ok (some tree) ∧
        Yaml.foremost? tree.faults = some e ∧ e.fault = fault := by
  rw [Yaml.read, bind_eq_error]
  refine or_congr Iff.rfl ⟨?_, ?_⟩
  · rintro ⟨_ | tree, hread, h⟩
    · cases h
    · cases hvalue : tree.build.value with
      | ok v => simp [hvalue, Except.mapError] at h
      | error e =>
        have hforemost := Yaml.failure?_build tree
        rw [hvalue] at hforemost
        exact ⟨tree, e, hread, hforemost.symm, by simpa [hvalue, Except.mapError] using h⟩
  · rintro ⟨tree, e, hread, hforemost, rfl⟩
    refine ⟨some tree, hread, ?_⟩
    rw [← Yaml.failure?_build] at hforemost
    cases hvalue : tree.build.value with
    | ok v => simp [hvalue, Yaml.failure?] at hforemost
    | error other =>
      obtain rfl : other = e := by simpa [hvalue, Yaml.failure?] using hforemost
      simp [hvalue, Except.mapError]

/-- A text stops the reading of a description just so. -/
theorem parseLoaded_eq_error_iff : parseLoaded text = .error fault ↔ Stops text fault := by
  constructor
  · intro h
    unfold parseLoaded at h
    split at h
    · cases h
    next hjson =>
    split at h
    · cases h
    · cases h
    · next hne hyaml =>
      obtain rfl := Except.error.inj h
      rcases yaml_read_eq_error_iff.mp hyaml with htree | ⟨tree, e, htree, hforemost, rfl⟩
      · exact .unread hjson htree hne
      · exact .scalar hjson htree hforemost hne
  · intro h
    have hyaml : Json.read? text = none ∧ Yaml.read text = .error fault ∧ fault ≠ .malformed := by
      cases h with
      | unread hjson htree hne =>
        exact ⟨hjson, yaml_read_eq_error_iff.mpr (.inl htree), hne⟩
      | scalar hjson htree hforemost hne =>
        exact ⟨hjson, yaml_read_eq_error_iff.mpr (.inr ⟨_, _, htree, hforemost, rfl⟩), hne⟩
    obtain ⟨hjson, hread, hne⟩ := hyaml
    rw [parseLoaded, hjson, hread]
    cases fault with
    | malformed => exact absurd rfl hne
    | _ => rfl

theorem descriptionOf?_eq_some_iff {v document : Loaded} :
    descriptionOf? v = some document ↔ v = document ∧ ∃ fields, document = .mapping fields := by
  cases v with
  | mapping fields =>
    rw [descriptionOf?, Option.some.injEq]
    exact ⟨fun h => ⟨h, fields, h.symm⟩, And.left⟩
  | scalar | sequence =>
    refine iff_of_false nofun ?_
    rintro ⟨rfl, fields, h⟩
    cases h

/-- A text comes to a description just when it writes a mapping. -/
theorem exists_parseLoaded_iff :
    (∃ document, parseLoaded text = .ok (some document)) ↔ WritesMapping text := by
  unfold parseLoaded WritesMapping
  cases hjson : Json.read? text with
  | some v =>
    simp only [Except.ok.injEq, descriptionOf?_eq_some_iff, Option.some.injEq, reduceCtorEq,
      false_and, or_false]
    cases v <;> simp [Loaded.ofJson]
  | none =>
    cases hyaml : Yaml.read text with
    | ok v =>
      simp only [Except.ok.injEq, descriptionOf?_eq_some_iff]
      simp
    | error fault => cases fault <;> simp

/-- What a text comes to is a mapping. -/
theorem isObject_of_parse {document : Json} (h : parse text = .ok (some document)) :
    ∃ fields, document = .obj fields := by
  obtain ⟨loaded?, hloaded, hdocument⟩ := map_eq_ok.mp h
  obtain ⟨loaded, rfl, rfl⟩ := Option.map_eq_some_iff.mp hdocument
  obtain ⟨fields, rfl⟩ : ∃ fields, loaded = .mapping fields := by
    unfold parseLoaded at hloaded
    split at hloaded
    · exact (descriptionOf?_eq_some_iff.mp (Except.ok.inj hloaded)).2
    · split at hloaded
      · exact (descriptionOf?_eq_some_iff.mp (Except.ok.inj hloaded)).2
      · cases hloaded
      · cases hloaded
  exact ⟨_, rfl⟩

/-- A text comes to a mapping, to null, or to a fault. -/
theorem parse_cases (text : String) :
    WritesMapping text ∧ (∀ fault, ¬Stops text fault) ∧
        (∃ fields, parse text = .ok (some (.obj fields))) ∨
      ¬WritesMapping text ∧ (∀ fault, ¬Stops text fault) ∧ parse text = .ok none ∨
      ¬WritesMapping text ∧ ∃ fault, Stops text fault ∧ parse text = .error fault := by
  have hstops (fault : Yaml.Fault) : parseLoaded text = .error fault ↔ Stops text fault :=
    parseLoaded_eq_error_iff
  have hmapping : (∃ document, parseLoaded text = .ok (some document)) ↔ WritesMapping text :=
    exists_parseLoaded_iff
  cases hloaded : parseLoaded text with
  | error fault =>
    rw [hloaded] at hmapping hstops
    refine .inr (.inr ⟨fun h => ?_, fault, (hstops fault).mp rfl, ?_⟩)
    · obtain ⟨document, h⟩ := hmapping.mpr h
      cases h
    · rw [parse, hloaded]
      rfl
  | ok loaded? =>
    rw [hloaded] at hmapping hstops
    have hnever (fault : Yaml.Fault) : ¬Stops text fault := fun h => nomatch (hstops fault).mpr h
    cases loaded? with
    | none =>
      refine .inr (.inl ⟨fun h => ?_, hnever, ?_⟩)
      · obtain ⟨document, h⟩ := hmapping.mpr h
        cases h
      · rw [parse, hloaded]
        rfl
    | some loaded =>
      have hparse : parse text = .ok (some loaded.toJson) := by
        rw [parse, hloaded]
        rfl
      obtain ⟨fields, hfields⟩ := isObject_of_parse hparse
      exact .inl ⟨hmapping.mp ⟨loaded, rfl⟩, hnever, fields, hfields ▸ hparse⟩

end

/-! ## Sessions -/

/-- All that the store keeps are mappings. -/
def Store.KeepsMappings (store : Store) : Prop :=
  ∀ entry ∈ store.kept, ∃ fields, entry.2.document = .obj fields

namespace Scene

/-- Where a session stands after some steps. -/
def after (scene : Scene) (steps : List Step) : Scene :=
  steps.foldl (fun scene step => (scene.perform step).2) scene

theorem isObject_of_read {shelves : Shelves} {location : String} {document : Json}
    (h : shelves.read location = .ok (some document)) : ∃ fields, document = .obj fields := by
  unfold Shelves.read at h
  split at h
  · exact isObject_of_parse h
  · cases h

/-- A load comes to a mapping if it comes to anything, and leaves mappings in the store. -/
theorem keepsMappings_load {scene : Scene} (h : scene.store.KeepsMappings) (location : String) :
    (scene.load location).2.KeepsMappings ∧
      ∀ kept, (scene.load location).1.result = .ok (some kept) →
        ∃ fields, kept.document = .obj fields := by
  cases hfresh : scene.store.fresh? scene.now location with
  | some found =>
    rw [load_of_fresh hfresh]
    have hlookup : scene.store.kept.lookup location = some found := by
      unfold Store.fresh? at hfresh
      split at hfresh
      · split at hfresh
        · rwa [← Option.some.inj hfresh]
        · cases hfresh
      · cases hfresh
    obtain ⟨before, after, hkept, -⟩ := List.lookup_eq_some_iff.mp hlookup
    refine ⟨h, fun kept hresult => ?_⟩
    obtain rfl := Option.some.inj (Except.ok.inj hresult)
    exact h (location, found) (hkept ▸ List.mem_append_right _ List.mem_cons_self)
  | none =>
    rw [load_of_stale hfresh]
    cases hread : scene.shelves.read location with
    | error fault => exact ⟨h, nofun⟩
    | ok document? =>
      cases document? with
      | none => exact ⟨h, nofun⟩
      | some document =>
        have hobject := isObject_of_read hread
        refine ⟨List.forall_mem_cons.mpr ⟨hobject, h⟩, fun kept hresult => ?_⟩
        obtain rfl := Option.some.inj (Except.ok.inj hresult)
        exact hobject

theorem keepsMappings_after {scene : Scene} (h : scene.store.KeepsMappings) (steps : List Step) :
    (scene.after steps).store.KeepsMappings := by
  induction steps generalizing scene with
  | nil => exact h
  | cons step rest ih =>
    refine @ih (scene.perform step).2 ?_
    obtain ⟨-, hstore⟩ | ⟨location, -, hperform⟩ := perform_cases scene step
    · rwa [hstore]
    · rw [hperform]
      exact (keepsMappings_load h location).1

/-- A load that has to read a text comes to what the text does. -/
theorem result_of_stale {scene : Scene} {location text : String}
    (hfresh : scene.store.fresh? scene.now location = none)
    (htext : scene.shelves.text? location = some text) :
    ((∃ kept, (scene.load location).1.result = .ok (some kept)) ↔ WritesMapping text) ∧
      ((scene.load location).1.result = .ok none ↔
        ¬WritesMapping text ∧ ∀ fault, ¬Stops text fault) ∧
      ∀ fault, (scene.load location).1.result = .error fault ↔ Stops text fault := by
  have hread : scene.shelves.read location = parse text := by
    simp only [Shelves.read, htext]
  rw [load_of_stale hfresh, hread]
  rcases parse_cases text with
    ⟨hmapping, hnever, fields, hparse⟩ | ⟨hno, hnever, hparse⟩ | ⟨hno, stop, hstop, hparse⟩ <;>
    rw [hparse]
  · simp [hmapping, hnever]
  · simp [hno, hnever]
  · have hstops (fault : Yaml.Fault) : Stops text fault ↔ stop = fault := by
      rw [← parseLoaded_eq_error_iff] at hstop ⊢
      rw [hstop, Except.error.injEq]
    simp [hno, hstops]

end Scene

/-- What stops a load is the fault of a scalar, unless no tree can be read at all. -/
theorem Stops.cases {text : String} {fault : Yaml.Fault} (h : Stops text fault) :
    Json.read? text = none ∧ fault ≠ .malformed ∧ (Yaml.Tree.read text = .error fault ∨
      ∃ tree tag s, Yaml.Tree.read text = .ok (some tree) ∧ tree.Has tag s ∧
        Yaml.scalarValue tag s = .error fault) := by
  cases h with
  | unread hjson hread hne => exact ⟨hjson, hne, .inl hread⟩
  | scalar hjson hread hforemost hne =>
    obtain ⟨tag, s, hhas, hvalue⟩ :=
      Yaml.exists_scalar_of_mem_faults (List.argmin_mem hforemost) hne
    exact ⟨hjson, hne, .inr ⟨_, tag, s, hread, hhas, hvalue⟩⟩

/-- Two files with a day that does not exist: a value of the one, and further in beside a key that
is a list in the other. -/
def calendarSteps : List Step :=
  [.write "a" "v: 2024-13-45", .write "b" "\x7bv: [2024-13-45], ? [1] : 2\x7d"]

/-- Is it the fault of a month that does not exist? -/
def isMonthFault : Except Yaml.Fault (Option Loaded) → Bool
  | .error (.calendar .month) => true
  | _ => false

theorem stops_calendar : Stops "v: 2024-13-45" (.calendar .month) := by
  have hmonth : isMonthFault (parseLoaded "v: 2024-13-45") = true := by decide +kernel
  rw [← parseLoaded_eq_error_iff]
  unfold isMonthFault at hmonth
  split at hmonth
  · next heq => exact heq
  · cases hmonth

theorem parse_nested : parseLoaded "\x7bv: [2024-13-45], ? [1] : 2\x7d" = .ok none := by
  have hnone : (parseLoaded "\x7bv: [2024-13-45], ? [1] : 2\x7d").toOption.any Option.isNone =
      true := by decide +kernel
  cases hparse : parseLoaded "\x7bv: [2024-13-45], ? [1] : 2\x7d" with
  | error fault =>
    rw [hparse] at hnone
    cases hnone
  | ok document? =>
    rw [hparse] at hnone
    rw [Option.isNone_iff_eq_none.mp hnone]

end Toolgate.Spec
