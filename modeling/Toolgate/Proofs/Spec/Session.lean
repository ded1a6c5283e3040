import Mathlib.Data.Option.Basic
import Mathlib.Tactic.Common
import Toolgate.Proofs.Result
import Toolgate.Spec.Session

/-!
# What a load comes to

A description is kept for as long as it is young, counted from the time at which it was read. While
the most recent successful read of a location is young, a load of it comes to the very object of
that read; after that the location is read again. A location that holds no description is null, and
this is not kept. Where a text is well-formed YAML with a scalar that stands for no value, however,
the reading has no result but a fault.

## Main definitions

* `lastRead?`, `youngRead?`: the read that decides what a load comes to
* `IsAnswered`: does a load come to what it should?

## Main statements

* `Scene.remembers_load`: a load leaves what was read last in the store
* `Scene.exists_load_of_run`: each load of a session finds it there
* `unnumbered_run_filter`: loads of other locations make no difference
* `isAnswered_iff_of_run`: when the loads of a session come to what they should
-/

namespace Toolgate.Spec

/-! ## Reads -/

/-- The description that a location held at the time of a load. -/
def Load.document? (load : Load) : Option Json :=
  match load.reading with
  | .ok document? => document?
  | .error _ => none

/-- Is what a load read still young? -/
def Load.isYoung (read : Load) (lifetime now : Float) : Bool :=
  now - read.time < lifetime

/-- The most recent successful read of a location among past loads, the last of which comes first.
A load reads its location unless the last read of it is young by then. -/
def lastRead? (lifetime : Float) (location : String) : List Load → Option Load
  | [] => none
  | load :: past =>
    let last? := lastRead? lifetime location past
    if load.location = location ∧ load.document?.isSome ∧
        (last?.filter (·.isYoung lifetime load.time)).isNone then some load
    else last?

/-- The most recent successful read of a location, if it is young. -/
def youngRead? (lifetime now : Float) (location : String) (past : List Load) : Option Load :=
  (lastRead? lifetime location past).filter (·.isYoung lifetime now)

/-- A load that read a description, and came to an object of it. -/
structure Load.Reads (read : Load) (kept : Kept) : Prop where
  readAt : kept.readAt = read.time
  reading : read.reading = .ok (some kept.document)
  result : read.result = .ok (some kept)

/-- The object is none that one of these loads came to. -/
def IsNew (number : ℕ) (past : List Load) : Prop :=
  ∀ load ∈ past, ∀ kept, load.result = .ok (some kept) → kept.number ≠ number

/-- Does a load after others come to what it should? That is the object of the most recent
successful read, if that is young, and else what its location holds: a description, as an object of
its own, or null. -/
def IsAnswered (lifetime : Float) (past : List Load) (load : Load) : Prop :=
  match youngRead? lifetime load.time load.location past, load.document? with
  | some read, _ => ∃ kept, read.Reads kept ∧ load.result = .ok (some kept)
  | none, some document => ∃ number,
      load.result = .ok (some ⟨load.time, number, document⟩) ∧ IsNew number past
  | none, none => load.result = .ok none

theorem mem_of_lastRead?_eq_some {lifetime : Float} {location : String} {past : List Load}
    {read : Load} (h : lastRead? lifetime location past = some read) :
    read ∈ past ∧ read.location = location := by
  induction past with
  | nil => cases h
  | cons load past ih =>
    simp only [lastRead?] at h
    split at h
    · next hreads =>
      obtain rfl := Option.some.inj h
      exact ⟨List.mem_cons_self, hreads.1⟩
    · exact ⟨List.mem_cons_of_mem _ (ih h).1, (ih h).2⟩

section LastRead
variable {lifetime : Float} {location : String} {past : List Load} {load : Load}

theorem lastRead?_cons_of_ne (h : load.location ≠ location) :
    lastRead? lifetime location (load :: past) = lastRead? lifetime location past := by
  simp [lastRead?, h]

theorem lastRead?_cons_of_no_document (h : load.document? = none) :
    lastRead? lifetime location (load :: past) = lastRead? lifetime location past := by
  simp [lastRead?, h]

theorem lastRead?_cons_of_young {read : Load}
    (h : youngRead? lifetime load.time load.location past = some read) :
    lastRead? lifetime location (load :: past) = lastRead? lifetime location past := by
  by_cases hlocation : load.location = location
  · subst hlocation
    rw [youngRead?] at h
    simp [lastRead?, h]
  · exact lastRead?_cons_of_ne hlocation

theorem lastRead?_cons_self {document : Json}
    (hstale : youngRead? lifetime load.time load.location past = none)
    (hdocument : load.document? = some document) :
    lastRead? lifetime load.location (load :: past) = some load := by
  rw [youngRead?] at hstale
  simp [lastRead?, hdocument, hstale]

theorem mem_of_youngRead?_eq_some {now : Float} {read : Load}
    (h : youngRead? lifetime now location past = some read) :
    read ∈ past ∧ read.location = location ∧ now - read.time < lifetime := by
  rw [youngRead?, Option.filter_eq_some_iff] at h
  obtain ⟨hread, hyoung⟩ := h
  obtain ⟨hmem, hlocation⟩ := mem_of_lastRead?_eq_some hread
  exact ⟨hmem, hlocation, of_decide_eq_true hyoung⟩

end LastRead

/-! ## One load -/

namespace Scene

variable {scene : Scene} {location : String}

theorem load_of_fresh {kept : Kept} (h : scene.store.fresh? scene.now location = some kept) :
    scene.load location =
      (⟨location, scene.now, scene.shelves.read location, .ok (some kept)⟩, scene.store) := by
  simp only [load, Store.load, h]

theorem load_of_stale (h : scene.store.fresh? scene.now location = none) :
    scene.load location = match scene.shelves.read location with
      | .error fault => (⟨location, scene.now, .error fault, .error fault⟩, scene.store)
      | .ok none => (⟨location, scene.now, .ok none, .ok none⟩, scene.store)
      | .ok (some document) =>
        let kept : Kept := ⟨scene.now, scene.store.count, document⟩
        (⟨location, scene.now, .ok (some document), .ok (some kept)⟩,
          { scene.store with
            count := scene.store.count + 1, kept := (location, kept) :: scene.store.kept }) := by
  simp only [load, Store.load, h]
  cases scene.shelves.read location with
  | error fault => rfl
  | ok document? => cases document? <;> rfl

theorem location_load (scene : Scene) (location : String) :
    (scene.load location).1.location = location := by
  rw [load]
  split <;> rfl

theorem time_load (scene : Scene) (location : String) :
    (scene.load location).1.time = scene.now := by
  rw [load]
  split <;> rfl

theorem reading_load (scene : Scene) (location : String) :
    (scene.load location).1.reading = scene.shelves.read location := by
  rw [load]
  split <;> rfl

theorem lifetime_load (scene : Scene) (location : String) :
    (scene.load location).2.lifetime = scene.store.lifetime := by
  cases hkept : scene.store.fresh? scene.now location with
  | some kept => rw [load_of_fresh hkept]
  | none =>
    rw [load_of_stale hkept]
    split <;> rfl

end Scene

/-- A store keeps for each location what the most recent successful read of it came to, and the next
object will be another one than those before. -/
structure Store.Remembers (store : Store) (past : List Load) : Prop where
  kept (location : String) : Option.Rel Load.Reads
    (lastRead? store.lifetime location past) (store.kept.lookup location)
  number : ∀ load ∈ past, ∀ kept, load.result = .ok (some kept) → kept.number < store.count

namespace Store.Remembers

variable {store : Store} {past : List Load}

theorem empty (lifetime : Float) : Store.Remembers { lifetime } [] where
  kept location := .none
  number := by simp

/-- What the store still takes for fresh is what the last read came to, if that is young. -/
theorem fresh_cases (h : store.Remembers past) (now : Float) (location : String) :
    (∃ read kept, youngRead? store.lifetime now location past = some read ∧ read.Reads kept ∧
      store.fresh? now location = some kept) ∨
    youngRead? store.lifetime now location past = none ∧ store.fresh? now location = none := by
  have hkept := h.kept location
  unfold youngRead? Store.fresh?
  generalize lastRead? store.lifetime location past = last? at hkept ⊢
  generalize store.kept.lookup location = kept? at hkept ⊢
  cases hkept with
  | none => exact .inr ⟨rfl, rfl⟩
  | @some read kept hreads =>
    by_cases hyoung : now - read.time < store.lifetime
    · exact .inl ⟨read, kept, by simp [Load.isYoung, hyoung], hreads,
        by simp [hreads.readAt, hyoung]⟩
    · exact .inr ⟨by simp [Load.isYoung, hyoung], by simp [hreads.readAt, hyoung]⟩

theorem isNew (h : store.Remembers past) : IsNew store.count past :=
  fun load hload kept hresult => Nat.ne_of_lt (h.number load hload kept hresult)

/-- A load that reads nothing leaves the store as it is. -/
theorem cons (h : store.Remembers past) {load : Load}
    (hlast : ∀ location, lastRead? store.lifetime location (load :: past) =
      lastRead? store.lifetime location past)
    (hnumber : ∀ kept, load.result = .ok (some kept) → kept.number < store.count) :
    store.Remembers (load :: past) where
  kept location := by
    rw [hlast]
    exact h.kept location
  number := List.forall_mem_cons.mpr ⟨hnumber, h.number⟩

/-- A load that reads a description puts it in the place of the one that was read before. -/
theorem keep (h : store.Remembers past) {load : Load} {document : Json}
    (hreads : load.Reads ⟨load.time, store.count, document⟩)
    (hstale : youngRead? store.lifetime load.time load.location past = none) :
    Store.Remembers
      { store with
        count := store.count + 1
        kept := (load.location, ⟨load.time, store.count, document⟩) :: store.kept }
      (load :: past) where
  kept location := by
    by_cases hlocation : location = load.location
    · subst hlocation
      have hdocument : load.document? = some document := by simp [Load.document?, hreads.reading]
      rw [lastRead?_cons_self hstale hdocument, List.lookup_cons_self]
      exact .some hreads
    · rw [lastRead?_cons_of_ne (Ne.symm hlocation), List.lookup_cons, beq_false_of_ne hlocation]
      exact h.kept location
  number := by
    intro earlier hearlier kept hresult
    cases hearlier with
    | head =>
      obtain rfl := Option.some.inj (Except.ok.inj (hreads.result.symm.trans hresult))
      exact Nat.lt_add_one store.count
    | tail _ hpast => exact Nat.lt_succ_of_lt (h.number earlier hpast kept hresult)

end Store.Remembers

namespace Scene

variable {scene : Scene} {past : List Load}

/-- After a load the store keeps what was read last, that load among the others. -/
theorem remembers_load (h : scene.store.Remembers past) (location : String) :
    (scene.load location).2.Remembers ((scene.load location).1 :: past) := by
  obtain ⟨read, kept, hyoung, hreads, hfresh⟩ | ⟨hyoung, hfresh⟩ := h.fresh_cases scene.now location
  · rw [load_of_fresh hfresh]
    refine h.cons (fun _ => lastRead?_cons_of_young hyoung) ?_
    intro other hresult
    cases hresult
    exact h.number read (mem_of_youngRead?_eq_some hyoung).1 kept hreads.result
  · rw [load_of_stale hfresh]
    cases scene.shelves.read location with
    | error fault => exact h.cons (fun _ => lastRead?_cons_of_no_document rfl) (by simp)
    | ok document? =>
      cases document? with
      | none => exact h.cons (fun _ => lastRead?_cons_of_no_document rfl) (by simp)
      | some document =>
        let kept : Kept := ⟨scene.now, scene.store.count, document⟩
        have hreads : Load.Reads ⟨location, scene.now, .ok (some document), .ok (some kept)⟩ kept :=
          ⟨rfl, rfl, rfl⟩
        exact h.keep hreads hyoung

/-- A load comes to what it should unless it has to read a text that leaves a fault, in which it
ends then. -/
theorem isAnswered_load (h : scene.store.Remembers past) (location : String) :
    IsAnswered scene.store.lifetime past (scene.load location).1 ∧
        (∀ fault, scene.shelves.read location = .error fault →
          (youngRead? scene.store.lifetime scene.now location past).isSome) ∨
      ¬IsAnswered scene.store.lifetime past (scene.load location).1 ∧
        youngRead? scene.store.lifetime scene.now location past = none ∧
        ∃ fault, scene.shelves.read location = .error fault ∧
          (scene.load location).1.result = .error fault := by
  obtain ⟨read, kept, hyoung, hreads, hfresh⟩ | ⟨hyoung, hfresh⟩ := h.fresh_cases scene.now location
  · rw [load_of_fresh hfresh]
    refine .inl ⟨?_, fun _ _ => Option.isSome_of_eq_some hyoung⟩
    simp only [IsAnswered, hyoung]
    exact ⟨kept, hreads, rfl⟩
  · rw [load_of_stale hfresh]
    cases scene.shelves.read location with
    | error fault =>
      exact .inr ⟨by simp [IsAnswered, hyoung, Load.document?], hyoung, fault, rfl, rfl⟩
    | ok document? =>
      refine .inl ⟨?_, by simp⟩
      cases document? with
      | none => simp [IsAnswered, hyoung, Load.document?]
      | some document => simpa [IsAnswered, hyoung, Load.document?] using h.isNew

/-- What a load comes to was read by it, or by one before it that is still young. -/
theorem exists_reads_of_load (h : scene.store.Remembers past) {location : String} {kept : Kept}
    (hresult : (scene.load location).1.result = .ok (some kept)) :
    ∃ read ∈ (scene.load location).1 :: past, read.location = location ∧ read.Reads kept ∧
      (read = (scene.load location).1 ∨ scene.now - read.time < scene.store.lifetime) := by
  obtain ⟨read, found, hyoung, hreads, hfresh⟩ | ⟨-, hfresh⟩ := h.fresh_cases scene.now location
  · rw [load_of_fresh hfresh] at hresult ⊢
    obtain rfl := Option.some.inj (Except.ok.inj hresult)
    obtain ⟨hmem, hlocation, hage⟩ := mem_of_youngRead?_eq_some hyoung
    exact ⟨read, List.mem_cons_of_mem _ hmem, hlocation, hreads, .inr hage⟩
  · rw [load_of_stale hfresh] at hresult ⊢
    generalize scene.shelves.read location = reading at hresult ⊢
    match reading, hresult with
    | .ok (some document), hresult =>
      obtain rfl := Option.some.inj (Except.ok.inj hresult)
      exact ⟨_, List.mem_cons_self, rfl, ⟨rfl, rfl, rfl⟩, .inl rfl⟩

/-! ## Sessions -/

theorem run_cons (scene : Scene) (step : Step) (rest : List Step) :
    scene.run (step :: rest) =
      (scene.perform step).1.toList ++ (scene.perform step).2.run rest := rfl

/-- A step that is no load leaves the store alone. -/
theorem perform_cases (scene : Scene) (step : Step) :
    ((scene.perform step).1 = none ∧ (scene.perform step).2.store = scene.store) ∨
    ∃ location, step = .load location ∧
      scene.perform step =
        (some (scene.load location).1, { scene with store := (scene.load location).2 }) := by
  cases step with
  | load location => exact .inr ⟨location, rfl, rfl⟩
  | _ => exact .inl ⟨rfl, rfl⟩

/-- Every load of a session comes upon a store that keeps what was read last. -/
theorem exists_load_of_run {steps : List Step} {earlier later : List Load} {load : Load}
    (h : scene.run steps = earlier ++ load :: later) (hpast : scene.store.Remembers past) :
    ∃ found : Scene, found.store.lifetime = scene.store.lifetime ∧
      found.store.Remembers (earlier.reverse ++ past) ∧ load = (found.load load.location).1 := by
  induction steps generalizing scene past earlier with
  | nil => simp [run] at h
  | cons step rest ih =>
    rw [run_cons] at h
    obtain ⟨hnone, hstore⟩ | ⟨location, -, hperform⟩ := perform_cases scene step
    · rw [hnone] at h
      rw [← hstore] at hpast ⊢
      exact ih h hpast
    · rw [hperform] at h
      cases earlier with
      | nil =>
        obtain ⟨rfl, -⟩ := List.cons.inj h
        exact ⟨scene, rfl, hpast, by rw [location_load]⟩
      | cons first earlier =>
        obtain ⟨rfl, hlater⟩ := List.cons.inj h
        obtain ⟨found, hlifetime, hfound, hload⟩ := ih hlater (remembers_load hpast location)
        refine ⟨found, hlifetime.trans (lifetime_load scene location), ?_, hload⟩
        simpa using hfound

end Scene

/-! ## Other locations -/

/-- What was read, whichever object it is. -/
def Kept.unnumbered (kept : Kept) : Kept :=
  { kept with number := 0 }

/-- A load, whichever object it came to. -/
def Load.unnumbered (load : Load) : Load :=
  { load with result := load.result.map (Option.map Kept.unnumbered) }

/-- Is the step anything but a load of another location? -/
def Step.concerns (location : String) : Step → Bool
  | .load other => other == location
  | _ => true

/-- Two stores that keep the same for a location. -/
structure Store.AlikeAt (location : String) (store other : Store) : Prop where
  lifetime : store.lifetime = other.lifetime
  kept : (store.kept.lookup location).map Kept.unnumbered =
    (other.kept.lookup location).map Kept.unnumbered

section AlikeAt
variable {location : String} {store other : Store} {shelves : Shelves} {now : Float}

theorem Store.AlikeAt.fresh? (h : store.AlikeAt location other) (now : Float) :
    (store.fresh? now location).map Kept.unnumbered =
      (other.fresh? now location).map Kept.unnumbered := by
  have hkept := h.kept
  rw [Store.fresh?, Store.fresh?, h.lifetime]
  generalize store.kept.lookup location = kept?, other.kept.lookup location = kept'? at hkept ⊢
  match kept?, kept'?, hkept with
  | none, none, _ => rfl
  | some kept, some kept', hkept =>
    have hunnumbered : kept.unnumbered = kept'.unnumbered := Option.some.inj hkept
    have hreadAt : kept.readAt = kept'.readAt := by
      simpa [Kept.unnumbered] using congrArg Kept.readAt hunnumbered
    by_cases hyoung : now - kept'.readAt < other.lifetime
    · simp [hreadAt, hyoung, hunnumbered]
    · simp [hreadAt, hyoung]

/-- A load of the location comes to the same with both. -/
theorem Store.AlikeAt.load (h : store.AlikeAt location other) (shelves : Shelves) (now : Float) :
    (Scene.load ⟨store, shelves, now⟩ location).1.unnumbered =
        (Scene.load ⟨other, shelves, now⟩ location).1.unnumbered ∧
      (Scene.load ⟨store, shelves, now⟩ location).2.AlikeAt location
        (Scene.load ⟨other, shelves, now⟩ location).2 := by
  have hfresh := h.fresh? now
  cases hstore : store.fresh? now location with
  | some kept =>
    cases hother : other.fresh? now location with
    | none => simp [hstore, hother] at hfresh
    | some kept' =>
      rw [Scene.load_of_fresh hstore, Scene.load_of_fresh hother]
      rw [hstore, hother] at hfresh
      exact ⟨congrArg (Load.mk _ _ _ <| .ok ·) hfresh, h⟩
  | none =>
    cases hother : other.fresh? now location with
    | some kept' => simp [hstore, hother] at hfresh
    | none =>
      rw [Scene.load_of_stale hstore, Scene.load_of_stale hother]
      cases shelves.read location with
      | error fault => exact ⟨rfl, h⟩
      | ok document? =>
        cases document? with
        | none => exact ⟨rfl, h⟩
        | some document => exact ⟨rfl, h.lifetime, by simp [Kept.unnumbered]⟩

/-- A load of another location goes unnoticed. -/
theorem Store.AlikeAt.load_of_ne (h : store.AlikeAt location other) {elsewhere : String}
    (hne : elsewhere ≠ location) (shelves : Shelves) (now : Float) :
    (Scene.load ⟨store, shelves, now⟩ elsewhere).2.AlikeAt location other := by
  refine ⟨(Scene.lifetime_load _ _).trans h.lifetime, ?_⟩
  rw [← h.kept]
  cases hstore : store.fresh? now elsewhere with
  | some kept => rw [Scene.load_of_fresh hstore]
  | none =>
    rw [Scene.load_of_stale hstore]
    split
    · rfl
    · rfl
    · simp [List.lookup_cons, beq_false_of_ne (Ne.symm hne)]

/-- The loads of a location are the same without the loads of others. -/
theorem unnumbered_run_filter (h : store.AlikeAt location other) (steps : List Step) :
    ((Scene.run ⟨store, shelves, now⟩ steps).filter (·.location == location)).map
        Load.unnumbered =
      (Scene.run ⟨other, shelves, now⟩ (steps.filter (·.concerns location))).map
        Load.unnumbered := by
  induction steps generalizing store other shelves now with
  | nil => rfl
  | cons step rest ih =>
    cases step with
    | load elsewhere =>
      by_cases hlocation : elsewhere = location
      · subst hlocation
        obtain ⟨hload, hafter⟩ := h.load shelves now
        simp [Step.concerns, Scene.run_cons, Scene.perform, Scene.location_load, hload, ih hafter]
      · simp [Step.concerns, Scene.run_cons, Scene.perform, Scene.location_load, hlocation,
          ih (h.load_of_ne hlocation shelves now)]
    | write name text => exact ih h
    | remove name => exact ih h
    | serve address page => exact ih h
    | advance seconds => exact ih h

end AlikeAt

/-! ## Answers -/

/-- A file whose lines end in line feeds is read as it was written. -/
theorem read_write {name text : String} (hname : isAddress name = false)
    (hlines : plainLines text.toList = text.toList) (shelves : Shelves) :
    (shelves.write name text).read name = parse text := by
  have htext : (shelves.write name text).text? name = some text := by
    simp [Shelves.text?, Shelves.write, hname, hlines]
  simp only [Shelves.read, htext]

/-- A load of a session comes to what it should unless it has to read a text that leaves a fault;
then it ends in that fault. What a load comes to was read from its location, by this load or by one
before that is still young. Loads of other locations make no difference. -/
theorem isAnswered_iff_of_run {lifetime now : Float} {shelves : Shelves} {steps : List Step}
    {earlier later : List Load} {load : Load}
    (h : Scene.run ⟨{ lifetime }, shelves, now⟩ steps = earlier ++ load :: later) :
    (IsAnswered lifetime earlier.reverse load ↔ ∀ fault, load.reading = .error fault →
        (youngRead? lifetime load.time load.location earlier.reverse).isSome) ∧
      (∀ fault, load.reading = .error fault →
        youngRead? lifetime load.time load.location earlier.reverse = none →
        load.result = .error fault) ∧
      (∀ kept, load.result = .ok (some kept) → ∃ read ∈ load :: earlier.reverse,
        read.location = load.location ∧ read.Reads kept ∧
          (read = load ∨ load.time - read.time < lifetime)) ∧
      ∀ location,
        ((Scene.run ⟨{ lifetime }, shelves, now⟩ steps).filter (·.location == location)).map
            Load.unnumbered =
          (Scene.run ⟨{ lifetime }, shelves, now⟩ (steps.filter (·.concerns location))).map
            Load.unnumbered := by
  obtain ⟨found, hlifetime, hfound, hload⟩ := Scene.exists_load_of_run h (.empty lifetime)
  rw [List.append_nil] at hfound
  have htime : load.time = found.now := hload ▸ Scene.time_load found _
  have hreading : load.reading = found.shelves.read load.location := by
    conv_lhs => rw [hload, Scene.reading_load]
  replace hlifetime : found.store.lifetime = lifetime := hlifetime
  have hanswered := Scene.isAnswered_load hfound load.location
  rw [← hload, ← htime, ← hreading, hlifetime] at hanswered
  refine ⟨?_, ?_, ?_, fun location => unnumbered_run_filter ⟨rfl, rfl⟩ steps⟩
  · rcases hanswered with ⟨his, hyoung⟩ | ⟨hnot, hstale, fault, hfault, -⟩
    · exact iff_of_true his hyoung
    · refine iff_of_false hnot fun hyoung => ?_
      simpa [hstale] using hyoung fault hfault
  · intro fault hfault hstale
    rcases hanswered with ⟨-, hyoung⟩ | ⟨-, -, fault', hfault', hresult⟩
    · simpa [hstale] using hyoung fault hfault
    · obtain rfl := Except.error.inj (hfault.symm.trans hfault')
      exact hresult
  · intro kept hresult
    rw [hload] at hresult
    have hread := Scene.exists_reads_of_load hfound hresult
    rwa [← hload, ← htime, hlifetime] at hread

/-- A session in which a file is written anew while what it held is kept. -/
def renewalSteps : List Step :=
  [.write "a" "{}", .load "a", .write "a" "v: 1", .load "b", .advance 3599, .load "a", .advance 1,
    .load "a"]

/-- What was read is kept for less than an hour, and no longer for having been loaded again. -/
theorem isAnswered_iff_of_run_renewal : ∃ document earlier load,
    parse "v: 1" = .ok (some document) ∧
      Scene.run ⟨{ lifetime := 3600 }, .bare, 1000⟩ renewalSteps = earlier ++ load :: [] ∧
      (earlier ++ [load]).map (fun load => (load.location, load.result)) =
        [("a", .ok (some ⟨1000, 0, .obj []⟩)), ("b", .ok none),
          ("a", .ok (some ⟨1000, 0, .obj []⟩)),
          ("a", .ok (some ⟨1000 + 3599 + 1, 1, document⟩))] ∧
      IsAnswered 3600 earlier.reverse load := by
  have hobject : (parse "v: 1").toOption.any (·.isSome) = true := by decide +kernel
  obtain ⟨document?, hparse, hsome⟩ := exists_eq_ok _ hobject
  obtain ⟨document, rfl⟩ := Option.isSome_iff_exists.mp hsome
  have hyoung : (1000 + 3599 - 1000 : Float) < 3600 := by decide +kernel
  have hold : ¬(1000 + 3599 + 1 - 1000 : Float) < 3600 := by decide +kernel
  have hempty : parse "{}" = .ok (some (.obj [])) := rfl
  have hfirst : (Shelves.bare.write "a" "{}").read "a" = .ok (some (.obj [])) :=
    (read_write (by decide +kernel) (by decide +kernel) _).trans hempty
  have hsecond : ((Shelves.bare.write "a" "{}").write "a" "v: 1").read "a" = .ok (some document) :=
    (read_write (by decide +kernel) (by decide +kernel) _).trans hparse
  have hnone : ((Shelves.bare.write "a" "{}").write "a" "v: 1").read "b" = .ok none := rfl
  have hrun : Scene.run ⟨{ lifetime := 3600 }, .bare, 1000⟩ renewalSteps =
      [⟨"a", 1000, .ok (some (.obj [])), .ok (some ⟨1000, 0, .obj []⟩)⟩,
        ⟨"b", 1000, .ok none, .ok none⟩,
        ⟨"a", 1000 + 3599, .ok (some document), .ok (some ⟨1000, 0, .obj []⟩)⟩] ++
      ⟨"a", 1000 + 3599 + 1, .ok (some document),
        .ok (some ⟨1000 + 3599 + 1, 1, document⟩)⟩ :: [] := by
    simp [renewalSteps, Scene.run, Scene.perform, Scene.load, Store.load, Store.fresh?, hfirst,
      hsecond, hnone, hyoung, hold, List.lookup_cons, bind, Except.bind, pure, Except.pure]
  obtain ⟨hanswered, -⟩ := isAnswered_iff_of_run hrun
  exact ⟨document, _, _, hparse, hrun, rfl, hanswered.mpr fun fault hfault => nomatch hfault⟩

/-- A text that is spelled like a number in base 2, but without digits, is no description, and a
load of it does not come to null. -/
theorem not_isAnswered_of_empty_number : ∃ load fault,
    Scene.run ⟨{ lifetime := 3600 }, .bare, 1000⟩ [.write "a" "0b_", .load "a"] = [load] ∧
      load.result = .error fault ∧ ¬IsAnswered 3600 [] load := by
  have hfault : parse "0b_" = .error (.notInteger 2 "") := rfl
  have hread : (Shelves.bare.write "a" "0b_").read "a" = .error (.notInteger 2 "") :=
    (read_write (by decide +kernel) (by decide +kernel) _).trans hfault
  refine ⟨⟨"a", 1000, .error (.notInteger 2 ""), .error (.notInteger 2 "")⟩, _, ?_, rfl, ?_⟩
  · simp [Scene.run, Scene.perform, Scene.load, Store.load, Store.fresh?, hread, bind, Except.bind]
  · simp [IsAnswered, youngRead?, lastRead?, Load.document?]

end Toolgate.Spec
