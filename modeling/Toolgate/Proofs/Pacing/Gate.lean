import Mathlib.Algebra.Order.Ring.Rat
import Toolgate.Pacing.Gate
import Toolgate.Proofs.Pacing.Acquire

/-!
# What an event does to the pacer

Whatever the callers do, an event changes the pacer in one of four ways only: not at all, by moving
the clock, by a refill, or by a refill after which there is a token and one is taken. Every law of
the pacer under concurrent callers follows from these four cases. A caller on its own is one run of
the gate.
-/

namespace Toolgate.Pacing

section Exits
variable {α : Type} (gate : Gate α) (caller : ℕ)

theorem Gate.admissions_leave_paid :
    (gate.leave caller .paid).admissions = gate.pacer.now :: gate.admissions := by
  simp [Gate.leave, Gate.admissions]

theorem Gate.admissions_leave_of_ne {passage : Passage} (h : passage ≠ .paid) :
    (gate.leave caller passage).admissions = gate.admissions := by
  simp [Gate.leave, Gate.admissions, h]

end Exits

variable {α : Type} [Add α] [Sub α] [Mul α] [Div α] [LT α] [DecidableLT α] [OfNat α 0] [OfNat α 1]
  [OfNat α 1000]

namespace Gate

/-! ## Events -/

/-- What becomes of the pacer and of the times at which tokens were taken, when the clock may move
by the seconds that `clock` allows. -/
inductive Effect (clock : α → Prop) (gate after : Gate α) : Prop where
  | still (pacer : after.pacer = gate.pacer) (admissions : after.admissions = gate.admissions)
  | moved (seconds : α) (allowed : clock seconds)
      (pacer : after.pacer = { gate.pacer with now := gate.pacer.now + seconds })
      (admissions : after.admissions = gate.admissions)
  | refilled
      (pacer : after.pacer =
        { gate.pacer with bucket := gate.pacer.bucket.refill gate.pacer.now })
      (admissions : after.admissions = gate.admissions)
  | admitted (token : (gate.pacer.bucket.refill gate.pacer.now).isShort = false)
      (pacer : after.pacer =
        { gate.pacer with bucket := (gate.pacer.bucket.refill gate.pacer.now).take })
      (admissions : after.admissions = gate.pacer.now :: gate.admissions)

variable {clock : α → Prop}

/-- A turn refills, and takes a token if there is one then. -/
theorem effect_serve (gate : Gate α) (caller : ℕ) : Effect clock gate (gate.serve caller) := by
  have hturned := gate.pacer.bucket.turned gate.pacer.now
  unfold serve
  generalize gate.pacer.bucket.turn gate.pacer.now = outcome at hturned ⊢
  cases hturned with
  | admitted token => exact .admitted token rfl (admissions_leave_paid _ _)
  | sleep short runs => exact .refilled rfl rfl
  | stalled short stands => exact .refilled rfl (admissions_leave_of_ne _ _ (by decide))

/-- An event has one of the four effects, and only its own clock moves. -/
theorem effect_step (gate : Gate α) (event : Event α) :
    Effect (fun seconds => event = .advance seconds) gate (gate.step event) := by
  cases event with
  | advance seconds => exact .moved seconds rfl rfl rfl
  | arrive caller =>
    simp only [step]
    split
    · exact .still rfl (admissions_leave_of_ne _ _ (by decide))
    · split
      · exact effect_serve gate caller
      · exact .still rfl rfl
  | enter caller =>
    simp only [step]
    split
    · let entered : Gate α := { gate with line := gate.line.erase caller }
      have heffect : Effect (fun seconds => Event.enter caller = .advance seconds) entered
          (entered.serve caller) := effect_serve entered caller
      cases heffect with
      | still pacer admissions => exact .still pacer admissions
      | moved seconds allowed pacer admissions => exact .moved seconds allowed pacer admissions
      | refilled pacer admissions => exact .refilled pacer admissions
      | admitted token pacer admissions => exact .admitted token pacer admissions
    · exact .still rfl rfl
  | wake =>
    simp only [step]
    split
    · exact effect_serve gate _
    · exact .still rfl rfl
  | giveUp caller => exact .still rfl rfl

/-- What holds at first and outlasts the effect of every event holds after a run. -/
theorem run_induction {P : Gate α → Prop} {gate : Gate α} (start : P gate)
    (events : List (Event α))
    (keep : ∀ event ∈ events, ∀ before after : Gate α, P before →
      Effect (fun seconds => event = .advance seconds) before after → P after) :
    P (gate.run events) := by
  induction events generalizing gate with
  | nil => exact start
  | cons event rest ih =>
    refine ih (keep event List.mem_cons_self gate _ start (effect_step gate event)) ?_
    exact fun later hlater => keep later (List.mem_cons_of_mem _ hlater)

/-! ## A caller on its own -/

theorem run_cons (gate : Gate α) (event : Event α) (rest : List (Event α)) :
    gate.run (event :: rest) = (gate.step event).run rest := rfl

/-- What a caller that waits comes to is reached by turns of the caller, each after the clock has
gone on to where its sleep ends. -/
theorem exists_run_of_awaitToken {wakes : Wakes ℚ} {sleeps : List ℚ} {pacer : Pacer ℚ}
    {passing : Passing ℚ} (h : awaitToken wakes sleeps pacer = some passing) (caller : ℕ)
    (gate : Gate ℚ) (hgate : gate.pacer = pacer) :
    ∃ events, (gate.serve caller).run events =
      { gate with pacer := passing.pacer, holder := none }.leave caller passing.passage := by
  fun_induction awaitToken wakes sleeps pacer generalizing gate with
  | case1 wakes sleeps pacer bucket hturn =>
    obtain rfl := Option.some.inj h
    exact ⟨[], by simp [run, serve, hgate, hturn]⟩
  | case2 wakes sleeps pacer bucket hturn =>
    obtain rfl := Option.some.inj h
    exact ⟨[], by simp [run, serve, hgate, hturn]⟩
  | case3 => exact absurd h.symm (Option.some_ne_none _)
  | case4 sleeps pacer seconds bucket wake wakes hturn ih =>
    subst hgate
    let woken := wake gate.pacer.now seconds
    obtain ⟨events, hevents⟩ :=
      ih h { gate with pacer := ⟨bucket, woken⟩, holder := some caller } rfl
    refine ⟨.advance (woken - gate.pacer.now) :: .wake :: events, ?_⟩
    have hasleep : (gate.serve caller).step (.advance (woken - gate.pacer.now)) =
        { gate with pacer := ⟨bucket, woken⟩, holder := some caller } := by
      simp [serve, hturn, step]
    rw [run_cons, run_cons, hasleep]
    exact hevents

/-- A caller that comes to a free gate leaves it as it would leave the pacer on its own. -/
theorem exists_run_of_acquire {wakes : Wakes ℚ} {pacer : Pacer ℚ} {passing : Passing ℚ}
    (h : acquire wakes pacer = some passing) (caller : ℕ) :
    ∃ events, ({ pacer } : Gate ℚ).run (.arrive caller :: events) =
      ({ pacer := passing.pacer } : Gate ℚ).leave caller passing.passage := by
  unfold acquire at h
  split at h
  · next henabled =>
    obtain ⟨events, hevents⟩ := exists_run_of_awaitToken h caller { pacer } rfl
    refine ⟨events, ?_⟩
    rw [run_cons]
    simpa [step, henabled, isFree] using hevents
  · next henabled =>
    obtain rfl := Option.some.inj h
    exact ⟨[], by simp [run, step, henabled]⟩

end Gate

end Toolgate.Pacing
