import Mathlib.Algebra.Order.Ring.Rat
import Mathlib.Tactic.FieldSimp
import Mathlib.Tactic.Linarith
import Mathlib.Tactic.Ring
import Toolgate.Proofs.Pacing.Gate

/-!
# Admissions in a window of time

Over exact numbers, and with a clock that does not go back, callers are let through no faster than
tokens come in. The tokens at hand and the callers let through since a time `s` are counted
together: taking a token moves one from the one count to the other, and a refill adds no more than
the rate allows for the time since `s`. Before `s` there is nothing to count but the tokens, which
never exceed the capacity.

## Main statements

* `admissions_le_window`: no more callers in any window than the capacity and the rate allow, and
  in a window from the start no more than one and the rate allow
-/

namespace Toolgate.Pacing

theorem greater_eq_max (a b : ℚ) : greater a b = max a b := by
  rw [greater]
  split
  · next h => exact (max_eq_right h.le).symm
  · next h => exact (max_eq_left (not_lt.mp h)).symm

theorem lesser_eq_min (a b : ℚ) : lesser a b = min a b := by
  rw [lesser]
  split
  · next h => exact (min_eq_right h.le).symm
  · next h => exact (min_eq_left (not_lt.mp h)).symm

namespace Bucket

/-- The bucket is one of a rate, as far as its fixed parts go. -/
structure OfRate (rate : ℚ) (bucket : Bucket ℚ) : Prop where
  rate_eq : bucket.rate = rate
  capacity_eq : bucket.capacity = max 1 rate
  refillPerMs_eq : bucket.refillPerMs = rate / 1000

/-- The time of the latest refill in seconds. -/
def refilledAt (bucket : Bucket ℚ) : ℚ :=
  bucket.lastRefill / 1000

variable {rate : ℚ} {bucket : Bucket ℚ} {now : ℚ}

theorem ofRate_new (rate now : ℚ) : OfRate rate (new rate now) :=
  ⟨rfl, greater_eq_max 1 rate, rfl⟩

theorem refilledAt_new (rate now : ℚ) : (new rate now).refilledAt = now := by
  simp [refilledAt, new, milliseconds]

theorem OfRate.refill (h : OfRate rate bucket) : OfRate rate (bucket.refill now) :=
  ⟨h.rate_eq, h.capacity_eq, h.refillPerMs_eq⟩

theorem OfRate.take (h : OfRate rate bucket) : OfRate rate bucket.take :=
  ⟨h.rate_eq, h.capacity_eq, h.refillPerMs_eq⟩

@[simp] theorem refilledAt_refill (bucket : Bucket ℚ) (now : ℚ) :
    (bucket.refill now).refilledAt = now := by
  simp [refilledAt, refill, milliseconds]

@[simp] theorem refilledAt_take (bucket : Bucket ℚ) : bucket.take.refilledAt = bucket.refilledAt :=
  rfl

@[simp] theorem tokens_take (bucket : Bucket ℚ) : bucket.take.tokens = bucket.tokens - 1 := rfl

/-- A refill adds what the rate gives for the time since the latest one, up to the capacity. -/
theorem OfRate.tokens_refill (h : OfRate rate bucket) (hnow : bucket.refilledAt ≤ now) :
    (bucket.refill now).tokens =
      min (max 1 rate) (bucket.tokens + rate * (now - bucket.refilledAt)) := by
  have helapsed : 0 ≤ now * 1000 - bucket.lastRefill := by
    rw [refilledAt] at hnow
    linarith
  simp only [Bucket.refill, lesser_eq_min, greater_eq_max, milliseconds,
    max_eq_right helapsed, h.capacity_eq, h.refillPerMs_eq, refilledAt]
  congr 2
  ring

theorem one_le_tokens_of_not_isShort (h : bucket.isShort = false) : 1 ≤ bucket.tokens := by
  simpa [isShort] using h

end Bucket

/-! ## Counting admissions -/

/-- How many of the times lie at `s` or after it. -/
def countSince (s : ℚ) (times : List ℚ) : ℕ :=
  times.countP fun time => s ≤ time

/-- How many of the times lie in the window from `s` to `t`, ends included. -/
def countIn (s t : ℚ) (times : List ℚ) : ℕ :=
  times.countP fun time => s ≤ time ∧ time ≤ t

theorem countIn_le_countSince (s t : ℚ) (times : List ℚ) :
    countIn s t times ≤ countSince s times :=
  List.countP_mono_left fun time _ => by simpa using fun h _ => h

/-- Before the first of its times a list has nothing to count. -/
theorem countSince_eq_zero {s last : ℚ} {times : List ℚ} (hlast : ∀ time ∈ times, time ≤ last)
    (hs : last < s) : countSince s times = 0 := by
  rw [countSince, List.countP_eq_zero]
  intro time htime
  simpa using (hlast time htime).trans_lt hs

theorem countSince_cons_of_le {s time : ℚ} (h : s ≤ time) (times : List ℚ) :
    countSince s (time :: times) = countSince s times + 1 :=
  List.countP_cons_of_pos (by simpa using h)

theorem countSince_cons_of_lt {s time : ℚ} (h : time < s) (times : List ℚ) :
    countSince s (time :: times) = countSince s times :=
  List.countP_cons_of_neg (by simpa using h)

theorem countIn_cons_of_notMem {s t time : ℚ} (h : ¬(s ≤ time ∧ time ≤ t)) (times : List ℚ) :
    countIn s t (time :: times) = countIn s t times :=
  List.countP_cons_of_neg (by simpa using h)

/-! ## The account -/

namespace Gate

/-- What the account rests on: the bucket has its rate, its latest refill is neither before the
start nor ahead of the clock, it is not over its capacity, and no caller was let through after the
latest refill. -/
structure Kept (rate start : ℚ) (gate : Gate ℚ) : Prop where
  ofRate : gate.pacer.bucket.OfRate rate
  start_le : start ≤ gate.pacer.bucket.refilledAt
  refilledAt_le : gate.pacer.bucket.refilledAt ≤ gate.pacer.now
  tokens_le : gate.pacer.bucket.tokens ≤ max 1 rate
  admissions_le : ∀ time ∈ gate.admissions, time ≤ gate.pacer.bucket.refilledAt

/-- The account since `s` with a budget: tokens at hand and callers let through stay within the
budget and what has come in since. -/
structure Within (rate s budget : ℚ) (gate : Gate ℚ) : Prop where
  held : gate.pacer.bucket.tokens + countSince s gate.admissions ≤
    budget + rate * max 0 (gate.pacer.bucket.refilledAt - s)
  window : ∀ t, s ≤ t → (countIn s t gate.admissions : ℚ) ≤ budget + rate * (t - s)

variable {rate start s budget : ℚ} {gate after : Gate ℚ}

/-- A refill keeps the account: since `s` it adds what the rate gives, and before `s` there are no
callers to count. -/
theorem Within.refill (hrate : 0 < rate) (hkept : Kept rate start gate)
    (hbudget : max 1 rate ≤ budget ∨ s ≤ start) (h : Within rate s budget gate) :
    (gate.pacer.bucket.refill gate.pacer.now).tokens + countSince s gate.admissions ≤
      budget + rate * max 0 (gate.pacer.now - s) := by
  rw [hkept.ofRate.tokens_refill hkept.refilledAt_le]
  have hcap := min_le_left (max 1 rate)
    (gate.pacer.bucket.tokens + rate * (gate.pacer.now - gate.pacer.bucket.refilledAt))
  have hin := min_le_right (max 1 rate)
    (gate.pacer.bucket.tokens + rate * (gate.pacer.now - gate.pacer.bucket.refilledAt))
  have hheld := h.held
  have hle := hkept.refilledAt_le
  rcases le_or_gt s gate.pacer.bucket.refilledAt with hs | hs
  · rw [max_eq_right (sub_nonneg.mpr hs)] at hheld
    rw [max_eq_right (sub_nonneg.mpr (hs.trans hle))]
    linarith
  · rw [countSince_eq_zero hkept.admissions_le hs, Nat.cast_zero]
    have : 0 ≤ rate * max 0 (gate.pacer.now - s) := by positivity
    rcases hbudget with hbudget | hbudget
    · linarith
    · exact absurd (hbudget.trans hkept.start_le) (not_le.mpr hs)

/-- Taking a token moves one from the tokens to the callers. -/
theorem admit_within {times : List ℚ} {now tokens : ℚ} (hrate : 0 < rate) (htoken : 1 ≤ tokens)
    (hheld : tokens + countSince s times ≤ budget + rate * max 0 (now - s))
    (hwindow : ∀ t, s ≤ t → (countIn s t times : ℚ) ≤ budget + rate * (t - s)) :
    tokens - 1 + countSince s (now :: times) ≤ budget + rate * max 0 (now - s) ∧
      ∀ t, s ≤ t → (countIn s t (now :: times) : ℚ) ≤ budget + rate * (t - s) := by
  have hmoved : tokens - 1 + countSince s (now :: times) ≤ budget + rate * max 0 (now - s) := by
    rcases le_or_gt s now with hs | hs
    · rw [countSince_cons_of_le hs]
      push_cast
      linarith
    · rw [countSince_cons_of_lt hs]
      linarith
  refine ⟨hmoved, fun t ht => ?_⟩
  by_cases hin : s ≤ now ∧ now ≤ t
  · have hcount : (countIn s t (now :: times) : ℚ) ≤ countSince s (now :: times) :=
      mod_cast countIn_le_countSince s t (now :: times)
    have hgain : rate * max 0 (now - s) ≤ rate * (t - s) := by
      rw [max_eq_right (by linarith [hin.1])]
      exact mul_le_mul_of_nonneg_left (by linarith [hin.2]) hrate.le
    linarith
  · rw [countIn_cons_of_notMem hin]
    exact hwindow t ht

/-- An event on a clock that does not go back keeps the account. -/
theorem Kept.step {event : Event ℚ}
    (hforward : ∀ seconds, event = .advance seconds → 0 ≤ seconds) (h : Kept rate start gate)
    (heffect : Effect (fun seconds => event = .advance seconds) gate after) :
    Kept rate start after := by
  have hle := h.refilledAt_le
  have hstart := h.start_le
  have hcap : (gate.pacer.bucket.refill gate.pacer.now).tokens ≤ max 1 rate := by
    rw [h.ofRate.tokens_refill hle]
    exact min_le_left _ _
  have htimes : ∀ time ∈ gate.admissions, time ≤ gate.pacer.now :=
    fun time htime => (h.admissions_le time htime).trans hle
  cases heffect with
  | still pacer admissions =>
    exact ⟨pacer ▸ h.ofRate, pacer ▸ hstart, pacer ▸ hle, pacer ▸ h.tokens_le,
      by simpa only [pacer, admissions] using h.admissions_le⟩
  | moved seconds allowed pacer admissions =>
    have := hforward seconds allowed
    refine ⟨pacer ▸ h.ofRate, pacer ▸ hstart, ?_, pacer ▸ h.tokens_le,
      by simpa only [pacer, admissions] using h.admissions_le⟩
    rw [pacer]
    exact hle.trans (by simpa using this)
  | refilled pacer admissions =>
    exact ⟨pacer ▸ h.ofRate.refill, by simpa [pacer] using hstart.trans hle, by simp [pacer],
      by simpa [pacer] using hcap, by simpa [pacer, admissions] using htimes⟩
  | admitted token pacer admissions =>
    refine ⟨pacer ▸ h.ofRate.refill.take, by simpa [pacer] using hstart.trans hle, by simp [pacer],
      ?_, by simpa [pacer, admissions] using htimes⟩
    rw [pacer, Bucket.tokens_take]
    linarith

theorem Within.step {event : Event ℚ} (hrate : 0 < rate) (hkept : Kept rate start gate)
    (hbudget : max 1 rate ≤ budget ∨ s ≤ start) (h : Within rate s budget gate)
    (heffect : Effect (fun seconds => event = .advance seconds) gate after) :
    Within rate s budget after := by
  have hrefill := h.refill hrate hkept hbudget
  cases heffect with
  | still pacer admissions => exact ⟨by simpa [pacer, admissions] using h.held,
      by simpa [admissions] using h.window⟩
  | moved seconds allowed pacer admissions => exact ⟨by simpa [pacer, admissions] using h.held,
      by simpa [admissions] using h.window⟩
  | refilled pacer admissions => exact ⟨by simpa [pacer, admissions] using hrefill,
      by simpa [admissions] using h.window⟩
  | admitted token pacer admissions =>
    have htoken := Bucket.one_le_tokens_of_not_isShort token
    obtain ⟨hheld, hwindow⟩ := admit_within hrate htoken hrefill h.window
    exact ⟨by simpa [pacer, admissions] using hheld, by simpa [admissions] using hwindow⟩

@[simp] theorem admissions_new (rate start : ℚ) : (new rate start).admissions = [] := rfl

theorem kept_new (rate start : ℚ) : Kept rate start (new rate start) where
  ofRate := Bucket.ofRate_new rate start
  start_le := (Bucket.refilledAt_new rate start).ge
  refilledAt_le := (Bucket.refilledAt_new rate start).le
  tokens_le := le_max_left 1 rate
  admissions_le := by simp

theorem within_new (hrate : 0 < rate) (hbudget : 1 ≤ budget) :
    Within rate s budget (new rate start) where
  held := by
    have : 0 ≤ rate * max 0 ((new rate start).pacer.bucket.refilledAt - s) := by positivity
    have htokens : (new rate start).pacer.bucket.tokens = 1 := rfl
    rw [htokens, admissions_new, countSince, List.countP_nil, Nat.cast_zero]
    linarith
  window t ht := by
    have : 0 ≤ rate * (t - s) := mul_nonneg hrate.le (sub_nonneg.mpr ht)
    rw [admissions_new, countIn, List.countP_nil, Nat.cast_zero]
    linarith

/-- Every run on a clock that does not go back keeps the account of a window whose budget is the
capacity, or one for a window from the start. -/
theorem within_run (hrate : 0 < rate) (hbudget : max 1 rate ≤ budget ∨ s ≤ start ∧ 1 ≤ budget)
    (events : List (Event ℚ)) (forward : ∀ seconds, .advance seconds ∈ events → 0 ≤ seconds) :
    Within rate s budget ((new rate start).run events) := by
  have hone : 1 ≤ budget := hbudget.elim (le_max_left 1 rate).trans And.right
  have hinv := run_induction (P := fun gate => Kept rate start gate ∧ Within rate s budget gate)
    ⟨kept_new rate start, within_new hrate hone⟩ events ?_
  · exact hinv.2
  · rintro event hevent before after ⟨hkept, hwithin⟩ heffect
    refine ⟨hkept.step (fun seconds h => forward seconds (h ▸ hevent)) heffect, ?_⟩
    exact hwithin.step hrate hkept (hbudget.imp_right And.left) heffect

/-- No run lets more callers through in a window than the capacity and what comes in during the
window, and in a window from the start no more than one and what comes in. -/
theorem admissions_le_window {rate : ℚ} (hrate : 0 < rate) (start : ℚ) (events : List (Event ℚ))
    (forward : ∀ seconds, .advance seconds ∈ events → 0 ≤ seconds) :
    let gate := new rate start
    let times := (gate.run events).admissions
    (∀ s t, s ≤ t →
      (times.countP (fun time => s ≤ time ∧ time ≤ t) : ℚ) ≤
        gate.pacer.bucket.capacity + rate * (t - s)) ∧
      ∀ t, start ≤ t →
        (times.countP (fun time => start ≤ time ∧ time ≤ t) : ℚ) ≤ 1 + rate * (t - start) := by
  intro gate times
  have hcapacity : gate.pacer.bucket.capacity = max 1 rate := (kept_new rate start).ofRate.capacity_eq
  constructor
  · intro s t hst
    exact (within_run hrate (.inl hcapacity.ge) events forward).window t hst
  · intro t ht
    exact (within_run hrate (.inr ⟨le_refl start, le_refl 1⟩) events forward).window t ht

/-- Two callers at two tokens a second: the second is woken too early, sleeps again, and is let
through at the last moment that the account since the start allows. -/
theorem admissions_le_window_early_wake :
    let events : List (Event ℚ) :=
      [.arrive 1, .arrive 2, .advance (1 / 4), .wake, .advance (1 / 4), .wake]
    let times := ((new 2 0).run events).admissions
    (0 : ℚ) < 2 ∧ (∀ seconds, .advance seconds ∈ events → 0 ≤ seconds) ∧
      times = [1 / 2, 0] ∧
      (times.countP (fun time => 0 ≤ time ∧ time ≤ 1 / 2) : ℚ) ≤ 1 + 2 * (1 / 2 - 0) := by
  intro events times
  have hrate : (0 : ℚ) < 2 := by norm_num
  have hforward : ∀ seconds, .advance seconds ∈ events → 0 ≤ seconds := by
    intro seconds hseconds
    obtain rfl : seconds = 1 / 4 := by simpa [events] using hseconds
    norm_num
  exact ⟨hrate, hforward, by decide +kernel,
    (admissions_le_window hrate 0 events hforward).2 (1 / 2) (by norm_num)⟩

end Gate

end Toolgate.Pacing
