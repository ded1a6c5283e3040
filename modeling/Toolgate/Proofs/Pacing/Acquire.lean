import Mathlib.Logic.Relation
import Toolgate.Pacing.Bucket

/-!
# A caller on its own

Between coming and leaving a caller does nothing to the bucket but refill it, and it takes one token
when it is let through. It is turned away only at its first turn: later turns come after a sleep,
and there is a sleep only when time brings tokens.

## Main statements

* `leaves_of_acquire`: the ways in which a caller leaves
* `Pacer.stalls_eq_false_of_pos`: nobody is turned away while time brings tokens
-/

namespace Toolgate.Pacing

variable {α : Type} [Add α] [Sub α] [Mul α] [LT α] [DecidableLT α] [OfNat α 0] [OfNat α 1000]

/-! ## Refills -/

/-- One bucket comes of another by refills alone. -/
def Bucket.RefillsTo : Bucket α → Bucket α → Prop :=
  Relation.ReflTransGen fun bucket after => ∃ now, after = bucket.refill now

theorem Bucket.refillsTo_refill (bucket : Bucket α) (now : α) :
    RefillsTo bucket (bucket.refill now) :=
  .single ⟨now, rfl⟩

/-- Refills leave the rate alone. -/
theorem Bucket.RefillsTo.rate_eq {bucket after : Bucket α} (h : RefillsTo bucket after) :
    after.rate = bucket.rate ∧ after.refillPerMs = bucket.refillPerMs := by
  induction h with
  | refl => exact ⟨rfl, rfl⟩
  | tail _ hrefill ih =>
    obtain ⟨now, rfl⟩ := hrefill
    exact ih

variable [OfNat α 1]

/-! ## Ways to leave -/

/-- Does a caller that comes now find no token, while time brings none? -/
def Pacer.stalls (pacer : Pacer α) : Bool :=
  (pacer.bucket.refill pacer.now).isShort && !decide (0 < pacer.bucket.refillPerMs)

theorem Pacer.stalls_eq_false_of_pos {pacer : Pacer α} (h : 0 < pacer.bucket.refillPerMs) :
    pacer.stalls = false := by
  simp [stalls, h]

/-- How a caller leaves the pacer that it came to. -/
inductive Leaves (pacer : Pacer α) : Passing α → Prop where
  | free (disabled : pacer.bucket.enabled = false) : Leaves pacer { passage := .free, pacer }
  | paid {bucket : Bucket α} {now : α} {sleeps : List α} (enabled : pacer.bucket.enabled = true)
      (runs : pacer.stalls = false) (refills : pacer.bucket.RefillsTo bucket)
      (token : bucket.isShort = false) : Leaves pacer ⟨.paid, sleeps, ⟨bucket.take, now⟩⟩
  | stalled (enabled : pacer.bucket.enabled = true) (stalls : pacer.stalls = true) :
      Leaves pacer ⟨.stalled, [], { pacer with bucket := pacer.bucket.refill pacer.now }⟩

/-- The rate outlasts the visit of a caller. -/
theorem Leaves.rate_eq {pacer : Pacer α} {passing : Passing α} (h : Leaves pacer passing) :
    passing.pacer.bucket.rate = pacer.bucket.rate ∧
      passing.pacer.bucket.refillPerMs = pacer.bucket.refillPerMs := by
  cases h with
  | free => exact ⟨rfl, rfl⟩
  | paid _ _ refills => exact refills.rate_eq
  | stalled => exact ⟨rfl, rfl⟩

/-! ## Turns -/

variable [Div α]

/-- What a turn comes to, and what it leaves of the bucket. -/
inductive Bucket.Turned (bucket : Bucket α) (now : α) : Turn α × Bucket α → Prop where
  | admitted (token : (bucket.refill now).isShort = false) :
      Turned bucket now (.admitted, (bucket.refill now).take)
  | sleep (short : (bucket.refill now).isShort = true) (runs : 0 < bucket.refillPerMs) :
      Turned bucket now (.sleep (bucket.refill now).wait, bucket.refill now)
  | stalled (short : (bucket.refill now).isShort = true) (stands : ¬0 < bucket.refillPerMs) :
      Turned bucket now (.stalled, bucket.refill now)

theorem Bucket.turned (bucket : Bucket α) (now : α) : Turned bucket now (bucket.turn now) := by
  cases hshort : (bucket.refill now).isShort with
  | false =>
    have hturn : bucket.turn now = (.admitted, (bucket.refill now).take) := by simp [turn, hshort]
    exact hturn ▸ .admitted hshort
  | true =>
    by_cases hpos : 0 < bucket.refillPerMs
    · have hturn : bucket.turn now = (.sleep (bucket.refill now).wait, bucket.refill now) := by
        simp only [turn, hshort, if_true]
        exact if_pos hpos
      exact hturn ▸ .sleep hshort hpos
    · have hturn : bucket.turn now = (.stalled, bucket.refill now) := by
        simp only [turn, hshort, if_true]
        exact if_neg hpos
      exact hturn ▸ .stalled hshort hpos

/-! ## Callers -/

section
variable {wakes : Wakes α} {sleeps : List α} {pacer : Pacer α} {passing : Passing α}

/-- With a token at hand there is one turn. -/
theorem awaitToken_of_not_isShort (h : (pacer.bucket.refill pacer.now).isShort = false) :
    awaitToken wakes sleeps pacer =
      some ⟨.paid, sleeps, { pacer with bucket := (pacer.bucket.refill pacer.now).take }⟩ := by
  have hturned := pacer.bucket.turned pacer.now
  unfold awaitToken
  generalize pacer.bucket.turn pacer.now = outcome at hturned ⊢
  cases hturned with
  | admitted token => rfl
  | sleep short runs => simp [h] at short
  | stalled short stands => simp [h] at short

/-- Without one, and when time brings none, there is one turn as well. -/
theorem awaitToken_of_stalls (h : pacer.stalls = true) :
    awaitToken wakes sleeps pacer =
      some ⟨.stalled, sleeps, { pacer with bucket := pacer.bucket.refill pacer.now }⟩ := by
  have hturned := pacer.bucket.turned pacer.now
  unfold awaitToken
  generalize pacer.bucket.turn pacer.now = outcome at hturned ⊢
  cases hturned with
  | admitted token => simp [Pacer.stalls, token] at h
  | sleep short runs => simp [Pacer.stalls, runs] at h
  | stalled short stands => rfl

theorem acquire_of_not_isShort (henabled : pacer.bucket.enabled = true)
    (h : (pacer.bucket.refill pacer.now).isShort = false) :
    acquire wakes pacer =
      some ⟨.paid, [], { pacer with bucket := (pacer.bucket.refill pacer.now).take }⟩ := by
  rw [acquire, if_pos henabled, awaitToken_of_not_isShort h]

theorem acquire_of_stalls (henabled : pacer.bucket.enabled = true) (h : pacer.stalls = true) :
    acquire wakes pacer =
      some ⟨.stalled, [], { pacer with bucket := pacer.bucket.refill pacer.now }⟩ := by
  rw [acquire, if_pos henabled, awaitToken_of_stalls h]

/-- A caller that waits and is not turned away at once ends with a token. -/
theorem paid_of_awaitToken (h : awaitToken wakes sleeps pacer = some passing)
    (hruns : pacer.stalls = false) :
    ∃ bucket now slept, passing = ⟨.paid, slept, ⟨bucket.take, now⟩⟩ ∧
      pacer.bucket.RefillsTo bucket ∧ bucket.isShort = false := by
  fun_induction awaitToken wakes sleeps pacer with
  | case1 wakes sleeps pacer bucket hturn =>
    obtain rfl := Option.some.inj h
    have hturned := pacer.bucket.turned pacer.now
    rw [hturn] at hturned
    cases hturned with
    | admitted token => exact ⟨_, _, _, rfl, Bucket.refillsTo_refill _ _, token⟩
  | case2 wakes sleeps pacer bucket hturn =>
    have hturned := pacer.bucket.turned pacer.now
    rw [hturn] at hturned
    cases hturned with
    | stalled short stands => simp [Pacer.stalls, short, stands] at hruns
  | case3 => exact absurd h.symm (Option.some_ne_none _)
  | case4 sleeps pacer seconds bucket wake wakes hturn ih =>
    have hturned := pacer.bucket.turned pacer.now
    rw [hturn] at hturned
    cases hturned with
    | sleep short runs =>
      obtain ⟨bucket, now, slept, rfl, hrefills, htoken⟩ :=
        ih h (Pacer.stalls_eq_false_of_pos runs)
      exact ⟨bucket, now, slept, rfl, .head ⟨pacer.now, rfl⟩ hrefills, htoken⟩

/-- A caller leaves freely, with a token, or turned away. -/
theorem leaves_of_acquire (h : acquire wakes pacer = some passing) : Leaves pacer passing := by
  cases henabled : pacer.bucket.enabled with
  | false =>
    rw [acquire, henabled, if_neg Bool.false_ne_true] at h
    obtain rfl := Option.some.inj h
    exact .free henabled
  | true =>
    cases hstalls : pacer.stalls with
    | false =>
      rw [acquire, if_pos henabled] at h
      obtain ⟨bucket, now, slept, rfl, hrefills, htoken⟩ := paid_of_awaitToken h hstalls
      exact .paid henabled hstalls hrefills htoken
    | true =>
      rw [acquire_of_stalls henabled hstalls] at h
      obtain rfl := Option.some.inj h
      exact .stalled henabled hstalls

end

end Toolgate.Pacing
