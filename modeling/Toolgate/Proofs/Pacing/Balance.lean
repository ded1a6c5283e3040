import Toolgate.Proofs.Pacing.Window

/-!
# The balance of a bucket

Over exact numbers, and on any clock, also one that goes back, a bucket never holds less than no
token or more than its capacity. A refill takes nothing away, since a clock that went back counts as
one that stood still, and a token is taken only where there is one. Without a rate nothing is ever
done to the bucket: whoever comes leaves at once.

## Main definitions

* `Bucket.Balanced`: the tokens of a bucket are between nothing and its capacity
* `Gate.Idle`: nothing was done to the bucket, and nobody waits

## Main statements

* `acquire_isSome_of_slept`: a caller leaves once a sleep lasts as long as it is asked to
* `tokens_within_capacity`: the balance after any run, what an event does to it, and what happens
  without a rate
-/

namespace Toolgate.Pacing

/-! ## Buckets -/

/-- The bucket is one of the rate, and its tokens are between nothing and the capacity. -/
structure Bucket.Balanced (rate : ℚ) (bucket : Bucket ℚ) : Prop where
  ofRate : bucket.OfRate rate
  nonneg : 0 ≤ bucket.tokens
  le_capacity : bucket.tokens ≤ bucket.capacity

namespace Bucket

variable {rate : ℚ} {bucket : Bucket ℚ}

theorem balanced_new (rate now : ℚ) : Balanced rate (new rate now) where
  ofRate := ofRate_new rate now
  nonneg := zero_le_one
  le_capacity := (ofRate_new rate now).capacity_eq ▸ le_max_left 1 rate

/-- A refill takes nothing away, whatever the clock says. -/
theorem Balanced.tokens_le_refill (h : Balanced rate bucket) (hrate : 0 < rate) (now : ℚ) :
    bucket.tokens ≤ (bucket.refill now).tokens := by
  have hgain : 0 ≤ greater 0 (milliseconds now - bucket.lastRefill) * bucket.refillPerMs := by
    rw [greater_eq_max, h.ofRate.refillPerMs_eq]
    exact mul_nonneg (le_max_left 0 _) (div_nonneg hrate.le (by norm_num))
  rw [Bucket.refill, lesser_eq_min]
  exact le_min h.le_capacity (le_add_of_nonneg_right hgain)

theorem Balanced.refill (h : Balanced rate bucket) (hrate : 0 < rate) (now : ℚ) :
    Balanced rate (bucket.refill now) where
  ofRate := h.ofRate.refill
  nonneg := h.nonneg.trans (h.tokens_le_refill hrate now)
  le_capacity := by
    rw [Bucket.refill, lesser_eq_min]
    exact min_le_left _ _

/-- Where there is a token, one can be taken. -/
theorem Balanced.take (h : Balanced rate bucket) (token : bucket.isShort = false) :
    Balanced rate bucket.take where
  ofRate := h.ofRate.take
  nonneg := sub_nonneg.mpr (one_le_tokens_of_not_isShort token)
  le_capacity := (sub_le_self _ zero_le_one).trans h.le_capacity

/-- A bucket paces just when its rate is above zero. -/
theorem OfRate.enabled_iff (h : OfRate rate bucket) : bucket.enabled = true ↔ 0 < rate := by
  rw [enabled, h.rate_eq, decide_eq_true_iff]

end Bucket

/-! ## Callers -/

/-- A caller waits for the rest of a token. -/
theorem Bucket.OfRate.wait_mul_rate {rate : ℚ} {bucket : Bucket ℚ} (h : bucket.OfRate rate)
    (hrate : 0 < rate) : bucket.wait * rate = 1 - bucket.tokens := by
  rw [wait, h.refillPerMs_eq]
  field_simp

/-- A short bucket has to be waited for. -/
theorem Bucket.OfRate.wait_pos {rate : ℚ} {bucket : Bucket ℚ} (h : bucket.OfRate rate)
    (hrate : 0 < rate) (short : bucket.isShort = true) : 0 < bucket.wait := by
  have hshort : bucket.tokens < 1 := by simpa [isShort] using short
  have hrest : 0 < bucket.wait * rate := (h.wait_mul_rate hrate).symm ▸ sub_pos.mpr hshort
  exact (mul_pos_iff_of_pos_right hrate).mp hrest

/-- A caller that has slept as long as it was asked to finds a token. -/
theorem Bucket.OfRate.not_isShort_of_slept {rate : ℚ} {bucket : Bucket ℚ} {now wake : ℚ}
    (h : bucket.OfRate rate) (hrate : 0 < rate) (short : bucket.isShort = true)
    (hlast : bucket.lastRefill = milliseconds now) (hslept : now + bucket.wait ≤ wake) :
    (bucket.refill wake).isShort = false := by
  have hwait := h.wait_mul_rate hrate
  have hwait_nonneg : 0 ≤ bucket.wait := (h.wait_pos hrate short).le
  have hrefilled : bucket.refilledAt = now := by
    rw [refilledAt, hlast, milliseconds, mul_div_cancel_right₀ now (by norm_num)]
  have hgain : bucket.wait * rate ≤ rate * (wake - now) := by
    rw [mul_comm]
    exact mul_le_mul_of_nonneg_left (by linarith) hrate.le
  have htokens : 1 ≤ (bucket.refill wake).tokens := by
    rw [h.tokens_refill (by rw [hrefilled]; linarith), hrefilled]
    exact le_min (le_max_left 1 rate) (by linarith)
  simpa [isShort] using htokens

/-- A caller leaves when one of its sleeps lasts as long as it is asked to. -/
theorem exists_awaitToken_of_slept {rate : ℚ} (hrate : 0 < rate) {wakes : Wakes ℚ}
    (hslept : ∃ wake ∈ wakes, ∀ now seconds, now + seconds ≤ wake now seconds)
    {pacer : Pacer ℚ} (h : pacer.bucket.OfRate rate) (sleeps : List ℚ) :
    (awaitToken wakes sleeps pacer).isSome = true := by
  induction wakes generalizing pacer sleeps with
  | nil => simp at hslept
  | cons wake rest ih =>
    have hturned := pacer.bucket.turned pacer.now
    unfold awaitToken
    generalize pacer.bucket.turn pacer.now = outcome at hturned ⊢
    cases hturned with
    | admitted token => rfl
    | stalled short stands => rfl
    | sleep short runs =>
      obtain ⟨lasting, hmem, hlasts⟩ := hslept
      rcases List.mem_cons.mp hmem with rfl | hrest
      · let asked := (pacer.bucket.refill pacer.now).wait
        let slept : Pacer ℚ := ⟨pacer.bucket.refill pacer.now, lasting pacer.now asked⟩
        have htoken : (slept.bucket.refill slept.now).isShort = false :=
          h.refill.not_isShort_of_slept hrate short rfl (hlasts pacer.now asked)
        exact Option.isSome_of_eq_some (awaitToken_of_not_isShort htoken)
      · exact ih ⟨lasting, hrest, hlasts⟩ h.refill _

theorem acquire_isSome_of_slept {rate : ℚ} {wakes : Wakes ℚ}
    (hslept : ∃ wake ∈ wakes, ∀ now seconds, now + seconds ≤ wake now seconds)
    {pacer : Pacer ℚ} (h : pacer.bucket.OfRate rate) : (acquire wakes pacer).isSome = true := by
  unfold acquire
  split
  · next henabled =>
    have hrate : 0 < rate := by simpa [Bucket.enabled, h.rate_eq] using henabled
    exact exists_awaitToken_of_slept hrate hslept h []
  · rfl

namespace Gate

variable {rate start : ℚ} {gate after : Gate ℚ}

/-! ## Events with pacing -/

/-- What an event does to the tokens: none are lost, or a caller is let through that takes one of
those that are there after a refill. -/
theorem Effect.tokens {clock : ℚ → Prop} (hrate : 0 < rate)
    (h : gate.pacer.bucket.Balanced rate) (heffect : Effect clock gate after) :
    after.admissions = gate.admissions ∧
        gate.pacer.bucket.tokens ≤ after.pacer.bucket.tokens ∨
      after.admissions = gate.pacer.now :: gate.admissions ∧
        1 ≤ (gate.pacer.bucket.refill gate.pacer.now).tokens ∧
        after.pacer.bucket = (gate.pacer.bucket.refill gate.pacer.now).take := by
  cases heffect with
  | still pacer admissions => exact .inl ⟨admissions, by rw [pacer]⟩
  | moved seconds allowed pacer admissions => exact .inl ⟨admissions, by rw [pacer]⟩
  | refilled pacer admissions =>
    refine .inl ⟨admissions, ?_⟩
    rw [pacer]
    exact h.tokens_le_refill hrate gate.pacer.now
  | admitted token pacer admissions =>
    exact .inr ⟨admissions, Bucket.one_le_tokens_of_not_isShort token, by rw [pacer]⟩

/-- An event keeps the balance. -/
theorem Effect.balanced {clock : ℚ → Prop} (hrate : 0 < rate)
    (h : gate.pacer.bucket.Balanced rate) (heffect : Effect clock gate after) :
    after.pacer.bucket.Balanced rate := by
  cases heffect with
  | still pacer _ => exact pacer ▸ h
  | moved seconds allowed pacer _ => exact pacer ▸ h
  | refilled pacer _ => exact pacer ▸ h.refill hrate gate.pacer.now
  | admitted token pacer _ => exact pacer ▸ (h.refill hrate gate.pacer.now).take token

theorem balanced_run (hrate : 0 < rate) (start : ℚ) (events : List (Event ℚ)) :
    ((new rate start).run events).pacer.bucket.Balanced rate :=
  run_induction (P := fun gate => gate.pacer.bucket.Balanced rate)
    (Bucket.balanced_new rate start) events fun _ _ _ _ h heffect => heffect.balanced hrate h

/-! ## Events without pacing -/

/-- Nothing was done to the bucket since the start; nobody sleeps or waits in line, and all who came
have left without a token. -/
structure Idle (rate start : ℚ) (gate : Gate ℚ) : Prop where
  bucket : gate.pacer.bucket = .new rate start
  holder : gate.holder = none
  line : gate.line = []
  exits : ∀ exit ∈ gate.exits, exit.passage = .free

theorem idle_new (rate start : ℚ) : Idle rate start (new rate start) :=
  ⟨rfl, rfl, rfl, by simp [new]⟩

/-- Without a rate nobody gets to the gate, so that no event does anything but let callers leave. -/
theorem Idle.step (hrate : rate ≤ 0) (h : Idle rate start gate) (event : Event ℚ) :
    Idle rate start (gate.step event) ∧ (gate.step event).admissions = gate.admissions := by
  obtain ⟨hbucket, hholder, hline, hexits⟩ := h
  cases event with
  | advance seconds => exact ⟨⟨hbucket, hholder, hline, hexits⟩, rfl⟩
  | arrive caller =>
    have hdisabled : gate.pacer.bucket.enabled = false := by
      rw [hbucket, ← Bool.not_eq_true, (Bucket.ofRate_new rate start).enabled_iff]
      exact not_lt.mpr hrate
    have hstep : gate.step (.arrive caller) = gate.leave caller .free := by
      simp [Gate.step, hdisabled]
    rw [hstep]
    refine ⟨⟨hbucket, hholder, hline, ?_⟩, admissions_leave_of_ne _ _ (by decide)⟩
    exact List.forall_mem_cons.mpr ⟨rfl, hexits⟩
  | enter caller =>
    have hstep : gate.step (.enter caller) = gate := by simp [Gate.step, hline]
    rw [hstep]
    exact ⟨⟨hbucket, hholder, hline, hexits⟩, rfl⟩
  | wake =>
    have hstep : gate.step .wake = gate := by simp [Gate.step, hholder]
    rw [hstep]
    exact ⟨⟨hbucket, hholder, hline, hexits⟩, rfl⟩
  | giveUp caller =>
    exact ⟨⟨hbucket, by simp [Gate.step, hholder], by simp [Gate.step, hline], hexits⟩, rfl⟩

theorem idle_run (hrate : rate ≤ 0) (start : ℚ) (events : List (Event ℚ)) :
    Idle rate start ((new rate start).run events) := by
  have hrun (gate : Gate ℚ) (h : Idle rate start gate) : Idle rate start (gate.run events) := by
    induction events generalizing gate with
    | nil => exact h
    | cons event rest ih => exact ih _ (h.step hrate event).1
  exact hrun _ (idle_new rate start)

/-! ## Every run -/

/-- After any run on any clock the tokens are between nothing and the capacity. An event that comes
next takes no token, or lets a caller through that takes one where there is one at least. Without a
rate the bucket stays as it was, nobody ever sleeps or waits, and whoever comes leaves at once. -/
theorem tokens_within_capacity (rate start : ℚ) (events : List (Event ℚ)) :
    let gate := (new rate start).run events
    let bucket := gate.pacer.bucket
    (0 ≤ bucket.tokens ∧ bucket.tokens ≤ bucket.capacity ∧ bucket.capacity = max 1 rate) ∧
    (∀ event, let after := gate.step event
      after.admissions = gate.admissions ∧ bucket.tokens ≤ after.pacer.bucket.tokens ∨
        after.admissions = gate.pacer.now :: gate.admissions ∧
          1 ≤ (bucket.refill gate.pacer.now).tokens ∧
          after.pacer.bucket = (bucket.refill gate.pacer.now).take) ∧
    (rate ≤ 0 → bucket = .new rate start ∧ gate.holder = none ∧ gate.line = [] ∧
      (∀ exit ∈ gate.exits, exit.passage = .free) ∧
      ∀ wakes, acquire wakes gate.pacer = some { passage := .free, pacer := gate.pacer }) := by
  intro gate bucket
  rcases lt_or_ge 0 rate with hrate | hrate
  · have hbalanced : bucket.Balanced rate := balanced_run hrate start events
    refine ⟨⟨hbalanced.nonneg, hbalanced.le_capacity, hbalanced.ofRate.capacity_eq⟩,
      fun event => ?_, fun hnone => absurd hrate (not_lt.mpr hnone)⟩
    exact (effect_step gate event).tokens hrate hbalanced
  · have hidle : Idle rate start gate := idle_run hrate start events
    have hbalanced : bucket.Balanced rate := by
      rw [show bucket = .new rate start from hidle.bucket]
      exact Bucket.balanced_new rate start
    refine ⟨⟨hbalanced.nonneg, hbalanced.le_capacity, hbalanced.ofRate.capacity_eq⟩,
      fun event => ?_, fun _ => ⟨hidle.bucket, hidle.holder, hidle.line, hidle.exits, ?_⟩⟩
    · obtain ⟨hafter, hadmissions⟩ := hidle.step hrate event
      refine .inl ⟨hadmissions, ?_⟩
      rw [hafter.bucket, ← hidle.bucket]
    · intro wakes
      have hdisabled : ¬gate.pacer.bucket.enabled = true := by
        rw [hbalanced.ofRate.enabled_iff]
        exact not_lt.mpr hrate
      rw [acquire, if_neg hdisabled]

/-- Without a rate a caller that comes after the clock went back leaves the bucket as it was. -/
theorem tokens_within_capacity_unpaced :
    let gate : Gate ℚ := (new (-3) 0).run [.arrive 1, .advance (-5), .arrive 2, .wake]
    (-3 : ℚ) ≤ 0 ∧ gate.pacer.bucket = .new (-3) 0 ∧ gate.holder = none ∧
      gate.exits.map (·.caller) = [2, 1] := by
  intro gate
  have hrate : (-3 : ℚ) ≤ 0 := by norm_num
  obtain ⟨hbucket, hholder, -⟩ := (tokens_within_capacity (-3) 0 _).2.2 hrate
  exact ⟨hrate, hbucket, hholder, by decide +kernel⟩

end Gate

end Toolgate.Pacing
