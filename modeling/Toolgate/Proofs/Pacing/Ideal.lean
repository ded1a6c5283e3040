import Mathlib.Order.Bounds.Basic
import Toolgate.Proofs.Pacing.Balance

/-!
# The bucket in continuous time

In continuous time a bucket needs no refills: its tokens come in at the rate, up to the capacity,
and a caller is let through at the first instant at which there is one. Over exact numbers, and with
sleeps that last just as long as they are asked to, the pacer lets every caller through at that
instant and leaves what the bucket in continuous time would hold. A caller that finds less than a
token sleeps once, for the time that the rest of the token takes to come in; it does come in since
the capacity is one at least, whatever the rate.

## Main definitions

* `Ideal`, `Ideal.level`: a bucket in continuous time, and what it holds at a time
* `Ideal.Serves`: callers served in order, each as soon as there is a token
* `serve`: callers that come to a pacer one after the other

## Main statements

* `serves_serve`: the pacer serves callers as the bucket in continuous time does
-/

namespace Toolgate.Pacing

/-! ## Callers in order -/

/-- A bucket in continuous time, with the tokens that it held at a time in seconds. -/
@[ext] structure Ideal where
  /-- Tokens per second. -/
  rate : ℚ
  capacity : ℚ
  tokens : ℚ
  time : ℚ

namespace Ideal

/-- The tokens at a later time, when none is taken until then. -/
def level (ideal : Ideal) (t : ℚ) : ℚ :=
  min ideal.capacity (ideal.tokens + ideal.rate * (t - ideal.time))

/-- The bucket with a token taken out at a later time. -/
def takenAt (ideal : Ideal) (t : ℚ) : Ideal :=
  { ideal with tokens := ideal.level t - 1, time := t }

/-- The times at which there is a token for a caller that comes at a time, from the latest
admission on. -/
def openTimes (ideal : Ideal) (arrival : ℚ) : Set ℚ :=
  {t | arrival ≤ t ∧ ideal.time ≤ t ∧ 1 ≤ ideal.level t}

/-- Callers that come at given times are served in order, each as soon as there is a token for it.
What is left after each is a bucket whose time is that of the admission. -/
inductive Serves : Ideal → List ℚ → List Ideal → Prop where
  | nil (ideal : Ideal) : Serves ideal [] []
  | cons {ideal : Ideal} {arrival t : ℚ} {arrivals : List ℚ} {later : List Ideal}
      (least : IsLeast (ideal.openTimes arrival) t)
      (rest : Serves (ideal.takenAt t) arrivals later) :
      Serves ideal (arrival :: arrivals) (ideal.takenAt t :: later)

/-- Where just one token has come in, that is the first time at which there is one. -/
theorem isLeast_of_full {ideal : Ideal} {arrival t : ℚ} (hrate : 0 < ideal.rate)
    (hcapacity : 1 ≤ ideal.capacity) (harrival : arrival ≤ t) (htime : ideal.time ≤ t)
    (hfull : ideal.tokens + ideal.rate * (t - ideal.time) = 1) :
    ideal.level t = 1 ∧ IsLeast (ideal.openTimes arrival) t := by
  have hlevel : ideal.level t = 1 := by
    rw [level, hfull]
    exact min_eq_right hcapacity
  refine ⟨hlevel, ⟨harrival, htime, hlevel.ge⟩, ?_⟩
  rintro s ⟨-, -, htoken⟩
  have hin : 1 ≤ ideal.tokens + ideal.rate * (s - ideal.time) := htoken.trans (min_le_right _ _)
  rw [← hfull, add_le_add_iff_left, mul_le_mul_iff_right₀ hrate] at hin
  exact (sub_le_sub_iff_right _).mp hin

end Ideal

/-- Callers that come to a pacer at given times, one after the other: each begins when it has come
and the one before it has left. None when a sleep does not end. -/
def serve (wakes : Wakes ℚ) (pacer : Pacer ℚ) : List ℚ → Option (List (Passing ℚ))
  | [] => some []
  | arrival :: rest =>
    (acquire wakes { pacer with now := max pacer.now arrival }).bind fun passing =>
      (serve wakes passing.pacer rest).map (passing :: ·)

/-- Sleeps that last as long as they are asked to, one and `more`. -/
def punctualWakes (more : ℕ) : Wakes ℚ :=
  List.replicate (more + 1) fun now seconds => now + seconds

/-- The bucket in continuous time that holds what the bucket of a pacer holds now. -/
def Pacer.ideal (pacer : Pacer ℚ) : Ideal where
  rate := pacer.bucket.rate
  capacity := pacer.bucket.capacity
  tokens := pacer.bucket.tokens
  time := pacer.now

/-! ## One caller -/

/-- Between two callers the bucket was refilled last when the clock stood where it stands now. -/
structure Pacer.Settled (rate : ℚ) (pacer : Pacer ℚ) : Prop where
  ofRate : pacer.bucket.OfRate rate
  refilledAt_eq : pacer.bucket.refilledAt = pacer.now

theorem Pacer.settled_new (rate start : ℚ) : Settled rate ⟨.new rate start, start⟩ :=
  ⟨Bucket.ofRate_new rate start, Bucket.refilledAt_new rate start⟩

section
variable {rate now t : ℚ} {bucket : Bucket ℚ} {pacer : Pacer ℚ}

/-- A short bucket holds what has come in. -/
theorem Bucket.OfRate.tokens_refill_of_isShort (h : bucket.OfRate rate)
    (hnow : bucket.refilledAt ≤ now) (short : (bucket.refill now).isShort = true) :
    (bucket.refill now).tokens = bucket.tokens + rate * (now - bucket.refilledAt) := by
  have hshort : (bucket.refill now).tokens < 1 := by simpa [isShort] using short
  rw [h.tokens_refill hnow, min_lt_iff] at hshort
  have hcapacity : (1 : ℚ) ≤ max 1 rate := le_max_left 1 rate
  rw [h.tokens_refill hnow, min_eq_right]
  exact (hshort.resolve_left (not_lt.mpr hcapacity)).le.trans hcapacity

/-- After a refill the tokens are the level of the bucket in continuous time. -/
theorem Pacer.Settled.tokens_refill (h : pacer.Settled rate) (ht : pacer.now ≤ t) :
    (pacer.bucket.refill t).tokens = pacer.ideal.level t := by
  rw [h.ofRate.tokens_refill (h.refilledAt_eq.trans_le ht), h.refilledAt_eq]
  simp only [Ideal.level, ideal, h.ofRate.capacity_eq, h.ofRate.rate_eq]

/-- What comes of a caller that comes to a settled pacer at a time. -/
structure Passing.Prompt (rate : ℚ) (pacer : Pacer ℚ) (arrival : ℚ) (passing : Passing ℚ) :
    Prop where
  /-- It leaves as soon as there is a token. -/
  least : IsLeast (pacer.ideal.openTimes arrival) passing.pacer.now
  left : passing.pacer.ideal = pacer.ideal.takenAt passing.pacer.now
  settled : passing.pacer.Settled rate
  paid : passing.passage = .paid
  once : passing.sleeps.length ≤ 1

/-- With a token at hand a caller leaves at once. -/
theorem Pacer.Settled.prompt_of_not_isShort {arrival : ℚ} (h : pacer.Settled rate)
    (token : (pacer.bucket.refill (max pacer.now arrival)).isShort = false) :
    Passing.Prompt rate pacer arrival ⟨.paid, [],
      ⟨(pacer.bucket.refill (max pacer.now arrival)).take, max pacer.now arrival⟩⟩ := by
  have htokens := h.tokens_refill (le_max_left pacer.now arrival)
  have htoken := Bucket.one_le_tokens_of_not_isShort token
  refine ⟨⟨⟨le_max_right _ _, le_max_left _ _, htokens ▸ htoken⟩, ?_⟩, ?_, ?_, rfl, Nat.zero_le 1⟩
  · rintro t ⟨harrival, htime, -⟩
    exact max_le htime harrival
  · ext
    · rfl
    · rfl
    · exact congrArg (· - 1) htokens
    · rfl
  · exact ⟨h.ofRate.refill.take, by simp⟩

/-- Without one it sleeps once, and leaves when the token is full. -/
theorem Pacer.Settled.prompt_of_isShort {arrival : ℚ} (h : pacer.Settled rate) (hrate : 0 < rate)
    (short : (pacer.bucket.refill (max pacer.now arrival)).isShort = true) :
    let bucket := pacer.bucket.refill (max pacer.now arrival)
    let wake := max pacer.now arrival + bucket.wait
    Passing.Prompt rate pacer arrival ⟨.paid, [bucket.wait], ⟨(bucket.refill wake).take, wake⟩⟩ := by
  intro bucket wake
  have hbucket : bucket.OfRate rate := h.ofRate.refill
  have hbegin : pacer.now ≤ max pacer.now arrival := le_max_left _ _
  have hwait := hbucket.wait_mul_rate hrate
  have htokens : bucket.tokens =
      pacer.bucket.tokens + rate * (max pacer.now arrival - pacer.now) := by
    rw [h.ofRate.tokens_refill_of_isShort (h.refilledAt_eq.trans_le hbegin) short, h.refilledAt_eq]
  -- What has come in when the sleep ends is one token, be it all at once or in two parts.
  have hfull : pacer.bucket.tokens + rate * (wake - pacer.now) = 1 := by
    have hrest : rate * (wake - pacer.now) =
        rate * (max pacer.now arrival - pacer.now) + bucket.wait * rate := by ring
    rw [hrest, hwait, htokens]
    ring
  have hlater : max pacer.now arrival ≤ wake :=
    le_add_of_nonneg_right (hbucket.wait_pos hrate short).le
  have hcapacity : 1 ≤ pacer.bucket.capacity := h.ofRate.capacity_eq ▸ le_max_left 1 rate
  have hideal : pacer.ideal.tokens + pacer.ideal.rate * (wake - pacer.ideal.time) = 1 := by
    simpa [Pacer.ideal, h.ofRate.rate_eq] using hfull
  obtain ⟨hlevel, hleast⟩ := Ideal.isLeast_of_full (hrate.trans_eq h.ofRate.rate_eq.symm)
    hcapacity ((le_max_right _ _).trans hlater) (hbegin.trans hlater) hideal
  have hrefilled : (bucket.refill wake).tokens = pacer.ideal.level wake := by
    have hlast : bucket.refilledAt = max pacer.now arrival := Bucket.refilledAt_refill _ _
    have hrest : bucket.tokens + rate * (wake - max pacer.now arrival) = 1 := by
      rw [show wake - max pacer.now arrival = bucket.wait from add_sub_cancel_left _ _, mul_comm,
        hwait, add_sub_cancel]
    rw [hbucket.tokens_refill (hlast.trans_le hlater), hlast, hrest, hlevel]
    exact min_eq_right (le_max_left 1 rate)
  refine ⟨hleast, ?_, ?_, rfl, le_refl 1⟩
  · ext
    · rfl
    · rfl
    · exact congrArg (· - 1) hrefilled
    · rfl
  · exact ⟨hbucket.refill.take, by simp⟩

/-- A caller that comes to a settled pacer is served promptly. -/
theorem Pacer.Settled.exists_acquire (h : pacer.Settled rate) (hrate : 0 < rate) (more : ℕ)
    (arrival : ℚ) :
    ∃ passing, acquire (punctualWakes more) { pacer with now := max pacer.now arrival } =
      some passing ∧ passing.Prompt rate pacer arrival := by
  have henabled : pacer.bucket.enabled = true := h.ofRate.enabled_iff.mpr hrate
  cases hshort : (pacer.bucket.refill (max pacer.now arrival)).isShort with
  | false => exact ⟨_, acquire_of_not_isShort henabled hshort, h.prompt_of_not_isShort hshort⟩
  | true =>
    refine ⟨_, ?_, h.prompt_of_isShort hrate hshort⟩
    have hbucket : (pacer.bucket.refill (max pacer.now arrival)).OfRate rate := h.ofRate.refill
    have htoken := hbucket.not_isShort_of_slept hrate hshort rfl le_rfl
    have hturned := pacer.bucket.turned (max pacer.now arrival)
    rw [acquire, if_pos henabled, punctualWakes, List.replicate_succ]
    unfold awaitToken
    generalize pacer.bucket.turn (max pacer.now arrival) = outcome at hturned ⊢
    cases hturned with
    | admitted token => simp [hshort] at token
    | sleep short runs => exact awaitToken_of_not_isShort htoken
    | stalled short stands =>
      rw [h.ofRate.refillPerMs_eq] at stands
      exact absurd (div_pos hrate (by norm_num)) stands

end

/-! ## All callers -/

/-- Callers served one after the other from a settled pacer are served as by the bucket in
continuous time that holds what the pacer holds. -/
theorem Pacer.Settled.exists_serve {rate : ℚ} {pacer : Pacer ℚ} (h : pacer.Settled rate)
    (hrate : 0 < rate) (more : ℕ) (arrivals : List ℚ) :
    ∃ passings, serve (punctualWakes more) pacer arrivals = some passings ∧
      pacer.ideal.Serves arrivals (passings.map (·.pacer.ideal)) ∧
      ∀ passing ∈ passings, passing.passage = .paid ∧ passing.sleeps.length ≤ 1 := by
  induction arrivals generalizing pacer with
  | nil => exact ⟨[], rfl, .nil _, List.forall_mem_nil _⟩
  | cons arrival rest ih =>
    obtain ⟨passing, hacquire, hprompt⟩ := h.exists_acquire hrate more arrival
    obtain ⟨later, hserve, hserves, hpaid⟩ := ih hprompt.settled
    refine ⟨passing :: later, by simp [serve, hacquire, hserve], ?_, ?_⟩
    · rw [hprompt.left] at hserves
      rw [List.map_cons, hprompt.left]
      exact .cons hprompt.least hserves
    · exact List.forall_mem_cons.mpr ⟨⟨hprompt.paid, hprompt.once⟩, hpaid⟩

/-- Callers that wait together for a bucket with no more than a token leave in steps of the time that
a token takes to come in. -/
theorem Ideal.Serves.map_time_replicate {ideal : Ideal} {arrival : ℚ} {n : ℕ} {later : List Ideal}
    (h : ideal.Serves (List.replicate n arrival) later) (hrate : 0 < ideal.rate)
    (hcapacity : 1 ≤ ideal.capacity) (harrival : arrival ≤ ideal.time)
    (htokens : ideal.tokens ≤ 1) :
    later.map (·.time) =
      (List.range n).map fun k : ℕ => ideal.time + (k + (1 - ideal.tokens)) / ideal.rate := by
  induction n generalizing ideal later with
  | zero =>
    cases h with
    | nil => rfl
  | succ n ih =>
    rw [List.replicate_succ] at h
    cases h with
    | @cons _ _ t _ later least rest =>
      have hrest : 0 ≤ (1 - ideal.tokens) / ideal.rate :=
        div_nonneg (sub_nonneg.mpr htokens) hrate.le
      have hnext := le_add_of_nonneg_right (a := ideal.time) hrest
      obtain ⟨hlevel, hleast⟩ := isLeast_of_full hrate hcapacity (harrival.trans hnext) hnext
        (by rw [add_sub_cancel_left, mul_div_cancel₀ _ hrate.ne', add_sub_cancel])
      obtain rfl := least.unique hleast
      have hempty : (ideal.takenAt (ideal.time + (1 - ideal.tokens) / ideal.rate)).tokens = 0 := by
        simp [takenAt, hlevel]
      have htimes := ih rest hrate hcapacity (harrival.trans hnext) (hempty.trans_le zero_le_one)
      rw [List.map_cons, htimes, hempty, List.range_succ_eq_map, List.map_cons, List.map_map]
      simp only [takenAt, List.cons.injEq]
      constructor
      · simp
      · refine List.map_congr_left fun k _ => ?_
        simp only [Function.comp_apply, Nat.succ_eq_add_one]
        push_cast
        ring

/-- The pacer serves callers in order, whatever their times, as the bucket in continuous time does:
each leaves at the first time, neither before it came nor before the one ahead of it left, at which
there is a token, sleeps once at most, and leaves what the bucket in continuous time holds without
that token. Callers that come together at the start leave in steps of the time that a token takes to
come in. -/
theorem serves_serve {rate : ℚ} (hrate : 0 < rate) (start : ℚ) (more : ℕ) :
    let pacer : Pacer ℚ := ⟨.new rate start, start⟩
    (∀ arrivals, ∃ passings, serve (punctualWakes more) pacer arrivals = some passings ∧
      Ideal.Serves ⟨rate, max 1 rate, 1, start⟩ arrivals (passings.map (·.pacer.ideal)) ∧
      ∀ passing ∈ passings, passing.passage = .paid ∧ passing.sleeps.length ≤ 1) ∧
    ∀ n, ∃ passings,
      serve (punctualWakes more) pacer (List.replicate n start) = some passings ∧
      passings.map (·.pacer.now) = (List.range n).map fun k : ℕ => start + k / rate := by
  intro pacer
  have hsettled : pacer.Settled rate := Pacer.settled_new rate start
  have hideal : pacer.ideal = ⟨rate, max 1 rate, 1, start⟩ := by
    ext
    · rfl
    · exact hsettled.ofRate.capacity_eq
    · rfl
    · rfl
  refine ⟨fun arrivals => ?_, fun n => ?_⟩
  · rw [← hideal]
    exact hsettled.exists_serve hrate more arrivals
  · obtain ⟨passings, hserve, hserves, -⟩ :=
      hsettled.exists_serve hrate more (List.replicate n start)
    refine ⟨passings, hserve, ?_⟩
    rw [hideal] at hserves
    have htimes := hserves.map_time_replicate hrate (le_max_left 1 rate) le_rfl le_rfl
    simpa [Function.comp_def, Pacer.ideal] using htimes

/-- Two callers come together when the pacer starts, at a token every two seconds, and a third one
much later: the second leaves with the next token, and the third at once. -/
theorem serves_serve_slow :
    (0 : ℚ) < 1 / 2 ∧ ∃ passings,
      serve (punctualWakes 0) ⟨.new (1 / 2) 0, 0⟩ [0, 0, 10] = some passings ∧
      Ideal.Serves ⟨1 / 2, max 1 (1 / 2), 1, 0⟩ [0, 0, 10] (passings.map (·.pacer.ideal)) ∧
      passings.map (fun passing => (passing.pacer.now, passing.sleeps)) =
        [(0, []), (2, [2]), (10, [])] := by
  have hrate : (0 : ℚ) < 1 / 2 := by norm_num
  obtain ⟨passings, hserve, hserves, -⟩ := (serves_serve hrate 0 0).1 [0, 0, 10]
  refine ⟨hrate, passings, hserve, hserves, ?_⟩
  have hrun : (serve (punctualWakes 0) ⟨.new (1 / 2) 0, 0⟩ [0, 0, 10]).map
      (List.map fun passing => (passing.pacer.now, passing.sleeps)) =
        some [(0, []), (2, [2]), (10, [])] := by decide +kernel
  rw [hserve] at hrun
  exact Option.some.inj hrun

end Toolgate.Pacing
