import Toolgate.Pacing.Rate
import Toolgate.Proofs.Service.Payment
import Toolgate.Service.Session

/-!
# Tokens and requests of a session

In a session only readings of resources and calls whose arguments are accepted go to the pacer; all
other steps do nothing. With pacing each of the former takes one token, whatever becomes of its
request, and the requests are covered by the tokens at every moment.

There is one exception. A caller that finds no token while time brings none is turned away, and its
step ends without a token and without a request. A rate above zero can be so small that this
happens: its thousandth may be rounded to nothing.

## Main statements

* `performed_of_perform`: what a step does
* `debits_eq_of_run`: the requests and tokens of a session
-/

namespace Toolgate.Service

variable {α : Type} [Add α] [Sub α] [Mul α] [LT α] [DecidableLT α] [OfNat α 0] [OfNat α 1]
  [OfNat α 1000]

namespace Session

/-! ## Steps -/

/-- Does a step go to the pacer? Readings of resources do, and calls that lead to a request. -/
def Step.isPaced (table : Catalog.Table) : Step α → Bool
  | .call name arguments _ => (lookupField name table.operations).any (isUpstreamCall · arguments)
  | .read name _ _ => (lookupField name table.resources).isSome
  | .check _ _ | .advance _ => false

/-- The pacer after a step that does not go to it: the same, but for the time that goes by. -/
def Step.elapse (pacer : Pacing.Pacer α) : Step α → Pacing.Pacer α
  | .advance seconds => { pacer with now := pacer.now + seconds }
  | _ => pacer

/-- What a step does that comes upon a pacer. -/
inductive Performed (table : Catalog.Table) (pacer : Pacing.Pacer α) (step : Step α) :
    Done α Answer → Prop where
  | idle {answer : Answer} (unpaced : step.isPaced table = false) :
      Performed table pacer step { result := answer, pacer := step.elapse pacer }
  | paced {passing : Pacing.Passing α} {done : Done α Answer} (paced : step.isPaced table = true)
      (leaves : Pacing.Leaves pacer passing) (follows : Follows passing done) :
      Performed table pacer step done

variable {table : Catalog.Table} {pacer : Pacing.Pacer α} {step : Step α} {done : Done α Answer}

/-- The rate of the pacer outlasts a step. -/
theorem Performed.rate_eq (h : Performed table pacer step done) :
    done.pacer.bucket.rate = pacer.bucket.rate ∧
      done.pacer.bucket.refillPerMs = pacer.bucket.refillPerMs := by
  cases h with
  | idle unpaced => cases step <;> exact ⟨rfl, rfl⟩
  | paced _ leaves follows => exact follows.pacer ▸ leaves.rate_eq

theorem Performed.requests_length_le (h : Performed table pacer step done) :
    done.requests.length ≤ 1 := by
  cases h with
  | idle unpaced => exact Nat.zero_le 1
  | paced paced leaves follows => exact follows.requests_length_le

theorem Performed.of_unpaced (h : Performed table pacer step done)
    (hunpaced : step.isPaced table = false) :
    done.deeds = [] ∧ done.pacer = step.elapse pacer := by
  cases h with
  | idle unpaced => exact ⟨rfl, rfl⟩
  | paced paced leaves follows => simp [hunpaced] at paced

theorem Performed.of_paced (h : Performed table pacer step done)
    (henabled : pacer.bucket.enabled = true) (hpaced : step.isPaced table = true) :
    pacer.stalls = false ∧ IsPaid pacer done ∨ pacer.stalls = true ∧ done.deeds = [] := by
  cases h with
  | idle unpaced => simp [hpaced] at unpaced
  | paced paced leaves follows => exact follows.isPaid_or_stalls leaves henabled

/-! ## Sessions -/

/-- A step of a session, the pacer that it came upon, and what came of it. -/
structure Visit (α : Type) where
  step : Step α
  found : Pacing.Pacer α
  done : Done α Answer

/-- The steps of a session with what came of them; each comes upon the pacer that the step before it
left. -/
def visits (pacer : Pacing.Pacer α) : List (Step α) → List (Done α Answer) → List (Visit α)
  | step :: steps, done :: dones => ⟨step, pacer, done⟩ :: visits done.pacer steps dones
  | _, _ => []

variable [Div α]

theorem goesToPacer_perform (h : step.isPaced table = true) :
    GoesToPacer (perform table · step) := by
  cases step with
  | call name arguments upstream =>
    obtain ⟨operation, hname, hcall⟩ := (Option.any_eq_true _ _).mp h
    simp only [perform, hname]
    exact (goesToPacer_invoke upstream hcall).map Answer.called
  | check name arguments => exact absurd h Bool.false_ne_true
  | read name given upstream =>
    obtain ⟨resource, hname⟩ := Option.isSome_iff_exists.mp h
    simp only [perform, hname]
    exact (goesToPacer_readResource upstream resource given).map Answer.read
  | advance seconds => exact absurd h Bool.false_ne_true

/-- A step that does not go to the pacer comes to its answer and leaves the pacer alone. -/
theorem perform_of_not_isPaced (pacer : Pacing.Pacer α) (h : step.isPaced table = false) :
    ∃ answer, perform table pacer step = some { result := answer, pacer := step.elapse pacer } := by
  cases step with
  | call name arguments upstream =>
    cases hname : lookupField name table.operations with
    | none => exact ⟨.unknown, by simp only [perform, hname]; rfl⟩
    | some operation =>
      have hcall : isUpstreamCall operation arguments = false := by
        simpa [Step.isPaced, hname] using h
      obtain ⟨result, hresult⟩ := invoke_of_not_isUpstreamCall upstream pacer hcall
      exact ⟨.called result, by simp only [perform, hname, hresult]; rfl⟩
  | check name arguments =>
    simp only [perform]
    split <;> exact ⟨_, rfl⟩
  | read name given upstream =>
    cases hname : lookupField name table.resources with
    | none => exact ⟨.unknown, by simp only [perform, hname]; rfl⟩
    | some resource => simp [Step.isPaced, hname] at h
  | advance seconds => exact ⟨_, rfl⟩

theorem performed_of_perform (h : perform table pacer step = some done) :
    Performed table pacer step done := by
  cases hpaced : step.isPaced table with
  | false =>
    obtain ⟨answer, hperform⟩ := perform_of_not_isPaced pacer hpaced
    obtain rfl := Option.some.inj (hperform.symm.trans h)
    exact .idle hpaced
  | true =>
    obtain ⟨wakes, proceed, hfollows, hperform⟩ := goesToPacer_perform hpaced
    obtain ⟨passing, hpassing, rfl⟩ := Option.map_eq_some_iff.mp ((hperform pacer).symm.trans h)
    exact .paced hpaced (Pacing.leaves_of_acquire hpassing) (hfollows passing)

section
variable (hpaced : step.isPaced table = true) (henabled : pacer.bucket.enabled = true)
include hpaced henabled

/-- With a token at hand a step comes to its end and pays. -/
theorem exists_perform_of_not_isShort
    (h : (pacer.bucket.refill pacer.now).isShort = false) :
    ∃ done, perform table pacer step = some done ∧ IsPaid pacer done ∧
      done.pacer = { pacer with bucket := (pacer.bucket.refill pacer.now).take } := by
  obtain ⟨done, hdone, hfollows⟩ := (goesToPacer_perform hpaced).exists_follows
    fun wakes => Pacing.acquire_of_not_isShort henabled h
  refine ⟨done, hdone, ?_, hfollows.pacer⟩
  refine ((performed_of_perform hdone).of_paced henabled hpaced).elim And.right fun hstalls => ?_
  simp [Pacing.Pacer.stalls, h] at hstalls

/-- A step that is turned away comes to its end as well, and does nothing. -/
theorem exists_perform_of_stalls (h : pacer.stalls = true) :
    ∃ done, perform table pacer step = some done ∧ done.deeds = [] := by
  obtain ⟨done, hdone, -⟩ := (goesToPacer_perform hpaced).exists_follows
    fun wakes => Pacing.acquire_of_stalls henabled h
  refine ⟨done, hdone, ?_⟩
  refine ((performed_of_perform hdone).of_paced henabled hpaced).elim (fun hruns => ?_) And.right
  simp [h] at hruns

end

/-- What a test finds of the table of a description. -/
theorem exists_compiled (options : Catalog.Options) (clientUrl : String) (description : Json)
    (test : Catalog.Table → Bool)
    (h : (Catalog.compile options clientUrl description).toOption.any test = true) :
    ∃ table, Catalog.compile options clientUrl description = .ok table ∧ test table = true := by
  cases hcompile : Catalog.compile options clientUrl description with
  | error cause => simp [hcompile, Except.toOption] at h
  | ok table => exact ⟨table, rfl, by simpa [hcompile, Except.toOption] using h⟩

/-- Every step of a session does what a step does to the pacer that it comes upon, and that pacer
has the rate of the first. -/
theorem performed_of_run {steps : List (Step α)} {dones : List (Done α Answer)}
    (h : run table pacer steps = some dones) :
    (visits pacer steps dones).map Visit.done = dones ∧
      ∀ visit ∈ visits pacer steps dones,
        Performed table visit.found visit.step visit.done ∧
          visit.found.bucket.rate = pacer.bucket.rate ∧
          visit.found.bucket.refillPerMs = pacer.bucket.refillPerMs := by
  induction steps generalizing pacer dones with
  | nil =>
    obtain rfl := Option.some.inj h
    exact ⟨rfl, fun _ hvisit => absurd hvisit List.not_mem_nil⟩
  | cons step steps ih =>
    obtain ⟨done, hdone, hlater⟩ := Option.bind_eq_some_iff.mp h
    obtain ⟨later, hrun, hdones⟩ := Option.bind_eq_some_iff.mp hlater
    obtain rfl := Option.some.inj hdones
    obtain ⟨hmap, hall⟩ := ih hrun
    have hfirst := performed_of_perform hdone
    refine ⟨congrArg (done :: ·) hmap, fun visit hvisit => ?_⟩
    rcases List.mem_cons.mp hvisit with rfl | hvisit
    · exact ⟨hfirst, rfl, rfl⟩
    · obtain ⟨hperformed, hrate, hrefill⟩ := hall visit hvisit
      exact ⟨hperformed, hrate.trans hfirst.rate_eq.1, hrefill.trans hfirst.rate_eq.2⟩

/-- In a session each call and each reading sends one request at most, and a step that does not go
to the pacer does nothing and leaves tokens, refill and clock alone. With pacing no request is sent
without a token of its own before it, and a step that goes to the pacer takes exactly one, unless
the pacer that it comes upon has no token and gets none with time. With a rate whose thousandth is
above zero that does not happen. -/
theorem debits_eq_of_run {steps : List (Step α)} {dones : List (Done α Answer)}
    (h : run table pacer steps = some dones) :
    let visits := visits pacer steps dones
    (∀ visit ∈ visits, visit.done.requests.length ≤ 1 ∧
      (visit.step.isPaced table = false →
        visit.done.deeds = [] ∧ visit.done.pacer = visit.step.elapse visit.found)) ∧
    (pacer.bucket.enabled = true →
      Covered (dones.flatMap Done.deeds) ∧
      (∀ visit ∈ visits, visit.done.requests ≠ [] → IsPaid visit.found visit.done) ∧
      (∀ visit ∈ visits, visit.step.isPaced table = true →
        if visit.found.stalls then visit.done.deeds = []
        else IsPaid visit.found visit.done ∧ visit.done.debits = 1) ∧
      (0 < pacer.bucket.refillPerMs → ∀ visit ∈ visits, visit.found.stalls = false)) := by
  intro visits
  obtain ⟨hdones, hall⟩ := performed_of_run h
  refine ⟨fun visit hvisit => ?_, fun henabled => ?_⟩
  · obtain ⟨hperformed, -⟩ := hall visit hvisit
    exact ⟨hperformed.requests_length_le, hperformed.of_unpaced⟩
  have hpaced : ∀ visit ∈ visits, visit.step.isPaced table = true →
      visit.found.stalls = false ∧ IsPaid visit.found visit.done ∨
        visit.found.stalls = true ∧ visit.done.deeds = [] := by
    intro visit hvisit hpaced
    obtain ⟨hperformed, hrate, -⟩ := hall visit hvisit
    exact hperformed.of_paced (by rwa [Pacing.Bucket.enabled, hrate]) hpaced
  have hways : ∀ visit ∈ visits, visit.done.deeds = [] ∨ IsPaid visit.found visit.done := by
    intro visit hvisit
    cases hstep : visit.step.isPaced table with
    | false => exact .inl ((hall visit hvisit).1.of_unpaced hstep).1
    | true => exact (hpaced visit hvisit hstep).elim (.inr ∘ And.right) (.inl ∘ And.right)
  refine ⟨?_, fun visit hvisit hrequests => ?_, fun visit hvisit hstep => ?_,
    fun hpos visit hvisit => ?_⟩
  · rw [← hdones, List.flatMap_map]
    refine covered_flatMap fun visit hvisit => ?_
    rcases hways visit hvisit with hnone | hpaid
    · exact hnone ▸ covered_of_no_request rfl
    · exact hpaid.covered
  · refine (hways visit hvisit).resolve_left fun hnone => hrequests ?_
    rw [Done.requests, hnone, List.filterMap_nil]
  · rcases hpaced visit hvisit hstep with ⟨hruns, hpaid⟩ | ⟨hstalls, hnone⟩
    · rw [hruns, if_neg Bool.false_ne_true]
      exact ⟨hpaid, hpaid.debits_eq⟩
    · rw [hstalls, if_pos rfl]
      exact hnone
  · obtain ⟨-, -, hrefill⟩ := hall visit hvisit
    exact Pacing.Pacer.stalls_eq_false_of_pos (hrefill ▸ hpos)

/-- At two tokens a second: a call with a token at hand, and one that is rejected. -/
theorem debits_eq_of_run_rejected :
    let description := Json.obj [("paths", .obj [("/s", .obj [
      ("get", .obj [("operationId", .str "s")])])])]
    let upstream : Upstream Float :=
      { client := { baseUrl := "https://api.example.com" }, wakes := [Pacing.virtualWake],
        reply := .timedOut }
    let steps := [.call "s" .null upstream, .call "s" (.int 1) upstream]
    let pacer : Pacing.Pacer Float := ⟨.new 2 1000, 1000⟩
    ∃ table first second, Catalog.compile {} "https://api.example.com" description = .ok table ∧
      run table pacer steps = some [first, second] ∧ first.debits = 1 ∧
      second.deeds = [] ∧ second.pacer = first.pacer := by
  intro description upstream steps pacer
  obtain ⟨table, htable, hsteps⟩ := exists_compiled {} "https://api.example.com" description
    (fun table => steps.map (Step.isPaced table) = [true, false]) (by decide +kernel)
  obtain ⟨hcalled, hrejected⟩ : Step.isPaced table (.call "s" .null upstream) = true ∧
      Step.isPaced table (.call "s" (.int 1) upstream) = false := by
    simpa [steps] using hsteps
  have henabled : pacer.bucket.enabled = true := by decide +kernel
  obtain ⟨first, hfirst, -, -⟩ :=
    exists_perform_of_not_isShort hcalled henabled (by decide +kernel)
  obtain ⟨answer, hsecond⟩ := perform_of_not_isPaced first.pacer hrejected
  have hrun : run table pacer steps = some [first, { result := answer, pacer := first.pacer }] := by
    simp only [steps, run, hfirst, hsecond, Option.bind_eq_bind, Option.bind_some]
    rfl
  obtain ⟨hall, hpaced⟩ := debits_eq_of_run hrun
  obtain ⟨-, -, hdebits, hruns⟩ := hpaced henabled
  have hfirst := hdebits ⟨_, pacer, first⟩ List.mem_cons_self hcalled
  rw [hruns (by decide +kernel) _ List.mem_cons_self, if_neg Bool.false_ne_true] at hfirst
  have hsecond := (hall ⟨_, first.pacer, _⟩ (List.mem_cons_of_mem _ List.mem_cons_self)).2 hrejected
  exact ⟨table, first, _, htable, hrun, hfirst.2, hsecond.1, hsecond.2⟩

/-- With a rate whose thousandth is rounded to nothing only the first of two calls takes a token,
though both go to the pacer. -/
theorem debits_of_vanishing_rate :
    let description := Json.obj [("paths", .obj [("/s", .obj [
      ("get", .obj [("operationId", .str "s")])])])]
    let upstream : Upstream Float :=
      { client := { baseUrl := "https://api.example.com" }, wakes := [Pacing.virtualWake],
        reply := .answered { status := 200 } }
    let options : Catalog.Options := { rateLimit := .float (Float.ofBits 20) }
    let step := .call "s" (.obj []) upstream
    let pacer : Pacing.Pacer Float := ⟨.new (Float.ofBits 20) 1000, 1000⟩
    ∃ table dones, Catalog.compile options "https://api.example.com" description = .ok table ∧
      run table pacer [step, step] = some dones ∧ pacer.bucket.enabled = true ∧
      step.isPaced table = true ∧ dones.map Done.debits = [1, 0] := by
  intro description upstream options step pacer
  obtain ⟨table, htable, hpaced⟩ := exists_compiled options "https://api.example.com" description
    step.isPaced (by decide +kernel)
  have henabled : pacer.bucket.enabled = true := by decide +kernel
  obtain ⟨first, hfirst, hpaid, hpacer⟩ :=
    exists_perform_of_not_isShort hpaced henabled (by decide +kernel)
  obtain ⟨second, hsecond, hnone⟩ : ∃ done, perform table first.pacer step = some done ∧
      done.deeds = [] := by
    rw [hpacer]
    exact exists_perform_of_stalls hpaced henabled (by decide +kernel)
  have hunpaid : second.debits = 0 := by rw [Done.debits, hnone, List.countP_nil]
  refine ⟨table, [first, second], htable, ?_, henabled, hpaced, ?_⟩
  · simp only [run, hfirst, hsecond, Option.bind_eq_bind, Option.bind_some]
    rfl
  · simp only [List.map_cons, List.map_nil, hpaid.debits_eq, hunpaid]

end Session

end Toolgate.Service
