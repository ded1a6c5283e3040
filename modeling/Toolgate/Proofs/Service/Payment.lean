import Toolgate.Proofs.Pacing.Acquire
import Toolgate.Service.Invoke

/-!
# Requests are paid for

What is done for one that goes to the pacer is settled by how it leaves: a token is taken only by
one that is let through, and a request is sent after that, unless it cannot be built. Deeds are
covered when at no moment more requests have been sent than tokens taken.

## Main definitions

* `Covered`: deeds whose requests are covered by tokens
* `IsPaid`: one token taken, and after it one request at most
* `GoesToPacer`: what comes to the pacer as a caller
-/

namespace Toolgate.Service

variable {α β γ : Type}

/-! ## Deeds -/

section
variable (seconds : List α) (requests : List Http.Request)

theorem requests_slept : (seconds.map Deed.slept).filterMap Deed.request? = [] := by
  induction seconds with
  | nil => rfl
  | cons _ rest ih => exact ih

theorem requests_sent :
    (requests.map (Deed.sent (α := α))).filterMap Deed.request? = requests := by
  induction requests with
  | nil => rfl
  | cons request rest ih => exact congrArg (request :: ·) ih

theorem debits_slept : (seconds.map Deed.slept).countP Deed.isDebit = 0 :=
  List.countP_eq_zero.mpr fun deed hdeed => by
    obtain ⟨_, -, rfl⟩ := List.mem_map.mp hdeed
    exact Bool.false_ne_true

theorem debits_sent : (requests.map (Deed.sent (α := α))).countP Deed.isDebit = 0 :=
  List.countP_eq_zero.mpr fun deed hdeed => by
    obtain ⟨_, -, rfl⟩ := List.mem_map.mp hdeed
    exact Bool.false_ne_true

end

theorem requests_pacingDeeds (passing : Pacing.Passing α) :
    (pacingDeeds passing).filterMap Deed.request? = [] := by
  rw [pacingDeeds, List.filterMap_append, requests_slept]
  cases passing.passage <;> rfl

/-- At no moment more requests were sent than tokens taken. -/
def Covered (deeds : List (Deed α)) : Prop :=
  ∀ before, before <+: deeds →
    (before.filterMap Deed.request?).length ≤ before.countP Deed.isDebit

theorem covered_of_no_request {deeds : List (Deed α)} (h : deeds.filterMap Deed.request? = []) :
    Covered deeds := by
  intro before hbefore
  have hnone := hbefore.filterMap Deed.request?
  rw [h, List.prefix_nil] at hnone
  rw [hnone]
  exact Nat.zero_le _

theorem Covered.append {deeds later : List (Deed α)} (h : Covered deeds) (hlater : Covered later) :
    Covered (deeds ++ later) := by
  intro before hbefore
  rcases List.prefix_or_prefix_of_prefix hbefore (List.prefix_append deeds later) with hp | hp
  · exact h before hp
  · obtain ⟨rest, rfl⟩ := hp
    have := h deeds (List.prefix_refl deeds)
    have := hlater rest ((List.prefix_append_right_inj deeds).mp hbefore)
    rw [List.filterMap_append, List.length_append, List.countP_append]
    omega

theorem covered_flatMap {items : List β} {deeds : β → List (Deed α)}
    (h : ∀ item ∈ items, Covered (deeds item)) : Covered (items.flatMap deeds) := by
  induction items with
  | nil => exact covered_of_no_request rfl
  | cons item rest ih =>
    rw [List.flatMap_cons]
    refine (h item List.mem_cons_self).append (ih fun other hother => ?_)
    exact h other (List.mem_cons_of_mem _ hother)

/-- A token covers one request after it. -/
theorem covered_debited {requests : List Http.Request} (h : requests.length ≤ 1) :
    Covered ((.debited : Deed α) :: requests.map .sent) := by
  intro before hbefore
  rcases List.prefix_cons_iff.mp hbefore with rfl | ⟨sent, rfl, hsent⟩
  · exact Nat.zero_le _
  · have hone : sent.length ≤ 1 := Nat.le_trans hsent.length_le (by simpa using h)
    have := List.length_filterMap_le Deed.request? sent
    simp only [List.filterMap_cons, Deed.request?, List.countP_cons, Deed.isDebit, if_true]
    omega

/-! ## Going to the pacer -/

/-- There is one request, or none when it cannot be built. -/
theorem exchange_requests_length_le (upstream : Upstream α) (route : Call.Route)
    (bag : Call.Fields) : (exchange upstream route bag).1.length ≤ 1 := by
  unfold exchange Http.Client.perform
  cases upstream.client.prepare route.method route.path (Call.assemble route bag) with
  | error e => exact Nat.zero_le 1
  | ok request =>
    cases upstream.client.conclude upstream.reply <;> exact Nat.le_refl 1

/-- What is done follows from how the pacer was left: a request at most, and none by one that was
turned away. -/
structure Follows (passing : Pacing.Passing α) (done : Done α β) : Prop where
  pacer : done.pacer = passing.pacer
  deeds : ∃ requests : List Http.Request, requests.length ≤ 1 ∧
    (passing.passage = .stalled → requests = []) ∧
    done.deeds = pacingDeeds passing ++ requests.map .sent

theorem Follows.map {passing : Pacing.Passing α} {done : Done α β} (f : β → γ)
    (h : Follows passing done) : Follows passing (done.map f) :=
  ⟨h.pacer, h.deeds⟩

theorem Follows.requests_length_le {passing : Pacing.Passing α} {done : Done α β}
    (h : Follows passing done) : done.requests.length ≤ 1 := by
  obtain ⟨requests, hone, -, hdeeds⟩ := h.deeds
  rw [Done.requests, hdeeds, List.filterMap_append, requests_pacingDeeds, requests_sent]
  exact hone

theorem follows_proceed (upstream : Upstream α) (route : Call.Route) (bag : Call.Fields)
    (passing : Pacing.Passing α) : Follows passing (proceed upstream route bag passing) := by
  have hone := exchange_requests_length_le upstream route bag
  unfold proceed
  cases hpassage : passing.passage with
  | stalled => exact ⟨rfl, [], Nat.zero_le 1, fun _ => rfl, (List.append_nil _).symm⟩
  | free => exact ⟨rfl, _, hone, by simp [hpassage], rfl⟩
  | paid => exact ⟨rfl, _, hone, by simp [hpassage], rfl⟩

variable [Add α] [Sub α] [Mul α] [LT α] [DecidableLT α] [OfNat α 0] [OfNat α 1] [OfNat α 1000]

/-- One token was taken out of a bucket that had only been refilled, and after it one request at
most was sent. -/
structure IsPaid (found : Pacing.Pacer α) (done : Done α β) : Prop where
  deeds : ∃ (seconds : List α) (requests : List Http.Request), requests.length ≤ 1 ∧
    done.deeds = seconds.map .slept ++ .debited :: requests.map .sent
  bucket : ∃ bucket, found.bucket.RefillsTo bucket ∧ bucket.isShort = false ∧
    done.pacer.bucket = bucket.take

section
variable {found : Pacing.Pacer α} {passing : Pacing.Passing α} {done : Done α β}

theorem IsPaid.covered (h : IsPaid found done) : Covered done.deeds := by
  obtain ⟨seconds, requests, hone, hdeeds⟩ := h.deeds
  rw [hdeeds]
  exact (covered_of_no_request (requests_slept seconds)).append (covered_debited hone)

theorem IsPaid.debits_eq (h : IsPaid found done) : done.debits = 1 := by
  obtain ⟨seconds, requests, -, hdeeds⟩ := h.deeds
  rw [Done.debits, hdeeds, List.countP_append, List.countP_cons_of_pos rfl, debits_slept,
    debits_sent]

/-- With pacing one that goes to the pacer pays, or is turned away and does nothing. -/
theorem Follows.isPaid_or_stalls (h : Follows passing done) (hleaves : Pacing.Leaves found passing)
    (henabled : found.bucket.enabled = true) :
    found.stalls = false ∧ IsPaid found done ∨ found.stalls = true ∧ done.deeds = [] := by
  obtain ⟨requests, hone, hstalled, hdeeds⟩ := h.deeds
  cases hleaves with
  | free disabled => simp [henabled] at disabled
  | @paid bucket now sleeps enabled runs refills token =>
    refine .inl ⟨runs, ⟨sleeps.reverse, requests, hone, ?_⟩, bucket, refills, token, ?_⟩
    · simpa [pacingDeeds] using hdeeds
    · rw [h.pacer]
  | stalled enabled stalls => exact .inr ⟨stalls, by simp [hdeeds, hstalled rfl, pacingDeeds]⟩

end

/-! ## Calls and readings -/

section
variable [Div α]

/-- Something comes to the pacer as a caller, and the rest follows from how it leaves. -/
def GoesToPacer (act : Pacing.Pacer α → Option (Done α β)) : Prop :=
  ∃ (wakes : Pacing.Wakes α) (proceed : Pacing.Passing α → Done α β),
    (∀ passing, Follows passing (proceed passing)) ∧
      ∀ pacer, act pacer = (Pacing.acquire wakes pacer).map proceed

theorem GoesToPacer.map {act : Pacing.Pacer α → Option (Done α β)} (f : β → γ)
    (h : GoesToPacer act) : GoesToPacer fun pacer => (act pacer).map (Done.map f) := by
  obtain ⟨wakes, proceed, hfollows, hact⟩ := h
  refine ⟨wakes, fun passing => (proceed passing).map f, fun passing => (hfollows passing).map f,
    fun pacer => ?_⟩
  simp only [hact, Option.map_map]
  rfl

/-- When a caller leaves in one way however its sleeps end, that settles what is done. -/
theorem GoesToPacer.exists_follows {act : Pacing.Pacer α → Option (Done α β)}
    (h : GoesToPacer act) {pacer : Pacing.Pacer α} {passing : Pacing.Passing α}
    (hacquire : ∀ wakes, Pacing.acquire wakes pacer = some passing) :
    ∃ done, act pacer = some done ∧ Follows passing done := by
  obtain ⟨wakes, proceed, hfollows, hact⟩ := h
  refine ⟨proceed passing, ?_, hfollows passing⟩
  rw [hact, hacquire, Option.map_some]

theorem goesToPacer_callUpstream (upstream : Upstream α) (route : Call.Route) (bag : Call.Fields) :
    GoesToPacer (callUpstream upstream · route bag) :=
  ⟨upstream.wakes, proceed upstream route bag, follows_proceed upstream route bag, fun _ => rfl⟩

theorem goesToPacer_readResource (upstream : Upstream α) (resource : Catalog.Resource)
    (given : Call.Fields) : GoesToPacer (readResource upstream · resource given) :=
  (goesToPacer_callUpstream upstream resource.route given).map outcomeOf

/-- Does a call lead to a request? It does when the operation performs one and accepts the
arguments. -/
def isUpstreamCall (operation : Catalog.Operation) (arguments : Json) : Bool :=
  match operation.action with
  | .request _ => (checkArguments operation arguments).isOk
  | .report _ => false

variable {operation : Catalog.Operation} {arguments : Json}

/-- A call that leads to a request is one paced request, whose response is turned into a result. -/
theorem exists_invoke_eq (h : isUpstreamCall operation arguments = true) : ∃ route bag,
    ∀ (upstream : Upstream α) (pacer : Pacing.Pacer α),
      invoke upstream pacer operation arguments =
        (callUpstream upstream pacer route bag).map
          (Done.map fun response => resultOf (outcomeOf response)) := by
  unfold isUpstreamCall at h
  split at h
  · next route haction =>
    cases hcheck : checkArguments operation arguments with
    | error troubles => simp [hcheck, Except.isOk, Except.toBool] at h
    | ok checked =>
      exact ⟨route, checked.fields?.getD [], fun _ _ => by simp only [invoke, haction, hcheck]⟩
  · exact absurd h Bool.false_ne_true

theorem goesToPacer_invoke (upstream : Upstream α)
    (h : isUpstreamCall operation arguments = true) :
    GoesToPacer (invoke upstream · operation arguments) := by
  obtain ⟨route, bag, hinvoke⟩ := exists_invoke_eq (α := α) h
  simp only [hinvoke]
  exact (goesToPacer_callUpstream upstream route bag).map _

/-- Any other call comes to its result and leaves the pacer alone. -/
theorem invoke_of_not_isUpstreamCall (upstream : Upstream α) (pacer : Pacing.Pacer α)
    (h : isUpstreamCall operation arguments = false) :
    ∃ result, invoke upstream pacer operation arguments = some { result, pacer } := by
  unfold isUpstreamCall at h
  unfold invoke
  split
  · exact ⟨_, rfl⟩
  · next route haction =>
    cases hcheck : checkArguments operation arguments with
    | error troubles => exact ⟨_, rfl⟩
    | ok checked => simp [haction, hcheck, Except.isOk, Except.toBool] at h

end

end Toolgate.Service
