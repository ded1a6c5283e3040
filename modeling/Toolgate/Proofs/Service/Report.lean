import Toolgate.Proofs.Decimal.Digits
import Toolgate.Proofs.Pacing.Balance
import Toolgate.Proofs.Service.Payment
import Toolgate.Proofs.Service.Session

/-!
# What callers are told

A request can fail before it is sent, on its way, or in the reading of its answer; whichever it is,
there is a response, and it says what was heard of the upstream service or why nothing was heard.
So a call of an operation comes to a result whatever happens, and a reading of a resource to a text
or a failure. Nothing is heard of an answer whose body cannot be read: its status is lost.

## Main definitions

* `heard?`: the status and the value that an answer brought
* `Responds`: a response to what was heard
* `Reports`: a failure that says what was heard

## Main statements

* `results_of_heard`: what comes of calls and readings
-/

namespace Toolgate

/-! ## Texts that are never empty -/

namespace Decimal

/-- Digits are laid out as something, even when there are none. -/
theorem Layout.arrange_ne_nil (layout : Layout) (digits : List Char) (lead : ℤ) :
    layout.arrange digits lead ≠ [] := by
  unfold Layout.arrange
  split
  · split
    · exact List.cons_ne_nil _ _
    · dsimp only
      split
      · -- a whole number has as many places as its leading digit asks for, and one at least
        intro hnil
        have hlength := congrArg List.length hnil
        simp only [List.length_append, List.length_replicate, List.length_nil] at hlength
        omega
      · exact List.append_ne_nil_of_right_ne_nil _ (List.cons_ne_nil _ _)
  · exact List.append_ne_nil_of_right_ne_nil _ (List.cons_ne_nil _ _)

theorem toList_text_jsonLayout_ne_nil (x : Float) : (jsonLayout.text x).toList ≠ [] := by
  unfold Layout.text
  split
  · split
    · decide
    · split <;> decide
  · next b _ =>
    rw [String.toList_ofList]
    have hbody : (if b.m == 0 then jsonLayout.arrange ['0'] 0
        else jsonLayout.arrange (significant (natDigits b.shortest.coefficient))
          (b.shortest.scale + (natDigits b.shortest.coefficient).length - 1)) ≠ [] := by
      split <;> exact jsonLayout.arrange_ne_nil _ _
    dsimp only
    split
    · exact List.cons_ne_nil _ _
    · exact hbody

end Decimal

theorem Json.chars_ne_nil (layout : Layout) (depth : ℕ) (v : Json) : v.chars layout depth ≠ [] := by
  cases v with
  | null => exact List.cons_ne_nil _ _
  | bool b => cases b <;> exact List.cons_ne_nil _ _
  | int n => simpa only [chars] using Decimal.intDigits_ne_nil n
  | float x => simpa only [chars] using Decimal.toList_text_jsonLayout_ne_nil x
  | str s => simp [chars, quote]
  | date text => simp [chars, quote]
  | arr items => cases items <;> simp [chars]
  | obj fields => cases fields <;> simp [chars]

namespace Call

/-- There are always details. -/
theorem detailsOf_ne_empty (payload : Json) : detailsOf payload ≠ "" := by
  have hprint (v : Json) : v.print Json.spacedUnicode ≠ "" := fun h =>
    v.chars_ne_nil Json.spacedUnicode 0 (by simpa [Json.print] using h)
  unfold detailsOf
  split
  · decide
  · next s =>
    split
    · decide
    · next h => simpa using h
  · exact hprint _

end Call

namespace Service

/-! ## What was heard -/

/-- What was heard of the upstream service: the status and the value of an answer to a request that
was sent, unless its body cannot be read. -/
def heard? (requests : List Http.Request) (reply : Http.Reply) : Option (Int × Json) :=
  match requests, reply with
  | _ :: _, .answered answer => answer.payload.toOption.map fun payload => (answer.status, payload)
  | _, _ => none

/-- Was success heard of? -/
def IsSuccess (heard : Option (Int × Json)) : Prop :=
  ∃ status payload, heard = some (status, payload) ∧ 200 ≤ status ∧ status < 300

/-- A response to what was heard: the value as what was asked for or as what went wrong, or some
reason why nothing was heard. -/
inductive Responds : Option (Int × Json) → Http.Response → Prop where
  | success {status : Int} (payload : Json) (within : Http.isSuccess status = true) :
      Responds (some (status, payload)) ⟨some status, payload, .null⟩
  | failure {status : Int} (payload : Json) (beyond : Http.isSuccess status = false) :
      Responds (some (status, payload)) ⟨some status, .null, payload⟩
  | silence (reason : String) : Responds none ⟨none, .null, .str reason⟩

variable {α : Type}

theorem responds_exchange (upstream : Upstream α) (route : Call.Route) (bag : Call.Fields) :
    Responds (heard? (exchange upstream route bag).1 upstream.reply)
      (exchange upstream route bag).2 := by
  unfold exchange Http.Client.perform
  cases upstream.client.prepare route.method route.path (Call.assemble route bag) with
  | error e => exact .silence _
  | ok request =>
    cases hreply : upstream.reply with
    | timedOut => exact .silence _
    | broken name message => exact .silence _
    | crashed name message => exact .silence _
    | answered answer =>
      cases hpayload : answer.payload with
      | error fault =>
        simpa [heard?, hpayload, Http.Client.conclude, Except.toOption] using .silence _
      | ok payload =>
        cases hsuccess : Http.isSuccess answer.status with
        | true =>
          simpa [heard?, hpayload, Http.Client.conclude, hsuccess, Except.toOption]
            using .success payload hsuccess
        | false =>
          simpa [heard?, hpayload, Http.Client.conclude, hsuccess, Except.toOption]
            using .failure payload hsuccess

/-- One that was turned away at the pacer hears nothing; anyone else gets the response to the
request. -/
theorem responds_proceed (upstream : Upstream α) (route : Call.Route) (bag : Call.Fields)
    (passing : Pacing.Passing α) :
    Responds (heard? (proceed upstream route bag passing).requests upstream.reply)
      (proceed upstream route bag passing).result := by
  have hsent : ∀ requests : List Http.Request,
      (pacingDeeds passing ++ requests.map Deed.sent).filterMap Deed.request? = requests := by
    intro requests
    rw [List.filterMap_append, requests_pacingDeeds, requests_sent, List.nil_append]
  unfold proceed Done.requests
  cases passing.passage with
  | stalled => simpa only [requests_pacingDeeds] using .silence _
  | free => simpa only [hsent] using responds_exchange upstream route bag
  | paid => simpa only [hsent] using responds_exchange upstream route bag

/-! ## What is said of it -/

/-- The failure says what was heard: its class and its status are those of the answer, as are its
details, which are never empty. Without an answer the status is 500. -/
structure Reports (heard : Option (Int × Json)) (failure : Call.Failure) : Prop where
  outcome : failure.outcome = Call.Outcome.ofStatus (heard.map Prod.fst)
  status : failure.status = ((heard.map Prod.fst).filter (· != 0)).getD 500
  details : ∀ payload ∈ heard.map Prod.snd, failure.details = Call.detailsOf payload
  details_ne_empty : failure.details ≠ ""

theorem reports_classify (status : Int) (payload : Json) :
    Reports (some (status, payload)) (.classify (some status) payload) where
  outcome := rfl
  status := by
    simp only [Call.Failure.classify, Option.map_some, Option.filter_some, bne_iff_ne]
    split <;> simp_all [Call.fallbackStatus]
  details := by
    intro _ h
    obtain rfl := Option.some.inj h
    rfl
  details_ne_empty := Call.detailsOf_ne_empty payload

theorem reports_classify_none (reason : String) : Reports none (.classify none (.str reason)) where
  outcome := rfl
  status := rfl
  details := by simp
  details_ne_empty := Call.detailsOf_ne_empty (.str reason)

theorem isSuccess_some_iff {status : Int} {payload : Json} :
    IsSuccess (some (status, payload)) ↔ Http.isSuccess status = true := by
  simp [IsSuccess, Http.isSuccess]

theorem not_isSuccess_none : ¬IsSuccess none := by
  simp [IsSuccess]

/-- A text is what success comes to, and everything else is a failure that says what was heard. -/
theorem Responds.outcomeOf {heard : Option (Int × Json)} {response : Http.Response}
    (h : Responds heard response) :
    IsSuccess heard ∧ (∃ text, outcomeOf response = .ok text) ∨
      ¬IsSuccess heard ∧ ∃ failure, outcomeOf response = .error failure ∧ Reports heard failure := by
  cases h with
  | success payload within =>
    refine .inl ⟨isSuccess_some_iff.mpr within, Call.payloadText payload, ?_⟩
    simp [Service.outcomeOf, Http.Response.ok, within]
  | @failure status payload beyond =>
    refine .inr ⟨by rw [isSuccess_some_iff, beyond]; exact Bool.false_ne_true, _, ?_,
      reports_classify status payload⟩
    simp [Service.outcomeOf, Http.Response.ok, beyond]
  | silence reason => exact .inr ⟨not_isSuccess_none, _, rfl, reports_classify_none reason⟩

/-! ## Calls and readings -/

section
variable {α : Type} [Add α] [Sub α] [Mul α] [Div α] [LT α] [DecidableLT α] [OfNat α 0] [OfNat α 1]
  [OfNat α 1000]

theorem callUpstream_eq_none_iff {upstream : Upstream α} {pacer : Pacing.Pacer α}
    {route : Call.Route} {bag : Call.Fields} :
    callUpstream upstream pacer route bag = none ↔ Pacing.acquire upstream.wakes pacer = none := by
  rw [callUpstream, Option.map_eq_none_iff]

theorem responds_callUpstream {upstream : Upstream α} {pacer : Pacing.Pacer α}
    {route : Call.Route} {bag : Call.Fields} {done : Done α Http.Response}
    (h : callUpstream upstream pacer route bag = some done) :
    Responds (heard? done.requests upstream.reply) done.result := by
  obtain ⟨passing, -, rfl⟩ := Option.map_eq_some_iff.mp h
  exact responds_proceed upstream route bag passing

/-- A call comes to a result unless it is kept waiting at the pacer for good. -/
theorem invoke_eq_none_iff {upstream : Upstream α} {pacer : Pacing.Pacer α}
    {operation : Catalog.Operation} {arguments : Json} :
    invoke upstream pacer operation arguments = none ↔
      isUpstreamCall operation arguments = true ∧
        Pacing.acquire upstream.wakes pacer = none := by
  cases hcall : isUpstreamCall operation arguments with
  | false =>
    obtain ⟨result, hresult⟩ := invoke_of_not_isUpstreamCall upstream pacer hcall
    simp [hresult]
  | true =>
    obtain ⟨route, bag, hinvoke⟩ := exists_invoke_eq (α := α) hcall
    rw [hinvoke, Option.map_eq_none_iff, callUpstream_eq_none_iff]
    exact (and_iff_right rfl).symm

theorem readResource_eq_none_iff {upstream : Upstream α} {pacer : Pacing.Pacer α}
    {resource : Catalog.Resource} {given : Call.Fields} :
    readResource upstream pacer resource given = none ↔
      Pacing.acquire upstream.wakes pacer = none := by
  rw [readResource, Option.map_eq_none_iff, callUpstream_eq_none_iff]

/-- What comes of a call that leads to a request: no error is reported just when success was heard
of, and an error gives the status and the details of what was heard. -/
theorem result_of_invoke {upstream : Upstream α} {pacer : Pacing.Pacer α}
    {operation : Catalog.Operation} {arguments : Json} {done : Done α CallResult}
    (h : invoke upstream pacer operation arguments = some done)
    (hcall : isUpstreamCall operation arguments = true) :
    (done.result.isError = false ↔ IsSuccess (heard? done.requests upstream.reply)) ∧
      (done.result.isError = true → ∃ failure,
        Reports (heard? done.requests upstream.reply) failure ∧
          done.result.text =
            "API Error (" ++ Decimal.intText failure.status ++ "): " ++ failure.details) := by
  obtain ⟨route, bag, hinvoke⟩ := exists_invoke_eq (α := α) hcall
  rw [hinvoke] at h
  obtain ⟨called, hcalled, rfl⟩ := Option.map_eq_some_iff.mp h
  have hheard : (called.map fun response => resultOf (outcomeOf response)).requests =
    called.requests := rfl
  rw [hheard]
  rcases (responds_callUpstream hcalled).outcomeOf with
    ⟨hsuccess, text, htext⟩ | ⟨hfailed, failure, hfailure, hreports⟩
  · simp [Done.map, htext, resultOf, hsuccess]
  · simp only [Done.map, hfailure, resultOf, hfailed, Bool.true_eq_false, iff_self, true_and]
    exact fun _ => ⟨failure, hreports, rfl⟩

/-- What comes of a reading: a text just when success was heard of, else a failure that says what
was heard. -/
theorem result_of_readResource {upstream : Upstream α} {pacer : Pacing.Pacer α}
    {resource : Catalog.Resource} {given : Call.Fields}
    {done : Done α (Except Call.Failure String)}
    (h : readResource upstream pacer resource given = some done) :
    ((∃ text, done.result = .ok text) ↔ IsSuccess (heard? done.requests upstream.reply)) ∧
      ∀ failure, done.result = .error failure →
        Reports (heard? done.requests upstream.reply) failure := by
  obtain ⟨called, hcalled, rfl⟩ := Option.map_eq_some_iff.mp h
  have hheard : (called.map outcomeOf).requests = called.requests := rfl
  rw [hheard]
  rcases (responds_callUpstream hcalled).outcomeOf with
    ⟨hsuccess, text, htext⟩ | ⟨hfailed, failure, hfailure, hreports⟩
  · simp [Done.map, htext, hsuccess]
  · simp [Done.map, hfailure, hfailed, hreports]

end

/-- A description of one operation. -/
def bareDescription : Json :=
  .obj [("paths", .obj [("/s", .obj [("get", .obj [("operationId", .str "s")])])])]

/-- An upstream service that gives one answer, reached without pacing. -/
def answering (answer : Http.Answer) : Upstream ℚ where
  client := { baseUrl := "https://api.example.com" }
  wakes := []
  reply := .answered answer

/-- The pacer of a rate of zero. -/
def unpaced : Pacing.Pacer ℚ :=
  ⟨.new 0 0, 0⟩

/-- Is the answer to the one operation of `bareDescription`, called without arguments, told in this
text as an error, after one request? -/
def tellsError (answer : Http.Answer) (text : String) (table : Catalog.Table) : Bool :=
  (lookupField "s" table.operations).any fun operation =>
    isUpstreamCall operation (.obj []) &&
      (invoke (answering answer) unpaced operation (.obj [])).any fun done =>
        done.result.isError && done.result.text == text && done.requests.length == 1

theorem exists_of_tellsError (answer : Http.Answer) (text : String)
    (h : (Catalog.compile {} "https://api.example.com" bareDescription).toOption.any
      (tellsError answer text) = true) :
    ∃ table operation done,
      Catalog.compile {} "https://api.example.com" bareDescription = .ok table ∧
        lookupField "s" table.operations = some operation ∧
        isUpstreamCall operation (.obj []) = true ∧
        invoke (answering answer) unpaced operation (.obj []) = some done ∧
        done.result.isError = true ∧ done.result.text = text ∧ done.requests.length = 1 := by
  obtain ⟨table, hcompile, htells⟩ := Session.exists_compiled {} _ bareDescription _ h
  obtain ⟨operation, hoperation, hcalled⟩ := (Option.any_eq_true _ _).mp htells
  rw [Bool.and_eq_true] at hcalled
  obtain ⟨done, hdone, htold⟩ := (Option.any_eq_true _ _).mp hcalled.2
  simp only [Bool.and_eq_true, beq_iff_eq] at htold
  obtain ⟨⟨herror, htext⟩, hone⟩ := htold
  exact ⟨table, operation, done, hcompile, hoperation, hcalled.1, hdone, herror, htext, hone⟩

end Service

end Toolgate
