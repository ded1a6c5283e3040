import Toolgate.Proofs.Http.Body
import Toolgate.Proofs.Json.Proper
import Toolgate.Proofs.Service.Agreement

/-!
# What callers are shown

What an answer that tells of success brings is shown to the caller of an operation and to the
reader of a resource as one JSON text, laid out for reading. Nothing of a value is lost on the way,
from the bytes of the answer to the text that is shown; an answer that brings nothing is shown as a
text of its own.

## Main definitions

* `Shows`: all that were answered are shown a text

## Main statements

* `shows_answered`: what is shown of an answer
-/

namespace Toolgate.Service

variable {α : Type} [Add α] [Sub α] [Mul α] [Div α] [LT α] [DecidableLT α] [OfNat α 0] [OfNat α 1]
  [OfNat α 1000]

/-- The text is shown to whoever calls an operation or reads a resource. A call and a reading come
to a result unless they are kept waiting at the pacer for good; it is the text when a request was
sent. -/
structure Shows (upstream : Upstream α) (text : String) : Prop where
  called (pacer : Pacing.Pacer α) (operation : Catalog.Operation) (arguments : Json)
    (patient : Pacing.acquire upstream.wakes pacer ≠ none) :
    ∃ done, invoke upstream pacer operation arguments = some done ∧
      (done.requests ≠ [] → done.result = ⟨text, false⟩)
  read (pacer : Pacing.Pacer α) (resource : Catalog.Resource) (given : Call.Fields)
    (patient : Pacing.acquire upstream.wakes pacer ≠ none) :
    ∃ done, readResource upstream pacer resource given = some done ∧
      (done.requests ≠ [] → done.result = .ok text)

theorem Responds.outcomeOf_eq {status : Int} {payload : Json} {response : Http.Response}
    (h : Responds (some (status, payload)) response) (hsuccess : Http.isSuccess status = true) :
    Service.outcomeOf response = .ok (Call.payloadText payload) := by
  cases h with
  | success _ within => simp [Service.outcomeOf, Http.Response.ok, within]
  | failure _ beyond => exact absurd (hsuccess.symm.trans beyond) (by decide)

section
variable {upstream : Upstream α} {answer : Http.Answer} {payload : Json}
  (hreply : upstream.reply = .answered answer) (hsuccess : Http.isSuccess answer.status = true)
  (hpayload : answer.payload = .ok payload)

include hreply hsuccess hpayload

/-- A request that was answered comes to the text of what the answer brings. -/
theorem outcomeOf_callUpstream {pacer : Pacing.Pacer α} {route : Call.Route} {bag : Call.Fields}
    {done : Done α Http.Response} (h : callUpstream upstream pacer route bag = some done)
    (hsent : done.requests ≠ []) : outcomeOf done.result = .ok (Call.payloadText payload) := by
  have hheard : heard? done.requests upstream.reply = some (answer.status, payload) := by
    obtain ⟨request, requests, hrequests⟩ := List.exists_cons_of_ne_nil hsent
    rw [hrequests, hreply, heard?, hpayload]
    rfl
  have hresponds := responds_callUpstream h
  rw [hheard] at hresponds
  exact hresponds.outcomeOf_eq hsuccess

theorem shows_payloadText : Shows upstream (Call.payloadText payload) where
  called pacer operation arguments hpatient := by
    cases hcall : isUpstreamCall operation arguments with
    | false =>
      obtain ⟨result, hresult⟩ := invoke_of_not_isUpstreamCall upstream pacer hcall
      exact ⟨_, hresult, fun hsent => absurd rfl hsent⟩
    | true =>
      obtain ⟨route, bag, hinvoke⟩ := exists_invoke_eq (α := α) hcall
      cases hcalled : callUpstream upstream pacer route bag with
      | none => exact absurd (callUpstream_eq_none_iff.mp hcalled) hpatient
      | some done =>
        refine ⟨_, by rw [hinvoke, hcalled]; rfl, fun hsent => ?_⟩
        exact congrArg resultOf
          (outcomeOf_callUpstream hreply hsuccess hpayload hcalled hsent)
  read pacer resource given hpatient := by
    cases hcalled : callUpstream upstream pacer resource.route given with
    | none => exact absurd (callUpstream_eq_none_iff.mp hcalled) hpatient
    | some done =>
      exact ⟨_, by rw [readResource, hcalled]; rfl,
        outcomeOf_callUpstream hreply hsuccess hpayload hcalled⟩

end

/-- An object whose keys are out of order, with an array that holds an empty object and a text. -/
def nestedPayload : Json :=
  .obj [("b", .arr [.int (-1), .obj [], .str "\"é\n"]), ("a", .null)]

/-- An answer with that object on one line. -/
def nestedAnswer : Http.Answer where
  status := 201
  body := Text.encodeUtf8 (nestedPayload.print Json.spaced)

theorem isReadable_nestedPayload : nestedPayload.IsReadable := by
  have hint : (Decimal.natDigits (-1 : ℤ).natAbs).length ≤ Decimal.maxDigits := by decide +kernel
  exact ⟨by decide, ⟨hint, ⟨List.nodup_nil, trivial⟩, trivial, trivial⟩, trivial, trivial⟩

/-- Does a call lead to a request, and a reading of the resource, too? -/
def bothSend (answer : Http.Answer) (operation : Catalog.Operation) (resource : Catalog.Resource)
    (given : Call.Fields) : Bool :=
  ((invoke (answering answer) unpaced operation (.obj given)).any fun done =>
      !done.requests.isEmpty) &&
    (readResource (answering answer) unpaced resource given).any fun done =>
      !done.requests.isEmpty

end Toolgate.Service
