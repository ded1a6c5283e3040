import Toolgate.Call.Outcome
import Toolgate.Catalog.Compile
import Toolgate.Http.Client
import Toolgate.Pacing.Bucket
import Toolgate.Schema.Accept

/-!
# Invoking operations and reading resources

Calls are checked, paced and performed. Whatever goes wrong with an operation comes back as a
result that says so, so that the caller can mend its arguments and try again; a resource that
cannot be read is a failure. Nothing comes of what waits for a token for good.

## Main definitions

* `Deed`, `Done`: what is done for a call, and what comes of it
* `callUpstream`: one paced request
* `invoke`: a call of an operation
* `readResource`: a reading of a resource
-/

namespace Toolgate.Service

open Catalog (Operation Resource)

variable {α : Type} [Add α] [Sub α] [Mul α] [Div α] [LT α] [DecidableLT α] [OfNat α 0] [OfNat α 1]
  [OfNat α 1000]

/-- What is done for a call that can be seen from outside. -/
inductive Deed (α : Type) where
  | slept (seconds : α)
  /-- A token was taken from the bucket. -/
  | debited
  | sent (request : Http.Request)

/-- The request that was sent. -/
def Deed.request? {α : Type} : Deed α → Option Http.Request
  | .sent request => some request
  | _ => none

/-- The seconds that were slept. -/
def Deed.seconds? {α : Type} : Deed α → Option α
  | .slept seconds => some seconds
  | _ => none

/-- Was a token taken? -/
def Deed.isDebit {α : Type} : Deed α → Bool
  | .debited => true
  | _ => false

/-- What came of something, what was done for it, in order, and the pacer after it. -/
structure Done (α β : Type) where
  result : β
  deeds : List (Deed α) := []
  pacer : Pacing.Pacer α

namespace Done

/-- The same with another result. -/
def map {α β γ : Type} (f : β → γ) (done : Done α β) : Done α γ :=
  { done with result := f done.result }

/-- The requests that were sent. -/
def requests {α β : Type} (done : Done α β) : List Http.Request :=
  done.deeds.filterMap Deed.request?

/-- The seconds of each sleep. -/
def sleeps {α β : Type} (done : Done α β) : List α :=
  done.deeds.filterMap Deed.seconds?

/-- How many tokens were taken. -/
def debits {α β : Type} (done : Done α β) : Nat :=
  done.deeds.countP Deed.isDebit

end Done

/-- A result of a call. -/
structure CallResult where
  text : String
  isError : Bool := false

/-- The upstream service as it is reached: a client, how the sleeps before a request end, and what
becomes of the request. -/
structure Upstream (α : Type) where
  client : Http.Client
  wakes : Pacing.Wakes α
  reply : Http.Reply

/-- What a caller does at the pacer, in order. -/
def pacingDeeds {α : Type} (passing : Pacing.Passing α) : List (Deed α) :=
  passing.sleeps.reverse.map .slept
    ++ match passing.passage with
      | .paid => [.debited]
      | .free | .stalled => []

/-- The requests that are sent, and the response. What the client does not handle is a response
without a status. -/
def exchange (upstream : Upstream α) (route : Call.Route) (bag : Call.Fields) :
    List Http.Request × Http.Response :=
  let (requests, outcome) := upstream.client.perform route.method route.path
    (Call.assemble route bag) upstream.reply
  match outcome with
  | .ok response => (requests, response)
  | .error e => (requests, ⟨none, .null, .str e.message⟩)

/-- What follows on a caller's way past the pacer: its request is sent, unless it was turned
away. -/
def proceed (upstream : Upstream α) (route : Call.Route) (bag : Call.Fields)
    (passing : Pacing.Passing α) : Done α Http.Response :=
  match passing.passage with
  | .stalled =>
    ⟨⟨none, .null, .str Pacing.stallNotice⟩, pacingDeeds passing, passing.pacer⟩
  | .free | .paid =>
    let (requests, response) := exchange upstream route bag
    ⟨response, pacingDeeds passing ++ requests.map .sent, passing.pacer⟩

/-- One paced request. -/
def callUpstream (upstream : Upstream α) (pacer : Pacing.Pacer α) (route : Call.Route)
    (bag : Call.Fields) : Option (Done α Http.Response) :=
  (Pacing.acquire upstream.wakes pacer).map (proceed upstream route bag)

/-- The text of a successful response, or the failure that the response is. -/
def outcomeOf (response : Http.Response) : Except Call.Failure String :=
  if response.ok then .ok (Call.payloadText response.payload)
  else .error (Call.Failure.classify response.status response.error)

/-- The arguments of a call; none at all count as none given. -/
def argumentsOf (arguments : Json) : Json :=
  arguments.orElse (.obj [])

/-- The arguments of a call in the form the operation asks for. -/
def checkArguments (operation : Operation) (arguments : Json) :
    Except (List Schema.Trouble) Json :=
  operation.input.validate (argumentsOf arguments)

/-- What is said of arguments that are refused. -/
def refusal (operation : Operation) (troubles : List Schema.Trouble) : String :=
  Call.Outcome.validationFailure.name ++ ": Invalid arguments for " ++ operation.name ++ ": "
    ++ Decimal.natText troubles.length
    ++ (if troubles.length == 1 then " validation error for " else " validation errors for ")
    ++ operation.inputName

/-- A performed call as a result. -/
def resultOf : Except Call.Failure String → CallResult
  | .ok text => ⟨text, false⟩
  | .error failure => ⟨failure.message, true⟩

/-- A call of an operation. -/
def invoke (upstream : Upstream α) (pacer : Pacing.Pacer α) (operation : Operation)
    (arguments : Json) : Option (Done α CallResult) :=
  match operation.action with
  | .report payload => some { result := ⟨payload.print Json.indented, false⟩, pacer }
  | .request route =>
    match checkArguments operation arguments with
    | .error troubles => some { result := ⟨refusal operation troubles, true⟩, pacer }
    | .ok checked =>
      (callUpstream upstream pacer route (checked.fields?.getD [])).map
        (Done.map fun response => resultOf (outcomeOf response))

/-- A reading of a resource with given values for its variables. -/
def readResource (upstream : Upstream α) (pacer : Pacing.Pacer α) (resource : Resource)
    (given : Call.Fields) : Option (Done α (Except Call.Failure String)) :=
  (callUpstream upstream pacer resource.route given).map (Done.map outcomeOf)

end Toolgate.Service
