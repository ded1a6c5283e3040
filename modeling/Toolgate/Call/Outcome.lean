import Toolgate.Json.Display
import Toolgate.Json.Printer

/-!
# Outcomes of failed calls

A failed call is classified by the status that the upstream service answered with, and reported
with that status and the details of the answer.

## Main definitions

* `Outcome`, `Outcome.ofStatus`: the classes of failures
* `Failure`, `Failure.classify`: a classified failure
* `Failure.message`, `Failure.categoryMessage`: its texts
-/

namespace Toolgate.Call

/-- The class of a failed call. -/
inductive Outcome where
  | validationFailure
  | authFailure
  /-- Kept for callers that tell a missing target from bad arguments; no status leads here. -/
  | notFoundOrBadTarget
  | methodUnsupported
  | upstreamFailure
  deriving Repr, DecidableEq

namespace Outcome

/-- The name of a class. -/
def name : Outcome → String
  | validationFailure => "ValidationFailure"
  | authFailure => "AuthFailure"
  | notFoundOrBadTarget => "NotFoundOrBadTarget"
  | methodUnsupported => "MethodUnsupported"
  | upstreamFailure => "UpstreamFailure"

/-- The JSON-RPC error code of a class. -/
def code : Outcome → Int
  | validationFailure => -32602
  | authFailure => -32600
  | notFoundOrBadTarget => -32600
  | methodUnsupported => -32601
  | upstreamFailure => -32603

/-- The class of a failure with a status, or without one. -/
def ofStatus (status : Option Int) : Outcome :=
  if status == some 400 || status == some 404 then validationFailure
  else if status == some 401 || status == some 403 then authFailure
  else if status == some 405 then methodUnsupported
  else upstreamFailure

end Outcome

/-- A classified failure. -/
structure Failure where
  outcome : Outcome
  status : Int
  details : String

/-- The status reported when there was no answer. -/
def fallbackStatus : Int := 500

/-- The details reported when the answer gives none. -/
def unknownDetails : String := "Unknown API Error"

/-- The details of an answer: a text as it is, everything else as JSON. -/
def detailsOf (payload : Json) : String :=
  match payload with
  | .null => unknownDetails
  | .str s => if s.isEmpty then unknownDetails else s
  | v => v.print Json.spacedUnicode

namespace Failure

/-- The failure that a status and an answer stand for. -/
def classify (status : Option Int) (payload : Json) : Failure where
  outcome := Outcome.ofStatus status
  status := match status with
    | some n => if n == 0 then fallbackStatus else n
    | none => fallbackStatus
  details := detailsOf payload

/-- The text given to the caller of an operation. -/
def message (failure : Failure) : String :=
  "API Error (" ++ Decimal.intText failure.status ++ "): " ++ failure.details

/-- The text given to the reader of a resource. -/
def categoryMessage (failure : Failure) : String :=
  failure.outcome.name ++ " (" ++ Decimal.intText failure.status ++ "): " ++ failure.details

end Failure

/-- The text of a successful answer: indented JSON, and a standing one for an answer without
content. -/
def payloadText (payload : Json) : String :=
  match payload with
  | .null => (Json.obj [("status", .str "ok")]).print Json.indented
  | v => v.print Json.indented

end Toolgate.Call
