import Toolgate.Service.Invoke

/-!
# Sessions

A session is a sequence of calls, checks and readings over one table and one pacer, while time goes
on in between. It comes to an end when a caller is kept waiting for good.

## Main definitions

* `Step`, `Answer`: what is asked in a session, and what comes back
* `perform`: one step of a session
* `run`: what is done in a session, step by step
-/

namespace Toolgate.Service.Session

variable {α : Type} [Add α] [Sub α] [Mul α] [Div α] [LT α] [DecidableLT α] [OfNat α 0] [OfNat α 1]
  [OfNat α 1000]

/-- What is asked in a session. -/
inductive Step (α : Type) where
  /-- A call of the operation of a name. -/
  | call (name : String) (arguments : Json) (upstream : Upstream α)
  /-- A check of arguments, without a call. -/
  | check (name : String) (arguments : Json)
  /-- A reading of the resource of a name. -/
  | read (name : String) (given : Call.Fields) (upstream : Upstream α)
  /-- So many seconds go by. -/
  | advance (seconds : α)

/-- What comes back. -/
inductive Answer where
  | called (result : CallResult)
  | checked (result : Except (List Schema.Trouble) Json)
  | read (result : Except Call.Failure String)
  /-- The table has nothing of that name. -/
  | unknown
  | silent

/-- One step of a session. -/
def perform (table : Catalog.Table) (pacer : Pacing.Pacer α) : Step α → Option (Done α Answer)
  | .call name arguments upstream =>
    match lookupField name table.operations with
    | none => some { result := .unknown, pacer }
    | some operation => (invoke upstream pacer operation arguments).map (Done.map .called)
  | .check name arguments =>
    match lookupField name table.operations with
    | none => some { result := .unknown, pacer }
    | some operation => some { result := .checked (checkArguments operation arguments), pacer }
  | .read name given upstream =>
    match lookupField name table.resources with
    | none => some { result := .unknown, pacer }
    | some resource => (readResource upstream pacer resource given).map (Done.map .read)
  | .advance seconds => some { result := .silent, pacer := { pacer with now := pacer.now + seconds } }

/-- What is done in a session, step by step; none when a caller is kept waiting for good. -/
def run (table : Catalog.Table) (pacer : Pacing.Pacer α) :
    List (Step α) → Option (List (Done α Answer))
  | [] => some []
  | step :: rest => do
    let done ← perform table pacer step
    let later ← run table done.pacer rest
    return done :: later

end Toolgate.Service.Session
