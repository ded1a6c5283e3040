import Toolgate.Pacing.Bucket

/-!
# Callers at a gate

Any number of callers come to one pacer, also while others are asleep. One caller at a time is at
the gate and has its turns, until it is let through, turned away or gives up; the others wait in
line, and which of them is next is left open. So is the clock, which goes on as it likes between
two turns, and when a sleep ends, early or late. A turn itself is not interrupted: it reads the
clock once, and that is the time at which a caller leaves.

## Main definitions

* `Gate`, `Event`: the callers at a pacer, and what may happen
* `Gate.serve`: a turn of the caller at the gate
* `Gate.step`, `Gate.run`: what an event does, and a sequence of events
* `Gate.admissions`: when tokens were taken
-/

namespace Toolgate.Pacing

variable {α : Type} [Add α] [Sub α] [Mul α] [Div α] [LT α] [DecidableLT α] [OfNat α 0] [OfNat α 1]
  [OfNat α 1000]

/-- What may happen at a gate. An event that cannot happen changes nothing. -/
inductive Event (α : Type) where
  /-- The clock goes on by so many seconds, or back. -/
  | advance (seconds : α)
  /-- A caller comes. -/
  | arrive (caller : Nat)
  /-- A caller in line gets to the gate, which is free. -/
  | enter (caller : Nat)
  /-- The sleep of the caller at the gate is over. -/
  | wake
  /-- A caller gives up, in line or asleep. -/
  | giveUp (caller : Nat)

/-- A caller that has left, how and when. -/
structure Exit (α : Type) where
  caller : Nat
  passage : Passage
  time : α

/-- A pacer and its callers: who sleeps at the gate, who waits in line, and who has left, the latest
first. -/
structure Gate (α : Type) where
  pacer : Pacer α
  holder : Option Nat := none
  line : List Nat := []
  exits : List (Exit α) := []

namespace Gate

/-- A gate without callers, at a time in seconds. -/
def new (rate now : α) : Gate α :=
  { pacer := ⟨.new rate now, now⟩ }

/-- The times at which tokens were taken, the latest first. -/
def admissions (gate : Gate α) : List α :=
  (gate.exits.filter (·.passage = .paid)).map (·.time)

/-- A caller leaves. -/
def leave (gate : Gate α) (caller : Nat) (passage : Passage) : Gate α :=
  { gate with exits := ⟨caller, passage, gate.pacer.now⟩ :: gate.exits }

/-- A turn of a caller at the gate. -/
def serve (gate : Gate α) (caller : Nat) : Gate α :=
  match gate.pacer.bucket.turn gate.pacer.now with
  | (.admitted, bucket) => { gate with pacer.bucket := bucket, holder := none }.leave caller .paid
  | (.sleep _, bucket) => { gate with pacer.bucket := bucket, holder := some caller }
  | (.stalled, bucket) => { gate with pacer.bucket := bucket, holder := none }.leave caller .stalled

/-- Is nobody at the gate? -/
def isFree (gate : Gate α) : Bool :=
  gate.holder.isNone

/-- What an event does. -/
def step (gate : Gate α) : Event α → Gate α
  | .advance seconds => { gate with pacer.now := gate.pacer.now + seconds }
  | .arrive caller =>
    if !gate.pacer.bucket.enabled then gate.leave caller .free
    else if gate.isFree && gate.line.isEmpty then gate.serve caller
    else { gate with line := gate.line ++ [caller] }
  | .enter caller =>
    if gate.isFree && gate.line.contains caller then
      { gate with line := gate.line.erase caller }.serve caller
    else gate
  | .wake =>
    match gate.holder with
    | some caller => gate.serve caller
    | none => gate
  | .giveUp caller =>
    { gate with holder := gate.holder.filter (· != caller), line := gate.line.erase caller }

/-- A sequence of events. -/
def run (gate : Gate α) (events : List (Event α)) : Gate α :=
  events.foldl step gate

end Gate

end Toolgate.Pacing
