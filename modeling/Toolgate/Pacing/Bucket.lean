/-!
# Token buckets

A token bucket admits callers at a steady rate. Tokens come in continuously up to a capacity; a
caller takes one, and waits while there is less than one. The bucket begins with a single token,
so that a cold start does not burst, and a rate of zero or less turns pacing off.

The arithmetic is left open: the gateway runs on floating-point numbers, and the laws are stated
over exact ones. Times are in milliseconds, except that a sleep is asked for in seconds.

## Main definitions

* `Bucket`, `Bucket.new`: the bucket and its start
* `Bucket.refill`, `Bucket.take`, `Bucket.wait`: what a caller does
* `Bucket.turn`: what becomes of a caller at its turn
* `acquire`: a caller that sleeps until there is a token
-/

namespace Toolgate.Pacing

variable {α : Type} [Add α] [Sub α] [Mul α] [Div α] [LT α] [DecidableLT α] [OfNat α 0] [OfNat α 1]
  [OfNat α 1000]

/-- A token bucket; the latest refill is a time in milliseconds. -/
structure Bucket (α : Type) where
  /-- Tokens per second. -/
  rate : α
  capacity : α
  refillPerMs : α
  tokens : α
  lastRefill : α

/-- What becomes of a caller at its turn. -/
inductive Turn (α : Type) where
  /-- It leaves with a token. -/
  | admitted
  /-- It must sleep so many seconds until its next turn. -/
  | sleep (seconds : α)
  /-- There is no token, and no time that would bring one. -/
  | stalled

/-- The greater of two, the first when they do not compare. -/
def greater (a b : α) : α :=
  if a < b then b else a

/-- The lesser of two, the first when they do not compare. -/
def lesser (a b : α) : α :=
  if b < a then b else a

/-- A time in seconds as milliseconds. -/
def milliseconds (seconds : α) : α :=
  seconds * 1000

namespace Bucket

/-- A bucket with a single token at a time in seconds. -/
def new (rate now : α) : Bucket α where
  rate := rate
  capacity := greater 1 rate
  refillPerMs := rate / 1000
  tokens := 1
  lastRefill := milliseconds now

/-- Does the bucket pace at all? -/
def enabled (bucket : Bucket α) : Bool :=
  decide (0 < bucket.rate)

/-- The bucket at a time in seconds, with the tokens that came in since the latest refill. A clock
that went back brings no tokens. -/
def refill (bucket : Bucket α) (now : α) : Bucket α :=
  let elapsed := greater 0 (milliseconds now - bucket.lastRefill)
  { bucket with
    tokens := lesser bucket.capacity (bucket.tokens + elapsed * bucket.refillPerMs)
    lastRefill := milliseconds now }

/-- Must a caller wait? -/
def isShort (bucket : Bucket α) : Bool :=
  decide (bucket.tokens < 1)

/-- How many seconds a caller waits for the token to be full. -/
def wait (bucket : Bucket α) : α :=
  (1 - bucket.tokens) / bucket.refillPerMs / 1000

/-- One token taken out. -/
def take (bucket : Bucket α) : Bucket α :=
  { bucket with tokens := bucket.tokens - 1 }

/-- A caller's turn at a time in seconds, and the bucket after it. A rate can be so small that no
tokens come in with time; then there is nothing to wait for. -/
def turn (bucket : Bucket α) (now : α) : Turn α × Bucket α :=
  let bucket := bucket.refill now
  if bucket.isShort then
    if 0 < bucket.refillPerMs then (.sleep bucket.wait, bucket) else (.stalled, bucket)
  else (.admitted, bucket.take)

end Bucket

/-- What is said of a caller that has nothing to wait for. -/
def stallNotice : String := "float division by zero"

/-- How the sleeps of a caller end, one after the other: the time at the end of each, given the time
at which it begins and the seconds it is asked for. A sleep after these does not end. -/
abbrev Wakes (α : Type) := List (α → α → α)

/-- A bucket and the time in seconds. -/
structure Pacer (α : Type) where
  bucket : Bucket α
  now : α

/-- How a caller leaves. -/
inductive Passage where
  /-- Without pacing there is nothing to take. -/
  | free
  /-- One token was taken. -/
  | paid
  /-- Turned away, since nothing came of waiting. -/
  | stalled
  deriving Repr, DecidableEq

/-- What came of a caller: how it left, the seconds slept, the latest first, and the pacer. -/
structure Passing (α : Type) where
  passage : Passage
  sleeps : List α := []
  pacer : Pacer α

/-- Turn after turn, with a sleep between each two, until the caller is let through or turned away;
none when a sleep does not end. -/
def awaitToken (wakes : Wakes α) (sleeps : List α) (pacer : Pacer α) : Option (Passing α) :=
  match pacer.bucket.turn pacer.now, wakes with
  | (.admitted, bucket), _ => some ⟨.paid, sleeps, { pacer with bucket }⟩
  | (.stalled, bucket), _ => some ⟨.stalled, sleeps, { pacer with bucket }⟩
  | (.sleep _, _), [] => none
  | (.sleep seconds, bucket), wake :: wakes =>
    awaitToken wakes (seconds :: sleeps) ⟨bucket, wake pacer.now seconds⟩

/-- A caller comes and leaves, or is kept waiting for good; without pacing it leaves at once. -/
def acquire (wakes : Wakes α) (pacer : Pacer α) : Option (Passing α) :=
  if pacer.bucket.enabled then awaitToken wakes [] pacer else some { passage := .free, pacer }

/-- Several callers, one after the other, until one is turned away. -/
def acquireMany (wakes : Wakes α) (sleeps : List α) (pacer : Pacer α) : Nat → Option (Passing α)
  | 0 => some ⟨.free, sleeps, pacer⟩
  | n + 1 => (acquire wakes pacer).bind fun passing =>
    let sleeps := passing.sleeps ++ sleeps
    if passing.passage = .stalled then some { passing with sleeps }
    else acquireMany wakes sleeps passing.pacer n

end Toolgate.Pacing
