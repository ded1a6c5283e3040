import Toolgate.Pattern.Match
import Toolgate.Schema.Lax
import Toolgate.Text.Timestamp

/-!
# Checking values

A value is checked against a shape and comes back in the form the shape asks for: texts that write
numbers become numbers, fields come in the order they are declared in, and fields that were not
given are left out. Where the value does not have the shape, every trouble is listed.

Of several variants that accept a value the closest one counts. A variant that accepts it exactly
and is no record wins at once; else the one that sets most declared fields, then the closest, then
the first.

## Main definitions

* `Fit`: how well a value fits a shape
* `accept`: the value in the form of a shape, or the troubles with it
* `Shape.validate`, `Shape.accepts`: the same for a value on its own
-/

namespace Toolgate.Schema

/-- How well a value fits a shape: how close it is, and how many declared fields it sets when
records are involved. -/
structure Fit where
  closeness : Closeness := .exact
  setFields : Option Nat := none
  /-- Was a variant chosen at once? What was noted before it then no longer counts. -/
  fresh : Bool := false

namespace Fit

/-- Field counts of two parts together. -/
def addFields : Option Nat → Option Nat → Option Nat
  | none, n => n
  | m, none => m
  | some m, some n => some (m + n)

/-- The fit of two parts checked one after the other. -/
def andThen (a b : Fit) : Fit :=
  if b.fresh then b
  else ⟨a.closeness.meet b.closeness, addFields a.setFields b.setFields, a.fresh⟩

/-- The fit of a value that is no more than so close. -/
def ofCloseness (closeness : Closeness) : Fit :=
  { closeness }

/-- Is a later fit better than an earlier one? -/
def isBetter (later earlier : Fit) : Bool :=
  match earlier.setFields, later.setFields with
  | some m, some n =>
    if m == n then earlier.closeness.rank < later.closeness.rank else m < n
  | _, _ => earlier.closeness.rank < later.closeness.rank

/-- Does the fit settle a choice at once? -/
def isPerfect (fit : Fit) : Bool :=
  fit.closeness == .exact && fit.setFields.isNone

end Fit

/-- What checking a value gives. -/
abbrev Checked := Except (List Trouble) (Json × Fit)

/-- A complaint about the value as a whole. -/
def complain {α : Type} (complaint : Complaint) : Except (List Trouble) α :=
  .error [⟨[], complaint⟩]

/-- The text a value is read as. Inside records integers and floating-point numbers are read as
their texts. -/
def readText (inRecord : Bool) : Json → Except Complaint (String × Closeness)
  | .str s => .ok (s, .exact)
  | .int n => if inRecord then .ok (Decimal.intText n, .lax) else .error .notText
  | .float x => if inRecord then .ok (Decimal.plain.text x, .lax) else .error .notText
  | _ => .error .notText

/-- The first limit that a text breaks. -/
def TextLimits.broken? (limits : TextLimits) (s : String) : Option Complaint :=
  match limits.minLength.filter (s.length < ·), limits.maxLength.filter (· < s.length),
    limits.pattern.filter (!·.pattern.occursIn s) with
  | some n, _, _ => some (.tooShort n)
  | _, some n, _ => some (.tooLong n)
  | _, _, some p => some (.mismatch p.text)
  | _, _, _ => none

/-- A whole number as an integer. -/
def Amount.toInt? : Amount → Option Int
  | .whole n => some n
  | .real x => Decimal.wholeValue? x

/-- The bound as it is compared with integers. -/
def Amount.asWhole (bound : Amount) : Amount :=
  (bound.toInt?.map Amount.whole).getD bound

/-- The bound as it is compared with floating-point numbers. -/
def Amount.asReal : Amount → Amount
  | .whole n => ((Decimal.ofInt? n).map Amount.real).getD (.whole n)
  | .real x => .real x

/-- The first bound that an integer breaks, in the order the bounds are looked at. -/
def Bounds.brokenByWhole? (bounds : Bounds) (n : Int) : Option Complaint :=
  let breaks (test : Int → Bool) (bound : Option Amount) : Option Amount :=
    (bound.map Amount.asWhole).filter fun b => b.toInt?.any test
  match breaks (fun m => Int.fmod n m != 0) bounds.multipleOf, breaks (· < n) bounds.atMost,
    breaks (· ≤ n) bounds.below, breaks (n < ·) bounds.atLeast, breaks (n ≤ ·) bounds.above with
  | some b, _, _, _, _ => some (.notMultiple b)
  | _, some b, _, _, _ => some (.notAtMost b)
  | _, _, some b, _, _ => some (.notBelow b)
  | _, _, _, some b, _ => some (.notAtLeast b)
  | _, _, _, _, some b => some (.notAbove b)
  | _, _, _, _, _ => none

/-- Does a remainder differ from nothing by more than rounding explains? Both the remainder and
its distance from the divisor must exceed a billionth of the number. -/
def isRemainder (x m : Float) : Bool :=
  let rest := Decimal.remainder x m
  let tolerance := x.abs / 1e9
  rest.abs > tolerance && (rest.abs - m).abs > tolerance

/-- The first bound that a floating-point number breaks, in the order the bounds are looked at. -/
def Bounds.brokenByReal? (bounds : Bounds) (x : Float) : Option Complaint :=
  let breaks (test : Float → Bool) (bound : Option Amount) : Option Amount :=
    (bound.map Amount.asReal).filter fun b =>
      match b with
      | .real y => test y
      | .whole _ => false
  match breaks (isRemainder x) bounds.multipleOf, breaks (fun y => !(x ≤ y)) bounds.atMost,
    breaks (fun y => !(x < y)) bounds.below, breaks (fun y => !(x ≥ y)) bounds.atLeast,
    breaks (fun y => !(x > y)) bounds.above with
  | some b, _, _, _, _ => some (.notMultiple b)
  | _, some b, _, _, _ => some (.notAtMost b)
  | _, _, some b, _, _ => some (.notBelow b)
  | _, _, _, some b, _ => some (.notAtLeast b)
  | _, _, _, _, some b => some (.notAbove b)
  | _, _, _, _, _ => none

/-- A value that was read, unless it breaks a limit. -/
def settle {α : Type} (toJson : α → Json) (broken? : α → Option Complaint) :
    Except Complaint (α × Closeness) → Checked
  | .error complaint => complain complaint
  | .ok (x, closeness) =>
    match broken? x with
    | some complaint => complain complaint
    | none => .ok (toJson x, .ofCloseness closeness)

/-- The member of a choice that equals the value. Among integers of a machine word an integer that
fits none is too large to be looked for. -/
def acceptMember (members : List Json) (v : Json) : Checked :=
  let hasWord := members.any fun
    | .int n => Decimal.fitsWord n
    | _ => false
  let tooLarge := match v with
    | .int n => !Decimal.fitsWord n
    | _ => false
  if hasWord && tooLarge then complain .wholeTooLarge
  else match members.find? (·.same v) with
  | some member => .ok (member, {})
  | none => complain (.notMember members)

/-- Why a text is no timestamp with an offset. -/
def timestampComplaint? (s : String) : Option Complaint :=
  if !Text.looksLikeTimestamp s then some .noTimestamp
  else if !Text.isTimestamp s then some .noOffset
  else none

/-- The result of parts: all troubles if there are any, else the values and the fit. -/
structure Parts (α : Type) where
  values : List α := []
  fit : Fit := {}
  troubles : List Trouble := []

/-- One part in front of the others, which are checked after it. -/
def Parts.cons {α : Type} (step : Step) (wrap : Json → α) (head : Checked) (rest : Parts α) :
    Parts α :=
  match head with
  | .ok (v, fit) => ⟨wrap v :: rest.values, fit.andThen rest.fit, rest.troubles⟩
  | .error troubles => ⟨rest.values, rest.fit, troubles.map (.inside step) ++ rest.troubles⟩

/-- The checked parts as one value. -/
def Parts.close {α : Type} (parts : Parts α) (wrap : List α → Json) : Checked :=
  if parts.troubles.isEmpty then .ok (wrap parts.values, parts.fit) else .error parts.troubles

/-- Each item of an array checked. -/
def acceptItems (check : Json → Checked) (n : Nat) : List Json → Parts Json
  | [] => {}
  | v :: rest => .cons (.index n) id (check v) (acceptItems check (n + 1) rest)

/-- Each value of an object checked. -/
def acceptValues (check : Json → Checked) : List (String × Json) → Parts (String × Json)
  | [] => {}
  | (key, v) :: rest => .cons (.key key) (key, ·) (check v) (acceptValues check rest)

/-- The fields of an object that a record does not declare. -/
def extraFields (fields : List (Field Shape)) (given : List (String × Json)) :
    List (String × Json) :=
  given.filter fun (key, _) => !fields.any (·.wire == key)

/-- The fields of a checked record in order. A field that was not given is left out, unless an
undeclared field bears its inner name; it then comes back as null. -/
def arrangeFields (extras : List (String × Json)) :
    List (Field Shape × Option Json) → List (String × Json)
  | [] => []
  | (field, some v) :: rest => (field.wire, v) :: arrangeFields extras rest
  | (field, none) :: rest =>
    if extras.any (·.1 == field.name) then (field.wire, .null) :: arrangeFields extras rest
    else arrangeFields extras rest

/-- The fields of an object with each key once: at its first place, with its last value. -/
def mergeFields (fields : List (String × Json)) : List (String × Json) :=
  fields.foldl (fun merged (key, v) => setField key v merged) []

/-- A record from its checked fields. -/
def closeRecord (fields : List (Field Shape)) (given : List (String × Json))
    (parts : Parts (Field Shape × Option Json)) : Checked :=
  let extras := extraFields fields given
  let count := (parts.values.filter (·.2.isSome)).length
  let fit := parts.fit.andThen { setFields := some count }
  { parts with fit }.close fun values => .obj (mergeFields (arrangeFields extras values ++ extras))

/-- The best of the variants that accepted, or the troubles with all of them. -/
def closeVariants (best : Option (Json × Fit)) (troubles : List Trouble) : Checked :=
  match best with
  | some (v, fit) => .ok (v, { fit with fresh := false })
  | none => .error troubles

mutual

/-- The value in the form of the shape, or the troubles with it. -/
def accept (inRecord : Bool) : Shape → Json → Checked
  | .anything, v => .ok (v, .ofCloseness .strict)
  | .text limits, v => settle .str limits.broken? (readText inRecord v)
  | .choice members, v => acceptMember members v
  | .timestamp, v => settle .str timestampComplaint? (readText inRecord v)
  | .whole bounds, v => settle .int bounds.brokenByWhole? (readWhole v)
  | .number bounds, v => settle .float bounds.brokenByReal? (readNumber v)
  | .truth, v => settle .bool (fun _ => none) (readTruth v)
  | .list item, v =>
    match v with
    | .arr items => (acceptItems (accept inRecord item) 0 items).close .arr
    | _ => complain .notList
  | .table value, v =>
    match v with
    | .obj given => (acceptValues (accept inRecord value) given).close .obj
    | _ => complain .notTable
  | .record name fields, v =>
    match v with
    | .obj given => closeRecord fields given (acceptFields given fields)
    | _ => complain (.notRecord name)
  | .either variants, v => acceptVariants inRecord v none [] variants
  | .optional inner, v => if v.isNull then .ok (.null, {}) else accept inRecord inner v
  | .described _ inner, v => accept inRecord inner v

/-- The declared fields of a record, each with its value if it was given. -/
def acceptFields (given : List (String × Json)) :
    List (Field Shape) → Parts (Field Shape × Option Json)
  | [] => {}
  | ⟨name, wire, required, description, shape⟩ :: rest =>
    let field : Field Shape := ⟨name, wire, required, description, shape⟩
    match lookupField wire given with
    | some v =>
      .cons (.key wire) (fun v => (field, some v)) (accept true shape v) (acceptFields given rest)
    | none =>
      let others := acceptFields given rest
      if required then { others with troubles := ⟨[.key wire], .missing⟩ :: others.troubles }
      else { others with values := (field, none) :: others.values }

/-- The variants in turn, given the best so far and the troubles with those that refused. -/
def acceptVariants (inRecord : Bool) (v : Json) (best : Option (Json × Fit))
    (troubles : List Trouble) : List Shape → Checked
  | [] => closeVariants best troubles
  | variant :: rest =>
    match accept inRecord variant v with
    | .error found =>
      acceptVariants inRecord v best
        (troubles ++ found.map (.inside (.key variant.label))) rest
    | .ok (w, fit) =>
      if fit.isPerfect then .ok (w, ⟨.exact, none, true⟩)
      else if best.all fun (_, earlier) => fit.isBetter earlier then
        acceptVariants inRecord v (some (w, fit)) troubles rest
      else acceptVariants inRecord v best troubles rest

end

namespace Shape

/-- The value in the form of the shape, or the troubles with it. -/
def validate (shape : Shape) (v : Json) : Except (List Trouble) Json :=
  (accept false shape v).map (·.1)

/-- Does the value have the shape? -/
def accepts (shape : Shape) (v : Json) : Bool :=
  match shape.validate v with
  | .ok _ => true
  | .error _ => false

end Shape

end Toolgate.Schema
