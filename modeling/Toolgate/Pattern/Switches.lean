import Toolgate.Pattern.Groups

/-!
# Switches

Letters in a group that is no group: they turn switches on or off, for all that follows or for
the group alone.

## Main definitions

* `Switches`: the switches, with `Switches.on` and `Switches.off` for a mode
* `readSwitches`: a group of switches
-/

namespace Toolgate

namespace Pattern

/-- Switches turned on or off by letters. -/
structure Switches where
  ignoreCase : Bool := false
  multiline : Bool := false
  dotAll : Bool := false
  verbose : Bool := false
  ascii : Bool := false
  allScripts : Bool := false
  /-- A letter that is known and has no effect, but may not be used for a part only. -/
  template : Bool := false

namespace Switches

/-- One letter more. -/
def add? (s : Switches) (c : Char) : Option Switches :=
  match c with
  | 'i' => some { s with ignoreCase := true }
  | 'm' => some { s with multiline := true }
  | 's' => some { s with dotAll := true }
  | 'x' => some { s with verbose := true }
  | 'a' => if s.allScripts then none else some { s with ascii := true }
  | 'u' => if s.ascii then none else some { s with allScripts := true }
  | 't' => some { s with template := true }
  | _ => none

/-- The switches of the letters at the head of a text. -/
def readLetters (s : Switches) : List Char → Switches × List Char
  | [] => (s, [])
  | c :: rest =>
    match s.add? c with
    | some next => next.readLetters rest
    | none => (s, c :: rest)

/-- Is a switch in both? -/
def meets (a b : Switches) : Bool :=
  (a.ignoreCase && b.ignoreCase) || (a.multiline && b.multiline) || (a.dotAll && b.dotAll)
    || (a.verbose && b.verbose)

/-- A mode with switches turned on. -/
def on (s : Switches) (mode : Mode) : Mode where
  ignoreCase := mode.ignoreCase || s.ignoreCase
  multiline := mode.multiline || s.multiline
  dotAll := mode.dotAll || s.dotAll
  verbose := mode.verbose || s.verbose
  ascii := (mode.ascii && !s.allScripts) || s.ascii

/-- A mode with switches turned off. -/
def off (s : Switches) (mode : Mode) : Mode where
  ignoreCase := mode.ignoreCase && !s.ignoreCase
  multiline := mode.multiline && !s.multiline
  dotAll := mode.dotAll && !s.dotAll
  verbose := mode.verbose && !s.verbose
  ascii := mode.ascii

end Switches

/-- What a group of switches asks for: a mode for all that follows, or for the group alone. -/
inductive SwitchScope where
  | everywhere (on : Switches)
  | inside (on off : Switches)

/-- A group of switches after its question mark. -/
def readSwitches (cs : List Char) : Reading SwitchScope :=
  let (on, rest) := Switches.readLetters {} cs
  match rest with
  | ')' :: left => if cs.head? == some ')' then malformed else .ok (.everywhere on, left)
  | ':' :: left =>
    if on.template || cs.head? == some ':' then malformed else .ok (.inside on {}, left)
  | '-' :: left =>
    let (off, after) := Switches.readLetters {} left
    match after with
    | ':' :: tail =>
      if on.template || off.template || off.ascii || off.allScripts || on.meets off
        || left.head? == some ':' then malformed
      else .ok (.inside on off, tail)
    | _ => malformed
  | _ => malformed

end Pattern

end Toolgate
