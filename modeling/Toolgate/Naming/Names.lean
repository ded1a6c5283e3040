import Toolgate.Decimal.Integer
import Toolgate.Json.Basic
import Toolgate.Naming.Slug

/-!
# Distinct names

A namespace hands out names that are pairwise distinct: the slug of the candidate when it is
free, else the slug cut to fit with a number behind it. It remembers for each slug the number to
try next.

## Main definitions

* `Names`: the names handed out so far
* `Names.resolve`, `Names.resolveAll`: a free name for a candidate, and for several in order
* `Names.suffixed`: a base with a number behind it, of at most 64 characters
-/

namespace Toolgate.Naming

/-- A namespace: the names handed out, the latest first, and for some slugs the next number to
try. -/
structure Names where
  taken : List String := []
  next : List (String × Nat) := []

namespace Names

/-- The base with `_k` behind it, the base cut so that the whole fits. -/
def suffixed (base : String) (k : Nat) : String :=
  let tail := '_' :: Decimal.natDigits k
  String.ofList (base.toList.take (maxLength - tail.length) ++ tail)

/-- The least number from `k` on whose suffixed name is not taken, trying `fuel` numbers. -/
def firstFree (taken : List String) (base : String) (k : Nat) : Nat → Nat
  | 0 => k
  | fuel + 1 =>
    if taken.contains (suffixed base k) then firstFree taken base (k + 1) fuel else k

/-- The number to try next for a slug. -/
def nextFor (names : Names) (base : String) : Nat :=
  (lookupField base names.next).getD 2

/-- A free name for the candidate, and the namespace with that name taken. One of the first
`taken.length + 1` numbers is free, since their names differ. -/
def resolve (names : Names) (candidate : String) : String × Names :=
  let base := slug candidate
  if names.taken.contains base then
    let k := firstFree names.taken base (names.nextFor base) (names.taken.length + 1)
    let name := suffixed base k
    (name, ⟨name :: names.taken, setField base (k + 1) names.next⟩)
  else (base, { names with taken := base :: names.taken })

/-- Names for candidates in order, and the namespace with those names taken. -/
def resolveAll (names : Names) : List String → List String × Names
  | [] => ([], names)
  | candidate :: rest =>
    let (name, names) := names.resolve candidate
    let (others, names) := names.resolveAll rest
    (name :: others, names)

/-- Has the name been handed out? -/
def holds (names : Names) (name : String) : Bool :=
  names.taken.contains name

/-- How many names have been handed out. -/
def size (names : Names) : Nat :=
  names.taken.length

end Names

end Toolgate.Naming
