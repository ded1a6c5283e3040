import Mathlib.Tactic.Common
import Toolgate.Pattern.Escape
import Toolgate.Pattern.Match
import Toolgate.Text.Timestamp

/-!
# Patterns that are rows of tests

A pattern without choices tests a fixed number of characters, one after the other. It matches in one
way only, so that going back never changes anything. Tied to the start of a text such a pattern says
how the text begins.

## Main definitions

* `Spot.pass`: the position after characters that pass the tests
* `IsRow`: does a pattern do nothing but test characters in a row?

## Main statements

* `occursIn_textStart`: a row tied to the start of the text
-/

namespace Toolgate.Pattern

/-- The position after characters that pass the tests, one by one. -/
def Spot.pass (spot : Spot) : List (Char → Bool) → Option Spot
  | [] => some spot
  | test :: tests =>
    match spot.advance? with
    | none => none
    | some (c, next) => if test c then next.pass tests else none

theorem Spot.pass_append (spot : Spot) (tests more : List (Char → Bool)) :
    spot.pass (tests ++ more) = (spot.pass tests).bind (·.pass more) := by
  induction tests generalizing spot with
  | nil => rfl
  | cons test tests ih =>
    simp only [List.cons_append, pass]
    cases spot.advance? with
    | none => rfl
    | some found =>
      by_cases htest : test found.1 = true
      · simp [htest, ih]
      · simp [htest]

theorem Spot.isSome_pass (spot : Spot) (tests : List (Char → Bool)) :
    (spot.pass tests).isSome = Text.beginsLike tests spot.after := by
  induction tests generalizing spot with
  | nil => rfl
  | cons test tests ih =>
    obtain ⟨before, after, groups⟩ := spot
    cases after with
    | nil => rfl
    | cons c after =>
      by_cases htest : test c = true
      · simp [pass, advance?, Text.beginsLike, htest, ih]
      · simp [pass, advance?, Text.beginsLike, htest]

/-- Does the pattern do nothing but test characters in a row? -/
def IsRow (p : Pattern) (tests : List (Char → Bool)) : Prop :=
  ∀ spot rest, p.run spot rest = (spot.pass tests).bind rest

variable {p q : Pattern} {tests more : List (Char → Bool)}

theorem isRow_one (mode : Mode) (negated : Bool) (tests : List CharTest) :
    (one mode negated tests).IsRow [fun c => tests.any (·.passes mode c) != negated] := by
  intro spot rest
  simp only [run, Spot.pass]
  cases spot.advance? with
  | none => rfl
  | some found =>
    dsimp only
    split <;> rfl

theorem isRow_digit : (one {} false [.digit true]).IsRow [Text.isDecimal] := by
  simpa [CharTest.passes, CharTest.passes.d] using isRow_one {} false [.digit true]

theorem isRow_single (c : Char) : (one {} false [single c.toNat]).IsRow [(· == c)] := by
  have htest (d : Char) : (single c.toNat).passes {} d = (d == c) := by
    have hrange : c.toNat ≤ d.toNat ∧ d.toNat ≤ c.toNat ↔ d = c := by
      rw [← Char.toNat_inj]
      omega
    rw [Bool.eq_iff_iff, beq_iff_eq, ← hrange]
    simp [single, CharTest.passes]
  simpa [htest] using isRow_one {} false [single c.toNat]

theorem IsRow.seq (hp : p.IsRow tests) (hq : q.IsRow more) : (seq p q).IsRow (tests ++ more) := by
  intro spot rest
  rw [run, hp, Spot.pass_append, Option.bind_assoc]
  congr 1
  funext next
  exact hq next rest

/-- A repeat of a fixed number of rounds begins no further round. -/
theorem moreRounds_zero (round : Spot → Rest → Option Spot) (last : Option ℕ) (spot : Spot)
    (rest : Rest) (fuel : ℕ) : moreRounds false round (some 0) last spot rest fuel = rest spot := by
  cases fuel <;> simp [moreRounds]

theorem IsRow.times (hp : p.IsRow tests) (n : ℕ) :
    (times .greedy n (some n) p).IsRow (List.replicate n tests).flatten := by
  have hrounds (n : ℕ) : ∀ spot rest, rounds false p.run (some 0) spot rest n =
      (spot.pass (List.replicate n tests).flatten).bind rest := by
    induction n with
    | zero => exact fun spot rest => moreRounds_zero _ _ _ _ _
    | succ n ih =>
      intro spot rest
      rw [List.replicate_succ, List.flatten_cons, Spot.pass_append, Option.bind_assoc, rounds, hp]
      congr 1
      funext next
      exact ih next rest
  intro spot rest
  simpa [run] using hrounds n spot rest

/-- Away from the start nothing tied to it matches. -/
theorem occursFrom_textStart (p : Pattern) (c : Char) (before after : List Char) :
    (seq (anchor .textStart) p).occursFrom (c :: before) after = false := by
  induction after generalizing c before with
  | nil => simp [occursFrom, run, Spot.satisfies]
  | cons d after ih => simp [occursFrom, run, Spot.satisfies, ih]

/-- A row that is tied to the start of the text is found where the text begins so. -/
theorem IsRow.occursIn_textStart (h : p.IsRow tests) (s : String) :
    (Pattern.seq (anchor .textStart) p).occursIn s = Text.beginsLike tests s.toList := by
  have hrun (after : List Char) :
      ((Pattern.seq (anchor .textStart) p).run ⟨[], after, []⟩ some).isSome =
        Text.beginsLike tests after := by
    simp [run, Spot.satisfies, h _ _, Spot.isSome_pass]
  rw [occursIn]
  cases s.toList with
  | nil => exact hrun []
  | cons c after =>
    rw [occursFrom, hrun, occursFrom_textStart, Bool.or_false]

end Toolgate.Pattern
