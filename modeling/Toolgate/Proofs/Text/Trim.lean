import Mathlib.Data.List.TakeWhile
import Toolgate.Text.Edit

/-!
# Trimmed texts

Trimming takes off what is dropped at the ends of a text and leaves the rest as it is. What is left
is the one text without anything to drop at its ends around which the text has nothing else.

## Main definitions

* `IsTrimmed`: there is nothing to drop at the ends of a text

## Main statements

* `trim_eq_iff`: which text is left
-/

namespace Toolgate.Text

variable {drop : Char → Bool} {cs core front back : List Char}

/-- Neither the first nor the last character is one to drop. -/
def IsTrimmed (drop : Char → Bool) (cs : List Char) : Prop :=
  ∀ c, cs.head? = some c ∨ cs.getLast? = some c → drop c = false

theorem trimStart_append (h : ∀ c ∈ front, drop c = true) (cs : List Char) :
    trimStart drop (front ++ cs) = trimStart drop cs :=
  List.dropWhile_append_of_pos h

theorem trimEnd_append (h : ∀ c ∈ back, drop c = true) (cs : List Char) :
    trimEnd drop (cs ++ back) = trimEnd drop cs := by
  have hback : ∀ c ∈ back.reverse, drop c = true := fun c hc => h c (List.mem_reverse.mp hc)
  rw [trimEnd, List.reverse_append, List.dropWhile_append_of_pos hback, trimEnd]

/-- Trimming goes on into the front only where it leaves nothing of the back. -/
theorem trimEnd_append_eq_ite (front back : List Char) :
    trimEnd drop (front ++ back) =
      if trimEnd drop back = [] then trimEnd drop front else front ++ trimEnd drop back := by
  simp only [trimEnd, List.reverse_append, List.dropWhile_append, List.isEmpty_iff,
    List.reverse_eq_nil_iff]
  split
  · rfl
  · rw [List.reverse_append, List.reverse_reverse]

theorem trimStart_of_head (h : ∀ c, cs.head? = some c → drop c = false) :
    trimStart drop cs = cs := by
  cases cs with
  | nil => rfl
  | cons c rest => simp [trimStart, h c rfl]

theorem trimEnd_of_getLast (h : ∀ c, cs.getLast? = some c → drop c = false) :
    trimEnd drop cs = cs := by
  have hreverse : trimStart drop cs.reverse = cs.reverse :=
    trimStart_of_head fun c hc => h c (List.head?_reverse ▸ hc)
  rw [trimEnd, ← trimStart, hreverse, List.reverse_reverse]

/-- What is dropped at the start is all to drop. -/
theorem exists_trimStart (drop : Char → Bool) (cs : List Char) :
    ∃ front, cs = front ++ trimStart drop cs ∧ ∀ c ∈ front, drop c = true :=
  ⟨cs.takeWhile drop, List.takeWhile_append_dropWhile.symm, fun _ => List.mem_takeWhile_imp⟩

theorem exists_trimEnd (drop : Char → Bool) (cs : List Char) :
    ∃ back, cs = trimEnd drop cs ++ back ∧ ∀ c ∈ back, drop c = true := by
  obtain ⟨front, heq, hdrop⟩ := exists_trimStart drop cs.reverse
  refine ⟨front.reverse, ?_, fun c hc => hdrop c (List.mem_reverse.mp hc)⟩
  rw [← List.reverse_inj, heq]
  simp [trimEnd, trimStart]

theorem head_trimStart {c : Char} (h : (trimStart drop cs).head? = some c) : drop c = false := by
  have hnot := List.head?_dropWhile_not drop cs
  rw [trimStart] at h
  simpa [h] using hnot

theorem getLast_trimEnd {c : Char} (h : (trimEnd drop cs).getLast? = some c) :
    drop c = false := by
  rw [trimEnd, List.getLast?_reverse] at h
  exact head_trimStart h

theorem isTrimmed_trim (drop : Char → Bool) (cs : List Char) : IsTrimmed drop (trim drop cs) := by
  rintro c (hhead | hlast)
  · obtain ⟨back, heq, -⟩ := exists_trimEnd drop (trimStart drop cs)
    have hstart : (trimStart drop cs).head? = some c := by
      rw [heq, List.head?_append]
      exact Option.or_eq_some_iff.mpr (.inl hhead)
    exact head_trimStart hstart
  · exact getLast_trimEnd hlast

/-- Trimming leaves the one trimmed text that has nothing but what is to drop around it. -/
theorem trim_eq_iff : trim drop cs = core ↔ IsTrimmed drop core ∧
    ∃ front back, cs = front ++ core ++ back ∧ (∀ c ∈ front, drop c = true) ∧
      ∀ c ∈ back, drop c = true := by
  constructor
  · rintro rfl
    obtain ⟨front, hfront, hdropFront⟩ := exists_trimStart drop cs
    obtain ⟨back, hback, hdropBack⟩ := exists_trimEnd drop (trimStart drop cs)
    refine ⟨isTrimmed_trim drop cs, front, back, ?_, hdropFront, hdropBack⟩
    rw [List.append_assoc, trim, ← hback, ← hfront]
  · rintro ⟨htrimmed, front, back, rfl, hfront, hback⟩
    rw [List.append_assoc, trim, trimStart_append hfront]
    cases core with
    | nil =>
      have hall : trimStart drop (back ++ []) = [] := trimStart_append hback []
      rw [List.append_nil] at hall
      rw [List.nil_append, hall]
      rfl
    | cons c rest =>
      have hstart : trimStart drop (c :: rest ++ back) = c :: rest ++ back :=
        trimStart_of_head fun d hd => htrimmed d (.inl (by simpa using hd))
      rw [hstart, trimEnd_append hback]
      exact trimEnd_of_getLast fun d hd => htrimmed d (.inr hd)

theorem trim_eq_self_iff : trim drop cs = cs ↔ IsTrimmed drop cs := by
  rw [trim_eq_iff, and_iff_left_iff_imp]
  exact fun _ => ⟨[], [], by simp⟩

theorem length_trim_le (drop : Char → Bool) (cs : List Char) :
    (trim drop cs).length ≤ cs.length := by
  obtain ⟨-, front, back, heq, -⟩ := trim_eq_iff.mp (rfl : trim drop cs = trim drop cs)
  have hlength := congrArg List.length heq
  simp only [List.length_append] at hlength
  omega

end Toolgate.Text
