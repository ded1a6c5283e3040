import Mathlib.Data.List.Forall2
import Mathlib.Data.List.Induction
import Mathlib.Data.List.Nodup
import Mathlib.Tactic.Common

/-!
# Results of what may fail

A computation that has come to a result has taken every step on the way to it.

## Main definitions

* `Parallel`: two results that correspond
-/

namespace Toolgate

variable {ε α β γ δ : Type}

theorem map_eq_ok {f : α → β} {x : Except ε α} {b : β} :
    x.map f = .ok b ↔ ∃ a, x = .ok a ∧ f a = b := by
  cases x <;> simp [Except.map]

theorem map_eq_error {f : α → β} {x : Except ε α} {cause : ε} :
    x.map f = .error cause ↔ x = .error cause := by
  cases x <;> simp [Except.map]

theorem exists_map_eq_ok {f : α → β} {x : Except ε α} :
    (∃ b, x.map f = .ok b) ↔ ∃ a, x = .ok a := by
  cases x <;> simp [Except.map]

theorem bind_eq_ok {f : α → Except ε β} {x : Except ε α} {b : β} :
    x >>= f = .ok b ↔ ∃ a, x = .ok a ∧ f a = .ok b := by
  cases x <;> simp [bind, Except.bind]

theorem bind_eq_error {f : α → Except ε β} {x : Except ε α} {cause : ε} :
    x >>= f = .error cause ↔ x = .error cause ∨ ∃ a, x = .ok a ∧ f a = .error cause := by
  cases x <;> simp [bind, Except.bind]

theorem mapError_eq_ok {ε' : Type} {f : ε → ε'} {x : Except ε α} {a : α} :
    x.mapError f = .ok a ↔ x = .ok a := by
  cases x <;> simp [Except.mapError]

theorem mapError_injective {ε' : Type} {f : ε → ε'} (hf : ∀ x y, f x = f y → x = y)
    {x y : Except ε α} (h : x.mapError f = y.mapError f) : x = y := by
  cases x <;> cases y
  case error.error => exact congrArg _ (hf _ _ (Except.error.inj h))
  case ok.ok => exact congrArg _ (Except.ok.inj h)
  all_goals cases h

/-- What is tested of a result is known once there is one. -/
theorem exists_eq_ok {x : Except ε α} (test : α → Bool) (h : x.toOption.any test = true) :
    ∃ a, x = .ok a ∧ test a = true := by
  cases x with
  | error cause => cases h
  | ok a => exact ⟨a, rfl, h⟩

/-! ## Lists side by side -/

theorem exists_of_mem_of_forall₂ {R : α → β → Prop} {xs : List α} {ys : List β}
    (h : List.Forall₂ R xs ys) {y : β} (hy : y ∈ ys) : ∃ x ∈ xs, R x y := by
  induction h with
  | nil => simp at hy
  | @cons x head xs ys hhead _ ih =>
    rcases List.mem_cons.mp hy with rfl | hy
    · exact ⟨x, List.mem_cons_self, hhead⟩
    · obtain ⟨other, hother, hy⟩ := ih hy
      exact ⟨other, List.mem_cons_of_mem _ hother, hy⟩

theorem forall_mem_iff_of_forall₂ {R : α → β → Prop} {xs : List α} {ys : List β} {P : α → Prop}
    {Q : β → Prop} (h : List.Forall₂ R xs ys) (hPQ : ∀ x y, R x y → (P x ↔ Q y)) :
    (∀ x ∈ xs, P x) ↔ ∀ y ∈ ys, Q y := by
  induction h with
  | nil => simp
  | cons hhead _ ih => rw [List.forall_mem_cons, List.forall_mem_cons, hPQ _ _ hhead, ih]

theorem exists_mem_iff_of_forall₂ {R : α → β → Prop} {xs : List α} {ys : List β} {P : α → Prop}
    {Q : β → Prop} (h : List.Forall₂ R xs ys) (hPQ : ∀ x y, R x y → (P x ↔ Q y)) :
    (∃ x ∈ xs, P x) ↔ ∃ y ∈ ys, Q y := by
  induction h with
  | nil => simp
  | cons hhead _ ih =>
    rw [List.exists_mem_cons_iff, List.exists_mem_cons_iff, hPQ _ _ hhead, ih]

theorem map_eq_map_of_forall₂ {R : α → β → Prop} {xs : List α} {ys : List β} {f : α → γ}
    {g : β → γ} (h : List.Forall₂ R xs ys) (hfg : ∀ x y, R x y → f x = g y) :
    xs.map f = ys.map g := by
  induction h with
  | nil => rfl
  | cons hhead _ ih => rw [List.map_cons, List.map_cons, hfg _ _ hhead, ih]

theorem forall₂_and_of_map_eq_map {R : α → β → Prop} {xs : List α} {ys : List β} {f : α → γ}
    {g : β → γ} (h : List.Forall₂ R xs ys) (hmap : xs.map f = ys.map g) :
    List.Forall₂ (fun x y => f x = g y ∧ R x y) xs ys := by
  induction h with
  | nil => exact .nil
  | cons hhead _ ih =>
    obtain ⟨hfirst, hrest⟩ := List.cons.inj hmap
    exact .cons ⟨hfirst, hhead⟩ (ih hrest)

/-- Where each pair leads to something, the pairs lead to a list side by side with both. -/
theorem exists_forall₂_of_forall₂ {R : α → β → Prop} {S : α → γ → Prop} {T : β → γ → Prop}
    {xs : List α} {ys : List β} (h : List.Forall₂ R xs ys)
    (hstep : ∀ x ∈ xs, ∀ y, R x y → ∃ z, S x z ∧ T y z) :
    ∃ zs, List.Forall₂ S xs zs ∧ List.Forall₂ T ys zs := by
  induction h with
  | nil => exact ⟨[], .nil, .nil⟩
  | @cons x y xs ys hhead _ ih =>
    obtain ⟨hfirst, hrest⟩ := List.forall_mem_cons.mp hstep
    obtain ⟨z, hS, hT⟩ := hfirst y hhead
    obtain ⟨zs, hSs, hTs⟩ := ih hrest
    exact ⟨z :: zs, .cons hS hSs, .cons hT hTs⟩

theorem rel_find? {R : α → β → Prop} {xs : List α} {ys : List β} {p : α → Bool} {q : β → Bool}
    (h : List.Forall₂ R xs ys) (hpq : ∀ x y, R x y → p x = q y) :
    Option.Rel R (xs.find? p) (ys.find? q) := by
  induction h with
  | nil => exact .none
  | @cons x y xs ys hhead _ ih =>
    rw [List.find?_cons, List.find?_cons, hpq x y hhead]
    cases q y with
    | true => exact .some hhead
    | false => exact ih

theorem rel_findSome? {R : β → γ → Prop} {f : α → Option β} {g : α → Option γ}
    (h : ∀ x, Option.Rel R (f x) (g x)) (xs : List α) :
    Option.Rel R (xs.findSome? f) (xs.findSome? g) := by
  induction xs with
  | nil => exact .none
  | cons x xs ih =>
    rw [List.findSome?_cons, List.findSome?_cons]
    cases hf : f x <;> cases hg : g x <;> have hx := h x <;> rw [hf, hg] at hx
    case none.none => exact ih
    case some.some => exact hx
    all_goals cases hx

theorem rel_refl {R : α → α → Prop} (hR : ∀ x, R x x) (x? : Option α) : Option.Rel R x? x? := by
  cases x? with
  | none => exact .none
  | some x => exact .some (hR x)

theorem rel_cases {R : α → β → Prop} {x? : Option α} {y? : Option β} (h : Option.Rel R x? y?) :
    x? = none ∧ y? = none ∨ ∃ x y, x? = some x ∧ y? = some y ∧ R x y := by
  cases h with
  | none => exact .inl ⟨rfl, rfl⟩
  | some h => exact .inr ⟨_, _, rfl, rfl, h⟩

theorem rel_filter {R : α → β → Prop} {x? : Option α} {y? : Option β} {p : α → Bool} {q : β → Bool}
    (h : Option.Rel R x? y?) (hpq : ∀ x y, R x y → p x = q y) :
    Option.Rel R (x?.filter p) (y?.filter q) := by
  cases h with
  | none => exact .none
  | @some x y h =>
    rw [Option.filter_some, Option.filter_some, hpq x y h]
    split
    · exact .some h
    · exact .none

theorem rel_bind {R : α → β → Prop} {S : γ → δ → Prop} {x? : Option α} {y? : Option β}
    {f : α → Option γ} {g : β → Option δ} (h : Option.Rel R x? y?)
    (hfg : ∀ x y, R x y → Option.Rel S (f x) (g y)) : Option.Rel S (x?.bind f) (y?.bind g) := by
  cases h with
  | none => exact .none
  | some h => exact hfg _ _ h

/-! ## Lists without duplicates -/

section Duplicates

variable [BEq α] [LawfulBEq α]

/-- A last element stays if it is new. -/
theorem eraseDups_concat (front : List α) (x : α) :
    (front ++ [x]).eraseDups =
      if x ∈ front then front.eraseDups else front.eraseDups ++ [x] := by
  rw [List.eraseDups_append]
  split
  · next h => simp [List.removeAll, h]
  · next h => simp [List.removeAll, h, List.eraseDups_cons]

theorem nodup_eraseDups (xs : List α) : xs.eraseDups.Nodup := by
  induction xs using List.reverseRecOn with
  | nil => exact List.nodup_nil
  | append_singleton front x ih =>
    rw [eraseDups_concat]
    split
    · exact ih
    · next h => exact ih.append (List.nodup_singleton x) (by simpa [List.mem_eraseDups] using h)

/-- Where no two elements have the same image, one alone has that of an element. -/
theorem filter_eq_singleton {f : β → α} {xs : List β} {x : β} (h : (xs.map f).Nodup)
    (hx : x ∈ xs) : xs.filter (fun y => f y == f x) = [x] := by
  induction xs with
  | nil => simp at hx
  | cons y rest ih =>
    rw [List.map_cons, List.nodup_cons] at h
    rcases List.mem_cons.mp hx with rfl | hx
    · rw [List.filter_cons_of_pos (by simp)]
      congr 1
      refine List.filter_eq_nil_iff.mpr fun z hz heq => h.1 ?_
      exact beq_iff_eq.mp heq ▸ List.mem_map_of_mem hz
    · rw [List.filter_cons_of_neg, ih h.2 hx]
      exact fun heq => h.1 (beq_iff_eq.mp heq ▸ List.mem_map_of_mem hx)

end Duplicates

/-! ## Results side by side -/

/-- Two results that correspond: both are values, which are related, or both are the same error. -/
inductive Parallel (R : α → β → Prop) : Except ε α → Except ε β → Prop
  | ok {x : α} {y : β} (h : R x y) : Parallel R (.ok x) (.ok y)
  | error (cause : ε) : Parallel R (.error cause) (.error cause)

theorem Parallel.cases {R : α → β → Prop} {x : Except ε α} {y : Except ε β} (h : Parallel R x y) :
    (∃ cause, x = .error cause ∧ y = .error cause) ∨ ∃ a b, x = .ok a ∧ y = .ok b ∧ R a b := by
  cases h with
  | ok h => exact .inr ⟨_, _, rfl, rfl, h⟩
  | error cause => exact .inl ⟨cause, rfl, rfl⟩

theorem Parallel.refl {R : α → α → Prop} (hR : ∀ a, R a a) (x : Except ε α) : Parallel R x x := by
  cases x with
  | error cause => exact .error cause
  | ok a => exact .ok (hR a)

theorem Parallel.map {R : α → β → Prop} {S : γ → δ → Prop} {x : Except ε α} {y : Except ε β}
    {f : α → γ} {g : β → δ} (h : Parallel R x y) (hfg : ∀ a b, R a b → S (f a) (g b)) :
    Parallel S (x.map f) (y.map g) := by
  cases h with
  | ok h => exact .ok (hfg _ _ h)
  | error cause => exact .error cause

end Toolgate
