import Mathlib.Tactic.Common
import Toolgate.Schema.Accept

/-!
# A refusal says why

A value is refused with at least one trouble, whatever it is checked against. The one exception are
alternatives without a variant; shapes that are made of proper ones have none.

## Main definitions

* `Shape.Complains`: no value is refused without a trouble
* `Shape.IsProper`: a shape in which all alternatives have variants
-/

namespace Toolgate.Schema

/-! ## Refusals -/

/-- No value is refused without a trouble. -/
def Shape.Complains (shape : Shape) : Prop :=
  ∀ inRecord v, accept inRecord shape v ≠ .error []

theorem complain_ne {α : Type} (complaint : Complaint) :
    (complain complaint : Except (List Trouble) α) ≠ .error [] := by
  simp [complain]

theorem settle_ne {α : Type} (toJson : α → Json) (broken? : α → Option Complaint)
    (read : Except Complaint (α × Closeness)) : settle toJson broken? read ≠ .error [] := by
  unfold settle
  split
  · exact complain_ne _
  · split
    · exact complain_ne _
    · simp

theorem acceptMember_ne (members : List Json) (v : Json) : acceptMember members v ≠ .error [] := by
  unfold acceptMember
  dsimp only
  split_ifs
  · exact complain_ne _
  · cases members.find? (·.same v) with
    | none => exact complain_ne _
    | some member => simp

theorem Parts.close_ne {α : Type} (parts : Parts α) (wrap : List α → Json) :
    parts.close wrap ≠ .error [] := by
  unfold Parts.close
  split
  · simp
  · next h =>
    rintro heq
    simp [Except.error.inj heq] at h

/-- Where a variant has accepted or troubles are noted, there is something to say. -/
theorem acceptVariants_ne {inRecord : Bool} {v : Json} {best : Option (Json × Fit)}
    {troubles : List Trouble} (h : best ≠ none ∨ troubles ≠ []) (variants : List Shape) :
    acceptVariants inRecord v best troubles variants ≠ .error [] := by
  induction variants generalizing best troubles with
  | nil =>
    rw [acceptVariants]
    cases best with
    | none => simpa [closeVariants] using h
    | some found => simp [closeVariants]
  | cons variant rest ih =>
    rw [acceptVariants]
    split
    · next found _ =>
      exact ih (h.imp_right fun hne => by simp [hne])
    · split
      · simp
      · split
        · exact ih (.inl (by simp))
        · exact ih h

theorem complains_either {variants : List Shape} (hne : variants ≠ [])
    (h : ∀ variant ∈ variants, variant.Complains) : (Shape.either variants).Complains := by
  intro inRecord v
  obtain ⟨variant, rest, rfl⟩ := List.exists_cons_of_ne_nil hne
  rw [accept, acceptVariants]
  split
  · next found hfound =>
    have hsome : found ≠ [] := by
      rintro rfl
      exact h variant List.mem_cons_self inRecord v hfound
    exact acceptVariants_ne (.inr (by simpa using hsome)) rest
  · split
    · simp
    · exact acceptVariants_ne (.inl (by simp)) rest

namespace Shape

variable {shape : Shape}

/-! ## Basic shapes -/

/-- Is the shape neither alternatives nor another shape with a description or with null? -/
def isBasic : Shape → Bool
  | either _ => false
  | optional _ => false
  | described _ _ => false
  | _ => true

theorem complains_of_isBasic (h : shape.isBasic = true) : shape.Complains := by
  intro inRecord v
  cases shape with
  | anything => simp [accept]
  | text | timestamp | whole | number | truth =>
    rw [accept]
    exact settle_ne _ _ _
  | choice members =>
    rw [accept]
    exact acceptMember_ne _ _
  | list item =>
    cases v with
    | arr items => exact Parts.close_ne _ _
    | _ => exact complain_ne _
  | table value =>
    cases v with
    | obj given => exact Parts.close_ne _ _
    | _ => exact complain_ne _
  | record name fields =>
    cases v with
    | obj given =>
      rw [accept, closeRecord]
      exact Parts.close_ne _ _
    | _ => exact complain_ne _
  | either variants => cases h
  | optional inner => cases h
  | described note inner => cases h

/-! ## Proper shapes -/

/-- Is the shape made of no others? -/
def isLeaf : Shape → Bool
  | list _ | table _ | record _ _ | either _ | optional _ | described _ _ => false
  | _ => true

/-- Alternatives have variants, wherever they stand in the shape. -/
inductive IsProper : Shape → Prop where
  | leaf {shape : Shape} (h : shape.isLeaf = true) : IsProper shape
  | list {item : Shape} (h : IsProper item) : IsProper (.list item)
  | table {value : Shape} (h : IsProper value) : IsProper (.table value)
  | record (name : String) {fields : List (Field Shape)}
      (h : ∀ field ∈ fields, IsProper field.shape) : IsProper (.record name fields)
  | either {variants : List Shape} (hne : variants ≠ [])
      (h : ∀ variant ∈ variants, IsProper variant) : IsProper (.either variants)
  | optional {inner : Shape} (h : IsProper inner) : IsProper (.optional inner)
  | described (text : String) {inner : Shape} (h : IsProper inner) :
      IsProper (.described text inner)

/-- A proper shape complains. -/
theorem IsProper.complains_self (h : shape.IsProper) : shape.Complains := by
  induction h with
  | @leaf shape h =>
    refine complains_of_isBasic ?_
    cases shape <;> first | rfl | cases h
  | list | table | record => exact complains_of_isBasic rfl
  | either hne _ ih => exact complains_either hne ih
  | optional _ ih =>
    intro inRecord v
    rw [accept]
    split
    · simp
    · exact ih inRecord v
  | described text _ ih =>
    intro inRecord v
    rw [accept]
    exact ih inRecord v

theorem IsProper.of_optional {inner : Shape} (h : (Shape.optional inner).IsProper) :
    inner.IsProper := by
  cases h with
  | leaf h => cases h
  | optional h => exact h

theorem IsProper.of_described {text : String} {inner : Shape}
    (h : (Shape.described text inner).IsProper) : inner.IsProper := by
  cases h with
  | leaf h => cases h
  | described text h => exact h

theorem IsProper.of_list {item : Shape} (h : (Shape.list item).IsProper) : item.IsProper := by
  cases h with
  | leaf h => cases h
  | list h => exact h

theorem IsProper.of_table {value : Shape} (h : (Shape.table value).IsProper) : value.IsProper := by
  cases h with
  | leaf h => cases h
  | table h => exact h

theorem IsProper.of_record {name : String} {fields : List (Field Shape)}
    (h : (Shape.record name fields).IsProper) : ∀ field ∈ fields, field.shape.IsProper := by
  cases h with
  | leaf h => cases h
  | record name h => exact h

theorem IsProper.of_either {variants : List Shape} (h : (Shape.either variants).IsProper) :
    variants ≠ [] ∧ ∀ variant ∈ variants, variant.IsProper := by
  cases h with
  | leaf h => cases h
  | either hne h => exact ⟨hne, h⟩

theorem IsProper.orNull (h : shape.IsProper) : shape.orNull.IsProper := by
  cases shape with
  | optional inner => exact h
  | _ => exact .optional h

theorem IsProper.withDescription (h : shape.IsProper) (description : String) :
    (shape.withDescription description).IsProper := by
  unfold Shape.withDescription
  split
  · exact h
  · exact .described description h

/-! ### Alternatives -/

theorem mem_of_mem_distinctFrom {kept shapes : List Shape} {shape : Shape}
    (h : shape ∈ distinctFrom kept shapes) : shape ∈ shapes := by
  induction shapes generalizing kept with
  | nil => simp [distinctFrom] at h
  | cons first rest ih =>
    rw [distinctFrom] at h
    split at h
    · exact List.mem_cons_of_mem _ (ih h)
    · rcases List.mem_cons.mp h with rfl | h
      · exact List.mem_cons_self
      · exact List.mem_cons_of_mem _ (ih h)

theorem distinctFrom_ne_nil {shapes : List Shape} (h : shapes ≠ []) :
    distinctFrom [] shapes ≠ [] := by
  obtain ⟨first, rest, rfl⟩ := List.exists_cons_of_ne_nil h
  simp [distinctFrom]

/-- The variants that a proper shape brings into an alternative are proper, and there are some. -/
theorem IsProper.variants (h : shape.IsProper) :
    shape.variants ≠ [] ∧ ∀ variant ∈ shape.variants, variant.IsProper := by
  cases shape with
  | either variants => exact h.of_either
  | optional inner =>
    cases inner with
    | either variants => exact h.of_optional.of_either
    | _ => exact ⟨List.cons_ne_nil _ _, List.forall_mem_singleton.mpr h.of_optional⟩
  | _ => exact ⟨List.cons_ne_nil _ _, List.forall_mem_singleton.mpr h⟩

theorem isProper_oneOf {shapes : List Shape} (hne : shapes ≠ [])
    (h : ∀ shape ∈ shapes, shape.IsProper) : (oneOf shapes).IsProper := by
  match shapes, hne, h with
  | [shape], _, h => exact h shape List.mem_cons_self
  | _ :: _ :: _, hne, h => exact .either hne h

theorem isProper_unite {shapes : List Shape} (hne : shapes ≠ [])
    (h : ∀ shape ∈ shapes, shape.IsProper) : (unite shapes).IsProper := by
  have hcore : (oneOf (distinctFrom [] (shapes.flatMap Shape.variants))).IsProper := by
    refine isProper_oneOf (distinctFrom_ne_nil ?_) fun variant hvariant => ?_
    · obtain ⟨shape, rest, rfl⟩ := List.exists_cons_of_ne_nil hne
      simp [(h shape List.mem_cons_self).variants.1]
    · obtain ⟨shape, hshape, hvariant⟩ := List.mem_flatMap.mp (mem_of_mem_distinctFrom hvariant)
      exact (h shape hshape).variants.2 variant hvariant
  unfold unite
  dsimp only
  split
  · exact .optional hcore
  · exact hcore

end Shape

end Toolgate.Schema
