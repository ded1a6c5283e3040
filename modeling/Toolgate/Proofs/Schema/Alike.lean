import Mathlib.Data.List.Forall2
import Toolgate.Proofs.Schema.Network
import Toolgate.Proofs.Schema.Unnamed

/-!
# Plans that are alike

Two plans that ask for the same make forms that differ in the names of records only, when the parts
they ask for have such forms.

## Main definitions

* `Plan.Alike`: two plans that ask for the same, part by part
* `SameForm`: two nodes with the same form but for names

## Main statements

* `Plan.Alike.form_unnamed`: plans that are alike make the same form but for names
-/

namespace Toolgate.Schema

/-- Two plans that ask for the same. Their parts correspond to each other; the first may ask for the
items of a list where the second knows that nothing is said of them. -/
inductive Plan.Alike {ν : Type} (R : ν → ν → Prop) (Silent : ν → Prop) : Plan ν → Plan ν → Prop
  | done (result : Except TranslationError Form) : Alike R Silent (.done result) (.done result)
  | union {variants others : List ν} (h : List.Forall₂ R variants others) :
      Alike R Silent (.union variants) (.union others)
  | merged {members others : List ν} (h : List.Forall₂ R members others) :
      Alike R Silent (.merged members) (.merged others)
  | list {item other : ν} (h : R item other) : Alike R Silent (.list item) (.list other)
  | bareList {item : ν} (h : Silent item) :
      Alike R Silent (.list item) (.done (.ok ⟨.array, .list .anything, "", []⟩))
  | object (required : List String) {properties others : List (String × ν)}
      (h : List.Forall₂ (fun property other => property.1 = other.1 ∧ R property.2 other.2)
        properties others) : Alike R Silent (.object required properties) (.object required others)
  | table {value other : ν} (h : R value other) : Alike R Silent (.table value) (.table other)

section
variable {ν : Type} {R S : ν → ν → Prop} {Silent Silent' : ν → Prop} {plan other : Plan ν}

theorem forall₂_imp_of_mem {α β : Type} {R S : α → β → Prop} {xs : List α} {ys : List β}
    (h : List.Forall₂ R xs ys) (himp : ∀ x ∈ xs, ∀ y ∈ ys, R x y → S x y) :
    List.Forall₂ S xs ys := by
  induction h with
  | nil => exact .nil
  | @cons x y xs ys hfirst _ ih =>
    refine .cons (himp x List.mem_cons_self y List.mem_cons_self hfirst) (ih fun a ha b hb => ?_)
    exact himp a (List.mem_cons_of_mem x ha) b (List.mem_cons_of_mem y hb)

theorem map_fst_of_forall₂ {properties others : List (String × ν)}
    (h : List.Forall₂ (fun property other => property.1 = other.1) properties others) :
    properties.map Prod.fst = others.map Prod.fst := by
  induction h with
  | nil => rfl
  | cons hfirst _ ih => rw [List.map_cons, List.map_cons, hfirst, ih]

theorem Plan.Alike.imp (h : Plan.Alike R Silent plan other)
    (hR : ∀ part ∈ plan.parts, ∀ part' ∈ other.parts, R part part' → S part part')
    (hSilent : ∀ part ∈ plan.parts, Silent part → Silent' part) :
    Plan.Alike S Silent' plan other := by
  cases h with
  | done result => exact .done result
  | union h => exact .union (forall₂_imp_of_mem h hR)
  | merged h => exact .merged (forall₂_imp_of_mem h hR)
  | list h => exact .list (hR _ List.mem_cons_self _ List.mem_cons_self h)
  | bareList h => exact .bareList (hSilent _ List.mem_cons_self h)
  | object required h =>
    refine .object required (forall₂_imp_of_mem h fun x hx y hy hxy => ⟨hxy.1, ?_⟩)
    exact hR x.2 (List.mem_map_of_mem hx) y.2 (List.mem_map_of_mem hy) hxy.2
  | table h => exact .table (hR _ List.mem_cons_self _ List.mem_cons_self h)

end

/-- The form of a node, up to the names of its records. -/
def nameless {ε : Type} (form? : Except ε Form) : Except ε Form :=
  form?.map Form.unnamed

section
variable {ε ν : Type} {translate translate' : ν → String → Except ε Form}

/-- Two nodes have the same form but for names, whatever they are called. -/
def SameForm (translate translate' : ν → String → Except ε Form) (node other : ν) : Prop :=
  ∀ name name', nameless (translate node name) = nameless (translate' other name')

theorem map_unnamed_formsOf_cons (node : ν) (name : String) (rest : List (ν × String)) :
    (formsOf translate ((node, name) :: rest)).map (List.map Form.unnamed) =
      nameless (translate node name) >>= fun form =>
        ((formsOf translate rest).map (List.map Form.unnamed)).map (form :: ·) := by
  rw [formsOf]
  cases translate node name with
  | error cause => rfl
  | ok form => cases formsOf translate rest <;> rfl

/-- Corresponding nodes have the same forms but for names. -/
theorem formsOf_unnamed {nodes others : List (ν × String)}
    (h : List.Forall₂ (fun node other => SameForm translate translate' node.1 other.1)
      nodes others) :
    (formsOf translate nodes).map (List.map Form.unnamed) =
      (formsOf translate' others).map (List.map Form.unnamed) := by
  induction h with
  | nil => rfl
  | @cons node other _ _ hfirst _ ih =>
    rw [map_unnamed_formsOf_cons, map_unnamed_formsOf_cons, hfirst node.2 other.2, ih]

theorem forall₂_numbered {R : ν → ν → Prop} {nodes others : List ν}
    (h : List.Forall₂ R nodes others) (name name' : String) (n : ℕ) :
    List.Forall₂ (fun node other => R node.1 other.1) (Plan.numbered name n nodes)
      (Plan.numbered name' n others) := by
  induction h generalizing n with
  | nil => exact .nil
  | cons hfirst _ ih => exact .cons hfirst (ih (n + 1))

/-! ## Putting forms together -/

theorem headD_unnamed {forms others : List Form}
    (h : forms.map Form.unnamed = others.map Form.unnamed) :
    (forms.headD default).unnamed = (others.headD default).unnamed := by
  cases forms with
  | nil => rw [List.map_eq_nil_iff.mp h.symm]
  | cons form rest =>
    cases others with
    | nil => cases h
    | cons other rest' => exact (List.cons.inj h).1

section
variable {form other : Form} (h : form.unnamed = other.unnamed)
include h

theorem describedShape_unnamed_congr :
    form.describedShape.unnamed = other.describedShape.unnamed := by
  rw [← Form.describedShape_unnamed, h, Form.describedShape_unnamed]

theorem unnamed_list :
    (⟨.array, .list form.describedShape, "", []⟩ : Form).unnamed =
      (⟨.array, .list other.describedShape, "", []⟩ : Form).unnamed := by
  simp only [Form.unnamed, Shape.unnamed, describedShape_unnamed_congr h]

theorem unnamed_table :
    (⟨.map, .table form.describedShape, "", []⟩ : Form).unnamed =
      (⟨.map, .table other.describedShape, "", []⟩ : Form).unnamed := by
  simp only [Form.unnamed, Shape.unnamed, describedShape_unnamed_congr h]

end

/-- Forms that are the same but for names stay so as members of an object. -/
theorem map_unnamed_members (required : List String) (properties : List (String × ν))
    (forms : List Form) :
    ((properties.zip forms).map fun pair =>
        (⟨pair.1.1, required.contains pair.1.1, pair.2⟩ : Member Form)).map Member.unnamed =
      ((properties.map Prod.fst).zip (forms.map Form.unnamed)).map fun pair =>
        ⟨pair.1, required.contains pair.1, pair.2⟩ := by
  rw [List.zip_map, List.map_map, List.map_map]
  rfl

end

section
variable {ν : Type} {translate translate' : ν → String → Except Halt Form} {plan other : Plan ν}
  {name name' : String}

theorem nameless_planForm
    (hforms : (formsOf translate (plan.called name)).map (List.map Form.unnamed) =
      (formsOf translate' (other.called name')).map (List.map Form.unnamed))
    (hassemble : ∀ forms forms' : List Form, forms.map Form.unnamed = forms'.map Form.unnamed →
      nameless (plan.assemble name forms) = nameless (other.assemble name' forms')) :
    nameless (plan.form translate name) = nameless (other.form translate' name') := by
  have hassembled (assembled : Except TranslationError Form) :
      nameless (assembled.mapError Halt.fault) = (nameless assembled).mapError Halt.fault := by
    cases assembled <;> rfl
  rw [Plan.form, Plan.form]
  cases hfirst : formsOf translate (plan.called name) <;>
    cases hother : formsOf translate' (other.called name') <;> rw [hfirst, hother] at hforms
  case error.error => exact congrArg Except.error (Except.error.inj hforms)
  case error.ok | ok.error => cases hforms
  case ok.ok forms forms' =>
    change nameless ((plan.assemble name forms).mapError Halt.fault) =
      nameless ((other.assemble name' forms').mapError Halt.fault)
    rw [hassembled, hassembled, hassemble forms forms' (Except.ok.inj hforms)]

/-- Plans that are alike make the same form of the forms of their parts, but for names. -/
theorem Plan.Alike.form_unnamed
    (h : Plan.Alike (SameForm translate translate')
      (fun item => ∀ name, nameless (translate item name) = .ok (.anything "")) plan other)
    (name name' : String) :
    nameless (plan.form translate name) = nameless (other.form translate' name') := by
  cases h with
  | done result => exact nameless_planForm rfl fun _ _ _ => rfl
  | union h =>
    refine nameless_planForm (formsOf_unnamed (forall₂_numbered h _ _ 0))
      fun forms forms' hforms => ?_
    refine congrArg Except.ok ?_
    rw [unnamed_unitedForm, unnamed_unitedForm, hforms]
  | merged h =>
    refine nameless_planForm (formsOf_unnamed (forall₂_numbered h _ _ 0))
      fun forms forms' hforms => ?_
    refine congrArg Except.ok ?_
    rw [unnamed_mergedForm, unnamed_mergedForm, hforms]
  | list h =>
    refine nameless_planForm (formsOf_unnamed (.cons h .nil)) fun forms forms' hforms => ?_
    exact congrArg Except.ok (unnamed_list (headD_unnamed hforms))
  | table h =>
    refine nameless_planForm (formsOf_unnamed (.cons h .nil)) fun forms forms' hforms => ?_
    exact congrArg Except.ok (unnamed_table (headD_unnamed hforms))
  | @object required properties others h =>
    have hnames := map_fst_of_forall₂ (h.imp fun _ _ => And.left)
    have hparts : List.Forall₂ (fun node other => SameForm translate translate' node.1 other.1)
        (properties.map fun property => (property.2, name ++ "_" ++ property.1))
        (others.map fun property => (property.2, name' ++ "_" ++ property.1)) := by
      rw [List.forall₂_map_left_iff, List.forall₂_map_right_iff]
      exact h.imp fun _ _ hproperty => hproperty.2
    refine nameless_planForm (formsOf_unnamed hparts) fun forms forms' hforms => ?_
    refine congrArg Except.ok ?_
    rw [unnamed_ofMembers, unnamed_ofMembers, map_unnamed_members, map_unnamed_members, hnames,
      hforms]
  | @bareList item h =>
    have hitem := h (name ++ "Item")
    obtain ⟨form, hform, hunnamed⟩ := map_eq_ok.mp hitem
    have hplan : (Plan.list item).form translate name =
        .ok ⟨.array, .list form.describedShape, "", []⟩ := by
      rw [Plan.form, Plan.called, formsOf, hform]
      rfl
    rw [hplan]
    have hsilent : form.unnamed = (Form.anything "").unnamed := hunnamed
    exact congrArg Except.ok (unnamed_list hsilent)

end

end Toolgate.Schema
