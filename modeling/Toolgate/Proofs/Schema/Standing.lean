import Toolgate.Proofs.Json.Pointer
import Toolgate.Proofs.Schema.Transparent

/-!
# What stands at a place

A place says on which way its value is reached. Where all objects have distinct keys there is just
one value to be reached on it. So whatever a schema comes to, through its parts and through
references, is known by its place.

## Main definitions

* `Json.HasDistinctKeys`: no object in a value has a key twice
* `Node.IsInPlace`: the value of a node is the one on the way to its place

## Main statements

* `Node.IsInPlace.eq_of_place`: nodes in one place are the same
* `isInPlace_of_resolveRef`: what a reference leads to is in place
* `isInPlace_of_reaches`: whatever a schema comes to is in place
-/

namespace Toolgate

/-- No object in the value has a key twice. -/
def Json.HasDistinctKeys (v : Json) : Prop :=
  ∀ path fields, v.at? path = some (.obj fields) → (fields.map Prod.fst).Nodup

namespace Json

variable {fields : List (String × Json)} {items : List Json}

@[simp] theorem hasDistinctKeys_null : null.HasDistinctKeys := by
  intro path fields hpath
  rcases path with _ | ⟨_ | _, _⟩ <;> cases hpath

@[simp] theorem hasDistinctKeys_str (s : String) : (str s).HasDistinctKeys := by
  intro path fields hpath
  rcases path with _ | ⟨_ | _, _⟩ <;> cases hpath

theorem hasDistinctKeys_arr :
    (arr items).HasDistinctKeys ↔ ∀ item ∈ items, item.HasDistinctKeys := by
  constructor
  · intro h item hitem path inner hpath
    obtain ⟨n, hn⟩ := List.mem_iff_getElem?.mp hitem
    refine h (.index n :: path) inner ?_
    rw [at?, items?, Option.bind_some, hn]
    exact hpath
  · intro h path inner hpath
    rcases path with _ | ⟨_ | n, rest⟩
    · cases hpath
    · cases hpath
    · obtain ⟨item, hitem, hrest⟩ := Option.bind_eq_some_iff.mp hpath
      exact h item (List.mem_of_getElem? hitem) rest inner hrest

theorem hasDistinctKeys_obj : (obj fields).HasDistinctKeys ↔
    (fields.map Prod.fst).Nodup ∧ ∀ field ∈ fields, field.2.HasDistinctKeys := by
  constructor
  · intro h
    refine ⟨h [] fields rfl, fun field hfield path inner hpath => ?_⟩
    refine h (.key field.1 :: path) inner ?_
    rw [at?, get?, lookupField_of_mem (h [] fields rfl) hfield]
    exact hpath
  · rintro ⟨hnodup, hfields⟩ path inner hpath
    rcases path with _ | ⟨name | _, rest⟩
    · obtain rfl := obj.inj (Option.some.inj hpath)
      exact hnodup
    · obtain ⟨v, hv, hrest⟩ := Option.bind_eq_some_iff.mp hpath
      exact hfields _ (mem_of_lookupField hv) rest inner hrest
    · cases hpath

end Json

/-- The value that places are reached from. -/
def Origin.value (document given : Json) : Origin → Json
  | .document => document
  | .given => given

/-- The node is unaltered, and its value is the one on the way to its place. -/
structure Node.IsInPlace (document given : Json) (node : Node) : Prop where
  unaltered : node.altered = false
  found : (node.place.origin.value document given).at? node.place.steps.reverse = some node.value

section
variable {document given v : Json} {node next : Node}

theorem Json.at?_append (v : Json) (front back : List Step) :
    v.at? (front ++ back) = (v.at? front).bind (·.at? back) := by
  induction front generalizing v with
  | nil => rfl
  | cons step front ih =>
    cases step with
    | key name => simp only [List.cons_append, Json.at?, Option.bind_assoc, ih]
    | index n => simp only [List.cons_append, Json.at?, Option.bind_assoc, ih]

theorem isInPlace_root (document given : Json) : (Node.root document).IsInPlace document given :=
  ⟨rfl, rfl⟩

theorem Node.IsInPlace.step (h : node.IsInPlace document given) {step : Step}
    (hstep : node.value.at? [step] = some v) :
    (⟨v, node.place.step step, false⟩ : Node).IsInPlace document given where
  unaltered := rfl
  found := by
    rw [Place.step, List.reverse_cons, Json.at?_append, h.found, Option.bind_some, hstep]

/-- Nodes in one place are the same. -/
theorem Node.IsInPlace.eq_of_place (h : node.IsInPlace document given)
    (hnext : next.IsInPlace document given) (hplace : next.place = node.place) : next = node := by
  have hvalue := hnext.found
  rw [hplace, h.found] at hvalue
  obtain ⟨value, place, altered⟩ := node
  obtain ⟨value', place', altered'⟩ := next
  obtain rfl : altered = false := h.unaltered
  obtain rfl : altered' = false := hnext.unaltered
  obtain rfl : place' = place := hplace
  obtain rfl : value = value' := Option.some.inj hvalue
  rfl

/-! ## References -/

theorem Node.IsInPlace.follow (h : node.IsInPlace document given) {name : String}
    (hfollow : node.follow name = .ok (some next)) : next.IsInPlace document given := by
  unfold Node.follow at hfollow
  split at hfollow
  · obtain ⟨v, hv, rfl⟩ := Option.map_eq_some_iff.mp (Except.ok.inj hfollow)
    refine h.step ?_
    rw [Json.at?, hv]
    rfl
  · next items hitems =>
    obtain ⟨n?, -, hfollow⟩ := bind_eq_ok.mp hfollow
    cases n? with
    | none => cases hfollow
    | some n =>
      obtain ⟨v, hv, rfl⟩ := Option.map_eq_some_iff.mp (Except.ok.inj hfollow)
      refine h.step ?_
      rw [Json.at?, hitems, Json.items?, Option.bind_some, hv]
      rfl
  · cases hfollow

theorem Node.IsInPlace.followAll {names : List String} (h : node.IsInPlace document given)
    (hfollow : node.followAll names = .ok (some next)) : next.IsInPlace document given := by
  induction names generalizing node with
  | nil =>
    obtain rfl := Option.some.inj (Except.ok.inj hfollow)
    exact h
  | cons name names ih =>
    obtain ⟨first?, hfirst, hrest⟩ := bind_eq_ok.mp hfollow
    cases first? with
    | none => cases hrest
    | some first => exact ih (h.follow hfirst) hrest

/-- What a reference leads to is in place. -/
theorem isInPlace_of_resolveRef {ref : String} (h : resolveRef document ref = .ok (some next))
    (given : Json) : next.IsInPlace document given := by
  unfold resolveRef at h
  split at h
  · cases h
  · exact (isInPlace_root document given).followAll h

/-! ## Parts -/

theorem Node.IsInPlace.items (h : node.IsInPlace document given) (hnext : next ∈ node.items) :
    next.IsInPlace document given := by
  unfold Node.items at hnext
  split at hnext
  · next items hitems =>
    obtain ⟨i, hi⟩ := List.mem_iff_getElem?.mp hnext
    rw [Schema.getElem?_itemsFrom, Nat.zero_add] at hi
    obtain ⟨v, hv, rfl⟩ := Option.map_eq_some_iff.mp hi
    refine h.step ?_
    rw [Json.at?, hitems, Json.items?, Option.bind_some, hv]
    rfl
  · cases hnext

theorem Node.IsInPlace.fieldNodes (h : node.IsInPlace document given)
    (hkeys : document.HasDistinctKeys) (hkeys' : given.HasDistinctKeys) {key : String}
    (hnext : (key, next) ∈ Catalog.fieldNodes node) : next.IsInPlace document given := by
  unfold Catalog.fieldNodes at hnext
  split at hnext
  · next fields hfields =>
    obtain ⟨⟨key, v⟩, hfield, heq⟩ := List.mem_map.mp hnext
    obtain ⟨rfl, rfl⟩ := Prod.mk.inj heq
    refine h.step ?_
    have hdistinct : (node.place.origin.value document given).HasDistinctKeys := by
      cases node.place.origin
      · exact hkeys
      · exact hkeys'
    have hnodup := hdistinct _ fields (hfields ▸ h.found)
    rw [Json.at?, hfields, Json.get?, lookupField_of_mem hnodup hfield]
    rfl
  · cases hnext

end

namespace Schema

open Relation (ReflTransGen)

variable {document given : Json} {node part other : Node}

/-- The parts of a schema that is in place are in place. -/
theorem isInPlace_of_schemaParts (hkeys : document.HasDistinctKeys)
    (hkeys' : given.HasDistinctKeys) (h : node.IsInPlace document given)
    (hpart : part ∈ schemaParts node) : part.IsInPlace document given := by
  obtain ⟨key, child, hchild, hpart⟩ := mem_schemaParts.mp hpart
  have hown := h.fieldNodes hkeys hkeys' hchild
  unfold partsAt at hpart
  split at hpart
  case h_1 | h_2 | h_3 => exact hown.items hpart
  case h_4 | h_5 => exact List.mem_singleton.mp hpart ▸ hown
  case h_6 =>
    obtain ⟨⟨name, own⟩, hproperty, rfl⟩ := List.mem_map.mp hpart
    exact hown.fieldNodes hkeys hkeys' hproperty
  case h_7 => cases hpart

/-- Whatever a schema that is in place comes to is in place. -/
theorem isInPlace_of_reaches (hkeys : document.HasDistinctKeys) (hkeys' : given.HasDistinctKeys)
    (h : node.IsInPlace document given) (hother : ReflTransGen (Leads document) node other) :
    other.IsInPlace document given := by
  induction hother with
  | refl => exact h
  | tail _ hleads ih =>
    cases hleads with
    | part _ mem => exact isInPlace_of_schemaParts hkeys hkeys' ih mem
    | reference _ resolved => exact isInPlace_of_resolveRef resolved given

end Schema

end Toolgate
