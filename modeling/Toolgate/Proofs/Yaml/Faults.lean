import Mathlib.Data.List.Forall2
import Mathlib.Data.List.MinMax
import Mathlib.Data.Option.Basic
import Toolgate.Yaml.Value

/-!
# What is wrong with a tree

A tree may have many faults: scalars that have no value of their kind, collections where a scalar
should be, keys that are no scalars. Its value is put together from the values of its parts, and it
answers for one fault alone. Here all faults are listed in the order the parts are come to, each
with its depth, and the one that the tree answers for is the outermost, and of several such the
first.

## Main definitions

* `Tree.faults`: all that is wrong in a tree
* `Tree.Has`: the scalars in a tree

## Main statements

* `failure?_build`: a tree answers for the first of its outermost faults
* `exists_scalar_of_mem_faults`: whatever is not malformed is a scalar without a value of its kind
-/

namespace Toolgate.Yaml

/-! ## The foremost failure -/

/-- The failure of an outcome, if it is one. -/
def failure? {α : Type} : Except Failure α → Option Failure
  | .ok _ => none
  | .error e => some e

/-- The first of the failures that lie at the least depth. -/
abbrev foremost? (faults : List Failure) : Option Failure :=
  faults.argmin Failure.depth

theorem merge_foremost_assoc (a b c : Option Failure) :
    Option.merge Failure.foremost (Option.merge Failure.foremost a b) c =
      Option.merge Failure.foremost a (Option.merge Failure.foremost b c) := by
  rcases a with _ | a <;> rcases b with _ | b <;> rcases c with _ | c <;> try rfl
  simp only [Option.merge_some_some, Failure.foremost]
  split_ifs <;> first | rfl | omega

theorem foremost?_cons (e : Failure) (faults : List Failure) :
    foremost? (e :: faults) = Option.merge Failure.foremost (some e) (foremost? faults) := by
  unfold foremost?
  rw [List.argmin_cons]
  cases faults.argmin Failure.depth with
  | none => rfl
  | some f =>
    dsimp only [Option.merge_some_some, Failure.foremost]
    split_ifs <;> rfl

theorem foremost?_append (faults others : List Failure) :
    foremost? (faults ++ others) =
      Option.merge Failure.foremost (foremost? faults) (foremost? others) := by
  induction faults with
  | nil => simp [foremost?]
  | cons e rest ih =>
    rw [List.cons_append, foremost?_cons, ih, foremost?_cons, merge_foremost_assoc]

/-- The failure one collection further in. -/
def Failure.deeper (e : Failure) : Failure :=
  { e with depth := e.depth + 1 }

theorem foremost?_map_deeper (faults : List Failure) :
    foremost? (faults.map Failure.deeper) = (foremost? faults).map Failure.deeper := by
  induction faults with
  | nil => rfl
  | cons e rest ih =>
    rw [List.map_cons, foremost?_cons, ih, foremost?_cons]
    cases foremost? rest with
    | none => rfl
    | some f =>
      simp only [Option.map_some, Option.merge_some_some, Failure.foremost, Failure.deeper]
      split_ifs <;> first | rfl | omega

theorem failure?_collect_cons (part : Outcome) (rest : List Outcome) :
    failure? (collect (part :: rest)) =
      Option.merge Failure.foremost (failure? part) (failure? (collect rest)) := by
  cases part <;> cases hrest : collect rest <;> simp [collect, hrest, failure?]

theorem failure?_collect_append (parts others : List Outcome) :
    failure? (collect (parts ++ others)) =
      Option.merge Failure.foremost (failure? (collect parts)) (failure? (collect others)) := by
  induction parts with
  | nil => simp [collect, failure?]
  | cons part rest ih =>
    rw [List.cons_append, failure?_collect_cons, ih, failure?_collect_cons, merge_foremost_assoc]

theorem failure?_gathered (parts : List Outcome) (value : List Loaded → Loaded) :
    failure? (gathered parts value) = (failure? (collect parts)).map Failure.deeper := by
  rw [gathered]
  cases collect parts <;> rfl

/-! ## All that is wrong in a tree -/

/-- What is wrong with what is known of a tree. -/
structure Blame where
  /-- The faults of its value. -/
  value : List Failure
  /-- The faults in the fields of a mapping, with those it takes over. -/
  fields? : Option (List Failure)
  /-- The faults in the fields that a mapping takes over from the tree. -/
  merged? : Option (List Failure)

/-- A scalar that has no value of its kind is a fault. -/
def scalarFaults (tag : Tag) (text : String) : List Failure :=
  match scalarValue tag text with
  | .ok _ => []
  | .error fault => [⟨0, fault⟩]

/-- What is wrong with a tree as a key. -/
def Tree.keyFaults : Tree → List Failure
  | .scalar .equals _ => []
  | .scalar tag text => scalarFaults tag text
  | _ => [⟨0, .malformed⟩]

/-- What is wrong in the fields of a mapping: in those it takes over, and then in its own, in each
of them first the key. -/
def fieldFaults (written : List (Tag × List Failure × Blame)) : Option (List Failure) := do
  let taken ← (written.filter fun (tag, _, _) => tag == .merge).mapM fun (_, _, value) =>
    value.merged?
  let own := (written.filter fun (tag, _, _) => tag != .merge).flatMap fun (_, key, value) =>
    key ++ value.value
  some (taken.flatten ++ own)

/-- What is wrong with a mapping of a given kind. -/
def mappingFaults (tag : Tag) (fields? : Option (List Failure)) : List Failure :=
  match tag, fields? with
  | .mapping, some faults => faults.map .deeper
  | .mapping, none => [⟨1, .malformed⟩]
  | _, _ => [⟨0, .malformed⟩]

/-- What is wrong with a sequence of a given kind. -/
def sequenceFaults (tag : Tag) (items : List Blame) : List Failure :=
  match tag with
  | .sequence => (items.flatMap (·.value)).map .deeper
  | _ => [⟨0, .malformed⟩]

mutual

/-- What is wrong with a tree. -/
def Tree.blame : Tree → Blame
  | .scalar tag text => ⟨scalarFaults tag text, none, none⟩
  | .sequence tag items =>
    let parts := blameItems items
    ⟨sequenceFaults tag parts, none, (parts.reverse.mapM Blame.fields?).map List.flatten⟩
  | .mapping tag pairs =>
    let fields? := fieldFaults (blameFields pairs)
    ⟨mappingFaults tag fields?, fields?, fields?⟩

/-- What is wrong with each item. -/
def blameItems : List Tree → List Blame
  | [] => []
  | item :: rest => item.blame :: blameItems rest

/-- What is wrong with each field. -/
def blameFields : List (Tree × Tree) → List (Tag × List Failure × Blame)
  | [] => []
  | (key, value) :: rest => (key.tag, key.keyFaults, value.blame) :: blameFields rest

end

/-- All that is wrong in a tree. -/
def Tree.faults (tree : Tree) : List Failure :=
  tree.blame.value

/-! ## The fault a tree answers for -/

/-- Fields answer for the foremost of the faults. -/
def FieldsAnswer (fields : List (Outcome × Outcome)) (faults : List Failure) : Prop :=
  failure? (collect (fields.flatMap fun (key, value) => [key, value])) = foremost? faults

theorem FieldsAnswer.append {fields others : List (Outcome × Outcome)}
    {faults otherFaults : List Failure} (h : FieldsAnswer fields faults)
    (hothers : FieldsAnswer others otherFaults) :
    FieldsAnswer (fields ++ others) (faults ++ otherFaults) := by
  rw [FieldsAnswer, List.flatMap_append, failure?_collect_append, foremost?_append, h, hothers]

theorem fieldsAnswer_flatten {taken : List (List (Outcome × Outcome))}
    {faults : List (List Failure)} (h : List.Forall₂ FieldsAnswer taken faults) :
    FieldsAnswer taken.flatten faults.flatten := by
  induction h with
  | nil => rfl
  | cons hfirst _ ih => exact hfirst.append ih

theorem rel_map_flatten {taken? : Option (List (List (Outcome × Outcome)))}
    {faults? : Option (List (List Failure))}
    (h : Option.Rel (List.Forall₂ FieldsAnswer) taken? faults?) :
    Option.Rel FieldsAnswer (taken?.map List.flatten) (faults?.map List.flatten) := by
  cases h with
  | none => exact .none
  | some h => exact .some (fieldsAnswer_flatten h)

/-- What is known of a tree answers for the foremost of what is wrong with it. -/
structure Built.Answers (built : Built) (blame : Blame) : Prop where
  value : failure? built.value = foremost? blame.value
  fields : Option.Rel FieldsAnswer built.fields? blame.fields?
  merged : Option.Rel FieldsAnswer built.merged? blame.merged?

/-- What is known of a field answers for what is wrong with it. -/
structure Written.Answers (written : Written) (blame : Tag × List Failure × Blame) : Prop where
  tag : written.1 = blame.1
  key : failure? written.2.1 = foremost? blame.2.1
  value : written.2.2.Answers blame.2.2

theorem rel_mapM {α β γ δ : Type} {R : α → β → Prop} {S : γ → δ → Prop} {f : α → Option γ}
    {g : β → Option δ} {xs : List α} {ys : List β}
    (hparts : ∀ x y, R x y → Option.Rel S (f x) (g y)) (h : List.Forall₂ R xs ys) :
    Option.Rel (List.Forall₂ S) (xs.mapM f) (ys.mapM g) := by
  induction h with
  | nil => exact .some .nil
  | @cons x y xs ys hfirst _ ih =>
    rw [List.mapM_cons, List.mapM_cons]
    have hfirst := hparts x y hfirst
    generalize f x = first, g y = other at hfirst
    generalize xs.mapM f = rest, ys.mapM g = others at ih
    cases hfirst with
    | none => exact .none
    | some hfirst =>
      cases ih with
      | none => exact .none
      | some ih => exact .some (.cons hfirst ih)

theorem failure?_scalarOutcome (tag : Tag) (text : String) :
    failure? (scalarOutcome tag text) = foremost? (scalarFaults tag text) := by
  unfold scalarOutcome scalarFaults
  cases scalarValue tag text <;> rfl

theorem failure?_key (tree : Tree) : failure? tree.key = foremost? tree.keyFaults := by
  cases tree with
  | scalar tag text =>
    cases tag with
    | equals => rfl
    | _ => simpa only [Tree.key, Tree.keyFaults] using failure?_scalarOutcome _ text
  | sequence => rfl
  | mapping => rfl

theorem failure?_sequenceValue (tag : Tag) {items : List Built} {blames : List Blame}
    (h : List.Forall₂ Built.Answers items blames) :
    failure? (sequenceValue tag items) = foremost? (sequenceFaults tag blames) := by
  have hitems : failure? (collect (items.map (·.value))) =
      foremost? (blames.flatMap (·.value)) := by
    induction h with
    | nil => rfl
    | cons hfirst _ ih =>
      rw [List.map_cons, failure?_collect_cons, List.flatMap_cons, foremost?_append, ih,
        hfirst.value]
  cases tag with
  | sequence =>
    rw [sequenceValue, failure?_gathered, hitems, sequenceFaults, foremost?_map_deeper]
  | _ => rfl

theorem failure?_mappingValue (tag : Tag) {fields? : Option (List (Outcome × Outcome))}
    {faults? : Option (List Failure)} (h : Option.Rel FieldsAnswer fields? faults?) :
    failure? (mappingValue tag fields?) = foremost? (mappingFaults tag faults?) := by
  cases tag with
  | mapping =>
    cases h with
    | none => rfl
    | some h => rw [mappingValue, failure?_gathered, h, mappingFaults, foremost?_map_deeper]
  | _ => cases h <;> rfl

theorem fieldsAnswer_own {written : List Written} {blames : List (Tag × List Failure × Blame)}
    (h : List.Forall₂ Written.Answers written blames) :
    FieldsAnswer (written.map fun (_, key, value) => (key, value.value))
      (blames.flatMap fun (_, key, value) => key ++ value.value) := by
  induction h with
  | nil => rfl
  | @cons field blame rest blames hfirst _ ih =>
    rw [FieldsAnswer] at ih ⊢
    rw [List.map_cons, List.flatMap_cons, List.flatMap_cons, failure?_collect_append,
      foremost?_append, ih, foremost?_append, failure?_collect_cons, failure?_collect_cons,
      hfirst.key, hfirst.value.value]
    simp [collect, failure?]

/-- A mapping answers for the fields it takes over ahead of its own. -/
theorem rel_allFields {written : List Written} {blames : List (Tag × List Failure × Blame)}
    (h : List.Forall₂ Written.Answers written blames) :
    Option.Rel FieldsAnswer (allFields written) (fieldFaults blames) := by
  have hfilter (test : Tag → Bool) :
      List.Forall₂ Written.Answers (written.filter fun field => test field.1)
        (blames.filter fun blame => test blame.1) :=
    List.rel_filter (fun field blame hfield => by simp [hfield.tag]) h
  have htaken : Option.Rel (List.Forall₂ FieldsAnswer)
      ((written.filter fun (tag, _, _) => tag == .merge).mapM fun (_, _, value) => value.merged?)
      ((blames.filter fun (tag, _, _) => tag == .merge).mapM fun (_, _, value) => value.merged?) :=
    rel_mapM (fun _ _ hfield => hfield.value.merged) (hfilter (· == .merge))
  have hown := fieldsAnswer_own (hfilter (· != .merge))
  unfold allFields fieldFaults
  generalize ((written.filter fun (tag, _, _) => tag == .merge).mapM fun (_, _, value) =>
    value.merged?) = taken?, ((blames.filter fun (tag, _, _) => tag == .merge).mapM
    fun (_, _, value) => value.merged?) = faults? at htaken ⊢
  cases htaken with
  | none => exact .none
  | some htaken => exact .some ((fieldsAnswer_flatten htaken).append hown)

mutual

theorem answers_build (tree : Tree) : tree.build.Answers tree.blame := by
  match tree with
  | .scalar tag text =>
    rw [Tree.build, Tree.blame]
    exact ⟨failure?_scalarOutcome tag text, .none, .none⟩
  | .sequence tag items =>
    rw [Tree.build, Tree.blame]
    have hitems := answers_buildItems items
    have hfields := rel_mapM (R := Built.Answers) (fun _ _ hpart => hpart.fields)
      (List.forall₂_reverse_iff.mpr hitems)
    exact ⟨failure?_sequenceValue tag hitems, .none, rel_map_flatten hfields⟩
  | .mapping tag pairs =>
    rw [Tree.build, Tree.blame]
    have hfields := rel_allFields (answers_buildFields pairs)
    exact ⟨failure?_mappingValue tag hfields, hfields, hfields⟩

theorem answers_buildItems (items : List Tree) :
    List.Forall₂ Built.Answers (buildItems items) (blameItems items) := by
  match items with
  | [] => exact .nil
  | item :: rest =>
    rw [buildItems, blameItems]
    exact .cons (answers_build item) (answers_buildItems rest)

theorem answers_buildFields (pairs : List (Tree × Tree)) :
    List.Forall₂ Written.Answers (buildFields pairs) (blameFields pairs) := by
  match pairs with
  | [] => exact .nil
  | (key, value) :: rest =>
    rw [buildFields, blameFields]
    exact .cons ⟨rfl, failure?_key key, answers_build value⟩ (answers_buildFields rest)

end

/-- A tree answers for the outermost of its faults, and for the first of several such; without a
fault it has a value. -/
theorem failure?_build (tree : Tree) : failure? tree.build.value = foremost? tree.faults :=
  (answers_build tree).value

/-! ## Where faults come from -/

/-- The scalar stands somewhere in the tree. -/
inductive Tree.Has (tag : Tag) (text : String) : Tree → Prop where
  | self : Has tag text (.scalar tag text)
  | item {own : Tag} {items : List Tree} {item : Tree} (hmem : item ∈ items)
      (h : Has tag text item) : Has tag text (.sequence own items)
  | key {own : Tag} {pairs : List (Tree × Tree)} {pair : Tree × Tree} (hmem : pair ∈ pairs)
      (h : Has tag text pair.1) : Has tag text (.mapping own pairs)
  | value {own : Tag} {pairs : List (Tree × Tree)} {pair : Tree × Tree} (hmem : pair ∈ pairs)
      (h : Has tag text pair.2) : Has tag text (.mapping own pairs)

/-- Each of the faults makes a text malformed, or is that of a scalar which has no value. -/
def Explained (has : Tag → String → Prop) (faults : List Failure) : Prop :=
  ∀ e ∈ faults, e.fault = .malformed ∨
    ∃ tag text, has tag text ∧ scalarValue tag text = .error e.fault

section
variable {has others : Tag → String → Prop} {faults : List Failure}

theorem Explained.mono (h : Explained has faults)
    (hhas : ∀ tag text, has tag text → others tag text) :
    Explained others faults := by
  intro e he
  refine (h e he).imp_right ?_
  rintro ⟨tag, text, hscalar, hvalue⟩
  exact ⟨tag, text, hhas tag text hscalar, hvalue⟩

theorem explained_malformed (depth : ℕ) : Explained has [⟨depth, .malformed⟩] := by
  intro e he
  obtain rfl := List.mem_singleton.mp he
  exact .inl rfl

theorem Explained.append {more : List Failure} (h : Explained has faults)
    (hmore : Explained has more) : Explained has (faults ++ more) :=
  List.forall_mem_append.mpr ⟨h, hmore⟩

theorem Explained.deeper (h : Explained has faults) : Explained has (faults.map .deeper) :=
  List.forall_mem_map.mpr h

theorem Explained.flatten {lists : List (List Failure)}
    (h : ∀ faults ∈ lists, Explained has faults) :
    Explained has lists.flatten := by
  intro e he
  obtain ⟨faults, hfaults, he⟩ := List.mem_flatten.mp he
  exact h faults hfaults e he

theorem explained_scalarFaults {tag : Tag} {text : String} (h : has tag text) :
    Explained has (scalarFaults tag text) := by
  unfold scalarFaults
  split
  · exact List.forall_mem_nil _
  · next fault hvalue =>
    intro e he
    obtain rfl := List.mem_singleton.mp he
    exact .inr ⟨tag, text, h, hvalue⟩

theorem forall_mem_of_mapM {α β : Type} {f : α → Option β} {P : β → Prop} {xs : List α}
    {ys : List β} (hparts : ∀ x ∈ xs, ∀ y ∈ f x, P y) (h : ys ∈ xs.mapM f) : ∀ y ∈ ys, P y := by
  induction xs generalizing ys with
  | nil =>
    obtain rfl := Option.some.inj h
    exact List.forall_mem_nil _
  | cons x rest ih =>
    obtain ⟨hfirst, hrest⟩ := List.forall_mem_cons.mp hparts
    rw [List.mapM_cons] at h
    obtain ⟨y, hy, h⟩ := Option.bind_eq_some_iff.mp h
    obtain ⟨more, hmore, h⟩ := Option.bind_eq_some_iff.mp h
    obtain rfl := Option.some.inj h
    exact List.forall_mem_cons.mpr ⟨hfirst y hy, ih hrest hmore⟩

/-- All that is wrong with a tree is explained by scalars. -/
structure Blame.Explained (has : Tag → String → Prop) (blame : Blame) : Prop where
  value : Yaml.Explained has blame.value
  fields : ∀ faults ∈ blame.fields?, Yaml.Explained has faults
  merged : ∀ faults ∈ blame.merged?, Yaml.Explained has faults

theorem Blame.Explained.mono {blame : Blame} (h : blame.Explained has)
    (hhas : ∀ tag text, has tag text → others tag text) : blame.Explained others :=
  ⟨h.value.mono hhas, fun faults hfaults => (h.fields faults hfaults).mono hhas,
    fun faults hfaults => (h.merged faults hfaults).mono hhas⟩

/-- What is wrong in the fields of a mapping is explained where each field is. -/
theorem explained_fieldFaults {blames : List (Tag × List Failure × Blame)}
    (h : ∀ field ∈ blames, Explained has field.2.1 ∧ field.2.2.Explained has) :
    ∀ faults ∈ fieldFaults blames, Explained has faults := by
  intro faults hfaults
  obtain ⟨taken, htaken, hfaults⟩ := Option.bind_eq_some_iff.mp hfaults
  obtain rfl := Option.some.inj hfaults
  refine .append (.flatten (forall_mem_of_mapM (fun field hfield => ?_) htaken)) ?_
  · exact (h field (List.mem_filter.mp hfield).1).2.merged
  · intro e he
    obtain ⟨field, hfield, he⟩ := List.mem_flatMap.mp he
    obtain ⟨hkey, hvalue⟩ := h field (List.mem_filter.mp hfield).1
    exact (hkey.append hvalue.value) e he

end

theorem explained_sequenceFaults {has : Tag → String → Prop} (tag : Tag) {items : List Blame}
    (h : ∀ item ∈ items, item.Explained has) : Explained has (sequenceFaults tag items) := by
  unfold sequenceFaults
  split
  · refine .deeper fun e he => ?_
    obtain ⟨item, hitem, he⟩ := List.mem_flatMap.mp he
    exact (h item hitem).value e he
  · exact explained_malformed 0

theorem explained_mappingFaults {has : Tag → String → Prop} (tag : Tag)
    {fields? : Option (List Failure)} (h : ∀ faults ∈ fields?, Explained has faults) :
    Explained has (mappingFaults tag fields?) := by
  unfold mappingFaults
  split
  · exact (h _ rfl).deeper
  · exact explained_malformed 1
  · exact explained_malformed 0

theorem explained_keyFaults (tree : Tree) :
    Explained (fun tag text => tree.Has tag text) tree.keyFaults := by
  unfold Tree.keyFaults
  split
  · exact List.forall_mem_nil _
  · exact explained_scalarFaults .self
  · exact explained_malformed 0

mutual

theorem explained_blame (tree : Tree) :
    tree.blame.Explained fun tag text => tree.Has tag text := by
  match tree with
  | .scalar tag text =>
    rw [Tree.blame]
    exact ⟨explained_scalarFaults .self, nofun, nofun⟩
  | .sequence tag items =>
    rw [Tree.blame]
    have hitems : ∀ blame ∈ blameItems items,
        blame.Explained fun tag' text => (Tree.sequence tag items).Has tag' text :=
      fun blame hblame => (explained_blameItems items blame hblame).mono
        fun _ _ ⟨_, hitem, h⟩ => .item hitem h
    refine ⟨explained_sequenceFaults tag hitems, nofun, fun faults hfaults => ?_⟩
    obtain ⟨taken, htaken, rfl⟩ := Option.map_eq_some_iff.mp hfaults
    refine .flatten (forall_mem_of_mapM (fun blame hblame => ?_) htaken)
    exact (hitems blame (List.mem_reverse.mp hblame)).fields
  | .mapping tag pairs =>
    rw [Tree.blame]
    have hfields : ∀ faults ∈ fieldFaults (blameFields pairs),
        Explained (fun tag' text => (Tree.mapping tag pairs).Has tag' text) faults :=
      fun faults hfaults =>
        (explained_fieldFaults (explained_blameFields pairs) faults hfaults).mono
          fun _ _ ⟨_, hpair, h⟩ => h.elim (.key hpair) (.value hpair)
    exact ⟨explained_mappingFaults tag hfields, hfields, hfields⟩

theorem explained_blameItems (items : List Tree) : ∀ blame ∈ blameItems items,
    blame.Explained fun tag text => ∃ item ∈ items, item.Has tag text := by
  match items with
  | [] => exact List.forall_mem_nil _
  | item :: rest =>
    rw [blameItems]
    refine List.forall_mem_cons.mpr ⟨(explained_blame item).mono fun tag text h => ?_,
      fun blame hblame => (explained_blameItems rest blame hblame).mono ?_⟩
    · exact ⟨item, List.mem_cons_self, h⟩
    · rintro tag text ⟨other, hother, h⟩
      exact ⟨other, List.mem_cons_of_mem _ hother, h⟩

theorem explained_blameFields (pairs : List (Tree × Tree)) : ∀ field ∈ blameFields pairs,
    Explained (fun tag text => ∃ pair ∈ pairs, pair.1.Has tag text ∨ pair.2.Has tag text)
        field.2.1 ∧
      field.2.2.Explained fun tag text =>
        ∃ pair ∈ pairs, pair.1.Has tag text ∨ pair.2.Has tag text := by
  match pairs with
  | [] => exact List.forall_mem_nil _
  | (key, value) :: rest =>
    rw [blameFields]
    refine List.forall_mem_cons.mpr ⟨⟨(explained_keyFaults key).mono fun tag text h => ?_,
      (explained_blame value).mono fun tag text h => ?_⟩, fun field hfield => ?_⟩
    · exact ⟨_, List.mem_cons_self, .inl h⟩
    · exact ⟨_, List.mem_cons_self, .inr h⟩
    · obtain ⟨hkey, hvalue⟩ := explained_blameFields rest field hfield
      have hrest (tag : Tag) (text : String) :
          (∃ pair ∈ rest, pair.1.Has tag text ∨ pair.2.Has tag text) →
            ∃ pair ∈ (key, value) :: rest, pair.1.Has tag text ∨ pair.2.Has tag text := by
        rintro ⟨pair, hpair, h⟩
        exact ⟨pair, List.mem_cons_of_mem _ hpair, h⟩
      exact ⟨hkey.mono hrest, hvalue.mono hrest⟩

end

/-- Whatever in a tree does not just make it malformed is the fault of a scalar that has no value of
its kind. -/
theorem exists_scalar_of_mem_faults {tree : Tree} {e : Failure} (h : e ∈ tree.faults)
    (hfault : e.fault ≠ .malformed) :
    ∃ tag text, tree.Has tag text ∧ scalarValue tag text = .error e.fault :=
  ((explained_blame tree).value e h).resolve_left hfault

end Toolgate.Yaml
