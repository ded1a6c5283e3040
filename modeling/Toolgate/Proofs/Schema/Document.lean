import Toolgate.Catalog.Endpoint
import Toolgate.Proofs.Schema.Object
import Toolgate.Proofs.Schema.Termination

/-!
# The network of a document

The values in a document, each with its place, are a network. It is finite, nothing leads out of it,
and all references in it are among the reference texts that the translation starts with. So the
translation of a node of a document is the translation over this network: both do the same at every
node, and their calls are never nested deeper than the network allows.

## Main definitions

* `Network.ofDocument`: the network of a document
* `nodesAt`: a value with all values inside it, as nodes
* `Call.toNode`: the node that a call translates, with the description that was put into it
* `formAt`: the form of the node of a call

## Main statements

* `formAt_eq_step`: the translation does at each call what `Network.step` does
* `translateWithin_ofDocument`: the translation is the one over the network
* `translation_ends`: translation ends over each network of finitely many nodes
-/

namespace Toolgate.Schema

/-! ## Nodes of a document -/

/-- What stands in a value, as nodes. -/
def contentsOf (node : Node) : Contents Node :=
  match node.value with
  | .arr items => .items (node.itemsFrom 0 items)
  | .obj _ => .fields (Catalog.fieldNodes node)
  | _ => .nothing

/-- The values of a document and their parts, told apart by their places. -/
def Network.ofDocument (document : Json) : Network Node Place where
  root := .root document
  identity := Node.place
  contents := contentsOf
  value := Node.value

section
variable {node part : Node}

theorem contentsOf_eq_fields {fields : List (String × Node)}
    (h : contentsOf node = .fields fields) : Catalog.fieldNodes node = fields := by
  unfold contentsOf at h
  split at h
  · cases h
  · exact Contents.fields.inj h
  · cases h

theorem contentsOf_eq_items {parts : List Node} (h : contentsOf node = .items parts) :
    node.items = parts := by
  unfold contentsOf at h
  split at h
  · next hvalue => rw [Node.items, hvalue]; exact Contents.items.inj h
  · cases h
  · cases h

theorem mem_contentsOf_of_fieldNodes {key : String} (h : (key, part) ∈ Catalog.fieldNodes node) :
    part ∈ (contentsOf node).nodes := by
  unfold contentsOf
  split
  · next hvalue => simp [Catalog.fieldNodes, hvalue] at h
  · exact List.mem_map.mpr ⟨(key, part), h, rfl⟩
  · next hno =>
    unfold Catalog.fieldNodes at h
    split at h
    · next hvalue => exact absurd hvalue (hno _)
    · cases h

theorem mem_contentsOf_of_items (h : part ∈ node.items) : part ∈ (contentsOf node).nodes := by
  unfold Node.items at h
  split at h
  · next hvalue => rwa [contentsOf, hvalue]
  · cases h

end

mutual

/-- A value and all values inside it, as nodes. -/
def nodesAt (place : Place) : Json → List Node
  | .arr items => ⟨.arr items, place, false⟩ :: nodesAtItems place 0 items
  | .obj fields => ⟨.obj fields, place, false⟩ :: nodesAtFields place fields
  | v => [⟨v, place, false⟩]

/-- The items from the `n`-th on and all values inside them. -/
def nodesAtItems (place : Place) (n : Nat) : List Json → List Node
  | [] => []
  | v :: rest => nodesAt (place.step (.index n)) v ++ nodesAtItems place (n + 1) rest

/-- The values of the fields and all values inside them. -/
def nodesAtFields (place : Place) : List (String × Json) → List Node
  | [] => []
  | (key, v) :: rest => nodesAt (place.step (.key key)) v ++ nodesAtFields place rest

end

theorem mem_nodesAt_self (v : Json) (place : Place) : ⟨v, place, false⟩ ∈ nodesAt place v := by
  cases v <;> simp [nodesAt]

/-- What stands inside the node stands inside the value as well. -/
structure IsInside (nodes : List Node) (refs : List String) (node : Node) : Prop where
  unaltered : node.altered = false
  nodes_subset : nodesAt node.place node.value ⊆ nodes
  refs_subset : refTexts node.value ⊆ refs

theorem IsInside.mono {nodes nodes' : List Node} {refs refs' : List String} {node : Node}
    (h : IsInside nodes refs node) (hnodes : nodes ⊆ nodes') (hrefs : refs ⊆ refs') :
    IsInside nodes' refs' node :=
  ⟨h.unaltered, List.Subset.trans h.nodes_subset hnodes, List.Subset.trans h.refs_subset hrefs⟩

theorem isInside_self (v : Json) (place : Place) :
    IsInside (nodesAt place v) (refTexts v) ⟨v, place, false⟩ :=
  ⟨rfl, List.Subset.refl _, List.Subset.refl _⟩

theorem refTexts_subset_refTextsFields (key : String) (v : Json) (rest : List (String × Json)) :
    refTexts v ++ refTextsFields rest ⊆ refTextsFields ((key, v) :: rest) := by
  cases v with
  | str ref =>
    rw [refTextsFields]
    split
    · exact List.subset_cons_self _ _
    · exact List.Subset.refl _
  | _ =>
    rw [refTextsFields]
    · exact List.Subset.refl _
    · simp

mutual

theorem isInside_of_mem_nodesAt {v : Json} {place : Place} {node : Node}
    (h : node ∈ nodesAt place v) : IsInside (nodesAt place v) (refTexts v) node := by
  match v, h with
  | .arr items, h =>
    rw [nodesAt, List.mem_cons] at h
    rcases h with rfl | h
    · exact isInside_self _ _
    · exact (isInside_of_mem_nodesAtItems h).mono
        (by rw [nodesAt]; exact List.subset_cons_self _ _) (List.Subset.refl _)
  | .obj fields, h =>
    rw [nodesAt, List.mem_cons] at h
    rcases h with rfl | h
    · exact isInside_self _ _
    · exact (isInside_of_mem_nodesAtFields h).mono
        (by rw [nodesAt]; exact List.subset_cons_self _ _) (List.Subset.refl _)
  | .null, h | .bool _, h | .int _, h | .float _, h | .str _, h | .date _, h =>
    obtain rfl := List.mem_singleton.mp h
    exact isInside_self _ _

theorem isInside_of_mem_nodesAtItems {items : List Json} {place : Place} {n : Nat} {node : Node}
    (h : node ∈ nodesAtItems place n items) :
    IsInside (nodesAtItems place n items) (refTextsItems items) node := by
  match items, h with
  | v :: rest, h =>
    rw [nodesAtItems, refTextsItems]
    rcases List.mem_append.mp h with h | h
    · exact (isInside_of_mem_nodesAt h).mono (List.subset_append_left _ _)
        (List.subset_append_left _ _)
    · exact (isInside_of_mem_nodesAtItems h).mono (List.subset_append_right _ _)
        (List.subset_append_right _ _)

theorem isInside_of_mem_nodesAtFields {fields : List (String × Json)} {place : Place} {node : Node}
    (h : node ∈ nodesAtFields place fields) :
    IsInside (nodesAtFields place fields) (refTextsFields fields) node := by
  match fields, h with
  | (key, v) :: rest, h =>
    have hrefs := refTexts_subset_refTextsFields key v rest
    rw [nodesAtFields]
    rcases List.mem_append.mp h with h | h
    · exact (isInside_of_mem_nodesAt h).mono (List.subset_append_left _ _)
        (List.Subset.trans (List.subset_append_left _ _) hrefs)
    · exact (isInside_of_mem_nodesAtFields h).mono (List.subset_append_right _ _)
        (List.Subset.trans (List.subset_append_right _ _) hrefs)

end

theorem itemsFrom_subset (node : Node) (n : Nat) (items : List Json) :
    node.itemsFrom n items ⊆ nodesAtItems node.place n items := by
  induction items generalizing n with
  | nil => exact List.nil_subset _
  | cons v rest ih =>
    rw [Node.itemsFrom, nodesAtItems]
    exact List.cons_subset.mpr ⟨List.mem_append_left _ (mem_nodesAt_self _ _),
      List.Subset.trans (ih (n + 1)) (List.subset_append_right _ _)⟩

theorem fieldNodes_subset (place : Place) (fields : List (String × Json)) :
    (fields.map fun (key, v) => (⟨v, place.step (.key key), false⟩ : Node)) ⊆
      nodesAtFields place fields := by
  induction fields with
  | nil => exact List.nil_subset _
  | cons field rest ih =>
    rw [List.map_cons, nodesAtFields]
    exact List.cons_subset.mpr ⟨List.mem_append_left _ (mem_nodesAt_self _ _),
      List.Subset.trans ih (List.subset_append_right _ _)⟩

/-- The parts of a node are among the nodes of its value. -/
theorem contentsOf_subset (node : Node) :
    (contentsOf node).nodes ⊆ nodesAt node.place node.value := by
  unfold contentsOf
  split
  · next items hv =>
    rw [hv, nodesAt]
    exact List.Subset.trans (itemsFrom_subset node 0 items) (List.subset_cons_self _ _)
  · next fields hv =>
    rw [Contents.nodes, Catalog.fieldNodes, hv, nodesAt]
    simpa only [List.map_map, Function.comp_def] using
      List.Subset.trans (fieldNodes_subset node.place fields) (List.subset_cons_self _ _)
  · exact List.nil_subset _

/-- A list of nodes of a document that references and parts do not leave, whose references are among
the texts that may be followed. -/
structure Network.Covers (document : Json) (nodes : List Node) (refs : List String) : Prop where
  closed : (Network.ofDocument document).Closed nodes
  unaltered : ∀ node ∈ nodes, node.altered = false
  refTexts : ∀ node ∈ nodes, Schema.refTexts node.value ⊆ refs

/-- The nodes of a document. -/
def nodesOf (document : Json) : List Node :=
  nodesAt ⟨.document, []⟩ document

theorem Network.covers_nodesOf (document : Json) :
    Covers document (nodesOf document) (Schema.refTexts document) where
  closed :=
    { root := mem_nodesAt_self document _
      contents := fun node hnode _ hpart =>
        (isInside_of_mem_nodesAt hnode).nodes_subset (contentsOf_subset node hpart) }
  unaltered _ hnode := (isInside_of_mem_nodesAt hnode).unaltered
  refTexts _ hnode := (isInside_of_mem_nodesAt hnode).refs_subset

/-- The nodes of a document and of a node beside it. -/
def nodesBeside (document : Json) (node : Node) : List Node :=
  nodesOf document ++ nodesAt node.place node.value

theorem mem_nodesBeside (document : Json) {node : Node} (h : node.altered = false) :
    node ∈ nodesBeside document node := by
  obtain ⟨value, place, altered⟩ := node
  obtain rfl : altered = false := h
  exact List.mem_append_right _ (mem_nodesAt_self value place)

theorem Network.covers_nodesBeside (document : Json) (node : Node) :
    Covers document (nodesBeside document node)
      (Schema.refTexts document ++ Schema.refTexts node.value) := by
  have inside {other : Node} (h : other ∈ nodesBeside document node) :
      IsInside (nodesBeside document node)
        (Schema.refTexts document ++ Schema.refTexts node.value) other := by
    rcases List.mem_append.mp h with h | h
    · exact (isInside_of_mem_nodesAt h).mono (List.subset_append_left _ _)
        (List.subset_append_left _ _)
    · exact (isInside_of_mem_nodesAt h).mono (List.subset_append_right _ _)
        (List.subset_append_right _ _)
  exact
    { closed :=
        { root := List.mem_append_left _ (mem_nodesAt_self document _)
          contents := fun other hother _ hpart =>
            (inside hother).nodes_subset (contentsOf_subset other hpart) }
      unaltered := fun _ hother => (inside hother).unaltered
      refTexts := fun _ hother => (inside hother).refs_subset }

/-! ## One step over a document -/

/-- The texts that may still be followed. -/
def remaining (refs resolving : List String) : List String :=
  refs.filter fun ref => !resolving.contains ref

theorem remaining_cons (refs resolving : List String) (ref : String) :
    remaining refs (ref :: resolving) = (remaining refs resolving).filter (· != ref) := by
  rw [remaining, remaining, List.filter_filter]
  refine List.filter_congr fun other _ => ?_
  rw [List.contains_cons, Bool.not_or]
  rfl

theorem remaining_nil (refs : List String) : remaining refs [] = refs := by simp [remaining]

/-- The node that a call translates: the node of the call, or a copy of it in which the description
has been put. -/
def Call.toNode (call : Call Node Place) : Node :=
  match call.noted, call.node.value with
  | some description, .obj fields =>
    ⟨.obj (setField "description" description fields), call.node.place, true⟩
  | _, _ => call.node

/-- The form of the node of a call, where `refs` are the texts that may be followed at first. -/
def formAt (document : Json) (refs : List String) (call : Call Node Place) (name : String) :
    Except Halt Form :=
  (translate document (remaining refs call.resolving) call.active call.toNode name).mapError .fault

section
variable {document : Json}

/-- A value of a list of fields with what each key makes of its value. -/
theorem lookupField_map {α β : Type} (f : String → α → β) (key : String)
    (fields : List (String × α)) :
    lookupField key (fields.map fun field => (field.1, f field.1 field.2)) =
      (lookupField key fields).map (f key) := by
  induction fields with
  | nil => rfl
  | cons field rest ih =>
    rw [List.map_cons, lookupField, lookupField]
    split
    · next heq => rw [beq_iff_eq.mp heq, Option.map_some]
    · exact ih

theorem lookupField_fieldNodes {node : Node} {fields : List (String × Json)}
    (hvalue : node.value = .obj fields) (key : String) :
    lookupField key (Catalog.fieldNodes node) =
      (lookupField key fields).map (⟨·, node.place.step (.key key), false⟩) := by
  rw [Catalog.fieldNodes, hvalue]
  exact lookupField_map (fun key v => (⟨v, node.place.step (.key key), false⟩ : Node)) key fields

theorem contents_ofDocument (node : Node) :
    (Network.ofDocument document).contents node = contentsOf node :=
  rfl

theorem isObject_ofDocument (node : Node) :
    (Network.ofDocument document).isObject node = node.value.isObject := by
  rw [Network.isObject, contents_ofDocument, contentsOf]
  cases node.value <;> rfl

theorem truthy_ofDocument (node : Node) :
    (Network.ofDocument document).truthy node = node.value.truthy := by
  rw [Network.truthy, contents_ofDocument, contentsOf]
  cases hvalue : node.value with
  | arr items => cases items <;> rfl
  | obj fields => cases fields <;> simp [Catalog.fieldNodes, hvalue, Json.truthy]
  | _ => simp [Network.ofDocument, hvalue]

theorem valuesOf_ofDocument {node : Node} {fields : List (String × Json)}
    (hvalue : node.value = .obj fields) :
    (Network.ofDocument document).valuesOf node = fields := by
  rw [Network.valuesOf, contents_ofDocument, contentsOf]
  simp [Catalog.fieldNodes, hvalue, Network.ofDocument, Function.comp_def]

theorem getElem?_itemsFrom (node : Node) (n : Nat) (items : List Json) (i : Nat) :
    (node.itemsFrom n items)[i]? =
      (items[i]?).map fun v => ⟨v, node.place.step (.index (n + i)), false⟩ := by
  induction items generalizing n i with
  | nil => simp [Node.itemsFrom]
  | cons v rest ih =>
    cases i with
    | zero => simp [Node.itemsFrom]
    | succ i =>
      rw [Node.itemsFrom, List.getElem?_cons_succ, List.getElem?_cons_succ, ih]
      simp only [Nat.add_right_comm, Nat.add_assoc]

theorem follow_ofDocument (node : Node) (step : String) :
    (Network.ofDocument document).follow node step = node.follow step := by
  rw [Network.follow, Node.follow, contents_ofDocument, contentsOf]
  cases hvalue : node.value with
  | obj fields =>
    simp only [Catalog.fieldNodes, hvalue, Node.get?, Json.get?]
    exact congrArg Except.ok
      (lookupField_map (fun key v => (⟨v, node.place.step (.key key), false⟩ : Node)) step fields)
  | arr items =>
    dsimp only
    refine congrArg _ (funext fun n? => ?_)
    cases n? with
    | none => rfl
    | some n => simp only [getElem?_itemsFrom, Nat.zero_add]
  | _ => rfl

theorem resolve_ofDocument (document : Json) (ref : String) :
    (Network.ofDocument document).resolve ref = resolveRef document ref := by
  have follow (node : Node) (steps : List String) :
      (Network.ofDocument document).followAll node steps = node.followAll steps := by
    induction steps generalizing node with
    | nil => rfl
    | cons step rest ih =>
      rw [Network.followAll, Node.followAll, follow_ofDocument]
      refine congrArg _ (funext fun next? => ?_)
      cases next? with
      | none => rfl
      | some next => exact ih next
  rw [Network.resolve, resolveRef]
  cases refSteps? ref with
  | none => rfl
  | some steps => exact follow _ steps

/-! ### Keywords -/

/-- The nodes stand for the values of the fields, but for the description, which may have been
put in. -/
def StandsFor (place : Place) (nodes : List (String × Node)) (fields : List (String × Json)) :
    Prop :=
  ∀ key ≠ "description",
    lookupField key nodes = (lookupField key fields).map (⟨·, place.step (.key key), false⟩)

section
variable {place : Place} {nodes : List (String × Node)} {fields : List (String × Json)}

theorem listed?_ofDocument (h : StandsFor place nodes fields) {key : String}
    (hkey : key ≠ "description") :
    (Network.ofDocument document).listed? nodes key = (listNamed? fields key).map fun items =>
      Node.itemsFrom ⟨.arr items, place.step (.key key), false⟩ 0 items := by
  rw [Network.listed?, h key hkey, listNamed?]
  cases lookupField key fields with
  | none => rfl
  | some v =>
    cases v with
    | arr items => cases items <;> rfl
    | _ => rfl

variable {pending : List String} {active : List Place} {name : String}

theorem map_mapError {ε ε' α β : Type} (f : α → β) (g : ε → ε') (x : Except ε α) :
    (x.mapError g).map f = (x.map f).mapError g := by
  cases x <;> rfl

theorem formsOf_numbered (node : Node) (n : Nat) (items : List Json) :
    formsOf (fun node name => (translate document pending active node name).mapError Halt.fault)
        (Plan.numbered name n (node.itemsFrom n items)) =
      (translateItems document pending active node.place name n items).mapError .fault := by
  induction items generalizing n with
  | nil => rw [Node.itemsFrom, Plan.numbered, formsOf, translateItems]; rfl
  | cons v rest ih =>
    rw [Node.itemsFrom, Plan.numbered, formsOf, translateItems, ih]
    cases translate document pending active ⟨v, node.place.step (.index n), false⟩
        (name ++ Decimal.natText (n + 1)) with
    | error cause => rfl
    | ok form => cases translateItems document pending active node.place name (n + 1) rest <;> rfl

theorem formsOf_properties (document : Json) (pending : List String) (active : List Place)
    (place : Place) (name : String) (required : List String) (properties : List (String × Json)) :
    (formsOf (fun node name => (translate document pending active node name).mapError Halt.fault)
        (properties.map fun property =>
          (⟨property.2, place.step (.key property.1), false⟩, name ++ "_" ++ property.1))).map
        (fun forms => (properties.zip forms).map fun pair =>
          (⟨pair.1.1, required.contains pair.1.1, pair.2⟩ : Member Form)) =
      (translateMembers document pending active place name required properties).mapError .fault := by
  induction properties with
  | nil => rw [List.map_nil, formsOf, translateMembers]; rfl
  | cons property rest ih =>
    rw [List.map_cons, formsOf, translateMembers]
    cases translate document pending active ⟨property.2, place.step (.key property.1), false⟩
        (name ++ "_" ++ property.1) with
    | error cause => rfl
    | ok form =>
      dsimp only
      -- The forms of the other properties come to their members, or neither has come about.
      generalize formsOf _ _ = forms? at ih ⊢
      generalize translateMembers _ _ _ _ _ _ _ = members? at ih ⊢
      cases forms? with
      | error halt =>
        cases members? with
        | error cause => exact congrArg Except.error (Except.error.inj ih)
        | ok members => cases ih
      | ok forms =>
        cases members? with
        | error cause => cases ih
        | ok members =>
          obtain rfl := Except.ok.inj ih
          rfl

theorem listPlanForm_ofDocument (h : StandsFor place nodes fields) :
    ((Network.ofDocument document).listPlan nodes).form
        (fun node name => (translate document pending active node name).mapError .fault) name =
      (match _hi : lookupField "items" fields with
      | some v =>
        if v.truthy then
          (translate document pending active ⟨v, place.step (.key "items"), false⟩
            (name ++ "Item")).map fun form => ⟨.array, .list form.describedShape, "", []⟩
        else .ok ⟨.array, .list .anything, "", []⟩
      | none => .ok ⟨.array, .list .anything, "", []⟩ :
        Except TranslationError Form).mapError .fault := by
  rw [Network.listPlan, h "items" (by simp)]
  cases lookupField "items" fields with
  | none => rfl
  | some v =>
    dsimp only [Option.map_some]
    split_ifs with htruthy
    · rw [Option.filter_some_pos (by rw [truthy_ofDocument]; exact htruthy)]
      dsimp only [Plan.form, Plan.called, formsOf]
      cases translate document pending active ⟨v, place.step (.key "items"), false⟩
        (name ++ "Item") <;> rfl
    · rw [Option.filter_some_neg (by rw [truthy_ofDocument]; simpa using htruthy)]
      rfl

theorem objectPlanForm_ofDocument (h : StandsFor place nodes fields) :
    ((Network.ofDocument document).objectPlan nodes fields).form
        (fun node name => (translate document pending active node name).mapError .fault) name =
      (match _hp : lookupField "properties" fields with
      | some (.obj (first :: rest)) =>
        (translateMembers document pending active (place.step (.key "properties")) name
          (requiredNames (said fields "required")) (first :: rest)).map (Form.ofMembers name)
      | _ =>
        match _hx : lookupField "additionalProperties" fields with
        | some (.obj values) =>
          (translate document pending active
            ⟨.obj values, place.step (.key "additionalProperties"), false⟩
            (name ++ "Value")).map fun form => ⟨.map, .table form.describedShape, "", []⟩
        | _ => .ok .looseObject : Except TranslationError Form).mapError .fault := by
  rw [Network.objectPlan, h "properties" (by simp), h "additionalProperties" (by simp)]
  rcases lookupField "properties" fields with _ | (_ | _ | _ | _ | _ | _ | _ | (_ | ⟨first, rest⟩))
  case some.obj.cons =>
    have hmembers := formsOf_properties document pending active (place.step (.key "properties")) name
      (requiredNames (said fields "required")) (first :: rest)
    change (Plan.object (requiredNames (said fields "required"))
      ((first :: rest).map fun property =>
        (property.1, (⟨property.2, (place.step (.key "properties")).step (.key property.1), false⟩ :
          Node)))).form _ name = _
    rw [Plan.form, Plan.called, List.map_map]
    dsimp only [Function.comp_def]
    rw [← map_mapError, ← hmembers]
    generalize formsOf _ _ = forms?
    cases forms? with
    | error halt => rfl
    | ok forms =>
      dsimp only [Except.map]
      refine congrArg (fun members => Except.ok (Form.ofMembers name members)) ?_
      rw [List.zip_map_left, List.map_map]
      rfl
  all_goals
    cases lookupField "additionalProperties" fields with
    | none => rfl
    | some v =>
      cases v with
      | obj values =>
        dsimp only [Option.map_some, Option.map_none]
        rw [Option.filter_some_pos (by rw [isObject_ofDocument]; rfl)]
        change (Plan.table
          (⟨.obj values, place.step (.key "additionalProperties"), false⟩ : Node)).form _ name = _
        dsimp only [Plan.form, Plan.called, formsOf]
        cases translate document pending active
          ⟨.obj values, place.step (.key "additionalProperties"), false⟩ (name ++ "Value") <;> rfl
      | _ => rfl

/-- The keywords of a node are carried out as the network plans it. -/
theorem planForm_eq_translateFields (h : StandsFor place nodes fields) :
    ((Network.ofDocument document).plan nodes fields).form
        (fun node name => (translate document pending active node name).mapError .fault) name =
      (translateFields document pending active place fields name).mapError .fault := by
  rw [Network.plan, listed?_ofDocument h (by simp), listed?_ofDocument h (by simp),
    listed?_ofDocument h (by simp), translateFields]
  cases listNamed? fields "oneOf" with
  | some items =>
    dsimp only [Option.map_some]
    rw [Plan.form, Plan.called, formsOf_numbered]
    dsimp only
    cases translateItems document pending active (place.step (.key "oneOf")) (name ++ "Option") 0
      items <;> rfl
  | none =>
  cases listNamed? fields "anyOf" with
  | some items =>
    dsimp only [Option.map_some, Option.map_none]
    rw [Plan.form, Plan.called, formsOf_numbered]
    dsimp only
    cases translateItems document pending active (place.step (.key "anyOf")) (name ++ "Option") 0
      items <;> rfl
  | none =>
  cases listNamed? fields "allOf" with
  | some items =>
    dsimp only [Option.map_some, Option.map_none]
    rw [Plan.form, Plan.called, formsOf_numbered]
    dsimp only
    cases translateItems document pending active (place.step (.key "allOf")) (name ++ "Part") 0
      items <;> rfl
  | none =>
    dsimp only [Option.map_none]
    generalize typeNamed? (said fields "type") = type?
    split
    case h_6 => exact listPlanForm_ofDocument h
    case h_7 => exact objectPlanForm_ofDocument h
    case h_8 => simp_all; rfl
    all_goals rfl

end

/-! ### Calls -/

section
variable {nodes : List Node} {refs : List String} {call : Call Node Place} {name : String}

/-- What the network tells of a target is what is done with it. -/
theorem toNode_followed {ref : String} {target : Node} (hobject : target.value.isObject = true) :
    ((Network.ofDocument document).followed call ref target).toNode =
      describedTarget (said ((Network.ofDocument document).values call) "description") target := by
  obtain ⟨value, place, altered⟩ := target
  cases value with
  | obj fields =>
    rw [describedTarget, Network.followed, Network.noteFor, valuesOf_ofDocument rfl, Call.toNode]
    dsimp only
    by_cases hnote : ((said ((Network.ofDocument document).values call) "description").truthy &&
        !(said fields "description").truthy) = true
    · rw [if_pos hnote, if_pos hnote]
    · rw [if_neg hnote, if_neg hnote]
  | _ => cases hobject

section
variable {fields : List (String × Json)}

theorem values_ofDocument (hvalue : call.node.value = .obj fields) :
    (Network.ofDocument document).values call =
      call.noted.elim fields (setField "description" · fields) := by
  rw [Network.values, valuesOf_ofDocument hvalue]
  cases call.noted <;> rfl

theorem toNode_value (document : Json) (hvalue : call.node.value = .obj fields) :
    call.toNode.value = .obj ((Network.ofDocument document).values call) := by
  rw [values_ofDocument hvalue, Call.toNode, hvalue]
  cases call.noted with
  | none => exact hvalue
  | some description => rfl

theorem toNode_place (call : Call Node Place) : call.toNode.place = call.node.place := by
  unfold Call.toNode
  split <;> rfl

theorem exists_fields_of_isObject {v : Json} (h : v.isObject = true) :
    ∃ fields, v = .obj fields := by
  cases v with
  | obj fields => exact ⟨fields, rfl⟩
  | _ => cases h

/-- A schema is no object, a reference, or an object that is no reference. -/
theorem schema_cases (v : Json) : v.isObject = false ∨
    (∃ fields ref, v = .obj fields ∧ lookupField "$ref" fields = some (.str ref)) ∨
    ∃ fields, v = .obj fields ∧ ∀ ref, lookupField "$ref" fields ≠ some (.str ref) := by
  cases hobject : v.isObject with
  | false => exact .inl rfl
  | true =>
    obtain ⟨fields, hvalue⟩ := exists_fields_of_isObject hobject
    by_cases href : ∃ ref, lookupField "$ref" fields = some (.str ref)
    · obtain ⟨ref, href⟩ := href
      exact .inr (.inl ⟨fields, ref, hvalue, href⟩)
    · exact .inr (.inr ⟨fields, hvalue, not_exists.mp href⟩)

theorem toNode_of_no_object (h : call.node.value.isObject = false) : call.toNode = call.node := by
  rw [Call.toNode]
  split
  · next hvalue => simp [hvalue, Json.isObject] at h
  · rfl

theorem toNode_altered (hvalue : call.node.value = .obj fields)
    (hunaltered : call.node.altered = false) : call.toNode.altered = call.noted.isSome := by
  rw [Call.toNode, hvalue]
  cases call.noted with
  | none => exact hunaltered
  | some description => rfl

theorem lookupField_values (document : Json) (hvalue : call.node.value = .obj fields)
    {key : String} (hkey : key ≠ "description") :
    lookupField key ((Network.ofDocument document).values call) = lookupField key fields := by
  rw [values_ofDocument hvalue]
  cases call.noted with
  | none => rfl
  | some description => exact lookupField_setField_of_ne hkey description fields

/-- The parts of a node stand for its fields, also when a description was put in. -/
theorem standsFor_values (document : Json) (hvalue : call.node.value = .obj fields) :
    StandsFor call.node.place (Catalog.fieldNodes call.node)
      ((Network.ofDocument document).values call) := by
  intro key hkey
  rw [lookupField_values document hvalue hkey, lookupField_fieldNodes hvalue]

/-- What becomes of a node that is a reference. -/
theorem turn_of_ref (hvalue : call.node.value = .obj fields) {ref : String}
    (href : lookupField "$ref" fields = some (.str ref)) :
    (Network.ofDocument document).turn call =
      if ref ∈ call.resolving then .settled (.ok (.anything ("Circular reference: " ++ ref)))
      else match resolveRef document ref with
      | .error cause => .settled (.error (.pointer cause))
      | .ok none => .settled (.ok (.anything ("Ref: " ++ ref)))
      | .ok (some target) =>
        if target.value.isObject then
          .follow (Naming.refName ref) ((Network.ofDocument document).followed call ref target)
        else .settled (.ok (.anything ("Ref: " ++ ref))) := by
  rw [Network.turn, contents_ofDocument, contentsOf, hvalue, Network.refText?,
    valuesOf_ofDocument hvalue, href]
  simp only [resolve_ofDocument, isObject_ofDocument]
  rcases resolveRef document ref with _ | _ | target <;> rfl

/-- What becomes of an object that is no reference. -/
theorem turn_of_no_ref (hvalue : call.node.value = .obj fields)
    (href : ∀ ref, lookupField "$ref" fields ≠ some (.str ref)) :
    (Network.ofDocument document).turn call =
      if call.noted = none ∧ call.node.place ∈ call.active then
        .settled (.ok (.anything "Circular schema"))
      else .enter ((Network.ofDocument document).plan (Catalog.fieldNodes call.node)
        ((Network.ofDocument document).values call)) := by
  rw [Network.turn, contents_ofDocument, contentsOf, hvalue, Network.refText?,
    valuesOf_ofDocument hvalue]
  dsimp only
  split
  · next ref heq =>
    split at heq
    · exact absurd ‹_› (href _)
    · cases heq
  · rfl

theorem turn_of_no_object (hvalue : call.node.value.isObject = false) :
    (Network.ofDocument document).turn call = .settled (.ok (.anything "")) := by
  rw [Network.turn, contents_ofDocument, contentsOf]
  cases hnode : call.node.value with
  | obj fields => rw [hnode] at hvalue; cases hvalue
  | _ => rfl

end

theorem remaining_contains {resolving : List String} {ref : String} (href : ref ∈ refs) :
    (remaining refs resolving).contains ref = true ↔ ref ∉ resolving := by
  simp [remaining, href]

theorem mem_refTexts_of_lookupField {fields : List (String × Json)} {ref : String}
    (h : lookupField "$ref" fields = some (.str ref)) : ref ∈ refTexts (.obj fields) := by
  rw [refTexts]
  induction fields with
  | nil => cases h
  | cons field rest ih =>
    obtain ⟨key, v⟩ := field
    rw [lookupField] at h
    split at h
    · next hkey =>
      obtain rfl := Option.some.inj h
      rw [refTextsFields, if_pos hkey]
      exact List.mem_cons_self
    · exact refTexts_subset_refTextsFields key v rest (List.mem_append_right _ (ih h))

/-- A node that is a reference is translated as its target. -/
theorem translate_of_ref {pending : List String} {active : List Place} {node : Node}
    {fields : List (String × Json)} {ref : String} (hnode : node.value = .obj fields)
    (href : lookupField "$ref" fields = some (.str ref)) :
    translate document pending active node name =
      if pending.contains ref = true then
        match resolveRef document ref with
        | .error cause => .error (.pointer cause)
        | .ok none => .ok (.anything ("Ref: " ++ ref))
        | .ok (some target) =>
          if target.value.isObject then
            translate document (pending.filter (· != ref)) active
              (describedTarget (said fields "description") target)
              (if (Naming.refName ref).isEmpty then name else Naming.refName ref)
          else .ok (.anything ("Ref: " ++ ref))
      else .ok (.anything ("Circular reference: " ++ ref)) := by
  obtain ⟨value, place, altered⟩ := node
  obtain rfl : value = .obj fields := hnode
  rw [translate]
  dsimp only
  split
  · next other hother =>
    obtain rfl : ref = other := by simpa [href] using hother
    split <;> rfl
  · next hno => exact absurd href (hno ref)

theorem translate_of_circular {pending : List String} {active : List Place} {node : Node}
    {fields : List (String × Json)} (hnode : node.value = .obj fields)
    (href : ∀ ref, lookupField "$ref" fields ≠ some (.str ref)) (haltered : node.altered = false)
    (hactive : node.place ∈ active) :
    translate document pending active node name = .ok (.anything "Circular schema") := by
  obtain ⟨value, place, altered⟩ := node
  obtain rfl : value = .obj fields := hnode
  obtain rfl : altered = false := haltered
  rw [translate]
  dsimp only
  split
  · next ref hlookup => exact absurd hlookup (href ref)
  · rw [if_pos (by simpa using hactive)]

theorem translate_of_no_object {pending : List String} {active : List Place} {node : Node}
    (h : node.value.isObject = false) :
    translate document pending active node name = .ok (.anything "") := by
  obtain ⟨value, place, altered⟩ := node
  rw [translate]
  cases value with
  | obj fields => cases h
  | _ => rfl

/-- The translation does at each call what `Network.step` does. -/
theorem formAt_eq_step (hcovers : Network.Covers document nodes refs) (hnode : call.node ∈ nodes) :
    formAt document refs call name =
      (Network.ofDocument document).step (formAt document refs) call name := by
  rw [formAt, Network.step]
  rcases schema_cases call.node.value with
    hobject | ⟨fields, ref, hvalue, href⟩ | ⟨fields, hvalue, href⟩
  · rw [turn_of_no_object hobject, toNode_of_no_object hobject, translate_of_no_object hobject]
  · have hmem : ref ∈ refs := hcovers.refTexts _ hnode (hvalue ▸ mem_refTexts_of_lookupField href)
    have hlookup := (lookupField_values document hvalue (show "$ref" ≠ _ by simp)).trans href
    rw [turn_of_ref hvalue href, translate_of_ref (toNode_value document hvalue) hlookup]
    by_cases hpending : ref ∈ call.resolving
    · rw [if_pos hpending, if_neg (by rwa [remaining_contains hmem, not_not])]
    rw [if_neg hpending, if_pos ((remaining_contains hmem).mpr hpending)]
    rcases resolveRef document ref with cause | _ | target
    · rfl
    · rfl
    dsimp only
    by_cases htarget : target.value.isObject = true
    · rw [if_pos htarget, if_pos htarget]
      dsimp only
      rw [formAt, toNode_followed htarget, ← remaining_cons]
      rfl
    · rw [if_neg htarget, if_neg htarget]
  · have htoNode := toNode_value document hvalue
    have hlookup (ref : String) : lookupField "$ref" ((Network.ofDocument document).values call) ≠
        some (.str ref) := by
      rw [lookupField_values document hvalue (by simp)]
      exact href ref
    have haltered := toNode_altered hvalue (hcovers.unaltered _ hnode)
    rw [turn_of_no_ref hvalue href]
    by_cases hcircular : call.noted = none ∧ call.node.place ∈ call.active
    · rw [if_pos hcircular, translate_of_circular htoNode hlookup
        (by rw [haltered, hcircular.1]; rfl) (toNode_place call ▸ hcircular.2)]
    have hfree : call.toNode.altered = true ∨ call.toNode.place ∉ call.active := by
      rw [haltered, toNode_place, Option.isSome_iff_ne_none]
      exact not_and_or.mp hcircular
    have hbelow : (Network.ofDocument document).activeBelow call =
        activeBelow call.active call.toNode := by
      rw [Network.activeBelow, activeBelow, haltered, toNode_place]
      cases call.noted <;> rfl
    rw [if_neg hcircular, translate_of_no_ref htoNode hlookup hfree, ← map_mapError,
      ← planForm_eq_translateFields (toNode_place call ▸ standsFor_values document hvalue)]
    simp only [Network.entered, hbelow]
    rfl

/-- The translation of a node of a document is the translation over the network. -/
theorem translateWithin_ofDocument (hcovers : Network.Covers document nodes refs)
    (h : (Network.ofDocument document).Kept nodes call) {depth : ℕ}
    (hdepth : (Network.ofDocument document).budget nodes call < depth) :
    (Network.ofDocument document).translateWithin depth call name =
      formAt document refs call name :=
  Network.translateWithin_eq hcovers.closed
    (fun _ hkept _ => formAt_eq_step hcovers hkept.node) h hdepth name

theorem formAt_start (node : Node) :
    formAt document refs (.start Place node) name =
      (translate document refs [] node name).mapError .fault := by
  rw [formAt, Call.start, remaining_nil]
  rfl

/-- The translation of a node beside a document, with calls nested as deep as they may be. -/
theorem translateWithin_start {node : Node} (hnode : node.altered = false) {depth : ℕ}
    (hdepth : (Network.ofDocument document).depthBound (nodesBeside document node) ≤ depth)
    (name : String) : (Network.ofDocument document).translateWithin depth (.start Place node) name =
      (formOf document node name).mapError .fault := by
  have hcovers := Network.covers_nodesBeside document node
  have hbudget :=
    Network.budget_start (Network.ofDocument document) (nodesBeside document node) node
  rw [translateWithin_ofDocument hcovers (Network.kept_start _ (mem_nodesBeside document hnode))
    (by omega), formAt_start, formOf]

theorem formOf_of_translateWithin {node : Node} (hnode : node.altered = false) {depth : ℕ}
    (hdepth : (Network.ofDocument document).depthBound (nodesBeside document node) ≤ depth)
    {name : String} {form : Form}
    (h : (Network.ofDocument document).translateWithin depth (.start Place node) name = .ok form) :
    formOf document node name = .ok form := by
  rw [translateWithin_start hnode hdepth] at h
  exact mapError_eq_ok.mp h

end

end

/-! ## Translation ends -/

/-- Translation ends over every network of finitely many nodes, also where a node stands in itself
and where references lead round: the recursion is well-founded. On every branch the reference texts
that are being followed differ from one another and are written at nodes of the network, the nodes
that are being translated differ from one another, and the depth is bounded by the numbers of
reference texts and of nodes, so that it is enough to let calls be nested that deep. A document with
a node beside it is such a network, and its translation is `formOf`. -/
theorem translation_ends :
    (∀ (ν ι : Type) [DecidableEq ι] (net : Network ν ι) (nodes : List ν), net.Closed nodes →
      ∀ node ∈ nodes,
        Acc (fun callee call => callee ∈ net.callees call) (.start ι node) ∧
        (∀ depth call, net.Nested (.start ι node) depth call →
          call.resolving.Nodup ∧
          (∀ ref ∈ call.resolving, ∃ node ∈ nodes, net.refText? node = some ref) ∧
          call.active.Nodup ∧
          (∀ place ∈ call.active, ∃ node ∈ nodes, net.identity node = place) ∧
          depth ≤ 2 * (net.texts nodes).card + (net.identities nodes).card) ∧
        ∀ depth, 2 * (net.texts nodes).card + (net.identities nodes).card < depth →
          ∀ name, net.translateWithin depth (.start ι node) name ≠ .error .tooDeep) ∧
    ∀ (document : Json) (node : Node), node.altered = false →
      (Network.ofDocument document).Closed (nodesBeside document node) ∧
      node ∈ nodesBeside document node ∧
      ∀ depth, (Network.ofDocument document).depthBound (nodesBeside document node) ≤ depth →
        ∀ name, (Network.ofDocument document).translateWithin depth (.start Place node) name =
          (formOf document node name).mapError .fault := by
  refine ⟨fun ν ι _ net nodes hclosed node hnode => ?_, fun document node hunaltered => ?_⟩
  · have hkept := Network.kept_start net hnode
    have hbudget := Network.budget_start net nodes node
    refine ⟨Network.acc_of_kept hclosed hkept, fun depth call hnested => ?_,
      fun depth hdepth => Network.translateWithin_ne_tooDeep hclosed hkept ?_⟩
    · obtain ⟨hcall, hdepth⟩ := hnested.kept hclosed hkept
      refine ⟨hcall.resolving_nodup, fun ref href => ?_, hcall.active_nodup, fun place hplace => ?_,
        ?_⟩
      · simpa [Network.texts] using hcall.resolving_texts ref href
      · simpa [Network.identities] using hcall.active_identities place hplace
      · rw [Network.depthBound] at hbudget
        omega
    · rw [Network.depthBound] at hbudget
      omega
  · exact ⟨(Network.covers_nodesBeside document node).closed, mem_nodesBeside document hunaltered,
      fun depth hdepth => translateWithin_start hunaltered hdepth⟩

/-! ### A node that stands in itself -/

/-- Alternatives that stand among themselves, beside two references to them that are spelled
differently. -/
def knot : Network (Fin 6) (Fin 6) where
  root := 0
  identity := id
  contents
    | 0 => .fields [("anyOf", 1)]
    | 1 => .items [0, 2, 3]
    | 2 => .fields [("$ref", 4)]
    | 3 => .fields [("$ref", 5)]
    | _ => .nothing
  value
    | 4 => .str "#"
    | 5 => .str "#x"
    | _ => .null

theorem closed_knot : knot.Closed (List.finRange 6) where
  root := List.mem_finRange _
  contents _ _ _ _ := List.mem_finRange _

/-- A document that is a reference to itself. -/
def selfReference : Json :=
  .obj [("$ref", .str "#")]

/-- The knot has two texts and six nodes, so that its calls are nested at most ten deep. -/
theorem translation_ends_knot :
    Acc (fun callee call => callee ∈ knot.callees call) (.start (Fin 6) 0) ∧
    (∀ depth call, knot.Nested (.start (Fin 6) 0) depth call → depth ≤ 10) ∧
    knot.translateWithin 11 (.start (Fin 6) 0) "Value" ≠ .error .tooDeep ∧
    (Network.ofDocument selfReference).translateWithin 5 (.start Place (.root selfReference)) "Value" =
      (formOf selfReference (.root selfReference) "Value").mapError .fault := by
  have hbound : 2 * (knot.texts (List.finRange 6)).card +
      (knot.identities (List.finRange 6)).card = 10 := by
    decide +kernel
  obtain ⟨hacc, hnested, hends⟩ :=
    translation_ends.1 (Fin 6) (Fin 6) knot (List.finRange 6) closed_knot 0 (List.mem_finRange 0)
  obtain ⟨-, -, hform⟩ := translation_ends.2 selfReference (.root selfReference) rfl
  refine ⟨hacc, fun depth call h => ?_, hends 11 (by omega) "Value", hform 5 ?_ "Value"⟩
  · obtain ⟨-, -, -, -, hdepth⟩ := hnested depth call h
    omega
  · decide +kernel

end Toolgate.Schema
