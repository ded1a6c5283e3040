import Mathlib.Data.Finset.Card
import Mathlib.Data.List.Chain
import Toolgate.Proofs.Json.Fields
import Toolgate.Proofs.Schema.Network

/-!
# Translation ends

Neither guard of the translation would do alone. A node that is a reference is never noted as
active, and a copy made for a description is a new node each time, so only its reference text stops
it from coming up again; a node that contains itself is reached without any reference, so only the
note of active nodes stops that. Together they do: each call uses up a reference text, a node, or
the copy that the latest reference has made, and none of these comes back on the same branch.

## Main definitions

* `Network.Closed`: a list of nodes that references and parts do not leave
* `Network.IsPart`: the nodes that the keywords of a node may ask for
* `Network.Kept`: what holds of all calls of a branch
* `Network.budget`: how many calls a branch may still make

## Main statements

* `Network.budget_lt`: a call uses up some of the budget
* `Network.acc_of_kept`: the recursion is well-founded
* `Network.translateWithin_ne_tooDeep`: the budget bounds how deep calls are nested
-/

namespace Toolgate.Schema

variable {ν ι : Type}

namespace Network

/-! ## Networks with finitely many nodes -/

/-- References start inside the list of nodes, and what stands in a node of the list is in it. -/
structure Closed (net : Network ν ι) (nodes : List ν) : Prop where
  root : net.root ∈ nodes
  contents : ∀ node ∈ nodes, ∀ part ∈ (net.contents node).nodes, part ∈ nodes

section
variable {net : Network ν ι} {nodes : List ν}

theorem Closed.of_lookupField (h : net.Closed nodes) {node part : ν} (hnode : node ∈ nodes)
    {fields : List (String × ν)} (hfields : net.contents node = .fields fields) {key : String}
    (hpart : lookupField key fields = some part) : part ∈ nodes :=
  h.contents node hnode part <| by
    rw [hfields]
    exact List.mem_map_of_mem (mem_of_lookupField hpart)

theorem Closed.of_follow (h : net.Closed nodes) {node target : ν} (hnode : node ∈ nodes)
    {step : String} (hfollow : net.follow node step = .ok (some target)) : target ∈ nodes := by
  unfold follow at hfollow
  split at hfollow
  · next fields hfields => exact h.of_lookupField hnode hfields (Except.ok.inj hfollow)
  · next items hitems =>
    obtain ⟨n?, -, hfollow⟩ := bind_eq_ok.mp hfollow
    cases n? with
    | none => cases hfollow
    | some n =>
      refine h.contents node hnode target ?_
      rw [hitems]
      exact List.mem_of_getElem? (Except.ok.inj hfollow)
  · cases hfollow

theorem Closed.of_followAll (h : net.Closed nodes) {node target : ν} (hnode : node ∈ nodes)
    {steps : List String} (hfollow : net.followAll node steps = .ok (some target)) :
    target ∈ nodes := by
  induction steps generalizing node with
  | nil =>
    obtain rfl := Option.some.inj (Except.ok.inj hfollow)
    exact hnode
  | cons step rest ih =>
    rw [followAll] at hfollow
    obtain ⟨next?, hnext, hfollow⟩ := bind_eq_ok.mp hfollow
    cases next? with
    | none => cases hfollow
    | some next => exact ih (h.of_follow hnode hnext) hfollow

/-- A reference leads to a node of the list. -/
theorem Closed.of_resolve (h : net.Closed nodes) {ref : String} {target : ν}
    (hresolve : net.resolve ref = .ok (some target)) : target ∈ nodes := by
  unfold resolve at hresolve
  split at hresolve
  · cases hresolve
  · exact h.of_followAll h.root hresolve

/-- The nodes that the keywords of a node with the given fields may ask for. -/
inductive IsPart (net : Network ν ι) (fields : List (String × ν)) (part : ν) : Prop where
  /-- The node is one of a list of alternatives or members. -/
  | listed {key : String} {list : ν} {parts : List ν} (hkey : key ∈ ["oneOf", "anyOf", "allOf"])
      (lookup : lookupField key fields = some list) (contents : net.contents list = .items parts)
      (mem : part ∈ parts)
  /-- The node stands at a keyword itself. -/
  | single {key : String} (hkey : key ∈ ["items", "additionalProperties"])
      (lookup : lookupField key fields = some part)
  /-- The node is one of the properties. -/
  | property {table : ν} {properties : List (String × ν)}
      (lookup : lookupField "properties" fields = some table)
      (contents : net.contents table = .fields properties) (mem : part ∈ properties.map Prod.snd)

section
variable {fields : List (String × ν)} {part : ν}

theorem isPart_of_listed? {key : String} (hkey : key ∈ ["oneOf", "anyOf", "allOf"]) {parts : List ν}
    (h : net.listed? fields key = some parts) (hpart : part ∈ parts) : net.IsPart fields part := by
  unfold listed? at h
  split at h
  · next first rest hcontents =>
    obtain rfl := Option.some.inj h
    obtain ⟨list, hlist, hitems⟩ := Option.map_eq_some_iff.mp hcontents
    exact .listed hkey hlist hitems hpart
  · cases h

theorem isPart_of_mem_listPlan (h : part ∈ (net.listPlan fields).parts) :
    net.IsPart fields part := by
  unfold listPlan at h
  split at h
  · next item hitem =>
    obtain rfl := List.mem_singleton.mp h
    exact .single (by simp) (Option.eq_some_of_filter_eq_some hitem)
  · cases h

theorem isPart_of_mem_objectPlan {values : List (String × Json)}
    (h : part ∈ (net.objectPlan fields values).parts) : net.IsPart fields part := by
  unfold objectPlan at h
  split at h
  · next first rest hcontents =>
    obtain ⟨table, htable, hproperties⟩ := Option.map_eq_some_iff.mp hcontents
    exact .property htable hproperties h
  · split at h
    · next value hvalue =>
      obtain rfl := List.mem_singleton.mp h
      exact .single (by simp) (Option.eq_some_of_filter_eq_some hvalue)
    · cases h

/-- The keywords of a node ask for no other nodes. -/
theorem isPart_of_mem_plan {values : List (String × Json)}
    (h : part ∈ (net.plan fields values).parts) : net.IsPart fields part := by
  have nothing {result : Except TranslationError Form}
      (h : part ∈ (Plan.done result : Plan ν).parts) : net.IsPart fields part :=
    absurd h List.not_mem_nil
  unfold plan at h
  split at h
  · next hlisted => exact isPart_of_listed? (by simp) hlisted h
  · next hlisted => exact isPart_of_listed? (by simp) hlisted h
  · next hlisted => exact isPart_of_listed? (by simp) hlisted h
  split at h
  case h_6 => exact isPart_of_mem_listPlan h
  case h_7 => exact isPart_of_mem_objectPlan h
  all_goals exact nothing h

end

/-- The nodes that the keywords of a node ask for are in the list. -/
theorem Closed.of_plan (h : net.Closed nodes) {node : ν} (hnode : node ∈ nodes)
    {fields : List (String × ν)} (hfields : net.contents node = .fields fields)
    (values : List (String × Json)) :
    ∀ part ∈ (net.plan fields values).parts, part ∈ nodes := by
  intro part hpart
  cases isPart_of_mem_plan hpart with
  | listed _ lookup contents mem =>
    exact h.contents _ (h.of_lookupField hnode hfields lookup) part (by rwa [contents])
  | single _ lookup => exact h.of_lookupField hnode hfields lookup
  | property lookup contents mem =>
    exact h.contents _ (h.of_lookupField hnode hfields lookup) part (by rwa [contents])

end

/-! ## Branches of the recursion -/

section
variable [DecidableEq ι] (net : Network ν ι) (nodes : List ν)

/-- The reference texts of the nodes, each once. -/
def texts : Finset String :=
  (nodes.filterMap net.refText?).toFinset

/-- The identities of the nodes, each once. -/
def identities : Finset ι :=
  (nodes.map net.identity).toFinset

/-- What holds of all calls of a branch: the references that are being followed differ from one
another, and so do the nodes that are being translated. -/
structure Kept (call : Call ν ι) : Prop where
  node : call.node ∈ nodes
  resolving_nodup : call.resolving.Nodup
  resolving_texts : ∀ ref ∈ call.resolving, ref ∈ net.texts nodes
  active_nodup : call.active.Nodup
  active_identities : ∀ place ∈ call.active, place ∈ net.identities nodes

/-- How many calls a branch may still make: two for each text that is not being followed, as its
target may be a copy, one for each node that is not being translated, and one for a copy. -/
def budget (call : Call ν ι) : ℕ :=
  2 * (net.texts nodes \ call.resolving.toFinset).card
    + (net.identities nodes \ call.active.toFinset).card + if call.noted.isSome then 1 else 0

/-- The greatest depth of the recursion from a node. -/
def depthBound : ℕ :=
  2 * (net.texts nodes).card + (net.identities nodes).card + 1

end

section
variable [DecidableEq ι] {net : Network ν ι} {nodes : List ν} {call callee : Call ν ι}

theorem kept_start (net : Network ν ι) {node : ν} (h : node ∈ nodes) :
    net.Kept nodes (.start ι node) :=
  ⟨h, List.nodup_nil, by simp [Call.start], List.nodup_nil, by simp [Call.start]⟩

theorem budget_start (net : Network ν ι) (nodes : List ν) (node : ν) :
    net.budget nodes (.start ι node) + 1 = net.depthBound nodes := by
  simp [budget, depthBound, Call.start]

/-- A reference is followed when it is not being followed yet and leads to an object. -/
theorem of_turn_eq_follow {called : String} (h : net.turn call = .follow called callee) :
    ∃ ref target, net.refText? call.node = some ref ∧ ref ∉ call.resolving ∧
      net.resolve ref = .ok (some target) ∧ net.isObject target = true ∧
      callee = net.followed call ref target := by
  unfold turn at h
  split at h
  · split at h
    · next ref href =>
      split_ifs at h with hpending
      split at h
      · cases h
      · cases h
      · next target hresolve =>
        split_ifs at h with hobject
        cases h
        exact ⟨ref, target, href, hpending, hresolve, hobject, rfl⟩
    · split_ifs at h
  · cases h

/-- The keywords of an object are carried out when it is no reference, and is a copy or is not being
translated yet. -/
theorem of_turn_eq_enter {plan : Plan ν} (h : net.turn call = .enter plan) :
    ∃ fields, net.contents call.node = .fields fields ∧ net.refText? call.node = none ∧
      (call.noted = none → net.identity call.node ∉ call.active) ∧
      plan = net.plan fields (net.values call) := by
  unfold turn at h
  split at h
  · next fields hfields =>
    split at h
    · split_ifs at h
      split at h
      · cases h
      · cases h
      · split_ifs at h
    · next href =>
      split_ifs at h with hcircular
      cases h
      exact ⟨fields, hfields, href, not_and.mp hcircular, rfl⟩
  · cases h

/-- A call either follows a reference that is not being followed yet, or enters a part of a node
that is a copy or is not being translated yet. -/
theorem mem_callees_cases (h : callee ∈ net.callees call) :
    (∃ ref target, net.refText? call.node = some ref ∧ ref ∉ call.resolving ∧
      net.resolve ref = .ok (some target) ∧ net.isObject target = true ∧
      callee = net.followed call ref target) ∨
    ∃ fields part, net.contents call.node = .fields fields ∧ net.refText? call.node = none ∧
      (call.noted = none → net.identity call.node ∉ call.active) ∧
      part ∈ (net.plan fields (net.values call)).parts ∧ callee = net.entered call part := by
  unfold callees at h
  split at h
  · cases h
  · next called other hturn =>
    obtain rfl := List.mem_singleton.mp h
    exact .inl (of_turn_eq_follow hturn)
  · next plan hturn =>
    obtain ⟨part, hpart, rfl⟩ := List.mem_map.mp h
    obtain ⟨fields, hfields, href, hfree, rfl⟩ := of_turn_eq_enter hturn
    exact .inr ⟨fields, part, hfields, href, hfree, hpart, rfl⟩

/-- The calls of a call that is kept are kept. -/
theorem Kept.of_mem_callees (hclosed : net.Closed nodes) (h : net.Kept nodes call)
    (hcallee : callee ∈ net.callees call) : net.Kept nodes callee := by
  rcases mem_callees_cases hcallee with
    ⟨ref, target, href, hfree, hresolve, -, rfl⟩ | ⟨fields, part, hfields, -, hfree, hpart, rfl⟩
  · have htext : ref ∈ net.texts nodes :=
      List.mem_toFinset.mpr (List.mem_filterMap.mpr ⟨call.node, h.node, href⟩)
    exact ⟨hclosed.of_resolve hresolve, List.nodup_cons.mpr ⟨hfree, h.resolving_nodup⟩,
      List.forall_mem_cons.mpr ⟨htext, h.resolving_texts⟩, h.active_nodup, h.active_identities⟩
  · have hidentity : net.identity call.node ∈ net.identities nodes :=
      List.mem_toFinset.mpr (List.mem_map_of_mem h.node)
    refine ⟨hclosed.of_plan h.node hfields _ part hpart, h.resolving_nodup, h.resolving_texts,
      ?_, ?_⟩
    · simp only [entered, activeBelow, Option.isNone_iff_eq_none]
      split
      · next hnone => exact List.nodup_cons.mpr ⟨hfree hnone, h.active_nodup⟩
      · exact h.active_nodup
    · simp only [entered, activeBelow]
      split
      · exact List.forall_mem_cons.mpr ⟨hidentity, h.active_identities⟩
      · exact h.active_identities

theorem card_sdiff_cons_lt {α : Type} [DecidableEq α] {all : Finset α} {a : α} {used : List α}
    (ha : a ∈ all) (hfree : a ∉ used) :
    (all \ (a :: used).toFinset).card < (all \ used.toFinset).card := by
  refine Finset.card_lt_card (Finset.ssubset_iff_subset_ne.mpr ⟨?_, fun heq => ?_⟩)
  · exact Finset.sdiff_subset_sdiff subset_rfl (by simp)
  · have hmem : a ∈ all \ used.toFinset := by simp [ha, hfree]
    rw [← heq] at hmem
    simp at hmem

/-- A call uses up some of the budget. -/
theorem budget_lt (h : net.Kept nodes call) (hcallee : callee ∈ net.callees call) :
    net.budget nodes callee < net.budget nodes call := by
  rcases mem_callees_cases hcallee with
    ⟨ref, target, href, hfree, -, -, rfl⟩ | ⟨fields, part, -, -, hfree, -, rfl⟩
  · have htext : ref ∈ net.texts nodes :=
      List.mem_toFinset.mpr (List.mem_filterMap.mpr ⟨call.node, h.node, href⟩)
    have hfewer := card_sdiff_cons_lt htext hfree
    have hcopy : (if (net.followed call ref target).noted.isSome then 1 else 0) ≤ 1 := by
      split <;> omega
    simp only [budget, followed] at hcopy ⊢
    omega
  · have hidentity : net.identity call.node ∈ net.identities nodes :=
      List.mem_toFinset.mpr (List.mem_map_of_mem h.node)
    cases hnoted : call.noted with
    | some description => simp [budget, entered, activeBelow, hnoted]
    | none =>
      have hfewer := card_sdiff_cons_lt hidentity (hfree hnoted)
      simp only [budget, entered, activeBelow, hnoted, Option.isNone_none, if_true]
      omega

/-- The calls of the translation from a first call, with how deep they are nested in it. -/
inductive Nested (net : Network ν ι) (first : Call ν ι) : ℕ → Call ν ι → Prop
  | first : Nested net first 0 first
  | callee {depth : ℕ} {call callee : Call ν ι} (h : Nested net first depth call)
      (hcallee : callee ∈ net.callees call) : Nested net first (depth + 1) callee

theorem Nested.head {first callee : Call ν ι} (hcallee : callee ∈ net.callees first) {depth : ℕ}
    (h : net.Nested callee depth call) : net.Nested first (depth + 1) call := by
  induction h with
  | first => exact .callee .first hcallee
  | callee _ hmem ih => exact .callee ih hmem

/-- A call without callees is the only one of its translation. -/
theorem Nested.eq_first {first : Call ν ι} (hleaf : net.callees first = []) {depth : ℕ}
    (h : net.Nested first depth call) : call = first := by
  induction h with
  | first => rfl
  | callee _ hcallee ih =>
    rw [ih, hleaf] at hcallee
    cases hcallee

/-- All calls of a translation are kept, and each level of nesting uses up some of the budget. -/
theorem Nested.kept (hclosed : net.Closed nodes) {first : Call ν ι} (hfirst : net.Kept nodes first)
    {depth : ℕ} (h : net.Nested first depth call) :
    net.Kept nodes call ∧ net.budget nodes call + depth ≤ net.budget nodes first := by
  induction h with
  | first => exact ⟨hfirst, le_rfl⟩
  | callee _ hcallee ih =>
    have hless := budget_lt ih.1 hcallee
    exact ⟨ih.1.of_mem_callees hclosed hcallee, by omega⟩

/-- The recursion from a call that is kept is well-founded. -/
theorem acc_of_kept (hclosed : net.Closed nodes) (h : net.Kept nodes call) :
    Acc (fun callee call => callee ∈ net.callees call) call := by
  induction hbudget : net.budget nodes call using Nat.strong_induction_on generalizing call with
  | _ budget ih =>
    refine .intro call fun callee hcallee => ?_
    exact ih _ (hbudget ▸ budget_lt h hcallee) (h.of_mem_callees hclosed hcallee) rfl

/-- No call is nested too deep where the depth exceeds the budget. -/
theorem translateWithin_ne_tooDeep (hclosed : net.Closed nodes) (h : net.Kept nodes call)
    {depth : ℕ} (hdepth : net.budget nodes call < depth) (name : String) :
    net.translateWithin depth call name ≠ .error .tooDeep := by
  induction depth generalizing call name with
  | zero => omega
  | succ depth ih =>
    intro herror
    rcases exists_of_step_eq_error herror with ⟨cause, -, heq⟩ | ⟨callee, hcallee, called, heq⟩
    · cases heq
    · have hless := budget_lt h hcallee
      exact ih (h.of_mem_callees hclosed hcallee) (by omega) called heq

/-- What does at each call what `Network.step` does is the translation. -/
theorem translateWithin_eq (hclosed : net.Closed nodes)
    {translate : Call ν ι → String → Except Halt Form}
    (hstep : ∀ call, net.Kept nodes call → ∀ name,
      translate call name = net.step translate call name)
    (h : net.Kept nodes call) {depth : ℕ} (hdepth : net.budget nodes call < depth)
    (name : String) : net.translateWithin depth call name = translate call name := by
  induction depth generalizing call name with
  | zero => omega
  | succ depth ih =>
    rw [hstep call h, translateWithin]
    refine step_congr fun callee hcallee called => ?_
    have hless := budget_lt h hcallee
    exact ih (h.of_mem_callees hclosed hcallee) (by omega) called

end

end Network

end Toolgate.Schema
