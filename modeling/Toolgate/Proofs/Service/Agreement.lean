import Toolgate.Proofs.Catalog.Resources
import Toolgate.Proofs.Service.Keys
import Toolgate.Proofs.Service.Report
import Toolgate.Proofs.Service.Target

/-!
# Calling and reading

A resource is read with the request of an operation that is got, whose arguments are the variables of
its path. The reading takes the variables as they are given, and the call checks them first; where
the slots of the path take any text, the check changes nothing that is sent. A slot that is no part
of the path may still refuse them when it has the name of a variable, and only one for a whole body
can have it.

## Main definitions

* `Shape.isFreeText`: is every text accepted?
* `TakesTexts`: do the slots of an operation take any texts for the variables of its path?
* `AssignsTexts`: is each variable given once, with a text?

## Main statements

* `invoke_eq_readResource`: the call of an operation is the reading of the resource of its path
-/

namespace Toolgate

namespace Schema

/-- Does the shape take any text? -/
def Shape.isFreeText : Shape → Bool
  | .text limits => limits.isFree
  | .optional inner => inner.isFreeText
  | .described _ inner => inner.isFreeText
  | _ => false

/-- A text is accepted as it is. -/
theorem accept_of_isFreeText {shape : Shape} (h : shape.isFreeText = true) (inRecord : Bool)
    (s : String) : ∃ fit, accept inRecord shape (.str s) = .ok (.str s, fit) := by
  fun_induction Shape.isFreeText shape with
  | case1 limits =>
    simp only [TextLimits.isFree, Bool.and_eq_true, Option.isNone_iff_eq_none] at h
    have hbroken : limits.broken? s = none := by simp [TextLimits.broken?, h]
    rw [accept, readText, settle]
    simp only [hbroken]
    exact ⟨_, rfl⟩
  | case2 inner ih =>
    rw [accept, if_neg (by simp [Json.isNull])]
    exact ih h
  | case3 text inner ih =>
    rw [accept]
    exact ih h
  | case4 => cases h

end Schema

namespace Service

open Catalog
open Schema (accept)

/-! ## Variables as arguments -/

/-- Each of the names is given once, with a text, and nothing else is given. -/
structure AssignsTexts (names : List String) (given : Call.Fields) : Prop where
  keys : (given.map Prod.fst).Perm names
  texts : ∀ field ∈ given, ∃ s, field.2 = .str s

section
variable {names : List String} {given : Call.Fields} {name : String}

theorem AssignsTexts.exists_lookupField (h : AssignsTexts names given) (hname : name ∈ names) :
    ∃ s, lookupField name given = some (.str s) := by
  have hgiven : lookupField name given ≠ none := fun hnone =>
    lookupField_eq_none_iff.mp hnone (h.keys.mem_iff.mpr hname)
  obtain ⟨v, hv⟩ := Option.ne_none_iff_exists'.mp hgiven
  obtain ⟨s, rfl⟩ := h.texts _ (mem_of_lookupField hv)
  exact ⟨s, hv⟩

theorem AssignsTexts.lookupField_eq_none (h : AssignsTexts names given) (hname : name ∉ names) :
    lookupField name given = none :=
  lookupField_eq_none_iff.mpr fun hmem => hname (h.keys.mem_iff.mp hmem)

end

/-- A slot with the name of a variable is one of the path, unless it is for a whole body. -/
theorem origin_eq_path {declaration : Declaration} {slots : List Slot} {slot : Slot}
    (hoffers : Offers declaration slots) (hslot : slot ∈ slots) (hbody : slot.origin ≠ .body)
    (hname : slot.name ∈ declaration.inPath) : slot.origin = .path := by
  have hown := (hoffers.mem_iff hbody slot.name).mp (mem_namesFrom.mpr ⟨slot, hslot, rfl, rfl⟩)
  have hpath := Declaration.originOf?_eq_path_iff.mpr (.inl hname)
  exact Option.some.inj (hown.symm.trans hpath)

/-- The slots of an operation take the variables of its path as any texts, and nothing else is
required. -/
structure TakesTexts (operation : Operation) : Prop where
  path : ∀ slot ∈ operation.slots, slot.origin = .path →
    slot.form.shape.isFreeText = true ∧ slot.name ∈ Call.variableNames operation.path
  others : ∀ slot ∈ operation.slots, slot.origin ≠ .path → slot.required = false

theorem takesTexts_iff {operation : Operation} : TakesTexts operation ↔
    (∀ slot ∈ operation.slots, slot.origin = .path →
      slot.form.shape.isFreeText = true ∧ slot.name ∈ Call.variableNames operation.path) ∧
    ∀ slot ∈ operation.slots, slot.origin ≠ .path → slot.required = false :=
  ⟨fun h => ⟨h.path, h.others⟩, fun h => ⟨h.1, h.2⟩⟩

instance (operation : Operation) : Decidable (TakesTexts operation) :=
  decidable_of_iff _ takesTexts_iff.symm

/-! ## Requests -/

theorem body_of_got {route : Call.Route} (hmethod : route.method = "GET") (bag : Call.Fields) :
    route.body bag = .null := by
  have hbodiless : ¬Call.bodyMethods.contains (Text.upper "GET") = true := by decide +kernel
  rw [Call.Route.body, hmethod, if_neg hbodiless]

/-- A request is sent for a method, a path and the parts. -/
theorem callUpstream_congr {α : Type} [Add α] [Sub α] [Mul α] [Div α] [LT α] [DecidableLT α]
    [OfNat α 0] [OfNat α 1] [OfNat α 1000] {route other : Call.Route} {bag rest : Call.Fields}
    (hmethod : route.method = other.method) (hpath : route.path = other.path)
    (hparts : Call.assemble route bag = Call.assemble other rest) (upstream : Upstream α)
    (pacer : Pacing.Pacer α) :
    callUpstream upstream pacer route bag = callUpstream upstream pacer other rest := by
  have hexchange : exchange upstream route bag = exchange upstream other rest := by
    simp only [exchange, hmethod, hpath, hparts]
  have hproceed : proceed upstream route bag = proceed upstream other rest := by
    funext passing
    simp only [proceed, hexchange]
  rw [callUpstream, callUpstream, hproceed]

/-! ## Checked variables -/

section
variable {options : Options} {clientUrl : String} {description : Json} {table : Table}
  {entry : String × Operation} {given : Call.Fields}

/-- An operation that is got comes from an endpoint, whose path and declaration it has. -/
theorem exists_offers_of_got (hcompile : compile options clientUrl description = .ok table)
    (hentry : entry ∈ table.operations) (hmethod : entry.2.method = "GET") :
    ∃ e declaration, Operation.ofEndpoint (.of (documentOf description)) entry.1 e = .ok entry.2 ∧
      declaration.inPath = Call.variableNames entry.2.path ∧ Offers declaration entry.2.slots ∧
      entry.2.action = .request (routeOf e entry.2.slots) ∧
      (routeOf e entry.2.slots).method = "GET" ∧
      (routeOf e entry.2.slots).path = entry.2.path := by
  rcases exists_endpoint_or_reporting hcompile hentry with ⟨e, -, hop⟩ | ⟨_, _, hreporting⟩
  · obtain ⟨-, hpath, hupper, haction⟩ := Operation.ofEndpoint_spec hop
    obtain ⟨declaration, -, hdeclared, hoffers⟩ :=
      exists_offers_of_slotsOf (Operation.slots_of_ofEndpoint hop).1
    refine ⟨e, declaration, hop, ?_, hoffers, haction, ?_, hpath.symm⟩
    · rw [Declaration.inPath, hdeclared, hpath]
    · rw [routeOf, ← hupper, hmethod]
  · rw [hreporting] at hmethod
    exact absurd (show "" = "GET" from hmethod) (by decide)

section
variable {source : Source} {name : String} {e : Endpoint} {operation : Operation}
  {declaration : Declaration}
  (hop : Operation.ofEndpoint source name e = .ok operation)
  (hinPath : declaration.inPath = Call.variableNames operation.path)
  (hoffers : Offers declaration operation.slots) (htakes : TakesTexts operation)
  (hapart : ∀ slot ∈ operation.slots, slot.origin = .body →
    slot.name ∉ Call.variableNames operation.path)
  (hgiven : AssignsTexts (Call.variableNames operation.path) given)

include hinPath hoffers hapart in
/-- Only slots of the path have names of variables. -/
theorem origin_eq_path_of_apart {slot : Slot} (hslot : slot ∈ operation.slots)
    (hname : slot.name ∈ Call.variableNames operation.path) : slot.origin = .path :=
  origin_eq_path hoffers hslot (fun hbody => hapart slot hslot hbody hname) (hinPath ▸ hname)

include hop hinPath hoffers htakes hapart hgiven in
/-- The variables are accepted. -/
theorem exists_checked_of_texts :
    ∃ checked, checkArguments operation (.obj given) = .ok checked := by
  by_cases hsound : ∀ slot ∈ operation.slots, slot.form.shape.isSound = true
  · refine ⟨_, (checkArguments_iff_of_sound hop hsound).mpr
      ⟨given, argumentsOf_obj given, fun slot hslot => ?_, rfl⟩⟩
    by_cases hname : slot.name ∈ Call.variableNames operation.path
    · have hpath := origin_eq_path_of_apart hinPath hoffers hapart hslot hname
      obtain ⟨s, hs⟩ := hgiven.exists_lookupField hname
      obtain ⟨fit, haccept⟩ :=
        Schema.accept_of_isFreeText (htakes.path slot hslot hpath).1 true s
      exact .accepted hs haccept
    · have hother : slot.origin ≠ .path := fun hpath => hname (htakes.path slot hslot hpath).2
      exact .absent (hgiven.lookupField_eq_none hname) (htakes.others slot hslot hother)
  · refine ⟨_, (checkArguments_iff_of_unsound hop (by simpa using hsound)).mpr
      ⟨given, argumentsOf_obj given, rfl⟩⟩

include hop hinPath hoffers htakes hapart hgiven in
/-- The variables come out of the check as they were given. -/
theorem lookupField_checked_of_texts {checked : Json}
    (hchecked : checkArguments operation (.obj given) = .ok checked) {name : String}
    (hname : name ∈ Call.variableNames operation.path) :
    lookupField name (checked.fields?.getD []) = lookupField name given := by
  obtain ⟨s, hs⟩ := hgiven.exists_lookupField hname
  obtain ⟨slot, hslot, -, rfl⟩ := hoffers.exists_slot (hinPath ▸ hname)
  have hnodup : (given.map Prod.fst).Nodup :=
    hgiven.keys.nodup_iff.mpr (Call.nodup_distinct _)
  obtain ⟨w, hw, -, hfrom⟩ := exists_lookupField_of_checkArguments hop hchecked
    (argumentsOf_obj given) hnodup hslot hs (by simp)
  rw [hw, hs]
  rcases hfrom with ⟨other, hother, hsame, fit, haccept⟩ | rfl
  · have hpath := origin_eq_path_of_apart hinPath hoffers hapart hother (hsame ▸ hname)
    obtain ⟨fit', htext⟩ :=
      Schema.accept_of_isFreeText (htakes.path other hother hpath).1 true s
    rw [htext] at haccept
    exact congrArg some (Prod.mk.inj (Except.ok.inj haccept)).1.symm
  · rfl

include hop hinPath hoffers htakes hapart hgiven in
/-- Checked variables make the parts of a request that the given ones make for the resource, when
nothing but null comes out of the check besides. -/
theorem assemble_checked_of_texts {checked : Json}
    (hchecked : checkArguments operation (.obj given) = .ok checked)
    (hkeys : ∀ key v, lookupField key (checked.fields?.getD []) = some v → v ≠ .null →
      key ∈ given.map Prod.fst)
    (hmethod : (routeOf e operation.slots).method = "GET")
    (hpath : (routeOf e operation.slots).path = operation.path) {resource : Resource}
    (hresource : resource.route.path = operation.path) :
    Call.assemble (routeOf e operation.slots) (checked.fields?.getD []) =
      Call.assemble resource.route given := by
  have hpicked : Call.pick (checked.fields?.getD []) (Call.variableNames operation.path) =
      Call.pick given (Call.variableNames operation.path) :=
    Call.pick_congr fun name hname =>
      lookupField_checked_of_texts hop hinPath hoffers htakes hapart hgiven hchecked hname
  have hquery :
      Call.pick (checked.fields?.getD []) (routeOf e operation.slots).queryParams = [] := by
    refine List.eq_nil_iff_forall_not_mem.mpr fun ⟨key, v⟩ hmem => ?_
    obtain ⟨hname, hlookup, hv⟩ := Call.mem_pick.mp hmem
    have hvariable := hgiven.keys.mem_iff.mp (hkeys key v hlookup hv)
    have hinPath := Declaration.originOf?_eq_path_iff.mpr (.inl (hinPath ▸ hvariable))
    have hown := (hoffers.mem_iff (show Origin.query ≠ .body by simp) key).mp hname
    simp [hinPath] at hown
  have hbody : resource.route.body given = .null := body_of_got rfl given
  rw [Call.assemble, Call.assemble, hpath, hresource, hpicked, hquery, body_of_got hmethod, hbody]
  rfl

end

end

/-! ## Calls and readings -/

/-- When the slots of the path of an operation that is got take any text as a variable, nothing else
is required, and no slot for a whole body has the name of a variable, then a call with texts for the
variables is the reading of the resource of that path: the same is done for it and the pacer is left
in the same state, and it comes to the same text, or to an error with the same status and
details. -/
theorem invoke_eq_readResource {α : Type} [Add α] [Sub α] [Mul α] [Div α] [LT α] [DecidableLT α]
    [OfNat α 0] [OfNat α 1] [OfNat α 1000] {options : Options} {clientUrl : String}
    {description : Json} {table : Table} {entry : String × Operation} {resource : String × Resource}
    (hcompile : compile options clientUrl description = .ok table)
    (hentry : entry ∈ table.operations) (hresource : resource ∈ table.resources)
    (hmethod : entry.2.method = "GET") (hpath : entry.2.path = resource.2.path)
    (htakes : TakesTexts entry.2)
    (hapart : ∀ slot ∈ entry.2.slots, slot.origin = .body →
      slot.name ∉ resource.2.variableNames)
    {given : Call.Fields} (hgiven : AssignsTexts resource.2.variableNames given)
    (upstream : Upstream α) (pacer : Pacing.Pacer α) :
    invoke upstream pacer entry.2 (.obj given) =
      (readResource upstream pacer resource.2 given).map (Done.map fun
        | .ok text => ⟨text, false⟩
        | .error failure =>
          ⟨"API Error (" ++ Decimal.intText failure.status ++ "): " ++ failure.details, true⟩) := by
  have hvariables : resource.2.variableNames = Call.variableNames entry.2.path := by
    rw [hpath, variableNames_of_mem_resources hcompile hresource]
  rw [hvariables] at hapart hgiven
  obtain ⟨e, declaration, hop, hinPath, hoffers, haction, hgot, hroute⟩ :=
    exists_offers_of_got hcompile hentry hmethod
  obtain ⟨checked, hchecked⟩ := exists_checked_of_texts hop hinPath hoffers htakes hapart hgiven
  have hparts : Call.assemble (routeOf e entry.2.slots) (checked.fields?.getD []) =
      Call.assemble resource.2.route given :=
    assemble_checked_of_texts hop hinPath hoffers htakes hapart hgiven hchecked
      (fun _ _ => mem_keys_of_checkArguments hcompile hentry (argumentsOf_obj given) hchecked)
      hgot hroute hpath.symm
  have hcall : callUpstream upstream pacer (routeOf e entry.2.slots) (checked.fields?.getD []) =
      callUpstream upstream pacer resource.2.route given :=
    callUpstream_congr hgot (hroute.trans hpath) hparts upstream pacer
  simp only [invoke, haction, hchecked, hcall, readResource, Option.map_map]
  rfl

/-! ## A pet -/

/-- Is the resource read, with one request, from a service that answers without a body? -/
def readsOnce (resource : Resource) (given : Call.Fields) : Bool :=
  (readResource (answering { status := 200 }) unpaced resource given).any fun read =>
    read.result.isOk && read.requests.length == 1

theorem exists_of_readsOnce {resource : Resource} {given : Call.Fields}
    (h : readsOnce resource given = true) : ∃ read text,
      readResource (answering { status := 200 }) unpaced resource given = some read ∧
        read.result = .ok text ∧ read.requests.length = 1 := by
  obtain ⟨read, hread, hdone⟩ := (Option.any_eq_true _ _).mp h
  obtain ⟨hok, hone⟩ := Bool.and_eq_true_iff.mp hdone
  cases hresult : read.result with
  | error failure =>
    rw [hresult] at hok
    cases hok
  | ok text => exact ⟨read, text, hread, hresult, beq_iff_eq.mp hone⟩

/-- A description of an operation that gets a pet and has a parameter of the query. -/
def petDescription : Json :=
  soleDescription "/pets/\x7bid\x7d" "get" [("operationId", .str "pet"),
    ("parameters", .arr [.obj [("name", .str "q"), ("in", .str "query")]])]

/-- A parameter of the query that may be left out does not come between the call and the
reading. -/
theorem invoke_eq_readResource_pet : ∃ table entry resource called read text,
    compile {} "" petDescription = .ok table ∧ entry ∈ table.operations ∧
      resource ∈ table.resources ∧ entry.2.path = resource.2.path ∧
      invoke (answering { status := 200 }) unpaced entry.2 (.obj [("id", .str "7")]) =
        some called ∧
      readResource (answering { status := 200 }) unpaced resource.2 [("id", .str "7")] =
        some read ∧
      called.result = ⟨text, false⟩ ∧ read.result = .ok text ∧
      called.requests = read.requests ∧ read.requests.length = 1 := by
  obtain ⟨table, hcompile, hpair⟩ := Session.exists_compiled {} "" petDescription
    (fun table => table.operations.any fun entry => table.resources.any fun resource =>
      decide (entry.2.method = "GET" ∧ entry.2.path = resource.2.path ∧ TakesTexts entry.2 ∧
        (∀ slot ∈ entry.2.slots, slot.origin ≠ .body) ∧ resource.2.variableNames = ["id"] ∧
        readsOnce resource.2 [("id", .str "7")] = true)) (by decide +kernel)
  obtain ⟨entry, hentry, hpair⟩ := List.any_eq_true.mp hpair
  obtain ⟨resource, hresource, hpair⟩ := List.any_eq_true.mp hpair
  obtain ⟨hmethod, hpath, htakes, hbodiless, hvariables, hreads⟩ := of_decide_eq_true hpair
  have hgiven : AssignsTexts resource.2.variableNames [("id", .str "7")] := by
    rw [hvariables]
    exact ⟨.refl _, List.forall_mem_singleton.mpr ⟨"7", rfl⟩⟩
  have hsame := invoke_eq_readResource hcompile hentry hresource hmethod hpath htakes
    (fun slot hslot hbody => absurd hbody (hbodiless slot hslot)) hgiven
    (answering { status := 200 }) unpaced
  obtain ⟨read, text, hread, hresult, hone⟩ := exists_of_readsOnce hreads
  rw [hread] at hsame
  refine ⟨table, entry, resource, _, read, text, hcompile, hentry, hresource, hpath, hsame, hread,
    ?_, hresult, rfl, hone⟩
  simp only [Done.map, hresult]

/-! ## A name that is taken -/

/-- The members of an operation whose whole body is an integer that may be left out. -/
def integerBodyOperation : Call.Fields :=
  [("operationId", .str "s"), ("requestBody", .obj [("content", .obj [("application/json",
    .obj [("schema", .obj [("type", .str "integer")])])])])]

/-- A path whose variables leave no name for a body. -/
def crowdedPath : String :=
  "/\x7bbody\x7d/\x7brequest_body\x7d/\x7bbody_3\x7d"

/-- A description of that operation under that path. -/
def crowdedDescription : Json :=
  soleDescription crowdedPath "get" integerBodyOperation

theorem variableNames_crowdedPath :
    Call.variableNames crowdedPath = ["body", "request_body", "body_3"] := by
  decide +kernel

/-- Texts for the variables of that path. -/
def crowdedVariables : Call.Fields :=
  [("body", .str "a"), ("request_body", .str "b"), ("body_3", .str "x")]

/-- The slots of that operation. -/
def crowdedSlots : List Slot :=
  ["body", "request_body", "body_3"].map variableSlot ++
    [⟨"body_3", .body, ⟨.integer, .whole {}, "", []⟩, false⟩]

theorem exists_compiled_crowded : ∃ table entry e,
    compile {} "" crowdedDescription = .ok table ∧ entry ∈ table.operations ∧
      entry.2.slots = crowdedSlots ∧ entry.2.method = "GET" ∧ entry.2.path = crowdedPath ∧
      Operation.ofEndpoint (.of (documentOf crowdedDescription)) entry.1 e = .ok entry.2 := by
  set e := soleEndpoint crowdedPath "get" integerBodyOperation
  set source := Source.of (documentOf crowdedDescription)
  have hname : (({} : Naming.Names).resolve e.candidate).1 = "s" := by
    rw [show e.candidate = "s" from rfl]
    decide +kernel
  have hvariables : Call.variableNames e.path = ["body", "request_body", "body_3"] :=
    variableNames_crowdedPath
  have hparameters : parametersOf source e = .ok [] := rfl
  have hpathSlots : pathAndQuerySlots source "s" e =
      .ok (["body", "request_body", "body_3"].map variableSlot) := by
    simp only [pathAndQuerySlots, hparameters, hvariables]
    rfl
  obtain ⟨p, hbody⟩ : ∃ p, bodyOf source e =
      .ok (some (⟨.obj [("type", .str "integer")], p, false⟩, false)) := ⟨_, rfl⟩
  have hcalled : bodyArgumentName (.obj [("type", .str "integer")])
      ((["body", "request_body", "body_3"].map variableSlot).map (·.name)) = "body_3" := by
    decide +kernel
  have hslots : slotsOf source "s" e = .ok crowdedSlots := by
    simp only [slotsOf, hpathSlots, hbody, form_of_integer, bodySlots, hcalled]
    rfl
  obtain ⟨table, entry, hcompile, hentry, hentrySlots, haction, hop⟩ :=
    exists_compiled_sole "" (by decide) (show ({} : Options).admits _ = true from rfl) hname hslots
  obtain ⟨-, hentryPath, hupper, -⟩ := Operation.ofEndpoint_spec hop
  have hmethod : Text.upper e.method = "GET" := by
    rw [show e.method = "get" from rfl]
    decide +kernel
  exact ⟨table, entry, e, hcompile, hentry, hentrySlots, hupper.trans hmethod, hentryPath, hop⟩

/-- The text for the third variable is refused for the body. -/
theorem not_checked_crowded {source : Source} {name : String} {e : Endpoint} {operation : Operation}
    (hop : Operation.ofEndpoint source name e = .ok operation)
    (hslots : operation.slots = crowdedSlots) (checked : Json) :
    checkArguments operation (.obj crowdedVariables) ≠ .ok checked := by
  have hsound : ∀ slot ∈ operation.slots, slot.form.shape.isSound = true := by
    rw [hslots]
    decide +kernel
  intro hchecked
  obtain ⟨given, hgiven, hadmits, -⟩ := (checkArguments_iff_of_sound hop hsound).mp hchecked
  obtain rfl := Json.obj.inj hgiven
  rw [hslots] at hadmits
  exact not_admits_text rfl rfl (hadmits _ (List.mem_append_right _ List.mem_cons_self))

/-- The slot for a body may be given the name of a variable, and then refuses its text: the call
fails without a request, and the reading succeeds. -/
theorem refused_beside_reading : ∃ table entry resource called read text,
    compile {} "" crowdedDescription = .ok table ∧ entry ∈ table.operations ∧
      resource ∈ table.resources ∧ entry.2.method = "GET" ∧ entry.2.path = resource.2.path ∧
      TakesTexts entry.2 ∧ AssignsTexts resource.2.variableNames crowdedVariables ∧
      invoke (answering { status := 200 }) unpaced entry.2 (.obj crowdedVariables) = some called ∧
      readResource (answering { status := 200 }) unpaced resource.2 crowdedVariables = some read ∧
      called.result.isError = true ∧ called.requests = [] ∧
      read.result = .ok text ∧ read.requests.length = 1 := by
  obtain ⟨table, entry, e, hcompile, hentry, hslots, hmethod, hpath, hop⟩ :=
    exists_compiled_crowded
  have haction := (Operation.ofEndpoint_spec hop).2.2.2
  have htakes : TakesTexts entry.2 := by
    rw [takesTexts_iff, hslots, hpath, variableNames_crowdedPath]
    decide +kernel
  obtain ⟨resource, hresource, hpair⟩ : ∃ resource ∈ table.resources,
      (resource.2.path == crowdedPath && readsOnce resource.2 crowdedVariables) = true := by
    rw [resources_of_compile hcompile]
    exact List.any_eq_true.mp (by decide +kernel)
  obtain ⟨hsame, hreads⟩ := Bool.and_eq_true_iff.mp hpair
  have hsame : resource.2.path = crowdedPath := beq_iff_eq.mp hsame
  obtain ⟨read, text, hread, hresult, hone⟩ := exists_of_readsOnce hreads
  have hgiven : AssignsTexts resource.2.variableNames crowdedVariables := by
    rw [variableNames_of_mem_resources hcompile hresource, hsame, variableNames_crowdedPath]
    exact ⟨.refl _, by simp [crowdedVariables]⟩
  cases hchecked : checkArguments entry.2 (.obj crowdedVariables) with
  | ok checked => exact absurd hchecked (not_checked_crowded hop hslots checked)
  | error troubles =>
    have hcalled : invoke (answering { status := 200 }) unpaced entry.2 (.obj crowdedVariables) =
        some { result := ⟨refusal entry.2 troubles, true⟩, pacer := unpaced } := by
      simp only [invoke, haction, hchecked]
    exact ⟨table, entry, resource, _, read, text, hcompile, hentry, hresource, hmethod,
      hpath.trans hsame.symm, htakes, hgiven, hcalled, hread, rfl, rfl, hresult, hone⟩

end Service

end Toolgate
