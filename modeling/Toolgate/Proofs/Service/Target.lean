import Toolgate.Proofs.Catalog.Routing
import Toolgate.Proofs.Http.Target
import Toolgate.Proofs.Service.Arguments

/-!
# Where a call goes

The arguments of a call fill in the template of its path. What is accepted for a variable is there
when the template is filled in, and reaches the segment of its placeholder; only the texts `.` and
`..` are taken for steps in the path.

## Main statements

* `placeholders_left_iff`: which placeholders accepted arguments leave in the path
* `segments_carry_iff_of_sent`: the path of a request beside its template
-/

namespace Toolgate.Service

open Catalog
open Naming (Names)
open Schema (accept)

/-! ## Variables with a value -/

/-- Null is refused for a variable of the path that no parameter declares. -/
theorem accept_variableSlot_null (name : String) :
    ∀ r, accept true (variableSlot name).form.shape .null ≠ .ok r := by
  intro r h
  rw [variableSlot, accept] at h
  cases h

/-- What is required and must not be null is given. -/
theorem exists_lookupField_of_admits {slot : Slot} {given : Call.Fields} (h : slot.Admits given)
    (hrequired : slot.required = true) (hnull : ∀ r, accept true slot.form.shape .null ≠ .ok r) :
    ∃ v, lookupField slot.name given = some v ∧ v ≠ .null := by
  cases h with
  | accepted lookup accepted =>
    refine ⟨_, lookup, ?_⟩
    rintro rfl
    exact hnull _ accepted
  | null lookup optional => simp [hrequired] at optional
  | absent lookup optional => simp [hrequired] at optional

section
variable {options : Options} {clientUrl : String} {description : Json} {table : Table}
  {entry : String × Operation} {route : Call.Route}

/-- The operation on `/pets/{id}/toys/{toy}` with a parameter for the toy. -/
def toyOperation (required : Bool) (schema : Call.Fields) : Call.Fields :=
  [("operationId", .str "drop"), ("parameters", .arr [.obj [("name", .str "toy"),
    ("in", .str "path"), ("required", .bool required), ("schema", .obj schema)]])]

/-- A description of that operation. -/
def toyDescription (required : Bool) (schema : Call.Fields) : Json :=
  soleDescription "/pets/\x7bid\x7d/toys/\x7btoy\x7d" "delete" (toyOperation required schema)

/-- How the arguments of that operation are routed. -/
def toyRoute : Call.Route :=
  { method := "DELETE", path := "/pets/\x7bid\x7d/toys/\x7btoy\x7d", pathParams := ["toy", "id"] }

theorem variableNames_toyRoute : Call.variableNames toyRoute.path = ["id", "toy"] := rfl

/-- The slots of that operation. -/
def toySlots (required : Bool) (form : Schema.Form) : List Slot :=
  [⟨"toy", .path, form, required⟩, variableSlot "id"]

theorem isSound_toySlots (required : Bool) {form : Schema.Form}
    (hform : form.shape.isSound = true) :
    ∀ slot ∈ toySlots required form, slot.form.shape.isSound = true :=
  List.forall_mem_cons.mpr ⟨hform, List.forall_mem_singleton.mpr rfl⟩

/-- A whole number without bounds. -/
def numberForm : Schema.Form :=
  ⟨.integer, .whole {}, "", []⟩

theorem exists_compiled_toy (required : Bool) (schema : Call.Fields) {form : Schema.Form}
    (hform : ∀ source place, Source.formOrAny source (some ⟨.obj schema, place, false⟩) "drop_toy" =
      .ok form) :
    ∃ table entry e, compile {} "" (toyDescription required schema) = .ok table ∧
      entry ∈ table.operations ∧ entry.2.action = .request toyRoute ∧
      entry.2.slots = toySlots required form ∧
      Operation.ofEndpoint (.of (documentOf (toyDescription required schema))) entry.1 e =
        .ok entry.2 := by
  obtain ⟨kind, shape, text, members⟩ := form
  let toy := Json.obj [("name", .str "toy"), ("in", .str "path"), ("required", .bool required),
    ("schema", .obj schema)]
  set e := soleEndpoint "/pets/\x7bid\x7d/toys/\x7btoy\x7d" "delete" (toyOperation required schema)
  set source := Source.of (documentOf (toyDescription required schema))
  have hname : (({} : Names).resolve e.candidate).1 = "drop" := by
    rw [show e.candidate = "drop" from rfl]
    decide +kernel
  have hvariables : Call.variableNames e.path = ["id", "toy"] := variableNames_toyRoute
  have hmethod : Text.upper e.method = "DELETE" := by
    rw [show e.method = "delete" from rfl]
    decide +kernel
  obtain ⟨p, hparameters⟩ : ∃ p, parametersOf source e = .ok [⟨toy, p, false⟩] := ⟨_, rfl⟩
  have hbody : bodyOf source e = .ok none := rfl
  have hpath : parameterSlots source "drop" .path [] [⟨toy, p, false⟩] =
      .ok [⟨"toy", .path, ⟨kind, shape, text, members⟩, required⟩] := by
    have htoy : (parameterName? Catalog.Origin.path.name ⟨toy, p, false⟩).filter
        (!List.contains [] ·) = some "toy" := rfl
    exact parameterSlots_cons source "drop" htoy (hform source (p.step (.key "schema"))) rfl
  have hquery (claimed : List String) :
      parameterSlots source "drop" .query claimed [⟨toy, p, false⟩] = .ok [] := rfl
  have hslots : slotsOf source "drop" e =
      .ok (toySlots required ⟨kind, shape, text, members⟩) := by
    simp only [slotsOf, pathAndQuerySlots, hparameters, hbody, hpath, hvariables, hquery]
    rfl
  obtain ⟨table, entry, hcompile, hentry, hentrySlots, haction, hop⟩ :=
    exists_compiled_sole "" (by decide) (show ({} : Options).admits _ = true from rfl) hname hslots
  refine ⟨table, entry, e, hcompile, hentry, ?_, hentrySlots, hop⟩
  rw [haction, routeOf, hmethod]
  rfl

theorem accept_text (s : String) : accept true (.text {}) (.str s) = .ok (.str s, {}) := by
  rw [accept]
  rfl

theorem accept_whole (n : Int) : accept true (.whole {}) (.int n) = .ok (.int n, {}) := by
  rw [accept]
  rfl

/-- A text and a whole number pass as they are. -/
theorem checkArguments_toy (id : String) (n : Int) {source : Source} {name : String} {e : Endpoint}
    {operation : Operation} (hop : Operation.ofEndpoint source name e = .ok operation)
    (hslots : operation.slots = toySlots true numberForm) :
    checkArguments operation (.obj [("id", .str id), ("toy", .int n)]) =
      .ok (.obj [("toy", .int n), ("id", .str id)]) := by
  have hchecked : checkedFields (toySlots true numberForm) [("id", .str id), ("toy", .int n)] =
      [("toy", .int n), ("id", .str id)] := by
    have htoy {field : Schema.Field Schema.Shape} (hwire : field.wire = "toy")
        (hshape : field.shape = .whole {}) :
        field.checked? [("id", .str id), ("toy", .int n)] = some (.int n) :=
      Schema.Field.checked?_eq_some (by rw [hwire]; rfl) (hshape ▸ accept_whole n)
    have hid {field : Schema.Field Schema.Shape} (hwire : field.wire = "id")
        (hshape : field.shape = .text {}) :
        field.checked? [("id", .str id), ("toy", .int n)] = some (.str id) :=
      Schema.Field.checked?_eq_some (by rw [hwire]; rfl) (hshape ▸ accept_text id)
    rw [checkedFields, Schema.recordFields, inputFields, toySlots]
    simp only [List.map_cons, List.map_nil, Schema.fieldsOf]
    rw [htoy rfl rfl, hid rfl rfl]
    rfl
  have hsound : ∀ slot ∈ operation.slots, slot.form.shape.isSound = true :=
    hslots ▸ isSound_toySlots true rfl
  refine (checkArguments_iff_of_sound hop hsound).mpr ⟨_, rfl, ?_, ?_⟩
  · rw [hslots, toySlots, List.forall_mem_cons, List.forall_mem_singleton]
    exact ⟨.accepted rfl (accept_whole n), .accepted rfl (accept_text id)⟩
  · rw [hslots, hchecked]

theorem form_of_number (source : Source) (place : Place) :
    source.formOrAny (some ⟨.obj [("type", .str "integer")], place, false⟩) "drop_toy" =
      .ok numberForm :=
  form_of_integer source place "drop_toy"

theorem braced_toyRoute : Call.Braced toyRoute.path.toList := by
  have hid : Call.IsName "id".toList := ⟨by decide, Call.not_isBrace_of_all (by decide)⟩
  have htoy : Call.IsName "toy".toList := ⟨by decide, Call.not_isBrace_of_all (by decide)⟩
  have htail : Call.Braced ("/toys/".toList ++ (Call.placeholder "toy".toList ++ [])) :=
    Call.Braced.append (Call.not_isBrace_of_all (by decide)) (.placeholder htoy .nil)
  have hpath : toyRoute.path.toList = "/pets/".toList ++ (Call.placeholder "id".toList ++
      ("/toys/".toList ++ (Call.placeholder "toy".toList ++ []))) := rfl
  rw [hpath]
  exact Call.Braced.append (Call.not_isBrace_of_all (by decide)) (.placeholder hid htail)

/-- In the path of the request for accepted arguments, each segment is that of the template, with
the text of the accepted argument for a placeholder, exactly when no such text is `.` or `..`. -/
theorem segments_carry_iff_of_sent (hcompile : compile options clientUrl description = .ok table)
    (hentry : entry ∈ table.operations) (haction : entry.2.action = .request route)
    (hplain : Http.IsPlain route.path) {client : Http.Client} {address : Http.Address}
    (hbase : (Http.trimBase client.baseUrl).toList = address.chars) {arguments checked : Json}
    {given : Call.Fields} (hgiven : argumentsOf arguments = .obj given)
    (hkeys : (given.map Prod.fst).Nodup)
    (hchecked : checkArguments entry.2 arguments = .ok checked)
    (hsupplied : ∀ name ∈ Call.variableNames route.path,
      ∃ v, lookupField name given = some v ∧ v ≠ .null)
    {reply : Http.Reply} {request : Http.Request}
    (hsent : request ∈ (client.perform route.method route.path
      (Call.assemble route (checked.fields?.getD [])) reply).1) :
    ∃ url, client.url route.path (Call.assemble route (checked.fields?.getD [])) = .ok url ∧
      request.url = url.text ∧
      (∀ name ∈ Call.variableNames route.path, ∀ v, lookupField name given = some v →
        ∃ w, lookupField name (checked.fields?.getD []) = some w ∧
          ((∃ slot ∈ entry.2.slots, slot.name = name ∧
            ∃ fit, accept true slot.form.shape v = .ok (w, fit)) ∨ w = v)) ∧
      (List.Forall₂ (Http.Carries route.path (checked.fields?.getD []))
          (Text.splitAt '/' route.path.toList) (Text.splitAt '/' url.path) ↔
        ∀ name ∈ Call.variableNames route.path, ∀ w,
          lookupField name (checked.fields?.getD []) = some w →
            Http.argumentText w ≠ "." ∧ Http.argumentText w ≠ "..") := by
  obtain ⟨e, -, declaration, hop, -, hpath, hoffers, rfl⟩ :=
    exists_offers_of_mem hcompile hentry haction
  have hvalues : ∀ name ∈ Call.variableNames (routeOf e entry.2.slots).path, ∀ v,
      lookupField name given = some v → v ≠ .null →
        ∃ w, lookupField name (checked.fields?.getD []) = some w ∧ w ≠ .null ∧
          ((∃ slot ∈ entry.2.slots, slot.name = name ∧
            ∃ fit, accept true slot.form.shape v = .ok (w, fit)) ∨ w = v) := by
    intro name hname v hv hnull
    have hinPath : name ∈ declaration.inPath := by
      rwa [Declaration.inPath, hpath]
    obtain ⟨slot, hslot, -, rfl⟩ := hoffers.exists_slot hinPath
    exact exists_lookupField_of_checkArguments hop hchecked hgiven hkeys hslot hv hnull
  obtain ⟨url, hurl, htext⟩ := Http.Client.exists_url_of_sent hsent
  refine ⟨url, hurl, htext, ?_, ?_⟩
  · intro name hname v hv
    obtain ⟨u, hu, hnull⟩ := hsupplied name hname
    obtain rfl := Option.some.inj (hu.symm.trans hv)
    obtain ⟨w, hw, -, haccepted⟩ := hvalues name hname u hv hnull
    exact ⟨w, hw, haccepted⟩
  · refine hplain.forall₂_carries_iff hbase (fun name hname => ?_) (Call.getD_unlessEmpty _) hurl
    obtain ⟨v, hv, hnull⟩ := hsupplied name hname
    obtain ⟨w, hw, hnotNull, -⟩ := hvalues name hname v hv hnull
    exact ⟨w, hw, hnotNull⟩

theorem isPlain_toyRoute : Http.IsPlain toyRoute.path where
  slash := by decide +kernel
  no_query := by decide +kernel
  no_fragment := by decide +kernel
  no_dots := by
    simp only [Http.IsDots]
    decide +kernel
  segment_of := by
    rw [variableNames_toyRoute]
    decide +kernel
  eq_of_isInfix := by
    rw [variableNames_toyRoute]
    have hsegments : ∀ name ∈ ["id", "toy"], ∀ segment ∈ Text.splitAt '/' toyRoute.path.toList,
        Call.placeholder name.toList <:+: segment → segment = Call.placeholder name.toList := by
      decide +kernel
    exact fun {name segment} hname hsegment hfound => hsegments name hname segment hsegment hfound

/-- The address `https://api.example.com`. -/
def exampleAddress : Http.Address where
  scheme := "https".toList
  authority := "api.example.com".toList
  scheme_head := by decide
  scheme_chars := List.all_eq_true.mp (by decide)
  authority_chars := List.all_eq_true.mp (by decide)
  host_ne_nil := by decide

/-- A client of that address. -/
def exampleClient : Http.Client :=
  { baseUrl := "https://api.example.com/" }

theorem trimBase_exampleClient :
    (Http.trimBase exampleClient.baseUrl).toList = exampleAddress.chars := by
  decide +kernel

/-- A text with slashes and dots stays in its segment. -/
theorem segments_carry_iff_of_sent_toy : ∃ table entry checked, ∃ request : Http.Request,
    ∃ url : Http.Url, compile {} "" (toyDescription true [("type", .str "integer")]) = .ok table ∧
      entry ∈ table.operations ∧ entry.2.action = .request toyRoute ∧
      checkArguments entry.2 (.obj [("id", .str "../a b?"), ("toy", .int 3)]) = .ok checked ∧
      request ∈ (exampleClient.perform toyRoute.method toyRoute.path
        (Call.assemble toyRoute (checked.fields?.getD [])) .timedOut).1 ∧
      request.url = url.text ∧
      List.Forall₂ (Http.Carries toyRoute.path (checked.fields?.getD []))
        (Text.splitAt '/' toyRoute.path.toList) (Text.splitAt '/' url.path) := by
  obtain ⟨table, entry, e, hcompile, hentry, haction, hslots, hop⟩ :=
    exists_compiled_toy true _ form_of_number
  have hchecked := checkArguments_toy "../a b?" 3 hop hslots
  let given : Call.Fields := [("id", .str "../a b?"), ("toy", .int 3)]
  let parts := Call.assemble toyRoute [("toy", .int 3), ("id", .str "../a b?")]
  obtain ⟨request, hrequest, -⟩ := exists_eq_ok
    (x := exampleClient.prepare toyRoute.method toyRoute.path parts) (fun _ => true)
    (by decide +kernel)
  have hsent : request ∈
      (exampleClient.perform toyRoute.method toyRoute.path parts .timedOut).1 := by
    rw [Http.Client.perform, hrequest]
    exact List.mem_cons_self
  have hsupplied : ∀ name ∈ Call.variableNames toyRoute.path, ∃ v,
      lookupField name given = some v ∧ v ≠ .null := by
    rw [variableNames_toyRoute, List.forall_mem_cons, List.forall_mem_singleton]
    exact ⟨⟨_, rfl, by simp⟩, _, rfl, by simp⟩
  obtain ⟨url, -, hurl, -, hcarries⟩ := segments_carry_iff_of_sent hcompile hentry haction
    isPlain_toyRoute trimBase_exampleClient rfl (by decide) hchecked hsupplied hsent
  refine ⟨table, entry, _, request, url, hcompile, hentry, haction, hchecked, hsent, hurl,
    hcarries.mpr ?_⟩
  rw [variableNames_toyRoute, List.forall_mem_cons, List.forall_mem_singleton]
  refine ⟨fun w hw => ?_, fun w hw => ?_⟩
  · obtain rfl := Option.some.inj hw
    decide +kernel
  · obtain rfl := Option.some.inj hw
    decide +kernel

/-- The text `..` takes the request to another path. -/
theorem sent_elsewhere_of_dots : ∃ table entry checked,
    compile {} "" (toyDescription true [("type", .str "integer")]) = .ok table ∧
      entry ∈ table.operations ∧ entry.2.action = .request toyRoute ∧
      Http.IsPlain toyRoute.path ∧
      checkArguments entry.2 (.obj [("id", .str ".."), ("toy", .int 3)]) = .ok checked ∧
      (exampleClient.perform toyRoute.method toyRoute.path
        (Call.assemble toyRoute (checked.fields?.getD [])) .timedOut).1.map (·.url) =
          ["https://api.example.com/toys/3"] := by
  obtain ⟨table, entry, e, hcompile, hentry, haction, hslots, hop⟩ :=
    exists_compiled_toy true _ form_of_number
  refine ⟨table, entry, _, hcompile, hentry, haction, isPlain_toyRoute,
    checkArguments_toy ".." 3 hop hslots, ?_⟩
  decide +kernel

end

end Toolgate.Service
