import Toolgate.Json.Pointer
import Toolgate.Pattern.Reader
import Toolgate.Schema.Description
import Toolgate.Schema.Form

/-!
# From schema nodes to forms

A schema node is compiled to a form along its references. Shapes that are unknown or malformed
accept everything, so that one bad node does not stop the rest.

A branch of the recursion follows each reference text at most once and enters each node at most
once; a reference or a node that comes up again below itself is circular and accepts everything.
That is also why the recursion ends: following a reference uses up its text, and every other step
goes to a part of the node.

## Main definitions

* `translate`: the form of a node
* `refTexts`: the reference texts in a value
* `TranslationError`: faults that stop the compilation
-/

namespace Toolgate.Schema

/-- A fault in a schema that stops the compilation. -/
inductive TranslationError where
  /-- The format of a text is a list or an object. -/
  | unusableFormat
  | pointer (cause : PointerError)
  | pattern (cause : PatternError)

/-- What is said of a field of an object; null when there is nothing. -/
abbrev said (fields : List (String × Json)) (key : String) : Json :=
  (lookupField key fields).getD .null

mutual

/-- The texts of all references in a value. -/
def refTexts : Json → List String
  | .arr items => refTextsItems items
  | .obj fields => refTextsFields fields
  | _ => []

/-- The texts of all references in the items. -/
def refTextsItems : List Json → List String
  | [] => []
  | v :: rest => refTexts v ++ refTextsItems rest

/-- The texts of all references in the fields. -/
def refTextsFields : List (String × Json) → List String
  | [] => []
  | (key, v) :: rest =>
    let below := refTexts v ++ refTextsFields rest
    match v with
    | .str ref => if key == "$ref" then ref :: below else below
    | _ => below

end

/-- The type that a `type` keyword names: a text, or the first entry of a list that is a text
other than `null`. -/
def typeNamed? : Json → Option String
  | .str s => some s
  | .arr items => items.findSome? fun
    | .str s => if s == "null" then none else some s
    | _ => none
  | _ => none

/-- May the value be a member of an enumeration? -/
def isMember : Json → Bool
  | .null | .bool _ | .int _ | .float _ | .str _ => true
  | _ => false

/-- The members of an enumeration, each once. -/
def membersFrom (kept : List Json) : List Json → List Json
  | [] => kept.reverse
  | v :: rest =>
    if isMember v && !kept.any (Json.same v) then membersFrom (v :: kept) rest
    else membersFrom kept rest

/-- The members of an `enum` keyword. -/
def enumMembers : Json → List Json
  | .arr items => membersFrom [] items
  | _ => []

/-- Does the format ask for a date? -/
def isDateFormat : Json → Except TranslationError Bool
  | .str s => .ok (s == "date" || s == "date-time")
  | .arr _ => .error .unusableFormat
  | .obj _ => .error .unusableFormat
  | _ => .ok false

/-- The length that a keyword gives. -/
def length? : Json → Option Nat
  | .int n => if n < 0 then none else some n.toNat
  | _ => none

/-- The pattern that a keyword gives; a malformed one is left out. -/
def pattern? : Json → Except TranslationError (Option WrittenPattern)
  | .str s =>
    if s.isEmpty then .ok none
    else match Pattern.read s with
    | .ok p => .ok (some ⟨s, p⟩)
    | .error .malformed => .ok none
    | .error cause => .error (.pattern cause)
  | _ => .ok none

/-- The pattern of a calendar date at the front of a text. -/
def datePattern : WrittenPattern :=
  let digits (n : Nat) : Pattern := .times .greedy n (some n) (.one {} false [.digit true])
  let dash : Pattern := .one {} false [Pattern.single '-'.toNat]
  ⟨"^\\d\x7b4\x7d-\\d\x7b2\x7d-\\d\x7b2\x7d",
    Pattern.sequence [.anchor .textStart, digits 4, dash, digits 2, dash, digits 2]⟩

/-- The shape of dates and timestamps. -/
def dateShape : Shape :=
  .either [.timestamp, .text ⟨none, none, some datePattern⟩]

/-- The form of a `string` node. -/
def textForm (fields : List (String × Json)) : Except TranslationError Form :=
  let members := enumMembers (said fields "enum")
  if !members.isEmpty then .ok ⟨.enumeration, .choice members, "", []⟩
  else do
    if ← isDateFormat (said fields "format") then pure ⟨.datetime, dateShape, "", []⟩
    else
      let pattern ← pattern? (said fields "pattern")
      pure ⟨.string, .text ⟨length? (said fields "minLength"), length? (said fields "maxLength"),
        pattern⟩, "", []⟩

/-- One end of the bounds: the inclusive and the exclusive bound. A flag beside a bound says
whether that bound is exclusive; a number is an exclusive bound of its own. -/
def boundEnd (bound exclusive : Json) : Option Amount × Option Amount :=
  let value := Amount.ofJson? bound
  match exclusive with
  | .bool true => (none, value)
  | .bool false => (value, none)
  | other => (value, Amount.ofJson? other)

/-- Is the number greater than zero? -/
def Amount.isPositive : Amount → Bool
  | .whole n => 0 < n
  | .real x => 0 < x

/-- The bounds of a numeric node. -/
def boundsOf (fields : List (String × Json)) : Bounds :=
  let low := boundEnd (said fields "minimum") (said fields "exclusiveMinimum")
  let high := boundEnd (said fields "maximum") (said fields "exclusiveMaximum")
  { atLeast := low.1, above := low.2, atMost := high.1, below := high.2
    multipleOf := (Amount.ofJson? (said fields "multipleOf")).filter Amount.isPositive }

/-- The names that a `required` keyword lists. -/
def requiredNames : Json → List String
  | .arr items => items.filterMap Json.text?
  | _ => []

/-- Members merged by name: each name stands at its first place and has its last content. -/
def mergeMembers (merged : List (Member Form)) : List (Member Form) → List (Member Form)
  | [] => merged
  | member :: rest =>
    let next :=
      if merged.any (·.name == member.name) then
        merged.map fun other => if other.name == member.name then member else other
      else merged ++ [member]
    mergeMembers next rest

/-- The form of an `allOf` node. Only objects are merged; else the first member stands alone. -/
def mergedForm (name : String) (forms : List Form) : Form :=
  match forms with
  | [] => .anything ""
  | first :: _ =>
    if forms.all Form.isObject then
      .ofMembers name (mergeMembers [] (forms.flatMap (·.members)))
    else first

/-- The form of a `oneOf` or `anyOf` node. -/
def unitedForm (forms : List Form) : Form :=
  match forms with
  | [form] => form
  | _ => ⟨.union, .unite (forms.map (·.describedShape)), "", []⟩

/-- A form with what its node says on top of its type: whether null is accepted, and its
description. -/
def annotated (fields : List (String × Json)) (form : Form) : Form :=
  let nullable :=
    match said fields "nullable" with
    | .bool true => if form.kind == .any then form else { form with shape := form.shape.orNull }
    | _ => form
  let own := describe fields
  let note := if form.kind == .any then joinNotes [own, form.description] else own
  if note.isEmpty then nullable else { nullable with description := note }

/-- The target of a reference as a node. A description beside the reference is copied to a target
that has none. -/
def describedTarget (description : Json) (target : Node) : Node :=
  match target.value with
  | .obj fields =>
    if description.truthy && !(said fields "description").truthy then
      ⟨.obj (setField "description" description fields), target.place, true⟩
    else target
  | _ => target

/-- A keyword whose value is a list that is not empty. -/
def listNamed? (fields : List (String × Json)) (key : String) : Option (List Json) :=
  match lookupField key fields with
  | some (.arr (v :: rest)) => some (v :: rest)
  | _ => none

/-- The value of a key is smaller than the fields it is found in. -/
theorem sizeOf_lookupField {key : String} {fields : List (String × Json)} {v : Json}
    (h : lookupField key fields = some v) : sizeOf v < sizeOf fields := by
  induction fields with
  | nil => simp [lookupField] at h
  | cons head rest ih =>
    obtain ⟨k, w⟩ := head
    simp only [lookupField] at h
    split at h
    · cases h
      simp
      omega
    · have := ih h
      simp
      omega

/-- A list found under a key is smaller than the fields. -/
theorem sizeOf_listNamed {fields : List (String × Json)} {key : String} {items : List Json}
    (h : listNamed? fields key = some items) : sizeOf items < sizeOf fields := by
  unfold listNamed? at h
  split at h
  · rename_i v rest found
    cases h
    have := sizeOf_lookupField found
    simp at this ⊢
    omega
  · cases h

/-- Texts that are left when one that is among them is taken out are fewer. -/
theorem length_filter_ne {ref : String} {texts : List String} (h : texts.contains ref = true) :
    (texts.filter (· != ref)).length < texts.length :=
  List.length_filter_lt_length_iff_exists.2 ⟨ref, by simpa using h, by simp⟩

mutual

/-- The form of a node. The texts in `pending` are those that may still be followed, and the
places in `active` are those of the nodes being translated. -/
def translate (document : Json) (pending : List String) (active : List Place) (node : Node)
    (name : String) : Except TranslationError Form :=
  match _hv : node.value with
  | .obj fields =>
    match lookupField "$ref" fields with
    | some (.str ref) =>
      if _h : pending.contains ref = true then
        match resolveRef document ref with
        | .error cause => .error (.pointer cause)
        | .ok none => .ok (.anything ("Ref: " ++ ref))
        | .ok (some target) =>
          if target.value.isObject then
            let called := Naming.refName ref
            translate document (pending.filter (· != ref)) active
              (describedTarget (said fields "description") target)
              (if called.isEmpty then name else called)
          else .ok (.anything ("Ref: " ++ ref))
      else .ok (.anything ("Circular reference: " ++ ref))
    | _ =>
      if !node.altered && active.contains node.place then .ok (.anything "Circular schema")
      else
        let inside := if node.altered then active else node.place :: active
        (translateFields document pending inside node.place fields name).map (annotated fields)
  | _ => .ok (.anything "")
termination_by (pending.length, sizeOf node.value, 0)
decreasing_by
  · exact Prod.Lex.left _ _ (length_filter_ne _h)
  · rw [_hv]
    apply Prod.Lex.right
    apply Prod.Lex.left
    simp

/-- The form that the keywords of a node ask for, before its annotations. -/
def translateFields (document : Json) (pending : List String) (active : List Place)
    (place : Place) (fields : List (String × Json)) (name : String) :
    Except TranslationError Form :=
  match _ho : listNamed? fields "oneOf" with
  | some items =>
    (translateItems document pending active (place.step (.key "oneOf")) (name ++ "Option") 0
      items).map unitedForm
  | none =>
  match _ha : listNamed? fields "anyOf" with
  | some items =>
    (translateItems document pending active (place.step (.key "anyOf")) (name ++ "Option") 0
      items).map unitedForm
  | none =>
  match _hm : listNamed? fields "allOf" with
  | some items =>
    (translateItems document pending active (place.step (.key "allOf")) (name ++ "Part") 0
      items).map (mergedForm name)
  | none =>
  match typeNamed? (said fields "type") with
  | none => .ok (.anything "")
  | some "string" => textForm fields
  | some "integer" => .ok ⟨.integer, .whole (boundsOf fields), "", []⟩
  | some "number" => .ok ⟨.number, .number (boundsOf fields), "", []⟩
  | some "boolean" => .ok ⟨.boolean, .truth, "", []⟩
  | some "array" =>
    match _hi : lookupField "items" fields with
    | some v =>
      if v.truthy then
        (translate document pending active ⟨v, place.step (.key "items"), false⟩
          (name ++ "Item")).map fun form => ⟨.array, .list form.describedShape, "", []⟩
      else .ok ⟨.array, .list .anything, "", []⟩
    | none => .ok ⟨.array, .list .anything, "", []⟩
  | some "object" =>
    match _hp : lookupField "properties" fields with
    | some (.obj (first :: rest)) =>
      (translateMembers document pending active (place.step (.key "properties")) name
        (requiredNames (said fields "required")) (first :: rest)).map (Form.ofMembers name)
    | _ =>
      match _hx : lookupField "additionalProperties" fields with
      | some (.obj values) =>
        (translate document pending active
          ⟨.obj values, place.step (.key "additionalProperties"), false⟩
          (name ++ "Value")).map fun form => ⟨.map, .table form.describedShape, "", []⟩
      | _ => .ok .looseObject
  | some _ => .ok (.anything ("Unrecognized type: " ++ (said fields "type").display))
termination_by (pending.length, sizeOf fields, 1)
decreasing_by
  all_goals apply Prod.Lex.right
  all_goals apply Prod.Lex.left
  · exact sizeOf_listNamed _ho
  · exact sizeOf_listNamed _ha
  · exact sizeOf_listNamed _hm
  · exact sizeOf_lookupField _hi
  · have := sizeOf_lookupField _hp
    simp at this ⊢
    omega
  · have := sizeOf_lookupField _hx
    simp at this ⊢
    omega

/-- The forms of the items of a list from the `n`-th on. The item at index `n` is called after
the number `n + 1`. -/
def translateItems (document : Json) (pending : List String) (active : List Place)
    (place : Place) (name : String) (n : Nat) (items : List Json) :
    Except TranslationError (List Form) :=
  match items with
  | [] => .ok []
  | v :: rest =>
    match translate document pending active ⟨v, place.step (.index n), false⟩
        (name ++ Decimal.natText (n + 1)) with
    | .error cause => .error cause
    | .ok form =>
      (translateItems document pending active place name (n + 1) rest).map (form :: ·)
termination_by (pending.length, sizeOf items, 0)
decreasing_by
  all_goals apply Prod.Lex.right
  all_goals apply Prod.Lex.left
  all_goals simp only [List.cons.sizeOf_spec]
  all_goals omega

/-- The members of an object, given its properties. -/
def translateMembers (document : Json) (pending : List String) (active : List Place)
    (place : Place) (name : String) (required : List String)
    (properties : List (String × Json)) : Except TranslationError (List (Member Form)) :=
  match properties with
  | [] => .ok []
  | (key, v) :: rest =>
    match translate document pending active ⟨v, place.step (.key key), false⟩
        (name ++ "_" ++ key) with
    | .error cause => .error cause
    | .ok form =>
      (translateMembers document pending active place name required rest).map
        (⟨key, required.contains key, form⟩ :: ·)
termination_by (pending.length, sizeOf properties, 0)
decreasing_by
  all_goals apply Prod.Lex.right
  all_goals apply Prod.Lex.left
  all_goals simp only [List.cons.sizeOf_spec, Prod.mk.sizeOf_spec]
  all_goals omega

end

/-- The form of a node of a document, or of a value given beside it. -/
def formOf (document : Json) (node : Node) (name : String) : Except TranslationError Form :=
  translate document (refTexts document ++ refTexts node.value) [] node name

end Toolgate.Schema
