import Mathlib.Tactic.Common
import Toolgate.Call.Redaction

/-!
# What redaction hides

Redaction goes through objects and through arrays of objects, and replaces what stands under a
sensitive key. It does not go into an array that is an item of an array: such an array is put on
record as it is, with all secrets in it. Apart from these arrays no secret is left, and two payloads
that differ in secrets only are put on record alike.

## Main definitions

* `HasField`, `IsMasked`: the fields at any depth of a value, and values without a secret
* `Leaves`, `LeavesNoSecret`: the arrays that redaction leaves as they are
* `Alike`: values that differ in secrets only

## Main statements

* `isMasked_redact_iff`: when no secret is left
* `alike_of_redact_eq`, `redact_eq_of_alike`: what two payloads with one record have in common
* `redact_hides_iff`: both together
-/

namespace Toolgate.Call

/-! ## Secrets at any depth -/

/-- The value has a field of that key and value, at any depth. -/
inductive HasField : Json → String → Json → Prop where
  | here {fields : List (String × Json)} {key : String} {v : Json} (mem : (key, v) ∈ fields) :
      HasField (.obj fields) key v
  | inField {fields : List (String × Json)} {field : String × Json} {key : String} {v : Json}
      (mem : field ∈ fields) (inside : HasField field.2 key v) : HasField (.obj fields) key v
  | inItem {items : List Json} {item : Json} {key : String} {v : Json} (mem : item ∈ items)
      (inside : HasField item key v) : HasField (.arr items) key v

/-- Under every sensitive key, at any depth, stands what stands for a secret. -/
def IsMasked (v : Json) : Prop :=
  ∀ key w, HasField v key w → isSensitive key = true → w = redactedMark

theorem isMasked_obj_cons {key : String} {v : Json} {rest : List (String × Json)} :
    IsMasked (.obj ((key, v) :: rest)) ↔
      (isSensitive key = true → v = redactedMark) ∧ IsMasked v ∧ IsMasked (.obj rest) := by
  constructor
  · refine fun h => ⟨fun hkey => h key v (.here List.mem_cons_self) hkey,
      fun other w hw => h other w (.inField List.mem_cons_self hw), fun other w hw => h other w ?_⟩
    cases hw with
    | here mem => exact .here (List.mem_cons_of_mem _ mem)
    | inField mem inside => exact .inField (List.mem_cons_of_mem _ mem) inside
  · rintro ⟨hown, hv, hrest⟩ other w hw
    cases hw with
    | here mem =>
      rcases List.mem_cons.mp mem with heq | mem
      · obtain ⟨rfl, rfl⟩ := Prod.mk.inj heq
        exact hown
      · exact hrest other w (.here mem)
    | inField mem inside =>
      rcases List.mem_cons.mp mem with rfl | mem
      · exact hv other w inside
      · exact hrest other w (.inField mem inside)

theorem isMasked_arr_cons {v : Json} {rest : List Json} :
    IsMasked (.arr (v :: rest)) ↔ IsMasked v ∧ IsMasked (.arr rest) := by
  constructor
  · refine fun h => ⟨fun key w hw => h key w (.inItem List.mem_cons_self hw),
      fun key w hw => h key w ?_⟩
    cases hw with
    | inItem mem inside => exact .inItem (List.mem_cons_of_mem _ mem) inside
  · rintro ⟨hv, hrest⟩ key w hw
    cases hw with
    | inItem mem inside =>
      rcases List.mem_cons.mp mem with rfl | mem
      · exact hv key w inside
      · exact hrest key w (.inItem mem inside)

theorem isMasked_obj_nil : IsMasked (.obj []) := by
  rintro key w (mem | mem)
  · exact absurd mem List.not_mem_nil
  · exact absurd mem List.not_mem_nil

theorem isMasked_arr_nil : IsMasked (.arr []) := by
  rintro key w (_ | _ | mem)
  exact absurd mem List.not_mem_nil

/-! ## Arrays in arrays -/

/-- An array that is an item of an array, where redaction comes to it: objects are gone through
outside their secrets, and arrays for the objects in them. -/
inductive Leaves : Json → List Json → Prop where
  | inField {fields : List (String × Json)} {field : String × Json} {array : List Json}
      (mem : field ∈ fields) (plain : isSensitive field.1 = false) (inside : Leaves field.2 array) :
      Leaves (.obj fields) array
  | inItem {items : List Json} {fields : List (String × Json)} {array : List Json}
      (mem : .obj fields ∈ items) (inside : Leaves (.obj fields) array) : Leaves (.arr items) array
  | item {items array : List Json} (mem : .arr array ∈ items) : Leaves (.arr items) array

/-- No array that redaction leaves as it is holds a secret. -/
def LeavesNoSecret (v : Json) : Prop :=
  ∀ array, Leaves v array → IsMasked (.arr array)

theorem leavesNoSecret_obj_cons {key : String} {v : Json} {rest : List (String × Json)} :
    LeavesNoSecret (.obj ((key, v) :: rest)) ↔
      (isSensitive key = false → LeavesNoSecret v) ∧ LeavesNoSecret (.obj rest) := by
  constructor
  · refine fun h => ⟨fun hkey array ha => h array (.inField List.mem_cons_self hkey ha),
      fun array ha => h array ?_⟩
    cases ha with
    | inField mem plain inside => exact .inField (List.mem_cons_of_mem _ mem) plain inside
  · rintro ⟨hv, hrest⟩ array ha
    cases ha with
    | inField mem plain inside =>
      rcases List.mem_cons.mp mem with rfl | mem
      · exact hv plain array inside
      · exact hrest array (.inField mem plain inside)

theorem leavesNoSecret_obj_nil : LeavesNoSecret (.obj []) := by
  rintro array (mem | _)
  exact absurd mem List.not_mem_nil

/-- What redaction leaves of an item of an array holds no secret: of an array this is the array. -/
def ItemLeavesNoSecret : Json → Prop
  | .obj fields => LeavesNoSecret (.obj fields)
  | .arr items => IsMasked (.arr items)
  | _ => True

theorem leavesNoSecret_arr_cons {v : Json} {rest : List Json} :
    LeavesNoSecret (.arr (v :: rest)) ↔ ItemLeavesNoSecret v ∧ LeavesNoSecret (.arr rest) := by
  constructor
  · refine fun h => ⟨?_, fun array ha => h array ?_⟩
    · cases v with
      | obj fields => exact fun array ha => h array (.inItem List.mem_cons_self ha)
      | arr items => exact h items (.item List.mem_cons_self)
      | _ => trivial
    · cases ha with
      | inItem mem inside => exact .inItem (List.mem_cons_of_mem _ mem) inside
      | item mem => exact .item (List.mem_cons_of_mem _ mem)
  · rintro ⟨hv, hrest⟩ array ha
    cases ha with
    | inItem mem inside =>
      rcases List.mem_cons.mp mem with rfl | mem
      · exact hv array inside
      · exact hrest array (.inItem mem inside)
    | item mem =>
      rcases List.mem_cons.mp mem with rfl | mem
      · exact hv
      · exact hrest array (.item mem)

theorem leavesNoSecret_arr_nil : LeavesNoSecret (.arr []) := by
  rintro array (_ | mem | mem)
  · exact absurd mem List.not_mem_nil
  · exact absurd mem List.not_mem_nil

/-! ## Secrets that are left -/

/-- An item of an array as it is put on record. -/
def redactItem : Json → Json
  | .obj fields => .obj (redact fields)
  | v => v

theorem redactItems_cons (v : Json) (rest : List Json) :
    redactItems (v :: rest) = redactItem v :: redactItems rest := by
  cases v <;> rfl

theorem isMasked_of_scalar {v : Json} (hfields : v.fields? = none) (hitems : v.items? = none) :
    IsMasked v := by
  rintro key w (_ | _ | _)
  · cases hfields
  · cases hfields
  · cases hitems

theorem leavesNoSecret_of_scalar {v : Json} (hfields : v.fields? = none)
    (hitems : v.items? = none) : LeavesNoSecret v := by
  rintro array (_ | _ | _)
  · cases hfields
  · cases hitems
  · cases hitems

mutual

theorem isMasked_redactValue_iff (v : Json) : IsMasked (redactValue v) ↔ LeavesNoSecret v := by
  match v with
  | .obj fields => exact isMasked_redact_iff fields
  | .arr items => exact isMasked_redactItems_iff items
  | .null | .bool _ | .int _ | .float _ | .str _ | .date _ =>
    exact iff_of_true (isMasked_of_scalar rfl rfl) (leavesNoSecret_of_scalar rfl rfl)

/-- No secret is left in the record of an object when none is in the arrays that are left. -/
theorem isMasked_redact_iff (fields : List (String × Json)) :
    IsMasked (.obj (redact fields)) ↔ LeavesNoSecret (.obj fields) := by
  match fields with
  | [] => exact iff_of_true isMasked_obj_nil leavesNoSecret_obj_nil
  | (key, v) :: rest =>
    rw [redact, isMasked_obj_cons, leavesNoSecret_obj_cons, isMasked_redact_iff rest]
    cases hkey : isSensitive key with
    | true =>
      have hmark : IsMasked redactedMark := isMasked_of_scalar rfl rfl
      simp [hmark]
    | false => simp [isMasked_redactValue_iff v]

theorem isMasked_redactItems_iff (items : List Json) :
    IsMasked (.arr (redactItems items)) ↔ LeavesNoSecret (.arr items) := by
  match items with
  | [] => exact iff_of_true isMasked_arr_nil leavesNoSecret_arr_nil
  | v :: rest =>
    have hitem : IsMasked (redactItem v) ↔ ItemLeavesNoSecret v := by
      match v with
      | .obj fields => exact isMasked_redact_iff fields
      | .arr items => exact Iff.rfl
      | .null | .bool _ | .int _ | .float _ | .str _ | .date _ =>
        exact iff_of_true (isMasked_of_scalar rfl rfl) trivial
    rw [redactItems_cons, isMasked_arr_cons, leavesNoSecret_arr_cons, hitem,
      isMasked_redactItems_iff rest]

end

/-! ## Payloads with one record -/

mutual

/-- The values differ in secrets only: in what stands under sensitive keys, at any depth. -/
inductive Alike : Json → Json → Prop where
  | same (v : Json) : Alike v v
  | obj {fields others : List (String × Json)} (h : AlikeFields fields others) :
      Alike (.obj fields) (.obj others)
  | arr {items others : List Json} (h : AlikeItems items others) : Alike (.arr items) (.arr others)

/-- The same field by field: a sensitive key may have any value in either. -/
inductive AlikeFields : List (String × Json) → List (String × Json) → Prop where
  | nil : AlikeFields [] []
  | secret {key : String} (v w : Json) {rest others : List (String × Json)}
      (sensitive : isSensitive key = true) (h : AlikeFields rest others) :
      AlikeFields ((key, v) :: rest) ((key, w) :: others)
  | plain (key : String) {v w : Json} {rest others : List (String × Json)} (value : Alike v w)
      (h : AlikeFields rest others) : AlikeFields ((key, v) :: rest) ((key, w) :: others)

/-- The same item by item. -/
inductive AlikeItems : List Json → List Json → Prop where
  | nil : AlikeItems [] []
  | cons {v w : Json} {rest others : List Json} (value : Alike v w) (h : AlikeItems rest others) :
      AlikeItems (v :: rest) (w :: others)

end

mutual

/-- Values without secrets that differ in secrets only are the same. -/
theorem eq_of_alike {v w : Json} (h : Alike v w) (hv : IsMasked v) (hw : IsMasked w) : v = w := by
  cases h with
  | same => rfl
  | obj h => exact congrArg Json.obj (eq_of_alikeFields h hv hw)
  | arr h => exact congrArg Json.arr (eq_of_alikeItems h hv hw)

theorem eq_of_alikeFields {fields others : List (String × Json)} (h : AlikeFields fields others)
    (hv : IsMasked (.obj fields)) (hw : IsMasked (.obj others)) : fields = others := by
  cases h with
  | nil => rfl
  | secret v w sensitive h =>
    obtain ⟨hown, -, hrest⟩ := isMasked_obj_cons.mp hv
    obtain ⟨hother, -, hothers⟩ := isMasked_obj_cons.mp hw
    rw [hown sensitive, hother sensitive, eq_of_alikeFields h hrest hothers]
  | plain key value h =>
    obtain ⟨-, hown, hrest⟩ := isMasked_obj_cons.mp hv
    obtain ⟨-, hother, hothers⟩ := isMasked_obj_cons.mp hw
    rw [eq_of_alike value hown hother, eq_of_alikeFields h hrest hothers]

theorem eq_of_alikeItems {items others : List Json} (h : AlikeItems items others)
    (hv : IsMasked (.arr items)) (hw : IsMasked (.arr others)) : items = others := by
  cases h with
  | nil => rfl
  | cons value h =>
    obtain ⟨hown, hrest⟩ := isMasked_arr_cons.mp hv
    obtain ⟨hother, hothers⟩ := isMasked_arr_cons.mp hw
    rw [eq_of_alike value hown hother, eq_of_alikeItems h hrest hothers]

end

mutual

theorem redactValue_eq_of_alike {v w : Json} (h : Alike v w) (hv : LeavesNoSecret v)
    (hw : LeavesNoSecret w) : redactValue v = redactValue w := by
  cases h with
  | same => rfl
  | obj h => exact congrArg Json.obj (redact_eq_of_alike h hv hw)
  | arr h => exact congrArg Json.arr (redactItems_eq_of_alike h hv hw)

/-- Objects that differ in secrets only have one record when no secret is in an array that is
left. -/
theorem redact_eq_of_alike {fields others : List (String × Json)} (h : AlikeFields fields others)
    (hv : LeavesNoSecret (.obj fields)) (hw : LeavesNoSecret (.obj others)) :
    redact fields = redact others := by
  cases h with
  | nil => rfl
  | secret v w sensitive h =>
    obtain ⟨-, hrest⟩ := leavesNoSecret_obj_cons.mp hv
    obtain ⟨-, hothers⟩ := leavesNoSecret_obj_cons.mp hw
    rw [redact, redact, if_pos sensitive, if_pos sensitive, redact_eq_of_alike h hrest hothers]
  | plain key value h =>
    obtain ⟨hown, hrest⟩ := leavesNoSecret_obj_cons.mp hv
    obtain ⟨hother, hothers⟩ := leavesNoSecret_obj_cons.mp hw
    rw [redact, redact, redact_eq_of_alike h hrest hothers]
    cases hkey : isSensitive key with
    | true => rfl
    | false => rw [redactValue_eq_of_alike value (hown hkey) (hother hkey)]

theorem redactItems_eq_of_alike {items others : List Json} (h : AlikeItems items others)
    (hv : LeavesNoSecret (.arr items)) (hw : LeavesNoSecret (.arr others)) :
    redactItems items = redactItems others := by
  cases h with
  | nil => rfl
  | cons value h =>
    obtain ⟨hown, hrest⟩ := leavesNoSecret_arr_cons.mp hv
    obtain ⟨hother, hothers⟩ := leavesNoSecret_arr_cons.mp hw
    rw [redactItems_cons, redactItems_cons, redactItems_eq_of_alike h hrest hothers]
    cases value with
    | same => rfl
    | obj h => rw [redactItem, redactItem, redact_eq_of_alike h hown hother]
    | arr h => rw [eq_of_alikeItems h hown hother]

end

mutual

theorem alike_of_redactValue_eq {v w : Json} (h : redactValue v = redactValue w) : Alike v w := by
  match v, w, h with
  | .obj fields, .obj others, h => exact .obj (alike_of_redact_eq (Json.obj.inj h))
  | .arr items, .arr others, h => exact .arr (alike_of_redactItems_eq (Json.arr.inj h))
  | .null, w, h | .bool _, w, h | .int _, w, h | .float _, w, h | .str _, w, h | .date _, w, h =>
    cases w <;> cases h
    exact .same _

/-- Objects with one record differ in secrets only. -/
theorem alike_of_redact_eq {fields others : List (String × Json)}
    (h : redact fields = redact others) : AlikeFields fields others := by
  match fields, others, h with
  | [], [], _ => exact .nil
  | (key, v) :: rest, (other, w) :: others, h =>
    rw [redact, redact, List.cons.injEq, Prod.mk.injEq] at h
    obtain ⟨⟨rfl, hvalue⟩, hrest⟩ := h
    cases hkey : isSensitive key with
    | true => exact .secret v w hkey (alike_of_redact_eq hrest)
    | false =>
      rw [hkey] at hvalue
      exact .plain key (alike_of_redactValue_eq hvalue) (alike_of_redact_eq hrest)

theorem alike_of_redactItems_eq {items others : List Json}
    (h : redactItems items = redactItems others) : AlikeItems items others := by
  match items, others, h with
  | [], [], _ => exact .nil
  | v :: rest, [], h =>
    rw [redactItems_cons] at h
    cases h
  | [], w :: others, h =>
    rw [redactItems_cons] at h
    cases h
  | v :: rest, w :: others, h =>
    rw [redactItems_cons, redactItems_cons, List.cons.injEq] at h
    obtain ⟨hitem, hrest⟩ := h
    refine .cons ?_ (alike_of_redactItems_eq hrest)
    match v, w, hitem with
    | .obj fields, .obj others, hitem => exact .obj (alike_of_redact_eq (Json.obj.inj hitem))
    | .arr _, w, hitem | .null, w, hitem | .bool _, w, hitem | .int _, w, hitem
    | .float _, w, hitem | .str _, w, hitem | .date _, w, hitem =>
      cases w <;> cases hitem
      exact .same _

end

/-! ## What is on record -/

/-- The record of a payload has no secret at any depth if and only if none is in an array that is an
item of an array. Payloads with one record differ in secrets only, and where no such array holds a
secret, payloads that differ in secrets only have one record. -/
theorem redact_hides_iff (fields others : List (String × Json)) :
    (IsMasked (.obj (redact fields)) ↔ LeavesNoSecret (.obj fields)) ∧
      (redact fields = redact others → Alike (.obj fields) (.obj others)) ∧
      (LeavesNoSecret (.obj fields) → LeavesNoSecret (.obj others) →
        (redact fields = redact others ↔ Alike (.obj fields) (.obj others))) := by
  have halike (h : redact fields = redact others) : Alike (.obj fields) (.obj others) :=
    .obj (alike_of_redact_eq h)
  refine ⟨isMasked_redact_iff fields, halike, fun hfields hothers => ⟨halike, fun h => ?_⟩⟩
  exact Json.obj.inj (redactValue_eq_of_alike h hfields hothers)

/-- A payload with a password in an object in an array, and with an array in it. -/
def accountPayload (password : String) : List (String × Json) :=
  [("users", .arr [.obj [("password", .str password)], .arr [.obj [("id", .int 1)]]])]

/-- Whatever the password is, the record is the same. -/
theorem redact_hides_iff_account :
    LeavesNoSecret (.obj (accountPayload "a")) ∧ LeavesNoSecret (.obj (accountPayload "b")) ∧
      Alike (.obj (accountPayload "a")) (.obj (accountPayload "b")) ∧
      redact (accountPayload "a") = redact (accountPayload "b") ∧
      IsMasked (.obj (redact (accountPayload "a"))) := by
  have hid : isSensitive "id" = false := by decide +kernel
  have hpassword : isSensitive "password" = true := by decide +kernel
  have hleaves (password : String) : LeavesNoSecret (.obj (accountPayload password)) := by
    have harray : IsMasked (.arr [.obj [("id", .int 1)]]) := by
      simp [isMasked_arr_cons, isMasked_obj_cons, isMasked_arr_nil, isMasked_obj_nil, hid,
        isMasked_of_scalar (v := .int 1) rfl rfl]
    simp [accountPayload, leavesNoSecret_obj_cons, leavesNoSecret_arr_cons, ItemLeavesNoSecret,
      leavesNoSecret_obj_nil, leavesNoSecret_arr_nil, hpassword, harray]
  have halike : Alike (.obj (accountPayload "a")) (.obj (accountPayload "b")) :=
    .obj (.plain "users" (.arr (.cons (.obj (.secret _ _ hpassword .nil))
      (.cons (.same _) .nil))) .nil)
  obtain ⟨hmasked, -, hsame⟩ := redact_hides_iff (accountPayload "a") (accountPayload "b")
  exact ⟨hleaves _, hleaves _, halike, (hsame (hleaves _) (hleaves _)).mpr halike,
    hmasked.mpr (hleaves _)⟩

/-- A payload with a token in an array in an array. -/
def gridPayload (token : String) : List (String × Json) :=
  [("rows", .arr [.arr [.obj [("token", .str token)]]])]

/-- The token is put on record, so that payloads that differ in it alone can be told apart. -/
theorem secret_left_in_nested_array :
    ¬IsMasked (.obj (redact (gridPayload "a"))) ∧
      Alike (.obj (gridPayload "a")) (.obj (gridPayload "b")) ∧
      redact (gridPayload "a") ≠ redact (gridPayload "b") := by
  have htoken : isSensitive "token" = true := by decide +kernel
  have hrecord (token : String) : redact (gridPayload token) = gridPayload token := by
    have hrows : isSensitive "rows" = false := by decide +kernel
    simp [gridPayload, redact, redactValue, redactItems, hrows]
  rw [hrecord, hrecord]
  refine ⟨fun hmasked => ?_, ?_, by simp [gridPayload]⟩
  · have hleft : HasField (.obj (gridPayload "a")) "token" (.str "a") :=
      .inField List.mem_cons_self (.inItem List.mem_cons_self (.inItem List.mem_cons_self
        (.here List.mem_cons_self)))
    simpa [redactedMark] using hmasked _ _ hleft htoken
  · have hobject : Alike (.obj [("token", .str "a")]) (.obj [("token", .str "b")]) :=
      .obj (.secret _ _ htoken .nil)
    exact .obj (.plain "rows" (.arr (.cons (.arr (.cons hobject .nil)) .nil)) .nil)

end Toolgate.Call
