import Toolgate.Proofs.Decimal.Digits
import Toolgate.Proofs.Http.Target

/-!
# Queries of requests

The query of a call is written as a form. Whatever its keys and values hold, the separators of the
form and the marks that end a query stand in neither, so that the form taken from the text of the
URL reads back as the pairs that were written, in their order.

## Main definitions

* `formPairs?`: the pairs that a form stands for
* `queryOf?`: the query in the text of a URL
* `PairsOf`, `TextOf`: the pairs that arguments come to in a query, and the text of one argument

## Main statements

* `formPairs?_formEncoded`: a form reads back as the pairs it was made of
* `Url.IsClear.queryOf?_text`: the query is found in the text of a URL
-/

namespace Toolgate.Http

open Text (splitAt percent isUnreserved isEncodedChar formText)

/-! ## Reading a form -/

/-- In a form a plus sign stands for a blank. -/
def plusAsBlank (c : Char) : Char :=
  if c == '+' then ' ' else c

/-- The text that a key or value of a form stands for, where it is percent-encoded UTF-8. -/
def formValue? (cs : List Char) : Option String :=
  (segmentText? (cs.map plusAsBlank)).map String.ofList

/-- The pair that a piece of a form stands for; without an equals sign the value is empty. -/
def formPair? (piece : List Char) : Option (String × String) := do
  let (key, value) := cutAt '=' piece
  return (← formValue? key, ← formValue? (value.getD []))

/-- The pairs that a form stands for, in order. Empty pieces are passed over. -/
def formPairs? (cs : List Char) : Option (List (String × String)) :=
  ((splitAt '&' cs).filter (!·.isEmpty)).mapM formPair?

/-! ## Forms read back -/

theorem eq_or_isEncodedChar_of_mem_formText {s : String} {c : Char} (h : c ∈ formText s) :
    c = '+' ∨ isEncodedChar c = true := by
  rw [formText, List.mem_flatMap] at h
  obtain ⟨d, -, hc⟩ := h
  split_ifs at hc with hblank hkept
  · exact .inl (List.mem_singleton.mp hc)
  · rw [List.mem_singleton.mp hc]
    simp [isEncodedChar, hkept]
  · exact .inr (Text.isEncodedChar_of_mem_percentChar c hc)

/-- What separates pairs, and what ends a query, stands in no key or value. -/
theorem notMem_formText {mark : Char} (hplus : mark ≠ '+') (hmark : isEncodedChar mark = false)
    (s : String) : mark ∉ formText s := by
  intro h
  rcases eq_or_isEncodedChar_of_mem_formText h with heq | hencoded
  · exact hplus heq
  · simp [hmark] at hencoded

theorem map_plusAsBlank_percentChar (c : Char) :
    (Text.percentChar c).map plusAsBlank = Text.percentChar c := by
  have hplain : ∀ d ∈ Text.percentChar c, plusAsBlank d = id d := by
    intro d hd
    have hplus : d ≠ '+' := by
      rintro rfl
      exact absurd (Text.isEncodedChar_of_mem_percentChar _ hd) (by decide)
    simp [plusAsBlank, hplus]
  rw [List.map_congr_left hplain, List.map_id]

theorem percentDecoded_formText (s : String) :
    Url.percentDecoded ((formText s).map plusAsBlank) = s.toList.flatMap Text.utf8Bytes := by
  rw [formText]
  induction s.toList with
  | nil => rfl
  | cons c cs ih =>
    rw [List.flatMap_cons, List.flatMap_cons, List.map_append]
    split_ifs with hblank hkept
    · obtain rfl := beq_iff_eq.mp hblank
      have hread := percentDecoded_cons_of_ne (c := ' ') (by decide)
        ((cs.flatMap fun c => if c == ' ' then ['+'] else if isUnreserved c then [c] else
          Text.percentChar c).map plusAsBlank)
      rw [ih] at hread
      exact hread
    · have hmap : [c].map plusAsBlank = [c] := by
        have hplus : c ≠ '+' := by
          rintro rfl
          exact absurd hkept (by decide)
        simp [plusAsBlank, hplus]
      have hsign : c ≠ '%' := by
        rintro rfl
        exact absurd hkept (by decide)
      rw [hmap, List.singleton_append, percentDecoded_cons_of_ne hsign, ih]
    · rw [map_plusAsBlank_percentChar, percentDecoded_percentChar_append, ih]

/-- A key or value is read back, whatever it holds. -/
theorem formValue?_formText (s : String) : formValue? (formText s) = some s := by
  rw [formValue?, segmentText?, percentDecoded_formText, Text.strict?_utf8_flatMap,
    Option.map_some, String.ofList_toList]

theorem cutAt_append_cons {sep : Char} {front : List Char} (h : sep ∉ front) (rest : List Char) :
    cutAt sep (front ++ sep :: rest) = (front, some rest) := by
  have hhead : (front ++ sep :: rest).takeWhile (· != sep) = front := by
    rw [List.takeWhile_append_of_pos]
    · simp
    · intro c hc
      simpa using fun heq : c = sep => h (heq ▸ hc)
  simp [cutAt, hhead]

/-- A pair as a piece of a form. -/
def formPiece (pair : String × String) : List Char :=
  formText pair.1 ++ '=' :: formText pair.2

theorem formPair?_formPiece (pair : String × String) : formPair? (formPiece pair) = some pair := by
  have hcut : cutAt '=' (formPiece pair) = (formText pair.1, some (formText pair.2)) :=
    cutAt_append_cons (notMem_formText (by decide) (by decide) pair.1) _
  rw [formPair?, hcut]
  simp [formValue?_formText]

theorem notMem_formPiece {mark : Char} (hplus : mark ≠ '+') (hequals : mark ≠ '=')
    (hmark : isEncodedChar mark = false) (pair : String × String) : mark ∉ formPiece pair := by
  simp [formPiece, hequals, notMem_formText hplus hmark]

/-- A form reads back as the pairs it was made of. -/
theorem formPairs?_formEncoded (pairs : List (String × String)) :
    formPairs? (formEncoded pairs) = some pairs := by
  have hpieces : formEncoded pairs = List.intercalate ['&'] (pairs.map formPiece) := rfl
  have hread : (pairs.map formPiece).mapM formPair? = some pairs := by
    rw [List.mapM_map, show formPair? ∘ formPiece = some from funext formPair?_formPiece]
    simpa using List.mapM_pure (m := Option) (f := id) (l := pairs)
  cases pairs with
  | nil => rfl
  | cons first rest =>
    rw [formPairs?, hpieces, Text.splitAt_intercalate (by simp), List.filter_eq_self.mpr, hread]
    · intro piece hpiece
      obtain ⟨pair, -, rfl⟩ := List.mem_map.mp hpiece
      simp [formPiece]
    · intro piece hpiece
      obtain ⟨pair, -, rfl⟩ := List.mem_map.mp hpiece
      exact notMem_formPiece (by decide) (by decide) (by decide) pair

theorem notMem_formEncoded {mark : Char} (hplus : mark ≠ '+') (hequals : mark ≠ '=')
    (hand : mark ≠ '&') (hmark : isEncodedChar mark = false) (pairs : List (String × String)) :
    mark ∉ formEncoded pairs := by
  have hpieces : formEncoded pairs = List.intercalate ['&'] (pairs.map formPiece) := rfl
  rw [hpieces]
  intro h
  rcases Text.mem_of_mem_intercalate h with ⟨piece, hpiece, hmem⟩ | hmem
  · obtain ⟨pair, -, rfl⟩ := List.mem_map.mp hpiece
    exact notMem_formPiece hplus hequals hmark pair hmem
  · exact hand (List.mem_singleton.mp hmem)

/-! ## Marks in a URL -/

/-- The text holds none of the marks that end the path of a URL, or its query. -/
def IsUnmarked (cs : List Char) : Prop :=
  '?' ∉ cs ∧ '#' ∉ cs

instance (cs : List Char) : Decidable (IsUnmarked cs) :=
  inferInstanceAs (Decidable ('?' ∉ cs ∧ '#' ∉ cs))

theorem IsUnmarked.of_subset {cs other : List Char} (h : IsUnmarked cs) (hsub : other ⊆ cs) :
    IsUnmarked other :=
  ⟨fun hmark => h.1 (hsub hmark), fun hmark => h.2 (hsub hmark)⟩

theorem isUnmarked_append {front back : List Char} :
    IsUnmarked (front ++ back) ↔ IsUnmarked front ∧ IsUnmarked back := by
  simp only [IsUnmarked, List.mem_append, not_or]
  tauto

theorem isUnmarked_cons {c : Char} {cs : List Char} :
    IsUnmarked (c :: cs) ↔ (c ≠ '?' ∧ c ≠ '#') ∧ IsUnmarked cs := by
  simp only [IsUnmarked, List.mem_cons, not_or, ne_comm (a := c)]
  tauto

theorem isUnmarked_nil : IsUnmarked [] := by
  decide

/-- What is encoded holds no mark, unless marks are kept. -/
theorem isUnmarked_percent {kept : Char → Bool} (hquestion : kept '?' = false)
    (hnumber : kept '#' = false) (cs : List Char) : IsUnmarked (percent kept cs) := by
  have hmark (mark : Char) (hkept : kept mark = false) (hencoded : isEncodedChar mark = false) :
      mark ∉ percent kept cs := by
    intro h
    obtain ⟨c, -, hc⟩ := List.mem_flatMap.mp h
    split_ifs at hc with hc'
    · rw [← List.mem_singleton.mp hc, hkept] at hc'
      cases hc'
    · have := Text.isEncodedChar_of_mem_percentChar mark hc
      simp [hencoded] at this
  exact ⟨hmark '?' hquestion (by decide), hmark '#' hnumber (by decide)⟩

theorem mem_of_mem_cutAtLast {sep : Char} {cs before after : List Char}
    (h : cutAtLast sep cs = some (before, after)) : before ⊆ cs ∧ after ⊆ cs := by
  simp only [cutAtLast] at h
  split_ifs at h
  obtain ⟨rfl, rfl⟩ := Prod.mk.inj (Option.some.inj h)
  refine ⟨fun c hc => List.mem_of_mem_take (List.mem_of_mem_dropLast hc), fun c hc => ?_⟩
  rw [List.mem_reverse] at hc
  exact List.mem_reverse.mp ((List.takeWhile_sublist _).subset hc)

theorem isUnmarked_cutHost {cs : List Char} (h : IsUnmarked cs) : IsUnmarked (cutHost cs).1 := by
  unfold cutHost
  split
  · next before rest hcut =>
    rw [isUnmarked_append]
    exact ⟨h.of_subset (mem_of_mem_cutAtLast hcut).1, by simp [IsUnmarked]⟩
  · exact h.of_subset (List.takeWhile_sublist _).subset

theorem isSchemeChar_of_mem_cutScheme {cs : List Char} :
    ∀ c ∈ (cutScheme cs).1, isSchemeChar c = true := by
  intro c hc
  rw [cutScheme] at hc
  split at hc
  · split_ifs at hc
    · exact List.mem_takeWhile_imp hc
    · simp at hc
  · simp at hc

theorem isUnmarked_cutAuthority (cs : List Char) : IsUnmarked (cutAuthority cs).1 := by
  unfold cutAuthority
  split
  · constructor
    · exact fun h => absurd (List.mem_takeWhile_imp h) (by decide)
    · exact fun h => absurd (List.mem_takeWhile_imp h) (by decide)
  · exact isUnmarked_nil

/-- What is left of an authority behind the user holds nothing new. -/
theorem cutAtLast_getD_subset (sep : Char) (cs : List Char) :
    ((cutAtLast sep cs).getD ([], cs)).2 ⊆ cs := by
  cases h : cutAtLast sep cs with
  | none => exact List.Subset.refl cs
  | some parts => exact (mem_of_mem_cutAtLast h).2

theorem isUnmarked_of_readPath {hasScheme hasAuthority : Bool} {cs path : List Char}
    (h : readPath hasScheme hasAuthority cs = .ok path) : IsUnmarked path := by
  unfold readPath at h
  split_ifs at h
  all_goals
    rw [← Except.ok.inj h]
    exact isUnmarked_percent (by decide) (by decide) _

/-- A host holds no mark when the text that it is read from holds none. -/
theorem isUnmarked_of_readHost {cs : List Char} {host : String} (hcs : IsUnmarked cs)
    (h : readHost cs = .ok host) : IsUnmarked host.toList := by
  simp only [readHost] at h
  split_ifs at h with hempty hlooks hfour hbrackets hsix hascii
  · rw [← Except.ok.inj h]
    decide
  · rw [← Except.ok.inj h, String.toList_ofList]
    exact hcs
  · rw [← Except.ok.inj h, String.toList_ofList]
    exact hcs.of_subset fun c hc => List.mem_of_mem_drop (List.mem_of_mem_dropLast hc)
  · rw [← Except.ok.inj h, String.toList_ofList]
    exact isUnmarked_percent (by decide) (by decide) _

theorem isUnmarked_intText (n : Int) : IsUnmarked (Decimal.intText n).toList := by
  have hdigits (n : Nat) : IsUnmarked (Decimal.natDigits n) := by
    constructor
    · exact fun h => absurd (Decimal.isAsciiDigit_of_mem_natDigits _ h) (by decide)
    · exact fun h => absurd (Decimal.isAsciiDigit_of_mem_natDigits _ h) (by decide)
  rw [Decimal.intText, String.toList_ofList, Decimal.intDigits]
  split
  · exact isUnmarked_cons.mpr ⟨by decide, hdigits _⟩
  · exact hdigits _

theorem isUnmarked_lower_of_isSchemeChar {cs : List Char} (h : ∀ c ∈ cs, isSchemeChar c = true) :
    IsUnmarked (Text.lower (String.ofList cs)).toList := by
  rw [Text.toList_lower_of_ascii fun c hc => toNat_lt_of_isSchemeChar (h c hc)]
  have hlower : ∀ n < 128, isSchemeChar (Char.ofNat n) = true →
      (Char.ofNat n).toLower ≠ '?' ∧ (Char.ofNat n).toLower ≠ '#' := by
    decide +kernel
  have hmark : ∀ c ∈ cs, c.toLower ≠ '?' ∧ c.toLower ≠ '#' := by
    intro c hc
    have := hlower c.toNat (toNat_lt_of_isSchemeChar (h c hc))
    rw [Char.ofNat_toNat] at this
    exact this (h c hc)
  simp only [IsUnmarked, List.mem_map, not_exists, not_and]
  exact ⟨fun c hc => (hmark c hc).1, fun c hc => (hmark c hc).2⟩

/-! ## The query in a URL -/

/-- The query in the text of a URL: what stands between the first question mark and the fragment. -/
def queryOf? (url : String) : Option (List Char) :=
  (cutAt '?' (cutAt '#' url.toList).1).2

/-- No mark stands in what comes before the query of a URL. -/
structure Url.IsClear (url : Url) : Prop where
  scheme : IsUnmarked url.scheme.toList
  authority : IsUnmarked url.authority.toList
  path : IsUnmarked url.path

theorem Url.isUnmarked_authority {url : Url} (huser : IsUnmarked url.userinfo.toList)
    (hhost : IsUnmarked url.host.toList) : IsUnmarked url.authority.toList := by
  rw [authority, String.toList_append, String.toList_append, isUnmarked_append, isUnmarked_append]
  refine ⟨⟨?_, ?_⟩, ?_⟩
  · split_ifs
    · decide
    · rw [String.toList_append, isUnmarked_append]
      exact ⟨huser, by decide⟩
  · split_ifs
    · rw [String.toList_append, String.toList_append, isUnmarked_append, isUnmarked_append]
      exact ⟨⟨by decide, hhost⟩, by decide⟩
    · exact hhost
  · split
    · rw [String.toList_append, isUnmarked_append]
      exact ⟨by decide, isUnmarked_intText _⟩
    · decide

/-- What comes before the query of a URL. -/
def Url.front (url : Url) : List Char :=
  (if url.scheme.isEmpty then [] else url.scheme.toList ++ [':'])
    ++ (if url.authority.isEmpty then [] else '/' :: '/' :: url.authority.toList) ++ url.path

theorem Url.IsClear.isUnmarked_front {url : Url} (h : url.IsClear) : IsUnmarked url.front := by
  rw [front, isUnmarked_append, isUnmarked_append]
  refine ⟨⟨?_, ?_⟩, h.path⟩
  · split_ifs
    · exact isUnmarked_nil
    · exact isUnmarked_append.mpr ⟨h.scheme, by decide⟩
  · split_ifs
    · exact isUnmarked_nil
    · simpa [isUnmarked_cons] using h.authority

/-- Every URL that is read is clear. -/
theorem Url.isClear_of_read {s : String} {url : Url} (h : Url.read s = .ok url) : url.IsClear := by
  unfold Url.read at h
  simp only at h
  split at h
  · cases h
  split at h
  · cases h
  obtain ⟨host, hhost, h⟩ := bind_eq_ok.mp h
  obtain ⟨port, -, h⟩ := bind_eq_ok.mp h
  obtain ⟨path, hpath, h⟩ := bind_eq_ok.mp h
  obtain rfl := Except.ok.inj h
  refine ⟨isUnmarked_lower_of_isSchemeChar isSchemeChar_of_mem_cutScheme,
    isUnmarked_authority ?_ ?_, ?_⟩
  · rw [String.toList_ofList]
    exact isUnmarked_percent (by decide) (by decide) _
  · refine isUnmarked_of_readHost (isUnmarked_cutHost ?_) hhost
    exact (isUnmarked_cutAuthority _).of_subset (cutAtLast_getD_subset '@' _)
  · exact isUnmarked_of_readPath hpath

theorem Url.IsClear.rooted {url : Url} (h : url.IsClear) : url.rooted.IsClear := by
  rw [Url.rooted]
  split
  · exact h
  · have hnone : IsUnmarked "".toList := by decide
    refine ⟨hnone, Url.isUnmarked_authority hnone hnone, ?_⟩
    refine isUnmarked_cons.mpr ⟨by decide, h.path.of_subset ?_⟩
    exact (List.dropWhile_suffix _).subset

theorem Url.IsClear.withQuery {url : Url} (h : url.IsClear) (query : List Char) :
    (url.withQuery query).IsClear :=
  ⟨h.scheme, h.authority, h.path⟩

/-- The query is found in the text of a URL. -/
theorem Url.IsClear.queryOf?_text {url : Url} (h : url.IsClear) {query : List Char}
    (hquery : url.query = some query) (hnumber : '#' ∉ query) : queryOf? url.text = some query := by
  obtain ⟨front, hfront, htext⟩ : ∃ front, IsUnmarked front ∧ url.text.toList =
      front ++ '?' :: query ++ (url.fragment.elim [] ('#' :: ·)) := by
    refine ⟨url.front, h.isUnmarked_front, ?_⟩
    rw [Url.text, Url.front, hquery]
    cases url.fragment <;> simp [apply_ite String.toList]
  have hclear : '#' ∉ front ++ '?' :: query := by
    simp [hfront.2, hnumber]
  have hcut : (cutAt '#' url.text.toList).1 = front ++ '?' :: query := by
    rw [htext]
    cases url.fragment with
    | none => rw [Option.elim_none, List.append_nil, cutAt_of_notMem hclear]
    | some fragment => rw [Option.elim_some, cutAt_append_cons hclear]
  rw [queryOf?, hcut, cutAt_append_cons hfront.1]

/-! ## Arguments in a query -/

/-- The text of an argument: texts as they are, arrays and objects as JSON. -/
inductive TextOf : Json → String → Prop
  | null : TextOf .null "None"
  | truth : TextOf (.bool true) "true"
  | falsity : TextOf (.bool false) "false"
  | integer (n : Int) : TextOf (.int n) (Decimal.intText n)
  | number (x : Float) : TextOf (.float x) (Decimal.plain.text x)
  | text (s : String) : TextOf (.str s) s
  | date (s : String) : TextOf (.date s) s
  | array (items : List Json) : TextOf (.arr items) ((Json.arr items).print Json.spaced)
  | object (fields : Call.Fields) : TextOf (.obj fields) ((Json.obj fields).print Json.spaced)

theorem textOf_argumentText (v : Json) : TextOf v (argumentText v) := by
  cases v with
  | bool b =>
    cases b with
    | true => exact .truth
    | false => exact .falsity
  | null => exact .null
  | int n => exact .integer n
  | float x => exact .number x
  | str s => exact .text s
  | date s => exact .date s
  | arr items => exact .array items
  | obj fields => exact .object fields

/-- The pairs that fields come to in a query, in their order: one for each item of an array, and
one for every other value. -/
inductive PairsOf : Call.Fields → List (String × String) → Prop
  | nil : PairsOf [] []
  | array {key : String} {items : List Json} {texts : List String} {rest : Call.Fields}
      {pairs : List (String × String)} (texts_of : List.Forall₂ TextOf items texts)
      (rest_of : PairsOf rest pairs) :
      PairsOf ((key, .arr items) :: rest) (texts.map (key, ·) ++ pairs)
  | single {key text : String} {v : Json} {rest : Call.Fields} {pairs : List (String × String)}
      (no_array : v.items? = none) (text_of : TextOf v text) (rest_of : PairsOf rest pairs) :
      PairsOf ((key, v) :: rest) ((key, text) :: pairs)

/-- No other text is that of an argument. -/
theorem TextOf.eq_argumentText {v : Json} {text : String} (h : TextOf v text) :
    text = argumentText v := by
  cases h <;> rfl

theorem pairsOf_queryPairs (query : Call.Fields) : PairsOf query (queryPairs query) := by
  induction query with
  | nil => exact .nil
  | cons field rest ih =>
    obtain ⟨key, v⟩ := field
    cases v with
    | arr items =>
      have htexts : List.Forall₂ TextOf items (items.map argumentText) := by
        rw [List.forall₂_map_right_iff, List.forall₂_same]
        exact fun item _ => textOf_argumentText item
      have hpairs : PairsOf ((key, .arr items) :: rest) _ := .array htexts ih
      rw [List.map_map] at hpairs
      exact hpairs
    | _ => exact .single rfl (textOf_argumentText _) ih

/-- No other pairs are those of a query. -/
theorem PairsOf.eq_queryPairs {query : Call.Fields} {pairs : List (String × String)}
    (h : PairsOf query pairs) : pairs = queryPairs query := by
  induction h with
  | nil => rfl
  | @array key items texts rest pairs htexts _ ih =>
    have hargument : texts = items.map argumentText := by
      induction htexts with
      | nil => rfl
      | cons htext _ ih => rw [List.map_cons, htext.eq_argumentText, ih]
    rw [hargument, ih, List.map_map]
    rfl
  | @single key text v rest pairs hv htext _ ih =>
    rw [ih, htext.eq_argumentText]
    cases v with
    | arr items => simp [Json.items?] at hv
    | _ => rfl

/-! ## The query of what is sent -/

/-- A query that is given is put into the URL of a call as a form. -/
theorem exists_withQuery_of_url {client : Client} {path : String} {parts : Call.Parts}
    {fields : Call.Fields} {url : Url} (hquery : parts.query = some fields) (hne : fields ≠ [])
    (h : client.url path parts = .ok url) :
    ∃ filled : Url, filled.IsClear ∧ url = filled.withQuery (formEncoded (queryPairs fields)) := by
  obtain ⟨filled, hfilled, rfl⟩ := map_eq_ok.mp h
  have hgiven : givenQuery? parts = some (formEncoded (queryPairs fields)) := by
    obtain ⟨field, rest, rfl⟩ := List.exists_cons_of_ne_nil hne
    rw [givenQuery?, hquery]
  rw [hgiven]
  refine ⟨filled, ?_, rfl⟩
  unfold Client.filledUrl at hfilled
  split at hfilled
  · cases hfilled
  · next read hread =>
    split at hfilled
    · cases hfilled
    · rw [← Except.ok.inj hfilled]
      exact (Url.isClear_of_read hread).rooted

/-- Of a URL only its user counts for the authorization. -/
theorem Client.authorization_congr {client : Client} {url other : Url}
    (h : url.userinfo = other.userinfo) : client.authorization url = client.authorization other := by
  have hbasic : url.basicAuthorization? = other.basicAuthorization? := by
    rw [Url.basicAuthorization?, Url.basicAuthorization?, h]
  rw [authorization, authorization, hbasic]

/-- A call that is sent without its query is sent with it, and as it was but for its URL, unless a
part of that URL is too long. -/
theorem Client.prepare_of_prepare_bare {client : Client} {method path : String} {parts : Call.Parts}
    {bare : Request} (h : client.prepare method path { parts with query := none } = .ok bare) :
    (∃ url, client.prepare method path parts = .ok { bare with url }) ∨
      ∃ part, client.prepare method path parts = .error (.url (.partTooLong part)) := by
  have hfilledUrl : client.filledUrl path { parts with query := none } =
      client.filledUrl path parts := by
    simp only [Client.filledUrl]
  have hbare : givenQuery? { parts with query := none } = none := rfl
  unfold Client.prepare Client.url at h ⊢
  rw [hfilledUrl, hbare] at h
  cases hfilled : client.filledUrl path parts with
  | error cause => simp [hfilled, Except.map] at h
  | ok filled =>
    have hauthorization (query : List Char) :
        client.authorization (filled.withQuery query) = client.authorization filled :=
      authorization_congr rfl
    simp only [hfilled, Except.map, Option.elim_none, Option.bind_none] at h ⊢
    cases hgiven : givenQuery? parts with
    | none => exact .inl ⟨bare.url, h⟩
    | some query =>
      simp only [Option.elim_some, Option.bind_some, hauthorization]
      cases hheader : client.authorization filled with
      | error cause => simp [hheader] at h
      | ok authorization =>
        simp only [hheader] at h ⊢
        cases (filled.withQuery query).overlongPart? with
        | some part => exact .inr ⟨part, rfl⟩
        | none =>
          refine .inl ⟨(filled.withQuery query).text, ?_⟩
          split_ifs at h ⊢ <;> rw [← Except.ok.inj h]

/-- The query of what is sent reads back as the pairs that its arguments come to, whatever their
keys and values hold. Nothing else of a request depends on the query, nor does it keep one from
being sent, unless a part of the URL is too long. -/
theorem query_reads_back {client : Client} {method path : String} {parts : Call.Parts}
    {fields : Call.Fields} (hquery : parts.query = some fields) (hne : fields ≠ [])
    (reply : Reply) : ∃ pairs, PairsOf fields pairs ∧
      (∀ request ∈ (client.perform method path parts reply).1,
        (queryOf? request.url).bind formPairs? = some pairs) ∧
      ∀ bare ∈ (client.perform method path { parts with query := none } reply).1,
        (∃ url, (client.perform method path parts reply).1 = [{ bare with url }]) ∨
          ∃ part, (client.perform method path parts reply).2 =
            .error (.url (.partTooLong part)) := by
  refine ⟨queryPairs fields, pairsOf_queryPairs fields, ?_, ?_⟩
  · intro request hsent
    obtain ⟨url, hurl, htext⟩ := Client.exists_url_of_sent hsent
    obtain ⟨filled, hclear, rfl⟩ := exists_withQuery_of_url hquery hne hurl
    have hnumber : '#' ∉ formEncoded (queryPairs fields) :=
      notMem_formEncoded (by decide) (by decide) (by decide) (by decide) _
    rw [htext, (hclear.withQuery _).queryOf?_text rfl hnumber, Option.bind_some,
      formPairs?_formEncoded]
  · intro bare hbare
    unfold Client.perform at hbare ⊢
    split at hbare
    · simp at hbare
    · next request hrequest =>
      obtain rfl := List.mem_singleton.mp hbare
      rcases Client.prepare_of_prepare_bare hrequest with ⟨url, hsent⟩ | ⟨part, htooLong⟩
      · rw [hsent]
        exact .inl ⟨url, rfl⟩
      · rw [htooLong]
        exact .inr ⟨part, rfl⟩

/-- Separators, marks and letters of any script in keys and values, and an array without items; the
query that the template holds gives way. -/
theorem query_reads_back_marks :
    let client : Client := { baseUrl := "https://api.example.com" }
    let parts : Call.Parts := { query := some [("a&b=", .str "x=1&y=+%41#?"), ("none", .arr []),
      ("é", .arr [.bool true, .obj [("k", .arr [.int 1])], .null])] }
    ∃ request, (client.perform "get" "/items?old=1#top" parts .timedOut).1 = [request] ∧
      (queryOf? request.url).bind formPairs? = some [("a&b=", "x=1&y=+%41#?"), ("é", "true"),
        ("é", "\x7b\"k\": [1]\x7d"), ("é", "None")] := by
  intro client parts
  obtain ⟨pairs, hpairs, hread, -⟩ := @query_reads_back client "get" "/items?old=1#top" parts _
    rfl (List.cons_ne_nil _ _) .timedOut
  obtain ⟨request, hrequest, -⟩ := exists_eq_ok
    (x := client.prepare "get" "/items?old=1#top" parts) (fun _ => true) (by decide +kernel)
  have hsent : (client.perform "get" "/items?old=1#top" parts .timedOut).1 = [request] := by
    rw [Client.perform, hrequest]
  refine ⟨request, hsent, ?_⟩
  rw [hread request (hsent ▸ List.mem_cons_self), hpairs.eq_queryPairs]
  decide +kernel

end Toolgate.Http
