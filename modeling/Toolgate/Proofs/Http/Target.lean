import Toolgate.Http.Client
import Toolgate.Proofs.Call.Assembly
import Toolgate.Proofs.Call.Template
import Toolgate.Proofs.Http.Address

/-!
# Filled templates

Filling in a template fills in each of its segments on its own, because an encoded value holds no
slash. A segment that is a placeholder becomes the encoded value, and a segment without placeholders
stays. An encoded value holds no brace either, so that no value is filled into another.

## Main definitions

* `encoded`: an argument as it is filled in
* `fillChars`: the characters of a filled template

## Main statements

* `splitAt_fillChars`, `fillChars_placeholder`: what a filled template consists of
* `text_of_encoded`: an encoded argument is read as its text
* `isDots_encoded_iff`: which arguments are resolved away
* `Braced.placeholdersFrom_fillChars`: what is left to be filled in
-/

namespace Toolgate.Http

open Call (placeholder placeholdersFrom isBrace IsName Braced)
open Text (splitAt percent isUnreserved isEncodedChar replaceAll)

/-! ## Encoded arguments -/

/-- An argument as it is filled in. -/
def encoded (v : Json) : List Char :=
  percent isUnreserved (argumentText v).toList

/-- A character that stands for itself in a path and has no meaning in a template or a URL. -/
def isInert (c : Char) : Bool :=
  isPathChar c && !isBrace c && c != '/' && c != '?' && c != '#'

theorem isInert_of_isEncodedChar {c : Char} (h : isEncodedChar c = true) : isInert c = true := by
  simp only [isEncodedChar, Bool.or_eq_true, beq_iff_eq] at h
  rcases h with rfl | h
  · decide
  · exact Text.of_isUnreserved (by decide +kernel) h

section
variable {v : Json}

theorem isInert_of_mem_encoded : ∀ c ∈ encoded v, isInert c = true := fun c hc =>
  isInert_of_isEncodedChar (Text.isEncodedChar_of_mem_percent c hc)

theorem not_isBrace_of_mem_encoded : ∀ c ∈ encoded v, isBrace c = false := by
  intro c hc
  have := isInert_of_mem_encoded c hc
  simp_all [isInert]

theorem slash_notMem_encoded : '/' ∉ encoded v := fun h =>
  absurd (isInert_of_mem_encoded '/' h) (by decide)

/-- An encoded argument is not encoded again. -/
theorem percent_encoded : percent isPathChar (encoded v) = encoded v := by
  refine Text.percent_eq_self fun c hc => ?_
  have := isInert_of_mem_encoded c hc
  simp_all [isInert]

/-- Only the texts `.` and `..` are resolved away. -/
theorem isDots_encoded_iff :
    IsDots (encoded v) ↔ argumentText v = "." ∨ argumentText v = ".." := by
  have hencoded (s : String) (hs : percent isUnreserved s.toList = s.toList)
      (hplain : '%' ∉ s.toList) : encoded v = s.toList ↔ argumentText v = s := by
    constructor
    · intro h
      exact String.toList_inj.mp (Text.eq_of_percent_eq h hplain)
    · intro h
      rw [encoded, h, hs]
  exact or_congr (hencoded "." (by decide) (by decide)) (hencoded ".." (by decide) (by decide))

end

/-! ## Reading an encoded argument -/

theorem percentDecoded_percentByte_append {n : ℕ} (h : n < 256) (rest : List Char) :
    Url.percentDecoded (Text.percentByte n ++ rest) = n :: Url.percentDecoded rest := by
  have hvalue : n / 16 % 16 * 16 + n % 16 = n := by omega
  rw [Text.percentByte, List.cons_append, List.cons_append, List.cons_append, List.nil_append,
    Url.percentDecoded, Text.hexValue?_capitalHex (by omega), Text.hexValue?_capitalHex (by omega)]
  exact congrArg (· :: _) hvalue

theorem percentDecoded_percentChar_append (c : Char) (rest : List Char) :
    Url.percentDecoded (Text.percentChar c ++ rest) =
      Text.utf8Bytes c ++ Url.percentDecoded rest := by
  have hbytes (bytes : Text.Bytes) (h : ∀ n ∈ bytes, n < 256) :
      Url.percentDecoded (bytes.flatMap Text.percentByte ++ rest) =
        bytes ++ Url.percentDecoded rest := by
    induction bytes with
    | nil => rfl
    | cons n bytes ih =>
      rw [List.flatMap_cons, List.append_assoc,
        percentDecoded_percentByte_append (h n List.mem_cons_self),
        ih fun n hn => h n (List.mem_cons_of_mem _ hn)]
      rfl
  exact hbytes _ fun n hn => Text.lt_of_mem_utf8Bytes hn

/-- Every character but the percent sign stands for its bytes. -/
theorem percentDecoded_cons_of_ne {c : Char} (h : c ≠ '%') (rest : List Char) :
    Url.percentDecoded (c :: rest) = Text.utf8Bytes c ++ Url.percentDecoded rest := by
  rw [Url.percentDecoded]
  exact fun _ _ _ hsame _ => h hsame

theorem percentDecoded_percent (cs : List Char) :
    Url.percentDecoded (percent isUnreserved cs) = cs.flatMap Text.utf8Bytes := by
  induction cs with
  | nil => rfl
  | cons c cs ih =>
    rw [percent, List.flatMap_cons, List.flatMap_cons, ← percent]
    split
    · next hkept =>
      have hsign : c ≠ '%' := by
        rintro rfl
        exact absurd hkept (by decide)
      rw [List.singleton_append, percentDecoded_cons_of_ne hsign, ih]
    · rw [percentDecoded_percentChar_append, ih]

/-- The text that a segment stands for, where it is percent-encoded UTF-8. -/
def segmentText? (segment : List Char) : Option (List Char) :=
  Text.strict? (Text.utf8 (Url.percentDecoded segment))

/-- An encoded argument is read as its text. -/
theorem segmentText?_encoded (v : Json) :
    segmentText? (encoded v) = some (argumentText v).toList := by
  rw [segmentText?, encoded, percentDecoded_percent, Text.strict?_utf8_flatMap]

/-! ## Filling in -/

/-- The characters of a filled template. -/
def fillChars (params : List (String × Json)) (cs : List Char) : List Char :=
  params.foldl (fun cs param => replaceAll (placeholder param.1.toList) (encoded param.2) cs) cs

theorem toList_fillPath (path : String) (params : List (String × Json)) :
    (fillPath path params).toList = fillChars params path.toList := by
  induction params generalizing path with
  | nil => rfl
  | cons param rest ih =>
    rw [fillPath, List.foldl_cons, ← fillPath, ih, Call.toList_fill, Text.percentPiece,
      String.toList_ofList]
    rfl

section
variable {params : List (String × Json)} {cs : List Char}

/-- Where no placeholder is, nothing is filled in. -/
theorem fillChars_of_not_isInfix
    (h : ∀ param ∈ params, ¬placeholder param.1.toList <:+: cs) : fillChars params cs = cs := by
  induction params with
  | nil => rfl
  | cons param rest ih =>
    rw [fillChars, List.foldl_cons,
      Text.replaceAll_of_not_isInfix (h param List.mem_cons_self)]
    exact ih fun other hother => h other (List.mem_cons_of_mem _ hother)

theorem mem_or_isInert_of_mem_fillChars {c : Char} (h : c ∈ fillChars params cs) :
    c ∈ cs ∨ isInert c = true := by
  induction params generalizing cs with
  | nil => exact .inl h
  | cons param rest ih =>
    rw [fillChars, List.foldl_cons] at h
    rcases ih h with h | h
    · exact (Text.mem_or_mem_of_mem_replaceAll (Call.placeholder_ne_nil _) h).imp_right
        (isInert_of_mem_encoded c)
    · exact .inr h

theorem fillChars_slash_cons : fillChars params ('/' :: cs) = '/' :: fillChars params cs := by
  induction params generalizing cs with
  | nil => rfl
  | cons param rest ih =>
    have hnot : ¬placeholder param.1.toList <+: '/' :: cs := by
      rw [placeholder, List.cons_append, List.cons_prefix_cons, not_and]
      exact fun h => absurd h (by decide)
    rw [fillChars, List.foldl_cons, Text.replaceAll_cons hnot]
    exact ih

/-- A template is filled in segment by segment. -/
theorem splitAt_fillChars (h : ∀ param ∈ params, '/' ∉ param.1.toList) :
    splitAt '/' (fillChars params cs) = (splitAt '/' cs).map (fillChars params) := by
  induction params generalizing cs with
  | nil =>
    rw [fillChars, List.foldl_nil]
    exact (List.map_id _).symm
  | cons param rest ih =>
    have hslash : '/' ∉ placeholder param.1.toList := by
      simpa [placeholder] using h param List.mem_cons_self
    rw [fillChars, List.foldl_cons, ← fillChars,
      ih fun other hother => h other (List.mem_cons_of_mem _ hother),
      Text.splitAt_replaceAll (Call.placeholder_ne_nil _) hslash slash_notMem_encoded, List.map_map]
    rfl

/-- A placeholder becomes the encoded value of its variable. -/
theorem fillChars_placeholder {name : String} {v : Json}
    (hnames : ∀ param ∈ params, IsName param.1.toList) (hnodup : (params.map Prod.fst).Nodup)
    (h : (name, v) ∈ params) : fillChars params (placeholder name.toList) = encoded v := by
  induction params with
  | nil => simp at h
  | cons param rest ih =>
    obtain ⟨hparam, hrest⟩ := List.forall_mem_cons.mp hnames
    rw [List.map_cons, List.nodup_cons] at hnodup
    rw [fillChars, List.foldl_cons, ← fillChars]
    rcases List.mem_cons.mp h with rfl | h
    · rw [Text.replaceAll_self (Call.placeholder_ne_nil _)]
      exact fillChars_of_not_isInfix fun _ _ =>
        Call.not_isInfix_of_not_brace not_isBrace_of_mem_encoded
    · have hother : param.1 ≠ name := fun heq =>
        hnodup.1 (List.mem_map.mpr ⟨_, h, heq.symm⟩)
      have hnot : ¬placeholder param.1.toList <:+: placeholder name.toList := fun hfound =>
        hother (String.toList_inj.mp (Call.eq_of_placeholder_isInfix hparam (hrest _ h) hfound))
      rw [Text.replaceAll_of_not_isInfix hnot]
      exact ih hrest hnodup.2 h

/-- Of a template without stray braces just the placeholders without a value are left. -/
theorem mem_placeholdersFrom_fillChars (h : Braced cs)
    (hnames : ∀ param ∈ params, IsName param.1.toList) {name : List Char} :
    name ∈ placeholdersFrom none (fillChars params cs) ↔
      name ∈ placeholdersFrom none cs ∧ ∀ param ∈ params, param.1.toList ≠ name := by
  induction params generalizing cs with
  | nil => simp [fillChars]
  | cons param rest ih =>
    obtain ⟨hparam, hrest⟩ := List.forall_mem_cons.mp hnames
    obtain ⟨hbraced, hleft⟩ := h.replaceAll hparam (@not_isBrace_of_mem_encoded param.2)
    rw [fillChars, List.foldl_cons, ← fillChars, ih hbraced hrest, hleft, List.mem_filter,
      List.forall_mem_cons, bne_iff_ne, and_assoc, ne_comm]

theorem mem_placeholders_fillPath {path name : String} (h : Braced path.toList)
    (hnames : ∀ param ∈ params, IsName param.1.toList) :
    name ∈ Call.placeholders (fillPath path params) ↔
      name ∈ Call.placeholders path ∧ name ∉ params.map Prod.fst := by
  have hmem (path : String) : name ∈ Call.placeholders path ↔
      name.toList ∈ placeholdersFrom none path.toList := by
    rw [Call.placeholders, List.mem_map]
    constructor
    · rintro ⟨read, hread, rfl⟩
      rwa [String.toList_ofList]
    · exact fun hread => ⟨_, hread, String.ofList_toList⟩
  rw [hmem, hmem, toList_fillPath, mem_placeholdersFrom_fillChars h hnames]
  refine and_congr_right fun _ => ?_
  simp only [ne_eq, String.toList_inj, List.mem_map, not_exists, not_and]

end

/-! ## The path of a call -/

/-- A template that begins with a slash, has neither a query nor a fragment nor segments that are
dots, and in which each placeholder fills a segment of its own. -/
structure IsPlain (path : String) : Prop where
  slash : path.toList.head? = some '/'
  no_query : '?' ∉ path.toList
  no_fragment : '#' ∉ path.toList
  no_dots : ∀ segment ∈ splitAt '/' path.toList, ¬IsDots segment
  segment_of {name : String} (h : name ∈ Call.variableNames path) :
    placeholder name.toList ∈ splitAt '/' path.toList
  eq_of_isInfix {name : String} {segment : List Char} (h : name ∈ Call.variableNames path)
    (hsegment : segment ∈ splitAt '/' path.toList) (hfound : placeholder name.toList <:+: segment) :
    segment = placeholder name.toList

/-- A segment of a URL is what a segment of the template asks for: it reads as the text of the
variable that stands there, or holds the same characters, percent-encoded where they must be. -/
inductive Carries (path : String) (bag : Call.Fields) (segment found : List Char) : Prop where
  | argument {name : String} {v : Json} (mem : name ∈ Call.variableNames path)
      (eq : segment = placeholder name.toList) (lookup : lookupField name bag = some v)
      (text : segmentText? found = some (argumentText v).toList)
  | literal (ne : ∀ name ∈ Call.variableNames path, segment ≠ placeholder name.toList)
      (eq : found = percent isPathChar segment)

section
variable {client : Client} {address : Address} {path : String} {bag : Call.Fields} {url : Url}

/-- What is sent goes to the URL of the call. -/
theorem Client.exists_url_of_sent {method : String} {parts : Call.Parts} {reply : Reply}
    {request : Request} (h : request ∈ (client.perform method path parts reply).1) :
    ∃ url, client.url path parts = .ok url ∧ request.url = url.text := by
  unfold Client.perform at h
  split at h
  · simp at h
  · next prepared hprepared =>
    obtain rfl := List.mem_singleton.mp h
    unfold Client.prepare at hprepared
    split at hprepared
    · cases hprepared
    · next url hurl =>
      refine ⟨url, hurl, ?_⟩
      split at hprepared
      · cases hprepared
      split at hprepared
      · cases hprepared
      · split_ifs at hprepared
        · rw [← Except.ok.inj hprepared]
        · rw [← Except.ok.inj hprepared]

theorem IsPlain.exists_cons (hplain : IsPlain path) : ∃ rest, path.toList = '/' :: rest := by
  have hslash := hplain.slash
  cases hchars : path.toList with
  | nil => simp [hchars] at hslash
  | cons c rest =>
    simp only [hchars, List.head?_cons, Option.some.injEq] at hslash
    exact ⟨rest, by rw [hslash]⟩

/-- The path of the URL of a call is the filled template, resolved. -/
theorem path_url (hbase : (trimBase client.baseUrl).toList = address.chars) (hplain : IsPlain path)
    {parts : Call.Parts} (h : client.url path parts = .ok url) :
    url.path = percent isPathChar (resolvePath (fillChars (parts.path.getD []) path.toList)) := by
  obtain ⟨rest, hpath⟩ := hplain.exists_cons
  set filled := fillChars (parts.path.getD []) path.toList with hfilled
  have hhead : filled.head?.all (· == '/') = true := by
    rw [hfilled, hpath, fillChars_slash_cons]
    rfl
  have hnone (c : Char) (hc : c ∉ path.toList) (hinert : isInert c = false) : c ∉ filled := fun h =>
    (mem_or_isInert_of_mem_fillChars h).elim hc (by simp [hinert])
  have hurl : buildUrl client.baseUrl path (parts.path.getD []) =
      String.ofList (address.chars ++ filled) := by
    rw [← String.toList_inj, buildUrl, String.toList_append, hbase, toList_fillPath,
      String.toList_ofList]
  obtain ⟨filledUrl, hfilledUrl, rfl⟩ := map_eq_ok.mp h
  have hkept : ((givenQuery? parts).elim filledUrl filledUrl.withQuery).path = filledUrl.path := by
    cases givenQuery? parts <;> rfl
  rw [hkept]
  simp only [Client.filledUrl, hurl] at hfilledUrl
  split at hfilledUrl
  · cases hfilledUrl
  · next read hread =>
    obtain ⟨habsolute, hread⟩ := Url.read_address_append hhead
      (hnone '?' hplain.no_query (by decide)) (hnone '#' hplain.no_fragment (by decide)) hread
    have hrooted : read.rooted = read := if_pos habsolute
    rw [if_pos habsolute, hrooted] at hfilledUrl
    rw [← Except.ok.inj hfilledUrl]
    exact hread

/-- A placeholder becomes the encoded value that is given for it. -/
theorem fillChars_pick_placeholder {name : String} {v : Json}
    (hname : name ∈ Call.variableNames path) (hlookup : lookupField name bag = some v)
    (hv : v ≠ .null) :
    fillChars (Call.pick bag (Call.variableNames path)) (placeholder name.toList) = encoded v :=
  fillChars_placeholder
    (fun _ hparam => Call.isName_of_mem_variableNames (Call.mem_pick.mp hparam).1)
    (Call.nodup_keys_pick _ _) (Call.mem_pick.mpr ⟨hname, hlookup, hv⟩)

theorem splitAt_percent (cs : List Char) :
    splitAt '/' (percent isPathChar cs) = (splitAt '/' cs).map (percent isPathChar) := by
  refine Text.splitAt_flatMap (by decide) (fun c hc hslash => ?_) cs
  split at hslash
  · exact hc (List.mem_singleton.mp hslash).symm
  · exact absurd (Text.isEncodedChar_of_mem_percentChar _ hslash) (by decide)

section
variable {segment : List Char} (hplain : IsPlain path)

include hplain

theorem IsPlain.slash_notMem {name : String} (h : name ∈ Call.variableNames path) :
    '/' ∉ name.toList := fun hslash =>
  Text.notMem_of_mem_splitAt (hplain.segment_of h) (by simp [placeholder, hslash])

/-- A segment that is no placeholder stays. -/
theorem IsPlain.fillChars_eq_self (hsegment : segment ∈ splitAt '/' path.toList)
    (h : ∀ name ∈ Call.variableNames path, segment ≠ placeholder name.toList) :
    fillChars (Call.pick bag (Call.variableNames path)) segment = segment := by
  refine fillChars_of_not_isInfix fun param hparam hfound => ?_
  obtain ⟨hname, -⟩ := Call.mem_pick.mp hparam
  exact h _ hname (hplain.eq_of_isInfix hname hsegment hfound)

theorem IsPlain.splitAt_filled :
    splitAt '/' (fillChars (Call.pick bag (Call.variableNames path)) path.toList) =
      (splitAt '/' path.toList).map (fillChars (Call.pick bag (Call.variableNames path))) :=
  splitAt_fillChars fun _ hparam => hplain.slash_notMem (Call.mem_pick.mp hparam).1

/-- A filled template has a segment that is resolved away exactly when the text of a value is
one. -/
theorem IsPlain.exists_isDots_iff
    (hvalues : ∀ name ∈ Call.variableNames path, ∃ v, lookupField name bag = some v ∧ v ≠ .null) :
    (∃ segment ∈ splitAt '/' (fillChars (Call.pick bag (Call.variableNames path)) path.toList),
      IsDots segment) ↔
    ∃ name ∈ Call.variableNames path, ∃ v, lookupField name bag = some v ∧
      (argumentText v = "." ∨ argumentText v = "..") := by
  rw [hplain.splitAt_filled]
  constructor
  · rintro ⟨_, hmem, hdots⟩
    obtain ⟨segment, hsegment, rfl⟩ := List.mem_map.mp hmem
    by_cases hliteral : ∀ name ∈ Call.variableNames path, segment ≠ placeholder name.toList
    · rw [hplain.fillChars_eq_self hsegment hliteral] at hdots
      exact absurd hdots (hplain.no_dots _ hsegment)
    · push Not at hliteral
      obtain ⟨name, hname, rfl⟩ := hliteral
      obtain ⟨v, hlookup, hv⟩ := hvalues name hname
      rw [fillChars_pick_placeholder hname hlookup hv, isDots_encoded_iff] at hdots
      exact ⟨name, hname, v, hlookup, hdots⟩
  · rintro ⟨name, hname, v, hlookup, hdots⟩
    have hv : v ≠ .null := by
      obtain ⟨w, hw, hnull⟩ := hvalues name hname
      rwa [Option.some.inj (hlookup.symm.trans hw)]
    refine ⟨_, List.mem_map_of_mem (hplain.segment_of hname), ?_⟩
    rw [fillChars_pick_placeholder hname hlookup hv]
    exact isDots_encoded_iff.mpr hdots

/-- The segments of the path of a URL are those of the template, each with the text of its variable
or unchanged, exactly when no text is `.` or `..`. -/
theorem IsPlain.forall₂_carries_iff (hbase : (trimBase client.baseUrl).toList = address.chars)
    (hvalues : ∀ name ∈ Call.variableNames path, ∃ v, lookupField name bag = some v ∧ v ≠ .null)
    {parts : Call.Parts} (hparts : parts.path.getD [] = Call.pick bag (Call.variableNames path))
    (h : client.url path parts = .ok url) :
    List.Forall₂ (Carries path bag) (splitAt '/' path.toList) (splitAt '/' url.path) ↔
      ∀ name ∈ Call.variableNames path, ∀ v, lookupField name bag = some v →
        argumentText v ≠ "." ∧ argumentText v ≠ ".." := by
  have hpath := path_url hbase hplain h
  rw [hparts] at hpath
  have hdots := hplain.exists_isDots_iff hvalues
  set filled := fillChars (Call.pick bag (Call.variableNames path)) path.toList with hfilled
  constructor
  · intro hcarries name hname v hlookup
    rw [ne_eq, ne_eq, ← not_or]
    intro htext
    -- A segment that is resolved away is missing in the end.
    have hlost := hdots.mpr ⟨name, hname, v, hlookup, htext⟩
    obtain ⟨rest, hrest⟩ := hplain.exists_cons
    have hlength := hcarries.length_eq
    rw [hpath, splitAt_percent, List.length_map] at hlength
    rw [hfilled, hrest, fillChars_slash_cons] at hlost hlength
    have hshorter := length_splitAt_resolvePath_lt hlost
    rw [← fillChars_slash_cons, ← hrest, hplain.splitAt_filled, List.length_map, hrest,
      fillChars_slash_cons] at hshorter
    omega
  · intro htexts
    have hkept : resolvePath filled = filled := by
      refine resolvePath_of_no_dots fun segment hsegment hdot => ?_
      obtain ⟨name, hname, v, hlookup, htext⟩ := hdots.mp ⟨segment, hsegment, hdot⟩
      exact htext.elim (htexts name hname v hlookup).1 (htexts name hname v hlookup).2
    rw [hpath, hkept, splitAt_percent, hfilled, hplain.splitAt_filled, List.map_map,
      List.forall₂_map_right_iff, List.forall₂_same]
    intro segment hsegment
    by_cases hliteral : ∀ name ∈ Call.variableNames path, segment ≠ placeholder name.toList
    · refine .literal hliteral ?_
      rw [Function.comp_apply, hplain.fillChars_eq_self hsegment hliteral]
    · push Not at hliteral
      obtain ⟨name, hname, rfl⟩ := hliteral
      obtain ⟨v, hlookup, hv⟩ := hvalues name hname
      refine .argument hname rfl hlookup ?_
      rw [Function.comp_apply, fillChars_pick_placeholder hname hlookup hv, percent_encoded,
        segmentText?_encoded]

end

end

end Toolgate.Http
