import Mathlib.Data.List.TakeWhile
import Toolgate.Http.Url
import Toolgate.Proofs.Result
import Toolgate.Proofs.Text.Case
import Toolgate.Proofs.Text.Percent

/-!
# Paths behind an address

A URL that is made of the address of a service and a path has just that path, with its `.` and
`..` segments resolved and illegal characters encoded. Resolving leaves a path without such
segments alone, and takes segments away from every other.

## Main definitions

* `Address`: a scheme and an authority with a host
* `IsDots`: is a segment `.` or `..`?
-/

namespace Toolgate.Http

open Text (splitAt percent)

/-! ## Addresses -/

/-- The host of an authority, without user and port. -/
def hostOf (authority : List Char) : List Char :=
  (cutHost ((cutAtLast '@' authority).getD ([], authority)).2).1

/-- A scheme and an authority that names a host. -/
structure Address where
  scheme : List Char
  authority : List Char
  scheme_head : scheme.head?.any Text.isAsciiLetter = true
  scheme_chars : ∀ c ∈ scheme, isSchemeChar c = true
  authority_chars : ∀ c ∈ authority, (c != '/' && c != '?' && c != '#') = true
  host_ne_nil : hostOf authority ≠ []

namespace Address

/-- The address as it stands at the front of a URL. -/
def chars (address : Address) : List Char :=
  address.scheme ++ ':' :: '/' :: '/' :: address.authority

theorem cutScheme_append (address : Address) (path : List Char) :
    cutScheme (address.chars ++ path) =
      (address.scheme, '/' :: '/' :: (address.authority ++ path)) := by
  have hhead : (address.chars ++ path).takeWhile isSchemeChar = address.scheme := by
    rw [chars, List.append_assoc, List.takeWhile_append_of_pos address.scheme_chars]
    simp [isSchemeChar, Text.isAsciiAlnum, Text.isAsciiLetter, Text.isAsciiLower,
      Text.isAsciiUpper, Text.isAsciiDigit]
  have hrest : (address.chars ++ path).drop address.scheme.length =
      ':' :: '/' :: '/' :: (address.authority ++ path) := by
    simp [chars]
  have hletter : address.scheme.head?.all Text.isAsciiLetter = true := by
    have := address.scheme_head
    cases h : address.scheme.head? <;> simp_all
  simp only [cutScheme, hhead, hrest, hletter, if_true]

theorem cutAuthority_append (address : Address) {path : List Char}
    (hpath : path.head?.all (· == '/') = true) :
    cutAuthority ('/' :: '/' :: (address.authority ++ path)) = (address.authority, path) := by
  have hend : path.takeWhile (fun c => c != '/' && c != '?' && c != '#') = [] := by
    cases path with
    | nil => rfl
    | cons c path => simp_all
  have hhead : (address.authority ++ path).takeWhile (fun c => c != '/' && c != '?' && c != '#') =
      address.authority := by
    rw [List.takeWhile_append_of_pos address.authority_chars, hend, List.append_nil]
  simp only [cutAuthority, hhead, List.drop_left]

end Address

theorem cutAt_of_notMem {sep : Char} {cs : List Char} (h : sep ∉ cs) :
    cutAt sep cs = (cs, none) := by
  have hall : cs.takeWhile (· != sep) = cs :=
    List.takeWhile_eq_self_iff.mpr fun c hc => by
      simpa using fun heq : c = sep => h (heq ▸ hc)
  simp [cutAt, hall]

/-! ## What is read is absolute -/

theorem lower_ne_empty {cs : List Char} (hne : cs ≠ []) (h : ∀ c ∈ cs, c.toNat < 0x80) :
    (Text.lower (String.ofList cs)).toList ≠ [] := by
  simpa [Text.toList_lower_of_ascii h] using hne

theorem toNat_lt_of_isSchemeChar {c : Char} (h : isSchemeChar c = true) : c.toNat < 0x80 := by
  simp only [isSchemeChar, Bool.or_eq_true, beq_iff_eq] at h
  rcases h with ((h | rfl) | rfl) | rfl
  · exact Text.toNat_lt_of_isUnreserved (by simp [Text.isUnreserved, h])
  all_goals decide

/-- A host does not vanish when it is read. -/
theorem toList_ne_nil_of_readHost {cs : List Char} {host : String} (hne : cs ≠ [])
    (h : readHost cs = .ok host) : host.toList ≠ [] := by
  simp only [readHost] at h
  split_ifs at h with hempty hlooks hfour hbrackets hsix hascii
  · exact absurd (List.isEmpty_iff.mp hempty) hne
  · rw [← Except.ok.inj h, String.toList_ofList]
    exact hne
  · rw [← Except.ok.inj h, String.toList_ofList]
    intro hnil
    rw [hnil] at hsix
    exact absurd hsix (by decide)
  · rw [← Except.ok.inj h, String.toList_ofList]
    exact Text.percent_ne_nil (lower_ne_empty hne (by simpa using hascii))

/-- Behind a scheme dots are resolved. -/
theorem eq_of_readPath {hasAuthority : Bool} {cs path : List Char}
    (h : readPath true hasAuthority cs = .ok path) :
    path = percent isPathChar (resolvePath cs) := by
  simp only [readPath, Bool.not_true, Bool.false_and, Bool.true_or, if_true, Bool.false_eq_true,
    if_false] at h
  split at h
  · cases h
  · exact (Except.ok.inj h).symm

/-- The path of a URL that is made of an address and a path. -/
theorem Url.read_address_append {address : Address} {path : List Char} {url : Url}
    (hpath : path.head?.all (· == '/') = true) (hquery : '?' ∉ path) (hfragment : '#' ∉ path)
    (h : Url.read (String.ofList (address.chars ++ path)) = .ok url) :
    url.isAbsolute = true ∧ url.path = percent isPathChar (resolvePath path) := by
  have hscheme : address.scheme ≠ [] := by
    have := address.scheme_head
    rintro hnil
    simp [hnil] at this
  unfold Url.read at h
  simp only [String.toList_ofList] at h
  split at h
  · cases h
  split at h
  · cases h
  simp only [address.cutScheme_append, address.cutAuthority_append hpath,
    cutAt_of_notMem hfragment, cutAt_of_notMem hquery] at h
  obtain ⟨host, hhost, h⟩ := bind_eq_ok.mp h
  obtain ⟨port, -, h⟩ := bind_eq_ok.mp h
  obtain ⟨read, hread, h⟩ := bind_eq_ok.mp h
  rw [show (!address.scheme.isEmpty) = true by simpa using hscheme] at hread
  obtain rfl := Except.ok.inj h
  have hlower := lower_ne_empty hscheme fun c hc =>
    toNat_lt_of_isSchemeChar (address.scheme_chars c hc)
  have hhost := toList_ne_nil_of_readHost address.host_ne_nil hhost
  rw [ne_eq, String.toList_eq_nil_iff] at hlower hhost
  exact ⟨by simp [isAbsolute, hlower, hhost], eq_of_readPath hread⟩

/-! ## Segments that are dots -/

/-- A segment that is resolved away. -/
def IsDots (segment : List Char) : Prop :=
  segment = ['.'] ∨ segment = ['.', '.']

theorem resolvePath_of_no_dots {cs : List Char} (h : ∀ segment ∈ splitAt '/' cs, ¬IsDots segment) :
    resolvePath cs = cs := by
  rw [resolvePath, if_neg]
  simpa [IsDots] using h

/-- Resolving adds nothing to the segments. -/
theorem mem_or_mem_of_mem_resolveSegments {segments done : List (List Char)} {segment : List Char}
    (h : segment ∈ resolveSegments done segments) : segment ∈ done ∨ segment ∈ segments := by
  fun_induction resolveSegments done segments with
  | case1 done => exact .inl (List.mem_reverse.mp h)
  | case2 done next rest hdot ih => exact (ih h).imp_right (List.mem_cons_of_mem _)
  | case3 next rest hdot hdots ih => exact (ih h).imp_right (List.mem_cons_of_mem _)
  | case4 next rest hdot hdots ih => exact (ih h).imp_right (List.mem_cons_of_mem _)
  | case5 next rest hdot hdots last before hne ih =>
    exact (ih h).imp (List.mem_cons_of_mem _) (List.mem_cons_of_mem _)
  | case6 done next rest hdot hdots ih =>
    rcases ih h with h | h
    · rcases List.mem_cons.mp h with rfl | h
      · exact .inr List.mem_cons_self
      · exact .inl h
    · exact .inr (List.mem_cons_of_mem _ h)

theorem length_resolveSegments_le (segments done : List (List Char)) :
    (resolveSegments done segments).length ≤ done.length + segments.length := by
  fun_induction resolveSegments done segments <;> simp_all <;> omega

/-- Every dot takes a segment away. -/
theorem length_resolveSegments_lt {segments : List (List Char)} (done : List (List Char))
    (h : ∃ segment ∈ segments, IsDots segment) :
    (resolveSegments done segments).length < done.length + segments.length := by
  fun_induction resolveSegments done segments with
  | case1 done => simp at h
  | case2 done next rest hdot ih =>
    have := length_resolveSegments_le rest done
    rw [List.length_cons]
    omega
  | case3 next rest hdot hdots ih =>
    have := length_resolveSegments_le rest []
    rw [List.length_cons]
    omega
  | case4 next rest hdot hdots ih =>
    have := length_resolveSegments_le rest [[]]
    simp only [List.length_cons, List.length_nil] at this ⊢
    omega
  | case5 next rest hdot hdots last before hne ih =>
    have := length_resolveSegments_le rest before
    simp only [List.length_cons]
    omega
  | case6 done next rest hdot hdots ih =>
    have hrest : ∃ segment ∈ rest, IsDots segment := by
      simpa [IsDots, show next ≠ ['.'] by simpa using hdot,
        show next ≠ ['.', '.'] by simpa using hdots] using h
    have := ih hrest
    simp only [List.length_cons] at this ⊢
    omega

/-- The empty segment in front of the first slash stays. -/
theorem resolveSegments_ne_nil {segments done : List (List Char)} (h : done.getLast? = some []) :
    resolveSegments done segments ≠ [] := by
  fun_induction resolveSegments done segments with
  | case1 done =>
    rintro hnil
    simp [List.reverse_eq_nil_iff.mp hnil] at h
  | case2 done next rest hdot ih => exact ih h
  | case3 next rest hdot hdots ih => simp at h
  | case4 next rest hdot hdots ih => exact ih h
  | case5 next rest hdot hdots last before hne ih =>
    refine ih ?_
    cases before with
    | nil => exact (hne (by simpa using h) rfl).elim
    | cons next before => simpa using h
  | case6 done next rest hdot hdots ih =>
    refine ih ?_
    cases done with
    | nil => simp at h
    | cons last before => simpa using h

/-- A path that begins with a slash loses segments when some are dots. -/
theorem length_splitAt_resolvePath_lt {cs : List Char}
    (h : ∃ segment ∈ splitAt '/' ('/' :: cs), IsDots segment) :
    (splitAt '/' (resolvePath ('/' :: cs))).length < (splitAt '/' ('/' :: cs)).length := by
  have hsplit : splitAt '/' ('/' :: cs) = [] :: splitAt '/' cs := Text.splitAt_cons_self '/' cs
  have hdots : ((splitAt '/' ('/' :: cs)).any fun s => s == ['.'] || s == ['.', '.']) = true := by
    simpa [IsDots] using h
  have hstart : resolveSegments [] (splitAt '/' ('/' :: cs)) =
      resolveSegments [[]] (splitAt '/' cs) := by
    rw [hsplit, resolveSegments]
    rfl
  rw [resolvePath, if_pos hdots, Text.splitAt_intercalate]
  · simpa using length_resolveSegments_lt [] h
  · rw [hstart]
    exact resolveSegments_ne_nil rfl
  · intro segment hsegment
    rcases mem_or_mem_of_mem_resolveSegments hsegment with hsegment | hsegment
    · simp at hsegment
    · exact Text.notMem_of_mem_splitAt hsegment

end Toolgate.Http
