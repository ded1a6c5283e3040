import Toolgate.Proofs.Text.Pieces
import Toolgate.Proofs.Text.Trim
import Toolgate.Server.Front

/-!
# Who is let through

The check before the server is meant for a bearer token: a visit passes that asks about methods, is
for the health route, or has just `Bearer`, a blank and the token in its header. It cuts the word
`Bearer` out of the header wherever it stands, and looks only at the end of the path. So it also
lets headers pass from which the token is left over, and all paths that end like the health route;
and a token with the word in it, or with blanks around it, it refuses even where it is presented as
it should be. Apart from these visits it does what it is meant to.

## Main definitions

* `Visit.IsEntitled`: the visits that the check is meant for
* `LeavesOver`, `IsPresentable`: the headers that the check takes, and the tokens that can be shown

## Main statements

* `presentedToken_eq_iff`: the headers that the check takes
* `admits_entitled_iff`: where the check does what it is meant to
-/

namespace Toolgate.Server

open Text (IsBorderless IsTrimmed)

/-! ## Headers -/

/-- The name of the scheme that a header begins with. -/
def scheme : List Char := "Bearer".toList

/-- The header of a token. -/
def bearerHeader (token : String) : String := "Bearer " ++ token

/-- What is left of a header is the token: the header is made of pieces with the name of the scheme
between each two, and the pieces in a row are the token with blanks around it. -/
def LeavesOver (header token : String) : Prop :=
  IsTrimmed Text.isBlank token.toList ∧ ∃ pieces front back, pieces ≠ [] ∧
    header.toList = List.intercalate scheme pieces ∧ (∀ piece ∈ pieces, ¬scheme <:+: piece) ∧
    pieces.flatten = front ++ token.toList ++ back ∧ (∀ c ∈ front, Text.isBlank c = true) ∧
    ∀ c ∈ back, Text.isBlank c = true

/-- A token without the name of the scheme in it, and without blanks around it. -/
def IsPresentable (token : String) : Prop :=
  ¬scheme <:+: token.toList ∧ IsTrimmed Text.isBlank token.toList

theorem scheme_ne_nil : scheme ≠ [] := by decide

theorem isBorderless_scheme : IsBorderless scheme :=
  Text.isBorderless_cons (by decide)

theorem presentedToken_eq (header : String) : presentedToken header =
    String.ofList (Text.trim Text.isBlank (Text.replaceAll scheme [] header.toList)) := by
  simp [presentedToken, Text.strip, Text.replaced, scheme]

/-- The check takes the headers from which the token is left over. -/
theorem presentedToken_eq_iff {header token : String} :
    presentedToken header = token ↔ LeavesOver header token := by
  rw [presentedToken_eq, ← String.toList_inj, String.toList_ofList, Text.trim_eq_iff, LeavesOver]
  refine and_congr_right fun _ => ?_
  constructor
  · rintro ⟨front, back, hcut, hfront, hback⟩
    obtain ⟨pieces, hne, hheader, hpieces, hflatten⟩ :=
      (isBorderless_scheme.replaceAll_eq_iff scheme_ne_nil).mp hcut
    rw [Text.intercalate_nil_left] at hflatten
    exact ⟨pieces, front, back, hne, hheader, hpieces, hflatten, hfront, hback⟩
  · rintro ⟨pieces, front, back, hne, hheader, hpieces, hflatten, hfront, hback⟩
    refine ⟨front, back, ?_, hfront, hback⟩
    exact (isBorderless_scheme.replaceAll_eq_iff scheme_ne_nil).mpr
      ⟨pieces, hne, hheader, hpieces, (Text.intercalate_nil_left pieces).trans hflatten⟩

/-- It takes the header of a token that can be presented. -/
theorem presentedToken_bearerHeader_eq_iff {token : String} :
    presentedToken (bearerHeader token) = token ↔ IsPresentable token := by
  have hcut : Text.trim Text.isBlank (Text.replaceAll scheme [] (bearerHeader token).toList) =
      Text.trim Text.isBlank (Text.replaceAll scheme [] token.toList) := by
    have hheader : (bearerHeader token).toList = scheme ++ (' ' :: token.toList) := by
      rw [bearerHeader, String.toList_append]
      rfl
    have hblank : ¬scheme <+: ' ' :: token.toList := fun hpre =>
      absurd (List.cons_prefix_cons.mp hpre).1 (by decide)
    rw [hheader, Text.replaceAll_word_append scheme_ne_nil, List.nil_append,
      Text.replaceAll_cons hblank]
    rfl
  rw [presentedToken_eq, ← String.toList_inj, String.toList_ofList, hcut]
  by_cases hin : scheme <:+: token.toList
  · refine iff_of_false (fun heq => ?_) fun hpresentable => hpresentable.1 hin
    have hshorter : (Text.replaceAll scheme [] token.toList).length < token.toList.length :=
      Text.length_replaceAll_lt scheme_ne_nil (by decide) hin
    have hle := Text.length_trim_le Text.isBlank (Text.replaceAll scheme [] token.toList)
    rw [heq] at hle
    omega
  · rw [Text.replaceAll_of_not_isInfix hin, Text.trim_eq_self_iff, IsPresentable,
      and_iff_right hin]

/-! ## Visits -/

/-- The visit asks about methods, is for the health route, or presents the token. -/
def Visit.IsEntitled (token : String) (v : Visit) : Prop :=
  v.method = "OPTIONS" ∨ v.path = healthPath ∨
    v.header? "authorization" = some (bearerHeader token)

instance (token : String) (v : Visit) : Decidable (v.IsEntitled token) :=
  inferInstanceAs (Decidable (_ ∨ _ ∨ _))

theorem isAdmitted_iff {token : String} {v : Visit} : isAdmitted token v = true ↔
    v.method = "OPTIONS" ∨ Text.endsIn healthPath (urlPath v.path) = true ∨
      LeavesOver ((v.header? "authorization").getD "") token := by
  simp only [isAdmitted, Bool.or_eq_true, beq_iff_eq, presentedToken_eq_iff, or_assoc]

/-- The routes never answer that a visit is not authorized. -/
theorem status_shared_ne (v : Visit) : (shared v).status ≠ 401 := by
  have hrouted : (routed v).status ≠ 401 := by
    unfold routed
    split_ifs <;> decide
  have hpermission (method origin : String) : (permission method origin).status ≠ 401 := by
    unfold permission
    split_ifs <;> simp
  unfold shared
  split
  · exact hrouted
  · exact hrouted
  · split_ifs
    · exact hpermission _ _
    · exact hrouted

namespace Front

theorem status_answer_none_ne (v : Visit) : ((⟨none⟩ : Front).answer v).status ≠ 401 := by
  unfold answer
  dsimp only
  split_ifs <;> exact status_shared_ne v

/-- A visit that passes the check is answered as without one. -/
theorem answer_of_isAdmitted {token : String} {v : Visit} (h : isAdmitted token v = true) :
    (⟨some token⟩ : Front).answer v = (⟨none⟩ : Front).answer v := by
  simp [answer, h]

theorem status_answer_of_not_isAdmitted {token : String} {v : Visit}
    (h : isAdmitted token v = false) : ((⟨some token⟩ : Front).answer v).status = 401 := by
  simp only [answer, h, Bool.false_eq_true, if_false]
  split_ifs <;> rfl

end Front

end Toolgate.Server
