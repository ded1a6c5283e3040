import Mathlib.Data.List.TakeWhile
import Toolgate.Proofs.Decimal.Digits
import Toolgate.Text.Timestamp

/-!
# The grammar of dates and timestamps

A date names a day that exists by year, month and day. A timestamp is a date and a time of day with
its offset from UTC, and the reader of timestamps takes just the texts of that grammar.

## Main definitions

* `IsDate`: the dates, such as `2024-05-06`
* `IsClock`, `IsOffset`: the times of day and the offsets
* `IsTimestamp`: the timestamps with an offset

## Main statements

* `looksLikeTimestamp_and_isTimestamp_iff`: which texts are read as timestamps
-/

namespace Toolgate.Text

open Decimal (digitChar)

/-! ## Characters -/

theorem isAsciiDigit_iff {c : Char} : isAsciiDigit c = true ↔ ∃ d < 10, c = digitChar d := by
  constructor
  · intro h
    simp only [isAsciiDigit, Bool.and_eq_true, decide_eq_true_eq] at h
    have hlow : 48 ≤ c.toNat := h.1
    have hhigh : c.toNat ≤ 57 := h.2
    have hcode : 48 + (c.toNat - 48) = c.toNat := by omega
    refine ⟨c.toNat - 48, by omega, ?_⟩
    show c = Char.ofNat (48 + (c.toNat - 48))
    rw [hcode, Char.ofNat_toNat]
  · rintro ⟨d, hd, rfl⟩
    exact Decimal.isAsciiDigit_digitChar hd

theorem after?_singleton {c : Char} {cs rest : List Char} :
    after? [c] cs = some rest ↔ cs = c :: rest := by
  cases cs with
  | nil => simp [after?]
  | cons d tail =>
    by_cases h : c = d
    · simp [after?, h]
    · simp [after?, h, Ne.symm h]

/-- The two digits that write a number below a hundred. -/
def twoDigits (n : ℕ) : List Char :=
  [digitChar (n / 10), digitChar (n % 10)]

/-- Two digits are read as the number that they write. -/
theorem twoDigits?_eq_some_iff {cs rest : List Char} {n : ℕ} :
    twoDigits? cs = some (n, rest) ↔ n < 100 ∧ cs = twoDigits n ++ rest := by
  constructor
  · intro h
    match cs, h with
    | a :: b :: tail, h =>
      simp only [twoDigits?] at h
      split at h
      · next hdigits =>
        obtain ⟨ha, hb⟩ := Bool.and_eq_true_iff.mp hdigits
        obtain ⟨tens, htens, rfl⟩ := isAsciiDigit_iff.mp ha
        obtain ⟨units, hunits, rfl⟩ := isAsciiDigit_iff.mp hb
        simp only [Decimal.natValue, List.foldl_cons, List.foldl_nil,
          Decimal.digitValue_digitChar htens, Decimal.digitValue_digitChar hunits,
          Option.some.injEq, Prod.mk.injEq] at h
        obtain ⟨rfl, rfl⟩ := h
        have hdiv : ((0 * 10 + tens) * 10 + units) / 10 = tens := by omega
        have hmod : ((0 * 10 + tens) * 10 + units) % 10 = units := by omega
        exact ⟨by omega, by simp only [twoDigits, hdiv, hmod, List.cons_append, List.nil_append]⟩
      · cases h
  · rintro ⟨hn, rfl⟩
    have htens : n / 10 < 10 := by omega
    have hunits : n % 10 < 10 := by omega
    have hvalue : (0 * 10 + n / 10) * 10 + n % 10 = n := by omega
    simp [twoDigits, twoDigits?, Decimal.isAsciiDigit_digitChar, htens, hunits, Decimal.natValue,
      Decimal.digitValue_digitChar]
    omega

/-! ## Beginnings -/

theorem beginsLike_append (tests more : List (Char → Bool)) (cs : List Char) :
    beginsLike (tests ++ more) cs =
      (beginsLike tests cs && beginsLike more (cs.drop tests.length)) := by
  induction tests generalizing cs with
  | nil => rfl
  | cons test tests ih =>
    cases cs with
    | nil => rfl
    | cons c cs => simp [beginsLike, ih, Bool.and_assoc]

/-- The ten characters of a date, in decimal digits of any script. -/
def dateTests : List (Char → Bool) :=
  [isDecimal, isDecimal, isDecimal, isDecimal, (· == '-'), isDecimal, isDecimal, (· == '-'),
    isDecimal, isDecimal]

theorem looksLikeTimestamp_eq (s : String) :
    looksLikeTimestamp s = (beginsLike dateTests s.toList &&
      beginsLike [fun c => c == 'T' || c == 't' || c == ' '] (s.toList.drop 10)) :=
  beginsLike_append dateTests _ s.toList

/-! ## Dates -/

/-- The date of a day. -/
def dateText (year month day : ℕ) : List Char :=
  twoDigits (year / 100) ++ (twoDigits (year % 100) ++
    '-' :: (twoDigits month ++ '-' :: twoDigits day))

/-- The dates of days that exist. -/
def IsDate (cs : List Char) : Prop :=
  ∃ year month day, year < 10000 ∧ isDay year month day = true ∧ cs = dateText year month day

theorem lt_of_isDay {year month day : ℕ} (h : isDay year month day = true) :
    month < 100 ∧ day < 100 := by
  simp only [isDay, Bool.and_eq_true, decide_eq_true_eq] at h
  have hdays : daysOfMonth year month ≤ 31 := by
    unfold daysOfMonth
    split_ifs <;> omega
  omega

theorem afterDate?_eq_some_iff {cs rest : List Char} :
    afterDate? cs = some rest ↔ ∃ date, IsDate date ∧ cs = date ++ rest := by
  simp only [afterDate?, bind, Option.bind_eq_some_iff, Prod.exists, twoDigits?_eq_some_iff,
    after?_singleton]
  constructor
  · rintro ⟨century, _, ⟨hcentury, rfl⟩, small, _, ⟨hsmall, rfl⟩, _, rfl, month, _, ⟨-, rfl⟩, _,
      rfl, day, _, ⟨-, rfl⟩, h⟩
    split at h
    · next hday =>
      obtain rfl := Option.some.inj h
      have hdiv : (century * 100 + small) / 100 = century := by omega
      have hmod : (century * 100 + small) % 100 = small := by omega
      refine ⟨dateText (century * 100 + small) month day, ⟨_, _, _, by omega, hday, rfl⟩, ?_⟩
      simp [dateText, hdiv, hmod]
    · cases h
  · rintro ⟨_, ⟨year, month, day, hyear, hday, rfl⟩, rfl⟩
    obtain ⟨hmonth, hday'⟩ := lt_of_isDay hday
    have hyear' : year / 100 * 100 + year % 100 = year := by omega
    have htext : dateText year month day ++ rest = twoDigits (year / 100) ++
        (twoDigits (year % 100) ++ '-' :: (twoDigits month ++ '-' :: (twoDigits day ++ rest))) := by
      simp [dateText]
    rw [htext]
    refine ⟨year / 100, _, ⟨by omega, rfl⟩, year % 100, _, ⟨by omega, rfl⟩, _, rfl, month, _,
      ⟨hmonth, rfl⟩, _, rfl, day, _, ⟨hday', rfl⟩, ?_⟩
    rw [hyear', if_pos hday]

theorem IsDate.length_eq {date : List Char} (h : IsDate date) : date.length = 10 := by
  obtain ⟨year, month, day, -, -, rfl⟩ := h
  rfl

theorem isDecimal_digitChar {d : ℕ} (h : d < 10) : isDecimal (digitChar d) = true := by
  rw [isDecimal, Decimal.isAsciiDigit_digitChar h, Bool.true_or]

theorem IsDate.beginsLike {date : List Char} (h : IsDate date) (rest : List Char) :
    beginsLike dateTests (date ++ rest) = true := by
  obtain ⟨year, month, day, hyear, hday, rfl⟩ := h
  obtain ⟨hmonth, hday⟩ := lt_of_isDay hday
  have hdigits (n : ℕ) (hn : n < 100) : isDecimal (digitChar (n / 10)) = true ∧
      isDecimal (digitChar (n % 10)) = true :=
    ⟨isDecimal_digitChar (by omega), isDecimal_digitChar (by omega)⟩
  simp only [dateTests, dateText, twoDigits, List.cons_append, List.nil_append, Text.beginsLike,
    hdigits (year / 100) (by omega), hdigits (year % 100) (by omega), hdigits month hmonth,
    hdigits day hday, beq_self_eq_true, Bool.and_self]

/-! ## Times of day -/

/-- What may follow the seconds of a time: nothing, or a mark and digits. -/
def IsFraction (cs : List Char) : Prop :=
  cs = [] ∨ ∃ mark digits, (mark = '.' ∨ mark = ',') ∧ digits ≠ [] ∧
    (∀ d ∈ digits, isAsciiDigit d = true) ∧ cs = mark :: digits

/-- The times of day, with seconds or without. -/
inductive IsClock : List Char → Prop where
  | minutes {hour minute : ℕ} (hhour : hour ≤ 23) (hminute : minute ≤ 59) :
      IsClock (twoDigits hour ++ ':' :: twoDigits minute)
  | seconds {hour minute second : ℕ} {fraction : List Char} (hhour : hour ≤ 23)
      (hminute : minute ≤ 59) (hsecond : second ≤ 59) (hfraction : IsFraction fraction) :
      IsClock (twoDigits hour ++ ':' :: (twoDigits minute ++ ':' :: (twoDigits second ++ fraction)))

/-- The offsets from UTC: a letter for none, or hours and minutes behind a sign. -/
inductive IsOffset : List Char → Prop where
  | none {letter : Char} (hletter : letter = 'Z' ∨ letter = 'z') : IsOffset [letter]
  | shift {sign : Char} {hour minute : ℕ} {colon : List Char}
      (hsign : sign = '+' ∨ sign = '-' ∨ sign = '\u2212') (hhour : hour ≤ 23)
      (hcolon : colon = [] ∨ colon = [':']) (hminute : minute ≤ 59) :
      IsOffset (sign :: (twoDigits hour ++ (colon ++ twoDigits minute)))

/-- What follows a time of day does not read on in it. -/
def EndsClock (cs : List Char) : Prop :=
  ∀ c ∈ cs.head?, isAsciiDigit c = false ∧ c ≠ '.' ∧ c ≠ ',' ∧ c ≠ ':'

theorem IsOffset.endsClock {cs : List Char} (h : IsOffset cs) : EndsClock cs := by
  intro c hc
  cases h with
  | none hletter =>
    obtain rfl := Option.some.inj hc
    rcases hletter with rfl | rfl <;> decide
  | shift hsign =>
    obtain rfl := Option.some.inj hc
    rcases hsign with rfl | rfl | rfl <;> decide

theorem EndsClock.dropWhile {cs : List Char} (h : EndsClock cs) :
    cs.dropWhile isAsciiDigit = cs := by
  cases cs with
  | nil => rfl
  | cons c tail => exact List.dropWhile_cons_of_neg (by simp [(h c rfl).1])

theorem exists_of_afterFraction? {cs rest : List Char} (h : afterFraction? cs = some rest) :
    ∃ fraction, IsFraction fraction ∧ cs = fraction ++ rest := by
  cases cs with
  | nil => exact ⟨[], .inl rfl, Option.some.inj h⟩
  | cons mark tail =>
    simp only [afterFraction?] at h
    split_ifs at h with hmark hdigit
    · obtain rfl := Option.some.inj h
      refine ⟨mark :: tail.takeWhile isAsciiDigit,
        .inr ⟨mark, _, by simpa using hmark, ?_, fun d hd => List.mem_takeWhile_imp hd, rfl⟩,
        by simp⟩
      obtain ⟨c, hc, hc'⟩ := (Option.any_eq_true _ _).mp hdigit
      obtain ⟨others, rfl⟩ := List.head?_eq_some_iff.mp hc
      simp [hc']
    · exact ⟨[], .inl rfl, Option.some.inj h⟩

theorem afterFraction?_append {fraction rest : List Char} (h : IsFraction fraction)
    (hrest : EndsClock rest) : afterFraction? (fraction ++ rest) = some rest := by
  rcases h with rfl | ⟨mark, digits, hmark, hne, hdigits, rfl⟩
  · cases rest with
    | nil => rfl
    | cons c tail =>
      obtain ⟨-, hpoint, hcomma, -⟩ := hrest c rfl
      simp [afterFraction?, hpoint, hcomma]
  · obtain ⟨d, others, rfl⟩ := List.exists_cons_of_ne_nil hne
    have hdrop : ((d :: others) ++ rest).dropWhile isAsciiDigit = rest := by
      rw [List.dropWhile_append_of_pos hdigits, hrest.dropWhile]
    have hd : isAsciiDigit d = true := hdigits d List.mem_cons_self
    simp only [List.cons_append] at hdrop ⊢
    simp [afterFraction?, hmark, hd, hdrop]

theorem exists_of_afterTime? {cs rest : List Char} (h : afterTime? cs = some rest) :
    ∃ clock, IsClock clock ∧ cs = clock ++ rest := by
  simp only [afterTime?, bind, Option.bind_eq_some_iff, Prod.exists, twoDigits?_eq_some_iff,
    after?_singleton] at h
  obtain ⟨hour, _, ⟨-, rfl⟩, _, rfl, minute, tail, ⟨-, rfl⟩, h⟩ := h
  split at h
  · next hbounds =>
    obtain ⟨hhour, hminute⟩ : hour ≤ 23 ∧ minute ≤ 59 := by simpa using hbounds
    unfold afterSeconds? at h
    split at h
    · next tail =>
      simp only [bind, Option.bind_eq_some_iff, Prod.exists, twoDigits?_eq_some_iff] at h
      obtain ⟨second, after, ⟨-, rfl⟩, h⟩ := h
      split at h
      · next hsecond =>
        obtain ⟨fraction, hfraction, rfl⟩ := exists_of_afterFraction? h
        exact ⟨_, .seconds hhour hminute hsecond hfraction, by simp⟩
      · cases h
    · obtain rfl := Option.some.inj h
      exact ⟨_, .minutes hhour hminute, by simp⟩
  · cases h

theorem afterTime?_append {clock rest : List Char} (h : IsClock clock) (hrest : EndsClock rest) :
    afterTime? (clock ++ rest) = some rest := by
  simp only [afterTime?, bind, Option.bind_eq_some_iff, Prod.exists, twoDigits?_eq_some_iff,
    after?_singleton]
  cases h with
  | @minutes hour minute hhour hminute =>
    refine ⟨hour, _, ⟨by omega, by simp only [List.append_assoc, List.cons_append]⟩, _, rfl,
      minute, rest, ⟨by omega, rfl⟩, ?_⟩
    rw [if_pos (by simp [hhour, hminute])]
    unfold afterSeconds?
    split
    · exact absurd rfl (hrest ':' rfl).2.2.2
    · rfl
  | @seconds hour minute second fraction hhour hminute hsecond hfraction =>
    refine ⟨hour, _, ⟨by omega, by simp only [List.append_assoc, List.cons_append]⟩, _, rfl,
      minute, ':' :: (twoDigits second ++ (fraction ++ rest)), ⟨by omega, rfl⟩, ?_⟩
    rw [if_pos (by simp [hhour, hminute])]
    have hread : twoDigits? (twoDigits second ++ (fraction ++ rest)) =
        some (second, fraction ++ rest) := twoDigits?_eq_some_iff.mpr ⟨by omega, rfl⟩
    simp only [afterSeconds?, hread, bind, Option.bind_some, if_pos hsecond]
    exact afterFraction?_append hfraction hrest

theorem isOffset_cons_iff {sign : Char} {rest : List Char} (hrest : rest ≠ []) :
    isOffset (sign :: rest) = true ↔ (sign = '+' ∨ sign = '-' ∨ sign = '\u2212') ∧
      ∃ hour cs minute, twoDigits? rest = some (hour, cs) ∧
        twoDigits? ((after? [':'] cs).getD cs) = some (minute, []) ∧ hour ≤ 23 ∧ minute ≤ 59 := by
  have hsign : (sign == '+' || sign == '-' || sign.toNat == 0x2212) = true ↔
      sign = '+' ∨ sign = '-' ∨ sign = '\u2212' := by
    have hminus : sign.toNat = 0x2212 ↔ sign = '\u2212' := Char.toNat_inj (d := '\u2212')
    simp [hminus, or_assoc]
  obtain ⟨d, tail, rfl⟩ := List.exists_cons_of_ne_nil hrest
  simp only [isOffset, Bool.and_eq_true, hsign]
  refine and_congr_right fun _ => ?_
  cases hhour : twoDigits? (d :: tail) with
  | none => simp
  | some found =>
    obtain ⟨hour, cs⟩ := found
    cases hminute : twoDigits? ((after? [':'] cs).getD cs) with
    | none => simp [hminute]
    | some found =>
      obtain ⟨minute, left⟩ := found
      cases left with
      | nil => simp [hminute]
      | cons c left => simp [hminute]

theorem isOffset_iff {cs : List Char} : isOffset cs = true ↔ IsOffset cs := by
  constructor
  · intro h
    match cs, h with
    | [c], h => exact .none (by simpa [isOffset] using h)
    | sign :: d :: tail, h =>
      obtain ⟨hsign, hour, cs, minute, hread, hread', hhour, hminute⟩ :=
        (isOffset_cons_iff (List.cons_ne_nil d tail)).mp h
      obtain ⟨-, htail⟩ := twoDigits?_eq_some_iff.mp hread
      obtain ⟨-, hrest⟩ := twoDigits?_eq_some_iff.mp hread'
      rw [htail]
      rw [List.append_nil] at hrest
      cases hcolon : after? [':'] cs with
      | none =>
        rw [hcolon, Option.getD_none] at hrest
        exact hrest ▸ .shift hsign hhour (.inl rfl) hminute
      | some left =>
        rw [hcolon, Option.getD_some] at hrest
        rw [after?_singleton.mp hcolon, hrest]
        exact .shift hsign hhour (.inr rfl) hminute
  · intro h
    cases h with
    | none hletter => simpa [isOffset] using hletter
    | @shift sign hour minute colon hsign hhour hcolon hminute =>
      refine (isOffset_cons_iff (by simp [twoDigits])).mpr ⟨hsign, hour, colon ++ twoDigits minute,
        minute, twoDigits?_eq_some_iff.mpr ⟨by omega, rfl⟩, ?_, hhour, hminute⟩
      have hread : twoDigits? (twoDigits minute) = some (minute, []) :=
        twoDigits?_eq_some_iff.mpr ⟨by omega, by simp⟩
      rcases hcolon with rfl | rfl
      · have hdigit : digitChar (minute / 10) ≠ ':' := by
          intro hcolon
          have hascii := Decimal.isAsciiDigit_digitChar (d := minute / 10) (by omega)
          rw [hcolon] at hascii
          exact absurd hascii (by decide)
        have hafter : after? [':'] ([] ++ twoDigits minute) = none := by
          simp [after?, twoDigits, Ne.symm hdigit]
        rw [hafter]
        exact hread
      · exact hread

/-! ## Timestamps -/

/-- What stands behind the date of a timestamp: a letter or a space, a time of day, an offset. -/
def IsTime (cs : List Char) : Prop :=
  ∃ mark clock offset, (mark = 'T' ∨ mark = 't' ∨ mark = ' ') ∧ IsClock clock ∧ IsOffset offset ∧
    cs = mark :: (clock ++ offset)

/-- The timestamps with an offset from UTC. -/
def IsTimestamp (cs : List Char) : Prop :=
  ∃ date time, IsDate date ∧ IsTime time ∧ cs = date ++ time

/-- The reader of timestamps takes just these. -/
theorem looksLikeTimestamp_and_isTimestamp_iff {s : String} :
    looksLikeTimestamp s = true ∧ isTimestamp s = true ↔ IsTimestamp s.toList := by
  rw [looksLikeTimestamp_eq, isTimestamp]
  constructor
  · rintro ⟨hlooks, h⟩
    split at h
    · next mark cs hafter =>
      obtain ⟨date, hdate, htext⟩ := afterDate?_eq_some_iff.mp hafter
      obtain ⟨offset, htime, hoffset⟩ := (Option.any_eq_true _ _).mp (Bool.and_eq_true_iff.mp h).2
      obtain ⟨clock, hclock, rfl⟩ := exists_of_afterTime? htime
      have hmark : mark = 'T' ∨ mark = 't' ∨ mark = ' ' := by
        have hmark := (Bool.and_eq_true_iff.mp hlooks).2
        rw [htext, ← hdate.length_eq, List.drop_left] at hmark
        simpa [beginsLike, or_assoc] using hmark
      exact ⟨date, _, hdate, ⟨mark, clock, offset, hmark, hclock, isOffset_iff.mp hoffset, rfl⟩,
        htext⟩
    · cases h
  · rintro ⟨date, _, hdate, ⟨mark, clock, offset, hmark, hclock, hoffset, rfl⟩, htext⟩
    have hmark' : (mark == 'T' || mark == 't' || mark == ' ') = true := by
      simpa [or_assoc] using hmark
    rw [htext]
    constructor
    · rw [Bool.and_eq_true_iff, ← hdate.length_eq, List.drop_left]
      exact ⟨hdate.beginsLike _, by simp [beginsLike, hmark']⟩
    · rw [afterDate?_eq_some_iff.mpr ⟨date, hdate, rfl⟩]
      simp [hmark', afterTime?_append hclock hoffset.endsClock, isOffset_iff.mpr hoffset]

/-- A text is a date or a timestamp when its first ten characters are a date, and nothing or a time
with its offset stands behind them. -/
theorem isDate_or_isTimestamp_iff {cs : List Char} : IsDate cs ∨ IsTimestamp cs ↔
    IsDate (cs.take 10) ∧ (cs.drop 10 = [] ∨ IsTime (cs.drop 10)) := by
  constructor
  · rintro (hdate | ⟨date, time, hdate, htime, rfl⟩)
    · have hlength : cs.length ≤ 10 := hdate.length_eq.le
      rw [List.take_of_length_le hlength, List.drop_of_length_le hlength]
      exact ⟨hdate, .inl rfl⟩
    · rw [← hdate.length_eq, List.take_left, List.drop_left]
      exact ⟨hdate, .inr htime⟩
  · rintro ⟨hdate, hnil | htime⟩
    · rw [List.take_of_length_le (List.drop_eq_nil_iff.mp hnil)] at hdate
      exact .inl hdate
    · exact .inr ⟨_, _, hdate, htime, (List.take_append_drop 10 cs).symm⟩

end Toolgate.Text
