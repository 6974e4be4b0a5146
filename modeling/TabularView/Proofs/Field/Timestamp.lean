import Mathlib.Data.List.TakeWhile
import TabularView.Field.Date
import TabularView.Proofs.Calendar
import TabularView.Proofs.Field.Date
import TabularView.Proofs.Number.Reading

set_option autoImplicit false

/-! # Timestamps

An engine reads a timestamp as a date and a time of day in UTC, and the year may have a sign. The
text of an instant is read back as the instant (`Instant.ofText?_text`). -/

namespace TabularView

/-! ## Digits of a given number -/

namespace Text

theorem toList_padded (width n : Nat) :
    (padded width n).toList =
      List.replicate (width - (Nat.toDigits 10 n).length) '0' ++ Nat.toDigits 10 n := by
  have hdigits : (toString n).toList = Nat.toDigits 10 n := toList_toString_ofNat n
  simp only [padded, String.toList_append, String.toList_ofList, ← String.length_toList, hdigits]

theorem isDigit_of_mem_padded {width n : Nat} {c : Char} (h : c ∈ (padded width n).toList) :
    c.isDigit = true := by
  rw [toList_padded, List.mem_append] at h
  rcases h with h | h
  · rw [List.eq_of_mem_replicate h]
    rfl
  · exact isDigit_of_mem_toDigits h

theorem ofDigitChars_padded (width n : Nat) :
    Nat.ofDigitChars 10 (padded width n).toList 0 = n := by
  rw [toList_padded, Nat.ofDigitChars_append, Nat.ofDigitChars_replicate_zero, Nat.mul_zero,
    Nat.ofDigitChars_ten_toDigits]

theorem padded_ne_nil (width n : Nat) : (padded width n).toList ≠ [] := by
  rw [toList_padded]
  exact List.append_ne_nil_of_right_ne_nil _ Nat.toDigits_ne_nil

theorem length_padded {width n : Nat} (hwidth : 0 < width) (h : n < 10 ^ width) :
    (padded width n).toList.length = width := by
  have hlength : (Nat.toDigits 10 n).length ≤ width :=
    (Nat.length_toDigits_le_iff (by decide) hwidth).2 h
  rw [toList_padded, List.length_append, List.length_replicate]
  omega

theorem readNat?_padded (width n : Nat) : readNat? (padded width n).toList = some n := by
  rw [readNat?_eq (padded_ne_nil width n) fun c hc => isDigit_of_mem_padded hc, ofDigitChars_padded]

theorem twoDigits_eq {n : Nat} (h : n < 100) : twoDigits n = padded 2 n := by
  have hlength := fun k (hk : 0 < k) => Nat.length_toDigits_le_iff (n := n) (by decide : 1 < 10) hk
  have htwo := (hlength 2 (by decide)).2 h
  have hone := hlength 1 (by decide)
  have hpos := Nat.length_toDigits_pos (b := 10) (n := n)
  have hdigits : (toString n).toList = Nat.toDigits 10 n := toList_toString_ofNat n
  rw [← String.toList_inj, toList_padded, twoDigits, String.toList_append, hdigits]
  split
  · next hsmall =>
      have hzero : 2 - (Nat.toDigits 10 n).length = 1 := by omega
      rw [hzero]
      rfl
  · next hlarge =>
      have hzero : 2 - (Nat.toDigits 10 n).length = 0 := by omega
      rw [hzero]
      rfl

theorem isDecimalDigit_of_isDigit {c : Char} (h : c.isDigit = true) : isDecimalDigit c = true :=
  isDecimalDigit_of_asciiDigit? (asciiDigit?_of_isDigit h)

end Text

/-! ## Times of day -/

namespace DateText

theorem isGroup_padded {width n : Nat} (hwidth : 0 < width) (h : n < 10 ^ width) :
    IsGroup width (Text.padded width n).toList :=
  ⟨Text.length_padded hwidth h,
    fun _ hc => Text.isDecimalDigit_of_isDigit (Text.isDigit_of_mem_padded hc)⟩

/-- The characters of a fraction with its point. -/
def fractionChars : Option (List Char) → List Char
  | none => []
  | some digits => '.' :: digits

/-- Three, six or nine digits, if there are any. -/
def IsFraction (fraction : Option (List Char)) : Prop :=
  ∀ digits ∈ fraction, (∀ c ∈ digits, c.isDigit = true) ∧ digits.length ∈ [3, 6, 9]

/-- Nanoseconds are written with three, six or nine digits, or not at all. -/
theorem exists_fractionText {nanos : Nat} (h : nanos < 10 ^ 9) :
    ∃ fraction, (Instant.fractionText nanos).toList = fractionChars fraction ∧
      nanosOf? fraction = some nanos ∧ IsFraction fraction := by
  have hwritten : ∀ width n, width ∈ [3, 6, 9] → n < 10 ^ width → n * 10 ^ (9 - width) = nanos →
      nanosOf? (some (Text.padded width n).toList) = some nanos ∧
        IsFraction (some (Text.padded width n).toList) := by
    intro width n hwidth hn hnanos
    have hpos : 0 < width := (by decide : ∀ width ∈ [3, 6, 9], 0 < width) width hwidth
    have hlength := Text.length_padded hpos hn
    have hdigits : ∀ c ∈ (Text.padded width n).toList, c.isDigit = true :=
      fun c hc => Text.isDigit_of_mem_padded hc
    have hzeros : ∀ c ∈ List.replicate (9 - width) '0', c.isDigit = true := by
      intro c hc
      rw [List.eq_of_mem_replicate hc]
      rfl
    constructor
    · unfold nanosOf?
      dsimp only
      rw [hlength, Text.readNat?_eq
          (List.append_ne_nil_of_left_ne_nil (Text.padded_ne_nil width n) _)
          (List.forall_mem_append.2 ⟨hdigits, hzeros⟩),
        Nat.ofDigitChars_append, Text.ofDigitChars_padded, Nat.ofDigitChars_replicate_zero,
        Nat.mul_comm, hnanos]
    · intro digits hsome
      obtain rfl := Option.some.inj hsome
      refine ⟨hdigits, ?_⟩
      rwa [hlength]
  unfold Instant.fractionText
  split
  · next hzero => exact ⟨none, rfl, hzero ▸ rfl, fun _ h => nomatch h⟩
  · split
    · obtain ⟨hvalue, hdigits⟩ := hwritten 3 (nanos / 1000000) (by decide) (by omega)
        (by omega)
      exact ⟨_, by simp [fractionChars], hvalue, hdigits⟩
    · split
      · obtain ⟨hvalue, hdigits⟩ := hwritten 6 (nanos / 1000) (by decide) (by omega)
          (by omega)
        exact ⟨_, by simp [fractionChars], hvalue, hdigits⟩
      · obtain ⟨hvalue, hdigits⟩ := hwritten 9 nanos (by decide) h (by omega)
        exact ⟨_, by simp [fractionChars], hvalue, hdigits⟩

/-- The characters of a time of day. -/
def clockChars (hour minute second : Nat) (fraction : Option (List Char)) : List Char :=
  (Text.padded 2 hour).toList ++ ':' :: ((Text.padded 2 minute).toList ++ ':' ::
    ((Text.padded 2 second).toList ++ fractionChars fraction))

section Clock

variable (hour minute second : Nat) {nanos : Nat} {fraction : Option (List Char)}

/-- A time of day as an engine writes it is a time of day of a date. -/
theorem spellsTime_clockChars (hhour : hour < 24) (hminute : minute < 60) (hsecond : second < 60)
    (hfraction : IsFraction fraction) :
    SpellsTime (some {
        hour := (Text.padded 2 hour).toList
        minute := (Text.padded 2 minute).toList
        second := some (Text.padded 2 second).toList
        fraction }) (' ' :: clockChars hour minute second fraction) := by
  have hgroup : ∀ n < 100, IsGroup 2 (Text.padded 2 n).toList :=
    fun n hn => isGroup_padded (by decide) hn
  refine .clock (.inr rfl) (hgroup hour (by omega)) (hgroup minute (by omega)) ?_
  cases fraction with
  | none =>
      rw [fractionChars, List.append_nil]
      exact .whole (hgroup second (by omega))
  | some digits =>
      obtain ⟨hdigits, hlength⟩ := hfraction digits rfl
      have hbounds : ∀ n ∈ [3, 6, 9], 1 ≤ n ∧ n ≤ 9 := by decide
      obtain ⟨hlow, hhigh⟩ := hbounds _ hlength
      exact .fraction (hgroup second (by omega)) hlow hhigh
        ⟨rfl, fun c hc => Text.isDecimalDigit_of_isDigit (hdigits c hc)⟩

theorem atClock?_padded (hhour : hour < 24) (hminute : minute < 60) (hsecond : second < 60)
    (hnanos : nanosOf? fraction = some nanos) (date : CalendarDate) :
    atClock? date (some {
        hour := (Text.padded 2 hour).toList
        minute := (Text.padded 2 minute).toList
        second := some (Text.padded 2 second).toList
        fraction }) = some (.ofDate date hour minute second nanos) := by
  have hclock : ∀ n, clockValue (some (Text.padded 2 n).toList) = n := by
    intro n
    simp only [clockValue, Option.bind_some, Text.readNat?_padded, Option.getD_some]
  simp only [atClock?, Option.map_some, Option.bind_some, hclock, hnanos, bind, hhour, hminute,
    hsecond, and_self, if_true]

end Clock

end DateText

/-! ## Timestamps -/

namespace Instant

/-- The instant of a date, with or without a sign in front of its year, and a time of day in UTC. -/
def ofText? (s : List Char) : Option Instant := do
  let (negative, body) := Numeral.splitSign s
  let year := body.takeWhile Text.isAsciiDigit
  let (month, rest) ← DateText.takeDigits 2 (← DateText.expect '-' (body.drop year.length))
  let (day, rest) ← DateText.takeDigits 2 (← DateText.expect '-' rest)
  let (time, rest) ← DateText.scanTime rest
  let y ← Text.readNat? year
  let m ← Text.readNat? month
  let d ← Text.readNat? day
  let date ← CalendarDate.of? (if negative then -y else y) m d
  let t ← DateText.atClock? date time
  if rest = [] then some t else none

/-- The characters of a date without its year. -/
def monthChars (date : CalendarDate) : List Char :=
  '-' :: ((Text.padded 2 date.month).toList ++ '-' :: (Text.padded 2 date.day).toList)

/-- The numbers of a month and of a day have two digits. -/
theorem month_lt_and_day_lt (t : Instant) : t.date.month < 100 ∧ t.date.day < 100 := by
  obtain ⟨year, month, day, hdate, hday, hlength, -⟩ :=
    CalendarDate.exists_ofDays_eq (t.seconds / secondsPerDay)
  have hshort : ∀ leap : Bool, ∀ i < 12, (monthLengths leap)[i]?.getD 0 ≤ 31 := by decide
  have hmonth : month < 12 := by
    by_contra hlater
    have hnone : (monthLengths (isLeapYear year))[month]? = none :=
      List.getElem?_eq_none (Nat.not_lt.1 hlater)
    rw [hnone, Option.getD_none] at hlength
    omega
  have hdays := hlength.trans (hshort _ month hmonth)
  rw [date, hdate]
  exact ⟨show month + 1 < 100 by omega, show day < 100 by omega⟩

theorem secondOfDay_lt (t : Instant) : t.secondOfDay < 86400 := by
  unfold secondOfDay secondsPerDay
  omega

/-- The parts of a date with a time of day. -/
theorem toList_text (t : Instant) {fraction : Option (List Char)}
    (hfraction : (fractionText t.nanos).toList = DateText.fractionChars fraction) :
    t.text.toList = (yearText t.date.year).toList ++ (monthChars t.date ++
      ' ' :: DateText.clockChars (t.secondOfDay / 3600) (t.secondOfDay / 60 % 60)
        (t.secondOfDay % 60) fraction) := by
  obtain ⟨hmonth, hday⟩ := t.month_lt_and_day_lt
  have hsecond := t.secondOfDay_lt
  simp only [text, Text.twoDigits_eq hmonth, Text.twoDigits_eq hday,
    Text.twoDigits_eq (show t.secondOfDay / 3600 < 100 by omega),
    Text.twoDigits_eq (show t.secondOfDay / 60 % 60 < 100 by omega),
    Text.twoDigits_eq (show t.secondOfDay % 60 < 100 by omega), String.toList_append, hfraction,
    monthChars, DateText.clockChars]
  simp

theorem ofDate_date (t : Instant) :
    ofDate t.date (t.secondOfDay / 3600) (t.secondOfDay / 60 % 60) (t.secondOfDay % 60) t.nanos =
      t := by
  obtain ⟨seconds, nanos⟩ := t
  simp only [ofDate, date, secondOfDay, CalendarDate.toDays_ofDays, secondsPerDay]
  congr 1
  omega

/-- A year is written with a sign where it does not have four digits. -/
theorem splitSign_yearText (year : Int) (rest : List Char) :
    ∃ negative, Numeral.splitSign ((yearText year).toList ++ rest) =
        (negative, (Text.padded 4 year.natAbs).toList ++ rest) ∧
      (if negative = true then -(year.natAbs : Int) else year.natAbs) = year := by
  unfold yearText
  split
  · next h =>
      have hnat : year.toNat = year.natAbs := by omega
      obtain ⟨c, digits, hdigits⟩ := List.exists_cons_of_ne_nil (Text.padded_ne_nil 4 year.natAbs)
      have hc : c.isDigit = true := Text.isDigit_of_mem_padded (hdigits ▸ List.mem_cons_self ..)
      refine ⟨false, ?_, by simpa using h.1⟩
      rw [hnat, hdigits]
      exact Numeral.splitSign_signed false (by simp) (by simpa using hc)
  · split
    · next hnegative =>
        refine ⟨true, by simp [Numeral.splitSign], ?_⟩
        simp only [if_true]
        omega
    · next hpositive =>
        refine ⟨false, by simp [Numeral.splitSign], ?_⟩
        simp only [Bool.false_eq_true, if_false]
        omega

/-- The text of an instant is read back as the instant. -/
theorem ofText?_text {t : Instant} (h : t.nanos < 10 ^ 9) : ofText? t.text.toList = some t := by
  obtain ⟨fraction, htext, hnanos, hfraction⟩ := DateText.exists_fractionText h
  obtain ⟨hmonth, hday⟩ := t.month_lt_and_day_lt
  have hsecond := t.secondOfDay_lt
  have htake : ∀ n < 100, ∀ rest : List Char,
      DateText.takeDigits 2 ((Text.padded 2 n).toList ++ rest) =
        some ((Text.padded 2 n).toList, rest) := fun n hn rest =>
    DateText.takeDigits_eq_some_iff.2 ⟨DateText.isGroup_padded (by decide) hn, rfl⟩
  have hspells := DateText.spellsTime_clockChars (t.secondOfDay / 3600) (t.secondOfDay / 60 % 60)
    (t.secondOfDay % 60) (by omega) (by omega) (by omega) hfraction
  have htime := hspells.scanTime fun c (hc : c ∈ [].head?) => nomatch hc
  rw [List.append_nil] at htime
  have hclock := DateText.atClock?_padded (t.secondOfDay / 3600) (t.secondOfDay / 60 % 60)
    (t.secondOfDay % 60) (by omega) (by omega) (by omega) hnanos t.date
  rw [t.ofDate_date] at hclock
  rw [t.toList_text htext]
  generalize DateText.clockChars _ _ _ fraction = clock at htime
  obtain ⟨negative, hsplit, hyear⟩ := splitSign_yearText t.date.year
    (monthChars t.date ++ ' ' :: clock)
  have hhyphen : ∀ c ∈ (monthChars t.date ++ ' ' :: clock).head?, Text.isAsciiDigit c = false := by
    intro c hc
    obtain rfl : '-' = c := by simpa [monthChars] using hc
    decide
  obtain ⟨hrun, -⟩ := Text.span_digits
    (fun c (hc : c ∈ (Text.padded 4 t.date.year.natAbs).toList) => Text.isDigit_of_mem_padded hc)
    hhyphen
  have hdate : CalendarDate.of? t.date.year t.date.month t.date.day = some t.date :=
    CalendarDate.of?_ofDays _
  simp only [monthChars, List.cons_append, List.append_assoc] at hsplit hrun ⊢
  simp only [ofText?, hsplit, hrun, List.drop_left, DateText.expect, if_true,
    htake t.date.month hmonth, htake t.date.day hday, htime, Text.readNat?_padded, hyear, hdate,
    hclock, bind, Option.bind_some]

end Instant

/-! ## Dates -/

namespace Text

/-- Each further digit multiplies what can be written by ten. -/
theorem ofDigitChars_lt {digits : List Char} (h : ∀ c ∈ digits, c.isDigit = true) (acc : Nat) :
    Nat.ofDigitChars 10 digits acc < (acc + 1) * 10 ^ digits.length := by
  induction digits generalizing acc with
  | nil => simp
  | cons c rest ih =>
      obtain ⟨hc, hrest⟩ := List.forall_mem_cons.1 h
      have hdigit : c.toNat - '0'.toNat < 10 := by
        simp only [Char.isDigit, Bool.and_eq_true, decide_eq_true_eq] at hc
        have hhigh : c.toNat ≤ 57 := hc.2
        have hzero : '0'.toNat = 48 := rfl
        omega
      rw [Nat.ofDigitChars_cons]
      calc Nat.ofDigitChars 10 rest (10 * acc + (c.toNat - '0'.toNat))
          < (10 * acc + (c.toNat - '0'.toNat) + 1) * 10 ^ rest.length := ih hrest _
        _ ≤ (acc + 1) * 10 * 10 ^ rest.length := Nat.mul_le_mul_right _ (by omega)
        _ = (acc + 1) * 10 ^ (c :: rest).length := by
            rw [List.length_cons, Nat.pow_succ, Nat.mul_assoc, Nat.mul_comm 10]

theorem Writes.lt {digits : List Char} {n : Nat} (h : Writes digits n) :
    n < 10 ^ digits.length := by
  obtain ⟨-, hdigits, rfl⟩ := h
  simpa using ofDigitChars_lt hdigits 0

end Text

namespace DateText

theorem nanos_lt {fraction : Option (List Char)} {nanos : Nat}
    (hlength : ∀ digits ∈ fraction, digits.length ≤ 9) (h : nanosOf? fraction = some nanos) :
    nanos < 10 ^ 9 := by
  cases fraction with
  | none =>
      obtain rfl := Option.some.inj h
      decide
  | some digits =>
      have hnine : (digits ++ List.replicate (9 - digits.length) '0').length = 9 := by
        have hdigits := hlength digits rfl
        rw [List.length_append, List.length_replicate]
        omega
      have hlt := (Text.readNat?_eq_some_iff.1 h).lt
      rwa [hnine] at hlt

/-- A fraction is written with nine digits at most. -/
theorem SpellsTime.length_le {time : Option TimeText} {clock : List Char}
    (h : SpellsTime time clock) : ∀ t ∈ time, ∀ digits ∈ t.fraction, digits.length ≤ 9 := by
  rintro t ht digits hdigits
  cases h with
  | none => cases ht
  | clock _ _ _ hseconds =>
      cases ht
      cases hseconds with
      | none => cases hdigits
      | whole _ => cases hdigits
      | fraction _ _ hhigh hgroup =>
          cases hdigits
          exact hgroup.1.trans_le hhigh

theorem nanos_lt_of_atClock? {date : CalendarDate} {time : Option TimeText} {clock : List Char}
    {t : Instant} (hclock : SpellsTime time clock) (h : atClock? date time = some t) :
    t.nanos < 10 ^ 9 := by
  obtain ⟨nanos, hnanos, h⟩ := Option.bind_eq_some_iff.1 h
  split at h
  · cases h
    refine nanos_lt (fun digits hdigits => ?_) hnanos
    obtain ⟨written, hwritten, hfraction⟩ := Option.bind_eq_some_iff.1 hdigits
    exact hclock.length_le written hwritten digits hfraction
  · cases h

end DateText

/-- A date is read as an instant with a fraction of a second. -/
theorem nanos_lt_of_readDate? {s : String} {t : Instant} (h : readDate? s = some t) :
    t.nanos < 10 ^ 9 := by
  obtain ⟨text, hscan, h⟩ := Option.bind_eq_some_iff.1 h
  cases text with
  | epoch digits =>
      obtain ⟨n, -, rfl⟩ := Option.map_eq_some_iff.1 h
      exact Nat.pow_pos (by decide)
  | slash month day year =>
      obtain ⟨m, -, h⟩ := Option.bind_eq_some_iff.1 h
      obtain ⟨d, -, h⟩ := Option.bind_eq_some_iff.1 h
      obtain ⟨y, -, h⟩ := Option.bind_eq_some_iff.1 h
      obtain ⟨date, -, h⟩ := Option.bind_eq_some_iff.1 h
      cases h
      exact Nat.pow_pos (by decide)
  | iso year month day time zone =>
      obtain ⟨y, -, h⟩ := Option.bind_eq_some_iff.1 h
      obtain ⟨m, -, h⟩ := Option.bind_eq_some_iff.1 h
      obtain ⟨d, -, h⟩ := Option.bind_eq_some_iff.1 h
      obtain ⟨date, -, h⟩ := Option.bind_eq_some_iff.1 h
      obtain ⟨here, hhere, h⟩ := Option.bind_eq_some_iff.1 h
      obtain ⟨ahead, -, h⟩ := Option.bind_eq_some_iff.1 h
      cases h
      show here.nanos < 10 ^ 9
      generalize s.toList = chars at hscan
      cases DateText.scan_eq_some_iff.1 hscan with
      | iso _ _ _ hclock _ => exact DateText.nanos_lt_of_atClock? hclock hhere

end TabularView
