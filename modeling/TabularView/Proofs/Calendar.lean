import Mathlib.Data.List.Basic
import TabularView.Calendar

set_option autoImplicit false

/-! # Days and dates

Every day has a date of the calendar, and the date has the number of the day
(`CalendarDate.toDays_ofDays`); every date is that of its day (`CalendarDate.ofDays_toDays`). So an
instant shows a date and a time of day exactly if it is the one made of them
(`Instant.shows_iff`). -/

namespace TabularView

namespace CalendarDate

/-! ## Years -/

/-- The year of a day starts at the day or before it, and the next year starts later. -/
theorem yearOf_spec (day : Int) :
    daysBeforeYear (yearOf day) ≤ day ∧ day < daysBeforeYear (yearOf day + 1) := by
  have hguess : daysBeforeYear (day * 400 / 146097 - 1) ≤ day ∧
      day < daysBeforeYear (day * 400 / 146097 + 2) := by
    unfold daysBeforeYear
    omega
  unfold yearOf
  dsimp only
  split
  · next h =>
      rw [Int.sub_add_cancel]
      exact ⟨hguess.1, h⟩
  · next h =>
      split
      · next h' =>
          rw [Int.add_assoc]
          exact ⟨h', hguess.2⟩
      · next h' => exact ⟨Int.not_lt.1 h, Int.not_le.1 h'⟩

/-! ## Months -/

/-- A day of a run of months lies in one of them, behind all days of the months before it. -/
theorem monthAndDay_spec {lengths : List Nat} {n : Nat} (h : n < lengths.foldr (· + ·) 0)
    (month : Nat) :
    ∃ i day, monthAndDay month lengths n = (month + i, day) ∧ 1 ≤ day ∧
      day ≤ lengths[i]?.getD 0 ∧ n + 1 = (lengths.take i).foldr (· + ·) 0 + day := by
  induction lengths generalizing month n with
  | nil => exact absurd h (Nat.not_lt_zero n)
  | cons length rest ih =>
      rw [List.foldr_cons] at h
      unfold monthAndDay
      split
      · next hfirst => exact ⟨0, n + 1, rfl, by omega, hfirst, by simp⟩
      · next hlater =>
          obtain ⟨i, day, hmonth, hday, hlength, hsum⟩ :=
            ih (n := n - length) (by omega) (month + 1)
          refine ⟨i + 1, day, ?_, hday, ?_, ?_⟩
          · rw [hmonth, Nat.add_assoc, Nat.add_comm 1]
          · simpa using hlength
          · rw [List.take_succ_cons, List.foldr_cons]
            omega

/-- The months of a year make up the year. -/
theorem foldr_monthLengths (leap : Bool) :
    (monthLengths leap).foldr (· + ·) 0 = if leap then 366 else 365 := by
  cases leap <;> rfl

theorem daysBeforeYear_next (year : Int) :
    daysBeforeYear (year + 1) =
      daysBeforeYear year + ((monthLengths (isLeapYear year)).foldr (· + ·) 0 : Nat) := by
  rw [daysBeforeYear_add_one, foldr_monthLengths]
  split <;> rfl

/-- A day of the year is a day of a month. -/
theorem exists_ofDays_eq (n : Int) :
    ∃ year month day, ofDays n = { year, month := month + 1, day } ∧ 1 ≤ day ∧
      day ≤ (monthLengths (isLeapYear year))[month]?.getD 0 ∧
      n = daysBeforeYear year - epochDay +
        (((monthLengths (isLeapYear year)).take month).foldr (· + ·) 0 : Nat) + day - 1 := by
  obtain ⟨hstart, hend⟩ := yearOf_spec (n + epochDay)
  rw [daysBeforeYear_next] at hend
  have hinside : (n + epochDay - daysBeforeYear (yearOf (n + epochDay))).toNat <
      (monthLengths (isLeapYear (yearOf (n + epochDay)))).foldr (· + ·) 0 := by
    omega
  obtain ⟨i, day, hmonth, hday, hlength, hsum⟩ := monthAndDay_spec hinside 1
  refine ⟨yearOf (n + epochDay), i, day, ?_, hday, hlength, ?_⟩
  · simp only [ofDays, hmonth, Nat.add_comm]
  · omega

theorem toDays_ofDays (n : Int) : (ofDays n).toDays = n := by
  obtain ⟨year, month, day, hdate, -, -, hn⟩ := exists_ofDays_eq n
  rw [hdate]
  exact hn.symm

/-- The date of a day is a date of the calendar. -/
theorem of?_ofDays (n : Int) :
    of? (ofDays n).year (ofDays n).month (ofDays n).day = some (ofDays n) := by
  obtain ⟨year, month, day, hdate, hday, hlength, -⟩ := exists_ofDays_eq n
  rw [hdate]
  exact if_pos ⟨hday, hlength⟩

/-! ## Dates of the calendar -/

/-- The calendar has the date. -/
def IsValid (d : CalendarDate) : Prop :=
  1 ≤ d.day ∧ d.day ≤ daysInMonth d.year d.month

theorem of?_eq_some_iff {year : Int} {month day : Nat} {d : CalendarDate} :
    of? year month day = some d ↔ d = { year, month, day } ∧ d.IsValid := by
  simp only [of?, Option.ite_none_right_eq_some, Option.some.injEq]
  constructor
  · rintro ⟨h, rfl⟩
    exact ⟨rfl, h⟩
  · rintro ⟨rfl, h⟩
    exact ⟨h, rfl⟩

theorem isValid_ofDays (n : Int) : (ofDays n).IsValid :=
  (of?_eq_some_iff.1 (of?_ofDays n)).2

/-- Later years start later. -/
theorem daysBeforeYear_le {year year' : Int} (h : year ≤ year') :
    daysBeforeYear year ≤ daysBeforeYear year' := by
  unfold daysBeforeYear
  omega

/-- A day lies in a year or after it if it is not before the start of the year. -/
theorem le_yearOf_iff {year day : Int} : year ≤ yearOf day ↔ daysBeforeYear year ≤ day := by
  obtain ⟨hstart, hend⟩ := yearOf_spec day
  constructor
  · exact fun h => Int.le_trans (daysBeforeYear_le h) hstart
  · intro h
    by_contra hlater
    have hnext := daysBeforeYear_le (show yearOf day + 1 ≤ year by omega)
    omega

theorem yearOf_eq {year day : Int} (hstart : daysBeforeYear year ≤ day)
    (hend : day < daysBeforeYear (year + 1)) : yearOf day = year := by
  have hle := le_yearOf_iff.2 hstart
  have hlt := mt le_yearOf_iff.1 (Int.not_le.2 hend)
  omega

/-- The `day`-th day of a month lies behind all days of the months before it. -/
theorem monthAndDay_eq {lengths : List Nat} {i day : Nat} (hday : 1 ≤ day)
    (hlength : day ≤ lengths[i]?.getD 0) (month : Nat) :
    monthAndDay month lengths ((lengths.take i).foldr (· + ·) 0 + (day - 1)) =
      (month + i, day) := by
  induction lengths generalizing i month with
  | nil =>
      rw [List.getElem?_nil, Option.getD_none] at hlength
      omega
  | cons length rest ih =>
      unfold monthAndDay
      cases i with
      | zero =>
          rw [List.getElem?_cons_zero, Option.getD_some] at hlength
          rw [List.take_zero, List.foldr_nil, if_pos (by omega)]
          congr 1
          omega
      | succ i =>
          rw [List.take_succ_cons, List.foldr_cons, if_neg (by omega), Nat.add_assoc,
            Nat.add_sub_cancel_left, ih hlength, Nat.add_assoc, Nat.add_comm 1]

/-- A day of a month is a day of the year. -/
theorem foldr_take_lt {lengths : List Nat} {i day : Nat} (hday : 1 ≤ day)
    (hlength : day ≤ lengths[i]?.getD 0) :
    (lengths.take i).foldr (· + ·) 0 + (day - 1) < lengths.foldr (· + ·) 0 := by
  induction lengths generalizing i with
  | nil =>
      rw [List.getElem?_nil, Option.getD_none] at hlength
      omega
  | cons length rest ih =>
      cases i with
      | zero =>
          rw [List.getElem?_cons_zero, Option.getD_some] at hlength
          rw [List.take_zero, List.foldr_nil, List.foldr_cons]
          omega
      | succ i =>
          have hrest := ih hlength
          rw [List.take_succ_cons, List.foldr_cons, List.foldr_cons]
          omega

theorem ofDays_toDays {d : CalendarDate} (h : d.IsValid) : ofDays d.toDays = d := by
  obtain ⟨year, month, day⟩ := d
  obtain ⟨hday, hlength⟩ := h
  dsimp only at hday hlength
  unfold daysInMonth at hlength
  split at hlength
  · omega
  · next hmonth =>
      have hinside := foldr_take_lt hday hlength
      have hsplit := monthAndDay_eq hday hlength 1
      have hnext := daysBeforeYear_next year
      have hdays : toDays { year, month, day } + epochDay = daysBeforeYear year +
          (((monthLengths (isLeapYear year)).take (month - 1)).foldr (· + ·) 0 +
            (day - 1) : Nat) := by
        simp only [toDays]
        omega
      have hyear : yearOf (toDays { year, month, day } + epochDay) = year :=
        yearOf_eq (by omega) (by omega)
      have hplace : (toDays { year, month, day } + epochDay - daysBeforeYear year).toNat =
          ((monthLengths (isLeapYear year)).take (month - 1)).foldr (· + ·) 0 + (day - 1) := by
        omega
      simp only [ofDays, hyear, hplace, hsplit]
      congr 1
      omega

end CalendarDate

/-! ## What clocks show -/

namespace Instant

/-- Clocks at UTC show a date and a time of day. -/
def Shows (t : Instant) (date : CalendarDate) (hour minute second nanos : Nat) : Prop :=
  t.date = date ∧ t.secondOfDay = hour * 3600 + minute * 60 + second ∧ t.nanos = nanos

theorem shows_iff {t : Instant} {date : CalendarDate} {hour minute second nanos : Nat}
    (hdate : date.IsValid) (hhour : hour < 24) (hminute : minute < 60) (hsecond : second < 60) :
    t.Shows date hour minute second nanos ↔ t = ofDate date hour minute second nanos := by
  obtain ⟨seconds, n⟩ := t
  simp only [Shows, Instant.date, secondOfDay, secondsPerDay, ofDate, Instant.mk.injEq]
  constructor
  · rintro ⟨rfl, hclock, rfl⟩
    rw [CalendarDate.toDays_ofDays]
    exact ⟨by omega, rfl⟩
  · rintro ⟨rfl, rfl⟩
    have hday : (date.toDays * 86400 + hour * 3600 + minute * 60 + second) / 86400 =
        date.toDays := by omega
    rw [hday, CalendarDate.ofDays_toDays hdate]
    exact ⟨rfl, by omega, rfl⟩

end Instant

end TabularView
