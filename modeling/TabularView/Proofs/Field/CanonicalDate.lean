import TabularView.Proofs.Field.DateMeaning

set_option autoImplicit false

/-! # Instants written as dates

The text of an instant is a date and a time of day in one fixed form, as long as its year has four
digits (`Instant.isTimestamp_text_iff`); then it is read as the instant
(`Instant.readDate?_text`). Outside of these years the text has a sign in front and is no date
(`Instant.scan_text`).

A written date has a year of four digits, but its offset may move it into the year before the first
or after the last of them (`year_of_readDate?`). -/

namespace TabularView

/-! ## The fixed form -/

/-- A group of `n` ASCII digits. -/
def Text.IsDigits (n : Nat) (digits : List Char) : Prop :=
  digits.length = n ∧ ∀ c ∈ digits, c.isDigit = true

theorem Text.isDigits_padded {width n : Nat} (hwidth : 0 < width) (h : n < 10 ^ width) :
    IsDigits width (padded width n).toList :=
  ⟨length_padded hwidth h, fun _ hc => isDigit_of_mem_padded hc⟩

theorem Text.writes_padded (width n : Nat) : Writes (padded width n).toList n :=
  readNat?_eq_some_iff.1 (readNat?_padded width n)

theorem Text.isBlank_of_isDigit {c : Char} (h : c.isDigit = true) : isBlank c = false := by
  simp only [Char.isDigit, Bool.and_eq_true, decide_eq_true_eq] at h
  have hlow : 48 ≤ c.toNat := h.1
  have hhigh : c.toNat ≤ 57 := h.2
  exact isBlank_of_printable (by omega) (by omega)

namespace DateText

/-- `YYYY-MM-DD HH:MM:SS`, where a fraction of three, six or nine digits may follow. -/
inductive IsTimestamp : List Char → Prop
  | mk {year month day hour minute second : List Char} {fraction : Option (List Char)} :
      Text.IsDigits 4 year → Text.IsDigits 2 month → Text.IsDigits 2 day → Text.IsDigits 2 hour →
        Text.IsDigits 2 minute → Text.IsDigits 2 second →
          (∀ digits ∈ fraction, ∃ n ∈ [3, 6, 9], Text.IsDigits n digits) →
            IsTimestamp (year ++ '-' :: (month ++ '-' :: (day ++ ' ' :: (hour ++ ':' ::
              (minute ++ ':' :: (second ++ fractionChars fraction))))))

/-- Such a text starts with a digit. -/
theorem IsTimestamp.exists_cons {s : List Char} (h : IsTimestamp s) :
    ∃ c tail, s = c :: tail ∧ c.isDigit = true := by
  cases h with
  | mk hyear =>
      obtain ⟨hlength, hdigits⟩ := hyear
      obtain ⟨c, more, rfl⟩ := List.exists_cons_of_length_eq_add_one hlength
      exact ⟨c, _, rfl, hdigits c (List.mem_cons_self ..)⟩

/-- A text that is written as a date starts with a digit. -/
theorem Spells.ne_cons {t : DateText} {s : List Char} {c : Char} (h : t.Spells s)
    (hc : Text.isDecimalDigit c = false) (tail : List Char) : s ≠ c :: tail := by
  cases h with
  | epoch hgroup =>
      rw [← List.append_nil s]
      exact hgroup.elim (·.ne_head hc tail) (·.ne_head hc tail)
  | slash hmonth _ _ => exact hmonth.elim (·.ne_head hc tail) (·.ne_head hc tail)
  | iso hyear _ _ _ _ => exact hyear.ne_head hc tail

/-- A meaning is not changed by zeros for groups in other digits, as there are none. -/
theorem Means.withZeroedClock {t : DateText} {i : Instant} (h : t.Means i) :
    t.withZeroedClock.Means i := by
  rw [withZeroedClock_of_not_hasForeignClock fun hforeign =>
    not_means_of_hasForeignClock hforeign i h]
  exact h

/-- A time of day as an engine writes it means this time of day. -/
theorem meansTime_padded (hour minute second : Nat) {nanos : Nat} {fraction : Option (List Char)}
    (hhour : hour < 24) (hminute : minute < 60) (hsecond : second < 60)
    (hfraction : MeansFraction fraction nanos) :
    MeansTime (some {
        hour := (Text.padded 2 hour).toList
        minute := (Text.padded 2 minute).toList
        second := some (Text.padded 2 second).toList
        fraction }) hour minute second nanos := by
  refine .clock ?_ hhour ?_ hminute ?_ hsecond hfraction <;> dsimp only [MeansSecond]
  · exact Text.writes_padded 2 hour
  · exact Text.writes_padded 2 minute
  · exact Text.writes_padded 2 second

end DateText

/-! ## Years of four digits -/

namespace Instant

/-- The year of the instant has four digits. -/
def HasPlainYear (t : Instant) : Prop :=
  0 ≤ t.date.year ∧ t.date.year ≤ 9999

theorem HasPlainYear.natAbs_lt {t : Instant} (h : t.HasPlainYear) :
    t.date.year.natAbs < 10 ^ 4 := by
  obtain ⟨hlow, hhigh⟩ := h
  omega

theorem yearText_eq_padded {year : Int} (h : 0 ≤ year ∧ year ≤ 9999) :
    yearText year = Text.padded 4 year.natAbs := by
  have hnat : year.toNat = year.natAbs := by omega
  rw [yearText, if_pos h, hnat]

/-- In other years there is a sign in front. -/
theorem exists_sign_text {t : Instant} (h : ¬ t.HasPlainYear) :
    ∃ c, (c = '+' ∨ c = '-') ∧ ∃ tail, t.text.toList = c :: tail := by
  have hyear : ∃ c, (c = '+' ∨ c = '-') ∧ ∃ tail, (yearText t.date.year).toList = c :: tail := by
    rw [yearText, if_neg (show ¬ (0 ≤ t.date.year ∧ t.date.year ≤ 9999) from h)]
    split
    · exact ⟨'-', .inr rfl, (Text.padded 4 t.date.year.natAbs).toList, by simp⟩
    · exact ⟨'+', .inl rfl, (Text.padded 4 t.date.year.natAbs).toList, by simp⟩
  obtain ⟨c, hc, tail, htail⟩ := hyear
  refine ⟨c, hc, ?_⟩
  simp only [text, String.toList_append, htail, List.cons_append]
  exact ⟨_, rfl⟩

theorem earlier_zero (t : Instant) : t.earlier 0 = t := by
  simp [earlier]

end Instant

namespace DateText

/-- The date that an instant is written as, with a fraction of its second. -/
def ofInstant (t : Instant) (fraction : Option (List Char)) : DateText :=
  .iso (Text.padded 4 t.date.year.natAbs).toList (Text.padded 2 t.date.month).toList
    (Text.padded 2 t.date.day).toList
    (some {
      hour := (Text.padded 2 (t.secondOfDay / 3600)).toList
      minute := (Text.padded 2 (t.secondOfDay / 60 % 60)).toList
      second := some (Text.padded 2 (t.secondOfDay % 60)).toList
      fraction })
    none

section OfInstant

variable {t : Instant} (hyear : t.HasPlainYear) {fraction : Option (List Char)}

include hyear

theorem spells_ofInstant (htext : (Instant.fractionText t.nanos).toList = fractionChars fraction)
    (hfraction : IsFraction fraction) :
    (ofInstant t fraction).Spells t.text.toList := by
  obtain ⟨hmonth, hday⟩ := t.month_lt_and_day_lt
  have hsecond := t.secondOfDay_lt
  have hgroup : ∀ n < 100, IsGroup 2 (Text.padded 2 n).toList :=
    fun n hn => isGroup_padded (by decide) hn
  have hfour : IsGroup 4 (Text.padded 4 t.date.year.natAbs).toList :=
    isGroup_padded (by decide) hyear.natAbs_lt
  have hclock := spellsTime_clockChars (t.secondOfDay / 3600) (t.secondOfDay / 60 % 60)
    (t.secondOfDay % 60) (by omega) (by omega) (by omega) hfraction
  have hspells := Spells.iso hfour (hgroup _ hmonth) (hgroup _ hday) hclock .none
  rw [List.append_nil] at hspells
  have hchars := t.toList_text htext
  rw [Instant.yearText_eq_padded hyear] at hchars
  simp only [Instant.monthChars, List.cons_append, List.append_assoc] at hchars
  rw [← hchars] at hspells
  exact hspells

theorem means_ofInstant (hvalue : nanosOf? fraction = some t.nanos)
    (hfraction : IsFraction fraction) :
    (ofInstant t fraction).Means t := by
  have hsecond := t.secondOfDay_lt
  have hne : ∀ digits ∈ fraction, digits ≠ [] := by
    rintro digits hdigits rfl
    exact absurd (hfraction [] hdigits).2 (by decide)
  have hshows : t.Shows t.date (t.secondOfDay / 3600) (t.secondOfDay / 60 % 60)
      (t.secondOfDay % 60) t.nanos :=
    ⟨rfl, by omega, rfl⟩
  have hyearValue : t.date.year = t.date.year.natAbs := by
    have hlow := hyear.1
    omega
  have hdate : t.date.IsValid := CalendarDate.isValid_ofDays _
  have hnanos : MeansFraction fraction t.nanos := (nanosOf?_eq_some_iff hne).1 hvalue
  have htime := meansTime_padded (t.secondOfDay / 3600) (t.secondOfDay / 60 % 60)
    (t.secondOfDay % 60) (by omega) (by omega) (by omega) hnanos
  have hzone : MeansZone none 0 := rfl
  have hmeans := Means.iso (Text.writes_padded 4 t.date.year.natAbs) hyearValue
    (Text.writes_padded 2 t.date.month) (Text.writes_padded 2 t.date.day) hdate htime hshows hzone
  rw [t.earlier_zero] at hmeans
  exact hmeans

end OfInstant

end DateText

namespace Instant

section Text

variable {t : Instant} (hnanos : t.nanos < 10 ^ 9)

include hnanos

theorem isTimestamp_text (hyear : t.HasPlainYear) : DateText.IsTimestamp t.text.toList := by
  obtain ⟨fraction, htext, -, hfraction⟩ := DateText.exists_fractionText hnanos
  obtain ⟨hmonth, hday⟩ := t.month_lt_and_day_lt
  have hsecond := t.secondOfDay_lt
  have hgroup : ∀ n < 100, Text.IsDigits 2 (Text.padded 2 n).toList :=
    fun n hn => Text.isDigits_padded (by decide) hn
  have hfour : Text.IsDigits 4 (Text.padded 4 t.date.year.natAbs).toList :=
    Text.isDigits_padded (by decide) hyear.natAbs_lt
  rw [t.toList_text htext, yearText_eq_padded hyear]
  simp only [monthChars, DateText.clockChars, List.cons_append, List.append_assoc]
  exact .mk hfour (hgroup _ hmonth) (hgroup _ hday) (hgroup _ (by omega)) (hgroup _ (by omega))
    (hgroup _ (by omega)) fun digits hdigits =>
      ⟨_, (hfraction digits hdigits).2, rfl, (hfraction digits hdigits).1⟩

/-- The text of an instant is in the fixed form exactly if its year has four digits. -/
theorem isTimestamp_text_iff : DateText.IsTimestamp t.text.toList ↔ t.HasPlainYear := by
  refine ⟨fun h => ?_, isTimestamp_text hnanos⟩
  by_contra hyear
  obtain ⟨c, hc, tail, htail⟩ := exists_sign_text hyear
  obtain ⟨d, more, hmore, hd⟩ := h.exists_cons
  obtain rfl := (List.cons.inj (hmore.symm.trans htail)).1
  rcases hc with rfl | rfl <;> exact absurd hd (by decide)

/-- The text is made of digits and separators. -/
theorem isDigit_or_mem_of_mem_text {c : Char} (h : c ∈ t.text.toList) :
    c.isDigit = true ∨ c ∈ ['+', '-', ' ', ':', '.'] := by
  obtain ⟨fraction, htext, -, hfraction⟩ := DateText.exists_fractionText hnanos
  have hpadded : ∀ {width n : Nat}, c ∈ (Text.padded width n).toList → c.isDigit = true :=
    Text.isDigit_of_mem_padded
  have hyear : c ∈ (yearText t.date.year).toList → c.isDigit = true ∨ c = '+' ∨ c = '-' := by
    unfold yearText
    split
    · exact fun hc => .inl (hpadded hc)
    · rw [String.toList_append, List.mem_append]
      rintro (hc | hc)
      · split at hc
        · exact .inr (.inr (List.mem_singleton.1 hc))
        · exact .inr (.inl (List.mem_singleton.1 hc))
      · exact .inl (hpadded hc)
  have hchars : c ∈ DateText.fractionChars fraction → c.isDigit = true ∨ c = '.' := by
    cases fraction with
    | none => exact fun hc => nomatch hc
    | some digits =>
        intro hc
        exact (List.mem_cons.1 hc).symm.imp_left ((hfraction digits rfl).1 c)
  rw [t.toList_text htext] at h
  simp only [monthChars, DateText.clockChars, List.mem_append, List.mem_cons] at h ⊢
  grind

/-- The text ends in digits. -/
theorem exists_append_digits : ∃ front digits, t.text.toList = front ++ digits ∧ digits ≠ [] ∧
    ∀ c ∈ digits, c.isDigit = true := by
  obtain ⟨fraction, htext, -, hfraction⟩ := DateText.exists_fractionText hnanos
  have hchars : ∃ front, t.text.toList =
      front ++ (Text.twoDigits (t.secondOfDay % 60)).toList ++ (fractionText t.nanos).toList := by
    simp only [text, String.toList_append]
    exact ⟨_, rfl⟩
  obtain ⟨front, hfront⟩ := hchars
  rw [Text.twoDigits_eq (by omega), htext] at hfront
  cases fraction with
  | none =>
      rw [DateText.fractionChars, List.append_nil] at hfront
      exact ⟨_, _, hfront, Text.padded_ne_nil _ _, fun c hc => Text.isDigit_of_mem_padded hc⟩
  | some digits =>
      obtain ⟨hdigits, hlength⟩ := hfraction digits rfl
      refine ⟨_, digits, hfront.trans (List.append_cons ..), ?_, hdigits⟩
      rintro rfl
      exact absurd hlength (by decide)

/-- Neither end of the text is blank. -/
theorem trim_text : Text.trim t.text = t.text := by
  have hfirst : ∀ c ∈ t.text.toList.head?, Text.isBlank c = false := by
    intro c hc
    by_cases hyear : t.HasPlainYear
    · obtain ⟨d, tail, htail, hd⟩ := (isTimestamp_text hnanos hyear).exists_cons
      rw [htail] at hc
      cases hc
      exact Text.isBlank_of_isDigit hd
    · obtain ⟨d, hd, tail, htail⟩ := exists_sign_text hyear
      rw [htail] at hc
      cases hc
      rcases hd with rfl | rfl <;> decide
  have hlast : ∀ c ∈ t.text.toList.getLast?, Text.isBlank c = false := by
    obtain ⟨front, digits, htext, hne, hdigits⟩ := exists_append_digits hnanos
    rw [htext, List.getLast?_append_of_ne_nil _ hne]
    exact fun c hc => Text.isBlank_of_isDigit (hdigits c (List.mem_of_getLast? hc))
  rw [Text.trim, Text.trimmed_eq_self hfirst hlast, String.ofList_toList]

/-- The text of an instant in a year of four digits is read as the instant. -/
theorem readDate?_text (hyear : t.HasPlainYear) : readDate? t.text = some t := by
  obtain ⟨fraction, htext, hvalue, hfraction⟩ := DateText.exists_fractionText hnanos
  have hspells := DateText.spells_ofInstant hyear htext hfraction
  have hmeans := DateText.means_ofInstant hyear hvalue hfraction
  exact readDate?_eq_some_iff.2 ⟨_, hspells, hmeans.withZeroedClock⟩

omit hnanos

/-- In other years the text is in no form of dates. -/
theorem scan_text (hyear : ¬ t.HasPlainYear) : DateText.scan t.text.toList = none := by
  obtain ⟨c, hc, tail, htail⟩ := exists_sign_text hyear
  have hsign : Text.isDecimalDigit c = false := by
    rcases hc with rfl | rfl <;> decide
  refine Option.eq_none_iff_forall_not_mem.2 fun d hd => ?_
  exact (DateText.scan_eq_some_iff.1 hd).ne_cons hsign tail htail

theorem readDate?_text_eq_none (hyear : ¬ t.HasPlainYear) : readDate? t.text = none := by
  rw [readDate?, scan_text hyear, Option.bind_none]

end Text

/-! ## Years of written dates -/

theorem le_year_iff {t : Instant} {year : Int} :
    year ≤ t.date.year ↔ (daysBeforeYear year - epochDay) * secondsPerDay ≤ t.seconds := by
  have hyear : t.date.year = CalendarDate.yearOf (t.seconds / secondsPerDay + epochDay) := rfl
  rw [hyear, CalendarDate.le_yearOf_iff, ← Int.le_ediv_iff_mul_le (by decide)]
  omega

theorem hasPlainYear_iff {t : Instant} :
    t.HasPlainYear ↔ -62167219200 ≤ t.seconds ∧ t.seconds < 253402300800 := by
  have hfirst : 0 ≤ t.date.year ↔ -62167219200 ≤ t.seconds := le_year_iff
  have hlast : 10000 ≤ t.date.year ↔ 253402300800 ≤ t.seconds := le_year_iff
  unfold HasPlainYear
  omega

/-- An offset leads at most into the year before the first or after the last. -/
theorem HasPlainYear.earlier {t : Instant} (h : t.HasPlainYear) {seconds : Int}
    (hlow : -86400 < seconds) (hhigh : seconds < 86400) :
    (t.earlier seconds).HasPlainYear ∨ (t.earlier seconds).date.year = -1 ∨
      (t.earlier seconds).date.year = 10000 := by
  have hbefore : -1 ≤ (t.earlier seconds).date.year ↔ -62198755200 ≤ t.seconds - seconds :=
    le_year_iff
  have hafter : 10001 ≤ (t.earlier seconds).date.year ↔ 253433923200 ≤ t.seconds - seconds :=
    le_year_iff
  rw [hasPlainYear_iff] at h
  unfold HasPlainYear
  omega

end Instant

namespace DateText

/-- A written zone is UTC, or an offset of less than a day. -/
theorem MeansZone.eq_zero_or {zone : Option ZoneText} {ahead : Int} (h : MeansZone zone ahead) :
    ahead = 0 ∨ (-86400 < ahead ∧ ahead < 86400) ∧
      ∃ negative hours minutes, zone = some (.offset negative hours minutes) := by
  cases zone with
  | none => exact .inl h
  | some zone =>
      cases zone with
      | utc => exact .inl h
      | offset negative hours minutes =>
          obtain ⟨hour, minute, -, hhour, -, hminute, rfl⟩ := h
          refine .inr ⟨?_, negative, hours, minutes, rfl⟩
          split <;> omega

/-- Only an offset leads out of the years of four digits, and not further than a year. -/
theorem Means.hasPlainYear_or {t : DateText} {s : List Char} {i : Instant} (hspells : t.Spells s)
    (h : t.withZeroedClock.Means i) :
    i.HasPlainYear ∨ (i.date.year = -1 ∨ i.date.year = 10000) ∧
      ∃ year month day time negative hours minutes,
        t = .iso year month day time (some (.offset negative hours minutes)) := by
  cases hspells with
  | epoch hgroup =>
      cases h with
      | @epoch _ n hn =>
          have hlength := hgroup.imp (·.1) (·.1)
          have hlt : n < 10 ^ 11 := by
            rcases hlength with hlength | hlength
            · exact (hlength ▸ hn.lt).trans (by decide)
            · exact hlength ▸ hn.lt
          refine .inl (Instant.hasPlainYear_iff.2 ?_)
          dsimp only
          omega
  | slash _ _ hgroup =>
      cases h with
      | @slash _ _ _ y date _ _ _ hy hyear _ hshows =>
          have hdate : 0 ≤ date.year ∧ date.year ≤ 9999 := by
            rcases hgroup with hgroup | hgroup
            · have hlt : y < 10 ^ 2 := hgroup.1 ▸ hy.lt
              rw [if_pos hgroup.1] at hyear
              split at hyear <;> omega
            · have hlt : y < 10 ^ 4 := hgroup.1 ▸ hy.lt
              rw [if_neg (by rw [hgroup.1]; decide)] at hyear
              omega
          exact .inl (show _ ∧ _ from hshows.1.symm ▸ hdate)
  | iso hgroup _ _ _ _ =>
      cases h with
      | @iso _ _ _ _ _ y date _ _ _ _ ahead here hy hyear _ _ _ _ hshows hzone =>
          have hlt : y < 10 ^ 4 := hgroup.1 ▸ hy.lt
          have hplain : here.HasPlainYear := by
            unfold Instant.HasPlainYear
            rw [hshows.1]
            omega
          rcases hzone.eq_zero_or with rfl | ⟨⟨hlow, hhigh⟩, negative, hours, minutes, rfl⟩
          · rw [here.earlier_zero]
            exact .inl hplain
          · exact (hplain.earlier hlow hhigh).imp_right fun hyear =>
              ⟨hyear, _, _, _, _, _, _, _, rfl⟩

end DateText

/-- A text that is read as a date outside of the years of four digits has an offset. -/
theorem year_of_readDate? {s : String} {t : Instant} (h : readDate? s = some t)
    (hyear : ¬ t.HasPlainYear) :
    (t.date.year = -1 ∨ t.date.year = 10000) ∧
      ∃ year month day time negative hours minutes,
        (DateText.iso year month day time (some (.offset negative hours minutes))).Spells
          s.toList := by
  obtain ⟨d, hspells, hmeans⟩ := readDate?_eq_some_iff.1 h
  rcases DateText.Means.hasPlainYear_or hspells hmeans with hplain | ⟨hout, hoffset⟩
  · exact absurd hplain hyear
  · obtain ⟨year, month, day, time, negative, hours, minutes, rfl⟩ := hoffset
    exact ⟨hout, year, month, day, time, negative, hours, minutes, hspells⟩

end TabularView
