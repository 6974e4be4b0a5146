import TabularView.Proofs.Calendar
import TabularView.Proofs.Field.Date
import TabularView.Proofs.Field.Timestamp

set_option autoImplicit false

/-! # What written dates mean

A written date means an instant: its digits are the seconds since 1970, or clocks at UTC show the
date and the time of day that are written, as many hours and minutes later or earlier as the zone
says (`DateText.Means`). For that each group has to be in ASCII digits.

A text converts to the instant that it means. Apart from that, an hour, a minute or a second in
other digits counts as zero (`Checker.convert_date_eq_ok_iff`); any other group in such digits
makes the conversion fail. -/

namespace TabularView

namespace DateText

/-! ## Meanings of the parts -/

/-- The second that is written, or none for the full minute. -/
def MeansSecond : Option (List Char) → Nat → Prop
  | none, second => second = 0
  | some digits, second => Text.Writes digits second

/-- The nanoseconds of a fraction of one to nine digits, or of none. -/
def MeansFraction : Option (List Char) → Nat → Prop
  | none, nanos => nanos = 0
  | some digits, nanos => ∃ n, Text.Writes digits n ∧ nanos = n * 10 ^ (9 - digits.length)

/-- The time of day that is written, or midnight. -/
inductive MeansTime : Option TimeText → Nat → Nat → Nat → Nat → Prop
  | midnight : MeansTime none 0 0 0 0
  | clock {time : TimeText} {hour minute second nanos : Nat} :
      Text.Writes time.hour hour → hour < 24 → Text.Writes time.minute minute → minute < 60 →
        MeansSecond time.second second → second < 60 → MeansFraction time.fraction nanos →
          MeansTime (some time) hour minute second nanos

/-- The seconds that the written zone is ahead of UTC, less than a day. -/
def MeansZone : Option ZoneText → Int → Prop
  | none, ahead => ahead = 0
  | some .utc, ahead => ahead = 0
  | some (.offset negative hours minutes), ahead =>
    ∃ h m, Text.Writes hours h ∧ h < 24 ∧ Text.Writes minutes m ∧ m < 60 ∧
      ahead = (if negative then -1 else 1) * (h * 3600 + m * 60)

/-- The instant that a written date means. A year of two digits lies between 1970 and 2069. -/
inductive Means : DateText → Instant → Prop
  | epoch {digits : List Char} {n : Nat} :
      Text.Writes digits n → Means (.epoch digits) { seconds := n, nanos := 0 }
  | slash {month day year : List Char} {y : Nat} {date : CalendarDate} {t : Instant} :
      Text.Writes month date.month → Text.Writes day date.day → Text.Writes year y →
        date.year = (if year.length = 2 then (if y < 70 then 2000 + y else 1900 + y) else y : Nat) →
          date.IsValid → t.Shows date 0 0 0 0 → Means (.slash month day year) t
  | iso {year month day : List Char} {time : Option TimeText} {zone : Option ZoneText} {y : Nat}
      {date : CalendarDate} {hour minute second nanos : Nat} {ahead : Int} {here : Instant} :
      Text.Writes year y → date.year = y → Text.Writes month date.month →
        Text.Writes day date.day → date.IsValid → MeansTime time hour minute second nanos →
          here.Shows date hour minute second nanos → MeansZone zone ahead →
            Means (.iso year month day time zone) (here.earlier ahead)

/-! ## Clocks in other digits -/

/-- The hour, the minute and the second as far as they are written. -/
def clockGroups : DateText → List (List Char)
  | .iso _ _ _ (some time) _ => time.hour :: time.minute :: time.second.toList
  | _ => []

/-- A group of the time of day is not in ASCII digits. -/
def HasForeignClock (t : DateText) : Prop :=
  ∃ digits ∈ t.clockGroups, ∃ c ∈ digits, c.isDigit = false

/-- A group of the time of day, or a zero in place of one that is not in ASCII digits. -/
def zeroed (digits : List Char) : List Char :=
  if digits.all (·.isDigit) then digits else ['0']

/-- The time of day with zeros for all groups that are not in ASCII digits. -/
def zeroedTime (time : TimeText) : TimeText where
  hour := zeroed time.hour
  minute := zeroed time.minute
  second := time.second.map zeroed
  fraction := time.fraction

/-- The date with zeros for all groups of its time of day that are not in ASCII digits. -/
def withZeroedClock : DateText → DateText
  | .iso year month day time zone => .iso year month day (time.map zeroedTime) zone
  | t => t

theorem zeroed_of_isDigit {digits : List Char} (h : ∀ c ∈ digits, c.isDigit = true) :
    zeroed digits = digits :=
  if_pos (List.all_eq_true.2 h)

theorem withZeroedClock_of_not_hasForeignClock {t : DateText} (h : ¬ t.HasForeignClock) :
    t.withZeroedClock = t := by
  have hascii : ∀ digits ∈ t.clockGroups, zeroed digits = digits := by
    intro digits hgroup
    refine zeroed_of_isDigit fun c hc => ?_
    by_contra hforeign
    exact h ⟨digits, hgroup, c, hc, Bool.not_eq_true _ ▸ hforeign⟩
  cases t with
  | epoch digits => rfl
  | slash month day year => rfl
  | iso year month day time zone =>
      cases time with
      | none => rfl
      | some time =>
          obtain ⟨hour, minute, second, fraction⟩ := time
          simp only [clockGroups, List.forall_mem_cons] at hascii
          obtain ⟨hhour, hminute, hsecond⟩ := hascii
          have hmap : second.map zeroed = second := by
            cases second with
            | none => rfl
            | some digits => rw [Option.map_some, hsecond digits (List.mem_singleton_self _)]
          simp only [withZeroedClock, zeroedTime, Option.map_some, hhour, hminute, hmap]

/-- A time of day that is not in ASCII digits has no meaning. -/
theorem not_means_of_hasForeignClock {t : DateText} (h : t.HasForeignClock) (i : Instant) :
    ¬ t.Means i := by
  obtain ⟨digits, hgroup, c, hc, hforeign⟩ := h
  have hwrites : ∀ n, ¬ Text.Writes digits n := by
    intro n hn
    rw [hn.2.1 c hc] at hforeign
    cases hforeign
  intro hmeans
  cases hmeans with
  | epoch => cases hgroup
  | slash => cases hgroup
  | iso _ _ _ _ _ htime _ _ =>
      cases htime with
      | midnight => cases hgroup
      | clock hhour _ hminute _ hsecond _ _ =>
          simp only [clockGroups, List.mem_cons, Option.mem_toList] at hgroup
          rcases hgroup with rfl | rfl | hgroup
          · exact hwrites _ hhour
          · exact hwrites _ hminute
          · rw [hgroup] at hsecond
            exact hwrites _ hsecond

/-! ## Reading the parts -/

theorem clockValue_eq_iff {digits : List Char} (hne : digits ≠ []) {n : Nat} :
    clockValue (some digits) = n ↔ Text.Writes (zeroed digits) n := by
  unfold clockValue zeroed
  rw [Option.bind_some]
  split
  · next hall =>
      rw [Text.readNat?_eq hne (List.all_eq_true.1 hall), Option.getD_some]
      exact ⟨fun h => ⟨hne, List.all_eq_true.1 hall, h⟩, fun h => h.2.2⟩
  · next hforeign =>
      have hnone : Text.readNat? digits = none := by
        refine Option.eq_none_iff_forall_not_mem.2 fun k hk => hforeign ?_
        exact List.all_eq_true.2 (Text.readNat?_eq_some_iff.1 hk).2.1
      rw [hnone, ← Text.readNat?_eq_some_iff]
      exact Option.some_inj.symm

theorem nanosOf?_eq_some_iff {fraction : Option (List Char)} {nanos : Nat}
    (hne : ∀ digits ∈ fraction, digits ≠ []) :
    nanosOf? fraction = some nanos ↔ MeansFraction fraction nanos := by
  cases fraction with
  | none => exact Option.some_inj.trans eq_comm
  | some digits =>
      have hzeros : ∀ c ∈ List.replicate (9 - digits.length) '0', c.isDigit = true := by
        intro c hc
        rw [List.eq_of_mem_replicate hc]
        rfl
      unfold nanosOf? MeansFraction
      rw [Text.readNat?_eq_some_iff]
      simp only [Text.Writes, List.forall_mem_append, Nat.ofDigitChars_append,
        Nat.ofDigitChars_replicate_zero]
      constructor
      · rintro ⟨-, ⟨hdigits, -⟩, rfl⟩
        exact ⟨_, ⟨hne digits rfl, hdigits, rfl⟩, Nat.mul_comm _ _⟩
      · rintro ⟨_, ⟨-, hdigits, rfl⟩, rfl⟩
        exact ⟨List.append_ne_nil_of_left_ne_nil (hne digits rfl) _, ⟨hdigits, hzeros⟩,
          Nat.mul_comm _ _⟩

theorem zoneSeconds?_eq_some_iff {zone : Option ZoneText} {ahead : Int} :
    zoneSeconds? zone = some ahead ↔ MeansZone zone ahead := by
  cases zone with
  | none => exact Option.some_inj.trans eq_comm
  | some zone =>
      cases zone with
      | utc => exact Option.some_inj.trans eq_comm
      | offset negative hours minutes =>
          simp only [zoneSeconds?, MeansZone, Option.bind_eq_bind, Option.bind_eq_some_iff,
            Text.readNat?_eq_some_iff, Option.ite_none_right_eq_some, Option.some.injEq]
          constructor
          · rintro ⟨h, hhours, m, hminutes, ⟨hm, htotal⟩, rfl⟩
            refine ⟨h, m, hhours, by omega, hminutes, hm, ?_⟩
            cases negative <;> simp
          · rintro ⟨h, m, hhours, hh, hminutes, hm, rfl⟩
            refine ⟨h, hhours, m, hminutes, ⟨hm, by omega⟩, ?_⟩
            cases negative <;> simp

/-- The clock shows the time of day that is written, with zeros for groups in other digits. -/
theorem atClock?_eq_some_iff {time : Option TimeText} {written : List Char}
    (hwritten : SpellsTime time written) {date : CalendarDate} {here : Instant} :
    atClock? date time = some here ↔
      ∃ hour minute second nanos, MeansTime (time.map zeroedTime) hour minute second nanos ∧
        here = .ofDate date hour minute second nanos := by
  cases hwritten with
  | none =>
      constructor
      · intro h
        cases h
        exact ⟨0, 0, 0, 0, .midnight, rfl⟩
      · rintro ⟨hour, minute, second, nanos, htime, rfl⟩
        cases htime
        rfl
  | @clock c hour minute written second fraction hc hhour hminute hseconds =>
      have hsecond : ∀ n, clockValue second = n ↔ MeansSecond (second.map zeroed) n := by
        intro n
        cases hseconds with
        | none => exact eq_comm
        | whole hgroup => exact clockValue_eq_iff hgroup.ne_nil
        | fraction hgroup => exact clockValue_eq_iff hgroup.ne_nil
      have hfraction : ∀ n, nanosOf? fraction = some n ↔ MeansFraction fraction n := by
        refine fun n => nanosOf?_eq_some_iff fun digits hdigits => ?_
        cases hseconds with
        | none => cases hdigits
        | whole => cases hdigits
        | fraction _ hlow _ hgroup =>
            cases hdigits
            rintro rfl
            exact absurd (hgroup.1 ▸ hlow) (by decide)
      have hhourValue := @clockValue_eq_iff _ hhour.ne_nil
      have hminuteValue := @clockValue_eq_iff _ hminute.ne_nil
      simp only [atClock?, Option.map_some, Option.bind_some, Option.bind_eq_bind,
        Option.bind_eq_some_iff, Option.ite_none_right_eq_some, Option.some.injEq, hfraction]
      constructor
      · rintro ⟨nanos, hnanos, ⟨hh, hm, hs⟩, rfl⟩
        exact ⟨_, _, _, nanos, .clock ((hhourValue).1 rfl) hh (hminuteValue.1 rfl) hm
          ((hsecond _).1 rfl) hs hnanos, rfl⟩
      · rintro ⟨h, m, s, nanos, htime, rfl⟩
        cases htime with
        | clock hh hhlt hm hmlt hs hslt hnanos =>
            obtain rfl := hhourValue.2 hh
            obtain rfl := hminuteValue.2 hm
            obtain rfl := (hsecond _).2 hs
            exact ⟨nanos, hnanos, ⟨hhlt, hmlt, hslt⟩, rfl⟩

/-! ## Reading a whole date -/

theorem MeansTime.lt {time : Option TimeText} {hour minute second nanos : Nat}
    (h : MeansTime time hour minute second nanos) : hour < 24 ∧ minute < 60 ∧ second < 60 := by
  cases h with
  | midnight => decide
  | clock _ hh _ hm _ hs _ => exact ⟨hh, hm, hs⟩

/-- The instant of a written date is what it means with zeros for the groups of its time of day that
are in other digits. -/
theorem instant?_eq_some_iff {t : DateText} {s : List Char} (h : t.Spells s) {i : Instant} :
    t.instant? = some i ↔ t.withZeroedClock.Means i := by
  cases h with
  | epoch hgroup =>
      simp only [instant?, withZeroedClock, Option.map_eq_some_iff, Option.bind_eq_bind,
        Option.bind_eq_some_iff, Option.pure_def, Option.some.injEq, Text.readNat?_eq_some_iff]
      constructor
      · rintro ⟨_, ⟨n, hn, rfl⟩, rfl⟩
        exact .epoch hn
      · rintro ⟨hn⟩
        exact ⟨_, ⟨_, hn, rfl⟩, rfl⟩
  | slash hmonth hday hyear =>
      simp only [instant?, withZeroedClock, Option.bind_eq_bind, Option.bind_eq_some_iff,
        Text.readNat?_eq_some_iff, CalendarDate.of?_eq_some_iff, Option.some.injEq]
      have hfull : ∀ year y, fullYear year y =
          if year.length = 2 then (if y < 70 then 2000 + y else 1900 + y) else y := by
        intro year y
        simp only [fullYear, Nat.add_comm]
      have hmidnight : ∀ {date : CalendarDate}, date.IsValid →
          ∀ t : Instant, t.Shows date 0 0 0 0 ↔ t = .ofDate date 0 0 0 0 := fun hvalid t =>
        Instant.shows_iff hvalid (by decide) (by decide) (by decide)
      constructor
      · rintro ⟨m, hm, d, hd, y, hy, date, ⟨rfl, hvalid⟩, rfl⟩
        exact .slash hm hd hy (congrArg Nat.cast (hfull _ _)) hvalid ((hmidnight hvalid _).2 rfl)
      · rintro h
        cases h with
        | slash hm hd hy hyear hvalid hshows =>
            refine ⟨_, hm, _, hd, _, hy, _, ⟨?_, hvalid⟩, ((hmidnight hvalid _).1 hshows).symm⟩
            rw [hfull, ← hyear]
  | iso hyear hmonth hday hclock hzone =>
      simp only [instant?, withZeroedClock, Option.bind_eq_bind, Option.bind_eq_some_iff,
        Text.readNat?_eq_some_iff, CalendarDate.of?_eq_some_iff, Option.some.injEq,
        atClock?_eq_some_iff hclock, zoneSeconds?_eq_some_iff]
      constructor
      · rintro ⟨y, hy, m, hm, d, hd, date, ⟨rfl, hvalid⟩, here,
          ⟨hour, minute, second, nanos, htime, hhere⟩, ahead, hahead, rfl⟩
        obtain ⟨hh, hmin, hs⟩ := htime.lt
        exact .iso hy rfl hm hd hvalid htime ((Instant.shows_iff hvalid hh hmin hs).2 hhere) hahead
      · rintro h
        cases h with
        | iso hy hyear hm hd hvalid htime hshows hahead =>
            obtain ⟨hh, hmin, hs⟩ := htime.lt
            refine ⟨_, hy, _, hm, _, hd, _, ⟨?_, hvalid⟩, _,
              ⟨_, _, _, _, htime, (Instant.shows_iff hvalid hh hmin hs).1 hshows⟩, _, hahead, rfl⟩
            rw [← hyear]

end DateText

/-! ## Conversion -/

theorem readDate?_eq_some_iff {v : String} {i : Instant} :
    readDate? v = some i ↔ ∃ t : DateText, t.Spells v.toList ∧ t.withZeroedClock.Means i := by
  simp only [readDate?, Option.bind_eq_some_iff, DateText.scan_eq_some_iff]
  exact exists_congr fun t => and_congr_right fun h => DateText.instant?_eq_some_iff h

theorem Checker.convert_date_eq_ok_iff {v : String} {value : FieldValue} :
    date.convert v = .ok value ↔ ∃ i, readDate? v = some i ∧ value = .date i := by
  show convertDate v = .ok value ↔ _
  unfold convertDate
  cases readDate? v <;> simp [eq_comm]

theorem Checker.convert_eq_ok_date_iff {v : String} {i : Instant} :
    date.convert v = .ok (.date i) ↔ readDate? v = some i := by
  rw [convert_date_eq_ok_iff]
  constructor
  · rintro ⟨j, hj, h⟩
    cases h
    exact hj
  · exact fun h => ⟨i, h, rfl⟩

theorem Checker.accepts_date_iff {v : String} :
    date.accepts v = true ↔ ∃ i, readDate? v = some i := by
  have hconvert : (date.convert v).isOk = (readDate? v).isSome := by
    show (convertDate v).isOk = _
    unfold convertDate
    cases readDate? v <;> rfl
  have hlooks : date.looksRight v = (DateText.scan v.toList).isSome := rfl
  rw [accepts, hconvert, hlooks, Bool.and_eq_true, Option.isSome_iff_exists,
    Option.isSome_iff_exists]
  constructor
  · exact fun h => h.2
  · rintro ⟨i, hi⟩
    obtain ⟨t, ht, -⟩ := Option.bind_eq_some_iff.1 hi
    exact ⟨⟨t, ht⟩, i, hi⟩

/-- A text converts exactly if it is written as a date, to the instant that it means; but an hour, a
minute or a second that is not in ASCII digits counts as zero. -/
theorem Checker.convert_date_eq_ok_iff_means (v : String) (value : FieldValue) :
    date.convert v = .ok value ↔
      ∃ (t : DateText) (i : Instant), t.Spells v.toList ∧ value = .date i ∧
        (t.Means i ∨ t.HasForeignClock ∧ t.withZeroedClock.Means i) := by
  have hmeans : ∀ (t : DateText) (i : Instant), t.withZeroedClock.Means i ↔
      (t.Means i ∨ t.HasForeignClock ∧ t.withZeroedClock.Means i) := by
    intro t i
    by_cases hforeign : t.HasForeignClock
    · exact ⟨fun h => .inr ⟨hforeign, h⟩,
        fun h => h.elim (fun h => absurd h (t.not_means_of_hasForeignClock hforeign i)) (·.2)⟩
    · rw [t.withZeroedClock_of_not_hasForeignClock hforeign]
      exact ⟨.inl, fun h => h.elim id (·.2)⟩
  rw [convert_date_eq_ok_iff]
  constructor
  · rintro ⟨i, hread, rfl⟩
    obtain ⟨t, ht, h⟩ := readDate?_eq_some_iff.1 hread
    exact ⟨t, i, ht, rfl, (hmeans t i).1 h⟩
  · rintro ⟨t, i, ht, rfl, h⟩
    exact ⟨i, readDate?_eq_some_iff.2 ⟨t, ht, (hmeans t i).2 h⟩, rfl⟩

/-- A text with its hour in Arabic digits means no instant, and still converts to one in the hour
after midnight. -/
theorem Checker.convert_date_foreign_hour :
    date.convert "2024-01-01T\u0660\u0665:30" = .ok (.date { seconds := 1704069000, nanos := 0 }) ∧
      ∀ (t : DateText) (i : Instant), t.Spells "2024-01-01T\u0660\u0665:30".toList →
        ¬ t.Means i := by
  refine ⟨rfl, fun t i ht => t.not_means_of_hasForeignClock ?_ i⟩
  have hscan := DateText.scan_eq_some_iff.2 ht
  obtain rfl : t = _ := Option.some.inj (hscan.symm.trans rfl)
  exact ⟨_, List.mem_cons_self .., '\u0660', by decide, by decide⟩

end TabularView
