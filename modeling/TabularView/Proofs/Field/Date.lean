import Mathlib.Data.List.TakeWhile
import TabularView.Field.Checker
import TabularView.Proofs.Text.Digit

set_option autoImplicit false

/-! # The written forms of dates

A text is written as a date if it is ten or eleven digits, a month, a day and a year with slashes
between them, or a year, a month and a day with hyphens between them, where a time of day and a zone
may follow (`DateText.Spells`). Scanning finds a form exactly where a text is written in it
(`DateText.scan_eq_some_iff`), so no text is written in two ways. -/

namespace TabularView

/-! ## Groups of digits -/

theorem Text.takeWhile_append_drop (p : Char → Bool) (s : List Char) :
    s.takeWhile p ++ s.drop (s.takeWhile p).length = s := by
  induction s with
  | nil => rfl
  | cons c rest ih =>
      cases h : p c with
      | true => simp [h, ih]
      | false => simp [h]

namespace DateText

/-- A group of `n` digits. -/
def IsGroup (n : Nat) (digits : List Char) : Prop :=
  digits.length = n ∧ ∀ c ∈ digits, Text.isDecimalDigit c = true

variable {s digits rest : List Char}

theorem IsGroup.ne_nil {n : Nat} (h : IsGroup (n + 1) digits) : digits ≠ [] := by
  rintro rfl
  cases h.1

/-- A character that is no digit is in no group. -/
theorem IsGroup.not_mem {n : Nat} {c : Char} (hc : Text.isDecimalDigit c = false)
    (h : IsGroup n digits) : c ∉ digits := by
  intro hmem
  rw [h.2 c hmem] at hc
  cases hc

/-- A group starts with a digit. -/
theorem IsGroup.ne_head {n : Nat} {c : Char} (hc : Text.isDecimalDigit c = false)
    (h : IsGroup (n + 1) digits) (tail : List Char) : digits ++ rest ≠ c :: tail := by
  obtain ⟨d, more, rfl⟩ := List.exists_cons_of_ne_nil h.ne_nil
  intro heq
  obtain rfl := (List.cons.inj heq).1
  exact h.not_mem hc (List.mem_cons_self ..)

/-- A run of digits ends at the first character that is none. -/
theorem takeWhile_isDecimalDigit {c : Char} (hc : Text.isDecimalDigit c = false)
    (h : ∀ d ∈ digits, Text.isDecimalDigit d = true) (tail : List Char) :
    (digits ++ c :: tail).takeWhile Text.isDecimalDigit = digits := by
  refine (Text.span_run h ?_).1
  rintro _ ⟨⟩
  exact hc

/-! ## What the parts are written as -/

/-- The zone at the end of a text, if one is written: hours and minutes may have a colon between. -/
inductive SpellsZone : Option ZoneText → List Char → Prop
  | none : SpellsZone none []
  | utc : SpellsZone (some .utc) ['Z']
  | offset {hours minutes : List Char} (negative colon : Bool) :
      IsGroup 2 hours → IsGroup 2 minutes →
        SpellsZone (some (.offset negative hours minutes))
          ((if negative then '-' else '+') :: (hours ++ ((if colon then [':'] else []) ++ minutes)))

/-- What follows the minutes: seconds may be written, and a fraction of them. -/
inductive SpellsSeconds : Option (List Char) → Option (List Char) → List Char → Prop
  | none : SpellsSeconds none none []
  | whole {second : List Char} : IsGroup 2 second → SpellsSeconds (some second) none (':' :: second)
  | fraction {n : Nat} {second digits : List Char} :
      IsGroup 2 second → 1 ≤ n → n ≤ 9 → IsGroup n digits →
        SpellsSeconds (some second) (some digits) (':' :: (second ++ '.' :: digits))

/-- The time of day that follows a date, if one is written. -/
inductive SpellsTime : Option TimeText → List Char → Prop
  | none : SpellsTime none []
  | clock {c : Char} {hour minute written : List Char} {second fraction : Option (List Char)} :
      c = 'T' ∨ c = ' ' → IsGroup 2 hour → IsGroup 2 minute →
        SpellsSeconds second fraction written →
          SpellsTime (some { hour, minute, second, fraction })
            (c :: (hour ++ ':' :: (minute ++ written)))

/-- The forms of dates. -/
inductive Spells : DateText → List Char → Prop
  | epoch {digits : List Char} :
      IsGroup 10 digits ∨ IsGroup 11 digits → Spells (.epoch digits) digits
  | slash {month day year : List Char} :
      IsGroup 1 month ∨ IsGroup 2 month → IsGroup 1 day ∨ IsGroup 2 day →
        IsGroup 2 year ∨ IsGroup 4 year →
          Spells (.slash month day year) (month ++ '/' :: (day ++ '/' :: year))
  | iso {year month day clock offset : List Char} {time : Option TimeText}
      {zone : Option ZoneText} :
      IsGroup 4 year → IsGroup 2 month → IsGroup 2 day → SpellsTime time clock →
        SpellsZone zone offset →
          Spells (.iso year month day time zone)
            (year ++ '-' :: (month ++ '-' :: (day ++ (clock ++ offset))))

/-! ## Scanning groups -/

theorem takeDigits_eq_some_iff {n : Nat} :
    takeDigits n s = some (digits, rest) ↔ IsGroup n digits ∧ s = digits ++ rest := by
  constructor
  · intro h
    unfold takeDigits at h
    dsimp only at h
    split at h
    · next hgroup =>
        cases h
        exact ⟨⟨hgroup.1, List.all_eq_true.1 hgroup.2⟩, (List.take_append_drop n s).symm⟩
    · cases h
  · rintro ⟨⟨rfl, hdigits⟩, rfl⟩
    simp [takeDigits, List.all_eq_true.2 hdigits]

theorem expect_eq_some_iff {c : Char} : expect c s = some rest ↔ s = c :: rest := by
  cases s with
  | nil => simp [expect]
  | cons d tail =>
      by_cases h : c = d
      · simp [expect, h]
      · simp [expect, h, Ne.symm h]

theorem takeSlashGroup_eq_some_iff :
    takeSlashGroup s = some (digits, rest) ↔
      (IsGroup 1 digits ∨ IsGroup 2 digits) ∧ s = digits ++ '/' :: rest := by
  have hrun : ∀ c ∈ s.takeWhile Text.isDecimalDigit, Text.isDecimalDigit c = true :=
    fun c hc => List.mem_takeWhile_imp hc
  constructor
  · intro h
    unfold takeSlashGroup at h
    dsimp only at h
    split at h
    · next hlength =>
        obtain ⟨tail, htail, heq⟩ := Option.map_eq_some_iff.1 h
        cases heq
        refine ⟨hlength.imp (⟨·, hrun⟩) (⟨·, hrun⟩), ?_⟩
        rw [← expect_eq_some_iff.1 htail, Text.takeWhile_append_drop]
    · cases h
  · rintro ⟨hgroup, rfl⟩
    have hdigits : ∀ c ∈ digits, Text.isDecimalDigit c = true := hgroup.elim (·.2) (·.2)
    have hlength : digits.length = 1 ∨ digits.length = 2 := hgroup.imp (·.1) (·.1)
    unfold takeSlashGroup
    dsimp only
    rw [takeWhile_isDecimalDigit (by decide) hdigits, if_pos hlength, List.drop_left,
      expect_eq_some_iff.2 rfl, Option.map_some]

/-! ## Scanning a time and a zone -/

theorem scanOffset_eq_some_iff {negative : Bool} {zone : ZoneText} :
    scanOffset negative s = some zone ↔
      ∃ (hours minutes : List Char) (colon : Bool), IsGroup 2 hours ∧ IsGroup 2 minutes ∧
        zone = .offset negative hours minutes ∧
        s = hours ++ ((if colon then [':'] else []) ++ minutes) := by
  simp only [scanOffset, Option.bind_eq_bind, Option.bind_eq_some_iff, Prod.exists,
    takeDigits_eq_some_iff]
  constructor
  · rintro ⟨hours, more, ⟨hhours, rfl⟩, minutes, rest, ⟨hminutes, hmore⟩, h⟩
    split at h
    · next hrest =>
        cases h
        subst hrest
        rw [List.append_nil] at hmore
        split at hmore
        · exact ⟨hours, minutes, true, hhours, hminutes, rfl, by simp [hmore]⟩
        · exact ⟨hours, minutes, false, hhours, hminutes, rfl, by simp [hmore]⟩
    · cases h
  · rintro ⟨hours, minutes, colon, hhours, hminutes, rfl, rfl⟩
    refine ⟨hours, _, ⟨hhours, rfl⟩, minutes, [], ⟨hminutes, ?_⟩, if_pos rfl⟩
    cases colon with
    | true => simp
    | false =>
        simp only [Bool.false_eq_true, if_false, List.nil_append, List.append_nil]
        split
        · next tail => exact absurd (List.append_nil _) (hminutes.ne_head (by decide) tail)
        · rfl

theorem scanZone_eq_some_iff {zone : Option ZoneText} :
    scanZone s = some zone ↔ SpellsZone zone s := by
  constructor
  · intro h
    unfold scanZone at h
    split at h
    · cases h
      exact .none
    · cases h
      exact .utc
    · obtain ⟨z, hz, rfl⟩ := Option.map_eq_some_iff.1 h
      obtain ⟨hours, minutes, colon, hhours, hminutes, rfl, rfl⟩ := scanOffset_eq_some_iff.1 hz
      exact .offset false colon hhours hminutes
    · obtain ⟨z, hz, rfl⟩ := Option.map_eq_some_iff.1 h
      obtain ⟨hours, minutes, colon, hhours, hminutes, rfl, rfl⟩ := scanOffset_eq_some_iff.1 hz
      exact .offset true colon hhours hminutes
    · cases h
  · intro h
    cases h with
    | none => rfl
    | utc => rfl
    | @offset hours minutes negative colon hhours hminutes =>
        have hscan := scanOffset_eq_some_iff.2
          ⟨hours, minutes, colon, hhours, hminutes, (rfl : ZoneText.offset negative _ _ = _), rfl⟩
        cases negative <;> simp [scanZone, hscan]

/-- What is written of a zone does not go on with a time of day. -/
theorem SpellsZone.head {zone : Option ZoneText} (h : SpellsZone zone s) :
    ∀ c ∈ s.head?, Text.isDecimalDigit c = false ∧ c ∉ ['T', ' ', ':', '.'] := by
  cases h with
  | none => rintro _ ⟨⟩
  | utc =>
      rintro _ ⟨⟩
      decide
  | offset negative colon _ _ =>
      rintro _ ⟨⟩
      cases negative <;> decide

theorem spellsSeconds_of_scanSeconds {second fraction : Option (List Char)}
    (h : scanSeconds s = some (second, fraction, rest)) :
    ∃ written, SpellsSeconds second fraction written ∧ s = written ++ rest := by
  unfold scanSeconds at h
  split at h
  · simp only [Option.bind_eq_bind, Option.bind_eq_some_iff, Prod.exists,
      takeDigits_eq_some_iff] at h
    obtain ⟨group, more, ⟨hgroup, rfl⟩, h⟩ := h
    split at h
    · next tail =>
        split at h
        · next hlength =>
            cases h
            refine ⟨_, .fraction hgroup hlength.1 hlength.2
              ⟨rfl, fun c hc => List.mem_takeWhile_imp hc⟩, ?_⟩
            simp [Text.takeWhile_append_drop]
        · cases h
    · cases h
      exact ⟨_, .whole hgroup, rfl⟩
  · cases h
    exact ⟨[], .none, rfl⟩

theorem SpellsSeconds.scanSeconds {second fraction : Option (List Char)} {written : List Char}
    (h : SpellsSeconds second fraction written)
    (hrest : ∀ c ∈ rest.head?, Text.isDecimalDigit c = false ∧ c ∉ ['T', ' ', ':', '.']) :
    DateText.scanSeconds (written ++ rest) = some (second, fraction, rest) := by
  cases h with
  | none =>
      unfold DateText.scanSeconds
      split
      · next heq =>
          rw [List.nil_append] at heq
          exact absurd (hrest ':' (heq ▸ rfl)).2 (by decide)
      · rfl
  | @whole group hgroup =>
      have htake := takeDigits_eq_some_iff.2 ⟨hgroup, (rfl : group ++ rest = _)⟩
      simp only [DateText.scanSeconds, List.cons_append, htake, Option.bind_eq_bind,
        Option.bind_some]
      split
      · exact absurd (hrest '.' rfl).2 (by decide)
      · rfl
  | @fraction n group digits hgroup hlow hhigh hdigits =>
      obtain ⟨rfl, hall⟩ := hdigits
      have htake := takeDigits_eq_some_iff.2 ⟨hgroup, (rfl : group ++ '.' :: (digits ++ rest) = _)⟩
      have hrun := (Text.span_run hall fun c hc => (hrest c hc).1).1
      simp only [DateText.scanSeconds, List.cons_append, List.append_assoc, htake,
        Option.bind_eq_bind, Option.bind_some, hrun, hlow, hhigh, and_self, if_true,
        List.drop_left]

theorem spellsTime_of_scanTime {time : Option TimeText} (h : scanTime s = some (time, rest)) :
    ∃ clock, SpellsTime time clock ∧ s = clock ++ rest := by
  unfold scanTime at h
  split at h
  · split at h
    · next hc =>
        simp only [Option.bind_eq_bind, Option.bind_eq_some_iff, Prod.exists,
          takeDigits_eq_some_iff, expect_eq_some_iff] at h
        obtain ⟨hour, _, ⟨hhour, rfl⟩, _, rfl, minute, _, ⟨hminute, rfl⟩, second, fraction, _,
          hseconds, h⟩ := h
        cases h
        obtain ⟨written, hwritten, rfl⟩ := spellsSeconds_of_scanSeconds hseconds
        exact ⟨_, .clock hc hhour hminute hwritten, by simp⟩
    · cases h
      exact ⟨[], .none, rfl⟩
  · cases h
    exact ⟨[], .none, rfl⟩

theorem SpellsTime.scanTime {time : Option TimeText} {clock : List Char}
    (h : SpellsTime time clock)
    (hrest : ∀ c ∈ rest.head?, Text.isDecimalDigit c = false ∧ c ∉ ['T', ' ', ':', '.']) :
    DateText.scanTime (clock ++ rest) = some (time, rest) := by
  cases h with
  | none =>
      cases rest with
      | nil => rfl
      | cons c tail =>
          have hc : ¬ (c = 'T' ∨ c = ' ') := by
            have hnot := (hrest c rfl).2
            simp only [List.mem_cons, not_or] at hnot
            exact not_or.2 ⟨hnot.1, hnot.2.1⟩
          simp only [DateText.scanTime, List.nil_append, hc, if_false]
  | @clock c hour minute written second fraction hc hhour hminute hseconds =>
      have htakeHour := takeDigits_eq_some_iff.2
        ⟨hhour, (rfl : hour ++ ':' :: (minute ++ (written ++ rest)) = _)⟩
      have htakeMinute := takeDigits_eq_some_iff.2
        ⟨hminute, (rfl : minute ++ (written ++ rest) = _)⟩
      simp only [DateText.scanTime, List.cons_append, List.append_assoc, hc, if_true, htakeHour,
        htakeMinute, expect, hseconds.scanSeconds hrest, Option.bind_eq_bind, Option.bind_some]

/-! ## Scanning a whole text -/

theorem scanEpoch_eq_some_iff {t : DateText} :
    scanEpoch s = some t ↔ (IsGroup 10 s ∨ IsGroup 11 s) ∧ t = .epoch s := by
  simp only [scanEpoch, List.all_eq_true, Option.ite_none_right_eq_some, Option.some.injEq,
    or_and_right, IsGroup, @eq_comm _ t]

theorem scanSlash_eq_some_iff {t : DateText} :
    scanSlash s = some t ↔
      ∃ month day year, (IsGroup 1 month ∨ IsGroup 2 month) ∧ (IsGroup 1 day ∨ IsGroup 2 day) ∧
        (IsGroup 2 year ∨ IsGroup 4 year) ∧ t = .slash month day year ∧
        s = month ++ '/' :: (day ++ '/' :: year) := by
  have hgroup : ∀ digits : List Char, ((digits.length = 2 ∨ digits.length = 4) ∧
      digits.all Text.isDecimalDigit = true) ↔ IsGroup 2 digits ∨ IsGroup 4 digits := by
    intro digits
    rw [List.all_eq_true, or_and_right]
    rfl
  simp only [scanSlash, Option.bind_eq_bind, Option.bind_eq_some_iff, Prod.exists,
    takeSlashGroup_eq_some_iff, Option.ite_none_right_eq_some, Option.some.injEq, hgroup]
  constructor
  · rintro ⟨month, _, ⟨hmonth, rfl⟩, day, year, ⟨hday, rfl⟩, hyear, rfl⟩
    exact ⟨month, day, year, hmonth, hday, hyear, rfl, rfl⟩
  · rintro ⟨month, day, year, hmonth, hday, hyear, rfl, rfl⟩
    exact ⟨month, _, ⟨hmonth, rfl⟩, day, year, ⟨hday, rfl⟩, hyear, rfl⟩

theorem scanIso_eq_some_iff {t : DateText} :
    scanIso s = some t ↔
      ∃ year month day time zone clock offset, IsGroup 4 year ∧ IsGroup 2 month ∧ IsGroup 2 day ∧
        SpellsTime time clock ∧ SpellsZone zone offset ∧ t = .iso year month day time zone ∧
        s = year ++ '-' :: (month ++ '-' :: (day ++ (clock ++ offset))) := by
  simp only [scanIso, Option.bind_eq_bind, Option.bind_eq_some_iff, Prod.exists,
    takeDigits_eq_some_iff, expect_eq_some_iff, scanZone_eq_some_iff]
  constructor
  · rintro ⟨year, _, ⟨hyear, rfl⟩, _, rfl, month, _, ⟨hmonth, rfl⟩, _, rfl, day, _, ⟨hday, rfl⟩,
      time, offset, htime, zone, hzone, h⟩
    cases h
    obtain ⟨clock, hclock, rfl⟩ := spellsTime_of_scanTime htime
    exact ⟨year, month, day, time, zone, clock, offset, hyear, hmonth, hday, hclock, hzone, rfl,
      rfl⟩
  · rintro ⟨year, month, day, time, zone, clock, offset, hyear, hmonth, hday, hclock, hzone, rfl,
      rfl⟩
    exact ⟨year, _, ⟨hyear, rfl⟩, _, rfl, month, _, ⟨hmonth, rfl⟩, _, rfl, day, _, ⟨hday, rfl⟩,
      time, offset, hclock.scanTime hzone.head, zone, hzone, rfl⟩

/-- A form with slashes or hyphens is not digits alone. -/
theorem scanEpoch_eq_none {c : Char} (hdigit : Text.isDecimalDigit c = false) (hc : c ∈ s) :
    scanEpoch s = none := by
  refine Option.eq_none_iff_forall_not_mem.2 fun t ht => ?_
  rcases (scanEpoch_eq_some_iff.1 ht).1 with hgroup | hgroup <;> exact hgroup.not_mem hdigit hc

/-- Four digits are too many for a month. -/
theorem scanSlash_eq_none {year tail : List Char} (hyear : IsGroup 4 year) :
    scanSlash (year ++ '-' :: tail) = none := by
  refine Option.eq_none_iff_forall_not_mem.2 fun t ht => ?_
  obtain ⟨month, _, _, hmonth, -, -, -, heq⟩ := scanSlash_eq_some_iff.1 ht
  have hrun := congrArg (List.takeWhile Text.isDecimalDigit) heq
  rw [takeWhile_isDecimalDigit (by decide) hyear.2,
    takeWhile_isDecimalDigit (by decide) (hmonth.elim (·.2) (·.2))] at hrun
  rcases hmonth with h | h <;> exact absurd (hyear.1.symm.trans (hrun ▸ h.1)) (by decide)

/-- A text is scanned as the form that it is written in. -/
theorem scan_eq_some_iff {t : DateText} : scan s = some t ↔ t.Spells s := by
  constructor
  · intro h
    unfold scan at h
    split at h
    · next hepoch =>
        obtain ⟨hgroup, rfl⟩ := scanEpoch_eq_some_iff.1 (hepoch.trans h)
        exact .epoch hgroup
    · split at h
      · next hslash =>
          obtain ⟨month, day, year, hmonth, hday, hyear, rfl, rfl⟩ :=
            scanSlash_eq_some_iff.1 (hslash.trans h)
          exact .slash hmonth hday hyear
      · obtain ⟨year, month, day, time, zone, clock, offset, hyear, hmonth, hday, hclock, hzone,
          rfl, rfl⟩ := scanIso_eq_some_iff.1 h
        exact .iso hyear hmonth hday hclock hzone
  · intro h
    unfold scan
    cases h with
    | epoch hgroup => rw [scanEpoch_eq_some_iff.2 ⟨hgroup, rfl⟩]
    | slash hmonth hday hyear =>
        rw [scanEpoch_eq_none (c := '/') (by decide) (by simp)]
        dsimp only
        rw [scanSlash_eq_some_iff.2 ⟨_, _, _, hmonth, hday, hyear, rfl, rfl⟩]
    | iso hyear hmonth hday hclock hzone =>
        rw [scanEpoch_eq_none (c := '-') (by decide) (by simp)]
        dsimp only
        rw [scanSlash_eq_none hyear]
        dsimp only
        rw [scanIso_eq_some_iff.2
          ⟨_, _, _, _, _, _, _, hyear, hmonth, hday, hclock, hzone, rfl, rfl⟩]

end DateText

end TabularView
