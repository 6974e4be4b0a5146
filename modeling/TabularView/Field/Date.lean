import TabularView.Calendar

set_option autoImplicit false

/-! # Dates as texts

Three written forms count as dates: ten or eleven digits of Unix seconds, `M/D/YY` or `M/D/YYYY`,
and `YYYY-MM-DD` with an optional time of day and an optional zone. `DateText.scan` recognises a
form and cuts it into digit groups; `DateText.instant?` reads the groups and builds the instant.

The look of a date is decided on all Unicode digits, its value on ASCII digits alone. -/

namespace TabularView

/-! ## The written forms -/

/-- A written time of day. -/
structure TimeText where
  hour : List Char
  minute : List Char
  second : Option (List Char) := none
  fraction : Option (List Char) := none

/-- A written zone: UTC itself, or hours and minutes ahead of it or behind it. -/
inductive ZoneText
  | utc
  | offset (negative : Bool) (hours minutes : List Char)

/-- A text that looks like a date, cut into digit groups. -/
inductive DateText
  | epoch (digits : List Char)
  | slash (month day year : List Char)
  | iso (year month day : List Char) (time : Option TimeText) (zone : Option ZoneText)

namespace DateText

/-! ## Recognising a form -/

/-- The first `n` characters if they are all digits, and what follows them. -/
def takeDigits (n : Nat) (s : List Char) : Option (List Char × List Char) :=
  let group := s.take n
  if group.length = n ∧ group.all Text.isDecimalDigit then some (group, s.drop n) else none

/-- The text after a given character. -/
def expect (c : Char) : List Char → Option (List Char)
  | d :: rest => if c = d then some rest else none
  | [] => none

/-- A run of one or two digits to the next slash, and what follows the slash. -/
def takeSlashGroup (s : List Char) : Option (List Char × List Char) :=
  let group := s.takeWhile Text.isDecimalDigit
  if group.length = 1 ∨ group.length = 2 then
    (expect '/' (s.drop group.length)).map fun rest => (group, rest)
  else none

/-- Ten or eleven digits. -/
def scanEpoch (s : List Char) : Option DateText :=
  if (s.length = 10 ∨ s.length = 11) ∧ s.all Text.isDecimalDigit then some (.epoch s) else none

/-- Month, day and a year of two or four digits, with slashes between. -/
def scanSlash (s : List Char) : Option DateText := do
  let (month, rest) ← takeSlashGroup s
  let (day, year) ← takeSlashGroup rest
  if (year.length = 2 ∨ year.length = 4) ∧ year.all Text.isDecimalDigit then
    some (.slash month day year)
  else none

/-- Seconds after the minute, and a fraction after the seconds, where they are written. -/
def scanSeconds (s : List Char) : Option (Option (List Char) × Option (List Char) × List Char) :=
  match s with
  | ':' :: rest => do
    let (second, rest) ← takeDigits 2 rest
    match rest with
    | '.' :: rest =>
      let fraction := rest.takeWhile Text.isDecimalDigit
      if 1 ≤ fraction.length ∧ fraction.length ≤ 9 then
        some (some second, some fraction, rest.drop fraction.length)
      else none
    | _ => some (some second, none, rest)
  | _ => some (none, none, s)

/-- The time of day after `T` or a space, where it is written. -/
def scanTime (s : List Char) : Option (Option TimeText × List Char) :=
  match s with
  | c :: rest =>
    if c = 'T' ∨ c = ' ' then do
      let (hour, rest) ← takeDigits 2 rest
      let (minute, rest) ← takeDigits 2 (← expect ':' rest)
      let (second, fraction, rest) ← scanSeconds rest
      some (some { hour, minute, second, fraction }, rest)
    else some (none, s)
  | [] => some (none, [])

/-- Hours and minutes of an offset, with or without a colon between. -/
def scanOffset (negative : Bool) (s : List Char) : Option ZoneText := do
  let (hours, rest) ← takeDigits 2 s
  let rest := match rest with
    | ':' :: tail => tail
    | _ => rest
  let (minutes, rest) ← takeDigits 2 rest
  if rest = [] then some (.offset negative hours minutes) else none

/-- The zone at the end of the text; `some none` when nothing is written. -/
def scanZone : List Char → Option (Option ZoneText)
  | [] => some none
  | ['Z'] => some (some .utc)
  | '+' :: rest => (scanOffset false rest).map some
  | '-' :: rest => (scanOffset true rest).map some
  | _ => none

/-- Year, month and day with hyphens between, then time and zone where they are written. -/
def scanIso (s : List Char) : Option DateText := do
  let (year, rest) ← takeDigits 4 s
  let (month, rest) ← takeDigits 2 (← expect '-' rest)
  let (day, rest) ← takeDigits 2 (← expect '-' rest)
  let (time, rest) ← scanTime rest
  let zone ← scanZone rest
  some (.iso year month day time zone)

/-- The form of a text, if it has one. No text has two. -/
def scan (s : List Char) : Option DateText :=
  match scanEpoch s with
  | some t => some t
  | none =>
    match scanSlash s with
    | some t => some t
    | none => scanIso s

/-! ## Reading the groups -/

/-- A year of two digits lies between 1970 and 2069. -/
def fullYear (digits : List Char) (year : Nat) : Nat :=
  if digits.length = 2 then (if year < 70 then year + 2000 else year + 1900) else year

/-- The value of an hour, minute or second group; one that is not written, or not in ASCII digits,
counts as zero. -/
def clockValue (group : Option (List Char)) : Nat :=
  ((group.bind Text.readNat?)).getD 0

/-- The nanoseconds of a fraction of one to nine digits. -/
def nanosOf? : Option (List Char) → Option Nat
  | none => some 0
  | some digits => Text.readNat? (digits ++ List.replicate (9 - digits.length) '0')

/-- The seconds that a zone is ahead of UTC, if minutes and total are in range. -/
def zoneSeconds? : Option ZoneText → Option Int
  | none => some 0
  | some .utc => some 0
  | some (.offset negative hours minutes) => do
    let h ← Text.readNat? hours
    let m ← Text.readNat? minutes
    let total := h * 3600 + m * 60
    if m < 60 ∧ total < 86400 then some (if negative then -(total : Int) else total) else none

/-- The instant of a date and time of day at UTC, if the clock shows such a time. -/
def atClock? (date : CalendarDate) (time : Option TimeText) : Option Instant := do
  let hour := clockValue (time.map (·.hour))
  let minute := clockValue (time.map (·.minute))
  let second := clockValue (time.bind (·.second))
  let nanos ← nanosOf? (time.bind (·.fraction))
  if hour < 24 ∧ minute < 60 ∧ second < 60 then some (.ofDate date hour minute second nanos)
  else none

/-- The instant that a date text stands for, if its numbers name one. -/
def instant? : DateText → Option Instant
  | .epoch digits => (Text.readNat? digits).map fun n => { seconds := n, nanos := 0 }
  | .slash month day year => do
    let m ← Text.readNat? month
    let d ← Text.readNat? day
    let y ← Text.readNat? year
    let date ← CalendarDate.of? (fullYear year y) m d
    some (.ofDate date 0 0 0 0)
  | .iso year month day time zone => do
    let y ← Text.readNat? year
    let m ← Text.readNat? month
    let d ← Text.readNat? day
    let date ← CalendarDate.of? y m d
    let here ← atClock? date time
    let ahead ← zoneSeconds? zone
    some (here.earlier ahead)

end DateText

/-! ## The two tests -/

/-- A text that looks like a date. -/
def looksLikeDate (value : String) : Bool :=
  (DateText.scan value.toList).isSome

/-- The instant that a text stands for. -/
def readDate? (value : String) : Option Instant :=
  (DateText.scan value.toList).bind DateText.instant?

end TabularView
