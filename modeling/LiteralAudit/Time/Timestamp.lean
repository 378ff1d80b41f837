import LiteralAudit.Number.Integer

/-!
# Dates of the Gregorian calendar

`daysFromCivil` numbers the days so that 1 January 1970 is day 0, and `civilFromDays` reads the date
off the number. Both count in eras of 400 years that start on 1 March, so that a leap day ends its
year.
-/

namespace LiteralAudit.Time

/-- A day of the Gregorian calendar, extended to all years. -/
structure Date where
  year : Int
  month : Nat
  day : Nat
  deriving Repr, DecidableEq, Inhabited

def isLeap (year : Int) : Bool := year % 4 == 0 && (year % 100 != 0 || year % 400 == 0)

/-- How many days a month has. -/
def daysIn (year : Int) (month : Nat) : Nat :=
  match month with
  | 2 => if isLeap year then 29 else 28
  | 4 | 6 | 9 | 11 => 30
  | _ => 31

/-- A date's number of days since 1 January 1970. -/
def daysFromCivil (d : Date) : Int :=
  let y : Int := if d.month ≤ 2 then d.year - 1 else d.year
  let era := y / 400
  let yearOfEra := y % 400
  let monthFromMarch : Int := ((d.month : Int) + 9) % 12
  let dayOfYear := (153 * monthFromMarch + 2) / 5 + d.day - 1
  let dayOfEra := yearOfEra * 365 + yearOfEra / 4 - yearOfEra / 100 + dayOfYear
  era * 146097 + dayOfEra - 719468

/-- The date of a number of days since 1 January 1970. -/
def civilFromDays (days : Int) : Date :=
  let z := days + 719468
  let era := z / 146097
  let dayOfEra := z % 146097
  let yearOfEra := (dayOfEra - dayOfEra / 1460 + dayOfEra / 36524 - dayOfEra / 146096) / 365
  let dayOfYear := dayOfEra - (365 * yearOfEra + yearOfEra / 4 - yearOfEra / 100)
  let monthFromMarch := (5 * dayOfYear + 2) / 153
  let day := dayOfYear - (153 * monthFromMarch + 2) / 5 + 1
  let month := if monthFromMarch < 10 then monthFromMarch + 3 else monthFromMarch - 9
  let year := yearOfEra + era * 400 + (if month ≤ 2 then 1 else 0)
  ⟨year, month.toNat, day.toNat⟩

end LiteralAudit.Time

/-!
## Timestamps

A `Timestamp` is an instant, to the nanosecond, together with the offset of the clock that showed
it. `rfc3339?` writes it in the internet's date format and `readRfc3339?` reads that format;
`readRunStamp?` and `runStamp` do the same for the names under which runs are stored.
-/

namespace LiteralAudit

/-- An instant and the offset, in seconds east of Greenwich, in which it is shown. -/
structure Timestamp where
  /-- Seconds since the start of 1970 in UTC. -/
  seconds : Int
  nanos : Nat := 0
  offset : Int := 0
  deriving Repr, DecidableEq, BEq

namespace Timestamp

/-- The first second of the year 1, which stands for "no time". -/
def zero : Timestamp := { seconds := -62135596800 }

instance : Inhabited Timestamp := ⟨zero⟩

/-- Whether the instant is that of `zero`. -/
def isZero (t : Timestamp) : Bool := t.seconds == zero.seconds && t.nanos == 0

/-- The same instant shown in UTC. -/
def utc (t : Timestamp) : Timestamp := { t with offset := 0 }

/-- Whether one instant is before another. -/
def before (a b : Timestamp) : Bool :=
  a.seconds < b.seconds || (a.seconds == b.seconds && a.nanos < b.nanos)

/-- A date and a time of day as a clock shows them. -/
structure Clock where
  date : Time.Date
  hour : Nat
  minute : Nat
  second : Nat
  deriving Repr, DecidableEq

/-- What the timestamp's own clock shows. -/
def clock (t : Timestamp) : Clock :=
  let shown := t.seconds + t.offset
  let rest := (shown % 86400).toNat
  ⟨Time.civilFromDays (shown / 86400), rest / 3600, rest / 60 % 60, rest % 60⟩

/-- The timestamp at which a clock of the given offset shows a date and time. -/
def ofClock (c : Clock) (nanos : Nat) (offset : Int) : Timestamp :=
  let day := Time.daysFromCivil c.date * 86400
  ⟨day + c.hour * 3600 + c.minute * 60 + c.second - offset, nanos, offset⟩

/-! ## Writing -/

/-- A number with at least `width` digits. -/
def padded (width n : Nat) : Text :=
  let digits := Text.ofNat n
  List.replicate (width - digits.length) ('0' : UInt8) ++ digits

/-- A year with at least four digits. -/
def yearText (y : Int) : Text :=
  if y < 0 then "-" ++ padded 4 y.natAbs else padded 4 y.natAbs

/-- A date with `sep` between its parts. -/
def dateText (sep : Text) (d : Time.Date) : Text :=
  yearText d.year ++ sep ++ padded 2 d.month ++ sep ++ padded 2 d.day

/-- A time of day with `sep` between its parts. -/
def timeText (sep : Text) (c : Clock) : Text :=
  padded 2 c.hour ++ sep ++ padded 2 c.minute ++ sep ++ padded 2 c.second

/-- `2006-01-02 15:04:05` -/
def plain (t : Timestamp) : Text := dateText "-" t.clock.date ++ " " ++ timeText ":" t.clock

/-- The time of day: `15:04:05`. -/
def timeOfDay (t : Timestamp) : Text := timeText ":" t.clock

/-- An offset as sign, hours and minutes. -/
def offsetText (sep : Text) (offset : Int) : Text :=
  let minutes := offset.natAbs / 60
  (if offset < 0 then "-" else "+" : Text) ++ padded 2 (minutes / 60) ++ sep ++
    padded 2 (minutes % 60)

/-- The name of the clock's zone: `UTC`, or the offset where the zone has no name. -/
def zoneName (t : Timestamp) : Text := if t.offset == 0 then "UTC" else offsetText [] t.offset

/-- The fraction of a second, without trailing zeros; nothing for a whole second. -/
def fractionText (nanos : Nat) : Text :=
  if nanos == 0 then []
  else "." ++ Text.trimEnd (· == '0') (padded 9 nanos)

/-- The internet's date format, without a check of the ranges it can hold. -/
def rfc3339 (fraction : Bool) (t : Timestamp) : Text :=
  dateText "-" t.clock.date ++ "T" ++ timeText ":" t.clock ++
    (if fraction then fractionText t.nanos else []) ++
    (if t.offset == 0 then "Z" else offsetText ":" t.offset : Text)

/-- The internet's date format, when it can hold the timestamp: the year has four digits and the
offset is less than a day. -/
def rfc3339? (t : Timestamp) : Option Text :=
  let year := t.clock.date.year
  if 0 ≤ year && year ≤ 9999 && t.offset.natAbs / 3600 < 24 then some (t.rfc3339 true) else none

/-- The name of a run: its UTC date and time to the second. -/
def runStamp (t : Timestamp) : Text :=
  dateText "-" t.utc.clock.date ++ "T" ++ timeText "-" t.utc.clock

/-- Date and time as part of a file name. -/
def fileStamp (t : Timestamp) : Text :=
  dateText [] t.clock.date ++ "_" ++ timeText [] t.clock

/-! ## Reading -/

/-- Exactly `n` digits. -/
def digits? (n : Nat) (t : Text) : Option (Nat × Text) :=
  if (t.take n).length == n then
    ((Number.readDigits? 10 (t.take n))).map (·, t.drop n)
  else none

/-- One digit, or two when a second one follows. -/
def hour? (t : Text) : Option (Nat × Text) :=
  match t with
  | a :: b :: rest =>
    if Text.isDigit a then
      if Text.isDigit b then digits? 2 t else some (a.toNat - 48, b :: rest)
    else none
  | [a] => if Text.isDigit a then some (a.toNat - 48, []) else none
  | [] => none

/-- A separator. -/
def expect? (sep : UInt8) : Text → Option Text
  | b :: rest => if b == sep then some rest else none
  | [] => none

/-- A fraction of a second after a point or comma, if there is one: nanoseconds, of which digits
past the ninth are dropped. -/
def fraction (t : Text) : Nat × Text :=
  match t with
  | p :: d :: rest =>
    if (p == '.' || p == ',') && Text.isDigit d then
      let ds := (d :: rest).takeWhile Text.isDigit
      let nine := (ds ++ List.replicate 9 ('0' : UInt8)).take 9
      ((Number.readDigits? 10 nine).getD 0, (d :: rest).drop ds.length)
    else (0, t)
  | _ => (0, t)

/-- A date and time with the separators given, the nanoseconds, and what follows. -/
def readClock? (timeSep : UInt8) (t : Text) : Option (Clock × Nat × Text) := do
  let (year, t) ← digits? 4 t
  let t ← expect? '-' t
  let (month, t) ← digits? 2 t
  guard (1 ≤ month && month ≤ 12)
  let t ← expect? '-' t
  let (day, t) ← digits? 2 t
  let t ← expect? 'T' t
  let (hour, t) ← hour? t
  guard (hour < 24)
  let t ← expect? timeSep t
  let (minute, t) ← digits? 2 t
  guard (minute < 60)
  let t ← expect? timeSep t
  let (second, t) ← digits? 2 t
  guard (second < 60)
  let (nanos, t) := fraction t
  guard (1 ≤ day && day ≤ Time.daysIn year month)
  some (⟨⟨year, month, day⟩, hour, minute, second⟩, nanos, t)

/-- An offset: `Z`, or a sign, hours and minutes. -/
def readOffset? (t : Text) : Option (Int × Text) :=
  match t with
  | s :: rest =>
    if s == 'Z' then some (0, rest)
    else if s == '+' || s == '-' then do
      let (hours, t) ← digits? 2 rest
      let t ← expect? ':' t
      let (minutes, t) ← digits? 2 t
      guard (hours ≤ 24 && minutes ≤ 60)
      let east : Int := hours * 3600 + minutes * 60
      some (if s == '-' then -east else east, t)
    else none
  | [] => none

/-- A timestamp in the internet's date format. -/
def readRfc3339? (t : Text) : Option Timestamp := do
  let (clock, nanos, t) ← readClock? ':' t
  let (offset, t) ← readOffset? t
  guard t.isEmpty
  some (ofClock clock nanos offset)

/-- The timestamp that a run's name writes, in UTC. -/
def readRunStamp? (t : Text) : Option Timestamp := do
  let (clock, nanos, t) ← readClock? '-' t
  guard t.isEmpty
  some (ofClock clock nanos 0)

end Timestamp

end LiteralAudit
