import ClusterVitals.Instant.Basic

/-!
# Calendar

Dates of the Gregorian calendar, extended to all years, and the time of day in UTC. `Date.unixDay`
numbers the days, `Date.ofUnixDay` finds the date of a day, and `Instant.logText` is the form in
which log lines show an instant.
-/

namespace ClusterVitals

/-- A date of the Gregorian calendar. -/
structure Date where
  year : Int
  month : Nat
  day : Nat
  deriving DecidableEq, Repr

/-- A year with a day after the twenty-eighth of February. -/
def isLeapYear (year : Int) : Bool :=
  year % 4 = 0 && (year % 100 ≠ 0 || year % 400 = 0)

/-- The lengths of the months of a year. -/
def monthLengths (leap : Bool) : List Nat :=
  [31, if leap then 29 else 28, 31, 30, 31, 30, 31, 31, 30, 31, 30, 31]

/-- The days of a year before one of its months. -/
def daysBeforeMonth (leap : Bool) (month : Nat) : Nat :=
  ((monthLengths leap).take (month - 1)).foldl (· + ·) 0

/-- The days from the first of January of the year one until that of another year. -/
def daysBeforeYear (year : Int) : Int :=
  let y := year - 1
  365 * y + y / 4 - y / 100 + y / 400

namespace Date

/-- A date with such a month and such a day in it. -/
def isValid (d : Date) : Bool :=
  match d.month with
  | 0 => false
  | m + 1 => 1 ≤ d.day && d.day ≤ (monthLengths (isLeapYear d.year)).getD m 0

/-- The number of days from the first of January 1970. -/
def unixDay (d : Date) : Int :=
  -- 719162 days lie between the first of January of the year one and that of 1970
  daysBeforeYear d.year + daysBeforeMonth (isLeapYear d.year) d.month + d.day - 1 - 719162

/-- The year with the day that is `n` days after the first of January of the year one. Four hundred
years have 146097 days, which gives the year or one of its neighbours. -/
def yearOfDay (n : Int) : Int :=
  let guess := n * 400 / 146097 + 1
  if daysBeforeYear (guess + 1) ≤ n then guess + 1
  else if daysBeforeYear guess ≤ n then guess
  else guess - 1

/-- The month and the day of the month of a day of the year, counted from zero. -/
def monthAndDay (month dayOfYear : Nat) : List Nat → Nat × Nat
  | [] => (month, dayOfYear + 1)
  | length :: rest =>
    if dayOfYear < length then (month, dayOfYear + 1)
    else monthAndDay (month + 1) (dayOfYear - length) rest

/-- The date a number of days after the first of January 1970. -/
def ofUnixDay (day : Int) : Date :=
  let n := day + 719162
  let year := yearOfDay n
  let (month, day) :=
    monthAndDay 1 (n - daysBeforeYear year).toNat (monthLengths (isLeapYear year))
  ⟨year, month, day⟩

end Date

/-- A number in decimal with zeros in front up to a width. -/
def padded (width n : Nat) : String :=
  let digits := Nat.toDigits 10 n
  String.ofList (List.replicate (width - digits.length) '0' ++ digits)

/-- A year of a log line: at least four digits, and a sign outside of those. -/
def yearText (year : Int) : String :=
  if year < 0 then "-" ++ padded 4 year.natAbs
  else if 9999 < year then "+" ++ padded 4 year.natAbs
  else padded 4 year.natAbs

/-- Decimal places of a second, without zeros at the end but with at least one digit. -/
def secondPlaces (nanos : Nat) : String :=
  let places := Duration.trimZeros (padded 9 nanos).toList
  if places.isEmpty then "0" else String.ofList places

/-- The instant in the form of a log line, in UTC. The hour is not padded. -/
def Instant.logText (t : Instant) : String :=
  let seconds := t.unixSeconds
  let date := Date.ofUnixDay (seconds / 86400)
  let inDay := (seconds % 86400).toNat
  yearText date.year ++ "-" ++ padded 2 date.month ++ "-" ++ padded 2 date.day ++ " " ++
    toString (inDay / 3600) ++ ":" ++ padded 2 (inDay % 3600 / 60) ++ ":" ++ padded 2 (inDay % 60) ++
    "." ++ secondPlaces t.subsecNanos ++ " +00:00:00"

end ClusterVitals
