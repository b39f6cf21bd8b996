import ClusterVitals.Duration.Basic
import ClusterVitals.Text.Blank
import ClusterVitals.Text.Quoted

/-!
# Written durations

The form in which settings hold a duration: amounts with a unit, one after another, such as
`1h 30m` or `0.5s`. `Duration.read` adds the amounts up, and `Duration.written` writes a duration
with each unit at most once, from years down to nanoseconds.

## Shape of the reader

Reading is one step for every character. The state says what the reader is in the middle of: a gap
between amounts, the whole part of a number, its decimal places, or a unit. The end of the text ends
whatever was open.

The total is kept in seconds and nanoseconds, and at most one second of nanoseconds is carried
without a look at the limit. A total that only this carry takes to the limit is told apart from
amounts that are too large in themselves.
-/

namespace ClusterVitals.Duration

/-- Why a text is no duration. Offsets count bytes. -/
inductive ReadError where
  | empty
  /-- A gap that begins at the offset ends with something other than a digit. -/
  | numberExpected (offset : Nat)
  | invalidCharacter (offset : Nat)
  | unitNeeded (amount : Nat)
  | unknownUnit (unit : String)
  | tooLarge
  /-- Nanoseconds that make up exactly one second are carried past the greatest number of seconds. -/
  | carryPastLimit
  deriving DecidableEq, Repr

/-- The text of a failure to read a duration. -/
def ReadError.message : ReadError → String
  | .empty => "value was empty"
  | .numberExpected offset => s!"expected number at {offset}"
  | .invalidCharacter offset => s!"invalid character at {offset}"
  | .unitNeeded amount => s!"time unit needed, for example {amount}sec or {amount}ms"
  | .unknownUnit unit =>
    "unknown time unit " ++ Text.quoted unit ++ ", supported units: ns, us/µs, ms, sec, min, " ++
      "hours, days, weeks, months, years (and few variations)"
  | .tooLarge | .carryPastLimit =>
    "number is too large or cannot be represented without a lack of precision " ++
      "(values below 1ns are not supported)"

/-- A unit of time. -/
inductive TimeUnit where
  | nanosecond | microsecond | millisecond | second | minute | hour | day | week | month | year
  deriving DecidableEq, Repr

namespace TimeUnit

/-- The unit of a name. -/
def ofName? (name : String) : Option TimeUnit :=
  if name ∈ ["ns", "nsec", "nanos"] then some .nanosecond
  else if name ∈ ["us", "usec", "µs"] then some .microsecond
  else if name ∈ ["ms", "msec", "millis"] then some .millisecond
  else if name ∈ ["s", "sec", "secs", "second", "seconds"] then some .second
  else if name ∈ ["m", "min", "mins", "minute", "minutes"] then some .minute
  else if name ∈ ["h", "hr", "hrs", "hour", "hours"] then some .hour
  else if name ∈ ["d", "day", "days"] then some .day
  else if name ∈ ["w", "wk", "wks", "week", "weeks"] then some .week
  else if name ∈ ["M", "month", "months"] then some .month
  else if name ∈ ["y", "yr", "yrs", "year", "years"] then some .year
  else none

/-- The length of a unit in nanoseconds. -/
def nanos : TimeUnit → Nat
  | nanosecond => 1
  | microsecond => 1000
  | millisecond => 1000000
  | second => 1000000000
  | minute => 60 * 1000000000
  | hour => 3600 * 1000000000
  | day => 86400 * 1000000000
  | week => 604800 * 1000000000
  | month => 2630016 * 1000000000
  | year => 31557600 * 1000000000

/-- The length of the step in which whole amounts of a unit are counted, in nanoseconds: a
nanosecond below a second, a second from there on. -/
def wholeStep : TimeUnit → Nat
  | nanosecond | microsecond | millisecond => 1
  | _ => 1000000000

/-- The length of the step in which parts of a unit are counted, in nanoseconds: a second from an
hour on, a nanosecond below. Nanoseconds have no parts. -/
def partStep? : TimeUnit → Option Nat
  | nanosecond => none
  | microsecond | millisecond | second | minute => some 1
  | _ => some 1000000000

end TimeUnit

/-- A number as written: a whole part and, after a point, decimal places. -/
structure Amount where
  whole : Nat
  /-- The decimal places as a number, and how many there are. -/
  places : Option (Nat × Nat)
  deriving DecidableEq, Repr

/-- Counts that a number of 64 bits can hold. -/
def fits (n : Nat) : Bool := n < Nat.pow 2 64

/-- A number of 64 bits that fits. -/
def bounded (n : Nat) : Except ReadError Nat :=
  if fits n then .ok n else .error .tooLarge

/-- Adds a number of steps to a total of nanoseconds. -/
def addSteps (total count step : Nat) : Except ReadError Nat := do
  let count ← bounded count
  -- the nanoseconds past the last whole second are counted in 64 bits too
  let nanos ← bounded (if step = 1 then total % nanosPerSecond + count else 0)
  let total := total + count * step
  if total < limit then .ok total
  else if nanos = nanosPerSecond ∧ total = limit then .error .carryPastLimit
  else .error .tooLarge

/-- Adds an amount of a unit to a total of nanoseconds. -/
def addAmount (total : Nat) (amount : Amount) (name : String) : Except ReadError Nat := do
  match TimeUnit.ofName? name with
  | none => .error (if name.isEmpty then .unitNeeded amount.whole else .unknownUnit name)
  | some unit =>
    let total ← addSteps total (amount.whole * (unit.nanos / unit.wholeStep)) unit.wholeStep
    match amount.places, unit.partStep? with
    | none, _ => .ok total
    | some _, none => .error .tooLarge
    | some (digits, count), some step =>
      let product ← bounded (digits * (unit.nanos / step))
      if product % Nat.pow 10 count = 0 then addSteps total (product / Nat.pow 10 count) step
      else .error .tooLarge

/-- What the reader is in the middle of. -/
inductive ReadState where
  /-- Between amounts, in a gap that begins at an offset; `first` before the first amount. A blank
  that ends a unit is not part of the gap. -/
  | gap (first : Bool) (start : Nat)
  | whole (n : Nat)
  /-- After a point. `stop` is the offset after the last character that belonged to the decimal
  places, or of the point itself. -/
  | places (whole digits count stop : Nat)
  | unit (amount : Amount) (name : String)
  deriving DecidableEq, Repr

/-- The letters of units. -/
def isUnitLetter (c : Char) : Bool :=
  c.isAlpha || c = 'µ'

/-- The value of a decimal digit. -/
def digitValue (c : Char) : Nat := c.toNat - '0'.toNat

/-- Reads one character, at a byte offset, with the total of the amounts read so far. -/
def readChar (total : Nat) (state : ReadState) (offset : Nat) (c : Char) :
    Except ReadError (Nat × ReadState) :=
  match state with
  | .gap first start =>
    if c.isDigit then .ok (total, .whole (digitValue c))
    else if Text.isBlank c then .ok (total, .gap first start)
    else .error (.numberExpected start)
  | .whole n =>
    if c.isDigit then do
      let n ← bounded (n * 10 + digitValue c)
      return (total, .whole n)
    else if Text.isBlank c then .ok (total, .whole n)
    else if isUnitLetter c then .ok (total, .unit ⟨n, none⟩ c.toString)
    else if c = '.' then .ok (total, .places n 0 0 offset)
    else .error (.invalidCharacter offset)
  | .places whole digits count stop =>
    if c.isDigit then do
      let digits ← bounded (digits * 10 + digitValue c)
      let _ ← bounded (Nat.pow 10 (count + 1))
      return (total, .places whole digits (count + 1) (offset + 1))
    else if Text.isBlank c then .ok (total, .places whole digits count (offset + c.utf8Size))
    else if isUnitLetter c ∧ count ≠ 0 then
      .ok (total, .unit ⟨whole, some (digits, count)⟩ c.toString)
    else .error (.invalidCharacter stop)
  | .unit amount name =>
    if c.isDigit then do
      let total ← addAmount total amount name
      return (total, .whole (digitValue c))
    else if Text.isBlank c then do
      let total ← addAmount total amount name
      return (total, .gap false (offset + c.utf8Size))
    else if isUnitLetter c then .ok (total, .unit amount (name.push c))
    else .error (.invalidCharacter offset)

/-- Ends the text in a state. -/
def readEnd (total : Nat) : ReadState → Except ReadError Nat
  | .gap first _ => if first then .error .empty else .ok total
  | .whole n => addAmount total ⟨n, none⟩ ""
  | .places whole digits count stop =>
    if count = 0 then .error (.invalidCharacter stop)
    else addAmount total ⟨whole, some (digits, count)⟩ ""
  | .unit amount name => addAmount total amount name

/-- Reads the characters from a byte offset on. -/
def readFrom (total : Nat) (state : ReadState) (offset : Nat) : List Char → Except ReadError Nat
  | [] => readEnd total state
  | c :: rest => do
    let (total, state) ← readChar total state offset c
    readFrom total state (offset + c.utf8Size) rest

/-- Reads a written duration. A zero needs no unit. -/
def read (s : String) : Except ReadError Duration :=
  if s = "0" then .ok zero
  else do
    let total ← readFrom 0 (.gap true 0) 0 s.toList
    match ofNanos? total with
    | some d => .ok d
    | none => .error .tooLarge

/-- A part of a written duration: nothing when there is none of the unit. -/
def writtenPart (count : Nat) (singular plural : String) : List String :=
  if count = 0 then [] else [toString count ++ if count = 1 then singular else plural]

/-- Writes a duration, from years down to nanoseconds. -/
def written (d : Duration) : String :=
  let seconds := d.seconds
  let nanos := d.subsecNanos
  -- a year has 365.25 days, and a month 30.44
  let years := seconds / 31557600
  let inYear := seconds % 31557600
  let months := inYear / 2630016
  let inMonth := inYear % 2630016
  let days := inMonth / 86400
  let inDay := inMonth % 86400
  let parts :=
    writtenPart years "year" "years" ++ writtenPart months "month" "months" ++
    writtenPart days "day" "days" ++
    writtenPart (inDay / 3600) "h" "h" ++ writtenPart (inDay % 3600 / 60) "m" "m" ++
    writtenPart (inDay % 60) "s" "s" ++ writtenPart (nanos / 1000000) "ms" "ms" ++
    writtenPart (nanos % 1000000 / 1000) "us" "us" ++ writtenPart (nanos % 1000) "ns" "ns"
  if parts.isEmpty then "0s" else " ".intercalate parts

end ClusterVitals.Duration
