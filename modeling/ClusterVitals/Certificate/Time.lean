import ClusterVitals.Instant.Calendar

/-!
# Times in certificates

The two written forms of a time: `UTCTime`, with two digits for a year from 1950 to 2049 and an
offset from UTC, and `GeneralizedTime`, with four digits for the year, an optional fraction of a
second and no offset.
-/

namespace ClusterVitals.Certificate

/-- A date with a time of day. -/
structure Clock where
  date : Date
  hour : Nat
  minute : Nat
  second : Nat
  deriving DecidableEq, Repr

namespace Clock

/-- A date that exists and a time of day that exists; there are no leap seconds. -/
def isValid (c : Clock) : Bool :=
  c.date.isValid && c.hour ≤ 23 && c.minute ≤ 59 && c.second ≤ 59

/-- The seconds from the start of 1970 to a date and time in UTC. -/
def unixSeconds (c : Clock) : Int :=
  c.date.unixDay * 86400 + (c.hour * 3600 + c.minute * 60 + c.second : Nat)

end Clock

namespace Time

/-- A decimal digit. -/
def digit? (b : UInt8) : Option Nat :=
  if 0x30 ≤ b.toNat ∧ b.toNat ≤ 0x39 then some (b.toNat - 0x30) else none

/-- A number of two digits. -/
def pair? (a b : UInt8) : Option Nat := do
  return (← digit? a) * 10 + (← digit? b)

/-- The characters that a time may consist of. -/
def isVisible (b : UInt8) : Bool :=
  0x20 ≤ b.toNat && b.toNat ≤ 0x7F

/-- Month, day, hour and minute, and the bytes after them. -/
def monthToMinute? : List UInt8 → Option ((Nat × Nat × Nat × Nat) × List UInt8)
  | m₁ :: m₂ :: d₁ :: d₂ :: h₁ :: h₂ :: n₁ :: n₂ :: rest => do
    return ((← pair? m₁ m₂, ← pair? d₁ d₂, ← pair? h₁ h₂, ← pair? n₁ n₂), rest)
  | _ => none

/-- The offset from UTC at the end of a `UTCTime`, in seconds. The minutes count in the direction of
the hours, and forward when there are no hours. -/
def offset? : List UInt8 → Option Int
  | [0x5A] => some 0
  | [sign, h₁, h₂, m₁, m₂] => do
    let hours ← pair? h₁ h₂
    let minutes ← pair? m₁ m₂
    if 25 < hours ∨ 59 < minutes then none
    else
      let offset : Nat := hours * 3600 + minutes * 60
      if sign = 0x2B then some offset
      else if sign = 0x2D then some (if hours = 0 then (offset : Int) else -(offset : Int))
      else none
  | _ => none

/-- The full year of a `UTCTime`. -/
def fullYear (twoDigits : Nat) : Int :=
  if 50 ≤ twoDigits then 1900 + twoDigits else 2000 + twoDigits

/-- The seconds at the end of a `UTCTime`, and the zone after them. Seconds may be absent before a
`Z` only: two bytes or more begin with seconds. -/
def secondAndZone? : List UInt8 → Option (Nat × List UInt8)
  | s₁ :: s₂ :: zone => do return (← pair? s₁ s₂, zone)
  | zone => some (0, zone)

/-- Reads a `UTCTime`: `YYMMDDhhmm`, seconds or none, and `Z` or an offset. -/
def utc? : List UInt8 → Option Instant
  | y₁ :: y₂ :: rest => do
    let year ← pair? y₁ y₂
    let ((month, day, hour, minute), rest) ← monthToMinute? rest
    let (second, zone) ← secondAndZone? rest
    let clock : Clock := ⟨⟨fullYear year, month, day⟩, hour, minute, second⟩
    let offset ← offset? zone
    if clock.isValid then some (.ofUnixSeconds (clock.unixSeconds - offset)) else none
  | _ => none

/-- The fraction of a second at the end of a `GeneralizedTime`, in milliseconds: nothing, or a
point and up to three digits. -/
def fraction? : List UInt8 → Option Nat
  | [0x5A] => some 0
  | [0x2E, 0x5A] => some 0
  | [0x2E, a, 0x5A] => do return (← digit? a) * 100
  | [0x2E, a, b, 0x5A] => do return (← pair? a b) * 10
  | [0x2E, a, b, c, 0x5A] => do return (← pair? a b) * 10 + (← digit? c)
  | _ => none

/-- The seconds, which may be absent, and milliseconds at the end of a `GeneralizedTime`. -/
def secondAndMillis? : List UInt8 → Option (Nat × Nat)
  | [0x5A] => some (0, 0)
  | s₁ :: s₂ :: rest => do return (← pair? s₁ s₂, ← fraction? rest)
  | _ => none

/-- Reads a `GeneralizedTime`: `YYYYMMDDhhmm`, perhaps seconds with a fraction, and `Z`. -/
def general? : List UInt8 → Option Instant
  | y₁ :: y₂ :: y₃ :: y₄ :: rest => do
    let century ← pair? y₁ y₂
    let year ← pair? y₃ y₄
    let ((month, day, hour, minute), rest) ← monthToMinute? rest
    let (second, millis) ← secondAndMillis? rest
    let clock : Clock := ⟨⟨(century * 100 + year : Nat), month, day⟩, hour, minute, second⟩
    if clock.isValid then
      some ⟨clock.unixSeconds * nanosPerSecond + (millis * 1000000 : Nat)⟩
    else none
  | _ => none

end Time

end ClusterVitals.Certificate
