import Keepsake.Number.Decimal
import Keepsake.Text.Blank
/-!
# Moments of the calendar

A `Stamp` is a second of the civil calendar, told by its date and time of day. Its compact form
`YYMMDD-HHMMSS` is part of the names of backups. Reading that form is lenient: a field has one or
two digits, white space may stand before it, and a sixtieth second is allowed; years from 70 to 99
belong to the twentieth century, the others to the twenty-first.
-/

namespace Keepsake

/-- A second of the civil calendar. -/
structure Stamp where
  year : Nat
  month : Nat
  day : Nat
  hour : Nat
  minute : Nat
  second : Nat
deriving DecidableEq

namespace Stamp

/-! ## The calendar -/

/-- Whether a year has a twenty-ninth of February. -/
def isLeapYear (year : Nat) : Bool := year % 4 = 0 && (year % 100 ≠ 0 || year % 400 = 0)

/-- The number of days in a month. -/
def daysInMonth (year month : Nat) : Nat :=
  if month = 2 then if isLeapYear year then 29 else 28
  else if month = 4 || month = 6 || month = 9 || month = 11 then 30
  else 31

/-- Whether there is such a second; the sixtieth of a minute counts. -/
def isValid (s : Stamp) : Bool :=
  decide (1 ≤ s.month) && decide (s.month ≤ 12) && decide (1 ≤ s.day) &&
    decide (s.day ≤ daysInMonth s.year s.month) && decide (s.hour < 24) && decide (s.minute < 60) &&
    decide (s.second ≤ 60)

/-- A number that grows with time. -/
def rank (s : Stamp) : Nat :=
  ((((s.year * 13 + s.month) * 32 + s.day) * 24 + s.hour) * 60 + s.minute) * 61 + s.second

/--
The second that is `n` seconds after the start of 1970, universal time. Days are counted from the
first of March of the year zero, in eras of 400 years, so that a leap day is the last of its year.
-/
def ofUnixSeconds (n : Int) : Stamp :=
  let days := (n.fdiv 86400 + 719468).toNat
  let time := (n.fmod 86400).toNat
  let era := days / 146097
  let dayOfEra := days % 146097
  let yearOfEra := (dayOfEra - dayOfEra / 1460 + dayOfEra / 36524 - dayOfEra / 146096) / 365
  let dayOfYear := dayOfEra - (365 * yearOfEra + yearOfEra / 4 - yearOfEra / 100)
  let marchMonth := (5 * dayOfYear + 2) / 153
  let month := if marchMonth < 10 then marchMonth + 3 else marchMonth - 9
  { year := yearOfEra + 400 * era + (if month ≤ 2 then 1 else 0)
    month
    day := dayOfYear - (153 * marchMonth + 2) / 5 + 1
    hour := time / 3600
    minute := time / 60 % 60
    second := time % 60 }

/-! ## Written forms -/

/-- A digit. -/
def digit (n : Nat) : Char := Char.ofNat (0x30 + n % 10)

/-- A number below a hundred in two digits. -/
def twoDigits (n : Nat) : List Char := [digit (n / 10), digit n]

/-- A number in at least four digits. -/
def fourDigits (n : Nat) : List Char :=
  if n < 10000 then twoDigits (n / 100) ++ twoDigits n else '+' :: Decimal.digitChars n

/-- The compact form. -/
def compactChars (s : Stamp) : List Char :=
  twoDigits s.year ++ twoDigits s.month ++ twoDigits s.day ++
    '-' :: (twoDigits s.hour ++ twoDigits s.minute ++ twoDigits s.second)

/-- The date and the time of day, with `gap` between them. -/
def longChars (gap : Char) (s : Stamp) : List Char :=
  fourDigits s.year ++ '-' :: (twoDigits s.month ++ '-' :: (twoDigits s.day ++ gap ::
    (twoDigits s.hour ++ ':' :: (twoDigits s.minute ++ ':' :: twoDigits s.second))))

/-- The form in which a moment is shown. -/
def text (s : Stamp) : String := String.ofList (longChars ' ' s)

/-! ## Reading -/

/-- Reads a number of one or two digits behind white space. -/
def readField (cs : List Char) : Option (Nat × List Char) :=
  match cs.dropWhile isWhiteSpace with
  | [] => none
  | a :: rest =>
    if !a.isDigit then none
    else match rest with
      | [] => some (Decimal.digitValue a, [])
      | b :: rest =>
        if b.isDigit then some (10 * Decimal.digitValue a + Decimal.digitValue b, rest)
        else some (Decimal.digitValue a, b :: rest)

/-- The year that two digits stand for. -/
def fullYear (n : Nat) : Nat := if n < 70 then 2000 + n else 1900 + n

/-- Reads the compact form. -/
def readCompact (cs : List Char) : Option Stamp := do
  let (year, cs) ← readField cs
  let (month, cs) ← readField cs
  let (day, cs) ← readField cs
  match cs with
  | '-' :: cs => do
    let (hour, cs) ← readField cs
    let (minute, cs) ← readField cs
    let (second, cs) ← readField cs
    let s : Stamp := ⟨fullYear year, month, day, hour, minute, second⟩
    if cs.isEmpty ∧ s.isValid then some s else none
  | _ => none

end Stamp

end Keepsake
