import ChainConformance.Asn1.Strict
import ChainConformance.Text.Numeral

/-!
# Times in certificates

A time is a count of seconds from the start of 1970. `Time.readUtc?` and `Time.readGeneralized?`
read the two forms that certificates use, `Time.encode` writes the form that the year asks for.
-/

namespace ChainConformance.Time

/-! ## Calendar -/

def isLeap (year : Int) : Bool := year % 4 = 0 && (year % 100 ≠ 0 || year % 400 = 0)

def daysInMonth (year : Int) (month : Nat) : Nat :=
  if month = 2 then if isLeap year then 29 else 28
  else if month = 4 ∨ month = 6 ∨ month = 9 ∨ month = 11 then 30
  else 31

/-- The days from the start of 1970 to a day of the Gregorian calendar. The year is taken to start
in March, so that the leap day is its last. -/
def daysFromCivil (year : Int) (month day : Nat) : Int :=
  let y := if month ≤ 2 then year - 1 else year
  let era := y / 400
  let yearOfEra := y % 400
  let dayOfYear := (153 * ((month + 9) % 12) + 2) / 5 + day - 1
  let dayOfEra := yearOfEra * 365 + yearOfEra / 4 - yearOfEra / 100 + dayOfYear
  era * 146097 + dayOfEra - 719468

/-- The year, the month and the day that lie `days` after the start of 1970. -/
def civilFromDays (days : Int) : Int × Nat × Nat :=
  let z := days + 719468
  let era := z / 146097
  let dayOfEra := z % 146097
  let yearOfEra := (dayOfEra - dayOfEra / 1460 + dayOfEra / 36524 - dayOfEra / 146096) / 365
  let dayOfYear := dayOfEra - (365 * yearOfEra + yearOfEra / 4 - yearOfEra / 100)
  let shifted := (5 * dayOfYear + 2) / 153
  let day := dayOfYear - (153 * shifted + 2) / 5 + 1
  let month := if shifted < 10 then shifted + 3 else shifted - 9
  (yearOfEra + era * 400 + (if month ≤ 2 then 1 else 0), month.toNat, day.toNat)

/-- The seconds from the start of 1970 to a time of day, if the calendar has the day. -/
def seconds? (year : Int) (month day hour minute second : Nat) : Option Int :=
  if 1 ≤ month ∧ month ≤ 12 ∧ 1 ≤ day ∧ day ≤ daysInMonth year month then
    some (daysFromCivil year month day * 86400 + (hour * 3600 + minute * 60 + second : Nat))
  else none

/-! ## Reading -/

/-- The number of two decimal digits. -/
def twoDigits? (a b : UInt8) : Option Nat :=
  if 48 ≤ a ∧ a ≤ 57 ∧ 48 ≤ b ∧ b ≤ 57 then some ((a.toNat - 48) * 10 + (b.toNat - 48)) else none

/-- The offset from UTC, in seconds, at the end of a time. Hours go up to 25 and minutes to 59; a
minus sign before zero hours does not count. -/
def zone? : Bytes → Option Int
  | [90] => some 0
  | [sign, a, b, c, d] => do
    guard (sign = 43 ∨ sign = 45)
    let hours ← twoDigits? a b
    let minutes ← twoDigits? c d
    guard (hours ≤ 25 ∧ minutes ≤ 59)
    let offset : Int := hours * 3600 + minutes * 60
    return if sign = 45 ∧ hours ≠ 0 then -offset else offset
  | _ => none

/-- Month, day, hour and minute, eight digits, with what follows. -/
def fields? : Bytes → Option ((Nat × Nat × Nat × Nat) × Bytes)
  | a :: b :: c :: d :: e :: f :: g :: h :: rest => do
    return ((← twoDigits? a b, ← twoDigits? c d, ← twoDigits? e f, ← twoDigits? g h), rest)
  | _ => none

/-- Seconds, if at least two characters are left. -/
def second? : Bytes → Option (Nat × Bytes)
  | a :: b :: rest => do return (← twoDigits? a b, rest)
  | rest => some (0, rest)

/-- Passes over a fraction of at most three digits, or four that end the text and start with a
zero. -/
def skipFraction? : Bytes → Option Bytes
  | x :: rest =>
    if x = 46 ∨ x = 44 then
      let isDigit (c : UInt8) : Bool := 48 ≤ c ∧ c ≤ 57
      let digits := rest.takeWhile isDigit
      let after := rest.dropWhile isDigit
      match digits.length, after with
      | 0, [] => none
      | 4, [] => if digits.head? = some 48 then some [] else none
      | count, [] => if count ≤ 3 then some [] else none
      | count, c :: _ => if count ≤ 3 ∧ (c = 90 ∨ c = 43 ∨ c = 45) then some after else none
    else some (x :: rest)
  | [] => some []

def inRange (month day hour minute second : Nat) : Bool :=
  month ≤ 12 && day ≤ 31 && hour ≤ 23 && minute ≤ 59 && second ≤ 59

/-- The contents of a UTCTime; years below 50 belong to this century. -/
def readUtc? : Bytes → Option Int
  | y1 :: y2 :: rest => do
    let yy ← twoDigits? y1 y2
    let ((month, day, hour, minute), rest) ← fields? rest
    let (second, rest) ← second? rest
    guard (inRange month day hour minute second)
    let offset ← zone? rest
    let year : Int := if 50 ≤ yy then 1900 + yy else 2000 + yy
    return (← seconds? year month day hour minute second) - offset
  | _ => none

/-- The contents of a GeneralizedTime; without an offset it is taken to be in UTC. -/
def readGeneralized? : Bytes → Option Int
  | y1 :: y2 :: y3 :: y4 :: rest => do
    let high ← twoDigits? y1 y2
    let low ← twoDigits? y3 y4
    let ((month, day, hour, minute), rest) ← fields? rest
    guard (rest ≠ [])
    let (second, rest) ← second? rest
    guard (inRange month day hour minute second)
    let rest ← skipFraction? rest
    let offset ← if rest = [] then some 0 else zone? rest
    return (← seconds? (high * 100 + low : Nat) month day hour minute second) - offset
  | _ => none

/-! ## Writing -/

/-- Two decimal digits. -/
def writeTwo (n : Nat) : Bytes := [UInt8.ofNat (48 + n / 10 % 10), UInt8.ofNat (48 + n % 10)]

/-- The element of a time: a UTCTime from 1950 to 2049, else a GeneralizedTime. -/
def encode (seconds : Int) : Strict.Element :=
  let (year, month, day) := civilFromDays (seconds / 86400)
  let ofDay := (seconds % 86400).toNat
  let year := year.toNat
  let rest := writeTwo month ++ writeTwo day ++ writeTwo (ofDay / 3600) ++
    writeTwo (ofDay / 60 % 60) ++ writeTwo (ofDay % 60) ++ [90]
  if 1950 ≤ year ∧ year < 2050 then ⟨0x17, writeTwo (year % 100) ++ rest⟩
  else ⟨0x18, writeTwo (year / 100) ++ writeTwo (year % 100) ++ rest⟩

end ChainConformance.Time
