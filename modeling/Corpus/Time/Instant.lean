/-
Corpus/Time/Instant.lean

Points in time, as days of the proleptic Gregorian calendar, seconds of the day and
nanoseconds.  A leap second is kept as the second before it with at least 10⁹ nanoseconds,
so a day always has 86400 seconds.

Reading is lenient about white space, the separator between date and time and the width
of the numbers; writing has one form, in universal time.
-/
import Corpus.Text.Blank
import Corpus.Number.Fixed

namespace Corpus

/-- A point in time, in universal time. -/
structure Instant where
  /-- Days since 1 January 1970. -/
  day : Int
  /-- Seconds since midnight. -/
  second : Nat
  /-- Nanoseconds, from 10⁹ on inside a leap second. -/
  nano : Nat
  deriving DecidableEq, Repr, Inhabited

namespace Instant

/-- One point comes before another. -/
def before (s t : Instant) : Bool :=
  s.day < t.day ||
    (s.day = t.day && (s.second < t.second || (s.second = t.second && s.nano < t.nano)))

/-- Days from 1 January 1970 to a date, counted in years that begin in March. -/
def dayOfDate (year : Int) (month day : Nat) : Int :=
  let y := if month ≤ 2 then year - 1 else year
  -- the calendar repeats after 400 years, which are 146097 days
  let era := Int.fdiv y 400
  let yearOfEra := y - era * 400
  -- counted from March the months have a regular pattern of 30 and 31 days
  let shifted : Int := if 2 < month then (month : Int) - 3 else (month : Int) + 9
  let dayOfYear := (153 * shifted + 2) / 5 + day - 1
  era * 146097 + (yearOfEra * 365 + yearOfEra / 4 - yearOfEra / 100 + dayOfYear) - 719468

/-- The date of a day. -/
def dateOfDay (day : Int) : Int × Nat × Nat :=
  let z := day + 719468
  let era := Int.fdiv z 146097
  let dayOfEra := z - era * 146097
  let yearOfEra := (dayOfEra - dayOfEra / 1460 + dayOfEra / 36524 - dayOfEra / 146096) / 365
  let dayOfYear := dayOfEra - (365 * yearOfEra + yearOfEra / 4 - yearOfEra / 100)
  let shifted := (5 * dayOfYear + 2) / 153
  let d := dayOfYear - (153 * shifted + 2) / 5 + 1
  let m := if shifted < 10 then shifted + 3 else shifted - 9
  let year := yearOfEra + era * 400 + if m ≤ 2 then 1 else 0
  (year, m.toNat, d.toNat)

def isLeapYear (year : Int) : Bool :=
  year % 4 = 0 && (year % 100 ≠ 0 || year % 400 = 0)

/-- The days of a month. -/
def daysInMonth (year : Int) (month : Nat) : Nat :=
  if month = 2 then if isLeapYear year then 29 else 28
  else if month = 4 || month = 6 || month = 9 || month = 11 then 30
  else 31

/-- The years that the calendar covers. -/
def coversYear (year : Int) : Bool := -262143 ≤ year && year ≤ 262142

/-! ### Reading -/

/-- One to `width` digits, and the rest. -/
def takeNumber (width : Nat) (s : List Char) : Option (Nat × List Char) :=
  let digits := (s.take width).takeWhile Char.isDigit
  if digits.isEmpty then none
  else some (digits.foldl (fun n c => n * 10 + (c.toNat - 48)) 0, s.drop digits.length)

/-- A number after white space. -/
def number (width : Nat) (s : List Char) : Option (Nat × List Char) :=
  takeNumber width (s.dropWhile Text.isBlank)

/-- A year: four digits at most, or any number of digits after a sign. -/
def year (s : List Char) : Option (Int × List Char) :=
  match s.dropWhile Text.isBlank with
  | '-' :: rest => (takeNumber rest.length rest).map fun (n, r) => (-(n : Int), r)
  | '+' :: rest => (takeNumber rest.length rest).map fun (n, r) => ((n : Int), r)
  | rest => (takeNumber 4 rest).map fun (n, r) => ((n : Int), r)

/-- A given character after white space. -/
def mark (c : Char) (s : List Char) : Option (List Char) :=
  match s.dropWhile Text.isBlank with
  | d :: rest => if d = c then some rest else none
  | [] => none

/-- An optional fraction of a second, cut to nanoseconds. -/
def fraction (s : List Char) : Option (Nat × List Char) :=
  match s with
  | '.' :: rest =>
    (takeNumber 9 rest).map fun (n, r) =>
      -- fewer than nine digits are filled up, more are passed over
      (n * Nat.pow 10 (9 - (rest.length - r.length)), r.dropWhile Char.isDigit)
  | rest => some (0, rest)

/-- Two digits. -/
def twoDigits : List Char → Option (Nat × List Char)
  | a :: b :: rest =>
    if a.isDigit && b.isDigit then some ((a.toNat - 48) * 10 + (b.toNat - 48), rest) else none
  | _ => none

/-- The distance from universal time in seconds. -/
def zone (s : List Char) : Option (Int × List Char) :=
  match s with
  | 'Z' :: rest | 'z' :: rest => some (0, rest)
  | c :: rest =>
    if c = '+' || c = '-' || c = '−' then do
      let (hours, r) ← twoDigits rest
      let (minutes, r) ← twoDigits (r.dropWhile fun c => c = ':' || Text.isBlank c)
      if minutes < 60 then
        let seconds : Int := hours * 3600 + minutes * 60
        some (if c = '+' then seconds else -seconds, r)
      else none
    else none
  | [] => none

/-- A named or numbered zone. -/
def zoneOrName (s : List Char) : Option (Int × List Char) :=
  if (s.take 3).map Char.toUpper = "UTC".toList then some (0, s.drop 3) else zone s

/-- The instant of a local date and time, if the calendar has it. -/
def ofLocal? (y : Int) (month day hour minute second nano : Nat) (offset : Int) :
    Option Instant :=
  if coversYear y && 1 ≤ month && month ≤ 12 && 1 ≤ day && day ≤ daysInMonth y month &&
      hour ≤ 23 && minute ≤ 59 && second ≤ 60 && offset.natAbs < 86400 then
    -- a leap second is kept as the second before it
    let (second, nano) := if second = 60 then (59, nano + 1000000000) else (second, nano)
    let clock : Int := hour * 3600 + minute * 60 + second - offset
    let day := dayOfDate y month day + Int.fdiv clock 86400
    if coversYear (dateOfDay day).1 then some ⟨day, (Int.fmod clock 86400).toNat, nano⟩ else none
  else none

/-- Reads a date, a time and a zone. -/
def read? (text : String) : Option Instant := do
  let (y, s) ← year text.toList
  let s ← mark '-' s
  let (month, s) ← number 2 s
  let s ← mark '-' s
  let (day, s) ← number 2 s
  let s ← match s with
    | 'T' :: r | 't' :: r | ' ' :: r => some r
    | _ => none
  let (hour, s) ← number 2 s
  let s ← mark ':' s
  let (minute, s) ← number 2 s
  let s ← mark ':' s
  let (second, s) ← number 2 s
  let (nano, s) ← fraction s
  let (offset, s) ← zoneOrName (s.dropWhile Text.isBlank)
  if s.all Text.isBlank then ofLocal? y month day hour minute second nano offset else none

/-! ### Writing -/

/-- The year with four digits, or with a sign and at least four digits outside 0 to 9999. -/
def yearText (y : Int) : List Char :=
  if 0 ≤ y && y ≤ 9999 then Number.padded 4 y.toNat
  else (if y < 0 then '-' else '+') :: Number.padded 4 y.natAbs

/-- The fraction of a second in thousands, millionths or billionths, as few as needed. -/
def fractionText (nano : Nat) : List Char :=
  if nano = 0 then []
  else if nano % 1000000 = 0 then '.' :: Number.padded 3 (nano / 1000000)
  else if nano % 1000 = 0 then '.' :: Number.padded 6 (nano / 1000)
  else '.' :: Number.padded 9 nano

/-- The one written form, in universal time. -/
def text (t : Instant) : String :=
  let (y, month, day) := dateOfDay t.day
  let leap := 1000000000 ≤ t.nano
  let second := t.second % 60 + if leap then 1 else 0
  let nano := if leap then t.nano - 1000000000 else t.nano
  String.ofList <|
    yearText y ++ '-' :: Number.padded 2 month ++ '-' :: Number.padded 2 day ++
      'T' :: Number.padded 2 (t.second / 3600) ++
      ':' :: Number.padded 2 (t.second / 60 % 60) ++
      ':' :: Number.padded 2 second ++ fractionText nano ++ ['Z']

/-- The whole seconds from `start` to `finish`, cut towards zero; a leap second inside counts. -/
def secondsBetween (start finish : Instant) : Int :=
  let days := (finish.day - start.day) * 86400
  let seconds : Int := finish.second - start.second
  let leap : Int :=
    if start.second < finish.second && 1000000000 ≤ start.nano then 1
    else if finish.second < start.second && 1000000000 ≤ finish.nano then -1
    else 0
  let nanos := (days + seconds + leap) * 1000000000 + ((finish.nano : Int) - start.nano)
  Int.tdiv nanos 1000000000

end Instant

end Corpus
