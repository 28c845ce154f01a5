/-
Corpus/Toml/Scalar.lean

Values written without quotes: words, integers, floats, dates and times.

Underscores may stand between digits.  Decimal numbers have no leading zeros; integers may
also be written in hexadecimal, octal and binary, then without a sign.
-/
import Corpus.Toml.Value
import Corpus.Time.Instant

namespace Corpus.Toml

/-! ### Numbers -/

/-- The value of a digit of any base up to sixteen. -/
def digitValue? (c : Char) : Option Nat :=
  if '0' ≤ c && c ≤ '9' then some (c.toNat - 48)
  else if 'a' ≤ c && c ≤ 'f' then some (c.toNat - 87)
  else if 'A' ≤ c && c ≤ 'F' then some (c.toNat - 55)
  else none

/-- A digit of the given base. -/
def isDigitOf (base : Nat) (c : Char) : Bool :=
  match digitValue? c with
  | some d => d < base
  | none => false

/-- Digits with single underscores between them, without the underscores. -/
def digits? (base : Nat) (s : List Char) : Option (List Char) :=
  let groups := s.splitOn '_'
  if groups.all fun g => !g.isEmpty && g.all (isDigitOf base) then some groups.flatten else none

/-- Digits of a decimal number before the point: no zero in front of others. -/
def wholeDigits? (s : List Char) : Option (List Char) := do
  let digits ← digits? 10 s
  if 1 < digits.length && digits.head? == some '0' then none else some digits

/-- The number that digits of a base write. -/
def numberOf (base : Nat) (digits : List Char) : Nat :=
  digits.foldl (fun n c => n * base + (digitValue? c).getD 0) 0

/-- Cuts an optional sign off. -/
def splitSign (s : List Char) : Option Char × List Char :=
  match s with
  | c :: rest => if c = '+' || c = '-' then (some c, rest) else (none, s)
  | [] => (none, [])

/-- An integer of at most 128 bits. -/
def integer? (s : List Char) : Option Int :=
  let based (base : Nat) (digits : List Char) : Option Int := do
    let n := numberOf base (← digits? base digits)
    if n < Nat.pow 2 128 then some (n : Int) else none
  match s with
  | '0' :: 'x' :: digits => based 16 digits
  | '0' :: 'o' :: digits => based 8 digits
  | '0' :: 'b' :: digits => based 2 digits
  | s => do
    let (sign, body) := splitSign s
    let n := numberOf 10 (← wholeDigits? body)
    if sign = some '-' then
      if n ≤ Nat.pow 2 127 then some (-(n : Int)) else none
    else if n < Nat.pow 2 128 then some (n : Int) else none

/-- A float: digits with a fraction, a power of ten or both, or one of two words.  A number
beyond all floats is refused. -/
def float? (s : List Char) : Option Float :=
  let (sign, body) := splitSign s
  let signed (x : Float) : Float := if sign = some '-' then -x else x
  if body = "inf".toList then some (signed (1.0 / 0.0))
  else if body = "nan".toList then some (0.0 / 0.0)
  else
    let mantissa := body.takeWhile fun c => c ≠ 'e' && c ≠ 'E'
    let power := body.drop mantissa.length
    let whole := mantissa.takeWhile (· ≠ '.')
    let places := mantissa.drop whole.length
    if places.isEmpty && power.isEmpty then none
    else do
      let whole ← wholeDigits? whole
      let places ← if places.isEmpty then some [] else (digits? 10 (places.drop 1)).map ('.' :: ·)
      let power ←
        if power.isEmpty then some []
        else
          let (powerSign, rest) := splitSign (power.drop 1)
          (digits? 10 rest).map fun d => 'e' :: (powerSign.toList ++ d)
      let d ← Number.Decimal.read? (whole ++ places ++ power)
      let x := d.toFloat
      if x.isInf then none else some (signed x)

/-! ### Dates and times -/

/-- A number of exactly two digits between bounds. -/
def pair? (low high : Nat) : List Char → Option (List Char)
  | a :: b :: rest =>
    if a.isDigit && b.isDigit then
      let n := numberOf 10 [a, b]
      if low ≤ n && n ≤ high then some rest else none
    else none
  | _ => none

/-- A given character. -/
def char? (c : Char) : List Char → Option (List Char)
  | d :: rest => if d = c then some rest else none
  | [] => none

/-- A year, a month and a day that the month has. -/
def date? (s : List Char) : Option (List Char) := do
  let year := s.take 4
  if year.length = 4 && year.all Char.isDigit then
    let rest ← char? '-' (s.drop 4)
    let afterMonth ← pair? 1 12 rest
    let month := numberOf 10 (rest.take 2)
    let rest ← char? '-' afterMonth
    pair? 1 (Instant.daysInMonth (numberOf 10 year) month) rest
  else none

/-- The fraction of a second, if there is one. -/
def places? (s : List Char) : Option (List Char) :=
  match s with
  | '.' :: rest =>
    let digits := rest.takeWhile Char.isDigit
    if digits.isEmpty then none else some (rest.drop digits.length)
  | s => some s

/-- An hour and a minute, and a second if there is one. -/
def clock? (s : List Char) : Option (List Char) := do
  let rest ← pair? 0 23 s
  let rest ← char? ':' rest
  let rest ← pair? 0 59 rest
  match rest with
  | ':' :: seconds => places? (← pair? 0 60 seconds)
  | rest => some rest

/-- The distance from universal time, or nothing. -/
def offset? (s : List Char) : Option (List Char) :=
  match s with
  | [] => some []
  | c :: rest =>
    if c = 'Z' || c = 'z' then some rest
    else if c = '+' || c = '-' then do
      let rest ← pair? 0 23 rest
      let rest ← char? ':' rest
      pair? 0 59 rest
    else none

/-- A date, a time, or a date and a time with or without an offset. -/
def isMoment (s : List Char) : Bool :=
  match date? s with
  | some [] => true
  | some (c :: rest) =>
    (c = 'T' || c = 't' || c = ' ') && (clock? rest >>= offset?) == some []
  | none => clock? s == some []

/-- The text is a date alone. -/
def isDate (s : List Char) : Bool := date? s == some []

/-! ### All of them -/

/-- Reads a value without quotes. -/
def scalar? (s : List Char) : Option Value :=
  if s = "true".toList then some (.boolean true)
  else if s = "false".toList then some (.boolean false)
  else
    match integer? s with
    | some n => some (.integer n)
    | none =>
      match float? s with
      | some x => some (.float x)
      | none => if isMoment s then some .moment else none

end Corpus.Toml
