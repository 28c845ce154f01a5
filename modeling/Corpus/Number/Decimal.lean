/-
Corpus/Number/Decimal.lean

Decimal texts read as doubles.  A text is a sign, digits with an optional point, and an
optional power of ten; the result is the double nearest to the exact value, so an
exponent far outside the range gives infinity or zero.
-/
namespace Corpus.Number

/-- The value of decimal digits after the digits already read. -/
def digitsValue (start : Nat) (digits : List Char) : Nat :=
  digits.foldl (fun n c => n * 10 + (c.toNat - '0'.toNat)) start

/-- A decimal number before rounding: `digits * 10 ^ scale`. -/
structure Decimal where
  negative : Bool
  digits : Nat
  scale : Int
  deriving Repr, DecidableEq

/-- A sign in front of the rest of a text. -/
def takeSign : List Char → Bool × List Char
  | '-' :: rest => (true, rest)
  | '+' :: rest => (false, rest)
  | rest => (false, rest)

/-- The power of ten behind an `e`, and nothing after it. -/
def readPower : List Char → Option Int
  | [] => some 0
  | c :: rest =>
    if c = 'e' || c = 'E' then
      let (negative, digits) := takeSign rest
      if digits.isEmpty || !digits.all Char.isDigit then none
      else
        let n := digitsValue 0 digits
        some (if negative then -(n : Int) else n)
    else none

/-- Reads a whole text as a decimal number with at least one digit. -/
def Decimal.read? (s : List Char) : Option Decimal :=
  let (negative, body) := takeSign s
  let whole := body.takeWhile Char.isDigit
  let rest := body.dropWhile Char.isDigit
  let (places, tail) : List Char × List Char :=
    match rest with
    | '.' :: r => (r.takeWhile Char.isDigit, r.dropWhile Char.isDigit)
    | r => ([], r)
  if whole.isEmpty && places.isEmpty then none
  else
    (readPower tail).map fun power =>
      ⟨negative, digitsValue (digitsValue 0 whole) places, power - places.length⟩

/-- The nearest double. -/
def Decimal.toFloat (d : Decimal) : Float :=
  let length : Int := (Nat.toDigits 10 d.digits).length
  let x : Float :=
    -- far outside the range the power of ten is not even computed
    if d.digits = 0 || d.scale + length < -400 then 0.0
    else if 400 < d.scale + length then 1.0 / 0.0
    else match d.scale with
      | .ofNat n => Float.ofScientific d.digits false n
      | .negSucc n => Float.ofScientific d.digits true (n + 1)
  if d.negative then -x else x

/-- Reads a decimal text, `inf` or `nan`, the last two after an optional sign. -/
def readFloat? (s : String) : Option Float :=
  let (negative, body) := takeSign s.toList
  if body = "inf".toList then some (if negative then -(1.0 / 0.0) else 1.0 / 0.0)
  else if body = "nan".toList then some (0.0 / 0.0)
  else (Decimal.read? s.toList).map Decimal.toFloat

end Corpus.Number
