/-
Corpus/Number/Shortest.lean

The fewest decimal digits that read back as the same double.

The reals that round to a double form an interval around it, ends included iff the
mantissa is even.  For one digit, two digits and so on the value's two neighbours on that
decimal grid are tried: the first grid with a neighbour inside the interval has the fewest
digits, and of two such neighbours the nearer one is taken.  Seventeen digits always do.
-/
import Corpus.Number.Fixed

namespace Corpus.Number

/-- The interval that rounds to `mantissa * 2 ^ exponent`, and the number itself, over one
denominator. -/
structure Rounding where
  low : Nat
  value : Nat
  high : Nat
  den : Nat
  closed : Bool

def Rounding.of (mantissa : Nat) (exponent : Int) (boundary : Bool) : Rounding :=
  -- in quarters of the last place both ends are whole numbers
  let (unit, den) := ratio 1 (exponent - 2)
  { low := (4 * mantissa - if boundary then 1 else 2) * unit
    value := 4 * mantissa * unit
    high := (4 * mantissa + 2) * unit
    den := den
    closed := mantissa % 2 = 0 }

/-- `digits * 10 ^ scale` over the denominator of the interval, with both sides scaled so
that they are natural numbers. -/
def Rounding.holds (r : Rounding) (digits : Nat) (scale : Int) : Bool :=
  let (up, down) : Nat × Nat :=
    match scale with
    | .ofNat n => (Nat.pow 10 n, 1)
    | .negSucc n => (1, Nat.pow 10 (n + 1))
  let x := digits * up * r.den
  let low := r.low * down
  let high := r.high * down
  if r.closed then low ≤ x && x ≤ high else low < x && x < high

/-- The least `j` at most `fuel` with `den ≤ num * 10 ^ j`. -/
def placesBelowOne (num den : Nat) : Nat → Nat → Nat
  | 0, j => j
  | fuel + 1, j => if den ≤ num then j else placesBelowOne (num * 10) den fuel (j + 1)

/-- The power of ten of the first digit of a positive quotient. -/
def leadingPower (num den : Nat) : Int :=
  if den ≤ num then (Nat.toDigits 10 (num / den)).length - 1
  else -(placesBelowOne num den 400 0 : Int)

/-- The better neighbour on the grid of the given scale, if one is inside the interval. -/
def Rounding.neighbour? (r : Rounding) (scale : Int) : Option Nat :=
  let (num, den) : Nat × Nat :=
    match scale with
    | .ofNat n => (r.value, r.den * Nat.pow 10 n)
    | .negSucc n => (r.value * Nat.pow 10 (n + 1), r.den)
  let below := num / den
  let above := below + 1
  match r.holds below scale, r.holds above scale with
  | true, true =>
    let rest := num % den
    some (if 2 * rest < den then below
      else if den < 2 * rest then above
      else if below % 2 = 0 then below else above)
  | true, false => some below
  | false, true => some above
  | false, false => none

/-- Tries grids with more and more digits. -/
def Rounding.search (r : Rounding) (lead : Int) : Nat → Nat → Nat × Int
  | 0, _ => (0, 0)
  | fuel + 1, count =>
    -- the first grid has one digit
    let scale := lead - (count : Int)
    match r.neighbour? scale with
    | some digits => (digits, scale)
    | none => r.search lead fuel (count + 1)

/-- Moves the zeros at the end of a number into its power of ten. -/
def stripZeros : Nat → Nat → Int → Nat × Int
  | 0, digits, scale => (digits, scale)
  | fuel + 1, digits, scale =>
    if digits ≠ 0 && digits % 10 = 0 then stripZeros fuel (digits / 10) (scale + 1)
    else (digits, scale)

/-- The fewest digits of a positive finite double and the power of ten of the last one. -/
def shortest (mantissa : Nat) (exponent : Int) (boundary : Bool) : Nat × Int :=
  let r := Rounding.of mantissa exponent boundary
  let (digits, scale) := r.search (leadingPower r.value r.den) 18 0
  stripZeros 20 digits scale

/-- All digits before and behind the point, at least one on each side. -/
def positional (digits : Nat) (scale : Int) : List Char :=
  match scale with
  | .ofNat n => Nat.toDigits 10 (digits * Nat.pow 10 n) ++ ".0".toList
  | .negSucc n => placeText (n + 1) digits

/-- One digit before the point and the power of ten behind an `e`. -/
def scientific (digits : Nat) (scale : Int) : List Char :=
  let all := Nat.toDigits 10 digits
  let power := scale + (all.length - 1 : Nat)
  let mantissa :=
    match all with
    | d :: [] => [d]
    | d :: rest => d :: '.' :: rest
    | [] => []
  mantissa ++ 'e' :: (toString power).toList

/-- The shortest text of a double, always positional. -/
def positionalText (x : Float) : String :=
  let (negative, magnitude) := decompose x
  let sign := if negative then ['-'] else []
  String.ofList <| match magnitude with
    | .undefined => sign ++ "nan".toList
    | .infinite => sign ++ "inf".toList
    | .finite 0 _ _ => sign ++ "0.0".toList
    | .finite mantissa exponent boundary =>
      let (digits, scale) := shortest mantissa exponent boundary
      sign ++ positional digits scale

/-- The shortest text of a finite double, positional while the first digit stands between
the fifth place behind the point and the sixteenth before it. -/
def compactText (x : Float) : String :=
  let (negative, magnitude) := decompose x
  let sign := if negative then ['-'] else []
  String.ofList <| match magnitude with
    | .undefined | .infinite => "null".toList
    | .finite 0 _ _ => sign ++ "0.0".toList
    | .finite mantissa exponent boundary =>
      let (digits, scale) := shortest mantissa exponent boundary
      let point := scale + (Nat.toDigits 10 digits).length
      sign ++ if -5 < point && point ≤ 16 then positional digits scale
        else scientific digits scale

end Corpus.Number
