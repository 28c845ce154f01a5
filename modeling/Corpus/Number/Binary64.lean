/-
Corpus/Number/Binary64.lean

Floating-point numbers taken apart.  Apart from the infinities and the not-a-numbers a
double is a sign and a natural number times a power of two, and all printing works
on these two exactly.
-/
namespace Corpus.Number

/-- A double by what it denotes. -/
inductive Magnitude where
  /-- No number. -/
  | undefined
  /-- Beyond every finite number. -/
  | infinite
  /-- The number `mantissa * 2 ^ exponent`; `boundary` says that the next smaller double
  lies at half the distance of the next larger one. -/
  | finite (mantissa : Nat) (exponent : Int) (boundary : Bool)
  deriving Repr, DecidableEq

/-- The sign bit and what stands behind it. -/
def decompose (x : Float) : Bool × Magnitude :=
  let bits := x.toBits.toNat
  let fraction : Nat := bits % Nat.pow 2 52
  let biased : Nat := bits / Nat.pow 2 52 % Nat.pow 2 11
  let magnitude :=
    if biased = 2047 then
      if fraction = 0 then .infinite else .undefined
    -- below the smallest exponent no leading bit is added
    else if biased = 0 then .finite fraction (-1074) false
    else .finite (fraction + Nat.pow 2 52) (biased - 1075) (fraction = 0 && biased ≠ 1)
  (bits / Nat.pow 2 63 = 1, magnitude)

/-- `mantissa * 2 ^ exponent` as a quotient of natural numbers. -/
def ratio (mantissa : Nat) (exponent : Int) : Nat × Nat :=
  match exponent with
  | .ofNat n => (mantissa * Nat.pow 2 n, 1)
  | .negSucc n => (mantissa, Nat.pow 2 (n + 1))

/-- The natural number nearest to a quotient, the even one of two. -/
def roundDiv (num den : Nat) : Nat :=
  let q := num / den
  let r := num % den
  if 2 * r < den then q
  else if den < 2 * r then q + 1
  else if q % 2 = 0 then q else q + 1

/-- The bits of a double as sixteen hexadecimal digits, with one form for every
not-a-number. -/
def bitText (x : Float) : String :=
  let bits := if x.isNaN then 0x7FF8000000000000 else x.toBits.toNat
  let digits := Nat.toDigits 16 bits
  String.ofList (List.replicate (16 - digits.length) '0' ++ digits)

end Corpus.Number
