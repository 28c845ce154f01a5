/-
Corpus/Number/Fixed.lean

Numbers written with a fixed count of decimal places.  The exact value is rounded to the
last place, a half going to the even neighbour.
-/
import Corpus.Number.Binary64

namespace Corpus.Number

/-- The digits of `n` with zeros in front up to the given width. -/
def padded (width n : Nat) : List Char :=
  let digits := Nat.toDigits 10 n
  List.replicate (width - digits.length) '0' ++ digits

/-- The number of units in the last place, written with `places` decimal places. -/
def placeText (places units : Nat) : List Char :=
  let whole := Nat.toDigits 10 (units / Nat.pow 10 places)
  if places = 0 then whole else whole ++ '.' :: padded places (units % Nat.pow 10 places)

/-- A double with `places` decimal places; a not-a-number has no sign. -/
def fixed (places : Nat) (x : Float) : String :=
  let (negative, magnitude) := decompose x
  let sign := if negative then ['-'] else []
  String.ofList <| match magnitude with
    | .undefined => "NaN".toList
    | .infinite => sign ++ "inf".toList
    | .finite mantissa exponent _ =>
      let (num, den) := ratio mantissa exponent
      sign ++ placeText places (roundDiv (num * Nat.pow 10 places) den)

end Corpus.Number
