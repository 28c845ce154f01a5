/-
Corpus/Time/Span.lean

Lengths of time in whole nanoseconds, and their text: the largest unit of seconds,
milliseconds, microseconds and nanoseconds that fits, with a fraction where one is left.
-/
namespace Corpus

/-- A length of time in nanoseconds. -/
structure Span where
  nanos : Nat
  deriving DecidableEq, Repr, Inhabited

namespace Span

/-- No time at all. -/
def zero : Span := ⟨0⟩

def ofSeconds (n : Nat) : Span := ⟨n * 1000000000⟩

def ofMillis (n : Nat) : Span := ⟨n * 1000000⟩

def ofMicros (n : Nat) : Span := ⟨n * 1000⟩

/-- The whole milliseconds. -/
def millis (s : Span) : Nat := s.nanos / 1000000

/-- The longer of two spans. -/
def longer (s t : Span) : Span := if s.nanos ≤ t.nanos then t else s

/-- A fraction of `places` decimal places without the zeros at its end. -/
def fractionText (places rest : Nat) : List Char :=
  let digits := Nat.toDigits 10 rest
  let padded := List.replicate (places - digits.length) '0' ++ digits
  let kept := (padded.reverse.dropWhile (· == '0')).reverse
  if kept.isEmpty then [] else '.' :: kept

/-- `n` in a unit of `10 ^ places` nanoseconds. -/
def unitText (n places : Nat) (unit : String) : String :=
  String.ofList
    (Nat.toDigits 10 (n / Nat.pow 10 places) ++ fractionText places (n % Nat.pow 10 places) ++
      unit.toList)

/-- The text of a span, such as `0ns`, `1.5ms` or `60s`. -/
def text (s : Span) : String :=
  if 1000000000 ≤ s.nanos then unitText s.nanos 9 "s"
  else if 1000000 ≤ s.nanos then unitText s.nanos 6 "ms"
  else if 1000 ≤ s.nanos then unitText s.nanos 3 "µs"
  else unitText s.nanos 0 "ns"

@[simp] theorem nanos_zero : zero.nanos = 0 := rfl

theorem nanos_longer (s t : Span) : (s.longer t).nanos = max s.nanos t.nanos := by
  unfold longer
  split <;> omega

end Span

end Corpus
