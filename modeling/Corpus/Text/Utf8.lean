/-
Corpus/Text/Utf8.lean

Text as bytes.  Encoding writes each character in one to four bytes; decoding takes the
bytes one character at a time.  Where no character can be read, the broken part is the
longest run of bytes that could still have begun one (at least one byte), so that strict
decoding fails and lossy decoding puts one replacement character per broken part.
-/
namespace Corpus

/-- Bytes as they stand in a file, on a pipe or in a file name. -/
abbrev Bytes := List UInt8

namespace Text

/-- The bytes of a text. -/
def encodeChars (s : List Char) : Bytes :=
  s.flatMap String.utf8EncodeChar

/-- The bytes of a text. -/
def encode (s : String) : Bytes :=
  encodeChars s.toList

/-- A byte that continues a character, within the given bounds. -/
def continues (low high : UInt8) (b : UInt8) : Bool :=
  low ≤ b && b ≤ high

/-- The six payload bits of a continuation byte. -/
def payload (b : UInt8) : Nat := b.toNat % 64

/-- How many bytes follow a first byte, and the bounds of the second byte. -/
def tailOf (b : UInt8) : Option (Nat × UInt8 × UInt8) :=
  if 0xC2 ≤ b && b ≤ 0xDF then some (1, 0x80, 0xBF)
  -- these bounds keep out longer forms of shorter characters and surrogates
  else if b == 0xE0 then some (2, 0xA0, 0xBF)
  else if b == 0xED then some (2, 0x80, 0x9F)
  else if 0xE1 ≤ b && b ≤ 0xEF then some (2, 0x80, 0xBF)
  else if b == 0xF0 then some (3, 0x90, 0xBF)
  else if b == 0xF4 then some (3, 0x80, 0x8F)
  else if 0xF1 ≤ b && b ≤ 0xF3 then some (3, 0x80, 0xBF)
  else none

/-- Reads `n` continuation bytes onto the value read so far; the rest is what follows the
last byte that fitted. -/
def readTail : Nat → UInt8 → UInt8 → Nat → Bytes → Option Nat × Bytes
  | 0, _, _, value, rest => (some value, rest)
  | _ + 1, _, _, _, [] => (none, [])
  | n + 1, low, high, value, b :: rest =>
    if continues low high b then readTail n 0x80 0xBF (value * 64 + payload b) rest
    else (none, b :: rest)

/-- The first character of the bytes, or none where they are broken, with what follows. -/
def decodeNext (b : UInt8) (rest : Bytes) : Option Char × Bytes :=
  if b < 0x80 then (some (Char.ofNat b.toNat), rest)
  else
    match tailOf b with
    | none => (none, rest)
    | some (n, low, high) =>
      -- the more bytes follow, the fewer bits of the first one are its own
      let read := readTail n low high (b.toNat % Nat.pow 2 (6 - n)) rest
      (read.1.map Char.ofNat, read.2)

theorem length_readTail_le (n : Nat) (low high : UInt8) (value : Nat) (s : Bytes) :
    (readTail n low high value s).2.length ≤ s.length := by
  induction n generalizing low high value s with
  | zero => simp [readTail]
  | succ n ih =>
    cases s with
    | nil => simp [readTail]
    | cons b rest =>
      rw [readTail]
      split
      · exact Nat.le_succ_of_le (ih _ _ _ _)
      · exact Nat.le_refl _

theorem length_decodeNext_le (b : UInt8) (rest : Bytes) :
    (decodeNext b rest).2.length ≤ rest.length := by
  unfold decodeNext
  split
  · exact Nat.le_refl _
  · split
    · exact Nat.le_refl _
    · exact length_readTail_le _ _ _ _ _

/-- Puts the characters of the bytes onto those already read, latest first. -/
def decodeOnto (acc : List (Option Char)) : Bytes → List (Option Char)
  | [] => acc
  | b :: rest => decodeOnto ((decodeNext b rest).1 :: acc) (decodeNext b rest).2
termination_by s => s.length
decreasing_by
  simpa using Nat.lt_succ_of_le (length_decodeNext_le b rest)

/-- The characters of the bytes in order, with none for each broken part. -/
def decodeParts (s : Bytes) : List (Option Char) :=
  (decodeOnto [] s).reverse

theorem decodeOnto_append (acc tail : List (Option Char)) (s : Bytes) :
    decodeOnto (acc ++ tail) s = decodeOnto acc s ++ tail := by
  fun_induction decodeOnto acc s with
  | case1 => rw [decodeOnto]
  | case2 acc b rest ih => rw [decodeOnto, ← ih]; rfl

@[simp] theorem decodeParts_nil : decodeParts [] = [] := by
  simp [decodeParts, decodeOnto]

theorem decodeParts_cons (b : UInt8) (rest : Bytes) :
    decodeParts (b :: rest) = (decodeNext b rest).1 :: decodeParts (decodeNext b rest).2 := by
  rw [decodeParts, decodeOnto, ← List.nil_append [_], decodeOnto_append]
  simp [decodeParts]

/-- The text of the bytes, if none of them is broken. -/
def decode? (s : Bytes) : Option String :=
  (decodeParts s).mapM id |>.map String.ofList

/-- The text of the bytes with U+FFFD for each broken part. -/
def decodeLossy (s : Bytes) : String :=
  String.ofList ((decodeParts s).map (·.getD '\uFFFD'))

end Text

end Corpus
