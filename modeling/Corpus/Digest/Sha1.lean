/-
Corpus/Digest/Sha1.lean

The secure hash SHA-1.  The message is closed by a one bit, zeros and its length in bits,
cut into blocks of sixteen words, and folded block by block into a state of five words.
-/
import Corpus.Text.Utf8

namespace Corpus.Sha1

/-- The five chaining words. -/
structure State where
  a : UInt32
  b : UInt32
  c : UInt32
  d : UInt32
  e : UInt32

/-- The initial chaining words. -/
def State.start : State :=
  ⟨0x67452301, 0xEFCDAB89, 0x98BADCFE, 0x10325476, 0xC3D2E1F0⟩

def rotateLeft (x : UInt32) (n : UInt32) : UInt32 :=
  (x <<< n) ||| (x >>> (32 - n))

/-- The `count` low bytes of a number, most significant first. -/
def bytesOfNat (count n : Nat) : Bytes :=
  (List.range count).reverse.map fun i => UInt8.ofNat (n / Nat.pow 256 i)

/-- The message with its closing bits: a multiple of 64 bytes. -/
def pad (message : Bytes) : Bytes :=
  let n := message.length
  -- one bit, then zeros until eight bytes are left for the length in bits
  message ++ 0x80 :: (List.replicate ((119 - n % 64) % 64) 0 ++ bytesOfNat 8 (8 * n % UInt64.size))

/-- Four bytes as one word, most significant first. -/
def word (b0 b1 b2 b3 : UInt8) : UInt32 :=
  (b0.toUInt32 <<< 24) ||| (b1.toUInt32 <<< 16) ||| (b2.toUInt32 <<< 8) ||| b3.toUInt32

/-- The words of a block, latest first. -/
def wordsOnto (acc : List UInt32) : Bytes → List UInt32
  | b0 :: b1 :: b2 :: b3 :: rest => wordsOnto (word b0 b1 b2 b3 :: acc) rest
  | _ => acc

/-- Adds `n` words to a schedule kept latest first. -/
def extend : Nat → List UInt32 → List UInt32
  | 0, w => w
  | n + 1, w =>
    extend n
      -- the words 3, 8, 14 and 16 places back
      (rotateLeft (w.getD 2 0 ^^^ w.getD 7 0 ^^^ w.getD 13 0 ^^^ w.getD 15 0) 1 :: w)

/-- The round function and the round constant. -/
def mix (round : Nat) (b c d : UInt32) : UInt32 × UInt32 :=
  if round < 20 then ((b &&& c) ||| (~~~b &&& d), 0x5A827999)
  else if round < 40 then (b ^^^ c ^^^ d, 0x6ED9EBA1)
  else if round < 60 then ((b &&& c) ||| (b &&& d) ||| (c &&& d), 0x8F1BBCDC)
  else (b ^^^ c ^^^ d, 0xCA62C1D6)

/-- One round with a scheduled word. -/
def step (s : State) (round : Nat) (w : UInt32) : State :=
  let (f, k) := mix round s.b s.c s.d
  ⟨rotateLeft s.a 5 + f + s.e + k + w, s.a, rotateLeft s.b 30, s.c, s.d⟩

/-- The eighty rounds on one block. -/
def compress (s : State) (block : Bytes) : State :=
  let schedule := (extend 64 (wordsOnto [] block)).reverse
  let t := schedule.zipIdx.foldl (fun t (w, round) => step t round w) s
  ⟨s.a + t.a, s.b + t.b, s.c + t.c, s.d + t.d, s.e + t.e⟩

/-- Folds `n` blocks into the state. -/
def absorb : Nat → State → Bytes → State
  | 0, s, _ => s
  | n + 1, s, message => absorb n (compress s (message.take 64)) (message.drop 64)

/-- The twenty bytes of the digest. -/
def digest (message : Bytes) : Bytes :=
  let padded := pad message
  let s := absorb (padded.length / 64) State.start padded
  [s.a, s.b, s.c, s.d, s.e].flatMap fun x => bytesOfNat 4 x.toNat

end Corpus.Sha1
