/-
Corpus/Zip/Inflate.lean

Inflation: unpacks what was packed by repeating earlier parts of the text and by giving the
more frequent symbols the shorter codes.

A packed text is a sequence of blocks.  Codes are canonical: they are told by their lengths
alone, shorter ones first and those of one length in the order of their symbols.
-/
import Corpus.Text.Utf8

namespace Corpus.Inflate

/-- Why unpacking stopped early. -/
inductive Stop where
  /-- The packed text ends in the middle; what was unpacked before that. -/
  | truncated (unpacked : Array UInt8)
  | corrupt

/-- A packed text, how many of its bits were read, and what was unpacked. -/
structure State where
  packed : Array UInt8
  position : Nat := 0
  unpacked : Array UInt8 := #[]

namespace State

/-- Reads one bit. -/
def bit (s : State) : Except Stop (Nat × State) :=
  match s.packed[s.position / 8]? with
  | some b => .ok ((b.toNat >>> (s.position % 8)) % 2, { s with position := s.position + 1 })
  | none => .error (.truncated s.unpacked)

/-- Reads a number of so many bits, the lowest first. -/
def bits : Nat → State → Except Stop (Nat × State)
  | 0, s => .ok (0, s)
  | n + 1, s => do
    let (low, s) ← s.bit
    let (high, s) ← bits n s
    .ok (low + 2 * high, s)

/-- Goes on to the next whole byte. -/
def align (s : State) : State := { s with position := (s.position + 7) / 8 * 8 }

/-- Unpacks one byte. -/
def emit (s : State) (b : UInt8) : State := { s with unpacked := s.unpacked.push b }

/-- Repeats bytes from a distance back, one after the other. -/
def repeatBack (distance : Nat) : Nat → State → State
  | 0, s => s
  | n + 1, s =>
    -- the distance may be shorter than what is repeated, so each byte is looked up anew
    repeatBack distance n (s.emit ((s.unpacked[s.unpacked.size - distance]?).getD 0))

end State

/-! ### Codes -/

/-- A canonical code: how many code words each length from one on has, and the symbols in the
order of their code words. -/
structure Code where
  counts : List Nat
  symbols : Array Nat

/-- The longest code word. -/
def maxLength : Nat := 15

/-- How much of all words begins with a code word, in units of the longest words. -/
def coverage (lengths : List Nat) : Nat :=
  (lengths.map fun l => if l = 0 then 0 else Nat.pow 2 (maxLength - l)).foldl Nat.add 0

/-- The code with given lengths of code words, by symbol; a length of zero means none.  The
words have to cover everything unless there is at most one. -/
def Code.ofLengths? (lengths : List Nat) (mayBeLoose : Bool) : Option Code :=
  let used := lengths.countP (· != 0)
  if coverage lengths ≠ Nat.pow 2 maxLength && !(mayBeLoose && used ≤ 1) then none
  else
    let symbolsOf (l : Nat) : List Nat :=
      (lengths.zipIdx.filter (·.1 == l)).map (·.2)
    -- words of one length follow each other in the order of their symbols
    let levels := (List.range maxLength).map fun i => symbolsOf (i + 1)
    some { counts := levels.map List.length, symbols := levels.flatten.toArray }

/-- Reads a code word.  `first` is the first word of the length at hand, `index` the number of
words before it, and `word` what was read. -/
def Code.readFrom (c : Code) (word first index : Nat) : List Nat → State → Except Stop (Nat × State)
  | [], _ => .error .corrupt
  | count :: rest, s => do
    let (b, s) ← s.bit
    let word := word * 2 + b
    -- a word beyond those of this length goes on to the next length
    if word < first + count then
      match c.symbols[index + (word - first)]? with
      | some symbol => .ok (symbol, s)
      | none => .error .corrupt
    else c.readFrom word ((first + count) * 2) (index + count) rest s

/-- Reads a symbol. -/
def Code.read (c : Code) (s : State) : Except Stop (Nat × State) := c.readFrom 0 0 0 c.counts s

/-! ### Blocks -/

/-- The shortest repetition of each length symbol, with the number of bits that are added. -/
def lengthTable : List (Nat × Nat) :=
  [(3, 0), (4, 0), (5, 0), (6, 0), (7, 0), (8, 0), (9, 0), (10, 0), (11, 1), (13, 1), (15, 1),
    (17, 1), (19, 2), (23, 2), (27, 2), (31, 2), (35, 3), (43, 3), (51, 3), (59, 3), (67, 4),
    (83, 4), (99, 4), (115, 4), (131, 5), (163, 5), (195, 5), (227, 5), (258, 0)]

/-- The shortest distance of each distance symbol, with the number of bits that are added. -/
def distanceTable : List (Nat × Nat) :=
  [(1, 0), (2, 0), (3, 0), (4, 0), (5, 1), (7, 1), (9, 2), (13, 2), (17, 3), (25, 3), (33, 4),
    (49, 4), (65, 5), (97, 5), (129, 6), (193, 6), (257, 7), (385, 7), (513, 8), (769, 8),
    (1025, 9), (1537, 9), (2049, 10), (3073, 10), (4097, 11), (6145, 11), (8193, 12),
    (12289, 12), (16385, 13), (24577, 13)]

/-- Reads the number that a symbol stands for. -/
def readFrom (table : List (Nat × Nat)) (symbol : Nat) (s : State) : Except Stop (Nat × State) :=
  match table[symbol]? with
  | none => .error .corrupt
  | some (least, extra) => do
    let (more, s) ← State.bits extra s
    .ok (least + more, s)

/-- The codes of a block: for bytes, ends and lengths, and for distances. -/
structure Codes where
  main : Code
  distances : Code

/-- Unpacks one symbol; the block ends with the symbol 256. -/
def readSymbol (c : Codes) (s : State) : Except Stop (Bool × State) := do
  let (symbol, s) ← c.main.read s
  if symbol < 256 then .ok (true, s.emit (UInt8.ofNat symbol))
  else if symbol = 256 then .ok (false, s)
  else
    let (length, s) ← readFrom lengthTable (symbol - 257) s
    let (word, s) ← c.distances.read s
    let (distance, s) ← readFrom distanceTable word s
    if s.unpacked.size < distance then .error .corrupt
    else .ok (true, s.repeatBack distance length)

/-- Unpacks symbols until the block ends.  Each takes a bit at least, so that `fuel` may be the
number of bits. -/
def readSymbols (c : Codes) : Nat → State → Except Stop State
  | 0, s => .error (.truncated s.unpacked)
  | fuel + 1, s =>
    match readSymbol c s with
    | .ok (true, s) => readSymbols c fuel s
    | .ok (false, s) => .ok s
    | .error e => .error e

/-- Copies a block that is not packed. -/
def readStored (s : State) : Except Stop State := do
  let (length, s) ← State.bits 16 s.align
  let (complement, s) ← State.bits 16 s
  -- the length is given twice, the second time with all its bits turned
  if length + complement ≠ 0xFFFF then .error .corrupt
  else
    let start := s.position / 8
    let part := s.packed.extract start (start + length)
    let s := { s with position := s.position + 8 * part.size, unpacked := s.unpacked ++ part }
    if part.size < length then .error (.truncated s.unpacked) else .ok s

/-- The lengths of the code words of bytes, ends and lengths in blocks with the usual codes. -/
def usualLengths : List Nat :=
  List.replicate 144 8 ++ List.replicate 112 9 ++ List.replicate 24 7 ++ List.replicate 8 8

/-- The usual codes. -/
def usualCodes : Option Codes := do
  let main ← Code.ofLengths? usualLengths true
  let distances ← Code.ofLengths? (List.replicate 32 5) true
  some { main, distances }

/-- The order in which the lengths of the code words for lengths are given. -/
def lengthOrder : List Nat := [16, 17, 18, 0, 8, 7, 9, 6, 10, 5, 11, 4, 12, 3, 13, 2, 14, 1, 15]

/-- Reads so many numbers of three bits. -/
def readTriples : Nat → State → Except Stop (List Nat × State)
  | 0, s => .ok ([], s)
  | n + 1, s => do
    let (l, s) ← State.bits 3 s
    let (rest, s) ← readTriples n s
    .ok (l :: rest, s)

/-- Reads lengths of code words onto those read, latest first, until there are `total`. -/
def readLengths (c : Code) (total : Nat) : Nat → List Nat → State →
    Except Stop (List Nat × State)
  | 0, _, _ => .error .corrupt
  | fuel + 1, acc, s =>
    if acc.length = total then .ok (acc.reverse, s)
    else if total < acc.length then .error .corrupt
    else do
      let (symbol, s) ← c.read s
      if symbol < 16 then readLengths c total fuel (symbol :: acc) s
      else if symbol = 16 then
        match acc with
        | [] => .error .corrupt
        -- the length before is repeated three to six times
        | last :: _ =>
          let (n, s) ← State.bits 2 s
          readLengths c total fuel (List.replicate (n + 3) last ++ acc) s
      else
        let (n, s) ← State.bits (if symbol = 17 then 3 else 7) s
        -- a short or a long run of symbols without a code word
        let zeros := if symbol = 17 then n + 3 else n + 11
        readLengths c total fuel (List.replicate zeros 0 ++ acc) s

/-- Reads the codes of a block. -/
def readCodes (s : State) : Except Stop (Codes × State) := do
  let (mainCount, s) ← State.bits 5 s
  let (distanceCount, s) ← State.bits 5 s
  let (triples, s) ← State.bits 4 s
  let mainCount := mainCount + 257
  let distanceCount := distanceCount + 1
  if 286 < mainCount || 30 < distanceCount then .error .corrupt
  else
    let (given, s) ← readTriples (triples + 4) s
    let lengthOf := lengthOrder.zip given
    match Code.ofLengths? ((List.range 19).map fun i => (lengthOf.lookup i).getD 0) false with
    | none => .error .corrupt
    | some c =>
      let total := mainCount + distanceCount
      -- one sequence of lengths serves both codes, so a run may go from one into the other
      let (lengths, s) ← readLengths c total (total + 1) [] s
      match Code.ofLengths? (lengths.take mainCount) true,
        Code.ofLengths? (lengths.drop mainCount) true with
      | some main, some distances => .ok ({ main, distances }, s)
      | _, _ => .error .corrupt

/-- Unpacks one block, and tells whether it is the last. -/
def readBlock (s : State) : Except Stop (Bool × State) := do
  let (last, s) ← s.bit
  let (kind, s) ← State.bits 2 s
  let bitCount := 8 * s.packed.size
  let s ← match kind with
    | 0 => readStored s
    | 1 =>
      match usualCodes with
      | some codes => readSymbols codes (bitCount + 1) s
      | none => .error .corrupt
    | 2 => do
      let (codes, s) ← readCodes s
      readSymbols codes (bitCount + 1) s
    | _ => .error .corrupt
  .ok (last == 1, s)

/-- Unpacks blocks up to the last one.  Each takes three bits at least. -/
def readBlocks : Nat → State → Except Stop State
  | 0, s => .error (.truncated s.unpacked)
  | fuel + 1, s =>
    match readBlock s with
    | .ok (true, s) => .ok s
    | .ok (false, s) => readBlocks fuel s
    | .error e => .error e

/-- Unpacks a text.  Of one that ends in the middle as much as can be had is kept; a corrupt
one gives nothing. -/
def inflate? (packed : Array UInt8) : Option Bytes :=
  match readBlocks (8 * packed.size + 1) { packed } with
  | .ok s => some s.unpacked.toList
  | .error (.truncated unpacked) => some unpacked.toList
  | .error .corrupt => none

end Corpus.Inflate
