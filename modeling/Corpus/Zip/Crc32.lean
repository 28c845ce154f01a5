/-
Corpus/Zip/Crc32.lean

The checksum of archives: the remainder of the bits of a text, the lowest of each byte
first, in the division of polynomials over two elements.
-/
import Corpus.Text.Utf8

namespace Corpus.Crc32

/-- The divisor, its bits in reverse and without the leading one. -/
def divisor : UInt32 := 0xEDB88320

/-- Divides one bit. -/
def divideBit (r : UInt32) : UInt32 :=
  if r &&& 1 == 1 then (r >>> 1) ^^^ divisor else r >>> 1

/-- Divides eight bits. -/
def divideByte (r : UInt32) : UInt32 :=
  divideBit (divideBit (divideBit (divideBit
    (divideBit (divideBit (divideBit (divideBit r)))))))

/-- Takes a byte in. -/
def absorb (r : UInt32) (b : UInt8) : UInt32 := divideByte (r ^^^ b.toUInt32)

/-- The checksum of some bytes. -/
def checksum (s : Bytes) : UInt32 := (s.foldl absorb 0xFFFFFFFF) ^^^ 0xFFFFFFFF

end Corpus.Crc32
