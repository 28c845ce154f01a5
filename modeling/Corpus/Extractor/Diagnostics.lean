/-
Corpus/Extractor/Diagnostics.lean

What the extractor writes beside its output.  Only the end of it is kept, so that a
chattering extractor cannot fill the memory, and only the end of that is quoted in errors.
-/
import Corpus.Text.Blank
import Corpus.Text.Utf8

namespace Corpus.Diagnostics

/-- How many bytes are kept. -/
def tailLimit : Nat := 8192

/-- How many bytes one read gives at most. -/
def readLimit : Nat := 4096

/-- How many characters are quoted. -/
def quoteLimit : Nat := 500

/-- The last `n` elements of a list. -/
def lastOf {α : Type} (n : Nat) (s : List α) : List α := s.drop (s.length - n)

/-- Puts the bytes of one read behind those kept. -/
def absorb (tail chunk : Bytes) : Bytes := lastOf tailLimit (tail ++ chunk)

/-- What is kept after some reads. -/
def collect (chunks : List Bytes) : Bytes := chunks.foldl absorb []

/-- Reads of full size, and one for what is left. -/
def reads : Bytes → List Bytes
  | [] => []
  | b :: rest => (b :: rest.take (readLimit - 1)) :: reads (rest.drop (readLimit - 1))
termination_by s => s.length
decreasing_by
  simp only [List.length_drop, List.length_cons]
  omega

/-- The text of what is kept. -/
def text (chunks : List Bytes) : String := Text.decodeLossy (collect chunks)

/-- The end of the trimmed text. -/
def quote (text : String) : String :=
  String.ofList (lastOf quoteLimit (Text.trimChars text.toList))

end Corpus.Diagnostics
