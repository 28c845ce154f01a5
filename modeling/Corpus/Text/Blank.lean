/-
Corpus/Text/Blank.lean

Blank characters and trimming.  A character is blank iff it has the Unicode property
`White_Space`; a text is trimmed by dropping the blanks at both ends.

The work is done on lists of characters, where the laws are short; the functions on
`String` only wrap it.
-/
namespace Corpus.Text

/-- The Unicode property `White_Space`. -/
def isBlank (c : Char) : Bool :=
  let n := c.toNat
  (9 ≤ n && n ≤ 13) || n == 0x20 || n == 0x85 || n == 0xA0 || n == 0x1680 ||
    (0x2000 ≤ n && n ≤ 0x200A) || n == 0x2028 || n == 0x2029 || n == 0x202F ||
    n == 0x205F || n == 0x3000

/-- Drops the characters satisfying `p` at the end of a list. -/
def dropEndWhile {α : Type} (p : α → Bool) (s : List α) : List α :=
  (s.reverse.dropWhile p).reverse

/-- Drops the blanks at both ends. -/
def trimChars (s : List Char) : List Char :=
  dropEndWhile isBlank (s.dropWhile isBlank)

/-- The text without the blanks at its two ends. -/
def trim (s : String) : String :=
  String.ofList (trimChars s.toList)

/-- A text is blank iff it holds no character but blanks. -/
def isBlankText (s : String) : Bool :=
  s.toList.all isBlank

@[simp] theorem toList_trim (s : String) : (trim s).toList = trimChars s.toList := by
  simp [trim]

end Corpus.Text
