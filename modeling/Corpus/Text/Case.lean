/-
Corpus/Text/Case.lean

Full lowercasing of a text, as the Unicode standard defines it without a language.

Every character maps by itself except in two places.  Capital I with a dot above becomes
two characters, and capital sigma becomes the final form iff it ends a word: some cased
letter stands before it and none after it, where characters that case ignores
are looked through on both sides.
-/
import Corpus.Text.CaseTable

namespace Corpus.Text

/-- Membership of a code point in a list of closed ranges. -/
def inRanges (table : List (Nat × Nat)) (n : Nat) : Bool :=
  table.any fun r => r.1 ≤ n && n ≤ r.2

/-- The property `Cased`. -/
def isCased (c : Char) : Bool := inRanges casedRanges c.toNat

/-- The property `Case_Ignorable`. -/
def isCaseIgnorable (c : Char) : Bool := inRanges caseIgnorableRanges c.toNat

/-- The code point `n` lies on the run. -/
def CaseRun.covers (r : CaseRun) (n : Nat) : Bool :=
  r.first ≤ n && n ≤ r.last && (n - r.first) % r.step == 0

/-- The simple lowercase mapping of one character. -/
def lowerSimple (c : Char) : Char :=
  match lowercaseRuns.find? (·.covers c.toNat) with
  | some r => Char.ofNat (Int.toNat (c.toNat + r.shift))
  | none => c

/-- The first character that case does not ignore is cased. -/
def meetsCased (s : List Char) : Bool :=
  match s.dropWhile isCaseIgnorable with
  | c :: _ => isCased c
  | [] => false

/-- Lowercases one character between the characters before it, nearest first, and those
after it. -/
def lowerAt (before : List Char) (c : Char) (after : List Char) : List Char :=
  if c = 'İ' then ['i', '\u0307']
  else if c = 'Σ' then
    -- a sigma at the end of a word
    if meetsCased before && !meetsCased after then ['ς'] else ['σ']
  else [lowerSimple c]

/-- Lowercases the rest of a text onto what is written, latest first, given the characters
read before it, latest first. -/
def lowerOnto (written before : List Char) : List Char → List Char
  | [] => written.reverse
  | c :: rest => lowerOnto ((lowerAt before c rest).reverse ++ written) (c :: before) rest

/-- The text in lower case. -/
def toLower (s : String) : String :=
  String.ofList (lowerOnto [] [] s.toList)

end Corpus.Text
