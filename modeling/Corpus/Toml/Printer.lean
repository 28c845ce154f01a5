/-
Corpus/Toml/Printer.lean

Writing TOML for people.  A text is quoted in the plainest way that can hold it: double
quotes if nothing needs an escape, else single quotes, else the forms over several lines,
and escapes only where no other form will do.
-/
import Corpus.Number.Shortest
import Corpus.Toml.Value

namespace Corpus.Toml

/-- The ways to quote a text. -/
inductive Quotes where
  | basic
  | literal
  | basicBlock
  | literalBlock
  deriving DecidableEq, Repr

namespace Quotes

def isBlock : Quotes → Bool
  | .basic | .literal => false
  | .basicBlock | .literalBlock => true

def isLiteral : Quotes → Bool
  | .basic | .basicBlock => false
  | .literal | .literalBlock => true

/-- What stands at both ends. -/
def delimiter : Quotes → List Char
  | .basic => ['\x22']
  | .literal => ['\x27']
  | .basicBlock => ['\x22', '\x22', '\x22']
  | .literalBlock => ['\x27', '\x27', '\x27']

end Quotes

/-- The longest run of a character. -/
def longestRun (c : Char) (s : List Char) : Nat :=
  (s.foldl (fun (run, best) d => if d = c then (run + 1, max best (run + 1)) else (0, best))
    (0, 0)).2

/-- A control character that only an escape can stand for. -/
def needsEscape (c : Char) : Bool :=
  (c.toNat < 32 && c != '\t' && c != '\n') || c.toNat = 127

/-- How a text is quoted. -/
def quotesFor (s : List Char) : Quotes :=
  let coded := s.any needsEscape
  let slash := s.contains '\\'
  let lines := s.contains '\n'
  let doubles := longestRun '\x22' s
  let singles := longestRun '\x27' s
  if !coded && !slash && doubles = 0 && !lines then .basic
  else if !coded && singles = 0 && !lines then .literal
  else if !coded && !slash && doubles ≤ 2 then .basicBlock
  else if !coded && singles ≤ 2 then .literalBlock
  else if lines then .basicBlock
  else .basic

/-- A code point as an escape of four hexadecimal digits. -/
def codeEscape (c : Char) : List Char :=
  let digits := (Nat.toDigits 16 c.toNat).map Char.toUpper
  '\\' :: 'u' :: List.replicate (4 - digits.length) '0' ++ digits

/-- A character between double quotes, if it is not written as it stands. -/
def escapeFor? (block : Bool) (c : Char) : Option (List Char) :=
  if c = '\x08' then some ['\\', 'b']
  else if c = '\t' then some ['\\', 't']
  else if c = '\n' then if block then none else some ['\\', 'n']
  else if c = '\x0c' then some ['\\', 'f']
  else if c = '\r' then some ['\\', 'r']
  else if c = '\\' then some ['\\', '\\']
  else if c.toNat < 32 || c.toNat = 127 then some (codeEscape c)
  else none

/-- Writes a text between double quotes.  In a block a run of up to two quotes stands as it
is; `run` counts those written last. -/
def writeBasic (block : Bool) (run : Nat) : List Char → List Char
  | [] => []
  | c :: rest =>
    if c = '\x22' then
      if block && run < 2 then c :: writeBasic block (run + 1) rest
      else '\\' :: c :: writeBasic block 0 rest
    else
      match escapeFor? block c with
      | some e => e ++ writeBasic block 0 rest
      | none => c :: writeBasic block 0 rest

/-- A text in quotes.  A block that holds a line end begins on a line of its own. -/
def writeText (s : String) : List Char :=
  let cs := s.toList
  let quotes := quotesFor cs
  let lead := if quotes.isBlock && cs.contains '\n' then ['\n'] else []
  let inner := if quotes.isLiteral then cs else writeBasic quotes.isBlock 0 cs
  quotes.delimiter ++ lead ++ inner ++ quotes.delimiter

/-- What stands for a value on one line.  Dates are kept without their text and are written as
nothing; tables have lines of their own. -/
def writeScalar : Value → List Char
  | .string s => writeText s
  | .integer n => (toString n).toList
  | .float x => (Number.positionalText x).toList
  | .boolean b => (if b then "true" else "false").toList
  | .moment | .array _ | .table _ => []

/-- An array of scalars: more than one of them stand on lines of their own. -/
def writeArray : List Value → List Char
  | [] => ['[', ']']
  | [v] => '[' :: writeScalar v ++ [']']
  | items =>
    '[' :: '\n' ::
      items.flatMap (fun v => "    ".toList ++ writeScalar v ++ [',', '\n']) ++ [']']

/-- A scalar or an array of scalars. -/
def writeValue : Value → List Char
  | .array items => writeArray items
  | v => writeScalar v

/-- A field on its line. -/
def writeField (name : String) (v : Value) : List Char :=
  name.toList ++ " = ".toList ++ writeValue v ++ ['\n']

/-- A section with its fields. -/
def writeSection (title : String) (fields : List (String × Value)) : List Char :=
  '[' :: title.toList ++ [']', '\n'] ++ fields.flatMap fun (name, v) => writeField name v

/-- Sections with a blank line between two of them. -/
def writeSections (sections : List (String × List (String × Value))) : String :=
  String.ofList
    (List.intercalate ['\n'] (sections.map fun (title, fields) => writeSection title fields))

end Corpus.Toml
