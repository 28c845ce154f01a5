/-
Corpus/Toml/Reader.lean

Reading TOML documents, including the newer freedoms: line ends and a last comma inside
inline tables, times without seconds and two more escapes.  Arrays and inline tables nest
at most eighty deep.
-/
import Corpus.Toml.Quoted
import Corpus.Toml.Scalar

namespace Corpus.Toml

/-! ### Blanks and comments -/

/-- What follows a comment: the line end or nothing. -/
def skipComment (s : List Char) : Option (List Char) :=
  let rest := s.dropWhile isPlain
  match rest with
  | [] => some []
  | _ => if (lineEnd? rest).isSome then some rest else none

/-- White space, line ends and comments are passed over. -/
def skipLines : Nat → List Char → Option (List Char)
  | 0, _ => none
  | fuel + 1, s =>
    match s.dropWhile isSpace with
    | '#' :: rest =>
      match skipComment rest with
      | some rest => skipLines fuel rest
      | none => none
    | s =>
      match lineEnd? s with
      | some rest => skipLines fuel rest
      | none => some s

/-- White space, line ends and comments are passed over; each round takes a character. -/
def skipAll (s : List Char) : Option (List Char) := skipLines (s.length + 1) s

/-- Only white space and a comment may follow on the line. -/
def finishLine (s : List Char) : Option (List Char) :=
  match s.dropWhile isSpace with
  | [] => some []
  | '#' :: rest => do
    let rest ← skipComment rest
    some ((lineEnd? rest).getD [])
  | s => lineEnd? s

/-! ### Keys -/

/-- A character of a key without quotes. -/
def isBare (c : Char) : Bool := c.isAlphanum || c = '-' || c = '_'

/-- One part of a key. -/
def keyPart? (s : List Char) : Option (String × List Char) :=
  match s with
  | '\x22' :: _ | '\x27' :: _ => lineQuoted? s
  | s =>
    let name := s.takeWhile isBare
    if name.isEmpty then none else some (String.ofList name, s.drop name.length)

/-- The parts of a dotted key. -/
def key? : Nat → List Char → Option (List String × List Char)
  | 0, _ => none
  | fuel + 1, s =>
    match keyPart? (s.dropWhile isSpace) with
    | none => none
    | some (part, rest) =>
      match rest.dropWhile isSpace with
      | '.' :: rest => (key? fuel rest).map fun (parts, rest) => (part :: parts, rest)
      | rest => some ([part], rest)

/-- A dotted key as the path of its tables and its last part. -/
def splitKey (parts : List String) : List String × String :=
  (parts.dropLast, parts.getLastD "")

/-! ### Values -/

/-- A character that may stand in a value without quotes. -/
def isScalarChar (c : Char) : Bool :=
  c.isAlphanum || c = '+' || c = '-' || c = '_' || c = '.' || c = ':'

/-- Reads a value without quotes; one blank may part a date from a time. -/
def unquoted? (s : List Char) : Option (Value × List Char) := do
  let token := s.takeWhile isScalarChar
  let rest := s.drop token.length
  let more := (rest.drop 1).takeWhile isScalarChar
  -- a date and a time with a blank between them are one value
  if isDate token && rest.head? == some ' ' && (more.head?.map Char.isDigit).getD false then
    (scalar? (token ++ ' ' :: more)).map fun v => (v, rest.drop (more.length + 1))
  else (scalar? token).map fun v => (v, rest)

mutual

/-- Reads a value with `depth` levels of nesting left. -/
def value? : Nat → Nat → List Char → Option (Value × List Char)
  | 0, _, _ => none
  | fuel + 1, depth, s =>
    match s with
    | '[' :: rest =>
      match depth with
      | 0 => none
      | depth + 1 => (items? fuel depth [] rest).map fun (l, rest) => (.array l, rest)
    | '\x7b' :: rest =>
      match depth with
      | 0 => none
      | depth + 1 => (entries? fuel depth [] rest).map fun (l, rest) => (.table l, rest)
    | '\x22' :: _ | '\x27' :: _ => (quoted? s).map fun (t, rest) => (.string t, rest)
    | s => unquoted? s

/-- Reads the items of an array onto those already read, latest first. -/
def items? : Nat → Nat → List Value → List Char → Option (List Value × List Char)
  | 0, _, _, _ => none
  | fuel + 1, depth, acc, s =>
    match skipAll s with
    | none => none
    | some (']' :: rest) => some (acc.reverse, rest)
    | some s =>
      match value? fuel depth s with
      | none => none
      | some (v, rest) =>
        match skipAll rest with
        | some (',' :: rest) => items? fuel depth (v :: acc) rest
        | some (']' :: rest) => some ((v :: acc).reverse, rest)
        | _ => none

/-- Reads the entries of an inline table onto those already read. -/
def entries? : Nat → Nat → Entries → List Char → Option (List (String × Value) × List Char)
  | 0, _, _, _ => none
  | fuel + 1, depth, acc, s =>
    match skipAll s with
    | none => none
    | some ('\x7d' :: rest) => some (valuesOf acc, rest)
    | some s =>
      match key? (s.length + 1) s with
      | some (parts, '=' :: rest) =>
        match value? fuel depth (rest.dropWhile isSpace) with
        | none => none
        | some (v, rest) =>
          match acc.addValue? (splitKey parts).1 (splitKey parts).2 v, skipAll rest with
          | some acc, some (',' :: rest) => entries? fuel depth acc rest
          | some acc, some ('\x7d' :: rest) => some (valuesOf acc, rest)
          | _, _ => none
      | _ => none

end

/-- How deep arrays and inline tables nest. -/
def maxDepth : Nat := 80

/-! ### Documents -/

/-- A document being read: its entries and the header in force. -/
structure Draft where
  entries : Entries := []
  header : List String := []

/-- Reads a header after its first bracket. -/
def Draft.header? (d : Draft) (s : List Char) : Option (Draft × List Char) :=
  match s with
  | '[' :: rest => do
    let (parts, rest) ← key? (rest.length + 1) rest
    let entries ← d.entries.openElement? (splitKey parts).1 (splitKey parts).2
    match rest with
    | ']' :: ']' :: rest => some (⟨entries, parts⟩, ← finishLine rest)
    | _ => none
  | s => do
    let (parts, rest) ← key? (s.length + 1) s
    let entries ← d.entries.openTable? (splitKey parts).1 (splitKey parts).2
    match rest with
    | ']' :: rest => some (⟨entries, parts⟩, ← finishLine rest)
    | _ => none

/-- Reads a key and its value. -/
def Draft.readPair? (d : Draft) (s : List Char) : Option (Draft × List Char) := do
  let (parts, rest) ← key? (s.length + 1) s
  match rest with
  | '=' :: rest =>
    let (v, rest) ← value? (2 * rest.length + 2) maxDepth (rest.dropWhile isSpace)
    -- a pair belongs to the table of the last header
    let entries ← d.entries.within? d.header
      (·.addValue? (splitKey parts).1 (splitKey parts).2 v)
    some ({ d with entries }, ← finishLine rest)
  | _ => none

/-- Reads lines until the text ends. -/
def Draft.readLines : Nat → Draft → List Char → Option Draft
  | 0, _, _ => none
  | fuel + 1, d, s =>
    match skipAll s with
    | none => none
    | some [] => some d
    | some ('[' :: rest) =>
      match d.header? rest with
      | some (d, rest) => d.readLines fuel rest
      | none => none
    | some s =>
      match d.readPair? s with
      | some (d, rest) => d.readLines fuel rest
      | none => none

/-- Reads a document, with or without a byte order mark; each round takes a character. -/
def read? (text : String) : Option (List (String × Value)) :=
  let s := match text.toList with
    | '\uFEFF' :: rest => rest
    | s => s
  (Draft.readLines (s.length + 1) {} s).map fun d => valuesOf d.entries

end Corpus.Toml
