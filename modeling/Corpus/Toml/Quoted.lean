/-
Corpus/Toml/Quoted.lean

Strings: basic ones in double quotes with escapes, literal ones in single quotes without,
each on one line or, in three quotes, on several.
-/
namespace Corpus.Toml

/-- A character that may stand in a comment or a string on one line. -/
def isPlain (c : Char) : Bool := c = '\t' || (32 ≤ c.toNat && c.toNat ≠ 127)

def isSpace (c : Char) : Bool := c = ' ' || c = '\t'

/-- What is left after a line end, if the text begins with one. -/
def lineEnd? : List Char → Option (List Char)
  | '\n' :: rest => some rest
  | '\r' :: '\n' :: rest => some rest
  | _ => none

/-- The value of a hexadecimal digit. -/
def hexDigit? (c : Char) : Option Nat :=
  if '0' ≤ c && c ≤ '9' then some (c.toNat - 48)
  else if 'a' ≤ c && c ≤ 'f' then some (c.toNat - 87)
  else if 'A' ≤ c && c ≤ 'F' then some (c.toNat - 55)
  else none

/-- The character with the code point of exactly `n` hexadecimal digits. -/
def codePoint? (n : Nat) (s : List Char) : Option (Char × List Char) := do
  let digits ← (s.take n).mapM hexDigit?
  if digits.length = n then
    let code := digits.foldl (fun a d => a * 16 + d) 0
    if code < 0xD800 || (0xDFFF < code && code < 0x110000) then
      some (Char.ofNat code, s.drop n)
    else none
  else none

/-- The character of an escape, after its backslash. -/
def escape? : List Char → Option (Char × List Char)
  | c :: rest =>
    match c with
    | 'b' => some ('\x08', rest)
    | 't' => some ('\t', rest)
    | 'n' => some ('\n', rest)
    | 'f' => some ('\x0c', rest)
    | 'r' => some ('\r', rest)
    | 'e' => some ('\x1b', rest)
    | '\x22' => some ('\x22', rest)
    | '\\' => some ('\\', rest)
    | 'x' => codePoint? 2 rest
    | 'u' => codePoint? 4 rest
    | 'U' => codePoint? 8 rest
    | _ => none
  | [] => none

/-- White space and line ends are passed over. -/
def skipBlank : List Char → List Char
  | [] => []
  | '\r' :: '\n' :: rest => skipBlank rest
  | c :: rest => if isSpace c || c = '\n' then skipBlank rest else c :: rest

/-- What follows an escaped line end and the white space around it. -/
def escapedLineEnd? (s : List Char) : Option (List Char) :=
  (lineEnd? (s.dropWhile isSpace)).map skipBlank

/-- How many of the first characters are the given quote. -/
def quoteRun (quote : Char) (s : List Char) : Nat := (s.takeWhile (· = quote)).length

/-- Reads the inside of a string on one line onto what is read, latest first. -/
def lineString (literal : Bool) : Nat → List Char → List Char → Option (String × List Char)
  | 0, _, _ => none
  | _, _, [] => none
  | fuel + 1, acc, c :: rest =>
    if c = (if literal then '\x27' else '\x22') then some (String.ofList acc.reverse, rest)
    else if c = '\\' && !literal then
      match escape? rest with
      | some (c, rest) => lineString literal fuel (c :: acc) rest
      | none => none
    else if isPlain c then lineString literal fuel (c :: acc) rest
    else none

/-- Reads the inside of a string on several lines onto what is read, latest first.  Up to two
quotes may stand before the three that close it. -/
def blockString (literal : Bool) : Nat → List Char → List Char → Option (String × List Char)
  | 0, _, _ => none
  | _, _, [] => none
  | fuel + 1, acc, c :: rest =>
    let quote := if literal then '\x27' else '\x22'
    if c = quote then
      let run := quoteRun quote (c :: rest)
      if run < 3 then blockString literal fuel (c :: acc) rest
      else if run ≤ 5 then
        some (String.ofList (acc.reverse ++ List.replicate (run - 3) quote), rest.drop (run - 1))
      else none
    else if c = '\\' && !literal then
      match escapedLineEnd? rest with
      | some rest => blockString literal fuel acc rest
      | none =>
        match escape? rest with
        | some (c, rest) => blockString literal fuel (c :: acc) rest
        | none => none
    else
      match lineEnd? (c :: rest) with
      | some after =>
        if c = '\n' then blockString literal fuel ('\n' :: acc) after
        else blockString literal fuel ('\n' :: '\r' :: acc) after
      | none => if isPlain c then blockString literal fuel (c :: acc) rest else none

/-- Reads a string on one line. -/
def lineQuoted? : List Char → Option (String × List Char)
  | '\x22' :: rest => lineString false (rest.length + 1) [] rest
  | '\x27' :: rest => lineString true (rest.length + 1) [] rest
  | _ => none

/-- Reads a string of any form.  A line end right after three quotes is not part of it. -/
def quoted? (s : List Char) : Option (String × List Char) :=
  let block (literal : Bool) (rest : List Char) :=
    let rest := (lineEnd? rest).getD rest
    blockString literal (rest.length + 1) [] rest
  match s with
  | '\x22' :: '\x22' :: '\x22' :: rest => block false rest
  | '\x27' :: '\x27' :: '\x27' :: rest => block true rest
  | s => lineQuoted? s

end Corpus.Toml
