/-
Corpus/Json/Reader.lean

Reading JSON.  The reader keeps the open arrays and objects on a stack of its own, so
nesting of any depth is read, and every round takes at least one byte.

Between its quotes a string may hold any byte but a control character or an unescaped
quote; escapes must be well formed.  A number has no leading zero, no leading plus and
digits on both sides of a point.
-/
import Corpus.Json.Value

namespace Corpus.Json

/-- White space between tokens. -/
def isSpace (b : UInt8) : Bool := b == 32 || b == 9 || b == 10 || b == 13

def isDigit (b : UInt8) : Bool := 48 ≤ b && b ≤ 57

/-! ### Tokens -/

/-- Takes the inside of a string onto the bytes already taken, latest first.  `hex` is the
number of hexadecimal digits that an escape still needs and `escaped` says that a
backslash stands just before. -/
def takeString (acc : Bytes) (hex : Nat) (escaped : Bool) : Bytes → Option (Bytes × Bytes)
  | [] => none
  | b :: rest =>
    match hex, escaped with
    | hex + 1, _ =>
      if (hexValue? b).isSome then takeString (b :: acc) hex false rest else none
    | 0, true =>
      -- an escaped `u` is followed by four digits
      if b == 117 then takeString (b :: acc) 4 false rest
      else if (escapeByte? b).isSome then takeString (b :: acc) 0 false rest
      else none
    | 0, false =>
      -- the quote ends the string, a control character breaks it
      if b == 34 then some (acc.reverse, rest)
      else if b < 32 then none
      else takeString (b :: acc) 0 (b == 92) rest

/-- At least one digit. -/
def takeDigits (s : Bytes) : Option (Bytes × Bytes) :=
  let digits := s.takeWhile isDigit
  if digits.isEmpty then none else some (digits, s.dropWhile isDigit)

/-- The digits before the point: a zero alone, or digits that do not begin with one. -/
def takeWhole (s : Bytes) : Option (Bytes × Bytes) :=
  match takeDigits s with
  | some (d :: digits, rest) =>
    -- a zero in front of other digits
    if d == 48 && !digits.isEmpty then none else some (d :: digits, rest)
  | _ => none

/-- A point and the digits behind it, if there is one. -/
def takeFraction (s : Bytes) : Option (Bytes × Bytes) :=
  match s with
  | b :: rest => if b == 46 then (takeDigits rest).map fun (d, r) => (b :: d, r) else some ([], s)
  | [] => some ([], [])

/-- A sign, if there is one. -/
def takeSign (s : Bytes) : Bytes × Bytes :=
  match s with
  | b :: rest => if b == 43 || b == 45 then ([b], rest) else ([], s)
  | [] => ([], [])

/-- A power of ten, if there is one. -/
def takePower (s : Bytes) : Option (Bytes × Bytes) :=
  match s with
  | b :: rest =>
    if b == 101 || b == 69 then
      let (sign, rest) := takeSign rest
      (takeDigits rest).map fun (d, r) => (b :: (sign ++ d), r)
    else some ([], s)
  | [] => some ([], [])

/-- A number without its sign. -/
def takeUnsigned (s : Bytes) : Option (Bytes × Bytes) := do
  let (whole, s) ← takeWhole s
  let (places, s) ← takeFraction s
  let (power, s) ← takePower s
  some (whole ++ places ++ power, s)

/-- The parts of a JSON text. -/
inductive Token where
  | openArray
  | closeArray
  | openObject
  | closeObject
  | comma
  | colon
  | scalar (v : Value)

/-- Takes a given word. -/
def takeWord (word : String) (v : Value) (s : Bytes) : Option (Token × Bytes) :=
  let w := Text.encode word
  if w.isPrefixOf s then some (.scalar v, s.drop w.length) else none

/-- The first token. -/
def takeToken (s : Bytes) : Option (Token × Bytes) :=
  match s with
  | [] => none
  | b :: rest =>
    if b == 91 then some (.openArray, rest)
    else if b == 93 then some (.closeArray, rest)
    else if b == 123 then some (.openObject, rest)
    else if b == 125 then some (.closeObject, rest)
    else if b == 44 then some (.comma, rest)
    else if b == 58 then some (.colon, rest)
    else if b == 34 then
      (takeString [] 0 false rest).map fun (t, r) => (.scalar (.string t), r)
    else if b == 45 then
      (takeUnsigned rest).map fun (n, r) => (.scalar (.number (b :: n)), r)
    else if b == 110 then takeWord "null" .null s
    else if b == 116 then takeWord "true" (.bool true) s
    else if b == 102 then takeWord "false" (.bool false) s
    else (takeUnsigned s).map fun (n, r) => (.scalar (.number n), r)

/-! ### Nesting -/

/-- An array or object that is still open, its parts latest first. -/
inductive Frame where
  | items (done : List Value)
  | members (done : List (Bytes × Value))
  | member (done : List (Bytes × Value)) (key : Bytes)

/-- What must come next. -/
inductive Phase where
  /-- A value, or the end of an array that is still empty. -/
  | value (orEnd : Bool)
  /-- A key, or the end of an object that is still empty. -/
  | key (orEnd : Bool)
  /-- The colon behind a key. -/
  | colon
  /-- Whatever may follow a finished value. -/
  | after (v : Value)

/-- Where the reader stands: the phase and the open frames, innermost first. -/
structure Position where
  phase : Phase
  frames : List Frame

/-- Takes the next token; none where no JSON text goes on. -/
def Position.advance? (p : Position) (t : Token) : Option Position :=
  match p.phase, p.frames, t with
  | .value _, frames, .openArray => some ⟨.value true, .items [] :: frames⟩
  | .value _, frames, .openObject => some ⟨.key true, .members [] :: frames⟩
  | .value _, frames, .scalar v => some ⟨.after v, frames⟩
  | .value true, .items done :: frames, .closeArray =>
    some ⟨.after (.array done.reverse), frames⟩
  | .key true, .members done :: frames, .closeObject =>
    some ⟨.after (.object done.reverse), frames⟩
  | .key _, .members done :: frames, .scalar (.string key) =>
    some ⟨.colon, .member done key :: frames⟩
  | .colon, frames, .colon => some ⟨.value false, frames⟩
  | .after v, .items done :: frames, .comma =>
    some ⟨.value false, .items (v :: done) :: frames⟩
  | .after v, .items done :: frames, .closeArray =>
    some ⟨.after (.array (v :: done).reverse), frames⟩
  | .after v, .member done key :: frames, .comma =>
    some ⟨.key false, .members ((key, v) :: done) :: frames⟩
  | .after v, .member done key :: frames, .closeObject =>
    some ⟨.after (.object ((key, v) :: done).reverse), frames⟩
  | _, _, _ => none

/-- Takes tokens until the outermost value is finished and only white space is left. -/
def readFrom : Nat → Position → Bytes → Option Value
  | 0, _, _ => none
  | fuel + 1, p, s =>
    match p, s.dropWhile isSpace with
    | ⟨.after v, []⟩, [] => some v
    | ⟨.after _, []⟩, _ => none
    | p, s =>
      match takeToken s with
      | none => none
      | some (t, rest) =>
        match p.advance? t with
        | some p => readFrom fuel p rest
        | none => none

/-- Reads one JSON value with white space around it; every round takes a byte, so the
length of the text bounds them. -/
def read? (s : Bytes) : Option Value :=
  readFrom (s.length + 2) ⟨.value false, []⟩ s

end Corpus.Json
