/-
Corpus/Json/Value.lean

JSON values, and the values of Lean types read off them.

A string is kept as it stands between its quotes and a number as it is written: whether a
string is valid text, or a number fits a type, only matters to the reader who asks for it.
-/
import Corpus.Text.Utf8
import Corpus.Number.Decimal

namespace Corpus.Json

/-- A JSON value as written. -/
inductive Value where
  | null
  | bool (b : Bool)
  | number (literal : Bytes)
  | string (escaped : Bytes)
  | array (items : List Value)
  | object (members : List (Bytes × Value))
  deriving Inhabited, Repr

/-! ### Strings -/

/-- The value of a hexadecimal digit. -/
def hexValue? (b : UInt8) : Option Nat :=
  if 48 ≤ b && b ≤ 57 then some (b.toNat - 48)
  else if 97 ≤ b && b ≤ 102 then some (b.toNat - 87)
  else if 65 ≤ b && b ≤ 70 then some (b.toNat - 55)
  else none

/-- The value of four hexadecimal digits. -/
def unit? (a b c d : UInt8) : Option Nat := do
  let a ← hexValue? a
  let b ← hexValue? b
  let c ← hexValue? c
  let d ← hexValue? d
  some (((a * 16 + b) * 16 + c) * 16 + d)

/-- What a one-letter escape stands for. -/
def escapeByte? (b : UInt8) : Option UInt8 :=
  if b == 34 || b == 92 || b == 47 then some b
  else if b == 98 then some 8
  else if b == 102 then some 12
  else if b == 110 then some 10
  else if b == 114 then some 13
  else if b == 116 then some 9
  else none

/-- The four digits behind an escaped `u`, read as a number, and what follows. -/
def takeUnit (s : Bytes) : Option (Nat × Bytes) :=
  match s with
  | a :: b :: c :: d :: rest => (unit? a b c d).map (·, rest)
  | _ => none

/-- The character of one escaped unit or of a surrogate pair, and what follows it. -/
def takeEscapedChar (s : Bytes) : Option (Char × Bytes) :=
  match takeUnit s with
  | none => none
  | some (high, rest) =>
    if 0xDC00 ≤ high && high ≤ 0xDFFF then none
    else if 0xD800 ≤ high && high ≤ 0xDBFF then
      match rest with
      | slash :: u :: pair =>
        if slash == 92 && u == 117 then
          match takeUnit pair with
          | none => none
          | some (low, rest) =>
            if 0xDC00 ≤ low && low ≤ 0xDFFF then
              some (Char.ofNat ((high - 0xD800) * 1024 + (low - 0xDC00) + 0x10000), rest)
            else none
        else none
      | _ => none
    else some (Char.ofNat high, rest)

/-- The bytes that an escape stands for, and what follows it. -/
def takeEscape (s : Bytes) : Option (Bytes × Bytes) :=
  match s with
  | [] => none
  | b :: rest =>
    if b == 117 then (takeEscapedChar rest).map fun (c, r) => (String.utf8EncodeChar c, r)
    else (escapeByte? b).map fun c => ([c], rest)

/-- Resolves escapes onto the bytes already resolved, latest first.  A surrogate must stand
in a pair.  Every round takes a byte, so the length of the text bounds them. -/
def unescapeOnto : Nat → Bytes → Bytes → Option Bytes
  | _, acc, [] => some acc.reverse
  | 0, _, _ => none
  | fuel + 1, acc, b :: rest =>
    if b == 92 then
      match takeEscape rest with
      | some (bytes, rest) => unescapeOnto fuel (bytes.reverse ++ acc) rest
      | none => none
    else unescapeOnto fuel (b :: acc) rest

/-- The text of a string as written. -/
def textOf? (escaped : Bytes) : Option String := do
  Text.decode? (← unescapeOnto escaped.length [] escaped)

/-- A control character as an escape of four hexadecimal digits. -/
def controlEscape (b : UInt8) : Bytes :=
  [92, 117, 48, 48, 48 + b / 16, if b % 16 < 10 then 48 + b % 16 else 87 + b % 16]

/-- Writes one byte of a text inside quotes. -/
def escapeByte (b : UInt8) : Bytes :=
  if b == 34 then [92, 34]
  else if b == 92 then [92, 92]
  else if b == 8 then [92, 98]
  else if b == 9 then [92, 116]
  else if b == 10 then [92, 110]
  else if b == 12 then [92, 102]
  else if b == 13 then [92, 114]
  else if b < 32 then controlEscape b
  else [b]

/-- A text as a string value. -/
def Value.text (s : String) : Value :=
  .string ((Text.encode s).flatMap escapeByte)

/-! ### Numbers -/

/-- A natural number as a value. -/
def Value.nat (n : Nat) : Value :=
  .number (Text.encodeChars (Nat.toDigits 10 n))

/-- A 64-bit count as a value. -/
def Value.count (n : UInt64) : Value := .nat n.toNat

/-- The natural number of a literal with digits only. -/
def natOf? (literal : Bytes) : Option Nat :=
  if literal.all fun b => 48 ≤ b && b ≤ 57 then
    some (literal.foldl (fun n b => n * 10 + (b.toNat - 48)) 0)
  else none

/-! ### Reading Lean values -/

/-- The text of a value. -/
def Value.asText? : Value → Option String
  | .string escaped => textOf? escaped
  | _ => none

/-- The truth value of a value. -/
def Value.asBool? : Value → Option Bool
  | .bool b => some b
  | _ => none

/-- The natural number below `2 ^ 64` of a value. -/
def Value.asCount? : Value → Option UInt64
  | .number literal => do
    let n ← natOf? literal
    if n < UInt64.size then some (UInt64.ofNat n) else none
  | _ => none

/-- The double of a value. -/
def Value.asFloat? : Value → Option Float
  | .number literal =>
    (Number.Decimal.read? (literal.map fun b => Char.ofNat b.toNat)).map (·.toFloat)
  | _ => none

/-- The texts of an array of strings. -/
def Value.asTexts? : Value → Option (List String)
  | .array items => items.mapM asText?
  | _ => none

/-- A value that may be null. -/
def Value.orNull? {α : Type} (read : Value → Option α) : Value → Option (Option α)
  | .null => some none
  | v => (read v).map some

/-- The word of a choice: a string, or an object with that word alone and nothing in it. -/
def Value.asWord? : Value → Option String
  | .string escaped => textOf? escaped
  | .object [(word, .null)] => textOf? word
  | _ => none

/-! ### Objects with known members -/

/-- The members of an object with their names as text. -/
def Value.named? : Value → Option (List (String × Value))
  | .object members => members.mapM fun (k, v) => (textOf? k).map (·, v)
  | _ => none

/-- A known member: none if it is absent, a failure if it stands there twice. -/
def member? (members : List (String × Value)) (name : String) : Option (Option Value) :=
  match members.filter (·.1 == name) with
  | [] => some none
  | [(_, v)] => some (some v)
  | _ => none

/-- Reads a known member that must be there. -/
def required? {α : Type} (members : List (String × Value)) (name : String)
    (read : Value → Option α) : Option α := do
  read (← (← member? members name))

/-- Reads a known member that may be absent. -/
def optional? {α : Type} (members : List (String × Value)) (name : String) (default : α)
    (read : Value → Option α) : Option α := do
  match ← member? members name with
  | some v => read v
  | none => some default

/-- Reads the item of a given position of an array, if there is one. -/
def position? {α : Type} (items : List Value) (i : Nat) (default : α)
    (read : Value → Option α) : Option α :=
  match items[i]? with
  | some v => read v
  | none => some default

end Corpus.Json
