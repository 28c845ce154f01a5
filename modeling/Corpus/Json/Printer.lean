/-
Corpus/Json/Printer.lean

Writing JSON, on one line or with every part on a line of its own.
-/
import Corpus.Json.Value

namespace Corpus.Json

mutual

/-- Writes a value before the bytes that follow. -/
def write : Value → Bytes → Bytes
  | .null, k => 110 :: 117 :: 108 :: 108 :: k
  | .bool true, k => 116 :: 114 :: 117 :: 101 :: k
  | .bool false, k => 102 :: 97 :: 108 :: 115 :: 101 :: k
  | .number literal, k => literal ++ k
  | .string escaped, k => 34 :: (escaped ++ 34 :: k)
  | .array items, k => 91 :: writeItems true items (93 :: k)
  | .object members, k => 123 :: writeMembers true members (125 :: k)

/-- Writes items with commas between them. -/
def writeItems (first : Bool) : List Value → Bytes → Bytes
  | [], k => k
  | v :: rest, k =>
    let body := write v (writeItems false rest k)
    if first then body else 44 :: body

/-- Writes members with commas between them. -/
def writeMembers (first : Bool) : List (Bytes × Value) → Bytes → Bytes
  | [], k => k
  | (key, v) :: rest, k =>
    let body := 34 :: (key ++ 34 :: 58 :: write v (writeMembers false rest k))
    if first then body else 44 :: body

end

/-- A new line with two spaces per level. -/
def newLine (level : Nat) (k : Bytes) : Bytes :=
  10 :: (List.replicate (2 * level) 32 ++ k)

mutual

/-- Writes a value with its parts on lines of their own. -/
def layOut (level : Nat) : Value → Bytes → Bytes
  | .array [], k => 91 :: 93 :: k
  | .object [], k => 123 :: 125 :: k
  | .array (v :: rest), k =>
    91 :: newLine (level + 1)
      (layOut (level + 1) v (layOutItems (level + 1) rest (newLine level (93 :: k))))
  | .object ((key, v) :: rest), k =>
    123 :: newLine (level + 1) (34 :: (key ++ 34 :: 58 :: 32 ::
      layOut (level + 1) v (layOutMembers (level + 1) rest (newLine level (125 :: k)))))
  | .null, k => write .null k
  | .bool b, k => write (.bool b) k
  | .number literal, k => literal ++ k
  | .string escaped, k => 34 :: (escaped ++ 34 :: k)

/-- Writes further items. -/
def layOutItems (level : Nat) : List Value → Bytes → Bytes
  | [], k => k
  | v :: rest, k => 44 :: newLine level (layOut level v (layOutItems level rest k))

/-- Writes further members. -/
def layOutMembers (level : Nat) : List (Bytes × Value) → Bytes → Bytes
  | [], k => k
  | (key, v) :: rest, k =>
    44 :: newLine level (34 :: (key ++ 34 :: 58 :: 32 ::
      layOut level v (layOutMembers level rest k)))

end

/-- A value on one line. -/
def Value.render (v : Value) : Bytes := write v []

/-- A value on several lines. -/
def Value.renderPretty (v : Value) : Bytes := layOut 0 v []

/-- An object with the given members. -/
def Value.record (members : List (String × Value)) : Value :=
  .object (members.map fun (k, v) => ((Text.encode k).flatMap escapeByte, v))

end Corpus.Json
