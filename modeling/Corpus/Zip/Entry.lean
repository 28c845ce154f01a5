/-
Corpus/Zip/Entry.lean

Entries of zip archives as the central directory lists them.  The extra fields of an entry
may hold sizes too large for the directory, a better name, or a sign that the entry is
locked; a field that contradicts itself makes the whole archive unreadable.
-/
import Corpus.Text.CodePage437
import Corpus.Zip.Crc32
import Corpus.Zip.Inflate

namespace Corpus.Zip

/-- What the central directory says of an entry. -/
structure Header where
  name : String
  /-- The bytes of the name. -/
  rawName : Bytes
  comment : String
  /-- The number of the packing method. -/
  method : Nat
  checksum : Nat
  packedSize : Nat
  size : Nat
  /-- Where the entry begins in the archive. -/
  start : Nat
  /-- A password is needed. -/
  locked : Bool
  /-- A field says how the entry is locked. -/
  lockDescribed : Bool := false
  deriving DecidableEq, Repr

/-- A number of bytes, the lowest first. -/
def littleEndian (s : Bytes) : Nat := s.foldr (fun b n => b.toNat + 256 * n) 0

/-! ### Extra fields -/

/-- What reading extra fields leads to. -/
inductive ExtraStep where
  /-- Go on with the rest. -/
  | next (h : Header) (rest : Bytes)
  /-- The field is cut off; what was read of it stays. -/
  | cut (h : Header)
  /-- The field contradicts itself. -/
  | refuse

/-- Takes a number of so many bytes. -/
def takeNumber (width : Nat) (s : Bytes) : Option (Nat × Bytes) :=
  if s.length < width then none else some (littleEndian (s.take width), s.drop width)

/-- Passes over so many bytes. -/
def passOver (h : Header) (n : Nat) (s : Bytes) : ExtraStep :=
  if s.length < n then .cut h else .next h (s.drop n)

/-- A size or place that does not fit the directory. -/
def tooLarge : Nat := 0xFFFFFFFF

/-- Takes the next large number of the field if it is there for a purpose. -/
def takeLarge (there : Bool) (set : Header → Nat → Header) (h : Header) (left : Int) (s : Bytes) :
    Header × Int × Option Bytes :=
  if there then
    match takeNumber 8 s with
    | some (n, rest) => (set h n, left - 8, some rest)
    | none => (h, left, none)
  else (h, left, some s)

/-- The field of large sizes and places. -/
def largeField (h : Header) (length : Nat) (s : Bytes) : ExtraStep :=
  -- sizes and place, each there only if the directory has no room for it
  let all := 24 ≤ length
  match takeLarge (all || h.size == tooLarge) (fun h n => { h with size := n }) h length s with
  | (h, _, none) => .cut h
  | (h, left, some s) =>
    match takeLarge (all || h.packedSize == tooLarge) (fun h n => { h with packedSize := n }) h
        left s with
    | (h, _, none) => .cut h
    | (h, left, some s) =>
      match takeLarge (all || h.start == tooLarge) (fun h n => { h with start := n }) h left s with
      | (h, _, none) => .cut h
      | (h, left, some s) => if left < 0 then .refuse else passOver h left.toNat s

/-- The checked text of a field: its bytes belong to an old text with the checksum given. -/
def checkedText (old : Bytes) (length : Nat) (s : Bytes) : Except Bool (Bytes × Bytes) :=
  match takeNumber 4 (s.drop 1) with
  | none => .error false
  | some (sum, rest) =>
    if length < 5 then .error true
    else if rest.length < length - 5 then .error false
    else if sum ≠ (Crc32.checksum old).toNat then .error true
    else .ok (rest.take (length - 5), rest.drop (length - 5))

/-- The field of a name in Unicode. -/
def nameField (h : Header) (length : Nat) (s : Bytes) : ExtraStep :=
  match checkedText h.rawName length s with
  | .error refused => if refused then .refuse else .cut h
  | .ok (raw, rest) =>
    match Text.decode? raw with
    | some name => .next { h with name, rawName := raw } rest
    | none => .refuse

/-- The field of a comment in Unicode. -/
def commentField (h : Header) (length : Nat) (s : Bytes) : ExtraStep :=
  match checkedText (Text.encode h.comment) length s with
  | .error refused => if refused then .refuse else .cut h
  | .ok (raw, rest) =>
    match Text.decode? raw with
    | some comment => .next { h with comment } rest
    | none => .refuse

/-- The field that says how an entry is locked. -/
def lockField (h : Header) (length : Nat) (s : Bytes) : ExtraStep :=
  if length ≠ 7 then .refuse
  else if s.length < 7 then .cut h
  else
    let version := littleEndian (s.take 2)
    let vendor := littleEndian ((s.drop 2).take 2)
    let strength := littleEndian ((s.drop 4).take 1)
    if vendor ≠ 0x4541 || (version ≠ 1 && version ≠ 2) || strength = 0 || 3 < strength then .refuse
    else
      .next { h with method := littleEndian ((s.drop 5).take 2), lockDescribed := true } (s.drop 7)

/-- The field of fine times. -/
def timesField (h : Header) (length : Nat) (s : Bytes) : ExtraStep :=
  if length ≠ 32 then .refuse
  else if s.length < 6 then .cut h
  else if littleEndian ((s.drop 4).take 2) ≠ 1 then .refuse
  else if s.length < 8 then .cut h
  else if littleEndian ((s.drop 6).take 2) ≠ 24 then .refuse
  else passOver h 32 s

/-- The field of times in seconds. -/
def secondsField (h : Header) (length : Nat) (s : Bytes) : ExtraStep :=
  match s with
  | [] => .cut h
  | flags :: rest =>
    let bit (n : Nat) := (flags.toNat / Nat.pow 2 n) % 2
    let set := ((List.range 8).map bit).foldl Nat.add 0
    if length ≠ 5 && length ≠ 1 + 4 * set then .refuse
    else if 8 ≤ flags.toNat then .refuse
    else
      -- the central directory may keep the first of the times alone
      let given := if length = 5 then 1 else set
      passOver h (4 * given) rest

/-- Reads one field. -/
def extraStep (h : Header) (s : Bytes) : ExtraStep :=
  match takeNumber 2 s with
  | none => .cut h
  | some (kind, s) =>
    match takeNumber 2 s with
    | none => .cut h
    | some (length, s) =>
      if kind = 0x0001 then largeField h length s
      else if kind = 0x000A then timesField h length s
      else if kind = 0x9901 then lockField h length s
      else if kind = 0x5455 then secondsField h length s
      else if kind = 0x6375 then commentField h length s
      else if kind = 0x7075 then nameField h length s
      else passOver h length s

/-- Reads the fields of an entry.  Each has four bytes at least, so that `fuel` may be the
number of bytes. -/
def applyExtra : Nat → Header → Bytes → Option Header
  | 0, h, _ => some h
  | fuel + 1, h, s =>
    if s.isEmpty then some h
    else
      match extraStep h s with
      | .next h rest => applyExtra fuel h rest
      | .cut h => some h
      | .refuse => none

/-! ### Entries -/

/-- An entry of an archive with the bytes it is packed in. -/
structure Entry where
  name : String
  method : Nat
  checksum : Nat
  /-- The size when unpacked, as the directory says. -/
  size : Nat
  /-- A password is needed. -/
  locked : Bool
  packed : Array UInt8

namespace Entry

/-- The methods of entries that can be unpacked. -/
def stored : Nat := 0
def deflated : Nat := 8

/-- The entry is a directory. -/
def isDir (e : Entry) : Bool :=
  match e.name.toList.getLast? with
  | some c => c = '/' || c = '\\'
  | none => false

/-- The entry can be unpacked as far as the directory tells. -/
def isReadable (e : Entry) : Bool := !e.locked && (e.method == stored || e.method == deflated)

/-- What the entry holds, unless it is damaged. -/
def unpack? (e : Entry) : Option Bytes :=
  let content :=
    if e.method = stored then some e.packed.toList else Inflate.inflate? e.packed
  content.filter fun s => (Crc32.checksum s).toNat == e.checksum

end Entry

end Corpus.Zip
