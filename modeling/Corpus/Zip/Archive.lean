/-
Corpus/Zip/Archive.lean

Zip archives.  The central directory near the end lists the entries; an end record behind
it tells how many there are and where the directory begins.  Something may stand before the
archive and after it: the place where the directory is found tells how far everything is
shifted.  Of entries with one name the last one counts, at the place of the first.
-/
import Corpus.Zip.Entry

namespace Corpus.Zip

/-- The number of `width` bytes at a place, the lowest first. -/
def word? (a : Array UInt8) (place width : Nat) : Option Nat :=
  if place + width ≤ a.size then some (littleEndian (a.extract place (place + width)).toList)
  else none

/-- The bytes at a place. -/
def bytes? (a : Array UInt8) (place length : Nat) : Option Bytes :=
  if place + length ≤ a.size then some (a.extract place (place + length)).toList else none

/-- The numbers with which the parts of an archive begin. -/
def endMark : Nat := 0x06054B50
def headerMark : Nat := 0x02014B50
def localMark : Nat := 0x04034B50
def largeEndMark : Nat := 0x06064B50
def locatorMark : Nat := 0x07064B50

/-- There is a mark at a place. -/
def isMarked (a : Array UInt8) (mark place : Nat) : Bool := word? a place 4 == some mark

/-- The first place of a mark between two places. -/
def firstMark? (a : Array UInt8) (mark start stop : Nat) : Option Nat :=
  (List.range' start (stop - start)).find? fun place =>
    place + 4 ≤ stop && isMarked a mark place

/-! ### The directory -/

/-- Where the directory is and what is in it. -/
structure Directory where
  /-- How far everything is shifted. -/
  shift : Nat
  start : Nat
  count : Nat

/-- The directory that an ordinary end record tells of. -/
def ordinaryDirectory? (a : Array UInt8) (place : Nat) : Option Directory := do
  let disk ← word? a (place + 4) 2
  let startDisk ← word? a (place + 6) 2
  let countHere ← word? a (place + 8) 2
  let count ← word? a (place + 10) 2
  let offset ← word? a (place + 16) 4
  if disk ≠ startDisk then none
  -- without entries there is no header to look for
  else if count = 0 then some ⟨place - offset, offset + (place - offset), countHere⟩
  else if place ≤ offset then none
  else
    let start ← firstMark? a headerMark offset place
    some ⟨start - offset, start, countHere⟩

/-- The directory that a large end record at a place tells of, up to the locator behind it. -/
def largeDirectoryAt? (a : Array UInt8) (locator place : Nat) : Option Directory := do
  let startDisk ← word? a (locator + 4) 4
  let told ← word? a (locator + 8) 8
  let recordSize ← word? a (place + 4) 8
  let madeBy ← word? a (place + 12) 2
  let needed ← word? a (place + 14) 2
  let disk ← word? a (place + 16) 4
  let directoryDisk ← word? a (place + 20) 4
  let countHere ← word? a (place + 24) 8
  let count ← word? a (place + 32) 8
  let offset ← word? a (place + 48) 8
  let shift := place - told
  if recordSize < 44 || recordSize + 12 ≠ locator - place then none
  else if directoryDisk ≠ startDisk || disk ≠ directoryDisk then none
  else if place < count * 46 + offset then none
  else if count < countHere || madeBy < needed then none
  else some ⟨shift, offset + shift, count⟩

/-- The directory that a locator at a place tells of. -/
def largeDirectory? (a : Array UInt8) (locator : Nat) : Option Directory := do
  let told ← word? a (locator + 8) 8
  let disks ← word? a (locator + 16) 4
  if locator ≤ told || 1 < disks then none
  else
    (List.range' told (locator - told)).findSome? fun place =>
      if place + 4 ≤ locator && isMarked a largeEndMark place then largeDirectoryAt? a locator place
      else none

/-- The directory that the end record at a place tells of. -/
def directory? (a : Array UInt8) (place : Nat) : Option Directory := do
  let count ← word? a (place + 10) 2
  let offset ← word? a (place + 16) 4
  let commentLength ← word? a (place + 20) 2
  if a.size < place + 22 + commentLength then none
  else if (count = 0xFFFF || offset = tooLarge) && 20 ≤ place && isMarked a locatorMark (place - 20)
  then largeDirectory? a (place - 20)
  else ordinaryDirectory? a place

/-! ### Entries -/

/-- The entry at a place of the directory, and the place behind it.  Its content has to begin
before the directory does. -/
def entryAt? (a : Array UInt8) (d : Directory) (place : Nat) : Option (Entry × Nat) := do
  let mark ← word? a place 4
  let flags ← word? a (place + 8) 2
  let method ← word? a (place + 10) 2
  let checksum ← word? a (place + 16) 4
  let packedSize ← word? a (place + 20) 4
  let size ← word? a (place + 24) 4
  let nameLength ← word? a (place + 28) 2
  let extraLength ← word? a (place + 30) 2
  let commentLength ← word? a (place + 32) 2
  let start ← word? a (place + 42) 4
  let rawName ← bytes? a (place + 46) nameLength
  let extra ← bytes? a (place + 46 + nameLength) extraLength
  let rawComment ← bytes? a (place + 46 + nameLength + extraLength) commentLength
  -- a flag tells names in Unicode from those of old systems
  let text (s : Bytes) := if flags / 2048 % 2 = 1 then Text.decodeLossy s else Text.decode437 s
  let h ← applyExtra extra.length
    { name := text rawName, rawName, comment := text rawComment, method, checksum, packedSize, size
      start, locked := flags % 2 = 1 } extra
  let start := h.start + d.shift
  if mark ≠ headerMark || (h.method = 99 && !h.lockDescribed) || d.start ≤ start then none
  else
    let localName ← word? a (start + 26) 2
    let localExtra ← word? a (start + 28) 2
    -- the header before the content has lengths of its own
    let content := start + 30 + localName + localExtra
    if !isMarked a localMark start || d.start < content then none
    else
      some
        (⟨h.name, h.method, h.checksum, h.size, h.locked || h.lockDescribed,
          a.extract content (content + h.packedSize)⟩,
          place + 46 + nameLength + extraLength + commentLength)

/-- So many entries from a place on, latest first, onto those read. -/
def entriesFrom? (a : Array UInt8) (d : Directory) : Nat → Nat → List Entry → Option (List Entry)
  | 0, _, acc => some acc
  | n + 1, place, acc =>
    match entryAt? a d place with
    | some (e, place) => entriesFrom? a d n place (e :: acc)
    | none => none

/-- Puts an entry in the place of the one with its name, or behind all others. -/
def putEntry (es : List Entry) (e : Entry) : List Entry :=
  if es.any (·.name == e.name) then es.map fun o => if o.name == e.name then e else o
  else es ++ [e]

/-- The entries of an archive, if it can be read: the end record nearest to the end that makes
sense counts. -/
def read? (content : Bytes) : Option (List Entry) :=
  let a := content.toArray
  let ends := (List.range a.size).filter (isMarked a endMark)
  ends.reverse.findSome? fun place => do
    let d ← directory? a place
    let entries ← entriesFrom? a d d.count d.start []
    some (entries.reverse.foldl putEntry [])

end Corpus.Zip
