/-
Corpus/Document/Record.lean

Records: what a source knows of one entry before it becomes a document.

The extractor writes records as JSON lines.  Every member may be missing and unknown ones
are passed over, so lines of other versions of it stay readable; an array gives the
members by position.
-/
import Corpus.Json.Reader
import Corpus.Text.Blank

namespace Corpus

/-- Why an entry has no thumbnails although it shows an image. -/
inductive ImageSkip where
  | icon
  | notFound
  deriving DecidableEq, Repr

/-- The word for a reason. -/
def ImageSkip.ofWord? (word : String) : Option ImageSkip :=
  if word = "icon" then some .icon
  else if word = "not_found" then some .notFound
  else none

/-- One entry of a source. -/
structure Record where
  /-- The path of the entry under the root of the source. -/
  path : String := ""
  title : String := ""
  text : String := ""
  /-- The size in bytes. -/
  size : UInt64 := 0
  /-- Where rendered thumbnails lie, empty if there are none. -/
  thumbDir : String := ""
  /-- The word for the reason why there are none. -/
  imageSkipped : String := ""
  deriving DecidableEq, Repr, Inhabited

namespace Record

/-- Where the thumbnails lie, if there are any. -/
def staging? (r : Record) : Option String :=
  if r.thumbDir.isEmpty then none else some r.thumbDir

/-- Why there are no thumbnails, if the source says so. -/
def imageSkip? (r : Record) : Option ImageSkip := ImageSkip.ofWord? r.imageSkipped

/-- How many characters the trimmed text has. -/
def meaningfulChars (r : Record) : Nat := (Text.trimChars r.text.toList).length

/-- Reads a record off a JSON value. -/
def ofJson? (v : Json.Value) : Option Record :=
  match v with
  | .array items => do
    if items.length ≤ 6 then
      let path ← Json.position? items 0 "" (·.asText?)
      let title ← Json.position? items 1 "" (·.asText?)
      let text ← Json.position? items 2 "" (·.asText?)
      let size ← Json.position? items 3 0 (·.asCount?)
      let thumbDir ← Json.position? items 4 "" (·.asText?)
      let imageSkipped ← Json.position? items 5 "" (·.asText?)
      some { path, title, text, size, thumbDir, imageSkipped }
    else none
  | v => do
    let members ← v.named?
    let path ← Json.optional? members "path" "" (·.asText?)
    let title ← Json.optional? members "title" "" (·.asText?)
    let text ← Json.optional? members "text" "" (·.asText?)
    let size ← Json.optional? members "size" 0 (·.asCount?)
    let thumbDir ← Json.optional? members "thumb_dir" "" (·.asText?)
    let imageSkipped ← Json.optional? members "image_skipped" "" (·.asText?)
    some { path, title, text, size, thumbDir, imageSkipped }

/-- Reads a record off the bytes of a line. -/
def decode? (line : Bytes) : Option Record := do
  ofJson? (← Json.read? line)

end Record

end Corpus
