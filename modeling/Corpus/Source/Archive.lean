/-
Corpus/Source/Archive.lean

Zip archives as sources.  All entries are listed before any is unpacked.  Each eligible one
is then unpacked into a scratch file of its own, which is gone before the next one is made.
The name of a scratch file is built from the number of the entry, never from its name.
-/
import Corpus.Disk.Basic
import Corpus.Extractor.FileText
import Corpus.Source.Filter
import Corpus.Source.Production
import Corpus.Zip.Archive

namespace Corpus.Archive

/-- The scratch file of an entry. -/
def scratchPath (dir : Path) (index : Nat) (extension : String) : Path :=
  let name := "entry-" ++ toString index
  dir.join (.ofText (if extension.isEmpty then name else name ++ "." ++ extension))

/-- An entry to be unpacked. -/
structure Packed where
  index : Nat
  entry : Zip.Entry
  extension : String

/-- An entry is unpacked or passed over; directories are not even mentioned. -/
def classify? (filter : EntryFilter) (entry : Zip.Entry) (index : Nat) :
    Option (Event ⊕ Packed) :=
  if entry.isDir then none
  else
    match filter.eligible? entry.name with
    | some extension => some (.inr ⟨index, entry, extension⟩)
    | none => some (.inl (.skipped entry.name))

/-- What becomes of the entries of an archive. -/
def listing (filter : EntryFilter) (entries : List Zip.Entry) : List (Event ⊕ Packed) :=
  entries.zipIdx.filterMap fun (entry, index) => classify? filter entry index

/-- What is said of an entry that cannot be unpacked, before the reason. -/
def unpackFailure : String := "Cannot unpack: "

/-- The record of an entry with a text. -/
def recordOf (entry : Zip.Entry) (text : String) : Record :=
  { path := entry.name, text, size := UInt64.ofNat entry.size }

/-- What becomes of an entry whose scratch file was made. -/
def extractScratch (extractor : TextExtractor) (d : Disk) (scratch : Path) (p : Packed) : Event :=
  match extractor.extract d scratch p.extension with
  | .ok text => .record (recordOf p.entry text)
  | .error e => .failed p.entry.name e.message

/-- Removes a file if it is there. -/
def discard (d : Disk) (file : Path) : Disk :=
  match d.removeFile file with
  | .ok d => d
  | .error _ => d

/-- Unpacks an entry into its scratch file, extracts the text of that, and removes it. -/
def unpack (extractor : TextExtractor) (scratch : Path) (d : Disk) (p : Packed) : Event × Disk :=
  let failed (reason : String) : Event := .failed p.entry.name (unpackFailure ++ reason)
  if p.entry.isReadable then
    let file := scratchPath scratch p.index p.extension
    let content := p.entry.unpack?
    -- the scratch file is made before the entry turns out to be damaged
    match d.write file (content.getD []) with
    | .error fault => (failed fault.text, discard d file)
    | .ok d =>
      if content.isSome then (extractScratch extractor d file p, discard d file)
      else (failed "", discard d file)
  else (failed "", d)

/-- Makes the scratch directory. -/
def prepare (scratch : Path) (d : Disk) : Except String Unit × Disk :=
  match d.makeDirs scratch with
  | (.ok (), d) => (.ok (), d)
  | (.error fault, d) => (.error ("Cannot create " ++ scratch.shown ++ ": " ++ fault.text), d)

/-- Reads an archive. -/
def produce (filter : EntryFilter) (extractor : TextExtractor) (archive scratch : Path) (d : Disk)
    (room : Option Nat) : Production :=
  match d.read archive with
  | .error fault => .failed ("Cannot open archive " ++ archive.shown ++ ": " ++ fault.text) d
  | .ok content =>
    match Zip.read? content with
    | none => .failed ("Unreadable archive " ++ archive.shown ++ ": ") d
    | some entries =>
      .ofListing (listing filter entries) (prepare scratch) (unpack extractor scratch) d room

/-- Opens an archive as a source, with the disk that is left when all of it was read. -/
def openSource (filter : EntryFilter) (extractor : TextExtractor) (d : Disk)
    (archive scratch : Path) : Except SourceError (Source × Disk) :=
  if d.isFile archive then
    let producer := produce filter extractor archive scratch d
    .ok (.ofProducer (.ofPath .zip archive) producer, (producer none).disk)
  else .error (.notFound archive)

end Corpus.Archive
