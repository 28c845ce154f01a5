/-
Corpus/Ingest/Thumbnails.lean

Adoption of thumbnails.  The extractor renders the thumbnails of an entry into a staging
directory; adopting it moves the directory to a place named for the document, renames the
files after the document, and tells what the document should say of them.

Adopting again after the staging directory is gone describes what is already there.
-/
import Corpus.Disk.Basic
import Corpus.Document.Basic

namespace Corpus

/-- Where thumbnails are kept and how they are served. -/
structure Thumbnails where
  root : Path
  /-- What stands before the path of a thumbnail, without slashes at its end. -/
  urlBase : String
  deriving DecidableEq, Repr

/-- Why thumbnails were not adopted. -/
inductive AdoptError where
  | missingStaging (staging : Path)
  /-- There is no large thumbnail. -/
  | noThumbnails (id : String)
  | io (fault : Fault)
  deriving DecidableEq, Repr

/-- What is said of an error. -/
def AdoptError.message : AdoptError → String
  | .missingStaging staging => "Staging directory not found: " ++ staging.shown
  | .noThumbnails id => "No primary thumbnail staged for " ++ id
  | .io fault => "IO error: " ++ fault.text

namespace Thumbnails

/-- The part of a name that marks a thumbnail. -/
def marker : List Char := "_thumb_0_".toList

/-- The ending of thumbnail files. -/
def imageEnding : List Char := ".jpg".toList

/-- Thumbnails below a directory, served under a prefix. -/
def ofRoot (root : Path) (urlPrefix : String) : Thumbnails :=
  ⟨root, String.ofList (Text.dropEndWhile (· == '/') urlPrefix.toList)⟩

/-- What follows the last occurrence of `part` in `s`. -/
def afterLast? (part : List Char) : List Char → Option (List Char)
  | [] => if part.isEmpty then some [] else none
  | c :: rest =>
    match afterLast? part rest with
    | some tail => some tail
    | none => if part.isPrefixOf (c :: rest) then some ((c :: rest).drop part.length) else none

/-- The name that a thumbnail has in the place of its document: the identifier instead of
all that stands before the last marker. -/
def canonicalChars (id name : List Char) : Option (List Char) :=
  if imageEnding.isSuffixOf name then
    (afterLast? marker name).map fun size => id ++ marker ++ size
  else none

/-- The name that a thumbnail has in the place of its document. -/
def canonicalName (name id : String) : Option String :=
  (canonicalChars id.toList name.toList).map String.ofList

/-- The name belongs to a thumbnail of the document. -/
def isThumbnail (id name : String) : Bool :=
  id.toList.isPrefixOf name.toList && (afterLast? marker name.toList).isSome &&
    imageEnding.isSuffixOf name.toList

/-- Where a thumbnail is served. -/
def url (t : Thumbnails) (id name : String) : String := t.urlBase ++ "/" ++ id ++ "/" ++ name

/-- The order of texts by their characters. -/
def nameLe (a b : String) : Bool := decide (a ≤ b)

/-- What the names in a directory say of a document's images: the first large one stands for
the document, and the small ones are listed in order. -/
def describeNames (t : Thumbnails) (id : String) (names : List String) :
    Except AdoptError ImageMetadata :=
  -- a directory lists its names in any order, so they are put into one
  let names := (names.filter (isThumbnail id)).mergeSort nameLe
  let ending (s : String) (name : String) := s.toList.isSuffixOf name.toList
  match names.find? (ending "_large.jpg") with
  | some first =>
    .ok
      { hasImages := true
        imageCount := 1
        firstImage := t.url id first
        allImages := (names.filter (ending "_small.jpg")).map (t.url id) }
  | none => .error (.noThumbnails id)

/-- What a directory says of a document's images. -/
def describe (t : Thumbnails) (d : Disk) (dir : Path) (id : String) :
    Except AdoptError ImageMetadata :=
  match d.list dir with
  | .ok entries => t.describeNames id (entries.map fun e => Text.decodeLossy e.1)
  | .error fault => .error (.io fault)

/-- Copies the nodes below a directory, each to the same steps below another one.  Of a link the
file is copied that it leads to. -/
def copyNodes (source target : Path) : List (Place × Node) → Disk → Except Fault Unit × Disk
  | [], d => (.ok (), d)
  | (steps, node) :: rest, d =>
    let destination := steps.foldl Path.child target
    match node with
    | .dir _ =>
      match d.makeDirs destination with
      | (.ok (), d) => copyNodes source target rest d
      | (.error e, d) => (.error e, d)
    | _ =>
      match d.read (steps.foldl Path.child source) with
      | .error .isDirectory => (.error .notFile, d)
      | .error e => (.error e, d)
      | .ok content =>
        match d.write destination content with
        | .ok d => copyNodes source target rest d
        | .error e => (.error e, d)

/-- Copies a directory and all below it. -/
def copyDir (d : Disk) (source target : Path) : Except Fault Unit × Disk :=
  match d.node? source with
  | .error e => (.error e, d)
  | .ok node =>
    match d.makeDirs target with
    | (.error e, d) => (.error e, d)
    | (.ok (), d) => copyNodes source target (node.descendants []) d

/-- Copies a directory to another place and removes it here. -/
def moveByCopy (d : Disk) (source target : Path) : Except Fault Unit × Disk :=
  match copyDir d source target with
  | (.error e, d) => (.error e, d)
  | (.ok (), d) =>
    match d.removeDir source with
    | .ok d => (.ok (), d)
    | .error e => (.error e, d)

/-- Moves a directory, by copying if it has to change the device. -/
def moveDir (d : Disk) (source target : Path) : Except Fault Unit × Disk :=
  match d.rename source target with
  | .ok d => (.ok (), d)
  | .error .otherDevice => moveByCopy d source target
  | .error e => (.error e, d)

/-- Renames the thumbnails among the listed entries of a directory after its document. -/
def renameEntries (dir : Path) (id : String) : List Bytes → Disk → Except Fault Unit × Disk
  | [], d => (.ok (), d)
  | entry :: rest, d =>
    let name := Text.decodeLossy entry
    match canonicalName name id with
    | none => renameEntries dir id rest d
    | some renamed =>
      if renamed = name then renameEntries dir id rest d
      else
        match d.rename (dir.child entry) (dir.join (.ofText renamed)) with
        | .ok d => renameEntries dir id rest d
        | .error e => (.error e, d)

/-- Removes what stands at a path, if anything does. -/
def clear (d : Disk) (target : Path) : Except Fault Disk :=
  if d.exists? target then d.removeDir target else .ok d

/-- Adopts a staging directory for a document. -/
def adopt (t : Thumbnails) (d : Disk) (staging : Path) (id : String) :
    Except AdoptError ImageMetadata × Disk :=
  let target := t.root.join (.ofText id)
  if !d.isDir staging then
    -- an adoption that was finished before is described once more
    if d.isDir target then (t.describe d target id, d)
    else (.error (.missingStaging staging), d)
  else
    match d.makeDirs t.root with
    | (.error e, d) => (.error (.io e), d)
    | (.ok (), d) =>
      -- what an earlier run has left makes way
      match clear d target with
      | .error e => (.error (.io e), d)
      | .ok d =>
        match moveDir d staging target with
        | (.error e, d) => (.error (.io e), d)
        | (.ok (), d) =>
          match d.list target with
          | .error e => (.error (.io e), d)
          | .ok entries =>
            match renameEntries target id (entries.map (·.1)) d with
            | (.error e, d) => (.error (.io e), d)
            | (.ok (), d) => (t.describe d target id, d)

end Thumbnails

end Corpus
