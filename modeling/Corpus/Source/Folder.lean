/-
Corpus/Source/Folder.lean

Folders as sources.  The whole tree is listed before anything is extracted, so that the
total is known from the start.  Files come in the order of their names, component by
component; directories whose name begins with a dot are passed over with all they hold, and
links are not followed.
-/
import Corpus.Disk.Basic
import Corpus.Extractor.FileText
import Corpus.Source.Filter
import Corpus.Source.Production

namespace Corpus

/-- A file below a folder, by its place from there. -/
structure FoundFile where
  place : Place
  content : Bytes
  deriving DecidableEq, Repr

namespace Node

/-- The name is one of a hidden directory. -/
def isHiddenName (name : Bytes) : Bool := name.head? == some 46

/-- Puts the name of a directory in front of the places of what it holds. -/
def within (name : Bytes) (files : List FoundFile) : List FoundFile :=
  files.map fun f => { f with place := name :: f.place }

/-- Puts listings of entries into the order of their names. -/
def inNameOrder (listings : List (Bytes × List FoundFile)) : List FoundFile :=
  (sortEntries listings).flatMap (·.2)

mutual

/-- The files of an entry, by their places from the directory that holds it. -/
def entryFiles (name : Bytes) : Node → List FoundFile
  | .file content => [⟨[name], content⟩]
  | .dir es => if isHiddenName name then [] else within name (inNameOrder (filesOfEach es))
  | .link _ => []

/-- The files of each entry of a directory. -/
def filesOfEach : List (Bytes × Node) → List (Bytes × List FoundFile)
  | [] => []
  | (name, n) :: rest => (name, entryFiles name n) :: filesOfEach rest

end

/-- The files below a directory, in order. -/
def visibleFiles (n : Node) : List FoundFile := inNameOrder (filesOfEach n.entries)

end Node

/-- A file to be extracted. -/
structure Candidate where
  path : Path
  /-- The name that the file has as an entry of the folder. -/
  entry : String
  extension : String
  size : UInt64
  deriving DecidableEq, Repr

namespace Folder

/-- The name of an entry: its place with slashes, whichever slashes its names hold. -/
def entryName (place : Place) : String :=
  String.ofList
    ((Text.decodeLossy (List.intercalate [Path.separator] place)).toList.map fun c =>
      if c = '\\' then '/' else c)

/-- The path of a place below a folder. -/
def pathOf (root : Path) (place : Place) : Path := place.foldl Path.child root

/-- A file that was found is a candidate or is passed over. -/
def classify (filter : EntryFilter) (root : Path) (file : FoundFile) : Event ⊕ Candidate :=
  let entry := entryName file.place
  match filter.eligible? entry with
  | some extension =>
    .inr ⟨pathOf root file.place, entry, extension, UInt64.ofNat file.content.length⟩
  | none => .inl (.skipped entry)

/-- The record of a candidate, or why there is none. -/
def extract (extractor : TextExtractor) (d : Disk) (c : Candidate) : Event :=
  match extractor.extract d c.path c.extension with
  | .ok text => .record { path := c.entry, text, size := c.size }
  | .error e => .failed c.entry e.message

/-- Walks a folder. -/
def produce (filter : EntryFilter) (extractor : TextExtractor) (root : Path) (top : Node)
    (d : Disk) (room : Option Nat) : Production :=
  Production.ofListing (top.visibleFiles.map (classify filter root)) (fun d => (.ok (), d))
    (fun d c => (extract extractor d c, d)) d room

/-- Opens a folder as a source. -/
def openSource (filter : EntryFilter) (extractor : TextExtractor) (d : Disk) (root : Path) :
    Except SourceError Source :=
  match d.node? root with
  | .ok (.dir entries) =>
    .ok (.ofProducer (.ofPath .folder root) (produce filter extractor root (.dir entries) d))
  | _ => .error (.notFound root)

end Folder

end Corpus
