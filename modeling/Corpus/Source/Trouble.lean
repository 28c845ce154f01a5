/-
Corpus/Source/Trouble.lean

Folders and archives parts of which cannot be read.

A folder that cannot be opened makes its walk fail.  What cannot be read further down is noted and
left out: a directory that cannot be opened in its place, and entries that are lost while a
directory is listed ahead of the entries that it still gives.  An entry of an archive that cannot
be read while the archive is listed is noted by its number; one that cannot be opened any more
when its turn comes is reported under its name.

Both producers are given here what they do with each eligible entry, so that it can be told apart
how they go about their entries and what they make of them.
-/
import Corpus.Source.Archive
import Corpus.Source.Folder

namespace Corpus

/-- A fault of a walk, with the place that it concerns if that is known. -/
structure WalkFault where
  place : Option Place
  fault : Fault
  deriving DecidableEq, Repr

/-- The text of a fault of a walk. -/
def WalkFault.text (root : Path) (f : WalkFault) : String :=
  match f.place with
  | some place =>
    "IO error for operation on " ++ (Folder.pathOf root place).shown ++ ": " ++ f.fault.text
  | none => f.fault.text

/-- What stands in the way of a walk, by the places of directories and files. -/
structure WalkTroubles where
  /-- The directory cannot be opened. -/
  closed : Place → Option Fault := fun _ => none
  /-- Entries of the directory that are lost while it is listed, by their names if these are
  known. -/
  lost : Place → List (Option Bytes × Fault) := fun _ => []
  /-- The size of the file cannot be asked for. -/
  unmeasured : Place → Bool := fun _ => false

namespace WalkTroubles

/-- The troubles below an entry of the folder. -/
def below (t : WalkTroubles) (name : Bytes) : WalkTroubles :=
  ⟨fun place => t.closed (name :: place), fun place => t.lost (name :: place),
    fun place => t.unmeasured (name :: place)⟩

end WalkTroubles

/-- What a walk meets: a fault or a file. -/
abbrev Finding := WalkFault ⊕ FoundFile

/-- The finding as met from the directory above. -/
def Finding.within (name : Bytes) : Finding → Finding
  | .inl f => .inl { f with place := f.place.map (name :: ·) }
  | .inr f => .inr { f with place := name :: f.place }

namespace Node

/-- Puts the findings of a directory's entries into the order of their names, behind those entries
that are lost. -/
def inWalkOrder (t : WalkTroubles) (listings : List (Bytes × List Finding)) : List Finding :=
  (t.lost []).map (fun (name?, fault) => .inl ⟨name?.map ([·]), fault⟩) ++
    (sortEntries listings).flatMap (·.2)

mutual

/-- What the walk meets of an entry; `t` are the troubles of the directory that holds it. -/
def entryFindings (t : WalkTroubles) (name : Bytes) : Node → List Finding
  | .file content => [.inr ⟨[name], content⟩]
  | .dir es =>
    if isHiddenName name then []
    else
      match t.closed [name] with
      | some fault => [.inl ⟨some [name], fault⟩]
      | none =>
        (inWalkOrder (t.below name) (findingsOfEach (t.below name) es)).map (Finding.within name)
  | .link _ => []

/-- What the walk meets of each entry of a directory. -/
def findingsOfEach (t : WalkTroubles) : List (Bytes × Node) → List (Bytes × List Finding)
  | [] => []
  | (name, n) :: rest => (name, entryFindings t name n) :: findingsOfEach t rest

end

/-- What the walk meets below a directory, in order. -/
def findings (t : WalkTroubles) (n : Node) : List Finding :=
  inWalkOrder t (findingsOfEach t n.entries)

end Node

namespace Folder

/-- A finding is noted, passed over or a candidate. -/
def classifyFinding (t : WalkTroubles) (filter : EntryFilter) (root : Path) :
    Finding → Event ⊕ Candidate
  | .inl f => .inl (.notice ("Walk error: " ++ f.text root))
  | .inr file =>
    (classify filter root file).map id fun c =>
      { c with size := if t.unmeasured file.place then 0 else c.size }

/-- What is noted, passed over or worked off of a folder. -/
def listingDespite (t : WalkTroubles) (filter : EntryFilter) (root : Path) (top : Node) :
    List (Event ⊕ Candidate) :=
  (top.findings t).map (classifyFinding t filter root)

/-- Walks a folder and does with each candidate as told. -/
def walkDespite (t : WalkTroubles) (filter : EntryFilter) (root : Path) (top : Node) (d : Disk)
    (work : Disk → Candidate → Event × Disk) (room : Option Nat) : Production :=
  match t.closed [] with
  | some fault =>
    .failed ("Cannot read folder " ++ root.shown ++ ": " ++ WalkFault.text root ⟨some [], fault⟩) d
  | none => .ofListing (listingDespite t filter root top) (fun d => (.ok (), d)) work d room

/-- What a walk does with each candidate. -/
def work (extractor : TextExtractor) (d : Disk) (c : Candidate) : Event × Disk :=
  (extract extractor d c, d)

end Folder

/-- What stands in the way of reading an archive, by the numbers of its entries. -/
structure ArchiveTroubles where
  /-- The entry cannot be read while the archive is listed, for the reason given. -/
  unlisted : Nat → Option String := fun _ => none
  /-- The entry cannot be opened when it is to be unpacked, for the reason given. -/
  unopened : Nat → Option String := fun _ => none

namespace Archive

/-- What is noted, passed over or worked off of an archive. -/
def listingDespite (t : ArchiveTroubles) (filter : EntryFilter) (entries : List Zip.Entry) :
    List (Event ⊕ Packed) :=
  entries.zipIdx.filterMap fun (entry, index) =>
    match t.unlisted index with
    | some reason =>
      some (.inl (.notice ("Unreadable entry #" ++ toString index ++ ": " ++ reason)))
    | none => classify? filter entry index

/-- Unpacks an entry if it can still be opened. -/
def unpackDespite (t : ArchiveTroubles) (extractor : TextExtractor) (scratch : Path) (d : Disk)
    (p : Packed) : Event × Disk :=
  match t.unopened p.index with
  | some reason => (.failed p.entry.name (unpackFailure ++ reason), d)
  | none => unpack extractor scratch d p

/-- Reads an archive and does with each eligible entry as told. -/
def readDespite (t : ArchiveTroubles) (filter : EntryFilter) (archive scratch : Path) (d : Disk)
    (work : Disk → Packed → Event × Disk) (room : Option Nat) : Production :=
  match d.read archive with
  | .error fault => .failed ("Cannot open archive " ++ archive.shown ++ ": " ++ fault.text) d
  | .ok content =>
    match Zip.read? content with
    | none => .failed ("Unreadable archive " ++ archive.shown ++ ": ") d
    | some entries =>
      .ofListing (listingDespite t filter entries) (prepare scratch) work d room

end Archive

end Corpus
