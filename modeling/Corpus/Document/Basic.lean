/-
Corpus/Document/Basic.lean

Documents: what the search index stores of one entry.

The identifier of a document is made from the root of its source and its entry path, so
indexing an entry again replaces the document instead of adding a second one.
-/
import Corpus.Digest.NameId
import Corpus.Disk.Path
import Corpus.Document.EntryName
import Corpus.Document.Record

namespace Corpus

/-- The kinds of sources. -/
inductive SourceKind where
  /-- A packed encyclopedia, read by the external extractor. -/
  | zim
  /-- A zip archive. -/
  | zip
  /-- A folder on disk. -/
  | folder
  deriving DecidableEq, Repr

/-- The word for a kind of source. -/
def SourceKind.word : SourceKind → String
  | .zim => "zim"
  | .zip => "zip"
  | .folder => "folder"

/-- Where the records of a job come from. -/
structure Provenance where
  source : SourceKind
  /-- The root as text. -/
  root : String
  deriving DecidableEq, Repr

namespace Provenance

/-- The provenance of a source whose root is a path. -/
def ofPath (source : SourceKind) (root : Path) : Provenance := ⟨source, root.shown⟩

/-- How to find an entry again: the file itself, or the archive and the entry in it. -/
def filePath (p : Provenance) (entry : String) : String :=
  match p.source with
  | .zim => "zim://" ++ p.root ++ "#" ++ entry
  | .zip => "zip://" ++ p.root ++ "#" ++ entry
  | .folder => String.ofList (joinWritten '/' p.root.toList entry.toList)

end Provenance

/-- What a document says of its images. -/
structure ImageMetadata where
  hasImages : Bool := false
  imageCount : UInt32 := 0
  /-- Where the image that stands for the document is served. -/
  firstImage : String := ""
  /-- Where its small images are served. -/
  allImages : List String := []
  deriving DecidableEq, Repr, Inhabited

/-- The image fields to be set on a document that is already in the index. -/
structure ImagePatch where
  id : String
  images : ImageMetadata
  deriving DecidableEq, Repr

/-- A document ready for the index. -/
structure Document where
  id : String
  filename : String
  content : String
  fileType : String
  fileSize : UInt64
  filePath : String
  source : SourceKind
  folderRoot : String
  zimArticleUrl : Option String
  images : ImageMetadata
  deriving DecidableEq, Repr

namespace Document

/-- The name that an identifier is made from. -/
def idName (root entry : String) : String := root ++ "#" ++ entry

/-- The identifier of an entry under a root. -/
def idOf (root entry : String) : String :=
  NameId.ofName NameId.locations (idName root entry)

/-- The document of a record, without images.  Its name is the title, or the last component
of the path if the title is blank; its content is the trimmed text, cut to `maxChars`. -/
def ofRecord (provenance : Provenance) (record : Record) (maxChars : Nat) : Document :=
  { id := idOf provenance.root record.path
    filename :=
      if Text.isBlankText record.title then EntryName.last record.path else record.title
    content := String.ofList ((Text.trimChars record.text.toList).take maxChars)
    fileType :=
      match provenance.source with
      | .zim => ".zim"
      | _ => EntryName.fileType (EntryName.extension record.path)
    fileSize := record.size
    filePath := provenance.filePath record.path
    source := provenance.source
    folderRoot := provenance.root
    zimArticleUrl :=
      match provenance.source with
      | .zim => some record.path
      | _ => none
    images := {} }

end Document

end Corpus
