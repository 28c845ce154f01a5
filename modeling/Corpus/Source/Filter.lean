/-
Corpus/Source/Filter.lean

Which entries of a folder or an archive are worth indexing: those with an allowed
extension that are neither hidden nor metadata of an operating system.
-/
import Corpus.Document.EntryName

namespace Corpus

/-- The allowed extensions, in lower case and without dots. -/
structure EntryFilter where
  allowed : List String
  deriving DecidableEq, Repr

namespace EntryFilter

/-- The filter for extensions as a user writes them. -/
def ofExtensions (extensions : List String) : EntryFilter :=
  ⟨extensions.map fun e =>
    Text.toLower (String.ofList ((Text.trimChars e.toList).dropWhile (· == '.')))⟩

/-- Files that operating systems leave in folders. -/
def metadataNames : List String := ["thumbs.db", "desktop.ini"]

/-- Hidden files and metadata. -/
def isIgnored (_ : EntryFilter) (entry : String) : Bool :=
  let name := EntryName.last entry
  name.toList.head? == some '.' || metadataNames.contains (Text.toLower name)

/-- The extension, in lower case, of an entry to be indexed. -/
def eligible? (f : EntryFilter) (entry : String) : Option String :=
  if f.isIgnored entry then none
  else
    let extension := Text.toLower (EntryName.extension entry)
    if f.allowed.contains extension then some extension else none

end EntryFilter

end Corpus
