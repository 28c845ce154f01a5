/-
Corpus/Document/EntryName.lean

Names of entries.  An entry is named by its path under the root of a collection, with
either slash as a separator; its kind is told by the extension of the last component.
-/
import Corpus.Text.Blank
import Corpus.Text.Case

namespace Corpus.EntryName

/-- A character that separates the components of an entry path. -/
def isSeparator (c : Char) : Bool := c = '/' || c = '\\'

/-- The characters after the last one that satisfies `p`, all of them if none does. -/
def afterLast (p : Char → Bool) (s : List Char) : List Char :=
  (s.reverse.takeWhile fun c => !p c).reverse

/-- The last component, over characters. -/
def lastChars (entry : List Char) : List Char := afterLast isSeparator entry

/-- The extension of a name, over characters: what follows its last dot, unless nothing
stands before that dot. -/
def extensionChars (name : List Char) : List Char :=
  let extension := afterLast (· == '.') name
  if name.length ≤ extension.length + 1 then [] else extension

/-- The last component of an entry path. -/
def last (entry : String) : String := String.ofList (lastChars entry.toList)

/-- The extension of an entry path without its dot, empty for a dotfile. -/
def extension (entry : String) : String :=
  String.ofList (extensionChars (lastChars entry.toList))

/-- An extension as a document shows it: in lower case, with one dot in front. -/
def fileType (extension : String) : String :=
  let bare := (Text.trimChars extension.toList).dropWhile (· == '.')
  if bare.isEmpty then "" else "." ++ Text.toLower (String.ofList bare)

end Corpus.EntryName
