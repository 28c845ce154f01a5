/-
Corpus/Disk/Path.lean

Paths as the bytes they are written with.  A slash separates the components; a path that
begins with one is absolute.  Empty components and dots after the first component mean
nothing, so two spellings may have the same components.
-/
import Corpus.Text.Utf8

namespace Corpus

/-- Joins two written paths: an absolute second path stands alone, and a separator is put
between them unless the first is empty or ends in one. -/
def joinWritten {α : Type} [BEq α] (separator : α) (base entry : List α) : List α :=
  if entry.head? == some separator then entry
  else if base.isEmpty || base.getLast? == some separator then base ++ entry
  else base ++ separator :: entry

/-- A path as it is written. -/
structure Path where
  bytes : Bytes
  deriving DecidableEq, Repr, Inhabited

namespace Path

/-- The byte that separates components. -/
def separator : UInt8 := 47

/-- A path given as text. -/
def ofText (s : String) : Path := ⟨Text.encode s⟩

/-- The path as shown to people. -/
def shown (p : Path) : String := Text.decodeLossy p.bytes

def isAbsolute (p : Path) : Bool := p.bytes.head? == some separator

/-- The path of `entry` as seen from `base`. -/
def join (base entry : Path) : Path := ⟨joinWritten separator base.bytes entry.bytes⟩

/-- The path of a named entry of `base`. -/
def child (base : Path) (name : Bytes) : Path := base.join ⟨name⟩

/-- One step of a path. -/
inductive Component where
  /-- The root directory. -/
  | root
  /-- The directory itself. -/
  | here
  /-- The directory above. -/
  | up
  /-- A named entry. -/
  | name (n : Bytes)
  deriving DecidableEq, Repr

/-- The parts between separators. -/
def parts (p : Path) : List Bytes := p.bytes.splitOn separator

/-- What a part between separators means, if anything, away from the start of a path. -/
def Component.ofPart (part : Bytes) : Option Component :=
  if part.isEmpty || part == [46] then none
  else if part == [46, 46] then some .up
  else some (.name part)

/-- The steps of a path.  A dot counts only at the start of a relative path. -/
def components (p : Path) : List Component :=
  if p.isAbsolute then .root :: p.parts.filterMap Component.ofPart
  else
    match p.parts with
    | first :: rest =>
      (if first == [46] then [.here] else (Component.ofPart first).toList) ++
        rest.filterMap Component.ofPart
    | [] => []

/-- The name of the entry that the path ends in, if it ends in a name. -/
def fileName? (p : Path) : Option Bytes :=
  match p.components.getLast? with
  | some (.name n) => some n
  | _ => none

/-- The path with the given steps. -/
def ofComponents : List Component → Path
  | .root :: rest =>
    ⟨separator :: (List.intercalate [separator] (rest.map bytesOf))⟩
  | steps => ⟨List.intercalate [separator] (steps.map bytesOf)⟩
where
  /-- The bytes of a step. -/
  bytesOf : Component → Bytes
    | .root => []
    | .here => [46]
    | .up => [46, 46]
    | .name n => n

/-- The path without its last step; none for the root and the empty path. -/
def parent? (p : Path) : Option Path :=
  match p.components.getLast? with
  | none | some .root => none
  | some _ => some (ofComponents p.components.dropLast)

end Path

end Corpus
