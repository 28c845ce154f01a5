/-
Corpus/Log/File.lean

Log files.  The name of a log file tells the day or the hour in which it was begun, unless
it is never cut.
-/
import Corpus.Disk.Basic
import Corpus.Log.Basic
import Corpus.Time.Instant

namespace Corpus.Log

/-- Where a log file is: its directory, and its name. -/
structure File where
  dir : Path
  name : Bytes
  deriving DecidableEq, Repr

namespace File

/-- The part of the name that tells the time.  Anything but an hour or nothing at all means a
day. -/
def stamp (rotation : String) (now : Instant) : String :=
  let day := "." ++ (now.text.take 10).toString
  if rotation = "never" then ""
  else if rotation = "hourly" then day ++ "-" ++ ((now.text.drop 11).take 2).toString
  else day

/-- The log file for a path that the user names. -/
def ofPath (path : Path) (rotation : String) (now : Instant) : File :=
  { dir := match path.parent? with
      | some parent => if parent.bytes.isEmpty then .ofText "." else parent
      | none => .ofText "."
    name := path.fileName?.getD (Text.encode "corpusd.log") ++
      Text.encode (stamp rotation now) }

/-- The path of the file. -/
def path (f : File) : Path :=
  if f.dir.bytes = Text.encode "." then ⟨f.name⟩ else f.dir.child f.name

/-- Makes the directory of the file; none where that cannot be done. -/
def prepare? (f : File) (d : Disk) : Option Unit × Disk :=
  match d.makeDirs f.dir with
  | (.ok (), d) => (some (), d)
  | (.error _, d) => (none, d)

/-- What the file holds of messages. -/
def content (ms : List Message) : Bytes :=
  Text.encode (String.join (ms.map fun m => m.level.word ++ " " ++ m.part ++ "\n"))

/-- Adds messages at the end of the file; none where that cannot be done. -/
def append? (f : File) (ms : List Message) (d : Disk) : Option Disk :=
  let old := match d.read f.path with
    | .ok old => old
    | .error _ => []
  (d.write f.path (old ++ content ms)).toOption

end File

end Corpus.Log
