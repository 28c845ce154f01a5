/-
Corpus/Disk/Basic.lean

A disk: a file tree, a working directory, and the operations of an operating system on
paths.

Paths are followed step by step, through symbolic links as often as the system allows.
An operation either fails and changes nothing or gives the changed disk.
-/
import Corpus.Disk.Fault
import Corpus.Disk.Path
import Corpus.Disk.Tree

namespace Corpus

/-- The absolute path of a place. -/
def Path.ofPlace (place : Place) : Path :=
  ⟨separator :: List.intercalate [separator] place⟩

/-- A file tree with a working directory and the places where other devices begin. -/
structure Disk where
  root : Node
  workingDir : Place
  mounts : List Place := []
  deriving Inhabited

/-- What a path leads to. -/
inductive Found where
  /-- A node at a place. -/
  | node (place : Place) (n : Node)
  /-- Nothing, at a place whose directory exists. -/
  | free (place : Place)

namespace Disk

/-- How many links one path may lead through. -/
def maxLinks : Nat := 40

/-- The longest name that an entry may have. -/
def maxName : Nat := 255

/-- The parts of a path between separators, less the empty ones. -/
def steps (path : Bytes) : List Bytes := (path.splitOn Path.separator).filter (!·.isEmpty)

/-- A path that ends in a separator means a directory. -/
def endsInSeparator (path : Bytes) : Bool := path.getLast? == some Path.separator

/-- Follows steps from a directory.  `follow` says whether a link at the end is followed, and
`dirOnly` that the path ends in a separator. -/
def walk (root : Node) (follow : Bool) (links : Nat) (dirOnly : Bool) (place : Place) :
    List Bytes → Except Fault Found
  | [] =>
    match root.at? place with
    | some n => .ok (.node place n)
    | none => .error .absent
  | step :: rest =>
    -- a step to `.` stays, one to `..` goes up, and at the top that stays too
    if step == [46] then walk root follow links dirOnly place rest
    else if step == [46, 46] then walk root follow links dirOnly place.dropLast rest
    else if maxName < step.length then .error .nameTooLong
    else
      match root.at? (place ++ [step]) with
      -- only the last step may lead to nothing
      | none => if rest.isEmpty then .ok (.free (place ++ [step])) else .error .absent
      | some (.dir es) =>
        if rest.isEmpty then .ok (.node (place ++ [step]) (.dir es))
        else walk root follow links dirOnly (place ++ [step]) rest
      | some (.file content) =>
        if rest.isEmpty && !dirOnly then .ok (.node (place ++ [step]) (.file content))
        else .error .notDirectory
      | some (.link target) =>
        if rest.isEmpty && !dirOnly && !follow then .ok (.node (place ++ [step]) (.link target))
        else
          match links with
          | 0 => .error .tooManyLinks
          | links + 1 =>
            if target.isEmpty then .error .absent
            else
              let start := if target.head? == some Path.separator then [] else place
              -- a separator behind the target asks for a directory like one behind the path
              walk root follow links (dirOnly || (rest.isEmpty && endsInSeparator target)) start
                (steps target ++ rest)
termination_by s => (links, s.length)

/-- What a path leads to, with a link at its end followed or not. -/
def resolve (d : Disk) (follow : Bool) (p : Path) : Except Fault Found :=
  if p.bytes.contains 0 then .error .zeroByte
  else if p.bytes.isEmpty then .error .absent
  else if 4096 ≤ p.bytes.length then .error .nameTooLong
  else
    walk d.root follow maxLinks (endsInSeparator p.bytes)
      (if p.isAbsolute then [] else d.workingDir) (steps p.bytes)

/-- The place and the node that a path leads to. -/
def find (d : Disk) (follow : Bool) (p : Path) : Except Fault (Place × Node) :=
  match d.resolve follow p with
  | .ok (.node place n) => .ok (place, n)
  | .ok (.free _) => .error .absent
  | .error e => .error e

/-! ### Questions -/

/-- The node that a path leads to, through links. -/
def node? (d : Disk) (p : Path) : Except Fault Node := (d.find true p).map (·.2)

/-- There is something. -/
def exists? (d : Disk) (p : Path) : Bool := (d.node? p).isOk

/-- There is a directory. -/
def isDir (d : Disk) (p : Path) : Bool :=
  match d.node? p with
  | .ok (.dir _) => true
  | _ => false

/-- There is a file. -/
def isFile (d : Disk) (p : Path) : Bool :=
  match d.node? p with
  | .ok (.file _) => true
  | _ => false

/-- The bytes of a file. -/
def read (d : Disk) (p : Path) : Except Fault Bytes :=
  match d.node? p with
  | .ok (.file content) => .ok content
  | .ok _ => .error .isDirectory
  | .error e => .error e

/-- The entries of a directory. -/
def list (d : Disk) (p : Path) : Except Fault (List (Bytes × Node)) :=
  match d.node? p with
  | .ok (.dir es) => .ok es
  | .ok _ => .error .notDirectory
  | .error e => .error e

/-- The written places of all nodes below a directory, those of directories with a separator at
the end. -/
def listing (d : Disk) (p : Path) : List String :=
  match d.node? p with
  | .ok top =>
    (top.descendants []).map fun (place, n) =>
      Text.decodeLossy (List.intercalate [Path.separator] place) ++ if n.isDir then "/" else ""
  | .error _ => []

/-- The place of what a path leads to, as an absolute path without links. -/
def realPath (d : Disk) (p : Path) : Except Fault Path :=
  (d.find true p).map fun (place, _) => .ofPlace place

/-! ### Changes -/

/-- Puts a node at a place. -/
def put (d : Disk) (place : Place) (n : Node) : Disk := { d with root := d.root.put place n }

/-- Takes away the node at a place. -/
def erase (d : Disk) (place : Place) : Disk := { d with root := d.root.erase place }

/-- Makes a file with the given bytes, or replaces those of an old one. -/
def write (d : Disk) (p : Path) (content : Bytes) : Except Fault Disk :=
  match d.resolve true p with
  | .ok (.node place (.file _)) => .ok (d.put place (.file content))
  | .ok (.node _ _) => .error .isDirectory
  | .ok (.free place) =>
    if endsInSeparator p.bytes then .error .isDirectory else .ok (d.put place (.file content))
  | .error e => .error e

/-- Makes a directory. -/
def makeDir (d : Disk) (p : Path) : Except Fault Disk :=
  match d.resolve false p with
  | .ok (.node _ _) => .error .present
  | .ok (.free place) => .ok (d.put place (.dir []))
  | .error e => .error e

/-- Makes a directory if there is none, and says what became of it. -/
def settleDir (d : Disk) (p : Path) : Except Fault Unit × Disk :=
  match d.makeDir p with
  | .ok d => (.ok (), d)
  | .error e => if d.isDir p then (.ok (), d) else (.error e, d)

/-- Makes a directory and those above it.  `fuel` bounds the number of steps upwards. -/
def makeDirsFrom : Nat → Disk → Path → Except Fault Unit × Disk
  | 0, d, _ => (.error .absent, d)
  | fuel + 1, d, p =>
    if p.bytes.isEmpty then (.ok (), d)
    else
      match d.makeDir p with
      | .ok d => (.ok (), d)
      -- what is above is missing, and is made first
      | .error .absent =>
        match p.parent? with
        | none => (.error .absent, d)
        | some parent =>
          match makeDirsFrom fuel d parent with
          | (.ok (), d) => d.settleDir p
          | (.error e, d) => (.error e, d)
      | .error e => if d.isDir p then (.ok (), d) else (.error e, d)

/-- Makes a directory and those above it. -/
def makeDirs (d : Disk) (p : Path) : Except Fault Unit × Disk :=
  makeDirsFrom (p.bytes.length + 1) d p

/-- Removes a file or a link. -/
def removeFile (d : Disk) (p : Path) : Except Fault Disk :=
  match d.find false p with
  | .ok (_, .dir _) => .error .isDirectory
  | .ok (place, _) => .ok (d.erase place)
  | .error e => .error e

/-- Removes a directory with all it holds, or a link. -/
def removeDir (d : Disk) (p : Path) : Except Fault Disk :=
  match d.find false p with
  | .ok (_, .file _) => .error .notDirectory
  | .ok (place, _) => .ok (d.erase place)
  | .error e => .error e

/-- The device of a place: the longest of the mounts above it. -/
def device (d : Disk) (place : Place) : Place :=
  (d.mounts.filter (·.isPrefixOf place)).foldl
    (fun best m => if best.length < m.length then m else best) []

/-- The last step of a path names an entry. -/
def namesEntry (p : Path) : Bool :=
  match (steps p.bytes).getLast? with
  | some step => step != [46] && step != [46, 46]
  | none => false

/-- Whether a node may take the place of another one. -/
def mayReplace (moved old : Node) : Except Fault Unit :=
  match moved, old with
  | .dir _, .dir [] => .ok ()
  | .dir _, .dir _ => .error .notEmpty
  | .dir _, _ => .error .notDirectory
  | _, .dir _ => .error .isDirectory
  | _, _ => .ok ()

/-- Moves a node to another path on the same device, over an old file or an empty directory. -/
def rename (d : Disk) (source target : Path) : Except Fault Disk := do
  let (origin, moved) ← d.find false source
  let found ← d.resolve false target
  -- a path that ends in `.` or `..` names no entry that could be moved
  if !namesEntry source || !namesEntry target then .error .busy
  let goal := match found with
    | .node place _ => place
    | .free place => place
  if d.device origin ≠ d.device goal then .error .otherDevice
  if origin = goal then .ok d
  else if origin.isPrefixOf goal then .error .invalid
  else
    match found with
    | .node _ old =>
      mayReplace moved old
      .ok ((d.erase origin).put goal moved)
    | .free _ =>
      if endsInSeparator target.bytes && !moved.isDir then .error .notDirectory
      .ok ((d.erase origin).put goal moved)

end Disk

end Corpus
