/-
Corpus/Disk/Absolute.lean

One spelling for a path.  What exists is named by its place; of anything else the path from
the root is written down without looking, so that a step up is kept.
-/
import Corpus.Disk.Basic

namespace Corpus

/-- The path begins with exactly two separators, which a system may give a meaning of its
own. -/
def Path.beginsWithTwo (p : Path) : Bool :=
  p.bytes.take 2 == [separator, separator] && p.bytes[2]? != some separator

namespace Disk

/-- The working directory as an absolute path. -/
def workingPath (d : Disk) : Path := .ofPlace d.workingDir

/-- The path from the root, without a look at the disk.  A separator at the end stays. -/
def absolute (d : Disk) (p : Path) : Path :=
  if p.bytes.isEmpty then p
  else
    let full :=
      if p.isAbsolute then
        let plain := Path.ofComponents p.components
        if p.beginsWithTwo then ⟨Path.separator :: plain.bytes⟩ else plain
      else
        match p.components.filter (· != .here) with
        | [] => d.workingPath
        | steps => d.workingPath.join (.ofComponents steps)
    if endsInSeparator p.bytes then full.join ⟨[]⟩ else full

/-- The spelling of a path that all paths to one existing thing share. -/
def normalize (d : Disk) (p : Path) : Path :=
  match d.realPath p with
  | .ok path => path
  | .error _ => d.absolute p

end Disk

end Corpus
