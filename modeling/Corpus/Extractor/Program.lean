/-
Corpus/Extractor/Program.lean

Programs that the service starts.  What a program writes and how it ends depends on its
arguments alone; a program that cannot be started leaves the fault of the system.
-/
import Corpus.Disk.Basic

namespace Corpus

/-- How a program ended. -/
inductive Ending where
  | exited (code : Int)
  | signalled
  /-- It ended its output and goes on until it is killed. -/
  | stuck
  deriving DecidableEq, Repr

/-- What a program did. -/
structure Execution where
  output : Bytes := []
  diagnostics : Bytes := []
  ending : Ending := .exited 0
  deriving DecidableEq, Repr

/-- The programs that can be started by a name, each with what it does for given arguments. -/
structure Programs where
  find? : String → Option (List Bytes → Execution)

namespace Programs

/-- Starts a program.  A command without a slash has to be installed; one with a slash is a
path, and what lies on the disk may not be run. -/
def launch (ps : Programs) (d : Disk) (command : String) (args : List Bytes) :
    Except Fault Execution :=
  if (Text.encode command :: args).any (·.contains 0) then .error .zeroArgument
  else
    match ps.find? command with
    | some run => .ok (run args)
    | none =>
      if command.toList.contains '/' then
        match d.node? (.ofText command) with
        | .ok _ => .error .denied
        | .error fault => .error fault
      else .error .absent

end Programs

end Corpus
