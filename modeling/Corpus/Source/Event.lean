/-
Corpus/Source/Event.lean

What sources tell the worker, and how they end.

A source is a finite sequence of events together with the outcome that it reports when the
worker stops listening after some of them.
-/
import Corpus.Disk.Path
import Corpus.Document.Basic

namespace Corpus

/-- What a source tells the worker. -/
inductive Event where
  /-- So many more records will come. -/
  | discovered (n : UInt64)
  /-- An entry was passed over. -/
  | skipped (entry : String)
  /-- A record. -/
  | record (r : Record)
  /-- A record that was announced could not be made. -/
  | failed (entry reason : String)
  /-- A problem that concerns no record. -/
  | notice (message : String)
  deriving DecidableEq, Repr

/-- The event is a record. -/
def Event.isRecord : Event → Bool
  | .record _ => true
  | _ => false

/-- How a source ended. -/
structure Outcome where
  /-- The records that it gave. -/
  records : UInt64 := 0
  /-- What should be noted. -/
  anomaly : Option String := none
  /-- What makes the job fail. -/
  fatal : Option String := none
  deriving DecidableEq, Repr, Inhabited

/-- A source that is open. -/
structure Source where
  provenance : Provenance
  events : List Event
  /-- The outcome after so many events were taken. -/
  finish : Nat → Outcome

/-- Why a source cannot be opened. -/
inductive SourceError where
  | notFound (target : Path)
  | unsupportedArchive (target : Path)
  /-- The extractor could not be started, for the reason given. -/
  | spawn (command reason : String)
  | io (reason : String)
  deriving DecidableEq, Repr

/-- What is said of a source that cannot be opened. -/
def SourceError.message : SourceError → String
  | .notFound target => "Target not found: " ++ target.shown
  | .unsupportedArchive target => "Unsupported archive type: " ++ target.shown
  | .spawn command reason => "Could not run extractor \x60" ++ command ++ "\x60: " ++ reason
  | .io reason => "IO error: " ++ reason

end Corpus
