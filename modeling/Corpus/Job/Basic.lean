/-
Corpus/Job/Basic.lean

Jobs: the progress record of one run over a folder or an archive.

A job has one writer, the run that it stands for.  Its counters only move by the updates
below; the status is the last thing that a finishing run sets.
-/
import Corpus.Disk.Path
import Corpus.Document.Record
import Corpus.Job.ErrorLog
import Corpus.Pressure.Monitor
import Corpus.Time.Instant

namespace Corpus

/-- What a job works on. -/
inductive JobKind where
  | folderSync
  | archiveIndex
  deriving DecidableEq, Repr, Inhabited

namespace JobKind

/-- The word for a kind of job. -/
def word : JobKind → String
  | .folderSync => "folder-sync"
  | .archiveIndex => "archive-index"

/-- The kind that a word stands for. -/
def ofWord? (s : String) : Option JobKind :=
  if s = "folder-sync" then some .folderSync
  else if s = "archive-index" then some .archiveIndex
  else none

end JobKind

/-- How far a job is. -/
inductive JobStatus where
  | running
  | completed
  | failed
  deriving DecidableEq, Repr, Inhabited

namespace JobStatus

/-- The job will not change any more. -/
def isTerminal : JobStatus → Bool
  | .running => false
  | _ => true

/-- The word for a status. -/
def word : JobStatus → String
  | .running => "running"
  | .completed => "completed"
  | .failed => "failed"

/-- The status that a word stands for. -/
def ofWord? (s : String) : Option JobStatus :=
  if s = "running" then some .running
  else if s = "completed" then some .completed
  else if s = "failed" then some .failed
  else none

end JobStatus

/-- The counters of a job. -/
structure Tally where
  /-- Records announced by the source. -/
  total : UInt64 := 0
  /-- Records settled, in the index or not. -/
  processed : UInt64 := 0
  indexed : UInt64 := 0
  failed : UInt64 := 0
  /-- Entries that were never announced. -/
  skipped : UInt64 := 0
  /-- Image sets adopted. -/
  images : UInt64 := 0
  /-- Image sets lost. -/
  imagesFailed : UInt64 := 0
  imagesSkippedIcon : UInt64 := 0
  imagesSkippedNotFound : UInt64 := 0
  /-- Image sets waiting. -/
  deferred : UInt64 := 0
  deriving DecidableEq, Repr, Inhabited

/-- One change of a running job. -/
inductive JobUpdate where
  | discovered (n : UInt64)
  | indexed (n : UInt64)
  | failed (n : UInt64)
  | skipped
  | image
  | imageFailure
  | imageSkip (reason : ImageSkip)
  | deferred (n : UInt64)
  | error (message : String)
  deriving DecidableEq, Repr

/-- The progress record of one run. -/
structure Job where
  id : String
  kind : JobKind
  target : Path
  startedAt : Instant := default
  status : JobStatus := .running
  tally : Tally := {}
  errors : ErrorLog
  fatalError : Option String := none
  finishedAt : Option Instant := none
  monitor : Option MonitorSummary := none
  deriving Repr

namespace Job

/-- A job that has just begun. -/
def start (id : String) (kind : JobKind) (target : Path) (errorCapacity : Nat)
    (now : Instant) : Job :=
  { id, kind, target, startedAt := now, errors := .empty errorCapacity }

/-- The effect of an update on the counters. -/
def updateTally (t : Tally) : JobUpdate → Tally
  | .discovered n => { t with total := t.total + n }
  | .indexed n => { t with indexed := t.indexed + n, processed := t.processed + n }
  | .failed n => { t with failed := t.failed + n, processed := t.processed + n }
  | .skipped => { t with skipped := t.skipped + 1 }
  | .image => { t with images := t.images + 1 }
  | .imageFailure => { t with imagesFailed := t.imagesFailed + 1 }
  | .imageSkip .icon => { t with imagesSkippedIcon := t.imagesSkippedIcon + 1 }
  | .imageSkip .notFound => { t with imagesSkippedNotFound := t.imagesSkippedNotFound + 1 }
  | .deferred n => { t with deferred := n }
  | .error _ => t

/-- The effect of an update. -/
def update (job : Job) (u : JobUpdate) : Job :=
  { job with
    tally := updateTally job.tally u
    errors :=
      match u with
      | .error message => job.errors.push message
      | _ => job.errors }

/-- Announces records. -/
def discovered (job : Job) (n : UInt64) : Job := job.update (.discovered n)

/-- Settles records as indexed. -/
def indexed (job : Job) (n : UInt64) : Job := job.update (.indexed n)

/-- Settles records as failed. -/
def failed (job : Job) (n : UInt64) : Job := job.update (.failed n)

/-- Adds a message to the error log. -/
def logError (job : Job) (message : String) : Job := job.update (.error message)

/-- Shows how many image sets wait. -/
def setDeferred (job : Job) (n : Nat) : Job := job.update (.deferred (UInt64.ofNat n))

/-- Ends the job. -/
def finish (job : Job) (status : JobStatus) (fatal : Option String)
    (monitor : Option MonitorSummary) (now : Instant) : Job :=
  { job with fatalError := fatal, finishedAt := some now, monitor := monitor, status := status }

/-- Ends the job well. -/
def complete (job : Job) (monitor : Option MonitorSummary) (now : Instant) : Job :=
  job.finish .completed none monitor now

/-- Ends the job badly. -/
def fail (job : Job) (message : String) (monitor : Option MonitorSummary) (now : Instant) : Job :=
  job.finish .failed (some message) monitor now

end Job

end Corpus
