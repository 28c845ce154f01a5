/-
Corpus/Job/Store.lean

A job while its worker and its readers go on at once.  The worker stores one part of the job
at a time and a reader loads one part at a time, so the parts of a snapshot may come from
different moments.

The end of a job is stored last and its status is the last part of that, and a reader loads
the status first.  Hence a reader that finds the job over finds all other parts as they stay.
-/
import Corpus.Job.Snapshot

namespace Corpus

/-- The counters that only grow. -/
inductive Counter where
  | total
  | processed
  | indexed
  | failed
  | skipped
  | images
  | imagesFailed
  | imagesSkippedIcon
  | imagesSkippedNotFound
  deriving DecidableEq, Repr

/-- Adds to a counter. -/
def Tally.add (t : Tally) (n : UInt64) : Counter → Tally
  | .total => { t with total := t.total + n }
  | .processed => { t with processed := t.processed + n }
  | .indexed => { t with indexed := t.indexed + n }
  | .failed => { t with failed := t.failed + n }
  | .skipped => { t with skipped := t.skipped + n }
  | .images => { t with images := t.images + n }
  | .imagesFailed => { t with imagesFailed := t.imagesFailed + n }
  | .imagesSkippedIcon => { t with imagesSkippedIcon := t.imagesSkippedIcon + n }
  | .imagesSkippedNotFound => { t with imagesSkippedNotFound := t.imagesSkippedNotFound + n }

/-! ### The worker -/

/-- What a worker stores at once. -/
inductive Store where
  | added (c : Counter) (n : UInt64)
  | deferred (n : UInt64)
  | error (message : String)
  | fatalError (message : Option String)
  | finishedAt (time : Instant)
  | monitor (summary : Option MonitorSummary)
  | status (s : JobStatus)

/-- A job after a store. -/
def Job.store (job : Job) : Store → Job
  | .added c n => { job with tally := job.tally.add n c }
  | .deferred n => { job with tally := { job.tally with deferred := n } }
  | .error message => { job with errors := job.errors.push message }
  | .fatalError message => { job with fatalError := message }
  | .finishedAt time => { job with finishedAt := some time }
  | .monitor summary => { job with monitor := summary }
  | .status s => { job with status := s }

/-- The stores of an update, in order. -/
def JobUpdate.stores : JobUpdate → List Store
  | .discovered n => [.added .total n]
  | .indexed n => [.added .indexed n, .added .processed n]
  | .failed n => [.added .failed n, .added .processed n]
  | .skipped => [.added .skipped 1]
  | .image => [.added .images 1]
  | .imageFailure => [.added .imagesFailed 1]
  | .imageSkip .icon => [.added .imagesSkippedIcon 1]
  | .imageSkip .notFound => [.added .imagesSkippedNotFound 1]
  | .deferred n => [.deferred n]
  | .error message => [.error message]

/-- The stores of the end of a job, in order. -/
def Store.ofFinish (status : JobStatus) (fatal : Option String) (monitor : Option MonitorSummary)
    (now : Instant) : List Store :=
  [.fatalError fatal, .finishedAt now, .monitor monitor, .status status]

namespace Job

theorem foldl_store_stores (job : Job) (u : JobUpdate) :
    u.stores.foldl store job = job.update u := by
  cases u with
  | imageSkip reason => cases reason <;> rfl
  | _ => rfl

theorem foldl_store_ofFinish (job : Job) (status : JobStatus) (fatal : Option String)
    (monitor : Option MonitorSummary) (now : Instant) :
    (Store.ofFinish status fatal monitor now).foldl store job =
      job.finish status fatal monitor now := rfl

/-- A job at all moments of some stores, from before the first to after the last. -/
def moments (job : Job) : List Store → List Job
  | [] => [job]
  | s :: rest => job :: (job.store s).moments rest

end Job

/-! ### Readers -/

/-- The parts of a job that are loaded at once. -/
inductive Cell where
  | status
  | errors
  | counter (c : Counter)
  | deferred
  | fatalError
  | finishedAt
  | monitor
  deriving DecidableEq, Repr

/-- The order in which a reader loads the parts of a job. -/
def Cell.inOrder : List Cell :=
  [.status, .errors, .counter .total, .counter .processed, .counter .indexed, .counter .failed,
    .counter .skipped, .counter .images, .counter .imagesFailed, .counter .imagesSkippedIcon,
    .counter .imagesSkippedNotFound, .deferred, .fatalError, .finishedAt, .monitor]

/-- The snapshot of a reader that finds the job in a given state as it loads each part. -/
def Snapshot.assembled (found : Cell → Job) : Snapshot :=
  let start := found .status
  { id := start.id
    kind := start.kind
    target := start.target
    status := start.status
    tally :=
      { total := (found (.counter .total)).tally.total
        processed := (found (.counter .processed)).tally.processed
        indexed := (found (.counter .indexed)).tally.indexed
        failed := (found (.counter .failed)).tally.failed
        skipped := (found (.counter .skipped)).tally.skipped
        images := (found (.counter .images)).tally.images
        imagesFailed := (found (.counter .imagesFailed)).tally.imagesFailed
        imagesSkippedIcon := (found (.counter .imagesSkippedIcon)).tally.imagesSkippedIcon
        imagesSkippedNotFound :=
          (found (.counter .imagesSkippedNotFound)).tally.imagesSkippedNotFound
        deferred := (found .deferred).tally.deferred }
    errors := (found .errors).errors.entries
    errorsDropped := (found .errors).errors.dropped
    fatalError := (found .fatalError).fatalError
    startedAt := start.startedAt
    finishedAt := (found .finishedAt).finishedAt
    monitor := (found .monitor).monitor }

/-- A reader that is done before the worker goes on sees the job of one moment. -/
theorem Snapshot.assembled_const (job : Job) : assembled (fun _ => job) = job.snapshot := rfl

end Corpus
