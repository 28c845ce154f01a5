/-
Corpus/Ingest/Writer.lean

The writer: collects documents into batches and commits them.

A batch is submitted once and its task is awaited before anything else happens.  A batch
that is refused, fails or takes too long counts as failed as a whole, and the writer
remembers the identifiers in it; nothing is submitted twice.
-/
import Corpus.Engine.Basic
import Corpus.Job.Basic

namespace Corpus

/-- How many documents a commit held, and whether it succeeded. -/
structure FlushReport where
  documents : Nat
  committed : Bool
  deriving DecidableEq, Repr

/-- What a writer did so far. -/
structure WriterStats where
  batches : UInt64 := 0
  failedBatches : UInt64 := 0
  documentsCommitted : UInt64 := 0
  patchesCommitted : UInt64 := 0
  deriving DecidableEq, Repr, Inhabited

/-- A writer with the engine it commits to and the job it reports to. -/
structure Writer (ε : Type) where
  engine : ε
  job : Job
  /-- How long the commit of a batch may take. -/
  commitTimeout : Span
  /-- How long an update of image fields may take. -/
  maintenanceTimeout : Span
  /-- Documents of the batch being collected, oldest first. -/
  pending : List Document := []
  /-- Identifiers of documents in failed batches. -/
  rejected : List String := []
  stats : WriterStats := {}

/-- Submits work and waits for its task. -/
def SearchEngine.commit {ε : Type} [SearchEngine ε] (limit : Span)
    (submitted : Except EngineError UInt64 × ε) : Except EngineError Unit × ε :=
  match submitted with
  | (.error e, engine) => (.error e, engine)
  | (.ok task, engine) => SearchEngine.await engine task limit

namespace Writer

variable {ε : Type}

/-- Changes the job. -/
def report (w : Writer ε) (change : Job → Job) : Writer ε := { w with job := change w.job }

/-- The document was part of a batch that failed. -/
def isRejected (w : Writer ε) (id : String) : Bool := w.rejected.contains id

variable [SearchEngine ε]

/-- Commits what is pending, if there is anything. -/
def flush (w : Writer ε) : Option FlushReport × Writer ε :=
  if w.pending.isEmpty then (none, w)
  else
    let batch := w.pending
    let count := UInt64.ofNat batch.length
    let (result, engine) := SearchEngine.commit w.commitTimeout (SearchEngine.add w.engine batch)
    let stats := { w.stats with batches := w.stats.batches + 1 }
    -- whichever way it went, nothing of the batch stays pending
    match result with
    | .ok () =>
      (some ⟨batch.length, true⟩,
        { w with
          engine
          pending := []
          job := w.job.indexed count
          stats := { stats with documentsCommitted := stats.documentsCommitted + count } })
    | .error e =>
      (some ⟨batch.length, false⟩,
        { w with
          engine
          pending := []
          rejected := w.rejected ++ batch.map (·.id)
          job :=
            (w.job.failed count).logError
              ("Batch of " ++ toString batch.length ++ " documents failed: " ++ e.message)
          stats := { stats with failedBatches := stats.failedBatches + 1 } })

/-- Takes a document, and commits once `size` documents are pending. -/
def push (w : Writer ε) (d : Document) (size : UInt64) : Option FlushReport × Writer ε :=
  let w := { w with pending := w.pending ++ [d] }
  -- a size of zero commits each document by itself
  if max size.toNat 1 ≤ w.pending.length then w.flush else (none, w)

/-- Updates image fields. -/
def patch (w : Writer ε) (ps : List ImagePatch) : Except EngineError Unit × Writer ε :=
  if ps.isEmpty then (.ok (), w)
  else
    let (result, engine) :=
      SearchEngine.commit w.maintenanceTimeout (SearchEngine.update w.engine ps)
    match result with
    | .ok () =>
      (.ok (),
        { w with
          engine
          stats :=
            { w.stats with
              patchesCommitted := w.stats.patchesCommitted + UInt64.ofNat ps.length } })
    | .error e => (.error e, { w with engine })

end Writer

end Corpus
