/-
Corpus/Ingest/Worker.lean

The worker of a job: takes the events of its source one by one, makes documents of records,
and reports everything it learns to the job.

An interruption is noticed between two events.  Afterwards no event is handled, the pending
batch is committed, and the images left for later are given up.  Without one, the images are
taken up at the end.
-/
import Corpus.Ingest.Pipeline
import Corpus.Settings.Basic
import Corpus.Source.Event

namespace Corpus

/-- What a job stopped by a shutdown fails with. -/
def interruption : String := "interrupted by shutdown"

/-- What a worker knows besides its pipeline. -/
structure Worker where
  provenance : Provenance
  ingest : IngestSettings
  deriving Repr

/-- What became of the events of a source: the pipeline after them, how many were handled, and
whether an interruption stopped the worker. -/
structure Consumption (ε : Type) where
  pipeline : Pipeline ε
  handled : Nat
  interrupted : Bool

namespace Worker

variable {ε : Type}

/-- Counts the reason why a record has no images. -/
def noteSkip (r : Record) (p : Pipeline ε) : Pipeline ε :=
  match r.imageSkip? with
  | some reason => p.report (·.update (.imageSkip reason))
  | none => p

/-- The record has enough text to be a document. -/
def isSubstantial (w : Worker) (r : Record) : Bool :=
  w.ingest.minTextChars.toNat ≤ r.meaningfulChars

/-- Settles a record that has too little text. -/
def refuse (r : Record) (p : Pipeline ε) : Pipeline ε :=
  p.report fun job =>
    (job.failed 1).logError
      (r.path ++ ": text too short (" ++ toString r.meaningfulChars ++ " chars)")

/-- Takes up the thumbnails of a record, now or later. -/
def attachImages (r : Record) (d : Document) (p : Pipeline ε) : Document × Pipeline ε :=
  match r.staging? with
  | none => (d, p)
  | some staging =>
    let staging := Path.ofText staging
    if p.monitor.control.deferImages then (d, p.postpone ⟨staging, d.id⟩)
    else
      match p.adopt staging d.id with
      | (.ok images, p) => ({ d with images }, p.report (·.update .image))
      | (.error e, p) => (d, p.loseImages ("Thumbnails for " ++ r.path ++ ": " ++ e.message))

variable [SearchEngine ε]

/-- Takes a chunk of images up after a commit, if memory allows it.  Then every document with
images left for later has been committed or rejected. -/
def catchUp (p : Pipeline ε) : Pipeline ε :=
  if !p.backlog.isEmpty && p.monitor.isCalm then p.drainChunk.2 else p

/-- Hands a document to the writer. -/
def write (d : Document) (p : Pipeline ε) : Pipeline ε :=
  match p.writer.push d p.monitor.control.batchSize with
  | (some _, writer) => catchUp { p with writer }
  | (none, writer) => { p with writer }

/-- Handles a record. -/
def handleRecord (w : Worker) (r : Record) (p : Pipeline ε) : Pipeline ε :=
  -- every record counts for the monitor, with or without enough text
  let p := noteSkip r { p with monitor := p.monitor.check }
  if w.isSubstantial r then
    let d := Document.ofRecord w.provenance r w.ingest.maxContentChars.toNat
    let (d, p) := attachImages r d p
    write d p
  else refuse r p

/-- Handles an event. -/
def handle (w : Worker) (p : Pipeline ε) : Event → Pipeline ε
  | .discovered n => p.report (·.discovered n)
  | .skipped _ => p.report (·.update .skipped)
  | .failed entry reason =>
    p.report fun job => (job.failed 1).logError (entry ++ ": " ++ reason)
  | .notice message => p.report (·.logError message)
  | .record r => w.handleRecord r p

/-- Handles events until there are no more or an interruption is noticed.  Whether there is one
may depend on the engine and on how many events were handled. -/
def consumeFrom (w : Worker) (interrupt : ε → Nat → Bool) (handled : Nat) (p : Pipeline ε) :
    List Event → Consumption ε
  | [] => ⟨p, handled, interrupt p.writer.engine handled⟩
  | e :: rest =>
    if interrupt p.writer.engine handled then ⟨p, handled, true⟩
    else w.consumeFrom interrupt (handled + 1) (w.handle p e) rest

/-- Handles the events of a source. -/
def consume (w : Worker) (interrupt : ε → Nat → Bool) (events : List Event) (p : Pipeline ε) :
    Consumption ε :=
  w.consumeFrom interrupt 0 p events

/-- Commits what is pending, and takes up or gives up what was left for later. -/
def settle (interrupted : Bool) (p : Pipeline ε) : Pipeline ε :=
  let p := { p with writer := p.writer.flush.2 }
  if interrupted then (p.abandon interruption).2 else p.drainAll.2

/-- Ends the job.  An interruption is the cause of whatever the source fails with. -/
def conclude (outcome : Outcome) (interrupted : Bool) (now : Instant) (p : Pipeline ε) :
    Pipeline ε :=
  let summary := some p.monitor.summary
  if interrupted then
    p.report fun job =>
      -- a killed extractor looks fatal, but the interruption is the cause
      let job := match outcome.fatal with
        | some fatal => job.logError fatal
        | none => job
      job.fail interruption summary now
  else
    match outcome.fatal with
    | some fatal => p.report (·.fail fatal summary now)
    | none =>
      p.report fun job =>
        let job := match outcome.anomaly with
          | some anomaly => job.logError anomaly
          | none => job
        job.complete summary now

/-- Runs a job over a source. -/
def run (w : Worker) (interrupt : ε → Nat → Bool) (source : Source) (now : Instant)
    (p : Pipeline ε) : Pipeline ε :=
  let c := w.consume interrupt source.events p
  conclude (source.finish c.handled) c.interrupted now (settle c.interrupted c.pipeline)

end Worker

end Corpus
