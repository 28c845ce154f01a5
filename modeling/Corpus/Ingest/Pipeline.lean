/-
Corpus/Ingest/Pipeline.lean

The pipeline of a job: the writer, the monitor, the disk, and the images that were left for
later under memory pressure.

Every task of the backlog leaves it once: adopted, or counted as a failure because its
adoption failed, its document never reached the index, or the job was interrupted.  The
job shows the length of the backlog after every change.
-/
import Corpus.Ingest.Thumbnails
import Corpus.Ingest.Writer

namespace Corpus

/-- Thumbnails to be adopted later. -/
structure ImageTask where
  staging : Path
  id : String
  deriving DecidableEq, Repr

/-- What taking up images led to. -/
structure DrainReport where
  adopted : Nat := 0
  failed : Nat := 0
  patchesSent : Nat := 0
  patchFailures : Nat := 0
  deriving DecidableEq, Repr, Inhabited

/-- How many tasks left the backlog. -/
def DrainReport.processed (r : DrainReport) : Nat := r.adopted + r.failed

/-- The state of a running job. -/
structure Pipeline (ε : Type) where
  writer : Writer ε
  monitor : Monitor
  disk : Disk
  thumbnails : Thumbnails
  deferred : DeferredSettings
  /-- The tasks left for later, oldest first. -/
  backlog : List ImageTask := []

namespace Pipeline

variable {ε : Type}

/-- Changes the job. -/
def report (p : Pipeline ε) (change : Job → Job) : Pipeline ε :=
  { p with writer := p.writer.report change }

/-- Sets the backlog, and the job's count of it. -/
def setBacklog (p : Pipeline ε) (tasks : List ImageTask) : Pipeline ε :=
  { p with backlog := tasks }.report (·.setDeferred tasks.length)

/-- Leaves a task for later. -/
def postpone (p : Pipeline ε) (task : ImageTask) : Pipeline ε :=
  p.setBacklog (p.backlog ++ [task])

/-- Adopts thumbnails. -/
def adopt (p : Pipeline ε) (staging : Path) (id : String) :
    Except AdoptError ImageMetadata × Pipeline ε :=
  let (result, disk) := p.thumbnails.adopt p.disk staging id
  (result, { p with disk })

/-- Counts a lost image set and says why. -/
def loseImages (p : Pipeline ε) (message : String) : Pipeline ε :=
  p.report fun job => (job.update .imageFailure).logError message

/-- Adopts the thumbnails of a task, unless its document was in a failed batch. -/
def perform (p : Pipeline ε) (task : ImageTask) : Option ImagePatch × Pipeline ε :=
  -- a patch would bring an object into the index that is nothing but its images
  if p.writer.isRejected task.id then
    (none, p.loseImages ("Thumbnails for " ++ task.id ++ ": document was not indexed"))
  else
    match p.adopt task.staging task.id with
    | (.ok images, p) => (some ⟨task.id, images⟩, p.report (·.update .image))
    | (.error e, p) => (none, p.loseImages ("Thumbnails for " ++ task.id ++ ": " ++ e.message))

variable [SearchEngine ε]

/-- Sends patches, if there are any. -/
def send (p : Pipeline ε) (patches : List ImagePatch) (r : DrainReport) :
    DrainReport × Pipeline ε :=
  if patches.isEmpty then (r, p)
  else
    match p.writer.patch patches with
    | (.ok (), writer) =>
      ({ r with patchesSent := r.patchesSent + patches.length }, { p with writer })
    -- the thumbnails are on the disk already; only the index lacks their fields
    | (.error e, writer) =>
      ({ r with patchFailures := r.patchFailures + 1 },
        { p with writer }.report (·.logError
          ("Image patch of " ++ toString patches.length ++ " documents failed: " ++ e.message)))

/-- Takes one task up: the patch it gives goes behind those collected. -/
def takeUp (p : Pipeline ε) (task : ImageTask) (rest : List ImageTask)
    (patches : List ImagePatch) (r : DrainReport) :
    List ImagePatch × DrainReport × Pipeline ε :=
  -- the task leaves the backlog whatever becomes of it
  match (p.setBacklog rest).perform task with
  | (some patch, p) => (patches ++ [patch], { r with adopted := r.adopted + 1 }, p)
  | (none, p) => (patches, { r with failed := r.failed + 1 }, p)

/-- Takes up to `n` tasks up. -/
def takeUpSome : Nat → Pipeline ε → List ImagePatch → DrainReport →
    List ImagePatch × DrainReport × Pipeline ε
  | 0, p, patches, r => (patches, r, p)
  | n + 1, p, patches, r =>
    match p.backlog with
    | [] => (patches, r, p)
    | task :: rest =>
      let (patches, r, p) := p.takeUp task rest patches r
      takeUpSome n p patches r

/-- Takes a chunk of the backlog up and sends its patches as one update. -/
def drainChunk (p : Pipeline ε) : DrainReport × Pipeline ε :=
  let (patches, r, p) := takeUpSome (max p.deferred.drainChunk.toNat 1) p [] {}
  p.send patches r

/-- Waits if memory is high and there is more to do. -/
def settle (p : Pipeline ε) : Pipeline ε :=
  if p.backlog.isEmpty then p
  else
    match p.monitor.aboveHigh with
    | (true, monitor) =>
      let wait := Span.ofMillis monitor.settings.cooldownRecheckWaitMs.toNat
      { p with monitor := (monitor.cooldown wait).2 }
    | (false, monitor) => { p with monitor }

/-- Takes all given tasks up, sending patches whenever a batch of them is full. -/
def drainTasks : List ImageTask → Pipeline ε → List ImagePatch → DrainReport →
    List ImagePatch × DrainReport × Pipeline ε
  | [], p, patches, r => (patches, r, p)
  | task :: rest, p, patches, r =>
    let (patches, r, p) := p.takeUp task rest patches r
    if max p.deferred.patchBatch.toNat 1 ≤ patches.length then
      let (r, p) := p.send patches r
      drainTasks rest p.settle [] r
    else drainTasks rest p patches r

/-- Takes the whole backlog up once memory has settled or the wait for it is over. -/
def drainAll (p : Pipeline ε) : DrainReport × Pipeline ε :=
  if p.backlog.isEmpty then ({}, p)
  else
    let wait := Span.ofMillis p.monitor.settings.cooldownMaxWaitMs.toNat
    let p := { p with monitor := (p.monitor.cooldown wait).2 }
    -- the images are taken up even if memory did not settle in time
    let (patches, r, p) := drainTasks p.backlog p [] {}
    p.send patches r

/-- Gives the whole backlog up and counts it as lost. -/
def abandon (p : Pipeline ε) (reason : String) : Nat × Pipeline ε :=
  let count := p.backlog.length
  if count = 0 then (0, p)
  else
    let p := p.report fun job => p.backlog.foldl (fun job _ => job.update .imageFailure) job
    (count, (p.setBacklog []).report (·.logError
      (toString count ++ " deferred images abandoned: " ++ reason)))

end Pipeline

end Corpus
