/-
Corpus/Proofs/Chronicle.lean

The chronicle of a run: all that the run tells its job, in the order in which it does.

An entry is one update of the job.  Those that settle an image set name its task: its thumbnails
were adopted, their adoption failed, or the task was dropped untried because its document was
rejected or the run was interrupted.  The entries of every function of a run are defined beside
it, and the main results say that the job moves by them alone:

    job after the function  =  (job before it).told (entries of the function)

(`Worker.job_handle`, `Worker.job_settle`, `Worker.job_run`).  The end of the job comes after the
last entry, and so the whole of a run is a list of single stores (`Ingestion.foldl_stores`).

What relates states to the entries between them, composes, and is obeyed by every single step is
obeyed by the drains and by the writing of a document too (`Pipeline.Law`).

A store that leaves its part of the job as it is goes unlisted, for nobody can tell that it was
made: the length of the backlog is stored once more when a drain finds nothing left.
-/
import Corpus.Ingest.Run
import Corpus.Job.Store
import Corpus.Proofs.Foresight

namespace Corpus

/-- The update settles an image set. -/
def JobUpdate.settlesImages : JobUpdate → Bool
  | .image | .imageFailure => true
  | _ => false

/-- An update that a run makes of its job. -/
inductive Entry where
  /-- An update that settles no image set. -/
  | told (u : JobUpdate) (plain : u.settlesImages = false)
  /-- The thumbnails of a task are adopted. -/
  | adopted (task : ImageTask)
  /-- The adoption of the thumbnails of a task fails. -/
  | failed (task : ImageTask)
  /-- A task is given up untried. -/
  | dropped (task : ImageTask)

/-- What the job is told. -/
def Entry.update : Entry → JobUpdate
  | .told u _ => u
  | .adopted _ => .image
  | .failed _ | .dropped _ => .imageFailure

/-- The job after some entries. -/
def Job.told (job : Job) (entries : List Entry) : Job :=
  entries.foldl (fun job entry => job.update entry.update) job

namespace Job

@[simp] theorem told_nil (job : Job) : job.told [] = job := rfl

@[simp] theorem told_cons (job : Job) (entry : Entry) (entries : List Entry) :
    job.told (entry :: entries) = (job.update entry.update).told entries := rfl

@[simp] theorem told_append (job : Job) (first second : List Entry) :
    job.told (first ++ second) = (job.told first).told second :=
  List.foldl_append

end Job

variable {ε : Type}

/-! ### Writers -/

/-- Committing what is pending. -/
def Writer.flushEntries [SearchEngine ε] (w : Writer ε) : List Entry :=
  if w.pending.isEmpty then []
  else
    match (SearchEngine.commit w.commitTimeout (SearchEngine.add w.engine w.pending)).1 with
    | .ok () => [.told (.indexed (UInt64.ofNat w.pending.length)) rfl]
    | .error e =>
      [.told (.failed (UInt64.ofNat w.pending.length)) rfl,
        .told (.error ("Batch of " ++ toString w.pending.length ++ " documents failed: " ++
          e.message)) rfl]

theorem Writer.job_flush [SearchEngine ε] (w : Writer ε) :
    w.flush.2.job = w.job.told w.flushEntries := by
  rcases w.flush_cases with ⟨hp, h⟩ | ⟨hp, _, _, hc, h⟩ | ⟨hp, _, _, _, hc, h⟩
  · rw [h, flushEntries, hp]
    rfl
  · rw [h, flushEntries, if_neg (by simpa using hp), hc]
    rfl
  · rw [h, flushEntries, if_neg (by simpa using hp), hc]
    rfl

/-! ### Pipelines -/

namespace Pipeline

/-- Adopting the thumbnails of a task, which is called by a name. -/
def adoptEntries (p : Pipeline ε) (task : ImageTask) (name : String) : List Entry :=
  match (p.thumbnails.adopt p.disk task.staging task.id).1 with
  | .ok _ => [.adopted task]
  | .error e =>
    [.failed task, .told (.error ("Thumbnails for " ++ name ++ ": " ++ e.message)) rfl]

/-- Taking a task up. -/
def takeUpEntries (p : Pipeline ε) (task : ImageTask) (rest : List ImageTask) : List Entry :=
  .told (.deferred (UInt64.ofNat rest.length)) rfl ::
    if p.writer.isRejected task.id then
      [.dropped task,
        .told (.error ("Thumbnails for " ++ task.id ++ ": document was not indexed")) rfl]
    else p.adoptEntries task task.id

/-- Taking up to `n` tasks up. -/
def someEntries : Nat → Pipeline ε → List ImagePatch → DrainReport → List Entry
  | 0, _, _, _ => []
  | n + 1, p, patches, r =>
    match p.backlog with
    | [] => []
    | task :: rest =>
      p.takeUpEntries task rest ++ someEntries n (p.takeUp task rest patches r).2.2
        (p.takeUp task rest patches r).1 (p.takeUp task rest patches r).2.1

/-- Giving the backlog up. -/
def abandonEntries (p : Pipeline ε) (reason : String) : List Entry :=
  if p.backlog.isEmpty then []
  else
    p.backlog.map .dropped ++
      [.told (.deferred 0) rfl,
        .told (.error (toString p.backlog.length ++ " deferred images abandoned: " ++ reason)) rfl]

variable [SearchEngine ε]

/-- Sending patches. -/
def sendEntries (p : Pipeline ε) (patches : List ImagePatch) : List Entry :=
  match (p.writer.patch patches).1 with
  | .ok () => []
  | .error e =>
    [.told (.error
      ("Image patch of " ++ toString patches.length ++ " documents failed: " ++ e.message)) rfl]

/-- Taking a chunk up. -/
def chunkEntries (p : Pipeline ε) : List Entry :=
  someEntries (max p.deferred.drainChunk.toNat 1) p [] {} ++
    (takeUpSome (max p.deferred.drainChunk.toNat 1) p [] {}).2.2.sendEntries
      (takeUpSome (max p.deferred.drainChunk.toNat 1) p [] {}).1

/-- Taking all given tasks up and sending their patches, the last ones included. -/
def taskEntries : List ImageTask → Pipeline ε → List ImagePatch → DrainReport → List Entry
  | [], p, patches, _ => p.sendEntries patches
  | task :: rest, p, patches, r =>
    let (patches', r', q) := p.takeUp task rest patches r
    p.takeUpEntries task rest ++
      if max q.deferred.patchBatch.toNat 1 ≤ patches'.length then
        q.sendEntries patches' ++
          taskEntries rest (q.send patches' r').2.settle [] (q.send patches' r').1
      else taskEntries rest q patches' r'

/-- Taking the whole backlog up. -/
def drainEntries (p : Pipeline ε) : List Entry :=
  if p.backlog.isEmpty then [] else taskEntries p.backlog p.rested [] {}

/-! ### Laws of a run -/

/-- A law of runs relates a state, the entries that a run makes from there on, and the state that
it comes to.  It composes, and every single step obeys it. -/
structure Law (R : Pipeline ε → List Entry → Pipeline ε → Prop) : Prop where
  trans : ∀ {p q s : Pipeline ε} {first second : List Entry},
    R p first q → R q second s → R p (first ++ second) s
  /-- A step of which neither the engine nor the job hears, and which moves no images. -/
  quiet : ∀ {p q : Pipeline ε}, q.writer.engine = p.writer.engine → q.writer.job = p.writer.job →
    q.thumbnails = p.thumbnails → q.disk = p.disk → q.backlog = p.backlog → R p [] q
  takeUp : ∀ (p : Pipeline ε) {task : ImageTask} {rest : List ImageTask},
    p.backlog = task :: rest → ∀ (patches : List ImagePatch) (r : DrainReport),
      R p (p.takeUpEntries task rest) (p.takeUp task rest patches r).2.2
  send : ∀ (p : Pipeline ε) (patches : List ImagePatch) (r : DrainReport),
    R p (p.sendEntries patches) (p.send patches r).2
  flush : ∀ p : Pipeline ε, R p p.writer.flushEntries { p with writer := p.writer.flush.2 }

namespace Law

variable {R : Pipeline ε → List Entry → Pipeline ε → Prop} (law : Law R)

include law

theorem takeUpSome (n : Nat) :
    ∀ (p : Pipeline ε) (patches : List ImagePatch) (r : DrainReport),
      R p (someEntries n p patches r) (Pipeline.takeUpSome n p patches r).2.2 := by
  induction n with
  | zero => exact fun p _ _ => law.quiet rfl rfl rfl rfl rfl
  | succ n ih =>
    intro p patches r
    rw [Pipeline.takeUpSome, someEntries]
    cases hb : p.backlog with
    | nil => exact law.quiet rfl rfl rfl rfl rfl
    | cons task rest => exact law.trans (law.takeUp p hb patches r) (ih _ _ _)

theorem drainChunk (p : Pipeline ε) : R p p.chunkEntries p.drainChunk.2 :=
  law.trans (law.takeUpSome _ p [] {}) (law.send _ _ _)

theorem drainTasks (tasks : List ImageTask) :
    ∀ (p : Pipeline ε) (patches : List ImagePatch) (r : DrainReport), p.backlog = tasks →
      let drained := Pipeline.drainTasks tasks p patches r
      R p (taskEntries tasks p patches r) (drained.2.2.send drained.1 drained.2.1).2 := by
  induction tasks with
  | nil => exact fun p patches r _ => law.send p patches r
  | cons task rest ih =>
    intro p patches r hb
    have hone := law.takeUp p hb patches r
    have hrest := (takeUp_frame p task rest patches r).2.2.2.1
    rw [Pipeline.drainTasks, taskEntries]
    generalize p.takeUp task rest patches r = taken at hone hrest ⊢
    obtain ⟨patches', r', q⟩ := taken
    dsimp only at hone hrest ⊢
    split
    · -- a full batch of patches is sent, and the run may wait for memory
      obtain ⟨monitor, hsettled⟩ := settle_eq (q.send patches' r').2
      have hkept := (send_frame q patches' r').2.2.1
      have hwatched : R (q.send patches' r').2 [] ((q.send patches' r').2.watch monitor) :=
        law.quiet rfl rfl rfl rfl rfl
      rw [hsettled]
      exact law.trans hone (law.trans (law.send q patches' r')
        (law.trans hwatched (ih _ _ _ (hkept.trans hrest))))
    · exact law.trans hone (ih q patches' r' hrest)

theorem drainAll (p : Pipeline ε) : R p p.drainEntries p.drainAll.2 := by
  cases hempty : p.backlog.isEmpty with
  | true =>
    rw [drainAll_of_isEmpty hempty, drainEntries, if_pos hempty]
    exact law.quiet rfl rfl rfl rfl rfl
  | false =>
    have hrested : R p [] p.rested :=
      law.quiet (by rw [rested_writer]) (by rw [rested_writer]) p.rested_thumbnails p.rested_disk
        p.rested_backlog
    rw [drainAll_of_not_isEmpty hempty, drainEntries, if_neg (by simp [hempty])]
    exact law.trans hrested (law.drainTasks p.backlog p.rested [] {} p.rested_backlog)

end Law

/-! ### What the job is told -/

omit [SearchEngine ε] in
theorem job_takeUp (p : Pipeline ε) (task : ImageTask) (rest : List ImageTask)
    (patches : List ImagePatch) (r : DrainReport) :
    (p.takeUp task rest patches r).2.2.writer.job =
      p.writer.job.told (p.takeUpEntries task rest) := by
  rcases takeUp_cases p task rest patches r with
    ⟨hrej, h⟩ | ⟨hrej, images, disk, hadopt, h⟩ | ⟨hrej, fault, disk, hadopt, h⟩
  · rw [h, takeUpEntries, if_pos hrej]
    rfl
  · rw [h, takeUpEntries, if_neg (by simp [hrej]), adoptEntries, hadopt]
    rfl
  · rw [h, takeUpEntries, if_neg (by simp [hrej]), adoptEntries, hadopt]
    rfl

theorem job_send (p : Pipeline ε) (patches : List ImagePatch) (r : DrainReport) :
    (p.send patches r).2.writer.job = p.writer.job.told (p.sendEntries patches) := by
  rcases send_cases p patches r with ⟨hp, h⟩ | ⟨hp, _, _, hc, h⟩ | ⟨hp, _, _, hc, h⟩
  · rw [h, sendEntries, Writer.patch, if_pos (by simpa using hp)]
    rfl
  · rw [h, sendEntries, Writer.patch, if_neg (by simpa using hp), hc]
    rfl
  · rw [h, sendEntries, Writer.patch, if_neg (by simpa using hp), hc]
    rfl

/-- **The job moves by the entries alone.** -/
theorem tells : Law fun (p : Pipeline ε) entries q =>
    q.writer.job = p.writer.job.told entries where
  trans hp hq := by rw [hq, hp, Job.told_append]
  quiet _ hjob _ _ _ := hjob
  takeUp p task rest _ patches r := job_takeUp p task rest patches r
  send := job_send
  flush p := p.writer.job_flush

theorem job_drainChunk (p : Pipeline ε) :
    p.drainChunk.2.writer.job = p.writer.job.told p.chunkEntries := tells.drainChunk p

theorem job_drainAll (p : Pipeline ε) :
    p.drainAll.2.writer.job = p.writer.job.told p.drainEntries := tells.drainAll p

omit [SearchEngine ε] in
theorem job_abandon (p : Pipeline ε) (reason : String) :
    (p.abandon reason).2.writer.job = p.writer.job.told (p.abandonEntries reason) := by
  have hlost : ∀ (tasks : List ImageTask) (job : Job),
      tasks.foldl (fun job _ => job.update .imageFailure) job = job.told (tasks.map .dropped) := by
    intro tasks job
    rw [Job.told, List.foldl_map]
    rfl
  rw [abandon, abandonEntries]
  dsimp only
  by_cases hempty : p.backlog = []
  · rw [if_pos (by simp [hempty]), if_pos (by simp [hempty])]
    rfl
  · rw [if_neg (by simpa using hempty), if_neg (by simpa using hempty), Job.told_append, ← hlost]
    rfl

end Pipeline

/-! ### Workers -/

namespace Worker

/-- Counting the reason why a record has no images. -/
def skipEntries (r : Record) : List Entry :=
  match r.imageSkip? with
  | some reason => [.told (.imageSkip reason) rfl]
  | none => []

/-- Settling a record that fails right away. -/
def failEntries (message : String) : List Entry :=
  [.told (.failed 1) rfl, .told (.error message) rfl]

/-- Taking up the thumbnails of a record. -/
def attachEntries (r : Record) (d : Document) (p : Pipeline ε) : List Entry :=
  match r.staging? with
  | none => []
  | some staging =>
    if p.monitor.control.deferImages then
      [.told (.deferred (UInt64.ofNat (p.backlog.length + 1))) rfl]
    else p.adoptEntries ⟨.ofText staging, d.id⟩ r.path

/-- The last thing a job is told before it ends. -/
def lastEntries (outcome : Outcome) (interrupted : Bool) : List Entry :=
  match if interrupted then outcome.fatal
    else if outcome.fatal.isSome then none else outcome.anomaly with
  | some message => [.told (.error message) rfl]
  | none => []

/-- How a job ends, and what it fails with. -/
def ending (outcome : Outcome) (interrupted : Bool) : JobStatus × Option String :=
  if interrupted then (.failed, some interruption)
  else
    match outcome.fatal with
    | some fatal => (.failed, some fatal)
    | none => (.completed, none)

/-- Every job ends. -/
theorem isTerminal_ending (outcome : Outcome) (interrupted : Bool) :
    (ending outcome interrupted).1.isTerminal = true := by
  rw [ending]
  cases interrupted with
  | true => rfl
  | false => cases outcome.fatal <;> rfl

variable [SearchEngine ε]

/-- Handing a document to the writer. -/
def writeEntries (d : Document) (p : Pipeline ε) : List Entry :=
  let held : Pipeline ε :=
    { p with writer := { p.writer with pending := p.writer.pending ++ [d] } }
  -- a full batch is committed, and then the backlog may be taken up
  if max p.monitor.control.batchSize.toNat 1 ≤ held.writer.pending.length then
    let flushed : Pipeline ε := { held with writer := held.writer.flush.2 }
    held.writer.flushEntries ++
      if !flushed.backlog.isEmpty && flushed.monitor.isCalm then flushed.chunkEntries else []
  else []

/-- Handling a record. -/
def recordEntries (w : Worker) (r : Record) (p : Pipeline ε) : List Entry :=
  let noted := noteSkip r (p.watch p.monitor.check)
  skipEntries r ++
    if w.isSubstantial r then
      attachEntries r (w.documentOf r) noted ++
        writeEntries (attachImages r (w.documentOf r) noted).1
          (attachImages r (w.documentOf r) noted).2
    else
      failEntries (r.path ++ ": text too short (" ++ toString r.meaningfulChars ++ " chars)")

/-- Handling an event. -/
def eventEntries (w : Worker) (p : Pipeline ε) : Event → List Entry
  | .discovered n => [.told (.discovered n) rfl]
  | .skipped _ => [.told .skipped rfl]
  | .failed entry reason => failEntries (entry ++ ": " ++ reason)
  | .notice message => [.told (.error message) rfl]
  | .record r => w.recordEntries r p

/-- Handling events one after the other. -/
def eventsEntries (w : Worker) : Pipeline ε → List Event → List Entry
  | _, [] => []
  | p, e :: rest => w.eventEntries p e ++ w.eventsEntries (w.handle p e) rest

/-- Committing what is pending, and taking up or giving up what was left for later. -/
def settleEntries (interrupted : Bool) (p : Pipeline ε) : List Entry :=
  let flushed : Pipeline ε := { p with writer := p.writer.flush.2 }
  p.writer.flushEntries ++
    if interrupted then flushed.abandonEntries interruption else flushed.drainEntries

/-- All entries of a run. -/
def entries (w : Worker) (interrupt : ε → Nat → Bool) (source : Source) (p : Pipeline ε) :
    List Entry :=
  let c := w.consume interrupt source.events p
  w.eventsEntries p (source.events.take c.handled) ++ settleEntries c.interrupted c.pipeline ++
    lastEntries (source.finish c.handled) c.interrupted

end Worker

/-- Handing a document over is made of such steps. -/
theorem Pipeline.Law.write [SearchEngine ε] {R : Pipeline ε → List Entry → Pipeline ε → Prop}
    (law : Law R) (d : Document) (p : Pipeline ε) :
    R p (Worker.writeEntries d p) (Worker.write d p) := by
  have hheld : R p [] { p with writer := { p.writer with pending := p.writer.pending ++ [d] } } :=
    law.quiet rfl rfl rfl rfl rfl
  rw [Worker.writeEntries]
  rcases Worker.write_cases d p with ⟨hfew, h⟩ | ⟨hfull, h⟩
  · rw [h, if_neg (Nat.not_le.mpr hfew)]
    exact hheld
  · -- a chunk of the backlog may be taken up behind the commit
    rw [h, if_pos hfull, Worker.catchUp]
    have hflushed := law.trans hheld (law.flush _)
    dsimp only at hflushed ⊢
    split
    · exact law.trans hflushed (law.drainChunk _)
    · rw [List.append_nil]
      exact hflushed

namespace Worker

theorem job_noteSkip (r : Record) (p : Pipeline ε) :
    (noteSkip r p).writer.job = p.writer.job.told (skipEntries r) := by
  rw [noteSkip, skipEntries]
  cases r.imageSkip? <;> rfl

theorem job_attachImages (r : Record) (d : Document) (p : Pipeline ε) :
    (attachImages r d p).2.writer.job = p.writer.job.told (attachEntries r d p) := by
  rcases attachImages_cases r d p with
    ⟨hs, h⟩ | ⟨_, hs, ⟨hd, h⟩ | ⟨hd, _, _, ha, h⟩ | ⟨hd, _, _, ha, h⟩⟩
  · rw [h, attachEntries, hs]
    rfl
  · rw [h, attachEntries, hs]
    dsimp only
    rw [if_pos hd]
    show p.writer.job.setDeferred (p.backlog ++ [_]).length = _
    rw [List.length_append]
    rfl
  · rw [h, attachEntries, hs]
    dsimp only
    rw [if_neg (by simp [hd]), Pipeline.adoptEntries, ha]
    rfl
  · rw [h, attachEntries, hs]
    dsimp only
    rw [if_neg (by simp [hd]), Pipeline.adoptEntries, ha]
    rfl

variable [SearchEngine ε]

/-- **One event.**  The job is told the entries of the event. -/
theorem job_handle (w : Worker) (p : Pipeline ε) (e : Event) :
    (w.handle p e).writer.job = p.writer.job.told (w.eventEntries p e) := by
  cases e with
  | discovered _ | skipped _ | failed _ _ | notice _ => rfl
  | record r =>
    have hnoted := job_noteSkip r (p.watch p.monitor.check)
    rw [handle, handleRecord_eq, eventEntries, recordEntries, Job.told_append]
    split
    · rw [Pipeline.tells.write, job_attachImages, hnoted, Job.told_append]
      rfl
    · rw [Pipeline.watch_writer] at hnoted
      rw [refuse, Pipeline.report_writer, Writer.report_job, hnoted]
      rfl

/-- Some events tell the job their entries one after the other. -/
theorem job_events (w : Worker) (events : List Event) :
    ∀ p : Pipeline ε, (events.foldl w.handle p).writer.job =
      p.writer.job.told (w.eventsEntries p events) := by
  induction events with
  | nil => exact fun _ => rfl
  | cons e rest ih =>
    intro p
    rw [List.foldl_cons, ih, job_handle, eventsEntries, Job.told_append]

theorem job_settle (interrupted : Bool) (p : Pipeline ε) :
    (settle interrupted p).writer.job = p.writer.job.told (settleEntries interrupted p) := by
  rw [settle, settleEntries, Job.told_append, ← Writer.job_flush]
  cases interrupted with
  | true => exact Pipeline.job_abandon _ _
  | false => exact Pipeline.job_drainAll _

omit [SearchEngine ε] in
/-- The end of a job comes after the last thing it is told. -/
theorem job_conclude (outcome : Outcome) (interrupted : Bool) (now : Instant) (p : Pipeline ε) :
    (conclude outcome interrupted now p).writer.job =
      (p.writer.job.told (lastEntries outcome interrupted)).finish (ending outcome interrupted).1
        (ending outcome interrupted).2 (some p.monitor.summary) now := by
  rw [conclude, lastEntries, ending]
  cases interrupted with
  | true => cases outcome.fatal <;> rfl
  | false => cases outcome.fatal <;> cases outcome.anomaly <;> rfl

/-- **A run.**  The job is told the entries of the run, and then it ends. -/
theorem job_run (w : Worker) (interrupt : ε → Nat → Bool) (source : Source) (now : Instant)
    (p : Pipeline ε) :
    let c := w.consume interrupt source.events p
    let outcome := source.finish c.handled
    (w.run interrupt source now p).writer.job =
      (p.writer.job.told (w.entries interrupt source p)).finish (ending outcome c.interrupted).1
        (ending outcome c.interrupted).2 (some (settle c.interrupted c.pipeline).monitor.summary)
        now := by
  intro c outcome
  -- the loop has handled the events up to some point, in order
  obtain ⟨k, -, hhandled, hpipeline, -⟩ := w.consumeFrom_eq interrupt source.events 0 p
  have hevents : c.pipeline = (source.events.take c.handled).foldl w.handle p := by
    rw [show c.handled = k from hhandled.trans (Nat.zero_add k)]
    exact hpipeline
  rw [run, job_conclude, job_settle, entries, Job.told_append, Job.told_append, ← job_events,
    ← hevents]

end Worker

/-! ### Stores -/

/-- The stores of some entries, in order. -/
def Entry.stores (entries : List Entry) : List Store := entries.flatMap (·.update.stores)

theorem Job.foldl_stores (entries : List Entry) :
    ∀ job : Job, (Entry.stores entries).foldl store job = job.told entries := by
  induction entries with
  | nil => exact fun _ => rfl
  | cons entry rest ih =>
    intro job
    rw [Entry.stores, List.flatMap_cons, List.foldl_append, foldl_store_stores]
    exact ih (job.update entry.update)

namespace Ingestion

variable [SearchEngine ε]

/-- All stores of a job's worker, from the first to the last. -/
def stores (x : Ingestion) (interrupt : ε → Nat → Bool) (engine : ε) (d : Disk) (job : Job)
    (now : Instant) : List Store :=
  match x.openSource d job.kind job.target (x.stagingOf job.id) with
  | (.error e, _) => Store.ofFinish .failed (some e.message) none now
  | (.ok source, d) =>
    let w : Worker := ⟨source.provenance, x.settings.ingest⟩
    let p := x.pipeline engine job d
    let c := w.consume interrupt source.events p
    let ending := Worker.ending (source.finish c.handled) c.interrupted
    Entry.stores (w.entries interrupt source p) ++
      Store.ofFinish ending.1 ending.2
        (some (Worker.settle c.interrupted c.pipeline).monitor.summary) now

/-- Every worker stores the end of its job behind all updates. -/
theorem stores_eq (x : Ingestion) (interrupt : ε → Nat → Bool) (engine : ε) (d : Disk) (job : Job)
    (now : Instant) :
    ∃ entries status fatal monitor, status.isTerminal = true ∧
      x.stores interrupt engine d job now =
        Entry.stores entries ++ Store.ofFinish status fatal monitor now := by
  rw [stores]
  rcases x.openSource d job.kind job.target (x.stagingOf job.id) with ⟨e | source, d'⟩
  · -- a job whose source cannot be opened has failed without a worker
    exact ⟨[], .failed, some e.message, none, rfl, rfl⟩
  · exact ⟨_, _, _, _, Worker.isTerminal_ending _ _, rfl⟩

/-- The stores of a worker make the job what the run leaves of it. -/
theorem foldl_stores (x : Ingestion) (interrupt : ε → Nat → Bool) (engine : ε) (d : Disk)
    (job : Job) (now : Instant) :
    (x.stores interrupt engine d job now).foldl Job.store job =
      (x.runJob interrupt engine d job now).job := by
  rw [stores, runJob]
  dsimp only
  rcases x.openSource d job.kind job.target (x.stagingOf job.id) with ⟨e | source, d'⟩
  · rfl
  · dsimp only
    rw [List.foldl_append, Job.foldl_stores, Worker.job_run]
    rfl

end Ingestion

end Corpus
