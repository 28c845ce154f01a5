/-
Corpus/Proofs/Pipeline.lean

What each operation of a pipeline does, for proofs that go over whole runs.

Reports touch nothing but the job.  Taking a task up is one of three things: its document was
rejected, its thumbnails were adopted, or their adoption failed.  A commit of a batch and an
update of image fields hand the engine to whatever the engine makes of the call.  A loop over
tasks keeps whatever taking up one task and sending patches keep.
-/
import Corpus.Ingest.Worker

namespace Corpus

variable {ε : Type}

/-! ### Reports -/

namespace Writer

@[simp] theorem report_engine (w : Writer ε) (change : Job → Job) :
    (w.report change).engine = w.engine := rfl

@[simp] theorem report_job (w : Writer ε) (change : Job → Job) :
    (w.report change).job = change w.job := rfl

@[simp] theorem report_pending (w : Writer ε) (change : Job → Job) :
    (w.report change).pending = w.pending := rfl

@[simp] theorem report_rejected (w : Writer ε) (change : Job → Job) :
    (w.report change).rejected = w.rejected := rfl

@[simp] theorem isRejected_report (w : Writer ε) (change : Job → Job) (id : String) :
    (w.report change).isRejected id = w.isRejected id := rfl

theorem isRejected_eq_true_iff (w : Writer ε) (id : String) :
    w.isRejected id = true ↔ id ∈ w.rejected := by
  simp [isRejected]

end Writer

namespace Pipeline

@[simp] theorem report_writer (p : Pipeline ε) (change : Job → Job) :
    (p.report change).writer = p.writer.report change := rfl

@[simp] theorem report_monitor (p : Pipeline ε) (change : Job → Job) :
    (p.report change).monitor = p.monitor := rfl

@[simp] theorem report_disk (p : Pipeline ε) (change : Job → Job) :
    (p.report change).disk = p.disk := rfl

@[simp] theorem report_thumbnails (p : Pipeline ε) (change : Job → Job) :
    (p.report change).thumbnails = p.thumbnails := rfl

@[simp] theorem report_deferred (p : Pipeline ε) (change : Job → Job) :
    (p.report change).deferred = p.deferred := rfl

@[simp] theorem report_backlog (p : Pipeline ε) (change : Job → Job) :
    (p.report change).backlog = p.backlog := rfl

/-! ### Monitors -/

/-- The pipeline with another monitor. -/
def watch (p : Pipeline ε) (monitor : Monitor) : Pipeline ε := { p with monitor }

@[simp] theorem watch_writer (p : Pipeline ε) (monitor : Monitor) :
    (p.watch monitor).writer = p.writer := rfl

@[simp] theorem watch_backlog (p : Pipeline ε) (monitor : Monitor) :
    (p.watch monitor).backlog = p.backlog := rfl

@[simp] theorem watch_disk (p : Pipeline ε) (monitor : Monitor) :
    (p.watch monitor).disk = p.disk := rfl

@[simp] theorem watch_thumbnails (p : Pipeline ε) (monitor : Monitor) :
    (p.watch monitor).thumbnails = p.thumbnails := rfl

@[simp] theorem watch_deferred (p : Pipeline ε) (monitor : Monitor) :
    (p.watch monitor).deferred = p.deferred := rfl

/-- The waiting between two updates touches the monitor alone. -/
theorem settle_eq (p : Pipeline ε) : ∃ monitor, p.settle = p.watch monitor := by
  unfold settle
  split
  · exact ⟨p.monitor, rfl⟩
  · split <;> exact ⟨_, rfl⟩

/-- The pipeline after the wait before the last drain. -/
def rested (p : Pipeline ε) : Pipeline ε :=
  p.watch (p.monitor.cooldown (Span.ofMillis p.monitor.settings.cooldownMaxWaitMs.toNat)).2

-- by the lemma for any monitor: to compare the monitors themselves would run the wait
@[simp] theorem rested_writer (p : Pipeline ε) : p.rested.writer = p.writer := watch_writer p _

@[simp] theorem rested_backlog (p : Pipeline ε) : p.rested.backlog = p.backlog :=
  watch_backlog p _

@[simp] theorem rested_disk (p : Pipeline ε) : p.rested.disk = p.disk := watch_disk p _

@[simp] theorem rested_thumbnails (p : Pipeline ε) : p.rested.thumbnails = p.thumbnails :=
  watch_thumbnails p _

@[simp] theorem rested_deferred (p : Pipeline ε) : p.rested.deferred = p.deferred :=
  watch_deferred p _

/-! ### Taking up a task -/

/-- The three things that taking up a task can be. -/
theorem takeUp_cases (p : Pipeline ε) (task : ImageTask) (rest : List ImageTask)
    (patches : List ImagePatch) (r : DrainReport) :
    (p.writer.isRejected task.id = true ∧
      p.takeUp task rest patches r =
        (patches, { r with failed := r.failed + 1 },
          (p.setBacklog rest).loseImages
            ("Thumbnails for " ++ task.id ++ ": document was not indexed"))) ∨
    (p.writer.isRejected task.id = false ∧ ∃ images disk,
      p.thumbnails.adopt p.disk task.staging task.id = (.ok images, disk) ∧
      p.takeUp task rest patches r =
        (patches ++ [⟨task.id, images⟩], { r with adopted := r.adopted + 1 },
          { p.setBacklog rest with disk }.report (·.update .image))) ∨
    (p.writer.isRejected task.id = false ∧ ∃ fault disk,
      p.thumbnails.adopt p.disk task.staging task.id = (.error fault, disk) ∧
      p.takeUp task rest patches r =
        (patches, { r with failed := r.failed + 1 },
          { p.setBacklog rest with disk }.loseImages
            ("Thumbnails for " ++ task.id ++ ": " ++ fault.message))) := by
  cases hrej : p.writer.isRejected task.id with
  | true =>
    refine .inl ⟨rfl, ?_⟩
    have h : (p.setBacklog rest).writer.isRejected task.id = true := hrej
    simp [takeUp, perform, h]
  | false =>
    have h : (p.setBacklog rest).writer.isRejected task.id = false := hrej
    rcases hadopt : p.thumbnails.adopt p.disk task.staging task.id with ⟨result, disk⟩
    have hadopt' : (p.setBacklog rest).adopt task.staging task.id =
        (result, { p.setBacklog rest with disk }) := by
      simp [adopt, setBacklog, report, hadopt]
    cases result with
    | ok images =>
      exact .inr (.inl ⟨rfl, images, disk, rfl, by simp [takeUp, perform, h, hadopt']⟩)
    | error fault =>
      exact .inr (.inr ⟨rfl, fault, disk, rfl, by simp [takeUp, perform, h, hadopt']⟩)

/-- What taking up a task leaves alone. -/
theorem takeUp_frame (p : Pipeline ε) (task : ImageTask) (rest : List ImageTask)
    (patches : List ImagePatch) (r : DrainReport) :
    let q := (p.takeUp task rest patches r).2.2
    q.writer.engine = p.writer.engine ∧ q.writer.pending = p.writer.pending ∧
      q.writer.rejected = p.writer.rejected ∧ q.backlog = rest ∧ q.monitor = p.monitor ∧
      q.thumbnails = p.thumbnails ∧ q.deferred = p.deferred := by
  rcases takeUp_cases p task rest patches r with
    ⟨-, h⟩ | ⟨-, images, disk, -, h⟩ | ⟨-, fault, disk, -, h⟩ <;>
  · rw [h]
    exact ⟨rfl, rfl, rfl, rfl, rfl, rfl, rfl⟩

/-- Taking up a task gives no patch or one for a document that was not rejected. -/
theorem takeUp_patches (p : Pipeline ε) (task : ImageTask) (rest : List ImageTask)
    (patches : List ImagePatch) (r : DrainReport) :
    (p.takeUp task rest patches r).1 = patches ∨
      p.writer.isRejected task.id = false ∧
        ∃ images, (p.takeUp task rest patches r).1 = patches ++ [⟨task.id, images⟩] := by
  rcases takeUp_cases p task rest patches r with
    ⟨-, h⟩ | ⟨hrej, images, disk, -, h⟩ | ⟨-, fault, disk, -, h⟩
  · exact .inl (by rw [h])
  · exact .inr ⟨hrej, images, by rw [h]⟩
  · exact .inl (by rw [h])

/-- Taking up tasks keeps what taking up one task keeps. -/
theorem takeUpSome_keeps {I : List ImagePatch → DrainReport → Pipeline ε → Prop}
    (step : ∀ task rest patches r p, p.backlog = task :: rest → I patches r p →
      I (p.takeUp task rest patches r).1 (p.takeUp task rest patches r).2.1
        (p.takeUp task rest patches r).2.2) :
    ∀ n p patches r, I patches r p →
      I (takeUpSome n p patches r).1 (takeUpSome n p patches r).2.1
        (takeUpSome n p patches r).2.2 := by
  intro n
  induction n with
  | zero => exact fun _ _ _ h => h
  | succ n ih =>
    intro p patches r h
    rw [takeUpSome]
    cases hb : p.backlog with
    | nil => exact h
    -- one task is taken up, and so many fewer are left to be taken up
    | cons task rest => exact ih _ _ _ (step task rest patches r p hb h)

end Pipeline

/-! ### Commits -/

namespace Writer

variable [SearchEngine ε]

/-- A flush has nothing to do, commits what is pending, or fails to. -/
theorem flush_cases (w : Writer ε) :
    (w.pending = [] ∧ w.flush = (none, w)) ∨
    (w.pending ≠ [] ∧ ∃ engine stats,
      SearchEngine.commit w.commitTimeout (SearchEngine.add w.engine w.pending) =
        (.ok (), engine) ∧
      w.flush = (some ⟨w.pending.length, true⟩,
        { w with
          engine, stats, pending := []
          job := w.job.indexed (UInt64.ofNat w.pending.length) })) ∨
    (w.pending ≠ [] ∧ ∃ fault engine stats,
      SearchEngine.commit w.commitTimeout (SearchEngine.add w.engine w.pending) =
        (.error fault, engine) ∧
      w.flush = (some ⟨w.pending.length, false⟩,
        { w with
          engine, stats, pending := []
          rejected := w.rejected ++ w.pending.map (·.id)
          job :=
            (w.job.failed (UInt64.ofNat w.pending.length)).logError
              ("Batch of " ++ toString w.pending.length ++ " documents failed: " ++
                fault.message) })) := by
  by_cases hp : w.pending = []
  · exact .inl ⟨hp, by simp [flush, hp]⟩
  · have hne : w.pending.isEmpty = false := by simpa using hp
    rcases hc : SearchEngine.commit w.commitTimeout (SearchEngine.add w.engine w.pending) with
      ⟨result, engine⟩
    cases result with
    | ok _ => exact .inr (.inl ⟨hp, engine, _, rfl, by simp [flush, hne, hc]; rfl⟩)
    | error fault => exact .inr (.inr ⟨hp, fault, engine, _, rfl, by simp [flush, hne, hc]; rfl⟩)

/-- Behind a flush the engine is what the commit of the pending documents left of it, if there
were any. -/
theorem engine_flush (w : Writer ε) :
    (w.pending = [] ∧ w.flush.2 = w) ∨
    (w.pending ≠ [] ∧ w.flush.2.engine =
      (SearchEngine.commit w.commitTimeout (SearchEngine.add w.engine w.pending)).2) := by
  rcases flush_cases w with ⟨hp, h⟩ | ⟨hp, _, _, hc, h⟩ | ⟨hp, _, _, _, hc, h⟩
  · exact .inl ⟨hp, by rw [h]⟩
  · exact .inr ⟨hp, by rw [h, hc]⟩
  · exact .inr ⟨hp, by rw [h, hc]⟩

@[simp] theorem flush_pending (w : Writer ε) : w.flush.2.pending = [] := by
  rcases flush_cases w with ⟨hp, h⟩ | ⟨-, _, _, -, h⟩ | ⟨-, _, _, _, -, h⟩
  · rw [h, hp]
  · rw [h]
  · rw [h]

/-- A document that fills its batch is flushed with it, which is reported. -/
theorem push_of_full {w : Writer ε} {d : Document} {size : UInt64}
    (h : max size.toNat 1 ≤ (w.pending ++ [d]).length) :
    ∃ report, w.push d size =
      (some report, ({ w with pending := w.pending ++ [d] } : Writer ε).flush.2) := by
  rcases flush_cases { w with pending := w.pending ++ [d] } with
    ⟨hp, -⟩ | ⟨-, _, _, -, hf⟩ | ⟨-, _, _, _, -, hf⟩
  · simp at hp
  · exact ⟨_, by rw [push, if_pos h, hf]⟩
  · exact ⟨_, by rw [push, if_pos h, hf]⟩

end Writer

namespace Pipeline

variable [SearchEngine ε]

/-- Sending patches does nothing, updates the engine, or fails to. -/
theorem send_cases (p : Pipeline ε) (patches : List ImagePatch) (r : DrainReport) :
    (patches = [] ∧ p.send patches r = (r, p)) ∨
    (patches ≠ [] ∧ ∃ engine stats,
      SearchEngine.commit p.writer.maintenanceTimeout
        (SearchEngine.update p.writer.engine patches) = (.ok (), engine) ∧
      p.send patches r =
        ({ r with patchesSent := r.patchesSent + patches.length },
          { p with writer := { p.writer with engine, stats } })) ∨
    (patches ≠ [] ∧ ∃ fault engine,
      SearchEngine.commit p.writer.maintenanceTimeout
        (SearchEngine.update p.writer.engine patches) = (.error fault, engine) ∧
      p.send patches r =
        ({ r with patchFailures := r.patchFailures + 1 },
          { p with writer := { p.writer with engine } }.report (·.logError
            ("Image patch of " ++ toString patches.length ++ " documents failed: " ++
              fault.message)))) := by
  by_cases hp : patches = []
  · exact .inl ⟨hp, by simp [send, hp]⟩
  · have hne : patches.isEmpty = false := by simpa using hp
    rcases hc : SearchEngine.commit p.writer.maintenanceTimeout
      (SearchEngine.update p.writer.engine patches) with ⟨result, engine⟩
    cases result with
    | ok _ =>
      exact .inr (.inl ⟨hp, engine, _, rfl, by simp [send, hne, Writer.patch, hc]; rfl⟩)
    | error fault =>
      exact .inr (.inr ⟨hp, fault, engine, rfl, by simp [send, hne, Writer.patch, hc]⟩)

/-- Behind the sending of patches the engine is what their update left of it, if there were any. -/
theorem engine_send (p : Pipeline ε) (patches : List ImagePatch) (r : DrainReport) :
    (patches = [] ∧ (p.send patches r).2 = p) ∨
    (patches ≠ [] ∧ (p.send patches r).2.writer.engine =
      (SearchEngine.commit p.writer.maintenanceTimeout
        (SearchEngine.update p.writer.engine patches)).2) := by
  rcases send_cases p patches r with ⟨hp, h⟩ | ⟨hp, _, _, hc, h⟩ | ⟨hp, _, _, hc, h⟩
  · exact .inl ⟨hp, by rw [h]⟩
  · exact .inr ⟨hp, by rw [h, hc]⟩
  · refine .inr ⟨hp, ?_⟩
    rw [h, hc]
    rfl

/-- What sending patches leaves alone. -/
theorem send_frame (p : Pipeline ε) (patches : List ImagePatch) (r : DrainReport) :
    let q := (p.send patches r).2
    q.writer.pending = p.writer.pending ∧ q.writer.rejected = p.writer.rejected ∧
      q.backlog = p.backlog ∧ q.monitor = p.monitor ∧ q.disk = p.disk ∧
      q.thumbnails = p.thumbnails ∧ q.deferred = p.deferred := by
  rcases send_cases p patches r with ⟨-, h⟩ | ⟨-, _, _, -, h⟩ | ⟨-, _, _, -, h⟩ <;>
  · rw [h]
    exact ⟨rfl, rfl, rfl, rfl, rfl, rfl, rfl⟩

theorem drainAll_of_isEmpty {p : Pipeline ε} (h : p.backlog.isEmpty = true) :
    p.drainAll = ({}, p) := by
  rw [drainAll, if_pos h]

theorem drainAll_of_not_isEmpty {p : Pipeline ε} (h : p.backlog.isEmpty = false) :
    p.drainAll =
      (drainTasks p.backlog p.rested [] {}).2.2.send (drainTasks p.backlog p.rested [] {}).1
        (drainTasks p.backlog p.rested [] {}).2.1 := by
  rw [drainAll, if_neg (by simp [h])]
  rfl

/-- The last drain keeps what taking up a task, sending full batches and waiting keep.  At its
end the backlog is empty. -/
theorem drainTasks_keeps {I : List ImagePatch → DrainReport → Pipeline ε → Prop}
    (step : ∀ task rest patches r p, p.backlog = task :: rest → I patches r p →
      I (p.takeUp task rest patches r).1 (p.takeUp task rest patches r).2.1
        (p.takeUp task rest patches r).2.2)
    (sent : ∀ patches r p, I patches r p → I [] (p.send patches r).1 (p.send patches r).2)
    (waited : ∀ patches r p monitor, I patches r p → I patches r (p.watch monitor)) :
    ∀ tasks p patches r, p.backlog = tasks → I patches r p →
      I (drainTasks tasks p patches r).1 (drainTasks tasks p patches r).2.1
          (drainTasks tasks p patches r).2.2 ∧
        (drainTasks tasks p patches r).2.2.backlog = [] := by
  intro tasks
  induction tasks with
  | nil => exact fun p _ _ hb h => ⟨h, hb⟩
  | cons task rest ih =>
    intro p patches r hb h
    have hstep := step task rest patches r p hb h
    have hrest := (takeUp_frame p task rest patches r).2.2.2.1
    rw [drainTasks]
    generalize p.takeUp task rest patches r = taken at hstep hrest ⊢
    obtain ⟨patches', r', q⟩ := taken
    dsimp only at hstep hrest ⊢
    split
    · have hsent := sent patches' r' q hstep
      have hkept := (send_frame q patches' r').2.2.1
      generalize q.send patches' r' = sent at hsent hkept ⊢
      obtain ⟨r'', q'⟩ := sent
      obtain ⟨monitor, hm⟩ := settle_eq q'
      dsimp only at hsent hkept ⊢
      -- only the monitor has changed in the meantime
      rw [hm]
      exact ih _ _ _ (hkept.trans hrest) (waited _ _ _ _ hsent)
    · exact ih _ _ _ hrest hstep

/-- Taking the backlog up leaves none of it, and the pending batch alone. -/
theorem drainAll_frame (p : Pipeline ε) :
    p.drainAll.2.writer.pending = p.writer.pending ∧ p.drainAll.2.backlog = [] := by
  cases hempty : p.backlog.isEmpty with
  | true =>
    rw [drainAll_of_isEmpty hempty]
    exact ⟨rfl, List.isEmpty_iff.mp hempty⟩
  | false =>
    obtain ⟨hpending, hbacklog⟩ := drainTasks_keeps
      (I := fun _ _ q => q.writer.pending = p.writer.pending)
      (fun task rest patches r q _ h => (takeUp_frame q task rest patches r).2.1.trans h)
      (fun patches r q h => (send_frame q patches r).1.trans h)
      (fun _ _ _ _ h => h) p.backlog p.rested [] {} (rested_backlog p)
      (congrArg Writer.pending (rested_writer p))
    rw [drainAll_of_not_isEmpty hempty]
    exact ⟨(send_frame _ _ _).1.trans hpending, (send_frame _ _ _).2.2.1.trans hbacklog⟩

end Pipeline

/-! ### Records and events -/

namespace Worker

open Pipeline

/-- A record has no thumbnails, has them left for later, has them adopted, or fails to. -/
theorem attachImages_cases (r : Record) (d : Document) (p : Pipeline ε) :
    (r.staging? = none ∧ attachImages r d p = (d, p)) ∨
    ∃ staging, r.staging? = some staging ∧
      ((p.monitor.control.deferImages = true ∧
        attachImages r d p = (d, p.postpone ⟨.ofText staging, d.id⟩)) ∨
      (p.monitor.control.deferImages = false ∧ ∃ images disk,
        p.thumbnails.adopt p.disk (.ofText staging) d.id = (.ok images, disk) ∧
        attachImages r d p = ({ d with images }, { p with disk }.report (·.update .image))) ∨
      (p.monitor.control.deferImages = false ∧ ∃ fault disk,
        p.thumbnails.adopt p.disk (.ofText staging) d.id = (.error fault, disk) ∧
        attachImages r d p =
          (d, { p with disk }.loseImages
            ("Thumbnails for " ++ r.path ++ ": " ++ fault.message)))) := by
  cases hs : r.staging? with
  | none => exact .inl ⟨rfl, by simp [attachImages, hs]⟩
  | some staging =>
    refine .inr ⟨staging, rfl, ?_⟩
    cases hd : p.monitor.control.deferImages with
    | true => exact .inl ⟨rfl, by simp [attachImages, hs, hd]⟩
    | false =>
      rcases ha : p.thumbnails.adopt p.disk (.ofText staging) d.id with ⟨result, disk⟩
      have ha' : p.adopt (.ofText staging) d.id = (result, { p with disk }) := by
        simp [Pipeline.adopt, ha]
      cases result with
      | ok images =>
        exact .inr (.inl ⟨rfl, images, disk, rfl, by simp [attachImages, hs, hd, ha']⟩)
      | error fault =>
        exact .inr (.inr ⟨rfl, fault, disk, rfl, by simp [attachImages, hs, hd, ha']⟩)

/-- Taking up the thumbnails of a record does not change the identifier of its document. -/
theorem attachImages_id (r : Record) (d : Document) (p : Pipeline ε) :
    (attachImages r d p).1.id = d.id := by
  rcases attachImages_cases r d p with
    ⟨-, h⟩ | ⟨_, -, ⟨-, h⟩ | ⟨-, _, _, -, h⟩ | ⟨-, _, _, -, h⟩⟩ <;> rw [h]

/-- What taking up the thumbnails of a record leaves alone. -/
theorem attachImages_frame (r : Record) (d : Document) (p : Pipeline ε) :
    let q := (attachImages r d p).2
    q.writer.engine = p.writer.engine ∧ q.writer.pending = p.writer.pending ∧
      q.writer.rejected = p.writer.rejected ∧ q.monitor = p.monitor ∧
      q.thumbnails = p.thumbnails ∧ q.deferred = p.deferred := by
  rcases attachImages_cases r d p with
    ⟨-, h⟩ | ⟨_, -, ⟨-, h⟩ | ⟨-, _, _, -, h⟩ | ⟨-, _, _, -, h⟩⟩ <;>
  · rw [h]
    exact ⟨rfl, rfl, rfl, rfl, rfl, rfl⟩

/-- Counting a missing image set is a report. -/
theorem noteSkip_eq (r : Record) (p : Pipeline ε) :
    ∃ change, noteSkip r p = p.report change := by
  unfold noteSkip
  split
  · exact ⟨_, rfl⟩
  · exact ⟨id, rfl⟩

/-- The end of a job is a report. -/
theorem conclude_eq (outcome : Outcome) (interrupted : Bool) (now : Instant) (p : Pipeline ε) :
    ∃ change, conclude outcome interrupted now p = p.report change := by
  unfold conclude
  dsimp only
  split
  · exact ⟨_, rfl⟩
  · split <;> exact ⟨_, rfl⟩

/-- The end of a job leaves the counters alone. -/
theorem conclude_tally (outcome : Outcome) (interrupted : Bool) (now : Instant)
    (p : Pipeline ε) :
    (conclude outcome interrupted now p).writer.job.tally = p.writer.job.tally := by
  unfold conclude
  cases interrupted <;> cases outcome.fatal <;> cases outcome.anomaly <;> rfl

variable [SearchEngine ε]

/-- A document stays pending, or the batch that it fills is flushed. -/
theorem write_cases (d : Document) (p : Pipeline ε) :
    ((p.writer.pending ++ [d]).length < max p.monitor.control.batchSize.toNat 1 ∧
      write d p = { p with writer := { p.writer with pending := p.writer.pending ++ [d] } }) ∨
    (max p.monitor.control.batchSize.toNat 1 ≤ (p.writer.pending ++ [d]).length ∧
      write d p = catchUp { p with
        writer := ({ p.writer with pending := p.writer.pending ++ [d] } : Writer ε).flush.2 }) := by
  by_cases hfull : max p.monitor.control.batchSize.toNat 1 ≤ (p.writer.pending ++ [d]).length
  · refine .inr ⟨hfull, ?_⟩
    obtain ⟨report, hpush⟩ := Writer.push_of_full hfull
    rw [write, hpush]
  · refine .inl ⟨Nat.lt_of_not_le hfull, ?_⟩
    rw [write, Writer.push, if_neg hfull]

/-- The events that were handled are a prefix of all, and all of them without an
interruption. -/
theorem consumeFrom_eq (w : Worker) (interrupt : ε → Nat → Bool) (events : List Event) :
    ∀ handled p, ∃ k ≤ events.length,
      (w.consumeFrom interrupt handled p events).handled = handled + k ∧
      (w.consumeFrom interrupt handled p events).pipeline = (events.take k).foldl w.handle p ∧
      ((w.consumeFrom interrupt handled p events).interrupted = false → k = events.length) := by
  induction events with
  | nil => exact fun _ _ => ⟨0, Nat.le_refl 0, rfl, rfl, fun _ => rfl⟩
  | cons e rest ih =>
    intro handled p
    rw [consumeFrom]
    split
    · exact ⟨0, Nat.zero_le _, rfl, rfl, fun h => by simp at h⟩
    · -- the prefix that the rest of the loop handles, with this event in front
      obtain ⟨k, hk, hhandled, hpipeline, hall⟩ := ih (handled + 1) (w.handle p e)
      refine ⟨k + 1, Nat.succ_le_succ hk, ?_, ?_, ?_⟩
      · rw [hhandled]; omega
      · rw [hpipeline, List.take_succ_cons, List.foldl_cons]
      · intro h; rw [hall h, List.length_cons]

/-- Where nothing interrupts, no run is interrupted. -/
theorem not_interrupted_of_never (w : Worker) {interrupt : ε → Nat → Bool}
    (h : ∀ engine n, interrupt engine n = false) (events : List Event) (p : Pipeline ε) :
    (w.consume interrupt events p).interrupted = false := by
  have hfrom : ∀ handled p, (w.consumeFrom interrupt handled p events).interrupted = false := by
    induction events with
    | nil => exact fun handled p => h _ handled
    | cons e rest ih =>
      intro handled p
      rw [consumeFrom, h, if_neg Bool.false_ne_true]
      exact ih (handled + 1) (w.handle p e)
  exact hfrom 0 p

/-- A run that is not interrupted handles all events and settles what is left.  Its end counts
nothing more. -/
theorem run_of_not_interrupted {w : Worker} {interrupt : ε → Nat → Bool} {source : Source}
    {p : Pipeline ε} (h : (w.consume interrupt source.events p).interrupted = false)
    (now : Instant) :
    let settled := settle false (source.events.foldl w.handle p)
    ∃ change, w.run interrupt source now p = settled.report change ∧
      (change settled.writer.job).tally = settled.writer.job.tally := by
  intro settled
  obtain ⟨k, -, -, hpipeline, hall⟩ := consumeFrom_eq w interrupt source.events 0 p
  have hsame : (w.consume interrupt source.events p).pipeline =
      source.events.foldl w.handle p := by
    rw [consume, hpipeline, hall h, List.take_length]
  have hrun : w.run interrupt source now p =
      conclude (source.finish (w.consume interrupt source.events p).handled) false now settled := by
    rw [run, h, hsame]
  obtain ⟨change, hconclude⟩ := conclude_eq
    (source.finish (w.consume interrupt source.events p).handled) false now settled
  refine ⟨change, hrun.trans hconclude, ?_⟩
  rw [← conclude_tally (source.finish (w.consume interrupt source.events p).handled) false now
    settled, hconclude]
  rfl

end Worker

end Corpus
