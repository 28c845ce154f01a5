/-
Corpus/Proofs/Interruption.lean

What an interruption leaves behind.

It is noticed at the first point between two events at which it is there, and no event is handled
from then on.  The documents of the records that were handled have all been handed to the writer,
which commits those that still wait; what was left for later is given up and counted as lost; and
the engine is asked for no update any more.  So every record that was accepted has its document in
one batch, and the job says why it ended, whatever the source says.
-/
import Corpus.Proofs.Accounting
import Corpus.Proofs.Patching
import Corpus.Proofs.Pressure

namespace Corpus

open EngineCall (batches batches_append updates updates_append)

/-! ### Documents handed to the writer -/

/-- The document without its images. -/
def Document.bare (d : Document) : Document := { d with images := {} }

/-- The document that an event gives: that of a record with enough text. -/
def Worker.documentOf? (w : Worker) : Event → Option Document
  | .record r => if w.isSubstantial r then some (w.documentOf r) else none
  | _ => none

variable {ε : Type}

theorem Writer.handed_congr {v w : Writer (Recorded ε)} (hengine : v.engine = w.engine)
    (hpending : v.pending = w.pending) : v.handed = w.handed := by
  rw [handed, handed, hengine, hpending]

/-- Taking up the thumbnails of a record changes nothing but the images of its document. -/
theorem Worker.attachImages_bare (r : Record) (d : Document) (p : Pipeline ε) :
    (attachImages r d p).1.bare = d.bare := by
  rcases attachImages_cases r d p with
    ⟨-, h⟩ | ⟨_, -, ⟨-, h⟩ | ⟨-, _, _, -, h⟩ | ⟨-, _, _, -, h⟩⟩ <;> rw [h]
  rfl

variable [SearchEngine ε]

theorem Pipeline.handed_send (p : Pipeline (Recorded ε)) (patches : List ImagePatch)
    (r : DrainReport) : (p.send patches r).2.writer.handed = p.writer.handed := by
  have hpending := (send_frame p patches r).1
  have hbatches :=
    p.writer.engine.batches_commit_update p.writer.maintenanceTimeout patches
  rw [Writer.handed, Writer.handed, hpending]
  rcases p.engine_send patches r with ⟨-, h⟩ | ⟨-, h⟩
  · rw [h]
  · rw [h, hbatches]

theorem Pipeline.handed_drainChunk (p : Pipeline (Recorded ε)) :
    p.drainChunk.2.writer.handed = p.writer.handed := by
  have htaken := takeUpSome_keeps (I := fun _ _ q => q.writer.handed = p.writer.handed)
    (fun task rest patches r q _ hq => by
      obtain ⟨hengine, hpending, -⟩ := takeUp_frame q task rest patches r
      exact (Writer.handed_congr hengine hpending).trans hq)
    (max p.deferred.drainChunk.toNat 1) p [] {} rfl
  exact (handed_send _ _ _).trans htaken

namespace Worker

theorem handed_write (d : Document) (p : Pipeline (Recorded ε)) :
    (write d p).writer.handed = p.writer.handed ++ [d] := by
  have hheld : ({ p.writer with pending := p.writer.pending ++ [d] } : Writer _).handed =
      p.writer.handed ++ [d] := by
    simp [Writer.handed]
  rcases write_cases d p with ⟨-, h⟩ | ⟨-, h⟩
  · rw [h]
    exact hheld
  · rw [h, catchUp]
    split
    · rw [Pipeline.handed_drainChunk, Writer.handed_flush, hheld]
    · rw [Writer.handed_flush, hheld]

/-- **One event.**  A record with enough text hands over its document, nothing else does. -/
theorem handed_handle (w : Worker) (p : Pipeline (Recorded ε)) (e : Event) :
    (w.handle p e).writer.handed.map Document.bare =
      p.writer.handed.map Document.bare ++ (w.documentOf? e).toList := by
  cases e with
  | discovered _ | skipped _ | failed _ _ | notice _ => exact (List.append_nil _).symm
  | record r =>
    obtain ⟨change, hnoted⟩ := noteSkip_eq r (p.watch p.monitor.check)
    rw [handle, handleRecord_eq, hnoted, documentOf?]
    split
    · obtain ⟨hengine, hpending, -⟩ :=
        attachImages_frame r (w.documentOf r) ((p.watch p.monitor.check).report change)
      rw [handed_write, List.map_append, Writer.handed_congr hengine hpending, List.map_singleton,
        attachImages_bare]
      rfl
    · exact (List.append_nil _).symm

/-- Events hand over the documents of their records, in their order. -/
theorem handed_events (w : Worker) (events : List Event) :
    ∀ p : Pipeline (Recorded ε), (events.foldl w.handle p).writer.handed.map Document.bare =
      p.writer.handed.map Document.bare ++ events.filterMap w.documentOf? := by
  induction events with
  | nil => exact fun p => (List.append_nil _).symm
  | cons e rest ih =>
    intro p
    rw [List.foldl_cons, ih, handed_handle, List.append_assoc, List.filterMap_cons]
    cases w.documentOf? e <;> rfl

end Worker

/-! ### Records settled -/

/-- So many records are settled, those that still wait in the writer among them, and the job
shows how many tasks wait.  Nothing is said of how far a counter can count. -/
structure Pipeline.Counts (p : Pipeline ε) (settled : Nat) : Prop where
  processed : p.writer.job.tally.processed + UInt64.ofNat p.writer.pending.length =
    UInt64.ofNat settled
  waiting : p.writer.job.tally.deferred = UInt64.ofNat p.backlog.length

namespace Pipeline.Counts

variable {p : Pipeline ε} {settled : Nat}

omit [SearchEngine ε] in
theorem takeUp (h : p.Counts settled) (task : ImageTask) (rest : List ImageTask)
    (patches : List ImagePatch) (r : DrainReport) :
    (p.takeUp task rest patches r).2.2.Counts settled := by
  rcases takeUp_cases p task rest patches r with
    ⟨-, heq⟩ | ⟨-, images, disk, -, heq⟩ | ⟨-, fault, disk, -, heq⟩ <;>
  · rw [heq]
    exact ⟨h.processed, rfl⟩

theorem send (h : p.Counts settled) (patches : List ImagePatch) (r : DrainReport) :
    (p.send patches r).2.Counts settled := by
  rcases send_cases p patches r with ⟨-, heq⟩ | ⟨-, _, _, -, heq⟩ | ⟨-, _, _, -, heq⟩ <;>
  · rw [heq]
    exact ⟨h.processed, h.waiting⟩

theorem drainChunk (h : p.Counts settled) : p.drainChunk.2.Counts settled :=
  (takeUpSome_keeps (I := fun _ _ q => q.Counts settled)
    (fun task rest patches r _ _ hq => hq.takeUp task rest patches r) _ p [] {} h).send _ _

/-- A flush processes what was pending, whether the batch is committed or fails. -/
theorem flush (h : p.Counts settled) :
    Counts { p with writer := p.writer.flush.2 } settled := by
  rcases Writer.flush_cases p.writer with ⟨-, heq⟩ | ⟨-, _, _, -, heq⟩ | ⟨-, _, _, _, -, heq⟩
  · rw [heq]
    exact h
  · rw [heq]
    exact ⟨(UInt64.add_zero _).trans h.processed, h.waiting⟩
  · rw [heq]
    exact ⟨(UInt64.add_zero _).trans h.processed, h.waiting⟩

omit [SearchEngine ε] in
theorem attachImages (h : p.Counts settled) (r : Record) (d : Document) :
    (Worker.attachImages r d p).2.Counts settled := by
  rcases Worker.attachImages_cases r d p with
    ⟨-, heq⟩ | ⟨_, -, ⟨-, heq⟩ | ⟨-, _, _, -, heq⟩ | ⟨-, _, _, -, heq⟩⟩
  · rw [heq]
    exact h
  · rw [heq]
    exact ⟨h.processed, rfl⟩
  · rw [heq]
    exact ⟨h.processed, h.waiting⟩
  · rw [heq]
    exact ⟨h.processed, h.waiting⟩

/-- A document that is handed over is settled. -/
theorem write (h : p.Counts settled) (d : Document) :
    (Worker.write d p).Counts (settled + 1) := by
  have hheld : Counts { p with writer := { p.writer with pending := p.writer.pending ++ [d] } }
      (settled + 1) := by
    refine ⟨?_, h.waiting⟩
    show p.writer.job.tally.processed + UInt64.ofNat (p.writer.pending ++ [d]).length = _
    rw [List.length_append, UInt64.ofNat_add, ← UInt64.add_assoc, h.processed,
      ← UInt64.ofNat_add]
    rfl
  rcases Worker.write_cases d p with ⟨-, heq⟩ | ⟨-, heq⟩
  · rw [heq]
    exact hheld
  · rw [heq, Worker.catchUp]
    split
    · exact hheld.flush.drainChunk
    · exact hheld.flush

omit [SearchEngine ε] in
/-- A record that fails right away is settled. -/
theorem fail_one (h : p.Counts settled) (message : String) :
    (p.report fun job => (job.failed 1).logError message).Counts (settled + 1) := by
  refine ⟨?_, h.waiting⟩
  show p.writer.job.tally.processed + 1 + UInt64.ofNat p.writer.pending.length = _
  rw [UInt64.add_assoc, UInt64.add_comm 1, ← UInt64.add_assoc, h.processed, UInt64.ofNat_add]
  rfl

/-- **One event.**  Records, and reports of records that could not be made, settle one each. -/
theorem handle (h : p.Counts settled) (w : Worker) (e : Event) :
    (w.handle p e).Counts (settled + if e.settles then 1 else 0) := by
  cases e with
  | discovered _ | skipped _ | notice _ => exact ⟨h.processed, h.waiting⟩
  | failed entry reason => exact h.fail_one _
  | record r =>
    have hnoted : (Worker.noteSkip r (p.watch p.monitor.check)).Counts settled := by
      rw [Worker.noteSkip]
      cases r.imageSkip? with
      | none => exact ⟨h.processed, h.waiting⟩
      | some reason => cases reason <;> exact ⟨h.processed, h.waiting⟩
    rw [Worker.handle, Worker.handleRecord_eq]
    split
    · exact (hnoted.attachImages r (w.documentOf r)).write _
    · exact hnoted.fail_one _

theorem events (w : Worker) (events : List Event) :
    ∀ {p : Pipeline ε} {settled : Nat}, p.Counts settled →
      (events.foldl w.handle p).Counts (settled + Event.settled events) := by
  induction events with
  | nil => exact fun h => h
  | cons e rest ih =>
    intro p settled h
    rw [Event.settled_cons, Nat.add_comm (Event.settled rest), ← Nat.add_assoc]
    exact ih (h.handle w e)

end Pipeline.Counts

/-! ### The point of the interruption -/

/-- The worker stops at the first point where an interruption is there. -/
theorem Worker.consumeFrom_interrupted (w : Worker) (interrupt : ε → Nat → Bool)
    (events : List Event) :
    ∀ handled p k, k ≤ events.length →
      interrupt (w.after events k p).writer.engine (handled + k) = true →
      ∃ n ≤ k, w.consumeFrom interrupt handled p events =
          ⟨w.after events n p, handled + n, true⟩ ∧
        interrupt (w.after events n p).writer.engine (handled + n) = true ∧
        ∀ m < n, interrupt (w.after events m p).writer.engine (handled + m) = false := by
  induction events with
  | nil =>
    intro handled p k hk hinterrupt
    obtain rfl : k = 0 := Nat.le_zero.mp hk
    exact ⟨0, Nat.le_refl 0, by rw [consumeFrom]; exact congrArg _ hinterrupt, hinterrupt,
      fun m hm => absurd hm (Nat.not_lt_zero m)⟩
  | cons e rest ih =>
    intro handled p k hk hinterrupt
    rw [consumeFrom]
    -- the interruption is there now, or the rest of the events comes to it
    cases hnow : interrupt p.writer.engine handled with
    | true =>
      rw [if_pos rfl]
      exact ⟨0, Nat.zero_le k, rfl, hnow, fun m hm => absurd hm (Nat.not_lt_zero m)⟩
    | false =>
      rw [if_neg Bool.false_ne_true]
      cases k with
      | zero => exact absurd (hinterrupt.symm.trans hnow) (by decide)
      | succ k =>
        have hlater : interrupt (w.after rest k (w.handle p e)).writer.engine
            (handled + 1 + k) = true := by
          rw [Nat.add_assoc, Nat.add_comm 1]
          exact hinterrupt
        obtain ⟨n, hn, hstopped, hthere, hnot⟩ :=
          ih (handled + 1) (w.handle p e) k (Nat.le_of_succ_le_succ hk) hlater
        rw [Nat.add_assoc, Nat.add_comm 1] at hstopped hthere
        refine ⟨n + 1, Nat.succ_le_succ hn, hstopped, hthere, fun m hm => ?_⟩
        cases m with
        | zero => exact hnow
        | succ m =>
          have hbefore := hnot m (Nat.lt_of_succ_lt_succ hm)
          rw [Nat.add_assoc, Nat.add_comm 1] at hbefore
          exact hbefore

/-! ### What is given up -/

omit [SearchEngine ε] in
/-- Giving the backlog up counts every task as lost once, and leaves nothing waiting. -/
theorem Pipeline.abandon_spec {p : Pipeline ε} {settled : Nat} (h : p.Counts settled)
    (reason : String) :
    let q := (p.abandon reason).2
    q.writer.engine = p.writer.engine ∧ q.writer.pending = p.writer.pending ∧ q.backlog = [] ∧
      q.Counts settled ∧ q.writer.job.tally.imagesFailed =
        p.writer.job.tally.imagesFailed + UInt64.ofNat p.backlog.length := by
  -- each task is counted as lost once
  have hlost : ∀ (tasks : List ImageTask) (job : Job),
      (tasks.foldl (fun job _ => job.update .imageFailure) job).tally =
        { job.tally with
          imagesFailed := job.tally.imagesFailed + UInt64.ofNat tasks.length } := by
    intro tasks
    induction tasks with
    | nil => exact fun job => by simp
    | cons task rest ih =>
      intro job
      rw [List.foldl_cons, ih, List.length_cons, Nat.add_comm, UInt64.ofNat_add,
        ← UInt64.add_assoc]
      rfl
  rw [abandon]
  dsimp only
  split
  · rename_i hnone
    obtain hempty := List.length_eq_zero_iff.mp hnone
    refine ⟨rfl, rfl, hempty, h, ?_⟩
    rw [hnone]
    exact (UInt64.add_zero _).symm
  · have htally := hlost p.backlog p.writer.job
    refine ⟨rfl, rfl, rfl, ⟨?_, rfl⟩, ?_⟩
    · show (p.backlog.foldl (fun job _ => job.update .imageFailure) p.writer.job).tally.processed +
        UInt64.ofNat p.writer.pending.length = _
      rw [htally]
      exact h.processed
    · show (p.backlog.foldl (fun job _ => job.update .imageFailure) p.writer.job).tally.imagesFailed
        = _
      rw [htally]

/-- A flush makes no update and loses no images. -/
theorem Writer.flush_frame (w : Writer (Recorded ε)) :
    updates w.flush.2.engine.calls = updates w.engine.calls ∧
      w.flush.2.job.tally.imagesFailed = w.job.tally.imagesFailed := by
  obtain ⟨made, hcalls, -, hnone, -⟩ := w.engine.calls_commit_add w.commitTimeout w.pending
  constructor
  · rcases w.engine_flush with ⟨-, h⟩ | ⟨-, h⟩
    · rw [h]
    · rw [h, hcalls, updates_append, hnone, List.append_nil]
  · rcases w.flush_cases with ⟨-, h⟩ | ⟨-, _, _, -, h⟩ | ⟨-, _, _, _, -, h⟩
    · rw [h]
    · rw [h]
      rfl
    · rw [h]
      rfl

/-- After an interruption all that was handed over is in the batches, no update is made, and
nothing waits any more. -/
theorem Worker.settle_interrupted {p : Pipeline (Recorded ε)} {settled : Nat}
    (h : p.Counts settled) :
    let q := settle true p
    (batches q.calls).flatMap (·.1) = p.writer.handed ∧ updates q.calls = updates p.calls ∧
      q.writer.job.tally.imagesFailed =
        p.writer.job.tally.imagesFailed + UInt64.ofNat p.backlog.length ∧
      q.backlog = [] ∧ q.writer.job.tally.deferred = 0 ∧
      q.writer.job.tally.processed = UInt64.ofNat settled := by
  intro q
  obtain ⟨hengine, hpending, hbacklog, hcounts, hlost⟩ :=
    Pipeline.abandon_spec (p := { p with writer := p.writer.flush.2 }) h.flush interruption
  change q.writer.engine = p.writer.flush.2.engine at hengine
  change q.writer.pending = p.writer.flush.2.pending at hpending
  change q.Counts settled at hcounts
  obtain ⟨hupdates, hkept⟩ := p.writer.flush_frame
  have hidle : q.writer.pending = [] := hpending.trans (Writer.flush_pending p.writer)
  refine ⟨?_, ?_, ?_, hbacklog, ?_, ?_⟩
  · have hhanded := (Writer.handed_congr hengine hpending).trans (Writer.handed_flush p.writer)
    rw [← hhanded, Writer.handed, hidle, List.append_nil]
    rfl
  · rw [Pipeline.calls, hengine]
    exact hupdates
  · rw [← hkept]
    exact hlost
  · have hwaiting := hcounts.waiting
    rw [show q.backlog = [] from hbacklog] at hwaiting
    exact hwaiting
  · have hprocessed := hcounts.processed
    rw [hidle] at hprocessed
    exact (UInt64.add_zero _).symm.trans hprocessed

/-! ### Interrupted runs -/

/-- A run that was stopped after `n` events: nothing of what was handled is lost but the images
that were left for later, and the job has failed for the interruption. -/
structure Worker.Stopped (w : Worker) (source : Source) (p : Pipeline (Recorded ε)) (n : Nat)
    (q : Pipeline (Recorded ε)) : Prop where
  /-- Each record with enough text has its document in one place of one batch. -/
  documents : ((batches q.calls).flatMap (·.1)).map Document.bare =
    (source.events.take n).filterMap w.documentOf?
  /-- The engine was asked for no update but those of the events. -/
  updates : updates q.calls = updates (w.after source.events n p).calls
  /-- Each task that was still waiting counts as lost once. -/
  lost : q.writer.job.tally.imagesFailed =
    (w.after source.events n p).writer.job.tally.imagesFailed +
      UInt64.ofNat (w.after source.events n p).backlog.length
  backlog : q.backlog = []
  deferred : q.writer.job.tally.deferred = 0
  processed : q.writer.job.tally.processed = UInt64.ofNat (Event.settled (source.events.take n))
  status : q.writer.job.status = .failed
  fatal : q.writer.job.fatalError = some interruption
  /-- What the source failed with is the last entry of the log. -/
  errors : q.writer.job.errors =
    match (source.finish n).fatal with
    | some fatal => (settle true (w.after source.events n p)).writer.job.errors.push fatal
    | none => (settle true (w.after source.events n p)).writer.job.errors

omit [SearchEngine ε] in
/-- How an interrupted job is ended. -/
theorem Worker.conclude_interrupted (outcome : Outcome) (now : Instant) (p : Pipeline ε) :
    let job := (conclude outcome true now p).writer.job
    job.status = .failed ∧ job.fatalError = some interruption ∧
      job.errors =
        match outcome.fatal with
        | some fatal => p.writer.job.errors.push fatal
        | none => p.writer.job.errors := by
  intro job
  show (conclude outcome true now p).writer.job.status = _ ∧
    (conclude outcome true now p).writer.job.fatalError = _ ∧
    (conclude outcome true now p).writer.job.errors = _
  rw [conclude, if_pos rfl]
  cases outcome.fatal with
  | none => exact ⟨rfl, rfl, rfl⟩
  | some fatal => exact ⟨rfl, rfl, rfl⟩

/-- **Interruption.**  Whenever a run is interrupted before its source is seen to be at its end,
it stops at the first point where the interruption is there: no event is handled from then on,
what was accepted before is in the batches, and what was left for later is counted as lost. -/
theorem interruption_stops_runs (x : Ingestion) (w : Worker) (d : Disk) (engine : ε)
    (interrupt : Recorded ε → Nat → Bool) (source : Source) (now : Instant) (id : String)
    (kind : JobKind) (target : Path) (capacity : Nat) (started : Instant) (k : Nat)
    (hk : k ≤ source.events.length) :
    let p := x.pipeline (⟨engine, []⟩ : Recorded ε) (.start id kind target capacity started) d
    interrupt (w.after source.events k p).writer.engine k = true →
      ∃ n ≤ k, (w.consume interrupt source.events p).handled = n ∧
        interrupt (w.after source.events n p).writer.engine n = true ∧
        (∀ m < n, interrupt (w.after source.events m p).writer.engine m = false) ∧
        w.Stopped source p n (w.run interrupt source now p) := by
  intro p hinterrupt
  obtain ⟨n, hn, hstopped, hthere, hnot⟩ :=
    w.consumeFrom_interrupted interrupt source.events 0 p k hk (by rwa [Nat.zero_add])
  simp only [Nat.zero_add] at hstopped hthere hnot
  have hconsume : w.consume interrupt source.events p = ⟨w.after source.events n p, n, true⟩ :=
    hstopped
  refine ⟨n, hn, by rw [hconsume], hthere, hnot, ?_⟩
  -- what the loop has handed over and settled, and what is done with it afterwards
  have hhanded := w.handed_events (source.events.take n) p
  have hcounts := Pipeline.Counts.events w (source.events.take n)
    (show p.Counts 0 from ⟨rfl, rfl⟩)
  rw [Nat.zero_add] at hcounts
  have hrun : w.run interrupt source now p =
      Worker.conclude (source.finish n) true now
        (Worker.settle true (w.after source.events n p)) := by
    rw [Worker.run, hconsume]
  obtain ⟨change, hconclude⟩ := Worker.conclude_eq (source.finish n) true now
    (Worker.settle true (w.after source.events n p))
  have htally := Worker.conclude_tally (source.finish n) true now
    (Worker.settle true (w.after source.events n p))
  obtain ⟨hstatus, hfatal, herrors⟩ := Worker.conclude_interrupted (source.finish n) now
    (Worker.settle true (w.after source.events n p))
  rw [← hrun] at hconclude htally hstatus hfatal herrors
  obtain ⟨hdocuments, hupdates, hlost, hbacklog, hdeferred, hprocessed⟩ :=
    Worker.settle_interrupted hcounts
  refine ⟨?_, ?_, by rw [htally]; exact hlost, by rw [hconclude]; exact hbacklog,
    by rw [htally]; exact hdeferred, by rw [htally]; exact hprocessed, hstatus, hfatal, herrors⟩
  · rw [hconclude]
    exact (congrArg _ hdocuments).trans hhanded
  · rw [hconclude]
    exact hupdates

/-- A run over two articles that is interrupted once the first one was handled, whose thumbnail was
left for later. -/
theorem interruption_stops_runs_halfway :
    let x := Sample.ingestion { sampleInterval := 1 } 50
    let source : Source := { Sample.source [Sample.illustrated, Sample.plain] with
      finish := fun _ => { fatal := some "extractor was terminated by signal" } }
    let p := x.pipeline (⟨{}, []⟩ : Recorded MemoryEngine) Sample.job (Sample.disk [])
    let q := Sample.worker.run (fun _ handled => decide (2 ≤ handled)) source default p
    Sample.worker.Stopped source p 2 q ∧ q.writer.job.tally.processed = 1 := by
  intro x source p q
  obtain ⟨n, hn, -, hthere, -, hstopped⟩ := interruption_stops_runs x Sample.worker
    (Sample.disk []) ({} : MemoryEngine) (fun _ handled => decide (2 ≤ handled)) source default
    "job" .archiveIndex (.ofText "a.zim") 50 default 2 (by decide) (by decide)
  obtain rfl : n = 2 := Nat.le_antisymm hn (of_decide_eq_true hthere)
  have hend : Sample.worker.Stopped source p 2 q := hstopped
  exact ⟨hend, hend.processed⟩

end Corpus
