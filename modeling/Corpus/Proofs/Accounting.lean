/-
Corpus/Proofs/Accounting.lean

Every job accounts for every record.  The books of a running job balance: what is processed is
indexed or failed, what was settled is processed or still pending in the writer, and the number
of image sets shown as waiting is the length of the backlog.  Each step of a worker keeps the
books, and moves the totals by what the event promises and settles.

None of the counters wraps: what was settled is at most the number of events, and what was
promised stays countable since the source keeps its promise.
-/
import Corpus.Engine.Memory
import Corpus.Proofs.Pipeline
import Corpus.Proofs.Promise

namespace Corpus

/-- A sum that stays in range. -/
theorem toNat_add_of_fits {a b : UInt64} (h : a.toNat + b.toNat < UInt64.size) :
    (a + b).toNat = a.toNat + b.toNat := by
  rw [UInt64.toNat_add]
  exact Nat.mod_eq_of_lt h

/-! ### The books of a job -/

/-- The books of a running job: so many records announced and settled, so many of the settled
ones pending, and so many image sets waiting. -/
structure Job.Books (job : Job) (total settled pending waiting : Nat) : Prop where
  running : job.status = .running
  processed : job.tally.processed.toNat = job.tally.indexed.toNat + job.tally.failed.toNat
  settled : job.tally.processed.toNat + pending = settled
  total : job.tally.total.toNat = total
  deferred : job.tally.deferred = UInt64.ofNat waiting

/-- The update concerns neither records nor waiting image sets. -/
def JobUpdate.isQuiet : JobUpdate → Bool
  | .skipped | .image | .imageFailure | .imageSkip _ | .error _ => true
  | _ => false

namespace Job.Books

variable {job : Job} {total settled pending waiting : Nat}

theorem start (id : String) (kind : JobKind) (target : Path) (capacity : Nat) (now : Instant) :
    (Job.start id kind target capacity now).Books 0 0 0 0 :=
  ⟨rfl, rfl, rfl, rfl, rfl⟩

theorem quiet (h : job.Books total settled pending waiting) {u : JobUpdate}
    (hu : u.isQuiet = true) : (job.update u).Books total settled pending waiting := by
  obtain ⟨hrunning, hprocessed, hsettled, htotal, hdeferred⟩ := h
  match u with
  | .skipped | .image | .imageFailure | .imageSkip .icon | .imageSkip .notFound | .error _ =>
    exact ⟨hrunning, hprocessed, hsettled, htotal, hdeferred⟩
  | .discovered _ | .indexed _ | .failed _ | .deferred _ => cases hu

theorem setDeferred (h : job.Books total settled pending waiting) (n : Nat) :
    (job.setDeferred n).Books total settled pending n :=
  ⟨h.running, h.processed, h.settled, h.total, rfl⟩

theorem discovered (h : job.Books total settled pending waiting) {n : UInt64}
    (hn : total + n.toNat < UInt64.size) :
    (job.discovered n).Books (total + n.toNat) settled pending waiting := by
  refine ⟨h.running, h.processed, h.settled, ?_, h.deferred⟩
  show (job.tally.total + n).toNat = total + n.toNat
  rw [toNat_add_of_fits (by rw [h.total]; exact hn), h.total]

/-- A document that becomes pending is settled. -/
theorem hold (h : job.Books total settled pending waiting) :
    job.Books total (settled + 1) (pending + 1) waiting :=
  ⟨h.running, h.processed, by rw [← h.settled]; rfl, h.total, h.deferred⟩

/-- Some counted records were pending or are settled just now. -/
theorem count {n : Nat} {u : JobUpdate} (hu : u = .indexed (UInt64.ofNat n) ∨
      u = .failed (UInt64.ofNat n))
    (h : job.Books total settled (pending + n) waiting) (hs : settled < UInt64.size) :
    (job.update u).Books total settled pending waiting := by
  have hsettled := h.settled
  have hprocessed := h.processed
  have hn : (UInt64.ofNat n).toNat = n := UInt64.toNat_ofNat_of_lt' (by omega)
  have hsum : (job.tally.processed + UInt64.ofNat n).toNat = job.tally.processed.toNat + n := by
    rw [toNat_add_of_fits (by rw [hn]; omega), hn]
  have hleft : (job.tally.processed + UInt64.ofNat n).toNat + pending = settled := by omega
  -- the counter that grows beside the processed records is that of the update
  rcases hu with rfl | rfl
  · refine ⟨h.running, ?_, hleft, h.total, h.deferred⟩
    show (job.tally.processed + UInt64.ofNat n).toNat =
      (job.tally.indexed + UInt64.ofNat n).toNat + job.tally.failed.toNat
    rw [hsum, toNat_add_of_fits (by rw [hn]; omega), hn]
    omega
  · refine ⟨h.running, ?_, hleft, h.total, h.deferred⟩
    show (job.tally.processed + UInt64.ofNat n).toNat =
      job.tally.indexed.toNat + (job.tally.failed + UInt64.ofNat n).toNat
    rw [hsum, toNat_add_of_fits (by rw [hn]; omega), hn]
    omega

/-- A record that fails right away was never pending. -/
theorem fail_one (h : job.Books total settled pending waiting) (hs : settled + 1 < UInt64.size) :
    (job.failed 1).Books total (settled + 1) pending waiting :=
  count (n := 1) (.inr rfl) h.hold hs

end Job.Books

/-! ### The books of a pipeline -/

variable {ε : Type}

/-- The job of the pipeline keeps the books over its writer and its backlog. -/
def Pipeline.Balanced (p : Pipeline ε) (total settled : Nat) : Prop :=
  p.writer.job.Books total settled p.writer.pending.length p.backlog.length

namespace Pipeline.Balanced

variable {p : Pipeline ε} {total settled : Nat}

theorem report_quiet (h : p.Balanced total settled) {u : JobUpdate} (hu : u.isQuiet = true) :
    (p.report (·.update u)).Balanced total settled :=
  Job.Books.quiet h hu

theorem loseImages (h : p.Balanced total settled) (message : String) :
    (p.loseImages message).Balanced total settled :=
  (h.report_quiet (u := .imageFailure) rfl).report_quiet (u := .error message) rfl

theorem setBacklog (h : p.Balanced total settled) (tasks : List ImageTask) :
    (p.setBacklog tasks).Balanced total settled :=
  Job.Books.setDeferred h tasks.length

theorem takeUp (h : p.Balanced total settled) (task : ImageTask) (rest : List ImageTask)
    (patches : List ImagePatch) (r : DrainReport) :
    (p.takeUp task rest patches r).2.2.Balanced total settled := by
  have hrest := h.setBacklog rest
  rcases takeUp_cases p task rest patches r with
    ⟨-, h⟩ | ⟨-, images, disk, -, h⟩ | ⟨-, fault, disk, -, h⟩
  · rw [h]; exact hrest.loseImages _
  · rw [h]; exact report_quiet (p := { p.setBacklog rest with disk }) hrest rfl
  · rw [h]; exact loseImages (p := { p.setBacklog rest with disk }) hrest _

variable [SearchEngine ε]

theorem send (h : p.Balanced total settled) (patches : List ImagePatch) (r : DrainReport) :
    (p.send patches r).2.Balanced total settled := by
  rcases send_cases p patches r with ⟨-, heq⟩ | ⟨-, engine, stats, -, heq⟩ | ⟨-, _, engine, -, heq⟩
  · rw [heq]; exact h
  · rw [heq]; exact h
  · rw [heq]
    exact report_quiet (p := { p with writer := { p.writer with engine } }) h rfl

/-- A flush settles what was pending, one way or the other. -/
theorem flush (h : p.Balanced total settled) (hs : settled < UInt64.size) :
    Balanced { p with writer := p.writer.flush.2 } total settled := by
  have hcount : p.writer.job.Books total settled (0 + p.writer.pending.length)
      p.backlog.length := by rw [Nat.zero_add]; exact h
  rcases Writer.flush_cases p.writer with ⟨-, heq⟩ | ⟨-, _, _, -, heq⟩ | ⟨-, fault, _, _, -, heq⟩
  · rw [heq]; exact h
  · rw [heq]; exact hcount.count (.inl rfl) hs
  · rw [heq]
    exact (hcount.count (u := .failed _) (.inr rfl) hs).quiet (u := .error _) rfl

theorem drainChunk (h : p.Balanced total settled) : p.drainChunk.2.Balanced total settled :=
  (takeUpSome_keeps (I := fun _ _ p => p.Balanced total settled)
    (fun task rest patches r _ _ h => h.takeUp task rest patches r) _ p [] {} h).send _ _

/-- The last drain keeps the books. -/
theorem drainAll (h : p.Balanced total settled) : p.drainAll.2.Balanced total settled := by
  cases hempty : p.backlog.isEmpty with
  | true =>
    rw [drainAll_of_isEmpty hempty]
    exact h
  | false =>
    have hrested : p.rested.Balanced total settled := by
      rw [Balanced, rested_writer, rested_backlog]
      exact h
    obtain ⟨hdrained, -⟩ := drainTasks_keeps (I := fun _ _ q => q.Balanced total settled)
      (fun task rest patches r _ _ h => h.takeUp task rest patches r)
      (fun patches r _ h => h.send patches r) (fun _ _ _ _ h => h) p.backlog p.rested [] {}
      (rested_backlog p) hrested
    rw [drainAll_of_not_isEmpty hempty]
    exact hdrained.send _ _

omit [SearchEngine ε] in
/-- Giving the backlog up keeps the books, leaves nothing waiting and the pending batch alone. -/
theorem abandon (h : p.Balanced total settled) (reason : String) :
    (p.abandon reason).2.Balanced total settled ∧
      (p.abandon reason).2.writer.pending = p.writer.pending ∧
      (p.abandon reason).2.backlog = [] := by
  -- a lost image set is quiet, however many there are
  have hlost : ∀ (tasks : List ImageTask) (job : Job) {pending waiting : Nat},
      job.Books total settled pending waiting →
      (tasks.foldl (fun job _ => job.update .imageFailure) job).Books total settled pending
        waiting := by
    intro tasks
    induction tasks with
    | nil => exact fun _ _ _ h => h
    | cons task rest ih => exact fun job _ _ h => ih _ (h.quiet rfl)
  rw [Pipeline.abandon]
  dsimp only
  split
  · rename_i hempty
    exact ⟨h, rfl, List.length_eq_zero_iff.mp hempty⟩
  · have hreported : (p.report fun job =>
        p.backlog.foldl (fun job _ => job.update .imageFailure) job).Balanced total settled :=
      hlost p.backlog p.writer.job h
    exact ⟨(hreported.setBacklog []).report_quiet (u := .error _) rfl, rfl, rfl⟩

/-! ### The books across events -/

open Worker

omit [SearchEngine ε] in
theorem noteSkip (h : p.Balanced total settled) (r : Record) :
    (noteSkip r p).Balanced total settled := by
  unfold Worker.noteSkip
  split
  · exact h.report_quiet rfl
  · exact h

omit [SearchEngine ε] in
theorem attachImages (h : p.Balanced total settled) (r : Record) (d : Document) :
    (attachImages r d p).2.Balanced total settled := by
  rcases attachImages_cases r d p with
    ⟨-, heq⟩ | ⟨staging, -, ⟨-, heq⟩ | ⟨-, images, disk, -, heq⟩ | ⟨-, fault, disk, -, heq⟩⟩
  · rw [heq]; exact h
  · rw [heq]; exact h.setBacklog _
  · rw [heq]; exact report_quiet (p := { p with disk }) h rfl
  · rw [heq]; exact loseImages (p := { p with disk }) h _

/-- A document that is handed over is settled: pending, or in a batch that was flushed. -/
theorem write (h : p.Balanced total settled) (d : Document) (hs : settled + 1 < UInt64.size) :
    (write d p).Balanced total (settled + 1) := by
  have hheld : Balanced { p with writer := { p.writer with pending := p.writer.pending ++ [d] } }
      total (settled + 1) := by
    show Job.Books _ _ _ (p.writer.pending ++ [d]).length _
    rw [List.length_append, List.length_singleton]
    exact Job.Books.hold h
  rcases write_cases d p with ⟨-, heq⟩ | ⟨-, heq⟩
  · rw [heq]; exact hheld
  · rw [heq, catchUp]
    split
    · exact (hheld.flush hs).drainChunk
    · exact hheld.flush hs

theorem handleRecord (w : Worker) (h : p.Balanced total settled) (r : Record)
    (hs : settled + 1 < UInt64.size) : (w.handleRecord r p).Balanced total (settled + 1) := by
  have hnoted : (Worker.noteSkip r (p.watch p.monitor.check)).Balanced total settled :=
    Balanced.noteSkip (p := p.watch p.monitor.check) h r
  rw [Worker.handleRecord]
  dsimp only
  split
  · exact Balanced.write (Balanced.attachImages hnoted r _) _ hs
  · exact (Job.Books.fail_one hnoted hs).quiet (u := .error _) rfl

/-- **One event.**  An event moves the totals by what it promises and settles, and the books
stay in balance. -/
theorem handle (w : Worker) (h : p.Balanced total settled) (e : Event)
    (ht : total + e.promise < UInt64.size)
    (hs : (settled + if e.settles then 1 else 0) < UInt64.size) :
    (w.handle p e).Balanced (total + e.promise) (settled + if e.settles then 1 else 0) := by
  cases e with
  | discovered n => exact Job.Books.discovered h ht
  | skipped entry => exact h.report_quiet (u := .skipped) rfl
  | notice message => exact h.report_quiet (u := .error message) rfl
  | failed entry reason => exact (Job.Books.fail_one h hs).quiet (u := .error _) rfl
  | record r => exact handleRecord w h r hs

/-- Some events move the totals by what they promise and settle together. -/
theorem events (w : Worker) (events : List Event) :
    ∀ {p : Pipeline ε} {total settled : Nat}, p.Balanced total settled →
      total + Event.promised events < UInt64.size →
      settled + Event.settled events < UInt64.size →
      (events.foldl w.handle p).Balanced (total + Event.promised events)
        (settled + Event.settled events) := by
  induction events with
  | nil => exact fun h _ _ => h
  | cons e rest ih =>
    intro p total settled h ht hs
    rw [Event.promised_cons, ← Nat.add_assoc] at ht ⊢
    rw [Event.settled_cons, Nat.add_comm (Event.settled rest), ← Nat.add_assoc] at hs ⊢
    exact ih (h.handle w e (by omega) (by omega)) ht hs

/-- At the end nothing is pending and nothing waits. -/
theorem settle (h : p.Balanced total settled) (hs : settled < UInt64.size)
    (interrupted : Bool) :
    let q := Worker.settle interrupted p
    q.Balanced total settled ∧ q.writer.pending = [] ∧ q.backlog = [] := by
  have hflushed := h.flush hs
  have hempty : ({ p with writer := p.writer.flush.2 } : Pipeline ε).writer.pending = [] :=
    Writer.flush_pending p.writer
  cases interrupted with
  | true =>
    obtain ⟨hend, hpending, hbacklog⟩ := hflushed.abandon interruption
    exact ⟨hend, hpending.trans hempty, hbacklog⟩
  | false =>
    obtain ⟨hpending, hbacklog⟩ :=
      Pipeline.drainAll_frame ({ p with writer := p.writer.flush.2 } : Pipeline ε)
    exact ⟨hflushed.drainAll, hpending.trans hempty, hbacklog⟩

end Pipeline.Balanced

/-! ### The end of a job -/

/-- A job that has ended and accounts for every record: one that is completed has processed all
that was announced, and one that has failed no more than that. -/
structure Job.Closed (job : Job) : Prop where
  terminal : job.status.isTerminal = true
  processed : job.tally.processed.toNat = job.tally.indexed.toNat + job.tally.failed.toNat
  deferred : job.tally.deferred = 0
  completed : job.status = .completed → job.tally.processed = job.tally.total
  failed : job.status = .failed → job.tally.processed ≤ job.tally.total

namespace Job.Books

variable {job : Job} {total settled : Nat}

theorem fail (h : job.Books total settled 0 0) (hle : settled ≤ total) (message : String)
    (monitor : Option MonitorSummary) (now : Instant) : (job.fail message monitor now).Closed := by
  have hsettled := h.settled
  have htotal := h.total
  refine ⟨rfl, h.processed, h.deferred, fun hstatus => ?_, fun _ => ?_⟩
  · cases hstatus
  · show job.tally.processed.toNat ≤ job.tally.total.toNat
    omega

theorem complete (h : job.Books total settled 0 0) (heq : settled = total)
    (monitor : Option MonitorSummary) (now : Instant) : (job.complete monitor now).Closed := by
  have hsettled := h.settled
  have htotal := h.total
  refine ⟨rfl, h.processed, h.deferred, fun _ => ?_, fun hstatus => ?_⟩
  · apply UInt64.toNat_inj.mp
    show job.tally.processed.toNat = job.tally.total.toNat
    omega
  · cases hstatus

end Job.Books

/-- A run closes its job if no more was settled than promised, and all of it unless the source
failed or the run was interrupted. -/
theorem Pipeline.Balanced.conclude {p : Pipeline ε} {total settled : Nat}
    (h : p.Balanced total settled) (hpending : p.writer.pending = []) (hbacklog : p.backlog = [])
    (outcome : Outcome) (interrupted : Bool) (now : Instant) (hle : settled ≤ total)
    (hall : interrupted = false → outcome.fatal = none → settled = total) :
    (Worker.conclude outcome interrupted now p).writer.job.Closed := by
  have hbooks : p.writer.job.Books total settled 0 0 := by
    rw [Balanced, hpending, hbacklog] at h
    exact h
  unfold Worker.conclude
  cases interrupted with
  | true =>
    rw [if_pos rfl, report_writer, Writer.report_job]
    cases outcome.fatal with
    | some fatal => exact Job.Books.fail (hbooks.quiet (u := .error fatal) rfl) hle _ _ _
    | none => exact hbooks.fail hle _ _ _
  | false =>
    rw [if_neg Bool.false_ne_true]
    cases hfatal : outcome.fatal with
    | some fatal => exact hbooks.fail hle _ _ _
    | none =>
      have heq := hall rfl hfatal
      rw [report_writer, Writer.report_job]
      cases outcome.anomaly with
      | some anomaly => exact Job.Books.complete (hbooks.quiet (u := .error anomaly) rfl) heq _ _
      | none => exact hbooks.complete heq _ _

/-! ### Whole runs -/

/-- What a running job shows after some events: processed records are indexed or failed, with
the pending ones they are those that the events settled, and at most as many as announced. -/
structure Pipeline.Accounts (p : Pipeline ε) (events : List Event) : Prop where
  processed : p.writer.job.tally.processed.toNat =
    p.writer.job.tally.indexed.toNat + p.writer.job.tally.failed.toNat
  settled : p.writer.job.tally.processed.toNat + p.writer.pending.length = Event.settled events
  announced : Event.settled events ≤ p.writer.job.tally.total.toNat

variable [SearchEngine ε]

/-- The pipeline of a worker after the first `k` events. -/
def Worker.after (w : Worker) (events : List Event) (k : Nat) (p : Pipeline ε) : Pipeline ε :=
  (events.take k).foldl w.handle p

section Run

variable (w : Worker) {source : Source} (hsource : source.KeepsPromise)
  (hfew : source.events.length < UInt64.size) {p : Pipeline ε} (hp : p.Balanced 0 0)

include hsource hfew hp

/-- The books after each event hold what the events up to it promised and settled. -/
theorem Worker.balanced_after (k : Nat) :
    (w.after source.events k p).Balanced (Event.promised (source.events.take k))
      (Event.settled (source.events.take k)) := by
  have hpromised := Event.promised_take_le source.events k
  have hsettled := Event.settled_le_length (source.events.take k)
  have hlength := List.length_take_le' k source.events
  have hcountable := hsource.countable
  have h := Pipeline.Balanced.events w (source.events.take k) hp (by omega) (by omega)
  rw [Nat.zero_add, Nat.zero_add] at h
  exact h

theorem Worker.accounts_after (k : Nat) :
    (w.after source.events k p).Accounts (source.events.take k) := by
  have h := w.balanced_after hsource hfew hp k
  exact ⟨h.processed, h.settled, h.total.symm ▸ hsource.kept k⟩

/-- No event takes announced records back. -/
theorem Worker.total_grows (k : Nat) :
    (w.after source.events k p).writer.job.tally.total ≤
      (w.after source.events (k + 1) p).writer.job.tally.total := by
  have hnow := (w.balanced_after hsource hfew hp k).total
  have hnext := (w.balanced_after hsource hfew hp (k + 1)).total
  have hsplit : source.events.take k = (source.events.take (k + 1)).take k := by
    rw [List.take_take, Nat.min_eq_left (Nat.le_succ k)]
  have hle : Event.promised (source.events.take k) ≤
      Event.promised (source.events.take (k + 1)) := by
    rw [hsplit]; exact Event.promised_take_le _ k
  show UInt64.toNat _ ≤ UInt64.toNat _
  omega

/-- A run ends with nothing pending and its job closed. -/
theorem Worker.closed_run (interrupt : ε → Nat → Bool) (now : Instant) :
    (w.run interrupt source now p).writer.pending = [] ∧
      (w.run interrupt source now p).writer.job.Closed := by
  obtain ⟨k, hk, hhandled, hpipeline, hall⟩ := w.consumeFrom_eq interrupt source.events 0 p
  rw [Nat.zero_add] at hhandled
  rw [Worker.run, Worker.consume]
  have hbalanced := w.balanced_after hsource hfew hp k
  rw [Worker.after, ← hpipeline] at hbalanced
  have hsettled := Event.settled_le_length (source.events.take k)
  have hlength := List.length_take_le' k source.events
  obtain ⟨hend, hpending, hbacklog⟩ := hbalanced.settle (by omega)
    (w.consumeFrom interrupt 0 p source.events).interrupted
  refine ⟨?_, hend.conclude hpending hbacklog _ _ _ (hsource.kept k) ?_⟩
  · obtain ⟨change, hconclude⟩ := Worker.conclude_eq
      (source.finish (w.consumeFrom interrupt 0 p source.events).handled)
      (w.consumeFrom interrupt 0 p source.events).interrupted now
      (Worker.settle (w.consumeFrom interrupt 0 p source.events).interrupted
        (w.consumeFrom interrupt 0 p source.events).pipeline)
    rw [hconclude]
    exact hpending
  · intro hinterrupted hfatal
    rw [hhandled, hall hinterrupted] at hfatal
    rw [hall hinterrupted, List.take_length]
    exact hsource.fulfilled hfatal

end Run

end Corpus
