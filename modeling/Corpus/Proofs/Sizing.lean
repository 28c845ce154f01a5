/-
Corpus/Proofs/Sizing.lean

How large batches get.

The size of a batch moves while the batch is being collected: a sample may shrink it below what is
pending already, or let it grow.  Two facts bound the batches all the same.  No rung of the ladder
leaves the range of the settings (`Control.within_step`), and a push commits as soon as as many
documents are pending as the size in force asks for, so

    documents pending after a push  <  size in force at that push  ≤  largest size of the settings

and there is room for one more document at every moment between two pushes (`Pipeline.Sized`).
Taking up thumbnails adds no document, so what is committed at the end of a run fits as well.
-/
import Corpus.Proofs.Accounting
import Corpus.Proofs.Batching
import Corpus.Proofs.Pressure
import Corpus.Settings.Check

namespace Corpus

open EngineCall (added added_append)

/-! ### The range of the ladder -/

/-- The settings allow some size of batches, and none of them is zero. -/
def MonitorSettings.Sizes (s : MonitorSettings) : Prop :=
  0 < s.batchMin ∧ s.batchMin ≤ s.batchMax

/-- The default size lies between the smallest and the largest one. -/
theorem Settings.Valid.sizes {s : Settings} (h : s.Valid) : s.monitor.Sizes := by
  have hordered : s.monitor.batchesOrdered = true := by
    by_contra hno
    rw [Bool.not_eq_true] at hno
    rw [Valid, fault?, hno] at h
    cases h
  rw [MonitorSettings.batchesOrdered, Bool.and_eq_true, Bool.and_eq_true, bne_iff_ne,
    decide_eq_true_iff, decide_eq_true_iff] at hordered
  obtain ⟨⟨hpos, hmin⟩, hmax⟩ := hordered
  exact ⟨UInt64.pos_iff_ne_zero.mpr hpos, UInt64.le_trans hmin hmax⟩

namespace Control

/-- The size in force lies in the range of the settings. -/
def Within (s : MonitorSettings) (c : Control) : Prop :=
  s.batchMin ≤ c.batchSize ∧ c.batchSize ≤ s.batchMax

variable {s : MonitorSettings}

theorem clampBatch_bounds (h : s.Sizes) (size : UInt64) :
    s.batchMin ≤ clampBatch s size ∧ clampBatch s size ≤ s.batchMax := by
  rw [clampBatch]
  split
  · exact ⟨UInt64.le_refl _, h.2⟩
  · rename_i hmin
    split
    · exact ⟨h.2, UInt64.le_refl _⟩
    · rename_i hmax
      exact ⟨UInt64.not_lt.mp hmin, UInt64.not_lt.mp hmax⟩

theorem within_initial (h : s.Sizes) : (initial s).Within s := clampBatch_bounds h _

/-- Every rung ends in the range, whatever the arithmetic before it comes to. -/
theorem within_step (h : s.Sizes) (current : Control) (band : Band) (load : LoadLevel) :
    (current.step s band load).Within s :=
  clampBatch_bounds h _

end Control

namespace Monitor

/-- The monitor goes by the settings, and the size in force lies in their range. -/
def Within (s : MonitorSettings) (m : Monitor) : Prop := m.settings = s ∧ m.control.Within s

variable {s : MonitorSettings} {m : Monitor}

theorem Within.sample (hs : s.Sizes) (h : m.Within s) : m.sample.2.Within s := by
  obtain ⟨hsettings, hcontrol⟩ := h
  unfold Monitor.sample
  dsimp only
  split
  · exact ⟨hsettings, hcontrol⟩
  · refine ⟨hsettings, ?_⟩
    rw [hsettings]
    exact Control.within_step hs _ _ _

/-- Counting a record keeps the size in the range, with a sample or without one. -/
theorem Within.check (hs : s.Sizes) (h : m.Within s) : m.check.Within s := by
  unfold Monitor.check
  dsimp only
  split
  · exact Within.sample hs (m := { m with checks := m.checks + 1 }) h
  · exact h

end Monitor

/-! ### Calls that add no batch -/

variable {ε : Type} [SearchEngine ε]

namespace Pipeline

theorem added_send (p : Pipeline (Recorded ε)) (patches : List ImagePatch) (r : DrainReport) :
    added (p.send patches r).2.calls = added p.calls := by
  obtain ⟨hadded, -⟩ := p.writer.engine.ends_commit_update p.writer.maintenanceTimeout patches
  rcases p.engine_send patches r with ⟨-, h⟩ | ⟨-, h⟩
  · rw [h]
  · rw [calls, h]
    exact hadded

omit [SearchEngine ε] in
theorem calls_takeUp (p : Pipeline (Recorded ε)) (task : ImageTask) (rest : List ImageTask)
    (patches : List ImagePatch) (r : DrainReport) :
    (p.takeUp task rest patches r).2.2.calls = p.calls :=
  congrArg Recorded.calls (takeUp_frame p task rest patches r).1

/-- The last drain adds no document. -/
theorem added_drainAll (p : Pipeline (Recorded ε)) : added p.drainAll.2.calls = added p.calls := by
  cases hempty : p.backlog.isEmpty with
  | true => rw [drainAll_of_isEmpty hempty]
  | false =>
    rw [drainAll_of_not_isEmpty hempty, added_send]
    have hrested : added p.rested.calls = added p.calls := by
      rw [calls, calls, rested_writer]
    exact (drainTasks_keeps (I := fun _ _ q => added q.calls = added p.calls)
      (fun task rest patches r q _ hq =>
        (congrArg added (calls_takeUp q task rest patches r)).trans hq)
      (fun patches r q hq => (added_send q patches r).trans hq)
      (fun _ _ _ _ hq => hq) p.backlog p.rested [] {} p.rested_backlog hrested).1

end Pipeline

/-- Committing what is pending makes one batch of it, if there is anything. -/
theorem Writer.added_flush (w : Writer (Recorded ε)) :
    added w.flush.2.engine.calls =
      added w.engine.calls ++ if w.pending = [] then [] else [w.pending] := by
  obtain ⟨hadded, -⟩ := w.engine.ends_commit_add w.commitTimeout w.pending
  rcases w.engine_flush with ⟨hp, h⟩ | ⟨hp, h⟩
  · rw [h, if_pos hp, List.append_nil]
  · rw [h, if_neg hp]
    exact hadded

/-! ### The bound on batches -/

/-- The batch holds a document, and at most as many as the settings allow. -/
def MonitorSettings.Fits (s : MonitorSettings) (batch : List Document) : Prop :=
  1 ≤ batch.length ∧ batch.length ≤ s.batchMax.toNat

namespace Pipeline

/-- All batches fit, the size in force lies in the range of the settings, and there is room for one
more document. -/
structure Sized (s : MonitorSettings) (p : Pipeline (Recorded ε)) : Prop where
  monitor : p.monitor.Within s
  room : p.writer.pending.length < s.batchMax.toNat
  batches : ∀ batch ∈ added p.calls, s.Fits batch

namespace Sized

variable {s : MonitorSettings} {p q : Pipeline (Recorded ε)}

omit [SearchEngine ε] in
/-- The bound goes by the monitor, the documents pending and the batches alone. -/
theorem congr (h : p.Sized s) (hmonitor : q.monitor = p.monitor)
    (hpending : q.writer.pending = p.writer.pending) (hadded : added q.calls = added p.calls) :
    q.Sized s :=
  ⟨hmonitor ▸ h.monitor, hpending ▸ h.room, hadded ▸ h.batches⟩

/-- Taking a chunk of thumbnails up neither adds a document nor takes one away. -/
theorem drainChunk (h : p.Sized s) :
    p.drainChunk.2.Sized s ∧ p.drainChunk.2.writer.pending = p.writer.pending := by
  have htaken := takeUpSome_keeps
    (I := fun _ _ (q : Pipeline (Recorded ε)) =>
      q.Sized s ∧ q.writer.pending = p.writer.pending)
    (fun task rest patches r q _ hq => by
      obtain ⟨-, hpending, -, -, hmonitor, -⟩ := takeUp_frame q task rest patches r
      exact ⟨hq.1.congr hmonitor hpending (congrArg added (calls_takeUp q task rest patches r)),
        hpending.trans hq.2⟩)
    (max p.deferred.drainChunk.toNat 1) p [] {} ⟨h, rfl⟩
  rw [Pipeline.drainChunk]
  generalize takeUpSome (max p.deferred.drainChunk.toNat 1) p [] {} = taken at htaken ⊢
  obtain ⟨patches, r, q⟩ := taken
  obtain ⟨hpending, -, -, hmonitor, -⟩ := send_frame q patches r
  exact ⟨htaken.1.congr hmonitor hpending (added_send q patches r), hpending.trans htaken.2⟩

/-- **One push.**  Fewer documents are pending behind it than the size in force asks for. -/
theorem write (hs : s.Sizes) (h : p.Sized s) (d : Document) :
    (Worker.write d p).Sized s ∧
      (Worker.write d p).writer.pending.length < p.monitor.control.batchSize.toNat := by
  obtain ⟨hmin, hmax⟩ := h.monitor.2
  have hone : 0 < p.monitor.control.batchSize.toNat :=
    UInt64.lt_iff_toNat_lt.mp (UInt64.lt_of_lt_of_le hs.1 hmin)
  have hmost : p.monitor.control.batchSize.toNat ≤ s.batchMax.toNat :=
    UInt64.le_iff_toNat_le.mp hmax
  have hroom := h.room
  rcases Worker.write_cases d p with ⟨hfew, heq⟩ | ⟨-, heq⟩
  · -- the size in force is no less than one, so it is the bound of the push
    rw [Nat.max_eq_left hone] at hfew
    rw [heq]
    exact ⟨⟨h.monitor, Nat.lt_of_lt_of_le hfew hmost, h.batches⟩, hfew⟩
  · -- the batch may be larger than the size in force, but there was room for its last document
    have hflushed : Sized s { p with
        writer := ({ p.writer with pending := p.writer.pending ++ [d] } : Writer _).flush.2 } := by
      refine ⟨h.monitor, ?_, ?_⟩
      · rw [Writer.flush_pending]
        exact Nat.lt_of_lt_of_le hone hmost
      · intro batch hbatch
        rw [calls, Writer.added_flush, if_neg (by simp), List.mem_append,
          List.mem_singleton] at hbatch
        rcases hbatch with hold | rfl
        · exact h.batches batch hold
        · rw [MonitorSettings.Fits, List.length_append, List.length_singleton]
          omega
    have hnone : ({ p.writer with pending := p.writer.pending ++ [d] } : Writer _).flush.2.pending =
        [] := Writer.flush_pending _
    rw [heq, Worker.catchUp]
    split
    · obtain ⟨hsized, hpending⟩ := hflushed.drainChunk
      refine ⟨hsized, ?_⟩
      rw [hpending, hnone]
      exact hone
    · refine ⟨hflushed, ?_⟩
      rw [hnone]
      exact hone

end Sized

end Pipeline

/-! ### The bound along a run -/

/-- The size in force for the record that comes next: what the monitor says when the record has
been counted. -/
def Pipeline.nextSize (p : Pipeline ε) : Nat := p.monitor.check.control.batchSize.toNat

namespace Worker

open Pipeline (Sized)

variable {s : MonitorSettings} (hs : s.Sizes) (w : Worker)

include hs

/-- **One event.**  Batches stay within bounds, and a record that hands a document over leaves fewer
documents pending than the size in force asks for. -/
theorem sized_handle {p : Pipeline (Recorded ε)} (h : p.Sized s) (e : Event) :
    (w.handle p e).Sized s ∧
      ∀ r, e = .record r → w.isSubstantial r = true →
        (w.handle p e).writer.pending.length < p.nextSize := by
  cases e with
  | discovered _ | skipped _ | failed _ _ | notice _ => exact ⟨h.congr rfl rfl rfl, nofun⟩
  | record r =>
    have hwatched : (p.watch p.monitor.check).Sized s := ⟨h.monitor.check hs, h.room, h.batches⟩
    obtain ⟨change, hnoted⟩ := noteSkip_eq r (p.watch p.monitor.check)
    have hreported : (noteSkip r (p.watch p.monitor.check)).Sized s ∧
        (noteSkip r (p.watch p.monitor.check)).monitor = p.monitor.check := by
      rw [hnoted]
      exact ⟨hwatched.congr rfl rfl rfl, rfl⟩
    rw [handle, handleRecord_eq]
    generalize noteSkip r (p.watch p.monitor.check) = q at hreported ⊢
    obtain ⟨hsized, hmonitor⟩ := hreported
    cases hsubstantial : w.isSubstantial r with
    | true =>
      -- thumbnails come between the sample and the push, and leave the size alone
      obtain ⟨hengine, hpending, -, hkept, -⟩ := attachImages_frame r (w.documentOf r) q
      have hattached : (attachImages r (w.documentOf r) q).2.Sized s :=
        hsized.congr hkept hpending (congrArg (added ∘ Recorded.calls) hengine)
      obtain ⟨hwritten, hfew⟩ := hattached.write hs (attachImages r (w.documentOf r) q).1
      rw [hkept, hmonitor] at hfew
      rw [if_pos rfl]
      exact ⟨hwritten, fun _ _ _ => hfew⟩
    | false =>
      rw [if_neg Bool.false_ne_true]
      refine ⟨hsized.congr rfl rfl rfl, ?_⟩
      rintro r' ⟨⟩ hother
      rw [hsubstantial] at hother
      cases hother

/-- Any number of events. -/
theorem sized_events (events : List Event) :
    ∀ {p : Pipeline (Recorded ε)}, p.Sized s → (events.foldl w.handle p).Sized s := by
  induction events with
  | nil => exact fun h => h
  | cons e rest ih => exact fun h => ih (w.sized_handle hs h e).1

omit hs w in
/-- At the end of a run the documents that are pending make the last batch. -/
theorem fits_settle {p : Pipeline (Recorded ε)} (h : p.Sized s) (interrupted : Bool) :
    ∀ batch ∈ added (settle interrupted p).calls, s.Fits batch := by
  have hsettled : added (settle interrupted p).calls = added p.writer.flush.2.engine.calls := by
    rw [settle]
    cases interrupted with
    | true =>
      rw [if_pos rfl, Pipeline.calls_abandon]
      rfl
    | false =>
      rw [if_neg Bool.false_ne_true, Pipeline.added_drainAll]
      rfl
  intro batch hbatch
  rw [hsettled, Writer.added_flush, List.mem_append] at hbatch
  rcases hbatch with hold | hlast
  · exact h.batches batch hold
  · split at hlast
    · cases hlast
    · rename_i hpending
      rw [List.mem_singleton.mp hlast]
      exact ⟨List.length_pos_iff.mpr hpending, h.room.le⟩

end Worker

/-- **Sizes of batches.**  In every run under valid settings, whatever the records, the readings of
the probe, the answers of the engine and the point of an interruption are: between two pushes there
is room for one more document in a batch of the largest size, each push leaves fewer documents
pending than the size in force for it, and no batch is empty or larger than the settings allow. -/
theorem batches_stay_within_settings (x : Ingestion) (hvalid : x.settings.Valid) (w : Worker)
    (interrupt : Recorded ε → Nat → Bool) (engine : ε) (d : Disk) (source : Source) (job : Job)
    (now : Instant) :
    let p := x.pipeline (⟨engine, []⟩ : Recorded ε) job d
    let c := w.consume interrupt source.events p
    let most := x.settings.monitor.batchMax.toNat
    (∀ k ≤ c.handled, (w.after source.events k p).writer.pending.length + 1 ≤ most) ∧
    (∀ k < c.handled, ∀ r, source.events[k]? = some (.record r) → w.isSubstantial r = true →
      (w.after source.events (k + 1) p).writer.pending.length <
          (w.after source.events k p).nextSize ∧
        (w.after source.events k p).nextSize ≤ most) ∧
    ∀ batch ∈ added (w.run interrupt source now p).calls,
      1 ≤ batch.length ∧ batch.length ≤ most := by
  intro p c most
  have hs := hvalid.sizes
  have hmost : 0 < most := by
    have hpos := UInt64.lt_iff_toNat_lt.mp (UInt64.lt_of_lt_of_le hs.1 hs.2)
    exact hpos
  have hstart : p.Sized x.settings.monitor :=
    ⟨⟨rfl, Control.within_initial hs⟩, hmost, nofun⟩
  have hafter : ∀ k, (w.after source.events k p).Sized x.settings.monitor :=
    fun k => w.sized_events hs (source.events.take k) hstart
  refine ⟨fun k _ => (hafter k).room, ?_, ?_⟩
  · intro k _ r hevent hsubstantial
    have hnext : w.after source.events (k + 1) p =
        w.handle (w.after source.events k p) (.record r) := by
      rw [Worker.after, List.take_add_one, hevent, List.foldl_append]
      rfl
    obtain ⟨-, hfew⟩ := w.sized_handle hs (hafter k) (.record r)
    obtain ⟨-, -, hle⟩ := (hafter k).monitor.check hs
    refine ⟨?_, UInt64.le_iff_toNat_le.mp hle⟩
    rw [hnext]
    exact hfew r rfl hsubstantial
  · obtain ⟨k, -, -, hpipeline, -⟩ := w.consumeFrom_eq interrupt source.events 0 p
    rw [Worker.run, Worker.consume, hpipeline]
    generalize w.consumeFrom interrupt 0 p source.events = c
    obtain ⟨change, hconclude⟩ := Worker.conclude_eq (source.finish c.handled) c.interrupted now
      (Worker.settle c.interrupted ((source.events.take k).foldl w.handle p))
    rw [hconclude]
    exact Worker.fits_settle (hafter k) c.interrupted

/-- A machine that is short of memory from the third reading on, where batches start at three
documents. -/
def Sample.tightening : Ingestion :=
  { Sample.ingestion { sampleInterval := 1, batchMin := 1, batchDefault := 3, batchMax := 4 } 0 with
    probe :=
      { readings := fun n => ⟨1000, if n < 2 then 450 else 50, 0, 0.5⟩, processors := 4 } }

set_option maxRecDepth 100000 in
/-- Two documents are pending when the size in force falls to one.  The third one makes a batch
larger than that, and one that fits all the same. -/
theorem batches_stay_within_settings_tightening :
    let p := Sample.tightening.pipeline (⟨{}, []⟩ : Recorded MemoryEngine) Sample.job
      (Sample.disk [])
    let source := Sample.source (List.replicate 4 Sample.plain)
    let batches := added (Sample.worker.run (fun _ _ => false) source default p).calls
    Sample.tightening.settings.Valid ∧
      (Sample.worker.after source.events 5 p).writer.pending.length = 2 ∧
      (Sample.worker.after source.events 5 p).nextSize = 1 ∧
      batches.map List.length = [3, 1] ∧
      ∀ batch ∈ batches, 1 ≤ batch.length ∧ batch.length ≤ 4 := by
  intro p source batches
  have hvalid : Sample.tightening.settings.Valid := by decide
  obtain ⟨-, -, hfits⟩ := batches_stay_within_settings Sample.tightening hvalid Sample.worker
    (fun _ _ => false) ({} : MemoryEngine) (Sample.disk []) source Sample.job default
  exact ⟨hvalid, by decide +kernel, by decide +kernel, by decide +kernel, hfits⟩

end Corpus
