/-
Corpus/Proofs/Patching.lean

An update of image fields never goes ahead of its document:

    every identifier in an update belongs to a batch that was committed before, to no batch
    that failed, and to no document that still waits in the writer.

Four places work together for this.  A task is put into the backlog right before its document
goes to the writer; the backlog is taken up only after a flush; identifiers in failed batches
are remembered; and the last flush comes before the last drain.  The invariant `Covered` ties
them: every task of the backlog has a document among those handed to the writer, and the
rejected identifiers are those of the failed batches.  Right after a flush nothing waits, so
a task that is not rejected has its document in a committed batch.

The theorems are about runs over a recording engine, and about each update at the moment when
it is made, with the writer that makes it.
-/
import Corpus.Ingest.Run
import Corpus.Proofs.Indexing
import Corpus.Proofs.Pipeline
import Corpus.Proofs.Recording

namespace Corpus

open EngineCall (batches batches_append updates_append)

/-! ### The updates of a run -/

/-- An update as it is made: the writer that makes it and the patches that it sends. -/
structure UpdateCall (ε : Type) where
  writer : Writer ε
  patches : List ImagePatch

variable {ε : Type} [SearchEngine ε]

namespace Pipeline

/-- The update that sending patches makes. -/
def sendCalls (p : Pipeline ε) (patches : List ImagePatch) : List (UpdateCall ε) :=
  if patches.isEmpty then [] else [⟨p.writer, patches⟩]

/-- The update that taking a chunk up makes. -/
def chunkCalls (p : Pipeline ε) : List (UpdateCall ε) :=
  match takeUpSome (max p.deferred.drainChunk.toNat 1) p [] {} with
  | (patches, _, q) => q.sendCalls patches

/-- The updates that taking up the given tasks makes, the one for the last patches included. -/
def taskCalls : List ImageTask → Pipeline ε → List ImagePatch → DrainReport →
    List (UpdateCall ε)
  | [], p, patches, _ => p.sendCalls patches
  | task :: rest, p, patches, r =>
    match p.takeUp task rest patches r with
    | (patches, r, p) =>
      if max p.deferred.patchBatch.toNat 1 ≤ patches.length then
        p.sendCalls patches ++ taskCalls rest (p.send patches r).2.settle [] (p.send patches r).1
      else taskCalls rest p patches r

/-- The updates that taking the whole backlog up makes. -/
def drainCalls (p : Pipeline ε) : List (UpdateCall ε) :=
  if p.backlog.isEmpty then [] else taskCalls p.backlog p.rested [] {}

end Pipeline

namespace Worker

/-- The updates that handing a document to the writer leads to. -/
def writeCalls (d : Document) (p : Pipeline ε) : List (UpdateCall ε) :=
  match p.writer.push d p.monitor.control.batchSize with
  | (some _, writer) =>
    if !p.backlog.isEmpty && p.monitor.isCalm then { p with writer }.chunkCalls else []
  | (none, _) => []

/-- The updates that handling an event makes. -/
def eventCalls (w : Worker) (p : Pipeline ε) : Event → List (UpdateCall ε)
  | .record r =>
    if w.isSubstantial r then
      match attachImages r (.ofRecord w.provenance r w.ingest.maxContentChars.toNat)
        (noteSkip r { p with monitor := p.monitor.check }) with
      | (d, p) => writeCalls d p
    else []
  | _ => []

/-- The updates that handling events one after the other makes. -/
def eventsCalls (w : Worker) : Pipeline ε → List Event → List (UpdateCall ε)
  | _, [] => []
  | p, e :: rest => w.eventCalls p e ++ w.eventsCalls (w.handle p e) rest

/-- The updates that a run makes, in their order. -/
def updateCalls (w : Worker) (interrupt : ε → Nat → Bool) (source : Source) (p : Pipeline ε) :
    List (UpdateCall ε) :=
  let c := w.consume interrupt source.events p
  w.eventsCalls p (source.events.take c.handled) ++
    if c.interrupted then []
    else { c.pipeline with writer := c.pipeline.writer.flush.2 }.drainCalls

end Worker

/-! ### What is kept -/

/-- The identifier occurs in a batch that was committed. -/
def Recorded.HasCommitted (e : Recorded ε) (id : String) : Prop :=
  ∃ batch, (batch, true) ∈ batches e.calls ∧ id ∈ batch.map (·.id)

/-- The identifier occurs in a batch that failed. -/
def Recorded.HasFailed (e : Recorded ε) (id : String) : Prop :=
  ∃ batch, (batch, false) ∈ batches e.calls ∧ id ∈ batch.map (·.id)

/-- What holds of an engine before and after every batch, and before and after every update of
committed documents. -/
structure Recorded.Invariant (I : Recorded ε → Prop) : Prop where
  add : ∀ e limit batch, I e → I (SearchEngine.commit limit (SearchEngine.add e batch)).2
  update : ∀ e limit patches, I e → (∀ patch ∈ patches, e.HasCommitted patch.id) →
    I (SearchEngine.commit limit (SearchEngine.update e patches)).2

namespace Writer

/-- All documents that the writer was given, in their order: those of its batches and those
that wait. -/
def handed (w : Writer (Recorded ε)) : List Document :=
  (batches w.engine.calls).flatMap (·.1) ++ w.pending

/-- The document is in a committed batch, in no failed one, and waits nowhere. -/
structure Settled (w : Writer (Recorded ε)) (id : String) : Prop where
  committed : w.engine.HasCommitted id
  sound : ¬ w.engine.HasFailed id
  free : id ∉ w.pending.map (·.id)

/-- The writer remembers the identifiers of the batches that failed. -/
def Remembers (w : Writer (Recorded ε)) : Prop :=
  ∀ id, w.isRejected id = true ↔ w.engine.HasFailed id

/-- A flush adds what was pending to the batches, and remembers it if that failed. -/
theorem flush_batches {w : Writer (Recorded ε)} (hp : w.pending ≠ []) :
    ∃ committed, batches w.flush.2.engine.calls =
        batches w.engine.calls ++ [(w.pending, committed)] ∧
      w.flush.2.rejected =
        w.rejected ++ (if committed then [] else w.pending.map (·.id)) := by
  obtain ⟨made, hcalls, hbegins, -, hbatches⟩ :=
    w.engine.calls_commit_add w.commitTimeout w.pending
  have hengine := w.engine_flush.resolve_left fun h => hp h.1
  refine ⟨_, by rw [hengine.2, hcalls, batches_append hbegins, hbatches], ?_⟩
  rcases flush_cases w with ⟨h, -⟩ | ⟨-, _, _, hc, h⟩ | ⟨-, _, _, _, hc, h⟩
  · exact absurd h hp
  · rw [h, hc]
    exact (List.append_nil _).symm
  · rw [h, hc]
    rfl

@[simp] theorem handed_flush (w : Writer (Recorded ε)) : w.flush.2.handed = w.handed := by
  by_cases hp : w.pending = []
  · simp [flush, hp]
  · obtain ⟨committed, hb, -⟩ := flush_batches hp
    rw [handed, hb, flush_pending, handed]
    simp

theorem Remembers.flush {w : Writer (Recorded ε)} (h : w.Remembers) : w.flush.2.Remembers := by
  by_cases hp : w.pending = []
  · simpa [Writer.flush, hp] using h
  · obtain ⟨committed, hb, hr⟩ := flush_batches hp
    intro id
    have hid := h id
    rw [isRejected_eq_true_iff, Recorded.HasFailed] at hid ⊢
    rw [hr, hb, List.mem_append, hid]
    cases committed <;> simp [or_and_right, exists_or]

theorem invariant_flush {I : Recorded ε → Prop} (hI : Recorded.Invariant I)
    {w : Writer (Recorded ε)} (h : I w.engine) : I w.flush.2.engine := by
  have hadd := hI.add w.engine w.commitTimeout w.pending h
  rcases w.engine_flush with ⟨-, hf⟩ | ⟨-, hf⟩
  · rwa [hf]
  · rwa [hf]

omit [SearchEngine ε] in
/-- With nothing pending, a document that was handed over and not rejected is settled. -/
theorem settled_of_not_rejected {w : Writer (Recorded ε)} (hr : w.Remembers)
    (hp : w.pending = []) {id : String} (hid : id ∈ w.handed.map (·.id))
    (hnot : w.isRejected id = false) : w.Settled id := by
  have hfailed : ¬ w.engine.HasFailed id := fun hf => by
    rw [← hr id, hnot] at hf
    exact Bool.false_ne_true hf
  refine ⟨?_, hfailed, by simp [hp]⟩
  obtain ⟨d, hd, rfl⟩ := List.mem_map.1 hid
  rw [handed, hp, List.append_nil, List.mem_flatMap] at hd
  obtain ⟨⟨batch, committed⟩, hb, hd⟩ := hd
  cases committed with
  | true => exact ⟨batch, hb, List.mem_map.2 ⟨d, hd, rfl⟩⟩
  | false => exact absurd ⟨batch, hb, List.mem_map.2 ⟨d, hd, rfl⟩⟩ hfailed

omit [SearchEngine ε] in
/-- A writer with the same batches and the same pending documents has the same documents
settled. -/
theorem Settled.congr {v w : Writer (Recorded ε)} {id : String} (h : w.Settled id)
    (hb : batches v.engine.calls = batches w.engine.calls) (hp : v.pending = w.pending) :
    v.Settled id where
  committed := by simpa [Recorded.HasCommitted, hb] using h.committed
  sound := by simpa [Recorded.HasFailed, hb] using h.sound
  free := by simpa [hp] using h.free

end Writer

namespace Pipeline

/-- Every task of the backlog has a document among those handed over, and the writer remembers
what failed. -/
structure Covered (I : Recorded ε → Prop) (p : Pipeline (Recorded ε)) : Prop where
  invariant : I p.writer.engine
  remembers : p.writer.Remembers
  backlog : ∀ task ∈ p.backlog, task.id ∈ p.writer.handed.map (·.id)

/-- Nothing is pending, and the patches collected are for settled documents. -/
structure Ready (I : Recorded ε → Prop) (patches : List ImagePatch)
    (p : Pipeline (Recorded ε)) : Prop extends Covered I p where
  idle : p.writer.pending = []
  patches : ∀ patch ∈ patches, p.writer.Settled patch.id

omit [SearchEngine ε] in
/-- Pipelines that differ in nothing that matters here are covered together. -/
theorem Covered.congr {I : Recorded ε → Prop} {p q : Pipeline (Recorded ε)} (h : Covered I p)
    (hinv : I q.writer.engine)
    (hb : batches q.writer.engine.calls = batches p.writer.engine.calls)
    (hp : q.writer.pending = p.writer.pending) (hr : q.writer.rejected = p.writer.rejected)
    (hbacklog : ∀ task ∈ q.backlog, task ∈ p.backlog) : Covered I q where
  invariant := hinv
  remembers id := by
    have := h.remembers id
    simpa [Writer.isRejected, Recorded.HasFailed, hr, hb] using this
  backlog task htask := by
    have := h.backlog task (hbacklog task htask)
    simpa [Writer.handed, hb, hp] using this

omit [SearchEngine ε] in
theorem Ready.takeUp {I : Recorded ε → Prop} {p : Pipeline (Recorded ε)} {task : ImageTask}
    {rest : List ImageTask} {patches : List ImagePatch} (r : DrainReport)
    (hb : p.backlog = task :: rest) (h : Ready I patches p) :
    Ready I (p.takeUp task rest patches r).1 (p.takeUp task rest patches r).2.2 := by
  obtain ⟨hengine, hpending, hrejected, hbacklog, -⟩ := takeUp_frame p task rest patches r
  have hcalls : batches (p.takeUp task rest patches r).2.2.writer.engine.calls =
      batches p.writer.engine.calls := by rw [hengine]
  refine ⟨h.toCovered.congr (hengine ▸ h.invariant) hcalls hpending hrejected ?_,
    hpending.trans h.idle, ?_⟩
  · intro t ht
    rw [hbacklog] at ht
    exact hb ▸ List.mem_cons_of_mem task ht
  · intro patch hpatch
    refine Writer.Settled.congr ?_ hcalls hpending
    rcases takeUp_patches p task rest patches r with heq | ⟨hnot, images, heq⟩
    · exact h.patches patch (heq ▸ hpatch)
    · rw [heq, List.mem_append, List.mem_singleton] at hpatch
      rcases hpatch with hpatch | rfl
      · exact h.patches patch hpatch
      · -- the new patch: its task came from the backlog and was not rejected
        exact Writer.settled_of_not_rejected h.remembers h.idle
          (h.backlog task (hb ▸ List.mem_cons_self)) hnot

theorem Ready.send {I : Recorded ε → Prop} (hI : Recorded.Invariant I)
    {p : Pipeline (Recorded ε)} {patches : List ImagePatch} (r : DrainReport)
    (h : Ready I patches p) : Ready I [] (p.send patches r).2 := by
  have hinv := hI.update p.writer.engine p.writer.maintenanceTimeout patches h.invariant
    fun patch hpatch => (h.patches patch hpatch).committed
  have hbatches :=
    p.writer.engine.batches_commit_update p.writer.maintenanceTimeout patches
  obtain ⟨hpending, hrejected, hbacklog, -⟩ := send_frame p patches r
  have key : I (p.send patches r).2.writer.engine ∧
      batches (p.send patches r).2.writer.engine.calls = batches p.writer.engine.calls := by
    rcases p.engine_send patches r with ⟨-, hs⟩ | ⟨-, hs⟩
    · rw [hs]
      exact ⟨h.invariant, rfl⟩
    · rw [hs]
      exact ⟨hinv, hbatches⟩
  exact ⟨h.toCovered.congr key.1 key.2 hpending hrejected fun t ht => hbacklog ▸ ht,
    hpending.trans h.idle, by simp⟩

end Pipeline

/-! ### Drains -/

/-- The update is made of an engine that satisfies `I`, for settled documents. -/
structure UpdateCall.IsSound (I : Recorded ε → Prop) (call : UpdateCall (Recorded ε)) : Prop where
  invariant : I call.writer.engine
  settled : ∀ patch ∈ call.patches, call.writer.Settled patch.id

namespace Pipeline

variable {I : Recorded ε → Prop}

omit [SearchEngine ε] in
theorem Ready.sendCalls {p : Pipeline (Recorded ε)} {patches : List ImagePatch}
    (h : Ready I patches p) : ∀ call ∈ p.sendCalls patches, call.IsSound I := by
  intro call hcall
  unfold Pipeline.sendCalls at hcall
  split at hcall
  · cases hcall
  · obtain rfl := List.mem_singleton.1 hcall
    exact ⟨h.invariant, h.patches⟩

omit [SearchEngine ε] in
theorem Ready.watch {p : Pipeline (Recorded ε)} {patches : List ImagePatch}
    (h : Ready I patches p) (monitor : Monitor) : Ready I patches (p.watch monitor) :=
  ⟨⟨h.invariant, h.remembers, h.backlog⟩, h.idle, h.patches⟩

theorem Covered.drainChunk (hI : Recorded.Invariant I) {p : Pipeline (Recorded ε)}
    (h : Covered I p) (hp : p.writer.pending = []) :
    Covered I p.drainChunk.2 ∧ ∀ call ∈ p.chunkCalls, call.IsSound I := by
  have hready := takeUpSome_keeps (I := fun patches _ q => Ready I patches q)
    (fun task rest patches r q hb hq => hq.takeUp r hb)
    (max p.deferred.drainChunk.toNat 1) p [] {} ⟨h, hp, by simp⟩
  rw [Pipeline.drainChunk, Pipeline.chunkCalls]
  generalize takeUpSome (max p.deferred.drainChunk.toNat 1) p [] {} = taken at hready ⊢
  obtain ⟨patches, r, q⟩ := taken
  exact ⟨(hready.send hI r).toCovered, hready.sendCalls⟩

theorem Ready.taskCalls (hI : Recorded.Invariant I) :
    ∀ (tasks : List ImageTask) (p : Pipeline (Recorded ε)) (patches : List ImagePatch)
      (r : DrainReport), p.backlog = tasks → Ready I patches p →
      ∀ call ∈ Pipeline.taskCalls tasks p patches r, call.IsSound I := by
  intro tasks
  induction tasks with
  | nil => exact fun p patches r _ h => h.sendCalls
  | cons task rest ih =>
    intro p patches r hb h
    have hready := h.takeUp r hb
    have hrest := (takeUp_frame p task rest patches r).2.2.2.1
    rw [Pipeline.taskCalls]
    generalize p.takeUp task rest patches r = taken at hready hrest ⊢
    obtain ⟨patches', r', q⟩ := taken
    dsimp only at hready hrest ⊢
    split
    · intro call hcall
      -- the patches of a full batch are sent before the next task is taken up
      rcases List.mem_append.1 hcall with hcall | hcall
      · exact hready.sendCalls call hcall
      · obtain ⟨monitor, hm⟩ := settle_eq (q.send patches' r').2
        rw [hm] at hcall
        have hbacklog := (send_frame q patches' r').2.2.1.trans hrest
        exact ih ((q.send patches' r').2.watch monitor) _ _ hbacklog
          ((hready.send hI r').watch monitor) call hcall
    · exact ih _ _ _ hrest hready

theorem Covered.drainAll (hI : Recorded.Invariant I) {p : Pipeline (Recorded ε)}
    (h : Covered I p) (hp : p.writer.pending = []) :
    Covered I p.drainAll.2 ∧ ∀ call ∈ p.drainCalls, call.IsSound I := by
  cases hb : p.backlog.isEmpty with
  | true =>
    rw [drainAll_of_isEmpty hb, drainCalls, if_pos hb]
    exact ⟨h, by simp⟩
  | false =>
    have hstart : Ready I [] p.rested := Ready.watch ⟨h, hp, by simp⟩ _
    have hready := (drainTasks_keeps (I := fun patches _ q => Ready I patches q)
      (fun task rest patches r q hb hq => hq.takeUp r hb)
      (fun patches r q hq => hq.send hI r)
      (fun patches r q monitor hq => hq.watch monitor)
      p.backlog p.rested [] {} (rested_backlog p) hstart).1
    rw [drainAll_of_not_isEmpty hb, drainCalls, if_neg (by simp [hb])]
    exact ⟨(hready.send hI _).toCovered,
      Ready.taskCalls hI p.backlog p.rested [] {} (rested_backlog p) hstart⟩

end Pipeline

/-! ### Events -/

namespace Worker

variable {I : Recorded ε → Prop}

/-- The updates of a write are none, or those of the chunk taken up after a flush. -/
theorem writeCalls_cases (d : Document) (p : Pipeline ε) :
    (write d p = { p with writer := { p.writer with pending := p.writer.pending ++ [d] } } ∧
      writeCalls d p = []) ∨
    ∃ q : Pipeline ε, q = { p with
        writer := ({ p.writer with pending := p.writer.pending ++ [d] } : Writer ε).flush.2 } ∧
      ((write d p = q ∧ writeCalls d p = []) ∨
        (write d p = q.drainChunk.2 ∧ writeCalls d p = q.chunkCalls)) := by
  rcases write_cases d p with ⟨hlt, h⟩ | ⟨hle, h⟩
  · refine .inl ⟨h, ?_⟩
    rw [writeCalls, Writer.push, if_neg (Nat.not_le.2 hlt)]
  · refine .inr ⟨_, rfl, ?_⟩
    have hcalls : writeCalls d p =
        if !p.backlog.isEmpty && p.monitor.isCalm then
          { p with writer :=
              ({ p.writer with pending := p.writer.pending ++ [d] } : Writer ε).flush.2 }.chunkCalls
        else [] := by
      obtain ⟨report, hpush⟩ := Writer.push_of_full hle
      rw [writeCalls, hpush]
    rw [h, hcalls, catchUp]
    split
    · exact .inr ⟨rfl, rfl⟩
    · exact .inl ⟨rfl, rfl⟩

/-- Handing over the document of the newest task covers the backlog again. -/
theorem covered_write (hI : Recorded.Invariant I) {p : Pipeline (Recorded ε)} {d : Document}
    (hinv : I p.writer.engine) (hrem : p.writer.Remembers)
    (hback : ∀ task ∈ p.backlog, task.id ∈ (p.writer.handed ++ [d]).map (·.id)) :
    (write d p).Covered I ∧ ∀ call ∈ writeCalls d p, call.IsSound I := by
  have hadded : ({ p.writer with pending := p.writer.pending ++ [d] } : Writer _).handed =
      p.writer.handed ++ [d] := by
    simp [Writer.handed]
  have hrem' : ({ p.writer with pending := p.writer.pending ++ [d] } : Writer _).Remembers := hrem
  rcases writeCalls_cases d p with ⟨h, hcalls⟩ | ⟨q, hq, h⟩
  · rw [h, hcalls]
    exact ⟨⟨hinv, hrem', fun task ht => hadded ▸ hback task ht⟩, by simp⟩
  · have hcovered : q.Covered I := by
      rw [hq]
      refine ⟨Writer.invariant_flush hI hinv, hrem'.flush, fun task ht => ?_⟩
      rw [Writer.handed_flush, hadded]
      exact hback task ht
    rcases h with ⟨h, hcalls⟩ | ⟨h, hcalls⟩
    · rw [h, hcalls]
      exact ⟨hcovered, by simp⟩
    · rw [h, hcalls]
      -- a chunk is taken up behind a flush only, when nothing is pending
      exact hcovered.drainChunk hI (by rw [hq]; exact Writer.flush_pending _)

omit [SearchEngine ε] in
/-- Taking up the thumbnails of a record adds no task but one for its own document. -/
theorem backlog_attachImages {r : Record} {d : Document} {p : Pipeline ε} {task : ImageTask}
    (h : task ∈ (attachImages r d p).2.backlog) : task ∈ p.backlog ∨ task.id = d.id := by
  rcases attachImages_cases r d p with
    ⟨-, ha⟩ | ⟨staging, -, ⟨-, ha⟩ | ⟨-, _, _, -, ha⟩ | ⟨-, _, _, -, ha⟩⟩
  · rw [ha] at h; exact .inl h
  · rw [ha] at h
    rcases List.mem_append.1 h with h | h
    · exact .inl h
    · exact .inr (by rw [List.mem_singleton.1 h])
  · rw [ha] at h; exact .inl h
  · rw [ha] at h; exact .inl h

omit [SearchEngine ε] in
theorem covered_report {p : Pipeline (Recorded ε)} (h : p.Covered I) (change : Job → Job) :
    (p.report change).Covered I :=
  h.congr h.invariant rfl rfl rfl fun _ ht => ht

/-- Handling an event keeps the backlog covered, and its updates are sound. -/
theorem covered_handle (hI : Recorded.Invariant I) (w : Worker) {p : Pipeline (Recorded ε)}
    (h : p.Covered I) (e : Event) :
    (w.handle p e).Covered I ∧ ∀ call ∈ w.eventCalls p e, call.IsSound I := by
  cases e with
  | discovered n => exact ⟨covered_report h _, by simp [eventCalls]⟩
  | skipped entry => exact ⟨covered_report h _, by simp [eventCalls]⟩
  | failed entry reason => exact ⟨covered_report h _, by simp [eventCalls]⟩
  | notice message => exact ⟨covered_report h _, by simp [eventCalls]⟩
  | record r =>
    rw [handle, handleRecord, eventCalls]
    obtain ⟨change, hskip⟩ := noteSkip_eq r { p with monitor := p.monitor.check }
    have hchecked : ({ p with monitor := p.monitor.check } : Pipeline _).Covered I :=
      ⟨h.invariant, h.remembers, h.backlog⟩
    have hstart : (noteSkip r { p with monitor := p.monitor.check }).Covered I := by
      rw [hskip]
      exact covered_report hchecked change
    dsimp only
    generalize noteSkip r { p with monitor := p.monitor.check } = q at hstart ⊢
    split
    · generalize hd : Document.ofRecord w.provenance r w.ingest.maxContentChars.toNat = d
      obtain ⟨hengine, hpending, hrejected, -⟩ := attachImages_frame r d q
      have hid := attachImages_id r d q
      refine covered_write hI (hengine ▸ hstart.invariant) ?_ ?_
      · intro id
        have := hstart.remembers id
        simpa [Writer.isRejected, hengine, hrejected] using this
      · intro task ht
        rw [List.map_append, List.mem_append]
        rcases backlog_attachImages ht with ht | ht
        · left
          have := hstart.backlog task ht
          simpa [Writer.handed, hengine, hpending] using this
        · right
          simp [ht, hid]
    · exact ⟨covered_report hstart _, by simp⟩

theorem covered_events (hI : Recorded.Invariant I) (w : Worker) (events : List Event) :
    ∀ p : Pipeline (Recorded ε), p.Covered I →
      (events.foldl w.handle p).Covered I ∧ ∀ call ∈ w.eventsCalls p events, call.IsSound I := by
  induction events with
  | nil => exact fun p h => ⟨h, by simp [eventsCalls]⟩
  | cons e rest ih =>
    intro p h
    obtain ⟨hnext, hcalls⟩ := covered_handle hI w h e
    obtain ⟨hlast, hmore⟩ := ih _ hnext
    refine ⟨hlast, fun call hcall => ?_⟩
    rcases List.mem_append.1 hcall with hcall | hcall
    · exact hcalls call hcall
    · exact hmore call hcall

omit [SearchEngine ε] in
theorem covered_abandon {p : Pipeline (Recorded ε)} (h : p.Covered I) (reason : String) :
    (p.abandon reason).2.Covered I := by
  unfold Pipeline.abandon
  dsimp only
  split
  · exact h
  · exact h.congr h.invariant rfl rfl rfl (by simp [Pipeline.setBacklog])

/-- The last flush and what follows it keep the backlog covered, and its updates are sound. -/
theorem covered_settle (hI : Recorded.Invariant I) {p : Pipeline (Recorded ε)} (h : p.Covered I)
    (interrupted : Bool) :
    (settle interrupted p).Covered I ∧
      ∀ call ∈ (if interrupted then []
        else { p with writer := p.writer.flush.2 }.drainCalls), call.IsSound I := by
  have hflush : ({ p with writer := p.writer.flush.2 } : Pipeline _).Covered I := by
    refine ⟨Writer.invariant_flush hI h.invariant, h.remembers.flush, fun task ht => ?_⟩
    rw [Writer.handed_flush]
    exact h.backlog task ht
  cases interrupted with
  | true => exact ⟨covered_abandon hflush interruption, by simp⟩
  | false => exact hflush.drainAll hI (Writer.flush_pending _)

/-- A run from a covered pipeline ends in one, and every update of it is sound. -/
theorem covered_run (hI : Recorded.Invariant I) (w : Worker)
    (interrupt : Recorded ε → Nat → Bool) (source : Source) (now : Instant)
    {p : Pipeline (Recorded ε)} (h : p.Covered I) :
    (w.run interrupt source now p).Covered I ∧
      ∀ call ∈ w.updateCalls interrupt source p, call.IsSound I := by
  obtain ⟨k, -, hhandled, hpipeline, -⟩ := w.consumeFrom_eq interrupt source.events 0 p
  rw [run, updateCalls, consume, hhandled, hpipeline, Nat.zero_add]
  dsimp only
  generalize (w.consumeFrom interrupt 0 p source.events).interrupted = interrupted
  obtain ⟨hevents, hfirst⟩ := covered_events hI w (source.events.take k) p h
  obtain ⟨hsettled, hlast⟩ := covered_settle hI hevents interrupted
  obtain ⟨change, hconclude⟩ := conclude_eq (source.finish k) interrupted now
    (settle interrupted ((source.events.take k).foldl w.handle p))
  refine ⟨hconclude ▸ covered_report hsettled change, fun call hcall => ?_⟩
  rcases List.mem_append.1 hcall with hcall | hcall
  · exact hfirst call hcall
  · exact hlast call hcall

end Worker

/-! ### No update is missed -/

/-- Between two lists of calls, every update is one of the given ones, made by a writer whose
engine had been asked for exactly what stands before it. -/
def UpdateCall.Explain (calls : List (UpdateCall (Recorded ε))) (before after : List EngineCall) :
    Prop :=
  ∃ made, after = before ++ made ∧
    ∀ earlier patches answer later, made = earlier ++ .update patches answer :: later →
      ∃ call ∈ calls, call.patches = patches ∧ call.writer.engine.calls = before ++ earlier

namespace UpdateCall.Explain

omit [SearchEngine ε] in
theorem refl (calls : List EngineCall) :
    Explain ([] : List (UpdateCall (Recorded ε))) calls calls :=
  ⟨[], by simp, by simp⟩

omit [SearchEngine ε] in
theorem trans {first second : List (UpdateCall (Recorded ε))} {a b c : List EngineCall}
    (hab : Explain first a b) (hbc : Explain second b c) : Explain (first ++ second) a c := by
  obtain ⟨made, rfl, hmade⟩ := hab
  obtain ⟨more, rfl, hmore⟩ := hbc
  refine ⟨made ++ more, by simp, fun earlier patches answer later heq => ?_⟩
  rcases List.append_eq_append_iff.1 heq with ⟨rest, hearlier, hrest⟩ | ⟨rest, hmid, hlater⟩
  · -- the update lies in the second part
    obtain ⟨call, hcall, hpatches, hcalls⟩ := hmore rest patches answer later hrest
    exact ⟨call, List.mem_append_right _ hcall, hpatches, by simp [hcalls, hearlier]⟩
  · cases rest with
    | nil =>
      obtain ⟨call, hcall, hpatches, hcalls⟩ := hmore [] patches answer later hlater.symm
      exact ⟨call, List.mem_append_right _ hcall, hpatches, by simp [hcalls, hmid]⟩
    | cons c rest =>
      obtain ⟨rfl, rfl⟩ := List.cons.inj hlater
      obtain ⟨call, hcall, hpatches, hcalls⟩ := hmade earlier patches answer rest hmid
      exact ⟨call, List.mem_append_left _ hcall, hpatches, hcalls⟩

end UpdateCall.Explain

/-- The calls of the engine so far. -/
def Pipeline.calls (p : Pipeline (Recorded ε)) : List EngineCall := p.writer.engine.calls

open UpdateCall (Explain)

theorem Writer.explain_flush (w : Writer (Recorded ε)) :
    Explain ([] : List (UpdateCall (Recorded ε))) w.engine.calls w.flush.2.engine.calls := by
  obtain ⟨made, hcalls, -, hnone, -⟩ := w.engine.calls_commit_add w.commitTimeout w.pending
  have hmade : ∀ earlier patches answer later,
      made ≠ earlier ++ .update patches answer :: later := by
    -- the commit of a batch makes no update
    rintro earlier patches answer later rfl
    simp [EngineCall.updates] at hnone
  rcases w.engine_flush with ⟨-, h⟩ | ⟨-, h⟩
  · rw [h]
    exact .refl _
  · rw [h]
    exact ⟨made, hcalls, fun _ _ _ _ heq => absurd heq (hmade _ _ _ _)⟩

namespace Pipeline

theorem explain_send (p : Pipeline (Recorded ε)) (patches : List ImagePatch) (r : DrainReport) :
    Explain (p.sendCalls patches) p.calls (p.send patches r).2.calls := by
  rcases p.engine_send patches r with ⟨hp, h⟩ | ⟨hp, h⟩
  · rw [h, show p.sendCalls patches = [] by simp [sendCalls, hp]]
    exact .refl _
  · obtain ⟨answer, waits, hcalls, hwaits⟩ :=
      p.writer.engine.calls_commit_update p.writer.maintenanceTimeout patches
    have hsend : (p.send patches r).2.calls = p.calls ++ .update patches answer :: waits := by
      rw [calls, h]
      exact hcalls
    refine ⟨_, hsend, fun earlier others answer' later heq => ?_⟩
    cases earlier with
    | nil =>
      obtain ⟨hhead, -⟩ := List.cons.inj heq
      obtain ⟨rfl, -⟩ := EngineCall.update.inj hhead
      exact ⟨⟨p.writer, patches⟩, by simp [sendCalls, hp], rfl, by simp [calls]⟩
    | cons c earlier =>
      -- behind the update there is no other one
      obtain ⟨-, htail⟩ := List.cons.inj heq
      rw [htail] at hwaits
      simp [EngineCall.updates] at hwaits

theorem explain_drainChunk (p : Pipeline (Recorded ε)) :
    Explain p.chunkCalls p.calls p.drainChunk.2.calls := by
  have hsame := takeUpSome_keeps (I := fun _ _ q => q.calls = p.calls)
    (fun task rest patches r q _ hq => by
      rw [calls, (takeUp_frame q task rest patches r).1]
      exact hq)
    (max p.deferred.drainChunk.toNat 1) p [] {} rfl
  rw [drainChunk, chunkCalls]
  generalize takeUpSome (max p.deferred.drainChunk.toNat 1) p [] {} = taken at hsame ⊢
  obtain ⟨patches, r, q⟩ := taken
  rw [← show q.calls = p.calls from hsame]
  exact explain_send q patches r

theorem explain_drainTasks (tasks : List ImageTask) :
    ∀ (p : Pipeline (Recorded ε)) (patches : List ImagePatch) (r : DrainReport),
      Explain (taskCalls tasks p patches r) p.calls
        ((drainTasks tasks p patches r).2.2.send (drainTasks tasks p patches r).1
          (drainTasks tasks p patches r).2.1).2.calls := by
  induction tasks with
  | nil => exact fun p patches r => explain_send p patches r
  | cons task rest ih =>
    intro p patches r
    have hsame : (p.takeUp task rest patches r).2.2.calls = p.calls := by
      rw [calls, (takeUp_frame p task rest patches r).1]
      rfl
    rw [drainTasks, taskCalls]
    generalize p.takeUp task rest patches r = taken at hsame ⊢
    obtain ⟨patches', r', q⟩ := taken
    dsimp only at hsame ⊢
    rw [← hsame]
    split
    · obtain ⟨monitor, hm⟩ := settle_eq (q.send patches' r').2
      rw [hm]
      exact (explain_send q patches' r').trans (ih ((q.send patches' r').2.watch monitor) _ _)
    · exact ih q patches' r'

theorem explain_drainAll (p : Pipeline (Recorded ε)) :
    Explain p.drainCalls p.calls p.drainAll.2.calls := by
  cases hb : p.backlog.isEmpty with
  | true =>
    rw [drainAll_of_isEmpty hb, drainCalls, if_pos hb]
    exact .refl p.calls
  | false =>
    have htasks := explain_drainTasks p.backlog p.rested [] {}
    rw [drainAll_of_not_isEmpty hb, drainCalls, if_neg (by simp [hb])]
    rwa [show p.rested.calls = p.calls by rw [calls, rested_writer, calls]] at htasks

omit [SearchEngine ε] in
theorem calls_abandon (p : Pipeline (Recorded ε)) (reason : String) :
    (p.abandon reason).2.calls = p.calls := by
  unfold abandon
  dsimp only
  split <;> rfl

end Pipeline

namespace Worker

open Pipeline

theorem explain_write (d : Document) (p : Pipeline (Recorded ε)) :
    Explain (writeCalls d p) p.calls (write d p).calls := by
  rcases writeCalls_cases d p with ⟨h, hcalls⟩ | ⟨q, hq, h⟩
  · rw [h, hcalls]
    exact .refl _
  · have hflush : Explain ([] : List (UpdateCall (Recorded ε))) p.calls q.calls := by
      rw [hq]
      exact Writer.explain_flush { p.writer with pending := p.writer.pending ++ [d] }
    rcases h with ⟨h, hcalls⟩ | ⟨h, hcalls⟩
    · rw [h, hcalls]
      exact hflush
    · rw [h, hcalls]
      exact hflush.trans (explain_drainChunk q)

theorem explain_handle (w : Worker) (p : Pipeline (Recorded ε)) (e : Event) :
    Explain (w.eventCalls p e) p.calls (w.handle p e).calls := by
  cases e with
  | discovered n => exact .refl _
  | skipped entry => exact .refl _
  | failed entry reason => exact .refl _
  | notice message => exact .refl _
  | record r =>
    rw [handle, handleRecord, eventCalls]
    obtain ⟨change, hskip⟩ := noteSkip_eq r { p with monitor := p.monitor.check }
    rw [hskip]
    dsimp only
    split
    · have hexplain := explain_write
        (attachImages r (.ofRecord w.provenance r w.ingest.maxContentChars.toNat)
          ({ p with monitor := p.monitor.check }.report change)).1
        (attachImages r (.ofRecord w.provenance r w.ingest.maxContentChars.toNat)
          ({ p with monitor := p.monitor.check }.report change)).2
      rwa [Pipeline.calls, (attachImages_frame r _ _).1] at hexplain
    · exact .refl _

theorem explain_events (w : Worker) (events : List Event) :
    ∀ p : Pipeline (Recorded ε),
      Explain (w.eventsCalls p events) p.calls (events.foldl w.handle p).calls := by
  induction events with
  | nil => exact fun p => .refl _
  | cons e rest ih => exact fun p => (explain_handle w p e).trans (ih (w.handle p e))

/-- Every update that the engine is asked for in a run is one of those listed for it. -/
theorem explain_run (w : Worker) (interrupt : Recorded ε → Nat → Bool) (source : Source)
    (now : Instant) (p : Pipeline (Recorded ε)) :
    Explain (w.updateCalls interrupt source p) p.calls (w.run interrupt source now p).calls := by
  obtain ⟨k, -, hhandled, hpipeline, -⟩ := w.consumeFrom_eq interrupt source.events 0 p
  rw [run, updateCalls, consume, hhandled, hpipeline, Nat.zero_add]
  dsimp only
  generalize (w.consumeFrom interrupt 0 p source.events).interrupted = interrupted
  refine (explain_events w (source.events.take k) p).trans ?_
  generalize (source.events.take k).foldl w.handle p = q
  obtain ⟨change, hconclude⟩ := conclude_eq (source.finish k) interrupted now
    (settle interrupted q)
  rw [hconclude, settle]
  have hflush := q.writer.explain_flush
  cases interrupted with
  | true =>
    show Explain [] q.calls ({ q with writer := q.writer.flush.2 }.abandon interruption).2.calls
    rw [calls_abandon]
    exact hflush
  | false => exact hflush.trans (explain_drainAll { q with writer := q.writer.flush.2 })

end Worker

/-! ### Indexes stay full -/

/-- The index behind the engine is full, and holds whatever was committed. -/
def Recorded.KeepsFull (index : ε → Index) (e : Recorded ε) : Prop :=
  (index e.engine).IsFull ∧ ∀ id, e.HasCommitted id → id ∈ (index e.engine).ids

namespace Recorded

theorem keepsFull_add {index : ε → Index} (h : SearchEngine.Indexes index) {e : Recorded ε}
    (limit : Span) (batch : List Document) (hfull : e.KeepsFull index) :
    (SearchEngine.commit limit (SearchEngine.add e batch)).2.KeepsFull index := by
  obtain ⟨hresult, hengine⟩ := e.commit_add limit batch
  obtain ⟨made, hcalls, hbegins, -, hbatches⟩ := e.calls_commit_add limit batch
  rw [KeepsFull, hengine, h.commit_add]
  constructor
  · rcases h.add e.engine batch with heq | heq
    · rw [heq]; exact hfull.1
    · rw [heq]; exact Index.isFull_addAll hfull.1 batch
  · rintro id ⟨others, hothers, hid⟩
    rw [hcalls, batches_append hbegins, hbatches, List.mem_append, List.mem_singleton] at hothers
    rcases hothers with hothers | hothers
    -- an earlier batch is in the index already, which only grows
    · have hold := hfull.2 id ⟨others, hothers, hid⟩
      rcases h.add e.engine batch with heq | heq
      · rwa [heq]
      · rw [heq, Index.mem_ids_addAll]; exact .inr hold
    · -- the batch of this very commit, which succeeded
      obtain ⟨rfl, hok⟩ := Prod.mk.inj hothers
      rw [hresult] at hok
      have hcommitted : (SearchEngine.commit limit (SearchEngine.add e.engine others)).1 =
          .ok () := by
        cases hc : (SearchEngine.commit limit (SearchEngine.add e.engine others)).1 with
        | ok _ => rfl
        | error fault => simp [hc, Except.isOk, Except.toBool] at hok
      rw [h.committed e.engine others limit hcommitted, Index.mem_ids_addAll]
      exact .inl hid

theorem keepsFull_update {index : ε → Index} (h : SearchEngine.Indexes index) {e : Recorded ε}
    (limit : Span) {patches : List ImagePatch} (hfull : e.KeepsFull index)
    (hcommitted : ∀ patch ∈ patches, e.HasCommitted patch.id) :
    (index (SearchEngine.update e.engine patches).2).IsFull ∧
      (SearchEngine.commit limit (SearchEngine.update e patches)).2.KeepsFull index := by
  have hids := fun patch hpatch => hfull.2 _ (hcommitted patch hpatch)
  rw [KeepsFull, (e.commit_update limit patches).2, h.commit_update]
  have hupdated : (index (SearchEngine.update e.engine patches).2).IsFull := by
    rcases h.update e.engine patches with heq | heq
    · rw [heq]; exact hfull.1
    · rw [heq]; exact Index.isFull_updateAll hfull.1 hids
  refine ⟨hupdated, hupdated, fun id hid => ?_⟩
  have hold : id ∈ (index e.engine).ids := by
    refine hfull.2 id ?_
    rwa [HasCommitted, e.batches_commit_update] at hid
  rcases h.update e.engine patches with heq | heq
  · rwa [heq]
  · rw [heq, Index.mem_ids_updateAll]; exact .inr hold

theorem invariant_keepsFull {index : ε → Index} (h : SearchEngine.Indexes index) :
    Recorded.Invariant (KeepsFull index) where
  add _ limit batch hfull := keepsFull_add h limit batch hfull
  update _ limit _ hfull hcommitted := (keepsFull_update h limit hfull hcommitted).2

end Recorded

/-! ### The updates of a job -/

omit [SearchEngine ε] in
/-- The pipeline that a job starts with is covered. -/
theorem Ingestion.covered_pipeline (x : Ingestion) (job : Job) (d : Disk) {engine : ε}
    {I : Recorded ε → Prop} (hI : I ⟨engine, []⟩) :
    (x.pipeline (⟨engine, []⟩ : Recorded ε) job d).Covered I := by
  refine ⟨hI, fun id => ?_, fun task ht => by simp [Ingestion.pipeline] at ht⟩
  simp [Ingestion.pipeline, Writer.isRejected, Recorded.HasFailed, batches]

end Corpus
