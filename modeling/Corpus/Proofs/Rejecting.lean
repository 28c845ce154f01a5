/-
Corpus/Proofs/Rejecting.lean

Which tasks a drain gives up because their document was not indexed.

A writer remembers the identifiers of the batches that failed, and forgets none of them.  The index
moves on: where an add that fails stores nothing,

    documents held  =  documents held at the start  +  documents of committed batches

after any operations (`Writer.Knows`).  A drain asks the memory of the writer and not the index, so
it gives a task up as not indexed if a batch with its document has failed, and in no other case
(`Pipeline.Clears`).  Both agree on every identifier that is not in a failed batch and a committed
one at once.  A document that is pushed again after its batch has failed is in both: the index holds
it, and its thumbnails are given up all the same (`given_up_though_indexed`).
-/
import Corpus.Proofs.Draining
import Corpus.Proofs.Showing

namespace Corpus

open EngineCall (batches batches_append)

/-! ### Documents in an index -/

namespace Index

/-- The index holds a document with the identifier. -/
def Holds (x : Index) (id : String) : Prop := ((x.get? id).bind (·.document)).isSome = true

theorem holds_add (x : Index) (d : Document) (id : String) :
    (x.add d).Holds id ↔ id = d.id ∨ x.Holds id := by
  rw [Holds, add, get?_put]
  by_cases h : id = d.id
  · rw [if_pos h]
    exact iff_of_true rfl (.inl h)
  · rw [if_neg h, or_iff_right h]
    rfl

theorem holds_addAll {x : Index} {ds : List Document} {id : String} :
    (x.addAll ds).Holds id ↔ id ∈ ds.map (·.id) ∨ x.Holds id := by
  induction ds generalizing x with
  | nil => exact (or_iff_right List.not_mem_nil).symm
  | cons d ds ih =>
    rw [show x.addAll (d :: ds) = (x.add d).addAll ds from rfl, ih, holds_add, List.map_cons,
      List.mem_cons, or_left_comm, or_assoc]

/-- Setting image fields makes no document and removes none. -/
theorem holds_update (x : Index) (patch : ImagePatch) (id : String) :
    (x.update patch).Holds id ↔ x.Holds id := by
  rw [Holds, update, get?_put]
  by_cases h : id = patch.id
  · rw [if_pos h, h]
    rfl
  · rw [if_neg h]
    rfl

theorem holds_updateAll {x : Index} {patches : List ImagePatch} {id : String} :
    (x.updateAll patches).Holds id ↔ x.Holds id := by
  induction patches generalizing x with
  | nil => exact Iff.rfl
  | cons patch patches ih => exact ih.trans (holds_update x patch id)

end Index

/-- The engine keeps an index and, as long as it is sound, stores nothing of an add that fails. -/
structure SearchEngine.Discards {ε : Type} [SearchEngine ε] (index : ε → Index)
    (Sound : ε → Prop) : Prop extends SearchEngine.Indexes index where
  sound_add : ∀ e limit batch, Sound e →
    Sound (SearchEngine.commit limit (SearchEngine.add e batch)).2
  sound_update : ∀ e limit patches, Sound e →
    Sound (SearchEngine.commit limit (SearchEngine.update e patches)).2
  failed : ∀ e limit batch fault, Sound e →
    (SearchEngine.commit limit (SearchEngine.add e batch)).1 = .error fault →
      index (SearchEngine.add e batch).2 = index e

variable {ε : Type}

/-! ### What a writer knows -/

/-- Since the index was so and so: the writer remembers what failed, and the index holds what it
held and what was committed. -/
structure Writer.Knows (index : ε → Index) (Sound : ε → Prop) (start : Index)
    (w : Writer (Recorded ε)) : Prop where
  sound : Sound w.engine.engine
  remembers : w.Remembers
  stored : ∀ id, (index w.engine.engine).Holds id ↔ start.Holds id ∨ w.engine.HasCommitted id

namespace Writer.Knows

variable {index : ε → Index} {Sound : ε → Prop} {start : Index} {v w : Writer (Recorded ε)}

/-- It goes by the engine and the memory of the writer alone. -/
theorem congr (h : w.Knows index Sound start) (hengine : v.engine = w.engine)
    (hrejected : v.rejected = w.rejected) : v.Knows index Sound start := by
  obtain ⟨hsound, hremembers, hstored⟩ := h
  rw [← hengine] at hsound hstored
  refine ⟨hsound, fun id => ?_, hstored⟩
  rw [Writer.isRejected, hrejected, hengine]
  exact hremembers id

variable [SearchEngine ε] (hdiscards : SearchEngine.Discards index Sound)
include hdiscards

/-- A batch that is committed is stored as a whole, and one that fails is not stored at all. -/
theorem stored_add {e : Recorded ε} (limit : Span) (batch : List Document)
    (hsound : Sound e.engine)
    (hstored : ∀ id, (index e.engine).Holds id ↔ start.Holds id ∨ e.HasCommitted id) (id : String) :
    let c := SearchEngine.commit limit (SearchEngine.add e batch)
    (index c.2.engine).Holds id ↔ start.Holds id ∨ c.2.HasCommitted id := by
  intro c
  obtain ⟨hresult, hengine⟩ := e.commit_add limit batch
  obtain ⟨made, hcalls, hbegins, -, hbatches⟩ := e.calls_commit_add limit batch
  have hcommitted : c.2.HasCommitted id ↔
      e.HasCommitted id ∨ c.1.isOk = true ∧ id ∈ batch.map (·.id) := by
    rw [Recorded.HasCommitted, hcalls, batches_append hbegins, hbatches, Recorded.HasCommitted]
    simp only [List.mem_append, List.mem_singleton, Prod.mk.injEq, or_and_right, exists_or]
    refine or_congr_right ⟨?_, ?_⟩
    · rintro ⟨_, ⟨rfl, hok⟩, hid⟩
      exact ⟨hok.symm, hid⟩
    · rintro ⟨hok, hid⟩
      exact ⟨batch, ⟨rfl, hok.symm⟩, hid⟩
  -- the commit itself stores nothing: what the index gains or not was settled by the add
  rw [hcommitted, show c.2.engine = _ from hengine, hdiscards.commit_add]
  cases hc : c.1 with
  | ok _ =>
    rw [hdiscards.committed e.engine batch limit (hresult.symm.trans hc), Index.holds_addAll,
      hstored, or_left_comm, or_comm (a := id ∈ _)]
    simp [Except.isOk, Except.toBool]
  | error fault =>
    rw [hdiscards.failed e.engine limit batch fault hsound (hresult.symm.trans hc), hstored]
    simp [Except.isOk, Except.toBool]

theorem flush (h : w.Knows index Sound start) : w.flush.2.Knows index Sound start := by
  have hsound := hdiscards.sound_add w.engine.engine w.commitTimeout w.pending h.sound
  have hstored := stored_add hdiscards w.commitTimeout w.pending h.sound h.stored
  rw [← (w.engine.commit_add w.commitTimeout w.pending).2] at hsound
  rcases w.engine_flush with ⟨-, hf⟩ | ⟨-, hf⟩
  · rw [hf]
    exact h
  · refine ⟨?_, h.remembers.flush, ?_⟩
    · rw [hf]
      exact hsound
    · rw [hf]
      exact hstored

theorem push (h : w.Knows index Sound start) (d : Document) (size : UInt64) :
    (w.push d size).2.Knows index Sound start := by
  have hheld : Knows index Sound start { w with pending := w.pending ++ [d] } := h.congr rfl rfl
  rw [Writer.push]
  dsimp only
  split
  · exact hheld.flush hdiscards
  · exact hheld

/-- An update touches no batch and no document. -/
theorem patch (h : w.Knows index Sound start) (patches : List ImagePatch) :
    (w.patch patches).2.Knows index Sound start := by
  rw [Writer.patch]
  split
  · exact h
  have hengine := (w.engine.commit_update w.maintenanceTimeout patches).2
  have hsound := hdiscards.sound_update w.engine.engine w.maintenanceTimeout patches h.sound
  rw [← hengine] at hsound
  have hholds : ∀ id, (index (SearchEngine.commit w.maintenanceTimeout
      (SearchEngine.update w.engine patches)).2.engine).Holds id ↔
        (index w.engine.engine).Holds id := by
    intro id
    rw [hengine, hdiscards.commit_update]
    rcases hdiscards.update w.engine.engine patches with heq | heq
    · rw [heq]
    · rw [heq, Index.holds_updateAll]
  -- and the calls behind it show the same batches, whatever came of it
  have hbatches := w.engine.batches_commit_update w.maintenanceTimeout patches
  generalize SearchEngine.commit w.maintenanceTimeout (SearchEngine.update w.engine patches) = ended
    at hsound hholds hbatches ⊢
  obtain ⟨result, engine⟩ := ended
  dsimp only at hsound hholds hbatches ⊢
  have hknows : Knows index Sound start { w with engine } := by
    refine ⟨hsound, fun id => ?_, fun id => ?_⟩
    · show w.isRejected id = true ↔ _
      rw [h.remembers id, Recorded.HasFailed, Recorded.HasFailed, hbatches]
    · rw [hholds, h.stored, Recorded.HasCommitted, Recorded.HasCommitted, hbatches]
  cases result with
  | ok _ => exact hknows.congr rfl rfl
  | error _ => exact hknows

theorem perform (h : w.Knows index Sound start) (operation : Operation) :
    (w.perform operation).Knows index Sound start := by
  cases operation with
  | push d size => exact h.push hdiscards d size
  | flush => exact h.flush hdiscards
  | patch patches => exact h.patch hdiscards patches

end Writer.Knows

/-! ### What is asked of a pipeline -/

namespace Pipeline

/-- The two ways to take up the backlog. -/
inductive Drain where
  | chunk
  | all

namespace Drain

/-- The tasks that a drain takes up. -/
def tasks (p : Pipeline ε) : Drain → List ImageTask
  | .chunk => p.backlog.take (max p.deferred.drainChunk.toNat 1)
  | .all => p.backlog

variable [SearchEngine ε]

/-- The pipeline behind a drain. -/
def perform (p : Pipeline ε) : Drain → Pipeline ε
  | .chunk => p.drainChunk.2
  | .all => p.drainAll.2

/-- What a drain tells the job. -/
def entries (p : Pipeline ε) : Drain → List Entry
  | .chunk => p.chunkEntries
  | .all => p.drainEntries

end Drain

/-- What the writer and the backlog of a pipeline can be asked to do. -/
inductive Operation where
  | write (operation : Writer.Operation)
  | postpone (task : ImageTask)
  | drain (kind : Drain)
  | abandon (reason : String)

variable [SearchEngine ε]

/-- The pipeline behind an operation. -/
def Operation.perform (p : Pipeline ε) : Operation → Pipeline ε
  | .write operation => { p with writer := p.writer.perform operation }
  | .postpone task => p.postpone task
  | .drain kind => kind.perform p
  | .abandon reason => (p.abandon reason).2

/-- The pipeline behind some operations. -/
def performAll (p : Pipeline ε) (ops : List Operation) : Pipeline ε :=
  ops.foldl Operation.perform p

section Knowledge

variable {index : ε → Index} {Sound : ε → Prop} {start : Index} {p : Pipeline (Recorded ε)}

omit [SearchEngine ε] in
theorem knows_takeUp (h : p.writer.Knows index Sound start) (task : ImageTask)
    (rest : List ImageTask) (patches : List ImagePatch) (r : DrainReport) :
    (p.takeUp task rest patches r).2.2.writer.Knows index Sound start := by
  obtain ⟨hengine, -, hrejected, -⟩ := p.takeUp_frame task rest patches r
  exact h.congr hengine hrejected

variable (hdiscards : SearchEngine.Discards index Sound)
include hdiscards

theorem knows_send (h : p.writer.Knows index Sound start) (patches : List ImagePatch)
    (r : DrainReport) : (p.send patches r).2.writer.Knows index Sound start := by
  have hpatch := h.patch hdiscards patches
  rw [send]
  split
  · exact h
  · split
    · rename_i heq
      rw [heq] at hpatch
      exact hpatch
    · rename_i heq
      rw [heq] at hpatch
      exact hpatch.congr rfl rfl

theorem knows_drain (h : p.writer.Knows index Sound start) (kind : Drain) :
    (kind.perform p).writer.Knows index Sound start := by
  cases kind with
  | chunk =>
    -- taking tasks up touches the disk alone, so only the update behind it reaches the engine
    have htaken := takeUpSome_keeps (I := fun _ _ q => q.writer.Knows index Sound start)
      (fun task rest patches r q _ hq => knows_takeUp hq task rest patches r)
      (max p.deferred.drainChunk.toNat 1) p [] {} h
    exact knows_send hdiscards htaken _ _
  | all =>
    rw [Drain.perform]
    cases hempty : p.backlog.isEmpty with
    | true =>
      rw [drainAll_of_isEmpty hempty]
      exact h
    | false =>
      rw [drainAll_of_not_isEmpty hempty]
      have hrested : p.rested.writer.Knows index Sound start := by
        rw [rested_writer]
        exact h
      have htaken := drainTasks_keeps (I := fun _ _ q => q.writer.Knows index Sound start)
        (fun task rest patches r q _ hq => knows_takeUp hq task rest patches r)
        (fun patches r q hq => knows_send hdiscards hq patches r) (fun _ _ _ _ hq => hq)
        p.backlog p.rested [] {} p.rested_backlog hrested
      exact knows_send hdiscards htaken.1 _ _

/-- **One operation.** -/
theorem knows_perform (h : p.writer.Knows index Sound start) (op : Operation) :
    (op.perform p).writer.Knows index Sound start := by
  cases op with
  | write operation => exact h.perform hdiscards operation
  | postpone task => exact h.congr rfl rfl
  | drain kind => exact knows_drain hdiscards h kind
  | abandon reason =>
    rw [Operation.perform, abandon]
    dsimp only
    split
    · exact h
    · exact h.congr rfl rfl

/-- Any number of operations. -/
theorem knows_performAll (ops : List Operation) :
    ∀ {p : Pipeline (Recorded ε)}, p.writer.Knows index Sound start →
      (p.performAll ops).writer.Knows index Sound start := by
  induction ops with
  | nil => exact fun h => h
  | cons op ops ih => exact fun h => ih (knows_perform hdiscards h op)

end Knowledge

end Pipeline

/-! ### What a drain does -/

/-- The tasks among some whose document is rejected. -/
def Writer.unindexed (w : Writer ε) (tasks : List ImageTask) : List ImageTask :=
  tasks.filter fun task => w.isRejected task.id

theorem Writer.unindexed_cons (w : Writer ε) (task : ImageTask) (rest : List ImageTask) :
    w.unindexed (task :: rest) =
      (if w.isRejected task.id then [task] else []) ++ w.unindexed rest := by
  rw [unindexed, List.filter_cons]
  split
  · rfl
  · rfl

theorem Writer.unindexed_congr {v w : Writer ε} (h : v.rejected = w.rejected) :
    v.unindexed = w.unindexed := by
  funext tasks
  rw [unindexed, unindexed]
  simp only [isRejected, h]

namespace Entry

/-- The tasks that are given up with the message that their document was not indexed. -/
def unindexed : List Entry → List ImageTask
  | [] => []
  | .dropped task :: .told (.error message) _ :: rest =>
    if message = "Thumbnails for " ++ task.id ++ ": document was not indexed" then
      task :: unindexed rest
    else unindexed rest
  | _ :: rest => unindexed rest

theorem unindexed_dropped (task : ImageTask) (later : List Entry) :
    unindexed (.dropped task ::
      .told (.error ("Thumbnails for " ++ task.id ++ ": document was not indexed")) rfl :: later) =
        task :: unindexed later :=
  if_pos rfl

end Entry

namespace Pipeline

/-- What is said when a task is taken up, before all that is said later. -/
theorem unindexed_takeUpEntries (p : Pipeline ε) (task : ImageTask) (rest : List ImageTask)
    (later : List Entry) :
    Entry.unindexed (p.takeUpEntries task rest ++ later) =
      (if p.writer.isRejected task.id then [task] else []) ++ Entry.unindexed later := by
  rw [takeUpEntries]
  split
  · exact Entry.unindexed_dropped task later
  · -- a failed adoption has a message of its own and no dropped task before it
    rw [adoptEntries]
    split
    · rfl
    · rfl

theorem unindexed_someEntries (n : Nat) :
    ∀ (p : Pipeline ε) (patches : List ImagePatch) (r : DrainReport) (later : List Entry),
      Entry.unindexed (someEntries n p patches r ++ later) =
        p.writer.unindexed (p.backlog.take n) ++ Entry.unindexed later := by
  induction n with
  | zero => exact fun _ _ _ _ => rfl
  | succ n ih =>
    intro p patches r later
    rw [someEntries]
    cases hb : p.backlog with
    | nil => rfl
    | cons task rest =>
      obtain ⟨-, -, hrejected, hrest, -⟩ := p.takeUp_frame task rest patches r
      dsimp only
      rw [List.append_assoc, unindexed_takeUpEntries, ih, hrest, Writer.unindexed_congr hrejected,
        List.take_succ_cons, Writer.unindexed_cons, List.append_assoc]

variable [SearchEngine ε]

theorem unindexed_sendEntries (p : Pipeline ε) (patches : List ImagePatch) (later : List Entry) :
    Entry.unindexed (p.sendEntries patches ++ later) = Entry.unindexed later := by
  rw [sendEntries]
  split
  · rfl
  · rfl

theorem unindexed_taskEntries (tasks : List ImageTask) :
    ∀ (p : Pipeline ε) (patches : List ImagePatch) (r : DrainReport),
      Entry.unindexed (taskEntries tasks p patches r) = p.writer.unindexed tasks := by
  induction tasks with
  | nil =>
    intro p patches r
    rw [taskEntries, ← List.append_nil (p.sendEntries patches), unindexed_sendEntries]
    rfl
  | cons task rest ih =>
    intro p patches r
    obtain ⟨-, -, hrejected, -⟩ := p.takeUp_frame task rest patches r
    rw [taskEntries, Writer.unindexed_cons]
    generalize p.takeUp task rest patches r = taken at hrejected ⊢
    obtain ⟨patches', r', q⟩ := taken
    dsimp only at hrejected ⊢
    rw [unindexed_takeUpEntries, ← Writer.unindexed_congr hrejected]
    refine (List.append_right_inj _).mpr ?_
    split
    · -- sending and waiting between two updates leave the memory of the writer alone
      obtain ⟨monitor, hsettled⟩ := settle_eq (q.send patches' r').2
      have hsent := (q.send_frame patches' r').2.1
      rw [unindexed_sendEntries, ih, hsettled, watch_writer, Writer.unindexed_congr hsent]
    · rw [ih]

/-- A drain gives up those of its tasks whose document is rejected, and no other ones. -/
theorem unindexed_entries (p : Pipeline ε) (kind : Drain) :
    Entry.unindexed (kind.entries p) = p.writer.unindexed (kind.tasks p) := by
  cases kind with
  | chunk =>
    rw [Drain.entries, chunkEntries, unindexed_someEntries, ← List.append_nil (sendEntries _ _),
      unindexed_sendEntries, Entry.unindexed, List.append_nil]
    rfl
  | all =>
    rw [Drain.entries, drainEntries]
    split
    · rename_i hempty
      rw [Drain.tasks, List.isEmpty_iff.mp hempty]
      rfl
    · rw [unindexed_taskEntries, rested_writer]
      rfl

/-- Sending patches sends each of them once. -/
theorem send_flatten (p : Pipeline (Recorded ε)) (patches : List ImagePatch) (r : DrainReport) :
    ∃ made, (p.send patches r).2.calls = p.calls ++ made ∧
      (EngineCall.updates made).flatten = patches := by
  obtain ⟨made, hupdates, honce, -⟩ := p.send_updates patches r
  refine ⟨made, hupdates.calls, ?_⟩
  rw [honce]
  split
  · rename_i hnone
    rw [hnone]
    rfl
  · exact List.flatten_singleton

omit [SearchEngine ε] in
/-- Taking up to `n` tasks up collects the patches of those that are adopted. -/
theorem takeUpSome_taken (n : Nat) :
    ∀ (p : Pipeline (Recorded ε)) (patches : List ImagePatch) (r : DrainReport),
      let settled := p.thumbnails.takeUpAll p.writer.rejected p.disk (p.backlog.take n)
      let taken := takeUpSome n p patches r
      taken.1 = patches ++ TakenTask.patches settled.1 ∧ taken.2.2.disk = settled.2 ∧
        taken.2.2.calls = p.calls := by
  induction n with
  | zero => exact fun p patches r => ⟨(List.append_nil _).symm, rfl, rfl⟩
  | succ n ih =>
    intro p patches r
    rw [takeUpSome]
    cases hb : p.backlog with
    | nil => exact ⟨(List.append_nil _).symm, rfl, rfl⟩
    | cons task rest =>
      obtain ⟨hpatches, hdisk, -⟩ := p.takeUp_taken task rest patches r
      obtain ⟨hengine, -, hrejected, hrest, -, hthumbnails, -⟩ := p.takeUp_frame task rest patches r
      obtain ⟨hcollected, hsettled, hcalls⟩ := ih (p.takeUp task rest patches r).2.2
        (p.takeUp task rest patches r).1 (p.takeUp task rest patches r).2.1
      rw [hthumbnails, hrejected, hdisk, hrest] at hcollected hsettled
      rw [List.take_succ_cons, Thumbnails.takeUpAll_cons]
      refine ⟨?_, hsettled, hcalls.trans (congrArg Recorded.calls hengine)⟩
      rw [TakenTask.patches_cons, ← List.append_assoc, ← hpatches]
      exact hcollected

/-- A drain takes some tasks up.  Each finds the disk as the tasks before it left it, those whose
document is rejected are given up with a message that says so, and the patches of the adopted ones
are sent, each once and in the order of the tasks. -/
structure Clears (p : Pipeline (Recorded ε)) (kind : Drain) (taken : List TakenTask)
    (made : List EngineCall) : Prop where
  order : taken.map (·.task) = kind.tasks p
  disk : p.thumbnails.takeUpAll p.writer.rejected p.disk (kind.tasks p) =
    (taken, (kind.perform p).disk)
  rejected : ∀ x ∈ taken, x.result = .rejected ↔ p.writer.isRejected x.task.id = true
  told : (kind.perform p).writer.job = p.writer.job.told (kind.entries p)
  unindexed : Entry.unindexed (kind.entries p) =
    (kind.tasks p).filter fun task => p.writer.isRejected task.id
  calls : (kind.perform p).calls = p.calls ++ made
  patches : (EngineCall.updates made).flatten = TakenTask.patches taken

end Pipeline

namespace Thumbnails

/-- A task is rejected if its document is, and in no other case. -/
theorem rejected_iff_of_takeUpAll (t : Thumbnails) (rejected : List String)
    (tasks : List ImageTask) :
    ∀ d : Disk, ∀ x ∈ (t.takeUpAll rejected d tasks).1,
      x.result = .rejected ↔ rejected.contains x.task.id = true := by
  induction tasks with
  | nil => exact fun _ x hx => absurd hx List.not_mem_nil
  | cons task rest ih =>
    intro d x hx
    rw [takeUpAll_cons] at hx
    rcases List.mem_cons.mp hx with rfl | hx
    · dsimp only
      rw [takeUp]
      split
      · rename_i h
        exact iff_of_true rfl h
      · rename_i h
        refine iff_of_false ?_ h
        split
        · exact nofun
        · exact nofun
    · exact ih _ x hx

end Thumbnails

namespace Pipeline

variable [SearchEngine ε]

theorem clears_chunk (p : Pipeline (Recorded ε)) : ∃ taken made, p.Clears .chunk taken made := by
  obtain ⟨hpatches, hdisk, hcalls⟩ :=
    p.takeUpSome_taken (max p.deferred.drainChunk.toNat 1) [] {}
  rw [List.nil_append] at hpatches
  obtain ⟨made, hmade, hflatten⟩ := send_flatten
    (takeUpSome (max p.deferred.drainChunk.toNat 1) p [] {}).2.2
    (takeUpSome (max p.deferred.drainChunk.toNat 1) p [] {}).1
    (takeUpSome (max p.deferred.drainChunk.toNat 1) p [] {}).2.1
  refine ⟨_, made, p.thumbnails.takeUpAll_tasks p.writer.rejected _ p.disk, ?_,
    p.thumbnails.rejected_iff_of_takeUpAll p.writer.rejected _ p.disk, p.job_drainChunk,
    p.unindexed_entries .chunk, ?_, hflatten.trans hpatches⟩
  · rw [Drain.perform, drainChunk, (send_frame _ _ _).2.2.2.2.1, hdisk]
    rfl
  · rw [← hcalls]
    exact hmade

theorem clears_all (p : Pipeline (Recorded ε)) : ∃ taken made, p.Clears .all taken made := by
  have horder := p.thumbnails.takeUpAll_tasks p.writer.rejected p.backlog p.disk
  have hrejected := p.thumbnails.rejected_iff_of_takeUpAll p.writer.rejected p.backlog p.disk
  cases hempty : p.backlog.isEmpty with
  | true =>
    have hidle : Drain.all.perform p = p := by rw [Drain.perform, drainAll_of_isEmpty hempty]
    have hnone : Drain.all.tasks p = [] := List.isEmpty_iff.mp hempty
    refine ⟨[], [], hnone.symm, ?_, nofun, p.job_drainAll, p.unindexed_entries .all, ?_, rfl⟩
    · rw [hidle, hnone]
      rfl
    · rw [hidle, List.append_nil]
  | false =>
    obtain ⟨first, hrun⟩ := drainTasks_drains p.backlog p.rested [] {} p.rested_backlog
      p.rested.updateSize_pos
    have hpatches := hrun.patches
    have hdisk := hrun.disk
    rw [p.rested_thumbnails, p.rested_writer, p.rested_disk] at hpatches hdisk
    rw [List.nil_append] at hpatches
    -- what the loop has collected goes out behind it
    obtain ⟨second, hsecond, hflatten⟩ := send_flatten
      (drainTasks p.backlog p.rested [] {}).2.2 (drainTasks p.backlog p.rested [] {}).1
      (drainTasks p.backlog p.rested [] {}).2.1
    have hperform := congrArg Prod.snd (drainAll_of_not_isEmpty hempty)
    refine ⟨_, first ++ second, horder, ?_, hrejected, p.job_drainAll, p.unindexed_entries .all,
      ?_, ?_⟩
    · rw [Drain.perform, hperform, (send_frame _ _ _).2.2.2.2.1, hdisk]
      rfl
    · have hcalls := hrun.updates.calls
      rw [calls, calls, p.rested_writer] at hcalls
      rw [Drain.perform, hperform, hsecond, ← List.append_assoc]
      exact congrArg (· ++ second) hcalls
    · rw [EngineCall.updates_append, List.flatten_append, hflatten, hpatches]

/-- **A drain.** -/
theorem clears (p : Pipeline (Recorded ε)) (kind : Drain) :
    ∃ taken made, p.Clears kind taken made := by
  cases kind with
  | chunk => exact p.clears_chunk
  | all => exact p.clears_all

end Pipeline

/-! ### Tasks and batches -/

/-- **Given up as not indexed.**  Where an add that fails stores nothing, after any operations: the
engine holds the documents that it held at the start and those of committed batches.  Either way to
take up the backlog gives a task up as not indexed exactly if its document is in a failed batch.  So
if that is in no committed batch as well, only tasks are given up whose document the engine does not
hold, unless it held it at the start. -/
theorem tasks_given_up_iff_batch_failed [SearchEngine ε] {index : ε → Index} {Sound : ε → Prop}
    (hdiscards : SearchEngine.Discards index Sound) (x : Ingestion) (job : Job) (d : Disk)
    (engine : ε) (hsound : Sound engine) (ops : List Pipeline.Operation) :
    let p := (x.pipeline (⟨engine, []⟩ : Recorded ε) job d).performAll ops
    let e := p.writer.engine
    (∀ id, (index e.engine).Holds id ↔ (index engine).Holds id ∨ e.HasCommitted id) ∧
    ∀ kind : Pipeline.Drain, ∃ taken made, p.Clears kind taken made ∧ ∀ y ∈ taken,
      (y.result = .rejected ↔ e.HasFailed y.task.id) ∧
      (¬ (e.HasFailed y.task.id ∧ e.HasCommitted y.task.id) → ¬ (index engine).Holds y.task.id →
        y.result = .rejected → ¬ (index e.engine).Holds y.task.id) := by
  intro p e
  have hstart : (x.pipeline (⟨engine, []⟩ : Recorded ε) job d).writer.Knows index Sound
      (index engine) := by
    refine ⟨hsound, fun id => iff_of_false Bool.false_ne_true ?_, fun id => (or_iff_left ?_).symm⟩
    · rintro ⟨batch, hbatch, -⟩
      cases hbatch
    · rintro ⟨batch, hbatch, -⟩
      cases hbatch
  have hknows : p.writer.Knows index Sound (index engine) :=
    Pipeline.knows_performAll hdiscards ops hstart
  refine ⟨hknows.stored, fun kind => ?_⟩
  obtain ⟨taken, made, hclears⟩ := p.clears kind
  refine ⟨taken, made, hclears, fun y hy => ?_⟩
  have hrejected : y.result = .rejected ↔ e.HasFailed y.task.id :=
    (hclears.rejected y hy).trans (hknows.remembers y.task.id)
  refine ⟨hrejected, fun hone hnew hgiven hholds => ?_⟩
  have hcommitted := (hknows.stored y.task.id).mp hholds
  exact hone ⟨hrejected.mp hgiven, hcommitted.resolve_left hnew⟩

/-- The engine in memory carries each call out or refuses it, and no task of it fails. -/
structure MemoryEngine.Prompt (e : MemoryEngine) : Prop where
  adds : ∀ reply ∈ e.addReplies, reply = .accept ∨ reply = .refuse
  updates : ∀ reply ∈ e.updateReplies, reply = .accept ∨ reply = .refuse
  stalled : e.stalled = []
  failing : e.failing = []

namespace MemoryEngine

variable {e : MemoryEngine}

theorem takeReply_prompt {replies : List Reply}
    (h : ∀ reply ∈ replies, reply = .accept ∨ reply = .refuse) :
    ∃ reply rest, takeReply replies = (reply, rest) ∧ (reply = .accept ∨ reply = .refuse) ∧
      ∀ reply ∈ rest, reply = .accept ∨ reply = .refuse := by
  cases replies with
  | nil => exact ⟨_, _, rfl, .inl rfl, h⟩
  | cons first rest =>
    exact ⟨_, _, rfl, h first List.mem_cons_self,
      fun reply hreply => h reply (List.mem_cons_of_mem first hreply)⟩

/-- What is asked of it is done and stays so, or is refused and changes nothing. -/
theorem Prompt.answer (h : e.Prompt) {reply : Reply} (hreply : reply = .accept ∨ reply = .refuse)
    (refusal : String) (changed : Index) (limit : Span) :
    let c := SearchEngine.commit limit (e.answer reply refusal changed)
    c.2.Prompt ∧ (c.1 = .ok () ∨ (e.answer reply refusal changed).2.index = e.index) := by
  intro c
  rcases hreply with rfl | rfl
  · let e' : MemoryEngine := { e with nextTask := e.nextTask + 1, index := changed }
    have hprompt : e'.Prompt := ⟨h.adds, h.updates, h.stalled, h.failing⟩
    have hawait : e'.await e.nextTask limit = .ok () := by
      rw [MemoryEngine.await, hprompt.stalled, hprompt.failing]
      rfl
    exact ⟨hprompt, .inl hawait⟩
  · exact ⟨h, .inr rfl⟩

/-- Such an engine goes on to do so, and stores nothing of an add that fails. -/
theorem discards : SearchEngine.Discards MemoryEngine.index MemoryEngine.Prompt where
  toIndexes := indexes
  sound_add e limit batch h := by
    obtain ⟨reply, rest, htake, hreply, hrest⟩ := takeReply_prompt h.adds
    have hasked : Prompt { e with
        addReplies := rest, batchSizes := batch.length :: e.batchSizes } :=
      ⟨hrest, h.updates, h.stalled, h.failing⟩
    rw [show SearchEngine.add e batch = e.add batch from rfl, MemoryEngine.add, htake]
    exact (hasked.answer hreply _ _ limit).1
  sound_update e limit patches h := by
    obtain ⟨reply, rest, htake, hreply, hrest⟩ := takeReply_prompt h.updates
    have hasked : Prompt { e with
        updateReplies := rest, updates := patches.map ImagePatch.id :: e.updates } :=
      ⟨h.adds, hrest, h.stalled, h.failing⟩
    rw [show SearchEngine.update e patches = e.update patches from rfl, MemoryEngine.update, htake]
    exact (hasked.answer hreply _ _ limit).1
  failed e limit batch fault h hfailed := by
    obtain ⟨reply, rest, htake, hreply, hrest⟩ := takeReply_prompt h.adds
    have hasked : Prompt { e with
        addReplies := rest, batchSizes := batch.length :: e.batchSizes } :=
      ⟨hrest, h.updates, h.stalled, h.failing⟩
    rw [show SearchEngine.add e batch = e.add batch from rfl, MemoryEngine.add, htake] at hfailed ⊢
    rcases (hasked.answer hreply _ _ limit).2 with hok | hsame
    · rw [hfailed] at hok
      cases hok
    · exact hsame

end MemoryEngine

/-- If the only task left is given up, it counts as failed and nothing is sent. -/
theorem Pipeline.drainAll_of_isRejected [SearchEngine ε] {p : Pipeline ε} {task : ImageTask}
    (hbacklog : p.backlog = [task]) (hrejected : p.writer.isRejected task.id = true) :
    p.drainAll.1 = { failed := 1 } := by
  have hrested : p.rested.writer.isRejected task.id = true := by
    rw [rested_writer]
    exact hrejected
  obtain ⟨q, htaken⟩ : ∃ q, p.rested.takeUp task [] [] {} = ([], { failed := 1 }, q) := by
    rcases p.rested.takeUp_cases task [] [] {} with ⟨-, h⟩ | ⟨hno, -⟩ | ⟨hno, -⟩
    · exact ⟨_, h⟩
    · exact absurd (hrested.symm.trans hno) nofun
    · exact absurd (hrested.symm.trans hno) nofun
  have hroom : ¬ max q.deferred.patchBatch.toNat 1 ≤ ([] : List ImagePatch).length :=
    Nat.not_le.mpr (Nat.le_max_right _ _)
  rw [drainAll_of_not_isEmpty (by rw [hbacklog]; rfl), hbacklog, drainTasks, htaken]
  dsimp only
  rw [if_neg hroom]
  rfl

namespace Sample

/-- An engine that refuses the first batch. -/
def refusing : MemoryEngine := { addReplies := [.refuse] }

theorem prompt_refusing : refusing.Prompt :=
  ⟨fun _ hreply => .inr (List.mem_singleton.mp hreply), nofun, rfl, rfl⟩

theorem not_holds_refusing (id : String) : ¬ refusing.index.Holds id := nofun

/-- A service with this engine once it was asked to do some things. -/
def refused (ops : List Pipeline.Operation) : Pipeline (Recorded MemoryEngine) :=
  ((ingestion {} 900).pipeline ⟨refusing, []⟩ job (disk [])).performAll ops

end Sample

/-- The first of two articles is refused, the second one committed, and both have a task.  The
engine holds the second document alone, and the first task alone is given up. -/
theorem tasks_given_up_iff_batch_failed_once :
    let first := Sample.worker.documentOf Sample.illustrated
    let second := Sample.worker.documentOf Sample.plain
    let other : ImageTask := ⟨Sample.task.staging, second.id⟩
    let p := Sample.refused
      [.postpone Sample.task, .write (.push first 1), .postpone other, .write (.push second 1)]
    SearchEngine.Discards MemoryEngine.index MemoryEngine.Prompt ∧ Sample.refusing.Prompt ∧
      ¬ p.writer.engine.engine.index.Holds first.id ∧
      p.writer.engine.engine.index.Holds second.id ∧
      ∃ taken made, p.Clears .all taken made ∧ taken.map (·.task) = [Sample.task, other] ∧
        ∀ y ∈ taken, y.result = .rejected ↔ y.task.id = first.id := by
  intro first second other p
  have hbatches : batches p.writer.engine.calls = [([first], false), ([second], true)] := rfl
  have hfailed : ∀ id, p.writer.engine.HasFailed id ↔ id = first.id := by
    intro id
    rw [Recorded.HasFailed, hbatches]
    simp [eq_comm]
  have hcommitted : ∀ id, p.writer.engine.HasCommitted id ↔ id = second.id := by
    intro id
    rw [Recorded.HasCommitted, hbatches]
    simp [eq_comm]
  have hdiffer : first.id ≠ second.id := by
    rw [show first.id = Sample.task.id from Sample.id_illustrated,
      show second.id = _ from Sample.id_plain]
    decide
  obtain ⟨hholds, hdrains⟩ := tasks_given_up_iff_batch_failed MemoryEngine.discards
    (Sample.ingestion {} 900) Sample.job (Sample.disk []) Sample.refusing Sample.prompt_refusing
    [.postpone Sample.task, .write (.push first 1), .postpone other, .write (.push second 1)]
  obtain ⟨taken, made, hclears, hgiven⟩ := hdrains .all
  refine ⟨MemoryEngine.discards, Sample.prompt_refusing, fun hfirst => ?_, ?_, taken, made,
    hclears, hclears.order, fun y hy => (hgiven y hy).1.trans (hfailed y.task.id)⟩
  · rcases (hholds first.id).mp hfirst with hstart | hlater
    · exact Sample.not_holds_refusing first.id hstart
    · exact hdiffer ((hcommitted first.id).mp hlater)
  · exact (hholds second.id).mpr (.inr ((hcommitted second.id).mpr rfl))

/-- **Pushed again.**  The engine refuses a document and commits it when it is pushed once more.  It
holds the document, which it did not at the start, and the thumbnails are there to be adopted; but
the last drain says that the document was not indexed, and counts them as failed. -/
theorem given_up_though_indexed :
    let document := Sample.worker.documentOf Sample.illustrated
    let p := Sample.refused
      [.postpone Sample.task, .write (.push document 1), .write (.push document 1)]
    SearchEngine.Discards MemoryEngine.index MemoryEngine.Prompt ∧ Sample.refusing.Prompt ∧
      ¬ Sample.refusing.index.Holds Sample.task.id ∧
      p.writer.engine.HasCommitted Sample.task.id ∧
      p.writer.engine.engine.index.Holds Sample.task.id ∧
      (p.thumbnails.adopt p.disk Sample.task.staging Sample.task.id).1 = .ok Sample.images ∧
      Entry.unindexed p.drainEntries = [Sample.task] ∧ p.drainAll.1 = { failed := 1 } := by
  intro document p
  have hid : document.id = Sample.task.id := Sample.id_illustrated
  have hindex : p.writer.engine.engine.index = Index.add {} document := rfl
  have hbatches : batches p.writer.engine.calls = [([document], false), ([document], true)] := rfl
  have hbacklog : p.backlog = [Sample.task] := rfl
  have hdisk : p.disk = Sample.disk [] := rfl
  have hthumbnails : p.thumbnails = (Sample.ingestion {} 900).thumbnails := rfl
  have hrejected : p.writer.isRejected Sample.task.id = true := by
    rw [Writer.isRejected_eq_true_iff, ← hid, show p.writer.rejected = [document.id] from rfl]
    exact List.mem_cons_self
  refine ⟨MemoryEngine.discards, Sample.prompt_refusing, Sample.not_holds_refusing _,
    ⟨[document], ?_, ?_⟩, ?_, ?_, ?_, Pipeline.drainAll_of_isRejected hbacklog hrejected⟩
  · rw [hbatches]
    exact List.mem_cons_of_mem _ List.mem_cons_self
  · rw [← hid]
    exact List.mem_cons_self
  · rw [hindex, Index.holds_add]
    exact .inl hid.symm
  · rw [hthumbnails, hdisk, Sample.adopt_task {} 900 Sample.clear_nil]
  · rw [show Entry.unindexed p.drainEntries = _ from p.unindexed_entries .all,
      show Pipeline.Drain.all.tasks p = _ from hbacklog, Writer.unindexed_cons, if_pos hrejected]
    rfl

end Corpus
