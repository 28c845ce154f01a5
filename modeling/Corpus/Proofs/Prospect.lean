/-
Corpus/Proofs/Prospect.lean

What a run will have done once the work at hand is finished.

The work at hand is the documents pending in the writer, the patches collected and the tasks
left for later.  Carrying out a part of it does not change what will have been done in the end,
so it does not matter when that happens; and a record changes it in one way only, whether its
thumbnails are taken up at once or later.

All this is for runs in which no call of the engine fails, with the directories of all tasks
ready to be adopted.
-/
import Corpus.Proofs.Indexing
import Corpus.Proofs.Pipeline
import Corpus.Proofs.Recording
import Corpus.Proofs.Staging

namespace Corpus

/-! ### Calls that do not fail -/

namespace Recorded.Unfailing

variable {ε : Type} [SearchEngine ε] {index : ε → Index} {e : Recorded ε} {limit : Span}

/-- Where no call fails, a batch is added. -/
theorem index_add (hserves : SearchEngine.Serves index) {batch : List Document}
    (h : (SearchEngine.commit limit (SearchEngine.add e batch)).2.Unfailing) :
    index (SearchEngine.commit limit (SearchEngine.add e batch)).2.engine =
      (index e.engine).addAll batch := by
  obtain ⟨hresult, hengine⟩ := e.commit_add limit batch
  rw [hengine, hserves.commit_add]
  exact hserves.committed _ _ limit (hresult.symm.trans h.commit_add.2)

/-- Where no call fails, patches are applied. -/
theorem index_update (hserves : SearchEngine.Serves index) {patches : List ImagePatch}
    (h : (SearchEngine.commit limit (SearchEngine.update e patches)).2.Unfailing) :
    index (SearchEngine.commit limit (SearchEngine.update e patches)).2.engine =
      (index e.engine).updateAll patches := by
  obtain ⟨hresult, hengine⟩ := e.commit_update limit patches
  rw [hengine, hserves.commit_update]
  exact hserves.updated _ _ limit (hresult.symm.trans h.commit_update.2)

end Recorded.Unfailing

/-! ### Prospects -/

/-- What a run leads to: the objects that a client is shown, the counters, and what stands in
the places of the documents' thumbnails. -/
structure Prospect where
  objects : String → Option Stored
  tally : Tally
  shelves : String → Option Node

namespace Prospect

/-- What there is to see when no work is at hand. -/
def seen {ε : Type} (index : ε → Index) (top : Place) (engine : ε) (tally : Tally) (d : Disk) :
    Prospect :=
  ⟨(index engine).shown, { tally with deferred := 0 },
    fun id => d.root.at? (Thumbnails.shelf top id)⟩

/-- The prospect with an update counted. -/
def count (f : Prospect) (u : JobUpdate) : Prospect :=
  { f with tally := Job.updateTally f.tally u }

/-- The prospect with an object. -/
def store (f : Prospect) (s : Stored) : Prospect :=
  { f with objects := fun id => if id = s.id then some s else f.objects id }

/-- The prospect with thumbnails of a document. -/
def shelve (f : Prospect) (id : String) (n : Node) : Prospect :=
  { f with shelves := fun other => if other = id then some n else f.shelves other }

end Prospect

/-- The counters after so many documents were indexed and so many image sets adopted and lost,
with nothing left for later. -/
def Tally.ahead (t : Tally) (pending given lost : Nat) : Tally :=
  { t with
    processed := t.processed + UInt64.ofNat pending
    indexed := t.indexed + UInt64.ofNat pending
    images := t.images + UInt64.ofNat given
    imagesFailed := t.imagesFailed + UInt64.ofNat lost
    deferred := 0 }

namespace Tally

variable (t : Tally) (pending given lost n : Nat)

/-- Updates commute with what is ahead. -/
theorem ahead_update {u : JobUpdate} (hu : ∀ k, u ≠ .deferred k) :
    (Job.updateTally t u).ahead pending given lost =
      Job.updateTally (t.ahead pending given lost) u := by
  -- a counter that the update moves may be one that is still to grow
  have hcomm : ∀ a b c : UInt64, a + b + c = a + c + b := by
    intro a b c
    rw [UInt64.add_assoc, UInt64.add_comm b, ← UInt64.add_assoc]
  cases u with
  | deferred k => exact absurd rfl (hu k)
  | imageSkip reason => cases reason <;> rfl
  | discovered n | skipped | error message => rfl
  | _ => simp only [Job.updateTally, ahead, hcomm]

theorem ahead_deferred (k : UInt64) :
    (Job.updateTally t (.deferred k)).ahead pending given lost = t.ahead pending given lost := rfl

theorem ahead_pending :
    t.ahead (pending + n) given lost =
      Job.updateTally (t.ahead pending given lost) (.indexed (UInt64.ofNat n)) := by
  simp only [Job.updateTally, ahead, UInt64.ofNat_add, UInt64.add_assoc]

theorem ahead_given :
    t.ahead pending (given + 1) lost =
      Job.updateTally (t.ahead pending given lost) .image := by
  simp only [Job.updateTally, ahead, UInt64.ofNat_add, UInt64.add_assoc]
  rfl

theorem ahead_lost :
    t.ahead pending given (lost + 1) =
      Job.updateTally (t.ahead pending given lost) .imageFailure := by
  simp only [Job.updateTally, ahead, UInt64.ofNat_add, UInt64.add_assoc]
  rfl

end Tally

/-! ### Commits that do not fail -/

section Commits

variable {ε : Type} [SearchEngine ε] {index : ε → Index}

/-- What a commit does where no call fails. -/
theorem Writer.flush_of_unfailing {w : Writer (Recorded ε)}
    (hserves : SearchEngine.Serves index) (h : w.flush.2.engine.Unfailing) :
    w.engine.Unfailing ∧ ∃ engine stats job,
      w.flush.2 = { w with engine, stats, job, pending := [] } ∧
      index engine.engine = (index w.engine.engine).addAll w.pending ∧
      ∀ given lost, job.tally.ahead 0 given lost =
        w.job.tally.ahead w.pending.length given lost := by
  rcases w.engine_flush with ⟨hnone, heq⟩ | ⟨hsome, hengine⟩
  · rw [heq] at h
    refine ⟨h, w.engine, w.stats, w.job, ?_, by rw [hnone]; rfl, by simp [hnone]⟩
    rw [heq, ← hnone]
  · rw [hengine] at h
    obtain ⟨hbefore, hok⟩ := h.commit_add
    have hindex := h.index_add hserves
    rcases w.flush_cases with ⟨hnone, -⟩ | ⟨-, engine, stats, hcommit, heq⟩ |
      ⟨-, fault, engine, stats, hcommit, heq⟩
    · exact absurd hnone hsome
    · rw [hcommit] at hindex
      refine ⟨hbefore, engine, stats, _, by rw [heq], hindex, fun given lost => ?_⟩
      rw [← Nat.zero_add w.pending.length, Tally.ahead_pending, Nat.zero_add]
      exact Tally.ahead_update _ _ _ _ (by simp)
    · rw [hcommit] at hok
      cases hok

/-- What sending patches does where no call fails. -/
theorem Pipeline.send_of_unfailing {p : Pipeline (Recorded ε)} {patches : List ImagePatch}
    {r : DrainReport} (hserves : SearchEngine.Serves index)
    (h : (p.send patches r).2.writer.engine.Unfailing) :
    p.writer.engine.Unfailing ∧ ∃ engine stats,
      (p.send patches r).2 = { p with writer := { p.writer with engine, stats } } ∧
      index engine.engine = (index p.writer.engine.engine).updateAll patches := by
  rcases p.engine_send patches r with ⟨rfl, heq⟩ | ⟨hsome, hengine⟩
  · rw [heq] at h ⊢
    exact ⟨h, p.writer.engine, p.writer.stats, rfl, rfl⟩
  · rw [hengine] at h
    obtain ⟨hbefore, hok⟩ := h.commit_update
    have hindex := h.index_update hserves
    rcases p.send_cases patches r with ⟨hnone, -⟩ | ⟨-, engine, stats, hcommit, heq⟩ |
      ⟨-, fault, engine, hcommit, heq⟩
    · exact absurd hnone hsome
    · rw [hcommit] at hindex
      exact ⟨hbefore, engine, stats, by rw [heq], hindex⟩
    · rw [hcommit] at hok
      cases hok

end Commits

/-- The patch that a task will give. -/
def ImageTask.patch? (t : Thumbnails) (staged : ImageTask → List (Bytes × Node))
    (task : ImageTask) : Option ImagePatch :=
  match (t.settle task.id (staged task)).1 with
  | .ok images => some ⟨task.id, images⟩
  | .error _ => none

/-- No task is found for a document that none of them is for. -/
theorem ImageTask.find?_eq_none {tasks : List ImageTask} {id : String}
    (h : id ∉ tasks.map (·.id)) : tasks.find? (·.id == id) = none := by
  rw [List.find?_eq_none]
  exact fun task htask heq => h (List.mem_map.mpr ⟨task, htask, eq_of_beq heq⟩)

namespace Pipeline

variable {ε : Type} (index : ε → Index) (top : Place)
  (staged : ImageTask → List (Bytes × Node)) (patches : List ImagePatch)
  (p : Pipeline (Recorded ε))

/-- The patches that the backlog will give. -/
def patchesAhead : List ImagePatch := p.backlog.filterMap (ImageTask.patch? p.thumbnails staged)

/-- The index after the work at hand. -/
def indexAhead : Index :=
  ((index p.writer.engine.engine).addAll p.writer.pending).updateAll
    (patches ++ p.patchesAhead staged)

/-- The counters after the work at hand. -/
def tallyAhead : Tally :=
  p.writer.job.tally.ahead p.writer.pending.length (p.patchesAhead staged).length
    (p.backlog.countP fun task => (task.patch? p.thumbnails staged).isNone)

/-- What stands in the place of a document's thumbnails after the work at hand. -/
def shelfAhead (id : String) : Option Node :=
  match p.backlog.find? (·.id == id) with
  | some task => some (p.thumbnails.settle task.id (staged task)).2
  | none => p.disk.root.at? (Thumbnails.shelf top id)

/-- What the run will have done after the work at hand. -/
def prospect : Prospect :=
  ⟨(p.indexAhead index staged patches).shown, p.tallyAhead staged, p.shelfAhead top staged⟩

variable {index top staged patches p}

theorem prospect_congr {patches' : List ImagePatch} {q : Pipeline (Recorded ε)}
    (hindex : q.indexAhead index staged patches' = p.indexAhead index staged patches)
    (htally : q.tallyAhead staged = p.tallyAhead staged)
    (hshelf : ∀ id, q.shelfAhead top staged id = p.shelfAhead top staged id) :
    q.prospect index top staged patches' = p.prospect index top staged patches := by
  rw [prospect, prospect, hindex, htally, funext hshelf]

/-- Where the first task of the backlog was taken up, what it was to put in place stands. -/
theorem shelfAhead_of_taken {q : Pipeline (Recorded ε)} {task : ImageTask}
    {rest : List ImageTask} (hb : p.backlog = task :: rest) (hfresh : task.id ∉ rest.map (·.id))
    (hrest : q.backlog = rest) (hthumbnails : q.thumbnails = p.thumbnails)
    (hdisk : ∀ id, q.disk.root.at? (Thumbnails.shelf top id) =
      if id = task.id then some (p.thumbnails.settle task.id (staged task)).2
      else p.disk.root.at? (Thumbnails.shelf top id)) (id : String) :
    q.shelfAhead top staged id = p.shelfAhead top staged id := by
  rw [shelfAhead, shelfAhead, hb, hrest, hthumbnails, hdisk]
  by_cases hid : id = task.id
  · subst hid
    -- no later task of the backlog is for the same document
    rw [ImageTask.find?_eq_none hfresh, List.find?_cons_of_pos (by simp), if_pos rfl]
  · rw [List.find?_cons_of_neg (by simpa using Ne.symm hid), if_neg hid]

/-- Where the first task of the backlog was taken up, what became of it is counted. -/
theorem tallyAhead_of_taken {q : Pipeline (Recorded ε)} {task : ImageTask}
    {rest : List ImageTask} {n : UInt64} (hb : p.backlog = task :: rest)
    (hrest : q.backlog = rest) (hthumbnails : q.thumbnails = p.thumbnails)
    (hpending : q.writer.pending = p.writer.pending)
    (htally : q.writer.job.tally =
      Job.updateTally (Job.updateTally p.writer.job.tally (.deferred n))
        (if (task.patch? p.thumbnails staged).isSome then .image else .imageFailure)) :
    q.tallyAhead staged = p.tallyAhead staged := by
  rw [tallyAhead, tallyAhead, patchesAhead, patchesAhead, hb, hrest, hthumbnails, hpending,
    htally, List.filterMap_cons, List.countP_cons]
  cases task.patch? p.thumbnails staged with
  | some patch =>
    rw [List.length_cons, Tally.ahead_given]
    exact Tally.ahead_update _ _ _ _ (by simp)
  | none =>
    show _ = Tally.ahead _ _ _ (_ + 1)
    rw [Tally.ahead_lost]
    exact Tally.ahead_update _ _ _ _ (by simp)

end Pipeline

/-! ### What records lead to -/

namespace Worker

variable (w : Worker)

/-- The document of a record before anything is known of its images. -/
def documentOf (r : Record) : Document :=
  .ofRecord w.provenance r w.ingest.maxContentChars.toNat

/-- Documents have names for identifiers. -/
theorem named_documentOf (r : Record) :
    ∃ name, (w.documentOf r).id = NameId.ofName NameId.locations name := by
  refine ⟨Document.idName w.provenance.root r.path, ?_⟩
  rw [documentOf, Document.ofRecord, Document.idOf]

/-- So an identifier can be the name of a directory. -/
theorem isName_documentOf (r : Record) : Disk.IsName (Text.encode (w.documentOf r).id) := by
  obtain ⟨name, hname⟩ := w.named_documentOf r
  rw [hname]
  exact NameId.isName_ofName _ _

/-- The task of a record that has enough text and thumbnails. -/
def taskOf? (r : Record) : Option ImageTask :=
  if w.isSubstantial r then r.staging?.map fun s => ⟨.ofText s, (w.documentOf r).id⟩ else none

/-- The tasks of some records. -/
def tasksOf (records : List Record) : List ImageTask := records.filterMap w.taskOf?

theorem id_of_taskOf? {r : Record} {task : ImageTask} (h : w.taskOf? r = some task) :
    task.id = (w.documentOf r).id := by
  unfold taskOf? at h
  split at h
  · obtain ⟨s, -, rfl⟩ := Option.map_eq_some_iff.mp h
    rfl
  · cases h

/-- The identifiers of tasks are those of their documents. -/
theorem ids_tasksOf_sublist (records : List Record) :
    ((w.tasksOf records).map (·.id)).Sublist (records.map fun r => (w.documentOf r).id) := by
  induction records with
  | nil => exact .slnil
  | cons r rest ih =>
    rw [tasksOf, List.filterMap_cons, List.map_cons]
    cases htask : w.taskOf? r with
    | none => exact ih.cons _
    | some task =>
      rw [← w.id_of_taskOf? htask]
      exact ih.cons_cons _

/-- A pipeline with some records still to come will have done what is foreseen. -/
structure Foreseen {ε : Type} (index : ε → Index) (t : Thumbnails) (top : Place)
    (origin : ImageTask → Place) (staged : ImageTask → List (Bytes × Node))
    (future : List Record) (f : Prospect) (patches : List ImagePatch)
    (p : Pipeline (Recorded ε)) : Prop where
  thumbnails : p.thumbnails = t
  rejected : p.writer.rejected = []
  ready : t.Ready p.disk top origin staged (p.backlog ++ w.tasksOf future)
  ids : (p.backlog.map (·.id) ++ future.map fun r => (w.documentOf r).id).Nodup
  named : ∀ task ∈ p.backlog, ∃ name, task.id = NameId.ofName NameId.locations name
  prospect : p.prospect index top staged patches = f

variable {w} {ε : Type} {index : ε → Index} {t : Thumbnails} {top : Place}
  {origin : ImageTask → Place} {staged : ImageTask → List (Bytes × Node)}
  {future : List Record} {f : Prospect} {patches : List ImagePatch} {p : Pipeline (Recorded ε)}

namespace Foreseen

theorem ids_tasks (h : w.Foreseen index t top origin staged future f patches p) :
    ((p.backlog ++ w.tasksOf future).map (·.id)).Nodup := by
  refine h.ids.sublist ?_
  rw [List.map_append]
  exact (w.ids_tasksOf_sublist future).append_left _

/-- The next task of the backlog is adopted as foreseen. -/
theorem adopt_next (h : w.Foreseen index t top origin staged future f patches p)
    {task : ImageTask} {rest : List ImageTask} (hb : p.backlog = task :: rest) :
    ∃ disk, t.adopt p.disk task.staging task.id = ((t.settle task.id (staged task)).1, disk) ∧
      t.Ready disk top origin staged (rest ++ w.tasksOf future) ∧
      ∀ id, disk.root.at? (Thumbnails.shelf top id) =
        if id = task.id then some (t.settle task.id (staged task)).2
        else p.disk.root.at? (Thumbnails.shelf top id) := by
  obtain ⟨name, hname⟩ := h.named task (hb ▸ List.mem_cons_self)
  have hready := h.ready
  have hids := h.ids_tasks
  rw [hb] at hready hids
  exact hready.adopt [] hids (by rw [hname]; exact NameId.isName_ofName _ _)
    (by rw [hname]; exact NameId.separator_not_mem_hyphenated _)

/-- The task of the next record is adopted as foreseen. -/
theorem adopt_now {r : Record}
    (h : w.Foreseen index t top origin staged (r :: future) f patches p) {task : ImageTask}
    (htask : w.taskOf? r = some task) :
    ∃ disk, t.adopt p.disk task.staging task.id = ((t.settle task.id (staged task)).1, disk) ∧
      t.Ready disk top origin staged (p.backlog ++ w.tasksOf future) ∧
      ∀ id, disk.root.at? (Thumbnails.shelf top id) =
        if id = task.id then some (t.settle task.id (staged task)).2
        else p.disk.root.at? (Thumbnails.shelf top id) := by
  have htasks : w.tasksOf (r :: future) = task :: w.tasksOf future := by
    rw [tasksOf, List.filterMap_cons, htask]
    rfl
  have hready := h.ready
  have hids := h.ids_tasks
  rw [htasks] at hready hids
  obtain ⟨name, hname⟩ := w.named_documentOf r
  exact hready.adopt p.backlog hids
    (w.id_of_taskOf? htask ▸ w.isName_documentOf r)
    (by rw [w.id_of_taskOf? htask, hname]; exact NameId.separator_not_mem_hyphenated _)

/-- Taking a task up leads where it was foreseen. -/
theorem takeUp (h : w.Foreseen index t top origin staged future f patches p)
    {task : ImageTask} {rest : List ImageTask} (hb : p.backlog = task :: rest)
    (r : DrainReport) :
    w.Foreseen index t top origin staged future f (p.takeUp task rest patches r).1
      (p.takeUp task rest patches r).2.2 := by
  obtain ⟨disk, hadopt, hready, hshelf⟩ := h.adopt_next hb
  have hids : (rest.map (·.id) ++ future.map fun r => (w.documentOf r).id).Nodup := by
    have hids := h.ids
    rw [hb, List.map_cons, List.cons_append] at hids
    exact hids.of_cons
  have hnamed : ∀ task ∈ rest, ∃ name, task.id = NameId.ofName NameId.locations name :=
    fun other hother => h.named other (hb ▸ List.mem_cons_of_mem task hother)
  have hfresh : task.id ∉ rest.map (·.id) := by
    have hids := h.ids
    rw [hb, List.map_cons, List.cons_append, List.nodup_cons] at hids
    exact fun hmem => hids.1 (List.mem_append_left _ hmem)
  rcases Pipeline.takeUp_cases p task rest patches r with
    ⟨hrej, -⟩ | ⟨-, images, disk', hadopt', heq⟩ | ⟨-, fault, disk', hadopt', heq⟩
  -- no batch has failed, so no document was rejected
  · rw [Writer.isRejected_eq_true_iff, h.rejected] at hrej
    cases hrej
  -- adoption answers what was foreseen, a patch or none
  · rw [h.thumbnails, hadopt] at hadopt'
    obtain ⟨hresult, rfl⟩ := Prod.mk.inj hadopt'
    have hpatch : task.patch? p.thumbnails staged = some ⟨task.id, images⟩ := by
      rw [ImageTask.patch?, h.thumbnails, hresult]
    rw [heq]
    refine ⟨h.thumbnails, h.rejected, hready, hids, hnamed, ?_⟩
    rw [← h.prospect]
    refine Pipeline.prospect_congr ?_
      (Pipeline.tallyAhead_of_taken hb rfl rfl rfl (by rw [hpatch]; rfl))
      (Pipeline.shelfAhead_of_taken hb hfresh rfl rfl (h.thumbnails ▸ hshelf))
    simp [Pipeline.indexAhead, Pipeline.patchesAhead, Pipeline.setBacklog, hb, hpatch]
  · rw [h.thumbnails, hadopt] at hadopt'
    obtain ⟨hresult, rfl⟩ := Prod.mk.inj hadopt'
    have hpatch : task.patch? p.thumbnails staged = none := by
      rw [ImageTask.patch?, h.thumbnails, hresult]
    rw [heq]
    refine ⟨h.thumbnails, h.rejected, hready, hids, hnamed, ?_⟩
    rw [← h.prospect]
    refine Pipeline.prospect_congr ?_
      (Pipeline.tallyAhead_of_taken hb rfl rfl rfl (by rw [hpatch]; rfl))
      (Pipeline.shelfAhead_of_taken hb hfresh rfl rfl (h.thumbnails ▸ hshelf))
    simp [Pipeline.indexAhead, Pipeline.patchesAhead, Pipeline.setBacklog, Pipeline.loseImages,
      hb, hpatch]

/-- Another monitor changes nothing. -/
theorem watch (h : w.Foreseen index t top origin staged future f patches p) (monitor : Monitor) :
    w.Foreseen index t top origin staged future f patches (p.watch monitor) :=
  ⟨h.thumbnails, h.rejected, h.ready, h.ids, h.named, h.prospect⟩

variable [SearchEngine ε]

/-- Patches that are sent lead where it was foreseen, provided that all documents were
committed before. -/
theorem send (h : w.Foreseen index t top origin staged future f patches p)
    (hserves : SearchEngine.Serves index) (hpending : p.writer.pending = []) {r : DrainReport}
    (hcalls : (p.send patches r).2.writer.engine.Unfailing) :
    w.Foreseen index t top origin staged future f [] (p.send patches r).2 := by
  obtain ⟨-, engine, stats, heq, hindex⟩ := Pipeline.send_of_unfailing hserves hcalls
  rw [heq]
  refine ⟨h.thumbnails, h.rejected, h.ready, h.ids, h.named, ?_⟩
  rw [← h.prospect]
  refine Pipeline.prospect_congr ?_ rfl fun _ => rfl
  show ((index engine.engine).addAll p.writer.pending).updateAll ([] ++ _) = _
  rw [hindex, Pipeline.indexAhead, hpending, List.nil_append, Index.updateAll_append]
  rfl

/-- A commit leads where it was foreseen. -/
theorem flush (h : w.Foreseen index t top origin staged future f patches p)
    (hserves : SearchEngine.Serves index) (hcalls : p.writer.flush.2.engine.Unfailing) :
    w.Foreseen index t top origin staged future f patches
      { p with writer := p.writer.flush.2 } := by
  obtain ⟨-, engine, stats, job, heq, hindex, htally⟩ :=
    Writer.flush_of_unfailing hserves hcalls
  rw [heq]
  refine ⟨h.thumbnails, h.rejected, h.ready, h.ids, h.named, ?_⟩
  rw [← h.prospect]
  refine Pipeline.prospect_congr ?_ (htally _ _) fun _ => rfl
  show ((index engine.engine).addAll []).updateAll _ = _
  rw [hindex]
  rfl

end Foreseen

/-! ### Draining the backlog -/

/-- The documents are all committed, and what is foreseen will be done, unless a call failed. -/
def Drains {ε : Type} (w : Worker) (index : ε → Index) (t : Thumbnails) (top : Place)
    (origin : ImageTask → Place) (staged : ImageTask → List (Bytes × Node))
    (future : List Record) (f : Prospect) (patches : List ImagePatch)
    (p : Pipeline (Recorded ε)) : Prop :=
  p.writer.engine.Unfailing →
    p.writer.pending = [] ∧ w.Foreseen index t top origin staged future f patches p

namespace Drains

theorem takeUp (h : w.Drains index t top origin staged future f patches p) {task : ImageTask}
    {rest : List ImageTask} (hb : p.backlog = task :: rest) (r : DrainReport) :
    w.Drains index t top origin staged future f (p.takeUp task rest patches r).1
      (p.takeUp task rest patches r).2.2 := by
  obtain ⟨hengine, hpending, -⟩ := p.takeUp_frame task rest patches r
  intro hcalls
  rw [hengine] at hcalls
  obtain ⟨hnone, hforeseen⟩ := h hcalls
  exact ⟨hpending.trans hnone, hforeseen.takeUp hb r⟩

theorem watch (h : w.Drains index t top origin staged future f patches p) (monitor : Monitor) :
    w.Drains index t top origin staged future f patches (p.watch monitor) :=
  fun hcalls => ⟨(h hcalls).1, (h hcalls).2.watch monitor⟩

variable [SearchEngine ε]

theorem send (h : w.Drains index t top origin staged future f patches p)
    (hserves : SearchEngine.Serves index) (r : DrainReport) :
    w.Drains index t top origin staged future f [] (p.send patches r).2 := by
  obtain ⟨hpending, -⟩ := p.send_frame patches r
  intro hcalls
  obtain ⟨hbefore, -⟩ := Pipeline.send_of_unfailing hserves hcalls
  obtain ⟨hnone, hforeseen⟩ := h hbefore
  exact ⟨hpending.trans hnone, hforeseen.send hserves hnone hcalls⟩

/-- A chunk of the backlog leads where it was foreseen. -/
theorem drainChunk (h : w.Drains index t top origin staged future f [] p)
    (hserves : SearchEngine.Serves index) :
    w.Drains index t top origin staged future f [] p.drainChunk.2 := by
  have htaken := Pipeline.takeUpSome_keeps
    (I := fun patches _ p => w.Drains index t top origin staged future f patches p)
    (fun task rest patches r p hb h => h.takeUp hb r) (max p.deferred.drainChunk.toNat 1) p []
    {} h
  exact htaken.send hserves _

/-- The last drain leads where it was foreseen, and leaves no task. -/
theorem drainAll (h : w.Drains index t top origin staged future f [] p)
    (hserves : SearchEngine.Serves index) :
    w.Drains index t top origin staged future f [] p.drainAll.2 ∧ p.drainAll.2.backlog = [] := by
  cases hempty : p.backlog.isEmpty with
  | true =>
    rw [Pipeline.drainAll_of_isEmpty hempty]
    exact ⟨h, List.isEmpty_iff.mp hempty⟩
  | false =>
    rw [Pipeline.drainAll_of_not_isEmpty hempty]
    -- the wait before it touches the monitor alone
    have hrested : w.Drains index t top origin staged future f [] p.rested := by
      rw [Pipeline.rested]
      exact h.watch _
    obtain ⟨htaken, hnone⟩ := Pipeline.drainTasks_keeps
      (I := fun patches _ p => w.Drains index t top origin staged future f patches p)
      (fun task rest patches r p hb h => h.takeUp hb r) (fun patches r p h => h.send hserves r)
      (fun patches r p monitor h => h.watch monitor) p.backlog p.rested [] {} p.rested_backlog
      hrested
    exact ⟨htaken.send hserves _, (Pipeline.send_frame _ _ _).2.2.1.trans hnone⟩

end Drains

end Worker

end Corpus
