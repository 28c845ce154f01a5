/-
Corpus/Proofs/Foresight.lean

What a whole run will have done, told from its records alone.

A record announces itself, is settled as indexed or failed, puts its document into the index
with the images that its thumbnails give, and these into their place.  None of that depends on
the monitor, on the size of batches or on what was left for later.
-/
import Corpus.Extractor.Feed
import Corpus.Proofs.Prospect

namespace Corpus

namespace Worker

variable (w : Worker) (t : Thumbnails) (staged : ImageTask → List (Bytes × Node))

/-! ### What a record leads to -/

/-- What the document of a record will say of its images. -/
def imagesOf (r : Record) : ImageMetadata :=
  (((w.taskOf? r).bind (ImageTask.patch? t staged)).map (·.images)).getD {}

/-- The object that a client will be shown of a record. -/
def objectOf (r : Record) : Stored :=
  let d : Document := { w.documentOf r with images := w.imagesOf t staged r }
  ⟨d.id, some d, d.images⟩

/-- What a task adds to a prospect. -/
def foreseeTask (task : ImageTask) (f : Prospect) : Prospect :=
  (f.count (if (task.patch? t staged).isSome then .image else .imageFailure)).shelve task.id
    (t.settle task.id (staged task)).2

/-- What a record adds to a prospect. -/
def foresee (r : Record) (f : Prospect) : Prospect :=
  let f := match r.imageSkip? with
    | some reason => f.count (.imageSkip reason)
    | none => f
  if w.isSubstantial r then
    let f := match w.taskOf? r with
      | some task => foreseeTask t staged task f
      | none => f
    (f.count (.indexed 1)).store (w.objectOf t staged r)
  else f.count (.failed 1)

/-- What records add to a prospect, each announced before it is given. -/
def foreseeAll (records : List Record) (f : Prospect) : Prospect :=
  records.foldl (fun f r => w.foresee t staged r (f.count (.discovered 1))) f

variable {w t staged} {f f' : Prospect} {r : Record} {records : List Record} {id : String}

theorem foresee_objects : (w.foresee t staged r f).objects id =
    if w.isSubstantial r ∧ id = (w.documentOf r).id then some (w.objectOf t staged r)
    else f.objects id := by
  rw [foresee]
  cases w.isSubstantial r with
  | false => cases r.imageSkip? <;> rfl
  | true =>
    have hstored : ∀ g : Prospect, g.objects = f.objects →
        (g.store (w.objectOf t staged r)).objects id =
          if id = (w.documentOf r).id then some (w.objectOf t staged r) else f.objects id :=
      fun g hg => by rw [← hg]; rfl
    simp only [if_true, true_and]
    cases w.taskOf? r <;> cases r.imageSkip? <;> exact hstored _ rfl

theorem foresee_shelves : (w.foresee t staged r f).shelves id =
    match w.taskOf? r with
    | some task =>
      if id = task.id then some (t.settle task.id (staged task)).2 else f.shelves id
    | none => f.shelves id := by
  rw [foresee]
  cases hsubstantial : w.isSubstantial r with
  | false =>
    have hnone : w.taskOf? r = none := by rw [taskOf?, hsubstantial]; rfl
    rw [hnone]
    cases r.imageSkip? <;> rfl
  | true => cases w.taskOf? r <;> cases r.imageSkip? <;> rfl

theorem foresee_tally (h : f.tally = f'.tally) :
    (w.foresee t staged r f).tally = (w.foresee t staged r f').tally := by
  rw [foresee, foresee]
  cases w.isSubstantial r <;> cases w.taskOf? r <;> cases r.imageSkip? <;>
    simp [foreseeTask, Prospect.count, Prospect.store, Prospect.shelve, h]

/-- What is shown of other documents does not matter for what will be shown of one. -/
theorem foreseeAll_objects (h : f.objects id = f'.objects id) :
    (w.foreseeAll t staged records f).objects id =
      (w.foreseeAll t staged records f').objects id := by
  induction records generalizing f f' with
  | nil => exact h
  | cons r rest ih =>
    refine ih ?_
    rw [foresee_objects, foresee_objects, Prospect.count, Prospect.count, h]

/-- What is shown of a record with enough text is told by the record. -/
theorem foreseeAll_objects_of_mem (hmem : r ∈ records) (hsubstantial : w.isSubstantial r = true) :
    (w.foreseeAll t staged records f).objects (w.documentOf r).id =
      (w.foreseeAll t staged records f').objects (w.documentOf r).id := by
  induction records generalizing f f' with
  | nil => cases hmem
  | cons first rest ih =>
    rcases List.mem_cons.mp hmem with rfl | hrest
    -- whatever was shown before, the record puts its object there
    · rw [foreseeAll, foreseeAll, List.foldl_cons, List.foldl_cons]
      apply foreseeAll_objects
      rw [foresee_objects, foresee_objects, if_pos ⟨hsubstantial, rfl⟩,
        if_pos ⟨hsubstantial, rfl⟩]
    · exact ih hrest

theorem foreseeAll_tally (h : f.tally = f'.tally) :
    (w.foreseeAll t staged records f).tally = (w.foreseeAll t staged records f').tally := by
  induction records generalizing f f' with
  | nil => exact h
  | cons r rest ih =>
    refine ih (foresee_tally ?_)
    rw [Prospect.count, Prospect.count, h]

/-- Only tasks put something in place. -/
theorem foreseeAll_shelves_of_not_mem (h : id ∉ (w.tasksOf records).map (·.id)) :
    (w.foreseeAll t staged records f).shelves id = f.shelves id := by
  induction records generalizing f with
  | nil => rfl
  | cons r rest ih =>
    rw [tasksOf, List.filterMap_cons] at h
    cases htask : w.taskOf? r with
    | none =>
      rw [htask] at h
      refine (ih h).trans ?_
      rw [foresee_shelves, htask]
      rfl
    | some task =>
      rw [htask, List.map_cons, List.mem_cons, not_or] at h
      refine (ih h.2).trans ?_
      rw [foresee_shelves, htask]
      exact if_neg h.1

/-- A task of different documents puts its directory in place. -/
theorem foreseeAll_shelves_of_mem {task : ImageTask} (hmem : task ∈ w.tasksOf records)
    (hids : ((w.tasksOf records).map (·.id)).Nodup) :
    (w.foreseeAll t staged records f).shelves task.id =
      some (t.settle task.id (staged task)).2 := by
  induction records generalizing f with
  | nil => cases hmem
  | cons r rest ih =>
    rw [tasksOf, List.filterMap_cons] at hmem hids
    cases htask : w.taskOf? r with
    | none =>
      rw [htask] at hmem hids
      exact ih hmem hids
    | some first =>
      rw [htask] at hmem hids
      rw [List.map_cons, List.nodup_cons] at hids
      rcases List.mem_cons.mp hmem with rfl | hrest
      · refine (foreseeAll_shelves_of_not_mem hids.1).trans ?_
        rw [foresee_shelves, htask]
        exact if_pos rfl
      · exact ih hrest hids.2

variable {ε : Type} {index : ε → Index} {top : Place} {origin : ImageTask → Place}
  {future : List Record} {patches : List ImagePatch} {p : Pipeline (Recorded ε)}

namespace Foreseen

/-- Counting changes the counters that are foreseen. -/
theorem count (h : w.Foreseen index t top origin staged future f patches p) {u : JobUpdate}
    (hu : ∀ n, u ≠ .deferred n) {change : Job → Job}
    (hchange : (change p.writer.job).tally = Job.updateTally p.writer.job.tally u) :
    w.Foreseen index t top origin staged future (f.count u) patches (p.report change) := by
  refine ⟨h.thumbnails, h.rejected, h.ready, h.ids, h.named, ?_⟩
  rw [← h.prospect, Prospect.count, Pipeline.prospect, Pipeline.prospect]
  congr 1
  show Tally.ahead (change p.writer.job).tally _ _ _ = _
  rw [hchange]
  exact Tally.ahead_update _ _ _ _ hu

/-- A record that was handled needs nothing to be ready any more. -/
theorem pass (h : w.Foreseen index t top origin staged (r :: future) f patches p) :
    w.Foreseen index t top origin staged future f patches p := by
  refine ⟨h.thumbnails, h.rejected, h.ready.subset ?_, ?_, h.named, h.prospect⟩
  · exact (((List.sublist_cons_self r future).filterMap _).append_left _).subset
  · exact h.ids.sublist ((List.sublist_cons_self _ _).append_left _)

/-- The document of the next record is none of those that wait for their images. -/
theorem fresh (h : w.Foreseen index t top origin staged (r :: future) f patches p) :
    (w.documentOf r).id ∉ p.backlog.map (·.id) := by
  have hids := h.ids
  rw [List.map_cons, List.nodup_middle, List.nodup_cons] at hids
  exact fun hmem => hids.1 (List.mem_append_left _ hmem)

/-- Patches are for documents that wait for their images. -/
theorem patches_subset (p : Pipeline (Recorded ε)) :
    (p.patchesAhead staged).map (·.id) ⊆ p.backlog.map (·.id) := by
  intro id hid
  obtain ⟨patch, hpatch, rfl⟩ := List.mem_map.mp hid
  obtain ⟨task, htask, hgives⟩ := List.mem_filterMap.mp hpatch
  refine List.mem_map.mpr ⟨task, htask, ?_⟩
  unfold ImageTask.patch? at hgives
  split at hgives
  · cases hgives
    rfl
  · cases hgives

/-- A document that becomes pending will be shown and counted. -/
theorem hold (h : w.Foreseen index t top origin staged future f [] p) {d : Document}
    (hfresh : d.id ∉ p.backlog.map (·.id)) :
    w.Foreseen index t top origin staged future
      ((f.count (.indexed 1)).store ⟨d.id, some d, d.images⟩) []
      { p with writer := { p.writer with pending := p.writer.pending ++ [d] } } := by
  refine ⟨h.thumbnails, h.rejected, h.ready, h.ids, h.named, ?_⟩
  rw [← h.prospect, Prospect.store, Prospect.count, Pipeline.prospect, Pipeline.prospect]
  congr 1
  · funext id
    show (((index p.writer.engine.engine).addAll (p.writer.pending ++ [d])).updateAll
      ([] ++ p.patchesAhead staged)).shown id = _
    rw [Index.addAll_append, List.nil_append]
    exact Index.shown_add_updateAll (fun hmem => hfresh (patches_subset p hmem)) id
  · rw [Pipeline.tallyAhead, List.length_append]
    exact Tally.ahead_pending _ _ _ _ 1

/-- Adoption answers what was to be expected. -/
theorem settle_of_adopt (h : w.Foreseen index t top origin staged (r :: future) f patches p)
    {task : ImageTask} (htask : w.taskOf? r = some task) {disk : Disk}
    {result : Except AdoptError ImageMetadata}
    (hadopt : p.thumbnails.adopt p.disk task.staging task.id = (result, disk)) :
    (t.settle task.id (staged task)).1 = result := by
  obtain ⟨disk', hadopt', -⟩ := h.adopt_now htask
  rw [h.thumbnails, hadopt'] at hadopt
  exact (Prod.mk.inj hadopt).1

/-- Thumbnails that are taken up at once lead where the record does. -/
theorem adopt_inline (h : w.Foreseen index t top origin staged (r :: future) f patches p)
    {task : ImageTask} (htask : w.taskOf? r = some task) {disk : Disk}
    {result : Except AdoptError ImageMetadata}
    (hadopt : p.thumbnails.adopt p.disk task.staging task.id = (result, disk))
    (change : Job → Job)
    (hchange : (change p.writer.job).tally = Job.updateTally p.writer.job.tally
      (if (task.patch? t staged).isSome then .image else .imageFailure)) :
    w.Foreseen index t top origin staged future (foreseeTask t staged task f) patches
      ({ p with disk }.report change) := by
  obtain ⟨disk', hadopt', hready, hshelf⟩ := h.adopt_now htask
  rw [h.thumbnails, hadopt'] at hadopt
  obtain ⟨-, rfl⟩ := Prod.mk.inj hadopt
  refine ⟨h.thumbnails, h.rejected, hready, h.pass.ids, h.named, ?_⟩
  rw [← h.prospect, foreseeTask, Prospect.shelve, Prospect.count, Pipeline.prospect,
    Pipeline.prospect]
  congr 1
  · show Tally.ahead (change p.writer.job).tally _ _ _ = _
    rw [hchange]
    exact Tally.ahead_update _ _ _ _ (by split <;> simp)
  · funext id
    show (match p.backlog.find? (·.id == id) with
      | some task => some (p.thumbnails.settle task.id (staged task)).2
      | none => disk'.root.at? (Thumbnails.shelf top id)) = _
    rw [hshelf]
    by_cases hid : id = task.id
    · have hfresh : id ∉ p.backlog.map (·.id) := by
        rw [hid, w.id_of_taskOf? htask]
        exact h.fresh
      rw [ImageTask.find?_eq_none hfresh, if_pos hid, if_pos hid]
    · rw [if_neg hid, if_neg hid]
      rfl

section Postpone

variable {task : ImageTask} {q : Pipeline (Recorded ε)}

theorem patchesAhead_postponed (h : w.Foreseen index t top origin staged future f patches p)
    (hthumbnails : q.thumbnails = p.thumbnails) (hbacklog : q.backlog = p.backlog ++ [task]) :
    q.patchesAhead staged = p.patchesAhead staged ++ (task.patch? t staged).toList := by
  rw [Pipeline.patchesAhead, Pipeline.patchesAhead, hthumbnails, hbacklog,
    List.filterMap_append, h.thumbnails]
  cases hpatch : task.patch? t staged <;> simp [hpatch]

/-- A document that becomes pending while its thumbnails are left for later will be shown with
their images. -/
theorem shown_postponed (h : w.Foreseen index t top origin staged (r :: future) f [] p)
    (htask : w.taskOf? r = some task) (hthumbnails : q.thumbnails = p.thumbnails)
    (hbacklog : q.backlog = p.backlog ++ [task])
    (hengine : q.writer.engine = p.writer.engine)
    (hpending : q.writer.pending = p.writer.pending ++ [w.documentOf r]) (id : String) :
    (q.indexAhead index staged []).shown id =
      if id = (w.documentOf r).id then some (w.objectOf t staged r)
      else (p.indexAhead index staged []).shown id := by
  -- the patches of earlier tasks are for other documents, and that of this task comes last
  have hfresh : (w.documentOf r).id ∉ (p.patchesAhead staged).map (·.id) :=
    fun hmem => h.fresh (patches_subset p hmem)
  rw [Pipeline.indexAhead, Pipeline.indexAhead, hengine, hpending,
    h.patchesAhead_postponed hthumbnails hbacklog, Index.addAll_append, List.nil_append,
    List.nil_append, objectOf, imagesOf, htask, Option.bind_some]
  unfold ImageTask.patch?
  split
  · rename_i images hsettle
    rw [w.id_of_taskOf? htask]
    exact Index.shown_add_updateAll_concat hfresh images id
  · rw [Option.toList_none, List.append_nil]
    exact Index.shown_add_updateAll hfresh id

theorem tallyAhead_postponed (h : w.Foreseen index t top origin staged future f patches p)
    (hthumbnails : q.thumbnails = p.thumbnails) (hbacklog : q.backlog = p.backlog ++ [task])
    {d : Document} (hpending : q.writer.pending = p.writer.pending ++ [d]) {n : UInt64}
    (htally : q.writer.job.tally = Job.updateTally p.writer.job.tally (.deferred n)) :
    q.tallyAhead staged = Job.updateTally (Job.updateTally (p.tallyAhead staged)
      (if (task.patch? t staged).isSome then .image else .imageFailure)) (.indexed 1) := by
  rw [Pipeline.tallyAhead, Pipeline.tallyAhead, htally, Tally.ahead_deferred,
    h.patchesAhead_postponed hthumbnails hbacklog, hthumbnails, hbacklog, hpending,
    List.length_append, List.length_append, List.countP_append, h.thumbnails,
    show [d].length = 1 from rfl, Tally.ahead_pending]
  cases hpatch : task.patch? t staged with
  | some patch =>
    rw [show List.countP _ [task] = 0 by simp [hpatch], Nat.add_zero,
      show (some patch).toList.length = 1 from rfl, Tally.ahead_given]
    rfl
  | none =>
    rw [show List.countP _ [task] = 1 by simp [hpatch],
      show (none : Option ImagePatch).toList.length = 0 from rfl, Nat.add_zero, Tally.ahead_lost]
    rfl

theorem shelfAhead_postponed (hfresh : task.id ∉ p.backlog.map (·.id))
    (hthumbnails : q.thumbnails = p.thumbnails) (hbacklog : q.backlog = p.backlog ++ [task])
    (hdisk : q.disk = p.disk) (id : String) :
    q.shelfAhead top staged id =
      if id = task.id then some (p.thumbnails.settle task.id (staged task)).2
      else p.shelfAhead top staged id := by
  rw [Pipeline.shelfAhead, Pipeline.shelfAhead, hbacklog, hthumbnails, hdisk, List.find?_append]
  by_cases hid : id = task.id
  · subst hid
    rw [ImageTask.find?_eq_none hfresh, if_pos rfl]
    simp
  · rw [if_neg hid]
    have hlast : [task].find? (·.id == id) = none := by simpa using Ne.symm hid
    rw [hlast, Option.or_none]

/-- Thumbnails that are left for later lead where the record does. -/
theorem postpone (h : w.Foreseen index t top origin staged (r :: future) f [] p)
    (htask : w.taskOf? r = some task) (hthumbnails : q.thumbnails = p.thumbnails)
    (hrejected : q.writer.rejected = p.writer.rejected) (hdisk : q.disk = p.disk)
    (hbacklog : q.backlog = p.backlog ++ [task])
    (hengine : q.writer.engine = p.writer.engine)
    (hpending : q.writer.pending = p.writer.pending ++ [w.documentOf r]) {n : UInt64}
    (htally : q.writer.job.tally = Job.updateTally p.writer.job.tally (.deferred n)) :
    w.Foreseen index t top origin staged future
      (((foreseeTask t staged task f).count (.indexed 1)).store (w.objectOf t staged r)) [] q := by
  have hid := w.id_of_taskOf? htask
  refine ⟨hthumbnails.trans h.thumbnails, hrejected.trans h.rejected, ?_, ?_, ?_, ?_⟩
  · have hready := h.ready
    rw [tasksOf, List.filterMap_cons, htask] at hready
    rw [hdisk, hbacklog, List.append_assoc]
    exact hready
  · have hids := h.ids
    rw [List.map_cons, ← hid] at hids
    rw [hbacklog, List.map_append, List.append_assoc]
    exact hids
  · intro other hother
    rw [hbacklog] at hother
    rcases List.mem_append.mp hother with hmem | hmem
    · exact h.named other hmem
    · rw [List.mem_singleton.mp hmem, hid]
      exact w.named_documentOf r
  · rw [← h.prospect, Pipeline.prospect, Pipeline.prospect,
      tallyAhead_postponed h hthumbnails hbacklog hpending htally,
      funext (shown_postponed h htask hthumbnails hbacklog hengine hpending),
      funext (shelfAhead_postponed (hid ▸ h.fresh) hthumbnails hbacklog hdisk), h.thumbnails]
    rfl

end Postpone

/-- A record with enough text is held with its images, or with its task left for later. -/
theorem attach (h : w.Foreseen index t top origin staged (r :: future) f [] p)
    (hsubstantial : w.isSubstantial r = true) {d : Document} {q : Pipeline (Recorded ε)}
    (hattach : attachImages r (w.documentOf r) p = (d, q)) :
    w.Foreseen index t top origin staged future
      (((match w.taskOf? r with
        | some task => foreseeTask t staged task f
        | none => f).count (.indexed 1)).store (w.objectOf t staged r)) []
      { q with writer := { q.writer with pending := q.writer.pending ++ [d] } } := by
  -- without thumbnails, or with thumbnails left for later, adopted at once or lost at once
  rcases attachImages_cases r (w.documentOf r) p with
    ⟨hstaging, heq⟩ | ⟨staging, hstaging, ⟨-, heq⟩ | ⟨-, images, disk, hadopt, heq⟩ |
      ⟨-, fault, disk, hadopt, heq⟩⟩
  all_goals
    obtain ⟨rfl, rfl⟩ := Prod.mk.inj (hattach.symm.trans heq)
  · have htask : w.taskOf? r = none := by rw [taskOf?, if_pos hsubstantial, hstaging]; rfl
    rw [objectOf, imagesOf, htask]
    exact h.pass.hold h.fresh
  all_goals
    have htask : w.taskOf? r = some ⟨.ofText staging, (w.documentOf r).id⟩ := by
      rw [taskOf?, if_pos hsubstantial, hstaging]
      rfl
    rw [htask]
  · exact h.postpone htask rfl rfl rfl rfl rfl rfl rfl
  · have hpatch : ImageTask.patch? t staged ⟨.ofText staging, (w.documentOf r).id⟩ =
        some ⟨(w.documentOf r).id, images⟩ := by
      rw [ImageTask.patch?, h.settle_of_adopt htask hadopt]
    have hinline := h.adopt_inline htask hadopt (·.update .image)
      (by rw [hpatch]; rfl)
    rw [objectOf, imagesOf, htask, Option.bind_some, hpatch]
    exact hinline.hold h.fresh
  · have hpatch : ImageTask.patch? t staged ⟨.ofText staging, (w.documentOf r).id⟩ = none := by
      rw [ImageTask.patch?, h.settle_of_adopt htask hadopt]
    have hinline := h.adopt_inline htask hadopt
      (fun job => (job.update .imageFailure).logError
        ("Thumbnails for " ++ r.path ++ ": " ++ fault.message)) (by rw [hpatch]; rfl)
    rw [objectOf, imagesOf, htask, Option.bind_some, hpatch]
    exact hinline.hold h.fresh

end Foreseen

/-! ### Handling records -/

theorem handleRecord_eq [SearchEngine ε] (w : Worker) (r : Record) (p : Pipeline ε) :
    w.handleRecord r p =
      if w.isSubstantial r then
        write (attachImages r (w.documentOf r) (noteSkip r (p.watch p.monitor.check))).1
          (attachImages r (w.documentOf r) (noteSkip r (p.watch p.monitor.check))).2
      else refuse r (noteSkip r (p.watch p.monitor.check)) := rfl

/-- What is foreseen will be done, unless a call failed. -/
def Foresees {ε : Type} (w : Worker) (index : ε → Index) (t : Thumbnails) (top : Place)
    (origin : ImageTask → Place) (staged : ImageTask → List (Bytes × Node))
    (future : List Record) (f : Prospect) (p : Pipeline (Recorded ε)) : Prop :=
  p.writer.engine.Unfailing → w.Foreseen index t top origin staged future f [] p

namespace Foresees

variable [SearchEngine ε]

/-- Handing a document to the writer leads where holding it does. -/
theorem write {d : Document}
    (h : w.Foresees index t top origin staged future f
      { p with writer := { p.writer with pending := p.writer.pending ++ [d] } })
    (hserves : SearchEngine.Serves index) :
    w.Foresees index t top origin staged future f (write d p) := by
  rcases write_cases d p with ⟨-, heq⟩ | ⟨-, heq⟩
  · rw [heq]
    exact h
  · rw [heq]
    generalize hq : ({ p.writer with pending := p.writer.pending ++ [d] } : Writer _) = held at h ⊢
    have hdrains : w.Drains index t top origin staged future f []
        { p with writer := held.flush.2 } := by
      -- a flush that fails has made a call that fails, of which nothing is said
      intro hcalls
      obtain ⟨hbefore, -⟩ := Writer.flush_of_unfailing hserves hcalls
      exact ⟨held.flush_pending, (h hbefore).flush hserves hcalls⟩
    unfold catchUp
    split
    · exact fun hcalls => ((hdrains.drainChunk hserves) hcalls).2
    · exact fun hcalls => (hdrains hcalls).2

/-- **A record** leads to the same whatever the monitor says, and however full the batch is. -/
theorem handleRecord (h : w.Foresees index t top origin staged (r :: future) f p)
    (hserves : SearchEngine.Serves index) :
    w.Foresees index t top origin staged future (w.foresee t staged r f) (w.handleRecord r p) := by
  have hnoted : w.Foresees index t top origin staged (r :: future)
      (match r.imageSkip? with
        | some reason => f.count (.imageSkip reason)
        | none => f) (noteSkip r (p.watch p.monitor.check)) := by
    intro hcalls
    have hbefore : p.writer.engine.Unfailing := by
      obtain ⟨change, heq⟩ := noteSkip_eq r (p.watch p.monitor.check)
      rw [heq] at hcalls
      exact hcalls
    unfold noteSkip
    cases r.imageSkip? with
    | some reason => exact ((h hbefore).watch _).count (by simp) rfl
    | none => exact (h hbefore).watch _
  rw [handleRecord_eq, foresee]
  generalize noteSkip r (p.watch p.monitor.check) = noted at hnoted ⊢
  split
  · rename_i hsubstantial
    rcases hattach : attachImages r (w.documentOf r) noted with ⟨d, q⟩
    -- thumbnails ask nothing of the engine, so what failed had failed before them
    have hengine : q.writer.engine = noted.writer.engine := by
      have hframe := (attachImages_frame r (w.documentOf r) noted).1
      rw [hattach] at hframe
      exact hframe
    have hheld : w.Foresees index t top origin staged future _
        { q with writer := { q.writer with pending := q.writer.pending ++ [d] } } :=
      fun hcalls => (hnoted (hengine ▸ hcalls)).attach hsubstantial hattach
    exact hheld.write hserves
  · intro hcalls
    exact ((hnoted hcalls).count (by simp) rfl).pass

/-- Records lead to what they add to the prospect, one after the other. -/
theorem handleAll (hserves : SearchEngine.Serves index) (records : List Record) :
    ∀ f p, w.Foresees index t top origin staged records f p →
      w.Foresees index t top origin staged [] (w.foreseeAll t staged records f)
        ((Event.announced records).foldl w.handle p) := by
  induction records with
  | nil => exact fun _ _ h => h
  | cons r rest ih =>
    intro f p h
    have hannounced : w.Foresees index t top origin staged (r :: rest)
        (f.count (.discovered 1)) (p.report (·.discovered 1)) :=
      fun hcalls => (h hcalls).count (by simp) rfl
    exact ih _ _ (hannounced.handleRecord hserves)

/-- The end of a run that was not interrupted leaves no work, so what was foreseen is done. -/
theorem settle (h : w.Foresees index t top origin staged [] f p)
    (hserves : SearchEngine.Serves index)
    (hcalls : (Worker.settle false p).writer.engine.Unfailing) :
    let q := Worker.settle false p
    t.Rooted q.disk top [] ∧
      f = .seen index top q.writer.engine.engine q.writer.job.tally q.disk := by
  have hdrains : w.Drains index t top origin staged [] f []
      { p with writer := p.writer.flush.2 } := by
    intro hcalls
    obtain ⟨hbefore, -⟩ := Writer.flush_of_unfailing hserves hcalls
    exact ⟨p.writer.flush_pending, (h hbefore).flush hserves hcalls⟩
  obtain ⟨hdrained, hnone⟩ := hdrains.drainAll hserves
  obtain ⟨hpending, hforeseen⟩ := hdrained hcalls
  change (Worker.settle false p).backlog = [] at hnone
  change (Worker.settle false p).writer.pending = [] at hpending
  change w.Foreseen index t top origin staged [] f [] (Worker.settle false p) at hforeseen
  -- with no work at hand, the prospect is what there is to see
  generalize Worker.settle false p = q at *
  refine ⟨hforeseen.ready.rooted, ?_⟩
  rw [← hforeseen.prospect, Pipeline.prospect, Prospect.seen]
  congr 1
  · rw [Pipeline.indexAhead, Pipeline.patchesAhead, hnone, hpending]
    rfl
  · rw [Pipeline.tallyAhead, Pipeline.patchesAhead, hnone, hpending]
    simp [Tally.ahead]
  · funext id
    rw [Pipeline.shelfAhead, hnone]
    rfl

end Foresees

end Worker

end Corpus
