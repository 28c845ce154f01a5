/-
Corpus/Proofs/Draining.lean

The drain of a backlog at the end of a run.

The tasks leave the backlog in their order, each of them once.  What becomes of a task depends on
the disk and on the rejected documents alone, so it is a function of these (`Thumbnails.takeUpAll`):
neither memory nor the engine has a say in it.  Tasks that fail give no patch, and therefore the
updates do not begin at fixed places of the backlog.  The law that the loop keeps is about patches
only,

    patches of the updates made ++ patches collected  =  patches of the tasks taken up

(`Pipeline.drainTasks_drains`), where each update made holds exactly as many patches as an update
may hold, and fewer are collected.  The rest is sent behind the loop.  An update that fails is one
call like any other: it changes the report and nothing else.
-/
import Corpus.Proofs.Batching
import Corpus.Proofs.Reporting

namespace Corpus

open EngineCall (added added_append BeginsWork patchings patchings_append updates)

/-! ### What becomes of tasks -/

/-- What becomes of a task that is taken up. -/
inductive TaskEnd where
  | adopted (images : ImageMetadata)
  | failed (fault : AdoptError)
  /-- The document of the task was in a failed batch. -/
  | rejected
  deriving DecidableEq, Repr

/-- A task that was taken up, and what became of it. -/
structure TakenTask where
  task : ImageTask
  result : TaskEnd
  deriving DecidableEq, Repr

namespace TakenTask

/-- The patch that the task gives. -/
def patch? (x : TakenTask) : Option ImagePatch :=
  match x.result with
  | .adopted images => some ⟨x.task.id, images⟩
  | .failed _ | .rejected => none

/-- The patches of some tasks, in their order. -/
def patches (taken : List TakenTask) : List ImagePatch := taken.filterMap patch?

theorem patches_cons (x : TakenTask) (rest : List TakenTask) :
    patches (x :: rest) = x.patch?.toList ++ patches rest := by
  rw [patches, List.filterMap_cons]
  cases x.patch? <;> rfl

end TakenTask

namespace Thumbnails

/-- What becomes of a task on a disk, where some documents are rejected. -/
def takeUp (t : Thumbnails) (rejected : List String) (d : Disk) (task : ImageTask) :
    TaskEnd × Disk :=
  if rejected.contains task.id then (.rejected, d)
  else
    match t.adopt d task.staging task.id with
    | (.ok images, d) => (.adopted images, d)
    | (.error fault, d) => (.failed fault, d)

/-- What becomes of tasks, one after the other. -/
def takeUpAll (t : Thumbnails) (rejected : List String) :
    Disk → List ImageTask → List TakenTask × Disk
  | d, [] => ([], d)
  | d, task :: rest =>
    let (result, d) := t.takeUp rejected d task
    let (taken, d) := takeUpAll t rejected d rest
    (⟨task, result⟩ :: taken, d)

theorem takeUpAll_cons (t : Thumbnails) (rejected : List String) (d : Disk) (task : ImageTask)
    (rest : List ImageTask) :
    t.takeUpAll rejected d (task :: rest) =
      (⟨task, (t.takeUp rejected d task).1⟩ ::
          (t.takeUpAll rejected (t.takeUp rejected d task).2 rest).1,
        (t.takeUpAll rejected (t.takeUp rejected d task).2 rest).2) := rfl

/-- No task is left out, taken twice or taken before an older one. -/
theorem takeUpAll_tasks (t : Thumbnails) (rejected : List String) (tasks : List ImageTask) :
    ∀ d : Disk, (t.takeUpAll rejected d tasks).1.map (·.task) = tasks := by
  induction tasks with
  | nil => exact fun _ => rfl
  | cons task rest ih =>
    intro d
    rw [takeUpAll_cons, List.map_cons, ih]

end Thumbnails

/-! ### Updates among the calls of an engine -/

namespace EngineCall

theorem BeginsWork.append {first second : List EngineCall} (hfirst : BeginsWork first)
    (hsecond : BeginsWork second) : BeginsWork (first ++ second) := by
  cases first with
  | nil => exact hsecond
  | cons call rest =>
    intro task limit answer tail heq
    obtain ⟨hcall, -⟩ := List.cons.inj heq
    exact hfirst task limit answer rest (by rw [hcall])

/-- Every update was carried out or failed. -/
theorem patchings_map_fst (calls : List EngineCall) :
    (patchings calls).map (·.1) = updates calls := by
  fun_induction patchings calls with
  | case1 => rfl
  | case2 patches task _ _ _ rest ih => exact congrArg (patches :: ·) ih
  | case3 patches answer rest hrest ih => exact congrArg (patches :: ·) ih
  | case4 call rest h₁ h₂ ih =>
    rw [ih]
    cases call with
    | update patches answer => exact absurd rfl (h₂ patches answer)
    | add _ _ | await _ _ _ => rfl

/-- The patches of the updates that failed. -/
def failedPatches (calls : List EngineCall) : List ImagePatch :=
  ((patchings calls).filter (!·.2)).flatMap (·.1)

end EngineCall

open EngineCall (failedPatches patchings_map_fst)

/-- An update is carried out or fails as its commit does, and adds no document. -/
theorem Recorded.patchings_commit_update {ε : Type} [SearchEngine ε] (e : Recorded ε)
    (limit : Span) (patches : List ImagePatch) :
    let c := SearchEngine.commit limit (SearchEngine.update e patches)
    ∃ made, c.2.calls = e.calls ++ made ∧ BeginsWork made ∧ added made = [] ∧
      patchings made = [(patches, c.1.isOk)] := by
  intro c
  rcases e.commit_update_cases limit patches with ⟨fault, hresult, hcalls⟩ | ⟨task, hcalls⟩
  · exact ⟨_, hcalls, by simp [BeginsWork], rfl, by rw [hresult]; rfl⟩
  · refine ⟨_, hcalls, by simp [BeginsWork], rfl, ?_⟩
    cases (SearchEngine.commit limit (SearchEngine.update e patches)).1 <;> rfl

/-! ### The law of a drain -/

variable {ε : Type}

namespace Pipeline

/-- How many patches one update of the last drain may hold: as many as the settings say, where
none counts as one. -/
def updateSize (p : Pipeline ε) : Nat := max p.deferred.patchBatch.toNat 1

theorem updateSize_pos (p : Pipeline ε) : 0 < p.updateSize := Nat.le_max_right _ _

/-- On its way from one state to another one, with the reports before and after it, a drain makes
some calls: updates only, and the report tells which of them failed. -/
structure Updates (p : Pipeline (Recorded ε)) (r : DrainReport) (made : List EngineCall)
    (q : Pipeline (Recorded ε)) (r' : DrainReport) : Prop where
  calls : q.calls = p.calls ++ made
  begins : BeginsWork made
  added : added made = []
  sent : r'.patchesSent + (failedPatches made).length =
    r.patchesSent + (updates made).flatten.length
  failures : r'.patchFailures = r.patchFailures + (patchings made).countP (!·.2)

namespace Updates

variable {p q s : Pipeline (Recorded ε)} {r r' r'' : DrainReport} {first second : List EngineCall}

/-- Without a call the report of updates stays as it is. -/
theorem of_quiet (hcalls : q.calls = p.calls) (hsent : r'.patchesSent = r.patchesSent)
    (hfailures : r'.patchFailures = r.patchFailures) : p.Updates r [] q r' :=
  ⟨by rw [hcalls, List.append_nil], by simp [BeginsWork], rfl, hsent, hfailures⟩

/-- The law composes. -/
theorem trans (hp : p.Updates r first q r') (hq : q.Updates r' second s r'') :
    p.Updates r (first ++ second) s r'' := by
  have hpatchings : patchings (first ++ second) = patchings first ++ patchings second :=
    patchings_append hq.begins
  refine ⟨?_, hp.begins.append hq.begins, ?_, ?_, ?_⟩
  · rw [hq.calls, hp.calls, List.append_assoc]
  · rw [added_append, hp.added, hq.added, List.append_nil]
  · have hone := hp.sent
    have htwo := hq.sent
    rw [failedPatches, hpatchings, List.filter_append, List.flatMap_append, List.length_append,
      EngineCall.updates_append, List.flatten_append, List.length_append]
    rw [failedPatches] at hone htwo
    omega
  · rw [hq.failures, hp.failures, hpatchings, List.countP_append, Nat.add_assoc]

end Updates

variable [SearchEngine ε]

/-- Patches are sent as one update, whether it is carried out or fails.  No patches are not sent. -/
theorem send_updates (p : Pipeline (Recorded ε)) (patches : List ImagePatch) (r : DrainReport) :
    ∃ made, p.Updates r made (p.send patches r).2 (p.send patches r).1 ∧
      updates made = (if patches = [] then [] else [patches]) ∧
      (p.send patches r).1.processed = r.processed ∧
      (p.send patches r).1.adopted = r.adopted := by
  obtain ⟨made, hcalls, hbegins, hadded, hpatchings⟩ :=
    p.writer.engine.patchings_commit_update p.writer.maintenanceTimeout patches
  have hupdates : updates made = [patches] := by
    rw [← patchings_map_fst, hpatchings]
    rfl
  rcases send_cases p patches r with ⟨hnone, h⟩ | ⟨hsome, _, _, hc, h⟩ | ⟨hsome, _, _, hc, h⟩
  · rw [h, if_pos hnone]
    exact ⟨[], .of_quiet rfl rfl rfl, rfl, rfl, rfl⟩
  · rw [hc] at hcalls hpatchings
    rw [h, if_neg hsome]
    refine ⟨made, ⟨hcalls, hbegins, hadded, ?_, by rw [hpatchings]; rfl⟩, hupdates, rfl, rfl⟩
    rw [failedPatches, hpatchings, hupdates]
    simp [Except.isOk, Except.toBool]
  · rw [hc] at hcalls hpatchings
    rw [h, if_neg hsome]
    refine ⟨made, ⟨hcalls, hbegins, hadded, ?_, by rw [hpatchings]; rfl⟩, hupdates, rfl, rfl⟩
    rw [failedPatches, hpatchings, hupdates]
    simp [Except.isOk, Except.toBool]

omit [SearchEngine ε] in
/-- What taking a task up does: its patch is collected if it has one, and the report counts
it. -/
theorem takeUp_taken (p : Pipeline ε) (task : ImageTask) (rest : List ImageTask)
    (patches : List ImagePatch) (r : DrainReport) :
    let settled := p.thumbnails.takeUp p.writer.rejected p.disk task
    let patch := (TakenTask.patch? ⟨task, settled.1⟩).toList
    let taken := p.takeUp task rest patches r
    taken.1 = patches ++ patch ∧ taken.2.2.disk = settled.2 ∧
      taken.2.1.adopted = r.adopted + patch.length ∧
      taken.2.1.failed + patch.length = r.failed + 1 ∧
      taken.2.1.patchesSent = r.patchesSent ∧ taken.2.1.patchFailures = r.patchFailures := by
  intro settled patch taken
  rcases takeUp_cases p task rest patches r with
    ⟨hrejected, h⟩ | ⟨hrejected, images, disk, hadopt, h⟩ | ⟨hrejected, fault, disk, hadopt, h⟩
  · have hsettled : settled = (.rejected, p.disk) := if_pos hrejected
    have hpatch : patch = [] := by
      simp only [patch, hsettled]
      rfl
    rw [show taken = _ from h, hpatch, hsettled]
    exact ⟨(List.append_nil _).symm, rfl, rfl, rfl, rfl, rfl⟩
  · have hsettled : settled = (.adopted images, disk) := by
      apply (if_neg (by simpa [Writer.isRejected] using hrejected)).trans
      rw [hadopt]
    have hpatch : patch = [⟨task.id, images⟩] := by
      simp only [patch, hsettled]
      rfl
    rw [show taken = _ from h, hpatch, hsettled]
    exact ⟨rfl, rfl, rfl, rfl, rfl, rfl⟩
  · have hsettled : settled = (.failed fault, disk) := by
      apply (if_neg (by simpa [Writer.isRejected] using hrejected)).trans
      rw [hadopt]
    have hpatch : patch = [] := by
      simp only [patch, hsettled]
      rfl
    rw [show taken = _ from h, hpatch, hsettled]
    exact ⟨(List.append_nil _).symm, rfl, rfl, rfl, rfl, rfl⟩

/-- What a drain of some tasks has come to: the calls it made, and the patches it has collected
without sending them. -/
structure Drains (p : Pipeline (Recorded ε)) (tasks : List ImageTask)
    (patches : List ImagePatch) (r : DrainReport) (made : List EngineCall)
    (q : Pipeline (Recorded ε)) (left : List ImagePatch) (r' : DrainReport) : Prop where
  updates : p.Updates r made q r'
  /-- The updates made are full, and the patches collected do not fill one more. -/
  full : ∀ call ∈ EngineCall.updates made, call.length = p.updateSize
  few : left.length < p.updateSize
  patches : (EngineCall.updates made).flatten ++ left =
    patches ++
      TakenTask.patches (p.thumbnails.takeUpAll p.writer.rejected p.disk tasks).1
  disk : q.disk = (p.thumbnails.takeUpAll p.writer.rejected p.disk tasks).2
  emptied : q.backlog = []
  adopted : r'.adopted = r.adopted +
    (TakenTask.patches (p.thumbnails.takeUpAll p.writer.rejected p.disk tasks).1).length
  processed : r'.processed = r.processed + tasks.length

omit [SearchEngine ε] in
/-- One task is taken up, an update may be made, and the drain goes on with the rest. -/
theorem Drains.cons {p s q : Pipeline (Recorded ε)} {task : ImageTask} {rest : List ImageTask}
    {patches collected left : List ImagePatch} {r r' r'' : DrainReport}
    {first second : List EngineCall}
    (hone : p.Updates r first s r')
    (hfull : ∀ call ∈ EngineCall.updates first, call.length = p.updateSize)
    (hsize : s.updateSize = p.updateSize)
    (hsame : s.thumbnails.takeUpAll s.writer.rejected s.disk rest =
      p.thumbnails.takeUpAll p.writer.rejected
        (p.thumbnails.takeUp p.writer.rejected p.disk task).2 rest)
    {patch : List ImagePatch}
    (hpatch : patch = (TakenTask.patch?
      ⟨task, (p.thumbnails.takeUp p.writer.rejected p.disk task).1⟩).toList)
    (hpatches : (EngineCall.updates first).flatten ++ collected = patches ++ patch)
    (hadopted : r'.adopted = r.adopted + patch.length)
    (hprocessed : r'.processed = r.processed + 1)
    (h : s.Drains rest collected r' second q left r'') :
    p.Drains (task :: rest) patches r (first ++ second) q left r'' := by
  have hall : TakenTask.patches
      (p.thumbnails.takeUpAll p.writer.rejected p.disk (task :: rest)).1 =
        patch ++ TakenTask.patches (s.thumbnails.takeUpAll s.writer.rejected s.disk rest).1 := by
    rw [Thumbnails.takeUpAll_cons, TakenTask.patches_cons, ← hpatch, hsame]
  refine ⟨hone.trans h.updates, ?_, hsize ▸ h.few, ?_, ?_, h.emptied, ?_, ?_⟩
  · intro call hcall
    rw [EngineCall.updates_append, List.mem_append] at hcall
    exact hcall.elim (hfull call) fun hlater => (h.full call hlater).trans hsize
  · -- what was collected is sent with what the rest gives
    rw [EngineCall.updates_append, List.flatten_append, List.append_assoc, h.patches, hall,
      ← List.append_assoc, hpatches, List.append_assoc]
  · rw [h.disk, hsame, Thumbnails.takeUpAll_cons]
  · rw [h.adopted, hadopted, hall, List.length_append, Nat.add_assoc]
  · rw [h.processed, hprocessed, List.length_cons]
    omega

/-- **The loop.**  Whatever the loop has collected before it takes some tasks up, it sends in full
updates as soon as it can. -/
theorem drainTasks_drains (tasks : List ImageTask) :
    ∀ (p : Pipeline (Recorded ε)) (patches : List ImagePatch) (r : DrainReport),
      p.backlog = tasks → patches.length < p.updateSize →
      let drained := drainTasks tasks p patches r
      ∃ made, p.Drains tasks patches r made drained.2.2 drained.1 drained.2.1 := by
  induction tasks with
  | nil =>
    intro p patches r hb hfew
    exact ⟨[], .of_quiet rfl rfl rfl, nofun, hfew, (List.append_nil _).symm, rfl, hb, rfl, rfl⟩
  | cons task rest ih =>
    intro p patches r hb hfew
    obtain ⟨hpatches, hdisk, hadopted, hfailed, hsent, hfailures⟩ :=
      p.takeUp_taken task rest patches r
    obtain ⟨hengine, -, hrejected, hrest, -, hthumbnails, hdeferred⟩ :=
      p.takeUp_frame task rest patches r
    rw [drainTasks]
    generalize p.takeUp task rest patches r = taken at *
    obtain ⟨patches', r', q⟩ := taken
    dsimp only at *
    have hsize : q.updateSize = p.updateSize := by rw [updateSize, updateSize, hdeferred]
    have hquiet : p.Updates r [] q r' :=
      .of_quiet (congrArg Recorded.calls hengine) hsent hfailures
    have hprocessed : r'.processed = r.processed + 1 := by
      rw [DrainReport.processed, DrainReport.processed]
      omega
    -- the tasks that are still to come see the disk as this one leaves it
    have hsame : q.thumbnails.takeUpAll q.writer.rejected q.disk rest =
        p.thumbnails.takeUpAll p.writer.rejected
          (p.thumbnails.takeUp p.writer.rejected p.disk task).2 rest := by
      rw [hthumbnails, hrejected, hdisk]
    split
    · -- a task adds one patch at most, so the patches that are sent fill one update exactly
      rename_i hmany
      have hexact : patches'.length = p.updateSize := by
        have hone := Option.length_toList_le (o := TakenTask.patch?
          ⟨task, (p.thumbnails.takeUp p.writer.rejected p.disk task).1⟩)
        have hlength := congrArg List.length hpatches
        rw [List.length_append] at hlength
        rw [← hsize]
        rw [← hsize] at hfew
        exact le_antisymm (by omega) hmany
      have hne : patches' ≠ [] := by
        rintro rfl
        exact absurd hexact.symm (Nat.ne_of_gt p.updateSize_pos)
      obtain ⟨first, hupdate, honce, hkept, hkept'⟩ := q.send_updates patches' r'
      rw [if_neg hne] at honce
      obtain ⟨-, hrejected', hbacklog, -, hdisk', hthumbnails', hdeferred'⟩ :=
        q.send_frame patches' r'
      generalize q.send patches' r' = sent at *
      obtain ⟨r'', s⟩ := sent
      dsimp only at *
      obtain ⟨monitor, hsettled⟩ := settle_eq s
      rw [hsettled]
      have hwatched : s.Updates r'' [] (s.watch monitor) r'' := .of_quiet rfl rfl rfl
      have hmade : p.Updates r first (s.watch monitor) r'' := by
        have hall := (hquiet.trans hupdate).trans hwatched
        rwa [List.nil_append, List.append_nil] at hall
      have hsize' : (s.watch monitor).updateSize = p.updateSize := by
        rw [updateSize, updateSize, watch_deferred, hdeferred', hdeferred]
      obtain ⟨second, hrun⟩ := ih (s.watch monitor) [] r'' (hbacklog.trans hrest)
        (by rw [hsize']; exact p.updateSize_pos)
      refine ⟨_, hrun.cons hmade ?_ hsize' ?_ rfl ?_ ?_ ?_⟩
      · rw [honce]
        exact List.forall_mem_singleton.mpr hexact
      · rw [watch_thumbnails, watch_disk, watch_writer, hthumbnails', hdisk', hrejected', hsame]
      · rw [honce, List.append_nil, List.flatten_singleton, hpatches]
      · rw [hkept', hadopted]
      · rw [hkept, hprocessed]
    · rename_i hroom
      obtain ⟨made, hrun⟩ := ih q patches' r' hrest (Nat.lt_of_not_le hroom)
      exact ⟨_, hrun.cons hquiet nofun hsize hsame rfl hpatches hadopted hprocessed⟩

/-- What a drain of the whole backlog has done: the tasks that it took up with what became of them,
and the calls that it made. -/
structure Drained (p : Pipeline (Recorded ε)) (taken : List TakenTask) (made : List EngineCall)
    (q : Pipeline (Recorded ε)) (r : DrainReport) : Prop where
  /-- Each task is taken up once, in the order of the backlog. -/
  order : taken.map (·.task) = p.backlog
  emptied : q.backlog = []
  /-- Each finds the disk as the tasks before it left it. -/
  disk : p.thumbnails.takeUpAll p.writer.rejected p.disk p.backlog = (taken, q.disk)
  calls : q.calls = p.calls ++ made
  added : added made = []
  /-- The patches sent are those of the adopted tasks, each once and in the order of the tasks,
  whichever updates fail. -/
  patches : (EngineCall.updates made).flatten = TakenTask.patches taken
  full : ∀ call ∈ (EngineCall.updates made).dropLast, call.length = p.updateSize
  last : ∀ call ∈ (EngineCall.updates made).getLast?,
    1 ≤ call.length ∧ call.length ≤ p.updateSize
  adopted : r.adopted = (TakenTask.patches taken).length
  processed : r.adopted + r.failed = p.backlog.length
  sent : r.patchesSent + (failedPatches made).length = r.adopted
  failures : r.patchFailures = (patchings made).countP (!·.2)

end Pipeline

/-- Parts that are full, with what is left behind them unless that is nothing: only the last of them
need not be full. -/
theorem full_but_last {α : Type} {size : Nat} (hsize : 0 < size) {full : List (List α)}
    {left : List α} (hfull : ∀ part ∈ full, part.length = size) (hleft : left.length < size) :
    let parts := full ++ if left = [] then [] else [left]
    parts.flatten = full.flatten ++ left ∧ (∀ part ∈ parts.dropLast, part.length = size) ∧
      ∀ part ∈ parts.getLast?, 1 ≤ part.length ∧ part.length ≤ size := by
  intro parts
  by_cases hnone : left = []
  · have hparts : parts = full := (congrArg (full ++ ·) (if_pos hnone)).trans (List.append_nil full)
    rw [hparts, hnone, List.append_nil]
    refine ⟨rfl, fun part hpart => hfull part (List.mem_of_mem_dropLast hpart), ?_⟩
    intro part hpart
    rw [hfull part (List.mem_of_getLast? hpart)]
    exact ⟨hsize, Nat.le_refl size⟩
  · have hparts : parts = full ++ [left] := congrArg (full ++ ·) (if_neg hnone)
    rw [hparts, List.flatten_append, List.flatten_singleton, List.dropLast_concat,
      List.getLast?_concat]
    refine ⟨rfl, hfull, ?_⟩
    rintro part ⟨⟩
    exact ⟨List.length_pos_iff.mpr hnone, hleft.le⟩

end Corpus
