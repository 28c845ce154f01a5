/-
Corpus/Proofs/Staffing.lean

The registry while any number of submissions and workers go on at once.

A worker ends its job first and lets go of the job's target later.  In between a new job may
take the target over, so several generations of workers can be about to let go of one target.
The invariant ties them together: a running job holds its target, whoever holds a target is
known and works on it, and every holder's worker is still there to let go.

A submission is one move.  It owns the holders from the look-up to the entry of the new job,
and what workers do to their own jobs meanwhile can as well be done after it
(`Registry.note_submit`).
-/
import Corpus.Disk.Absolute
import Corpus.Proofs.Places
import Corpus.Service.Registry
import Mathlib.Data.List.Nodup

namespace Corpus

/-! ### Jobs and holders of a registry -/

/-- The job runs and works on a target. -/
def Job.runsOn (job : Job) (target : Path) : Bool := job.isRunning && job.target == target

namespace Registry

variable {r : Registry}

theorem mem_of_get? {id : String} {job : Job} (h : r.get? id = some job) :
    job ∈ r.jobs ∧ job.id = id :=
  ⟨List.mem_of_find?_eq_some h, by simpa using List.find?_some h⟩

theorem get?_isSome_iff (id : String) : (r.get? id).isSome = true ↔ id ∈ r.jobs.map (·.id) := by
  simp [get?, List.find?_isSome]

/-- A job is found under its identifier if no other job has it. -/
theorem get?_of_mem (hids : (r.jobs.map (·.id)).Nodup) {job : Job} (h : job ∈ r.jobs) :
    r.get? job.id = some job := by
  obtain ⟨found, hfound⟩ := Option.isSome_iff_exists.mp
    ((get?_isSome_iff job.id).mpr (List.mem_map_of_mem h))
  obtain ⟨hmem, hid⟩ := mem_of_get? hfound
  rw [hfound, List.inj_on_of_nodup_map hids hmem h hid]

/-- A target's holder is the one that is listed if the target is listed once. -/
theorem holder?_eq_some_iff (htargets : (r.holders.map (·.1)).Nodup) (target : Path)
    (id : String) : r.holder? target = some id ↔ (target, id) ∈ r.holders := by
  unfold holder?
  generalize r.holders = holders at htargets
  induction holders with
  | nil => simp
  | cons entry rest ih =>
    obtain ⟨other, other_id⟩ := entry
    rw [List.map_cons, List.nodup_cons] at htargets
    rw [List.lookup_cons]
    by_cases heq : target = other
    · subst heq
      have habsent : (target, id) ∉ rest := fun hmem =>
        htargets.1 (List.mem_map_of_mem (f := (·.1)) hmem)
      simp [habsent, eq_comm]
    · have hne : (target == other) = false := by simpa using heq
      rw [hne, List.mem_cons, Prod.mk.injEq]
      simp [heq, ih htargets.2]

/-- A job that is noted keeps all identifiers. -/
theorem ids_note (job : Job) : (r.note job).jobs.map (·.id) = r.jobs.map (·.id) := by
  simp only [note, List.map_map]
  refine List.map_congr_left fun j _ => ?_
  by_cases h : j.id = job.id
  · simp [h]
  · simp [h]

/-- A job of the registry after a note is the one noted or was there before. -/
theorem mem_note {job j : Job} (h : j ∈ (r.note job).jobs) :
    j = job ∨ j ∈ r.jobs ∧ j.id ≠ job.id := by
  obtain ⟨old, hold, rfl⟩ := List.mem_map.mp h
  by_cases heq : old.id = job.id
  · exact .inl (if_pos (by simpa using heq))
  · have hkeep : (if (old.id == job.id) = true then job else old) = old :=
      if_neg (by simpa using heq)
    rw [hkeep]
    exact .inr ⟨hold, heq⟩

/-- A submission is refused for a running job that holds the target, or enters its job. -/
theorem submit_cases (r : Registry) (job : Job) :
    (∃ id running, r.holder? job.target = some id ∧ r.get? id = some running ∧
      running.isRunning = true ∧ r.submit job = (.alreadyRunning id, r)) ∨
    (r.runningOn? job.target = none ∧
      r.submit job = (.started job.id,
        { jobs := r.jobs ++ [job]
          holders := (job.target, job.id) :: r.holders.filter (·.1 != job.target) })) := by
  cases h : r.runningOn? job.target with
  | some id =>
    obtain ⟨hholder, hrunning⟩ := Option.filter_eq_some_iff.mp h
    obtain ⟨running, hget, hrun⟩ := (Option.any_eq_true _ _).mp hrunning
    exact .inl ⟨id, running, hholder, hget, hrun, by rw [submit, h]⟩
  | none => exact .inr ⟨rfl, by rw [submit, h]⟩

/-- What is noted of another job between the look-up and the entry of a new one is as good as
noted afterwards. -/
theorem note_submit {job other : Job} (hstart : r.runningOn? job.target = none)
    (hne : job.id ≠ other.id) :
    (r.submit job).2.note other =
      { jobs := (r.note other).jobs ++ [job]
        holders :=
          (job.target, job.id) :: (r.note other).holders.filter (·.1 != job.target) } := by
  rw [submit, hstart]
  simp [note, hne]

/-- Letting go of a target leaves whatever another job holds alone. -/
theorem holder?_release (r : Registry) (target : Path) (id : String) {other : Path}
    {newer : String} (hholder : r.holder? other = some newer) (hne : newer ≠ id) :
    (r.release target id).holder? other = some newer := by
  rw [release]
  split
  · rename_i hheld
    have hother : other ≠ target := by
      rintro rfl
      rw [hholder] at hheld
      exact hne (Option.some.inj hheld)
    -- taking one target off the list does not change who holds another
    exact ((lookup_without r.holders target other).trans (if_neg hother)).trans hholder
  · exact hholder

end Registry

/-! ### Submissions and workers -/

/-- A registry with the workers that have not yet let go of their job's target, and the answers
to all submissions. -/
structure Staffing where
  registry : Registry := {}
  workers : List (String × Path) := []
  answers : List Submission := []

namespace Staffing

/-- What happens next. -/
inductive Move where
  /-- A job is submitted under an identifier made for it. -/
  | submit (disk : Disk) (kind : JobKind) (target : Path) (capacity : Nat) (id : String)
    (now : Instant)
  /-- A worker reports progress. -/
  | progress (id : String) (u : JobUpdate)
  /-- A worker ends its job. -/
  | finish (id : String) (status : JobStatus) (fatal : Option String)
    (monitor : Option MonitorSummary) (now : Instant)
  /-- A worker whose job is over lets go of the job's target. -/
  | release (id : String) (target : Path)

/-- The submission of a new job, and its worker if it is started. -/
def submit (s : Staffing) (job : Job) : Staffing :=
  match s.registry.submit job with
  | (answer, registry) =>
    { registry
      workers :=
        match answer with
        | .started id => (id, job.target) :: s.workers
        | .alreadyRunning _ => s.workers
      answers := answer :: s.answers }

/-- The job with an identifier after a change of its worker, if it still runs. -/
def change? (s : Staffing) (id : String) (change : Job → Job) : Option Staffing :=
  match s.registry.get? id with
  | some job =>
    if job.isRunning then some { s with registry := s.registry.note (change job) } else none
  | none => none

/-- The staffing after a move, unless the move cannot be made.  Identifiers are made fresh. -/
def step? (s : Staffing) : Move → Option Staffing
  | .submit disk kind target capacity id now =>
    if (s.registry.get? id).isSome then none
    else some (s.submit (.start id kind (disk.normalize target) capacity now))
  | .progress id u => s.change? id (·.update u)
  | .finish id status fatal monitor now =>
    if status.isTerminal then s.change? id (·.finish status fatal monitor now) else none
  | .release id target =>
    if s.workers.contains (id, target) && !s.registry.isRunning id then
      some { s with
        registry := s.registry.release target id
        workers := s.workers.filter (· != (id, target)) }
    else none

/-- The staffing after some moves, if each of them can be made. -/
def run? (s : Staffing) (moves : List Move) : Option Staffing := moves.foldlM step? s

/-- What ties jobs, holders and workers together. -/
structure Sound (s : Staffing) : Prop where
  ids : (s.registry.jobs.map (·.id)).Nodup
  targets : (s.registry.holders.map (·.1)).Nodup
  /-- A running job holds its target. -/
  held : ∀ job ∈ s.registry.jobs, job.isRunning = true →
    (job.target, job.id) ∈ s.registry.holders
  /-- A holder is known and works on what it holds. -/
  owned : ∀ target id, (target, id) ∈ s.registry.holders →
    ∃ job ∈ s.registry.jobs, job.id = id ∧ job.target = target
  /-- The worker of a holder is still there. -/
  staffed : ∀ target id, (target, id) ∈ s.registry.holders → (id, target) ∈ s.workers
  /-- Every answer names a known job. -/
  known : ∀ answer ∈ s.answers, answer.id ∈ s.registry.jobs.map (·.id)

namespace Sound

variable {s : Staffing}

theorem empty : Sound {} := by
  refine ⟨List.nodup_nil, List.nodup_nil, ?_, ?_, ?_, ?_⟩ <;> simp

/-- The holder of a target that a running job works on is that job. -/
theorem holder?_eq (h : s.Sound) {job : Job} (hmem : job ∈ s.registry.jobs)
    (hrunning : job.isRunning = true) : s.registry.holder? job.target = some job.id :=
  (Registry.holder?_eq_some_iff h.targets _ _).mpr (h.held job hmem hrunning)

theorem isRunning_eq (h : s.Sound) {job : Job} (hmem : job ∈ s.registry.jobs) :
    s.registry.isRunning job.id = job.isRunning := by
  rw [Registry.isRunning, Registry.get?_of_mem h.ids hmem, Option.any_some]

/-- No job runs on a target that no running job holds. -/
theorem not_running (h : s.Sound) {target : Path} (hnone : s.registry.runningOn? target = none)
    {job : Job} (hmem : job ∈ s.registry.jobs) (hrunning : job.isRunning = true) :
    job.target ≠ target := by
  rintro rfl
  rw [Registry.runningOn?, h.holder?_eq hmem hrunning, Option.filter_some,
    if_pos ((h.isRunning_eq hmem).trans hrunning)] at hnone
  cases hnone

/-- A submission under a fresh identifier keeps the invariant. -/
theorem submit (h : s.Sound) {job : Job} (hfresh : job.id ∉ s.registry.jobs.map (·.id)) :
    (s.submit job).Sound := by
  rcases s.registry.submit_cases job with ⟨id, running, -, hget, -, heq⟩ | ⟨hnone, heq⟩
  · rw [Staffing.submit, heq]
    refine ⟨h.ids, h.targets, h.held, h.owned, h.staffed, fun answer hanswer => ?_⟩
    rcases List.mem_cons.mp hanswer with rfl | hanswer
    · exact (Registry.get?_isSome_iff id).mp (Option.isSome_of_eq_some hget)
    · exact h.known answer hanswer
  · rw [Staffing.submit, heq]
    have hfiltered : ∀ {target id},
        (target, id) ∈ s.registry.holders.filter (·.1 != job.target) →
          (target, id) ∈ s.registry.holders := fun hmem => (List.mem_filter.mp hmem).1
    refine ⟨?_, ?_, fun j hj hrunning => ?_, fun target id hmem => ?_, fun target id hmem => ?_,
      fun answer hanswer => ?_⟩
    · rw [List.map_append, List.nodup_append_comm]
      exact List.nodup_cons.mpr ⟨hfresh, h.ids⟩
    · refine List.nodup_cons.mpr ⟨?_, h.targets.sublist (List.filter_sublist.map _)⟩
      simp [List.mem_filter]
    · rcases List.mem_append.mp hj with hj | hj
      -- an earlier job that runs holds another target, since none runs on this one
      · refine List.mem_cons_of_mem _ (List.mem_filter.mpr ⟨h.held j hj hrunning, ?_⟩)
        simpa using h.not_running hnone hj hrunning
      · rw [List.mem_singleton.mp hj]
        exact List.mem_cons_self
    · rcases List.mem_cons.mp hmem with hnew | hold
      · cases hnew
        exact ⟨job, List.mem_append_right _ (List.mem_singleton.mpr rfl), rfl, rfl⟩
      · obtain ⟨j, hj, hid⟩ := h.owned target id (hfiltered hold)
        exact ⟨j, List.mem_append_left _ hj, hid⟩
    · rcases List.mem_cons.mp hmem with hnew | hold
      · cases hnew
        exact List.mem_cons_self
      · exact List.mem_cons_of_mem _ (h.staffed target id (hfiltered hold))
    · rw [List.map_append, List.mem_append]
      rcases List.mem_cons.mp hanswer with rfl | hanswer
      · exact .inr (List.mem_singleton.mpr rfl)
      · exact .inl (h.known answer hanswer)

/-- A change of a running job that keeps its identifier and target keeps the invariant. -/
theorem note (h : s.Sound) {id : String} {job job' : Job} (hget : s.registry.get? id = some job)
    (hrunning : job.isRunning = true) (hid : job'.id = job.id)
    (htarget : job'.target = job.target) :
    Sound { s with registry := s.registry.note job' } := by
  obtain ⟨hmem, -⟩ := Registry.mem_of_get? hget
  refine ⟨?_, h.targets, fun j hj hj_running => ?_, fun target i hholder => ?_, h.staffed, ?_⟩
  · rw [Registry.ids_note]; exact h.ids
  · rcases Registry.mem_note hj with rfl | ⟨hj, -⟩
    · rw [hid, htarget]; exact h.held job hmem hrunning
    · exact h.held j hj hj_running
  · obtain ⟨j, hj, hj_id, hj_target⟩ := h.owned target i hholder
    -- the holder is the job that changed, or is as it was
    by_cases heq : j.id = job'.id
    · have hsame : j = job := List.inj_on_of_nodup_map h.ids hj hmem (heq.trans hid)
      refine ⟨job', List.mem_map.mpr ⟨j, hj, if_pos (by simpa using heq)⟩, ?_, ?_⟩
      · rw [← heq, hj_id]
      · rw [htarget, ← hsame, hj_target]
    · exact ⟨j, List.mem_map.mpr ⟨j, hj, if_neg (by simpa using heq)⟩, hj_id, hj_target⟩
  · rw [Registry.ids_note]; exact h.known

theorem change (h : s.Sound) {id : String} {f : Job → Job} {s' : Staffing}
    (hstep : s.change? id f = some s') (hid : ∀ job, (f job).id = job.id)
    (htarget : ∀ job, (f job).target = job.target) : s'.Sound := by
  unfold change? at hstep
  split at hstep
  · rename_i job hget
    split at hstep
    · rename_i hrunning
      cases hstep
      exact h.note hget hrunning (hid job) (htarget job)
    · cases hstep
  · cases hstep

/-- A worker that lets go after its job is over keeps the invariant. -/
theorem release (h : s.Sound) {id : String} {target : Path}
    (hover : s.registry.isRunning id = false) :
    Sound { s with
      registry := s.registry.release target id
      workers := s.workers.filter (· != (id, target)) } := by
  -- either way the entry of this worker is not listed any more, and the others are
  obtain ⟨hjobs, hsub, hgone, hkept⟩ :
      (s.registry.release target id).jobs = s.registry.jobs ∧
      (s.registry.release target id).holders.Sublist s.registry.holders ∧
      (target, id) ∉ (s.registry.release target id).holders ∧
      ∀ t i, (t, i) ∈ s.registry.holders → i ≠ id →
        (t, i) ∈ (s.registry.release target id).holders := by
    rw [Registry.release]
    split
    · rename_i hheld
      refine ⟨rfl, List.filter_sublist, by simp [List.mem_filter], fun t i hmem hne => ?_⟩
      refine List.mem_filter.mpr ⟨hmem, ?_⟩
      have hother : t ≠ target := by
        rintro rfl
        rw [(Registry.holder?_eq_some_iff h.targets t i).mpr hmem] at hheld
        exact hne (Option.some.inj hheld)
      simpa using hother
    · rename_i hheld
      exact ⟨rfl, List.Sublist.refl _, fun hmem =>
        hheld ((Registry.holder?_eq_some_iff h.targets _ _).mpr hmem), fun _ _ hmem _ => hmem⟩
  refine ⟨?_, h.targets.sublist (hsub.map _), fun j hj hrunning => ?_, fun t i hmem => ?_,
    fun t i hmem => ?_, ?_⟩
  · show ((s.registry.release target id).jobs.map _).Nodup
    rw [hjobs]; exact h.ids
  · rw [hjobs] at hj
    refine hkept _ _ (h.held j hj hrunning) fun hid => ?_
    rw [← hid, h.isRunning_eq hj, hrunning] at hover
    cases hover
  · rw [hjobs]; exact h.owned t i (hsub.mem hmem)
  · refine List.mem_filter.mpr ⟨h.staffed t i (hsub.mem hmem), ?_⟩
    have hne : (i, t) ≠ (id, target) := fun heq => by
      cases heq
      exact hgone hmem
    simpa using hne
  · show ∀ answer ∈ s.answers, answer.id ∈ (s.registry.release target id).jobs.map _
    rw [hjobs]; exact h.known

/-- **One move.** -/
theorem step (h : s.Sound) {m : Move} {s' : Staffing} (hstep : s.step? m = some s') :
    s'.Sound := by
  cases m with
  | submit disk kind target capacity id now =>
    rw [step?] at hstep
    split at hstep
    · cases hstep
    · rename_i hfresh
      cases hstep
      exact h.submit fun hmem => hfresh ((Registry.get?_isSome_iff id).mpr hmem)
  | progress id u => exact h.change hstep (fun _ => rfl) fun _ => rfl
  | finish id status fatal monitor now =>
    rw [step?] at hstep
    split at hstep
    · exact h.change hstep (fun _ => rfl) fun _ => rfl
    · cases hstep
  | release id target =>
    rw [step?] at hstep
    split at hstep
    · rename_i hgo
      cases hstep
      exact h.release (by simpa using (Bool.and_eq_true_iff.mp hgo).2)
    · cases hstep

/-- **Any number of moves.** -/
theorem run (moves : List Move) :
    ∀ {s s' : Staffing}, s.Sound → s.run? moves = some s' → s'.Sound := by
  induction moves with
  | nil => intro s s' h hrun; cases hrun; exact h
  | cons m rest ih =>
    intro s s' h hrun
    obtain ⟨next, hstep, hrest⟩ := Option.bind_eq_some_iff.mp hrun
    exact ih (h.step hstep) hrest

/-- Two running jobs never work on one target. -/
theorem count_running (h : s.Sound) (target : Path) :
    s.registry.jobs.countP (·.runsOn target) ≤ 1 := by
  rw [List.countP_eq_length_filter]
  have hids := h.ids.sublist
    ((List.filter_sublist (p := (Job.runsOn · target))).map (·.id))
  -- each of them is the holder of the target, of which there is one
  have hholder : ∀ job ∈ s.registry.jobs.filter (·.runsOn target),
      s.registry.holder? target = some job.id := by
    intro job hjob
    obtain ⟨hmem, hon⟩ := List.mem_filter.mp hjob
    obtain ⟨hrunning, htarget⟩ := Bool.and_eq_true_iff.mp hon
    rw [← eq_of_beq htarget]
    exact h.holder?_eq hmem hrunning
  generalize s.registry.jobs.filter _ = onTarget at hids hholder
  match onTarget with
  | [] | [_] => simp
  | a :: b :: rest =>
    have ha := hholder a List.mem_cons_self
    have hb := hholder b (List.mem_cons_of_mem _ List.mem_cons_self)
    rw [ha] at hb
    rw [List.map_cons, List.map_cons, Option.some.inj hb] at hids
    exact absurd List.mem_cons_self (List.nodup_cons.mp hids).1

/-- Once all workers have let go nothing is held. -/
theorem holders_eq_nil (h : s.Sound) (hgone : s.workers = []) : s.registry.holders = [] := by
  refine List.eq_nil_iff_forall_not_mem.mpr fun entry hmem => ?_
  have hworker := h.staffed entry.1 entry.2 hmem
  rw [hgone] at hworker
  cases hworker

/-- A submission is refused only for a job that runs on the target, and otherwise starts its
own job there. -/
theorem answer (h : s.Sound) {job : Job} (hfresh : s.registry.get? job.id = none) :
    (∃ earlier ∈ s.registry.jobs, earlier.isRunning = true ∧ earlier.target = job.target ∧
      s.registry.get? earlier.id = some earlier ∧
      s.registry.submit job = (.alreadyRunning earlier.id, s.registry)) ∨
    ((∀ earlier ∈ s.registry.jobs, earlier.isRunning = true → earlier.target ≠ job.target) ∧
      ∃ registry, s.registry.submit job = (.started job.id, registry) ∧
        registry.get? job.id = some job ∧ registry.holder? job.target = some job.id) := by
  rcases s.registry.submit_cases job with ⟨id, earlier, hholder, hget, hrunning, heq⟩ | ⟨hnone, heq⟩
  · obtain ⟨hmem, rfl⟩ := Registry.mem_of_get? hget
    obtain ⟨owner, howner, hid, htarget⟩ := h.owned _ _
      ((Registry.holder?_eq_some_iff h.targets _ _).mp hholder)
    have hsame : owner = earlier := List.inj_on_of_nodup_map h.ids howner hmem hid
    exact .inl ⟨earlier, hmem, hrunning, by rw [← hsame, htarget], hget, heq⟩
  · refine .inr ⟨fun earlier hmem hrunning => h.not_running hnone hmem hrunning, _, heq, ?_, ?_⟩
    · rw [Registry.get?, List.find?_append, ← Registry.get?, hfresh]
      simp
    · simp [Registry.holder?]

end Sound

/-- **Interleavings.**  After any moves from an empty registry, with identifiers made fresh: at
most one job runs on a target, and it is the one that holds it; a submission is answered with a
running job of its target, or starts the new one; every job that was ever named to a submitter
is known; letting go on behalf of one job takes nothing from another; and once all workers have
let go nothing is held. -/
theorem run_sound {moves : List Move} {s : Staffing} (hrun : run? {} moves = some s) :
    (∀ target, s.registry.jobs.countP (·.runsOn target) ≤ 1) ∧
    (∀ job ∈ s.registry.jobs, job.isRunning = true →
      s.registry.holder? job.target = some job.id) ∧
    (∀ (disk : Disk) kind target capacity id now, s.registry.get? id = none →
      let job := Job.start id kind (disk.normalize target) capacity now
      (∃ earlier ∈ s.registry.jobs, earlier.isRunning = true ∧ earlier.target = job.target ∧
        s.registry.get? earlier.id = some earlier ∧
        s.registry.submit job = (.alreadyRunning earlier.id, s.registry)) ∨
      ((∀ earlier ∈ s.registry.jobs, earlier.isRunning = true → earlier.target ≠ job.target) ∧
        ∃ registry, s.registry.submit job = (.started id, registry) ∧
          registry.get? id = some job ∧ registry.holder? job.target = some id)) ∧
    (∀ answer ∈ s.answers, ∃ job, s.registry.get? answer.id = some job) ∧
    (∀ id target other newer, s.registry.holder? other = some newer → newer ≠ id →
      (s.registry.release target id).holder? other = some newer) ∧
    (s.workers = [] → s.registry.holders = []) := by
  have h : s.Sound := Sound.run moves Sound.empty hrun
  refine ⟨h.count_running, fun job => h.holder?_eq, fun _ _ _ _ _ _ hfresh => h.answer hfresh,
    fun answer hanswer => ?_, fun id target _ _ => s.registry.holder?_release target id,
    h.holders_eq_nil⟩
  exact Option.isSome_iff_exists.mp ((Registry.get?_isSome_iff _).mpr (h.known answer hanswer))

/-- Two generations of one target: the first worker lets go after the second job has begun, and
a third submission meanwhile is refused. -/
theorem run_sound_two_generations :
    let disk : Disk := ⟨.dir [], [], []⟩
    let root : Path := ⟨[Path.separator]⟩
    let moves : List Move :=
      [.submit disk .folderSync root 50 "first" default,
        .finish "first" .completed none none default,
        .submit disk .folderSync root 50 "second" default,
        .release "first" root,
        .submit disk .folderSync root 50 "third" default]
    ∃ s, run? {} moves = some s ∧
      s.answers = [.alreadyRunning "second", .started "second", .started "first"] ∧
      s.registry.holder? root = some "second" ∧
      s.registry.jobs.countP (·.runsOn root) ≤ 1 := by
  intro disk root moves
  have hnormal : disk.normalize root = root := by
    have hwalk : Disk.walk disk.root true Disk.maxLinks true [] [] = .ok (.node [] disk.root) := by
      rw [Disk.walk]; rfl
    have hresolve : disk.resolve true root = .ok (.node [] disk.root) := hwalk
    rw [Disk.normalize, Disk.realPath, Disk.find, hresolve]
    rfl
  obtain ⟨s, hrun, hanswers, hholder⟩ : ∃ s, run? {} moves = some s ∧
      s.answers = [.alreadyRunning "second", .started "second", .started "first"] ∧
      s.registry.holder? root = some "second" := by
    simp only [moves, run?, List.foldlM, step?, hnormal]
    exact ⟨_, rfl, rfl, rfl⟩
  exact ⟨s, hrun, hanswers, hholder, (run_sound hrun).1 root⟩

end Staffing

end Corpus
