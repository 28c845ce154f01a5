/-
Corpus/Proofs/Settling.lean

Every image set is settled once.

An image set comes in with a record that has enough text and thumbnails.  It leaves by one of many
ways: adopted or failed right away, adopted or failed later by a chunk or by the last drain,
dropped with its rejected document, or dropped by an interruption.  Memory decides between now and
later for each record anew.  Whatever the way is, the law is the same for every function of a run:

    tasks settled by its entries ++ backlog after it  ~  backlog before it ++ tasks that came in

up to order (`Pipeline.Settles.tasks`).  It composes along a run, so each task that came in is in
one place: among those adopted, among those lost, or in the backlog, which is empty at the end.
It holds of one event from any state (`Worker.settles_handle`), whatever was on the disk before.

The entries do not only count.  An entry of an adoption stands for a call that moves thumbnails on
the disk, and nothing else of a run changes the disk (`Thumbnails.Plays`).
-/
import Corpus.Proofs.Chronicle
import Corpus.Proofs.Interruption

namespace Corpus

/-! ### What entries settle -/

namespace Entry

/-- The entry settles no image set. -/
def isPlain : Entry → Bool
  | .told _ _ => true
  | _ => false

/-- The tasks whose thumbnails are adopted. -/
def adoptions (entries : List Entry) : List ImageTask :=
  entries.filterMap fun
    | .adopted task => some task
    | _ => none

/-- The tasks whose thumbnails are lost. -/
def losses (entries : List Entry) : List ImageTask :=
  entries.filterMap fun
    | .failed task | .dropped task => some task
    | _ => none

theorem adoptions_append (first second : List Entry) :
    adoptions (first ++ second) = adoptions first ++ adoptions second :=
  List.filterMap_append

theorem losses_append (first second : List Entry) :
    losses (first ++ second) = losses first ++ losses second :=
  List.filterMap_append

theorem adoptions_dropped (tasks : List ImageTask) : adoptions (tasks.map .dropped) = [] := by
  induction tasks with
  | nil => rfl
  | cons task rest ih => exact ih

theorem losses_dropped (tasks : List ImageTask) : losses (tasks.map .dropped) = tasks := by
  induction tasks with
  | nil => rfl
  | cons task rest ih => exact congrArg (task :: ·) ih

end Entry

/-- A job counts the adoptions and the losses that it is told. -/
theorem Job.tally_told (entries : List Entry) :
    ∀ job : Job,
      (job.told entries).tally.images =
          job.tally.images + UInt64.ofNat (Entry.adoptions entries).length ∧
        (job.told entries).tally.imagesFailed =
          job.tally.imagesFailed + UInt64.ofNat (Entry.losses entries).length := by
  induction entries with
  | nil => exact fun job => ⟨(UInt64.add_zero _).symm, (UInt64.add_zero _).symm⟩
  | cons entry rest ih =>
    intro job
    have hone : ∀ (a : UInt64) (n : Nat), a + 1 + UInt64.ofNat n = a + UInt64.ofNat (n + 1) := by
      intro a n
      rw [Nat.add_comm, UInt64.ofNat_add, UInt64.add_assoc]
      rfl
    obtain ⟨himages, hlost⟩ := ih (job.update entry.update)
    rw [told_cons, himages, hlost]
    cases entry with
    | told u plain =>
      match u with
      | .discovered _ | .indexed _ | .failed _ | .skipped | .imageSkip .icon
      | .imageSkip .notFound | .deferred _ | .error _ => exact ⟨rfl, rfl⟩
    | adopted task => exact ⟨hone _ _, rfl⟩
    | failed task => exact ⟨rfl, hone _ _⟩
    | dropped task => exact ⟨rfl, hone _ _⟩

/-! ### What entries say of the disk -/

/-- The entries tell the adoptions by which a disk comes from another one, in their order and each
with its result. -/
inductive Thumbnails.Plays (t : Thumbnails) : Disk → List Entry → Disk → Prop where
  | nil (d : Disk) : t.Plays d [] d
  | told {d d' : Disk} {rest : List Entry} (u : JobUpdate) (plain : u.settlesImages = false) :
      t.Plays d rest d' → t.Plays d (.told u plain :: rest) d'
  | dropped {d d' : Disk} {rest : List Entry} (task : ImageTask) :
      t.Plays d rest d' → t.Plays d (.dropped task :: rest) d'
  | adopted {d d' d'' : Disk} {rest : List Entry} {task : ImageTask} {images : ImageMetadata} :
      t.adopt d task.staging task.id = (.ok images, d') → t.Plays d' rest d'' →
      t.Plays d (.adopted task :: rest) d''
  | failed {d d' d'' : Disk} {rest : List Entry} {task : ImageTask} {fault : AdoptError} :
      t.adopt d task.staging task.id = (.error fault, d') → t.Plays d' rest d'' →
      t.Plays d (.failed task :: rest) d''

namespace Thumbnails.Plays

variable {t : Thumbnails} {d d' d'' : Disk} {first second : List Entry}

theorem append (hfirst : t.Plays d first d') (hsecond : t.Plays d' second d'') :
    t.Plays d (first ++ second) d'' := by
  induction hfirst with
  | nil => exact hsecond
  | told u plain _ ih => exact .told u plain (ih hsecond)
  | dropped task _ ih => exact .dropped task (ih hsecond)
  | adopted hadopt _ ih => exact .adopted hadopt (ih hsecond)
  | failed hadopt _ ih => exact .failed hadopt (ih hsecond)

theorem of_plain (d : Disk) {entries : List Entry} (h : entries.all Entry.isPlain = true) :
    t.Plays d entries d := by
  induction entries with
  | nil => exact .nil d
  | cons entry rest ih =>
    obtain ⟨hentry, hrest⟩ := Bool.and_eq_true_iff.mp h
    cases entry with
    | told u plain => exact .told u plain (ih hrest)
    | adopted _ | failed _ | dropped _ => cases hentry

theorem of_dropped (d : Disk) (tasks : List ImageTask) : t.Plays d (tasks.map .dropped) d := by
  induction tasks with
  | nil => exact .nil d
  | cons task rest ih => exact .dropped task ih

end Thumbnails.Plays

/-! ### The law of image sets -/

variable {ε : Type}

/-- On its way from one state to another one, with some tasks coming in, a run makes the entries:
each task that was there or came in is adopted, lost or left in the backlog, and the job goes on
showing how many are left. -/
structure Pipeline.Settles (p : Pipeline ε) (entries : List Entry) (tasks : List ImageTask)
    (q : Pipeline ε) : Prop where
  thumbnails : q.thumbnails = p.thumbnails
  disk : p.thumbnails.Plays p.disk entries q.disk
  tasks : (Entry.adoptions entries ++ Entry.losses entries ++ q.backlog).Perm (p.backlog ++ tasks)
  waiting : p.writer.job.tally.deferred = UInt64.ofNat p.backlog.length →
    q.writer.job.tally.deferred = UInt64.ofNat q.backlog.length

namespace Pipeline.Settles

open Entry (adoptions losses adoptions_append losses_append)

variable {p q r : Pipeline ε} {first second : List Entry} {tasks more : List ImageTask}

/-- What settles nothing leaves everything where it is. -/
theorem of_plain (hplain : first.all Entry.isPlain = true)
    (hthumbnails : q.thumbnails = p.thumbnails) (hdisk : q.disk = p.disk)
    (hbacklog : q.backlog = p.backlog)
    (hdeferred : q.writer.job.tally.deferred = p.writer.job.tally.deferred) :
    p.Settles first [] q := by
  have hnone : adoptions first = [] ∧ losses first = [] := by
    constructor <;>
    · refine List.filterMap_eq_nil_iff.mpr fun entry hentry => ?_
      have hone := List.all_eq_true.mp hplain entry hentry
      cases entry with
      | told _ _ => rfl
      | adopted _ | failed _ | dropped _ => cases hone
  refine ⟨hthumbnails, by rw [hdisk]; exact .of_plain p.disk hplain, ?_, fun h => ?_⟩
  · rw [hnone.1, hnone.2, hbacklog]
    show p.backlog.Perm (p.backlog ++ [])
    rw [List.append_nil]
  · rw [hdeferred, hbacklog, h]

/-- The law composes. -/
theorem trans (hp : p.Settles first tasks q) (hq : q.Settles second more r) :
    p.Settles (first ++ second) (tasks ++ more) r := by
  refine ⟨hq.thumbnails.trans hp.thumbnails, hp.disk.append (hp.thumbnails ▸ hq.disk), ?_,
    fun h => hq.waiting (hp.waiting h)⟩
  have hfirst := hp.tasks
  have hsecond := hq.tasks
  -- a task occurs as often on both sides, since what the first part left the second one starts with
  rw [List.perm_iff_count] at hfirst hsecond ⊢
  intro task
  have hone := hfirst task
  have htwo := hsecond task
  simp only [adoptions_append, losses_append, List.count_append] at hone htwo ⊢
  omega

/-- One task leaves the backlog: adopted, failed or dropped. -/
theorem takeUp (p : Pipeline ε) {task : ImageTask} {rest : List ImageTask}
    (hb : p.backlog = task :: rest) (patches : List ImagePatch) (report : DrainReport) :
    p.Settles (p.takeUpEntries task rest) [] (p.takeUp task rest patches report).2.2 := by
  have hperm : ([task] ++ rest).Perm (p.backlog ++ []) := by
    rw [hb, List.append_nil]
    exact List.Perm.refl _
  rcases takeUp_cases p task rest patches report with
    ⟨hrejected, h⟩ | ⟨hrejected, images, disk, hadopt, h⟩ | ⟨hrejected, fault, disk, hadopt, h⟩
  · rw [h, takeUpEntries, if_pos hrejected]
    exact ⟨rfl, .told _ _ (.dropped _ (.told _ _ (.nil _))), hperm, fun _ => rfl⟩
  · rw [h, takeUpEntries, if_neg (by simp [hrejected]), adoptEntries, hadopt]
    exact ⟨rfl, .told _ _ (.adopted hadopt (.nil _)), hperm, fun _ => rfl⟩
  · rw [h, takeUpEntries, if_neg (by simp [hrejected]), adoptEntries, hadopt]
    exact ⟨rfl, .told _ _ (.failed hadopt (.told _ _ (.nil _))), hperm, fun _ => rfl⟩

/-- Giving up drops the whole backlog. -/
theorem abandon (p : Pipeline ε) (reason : String) :
    p.Settles (p.abandonEntries reason) [] (p.abandon reason).2 ∧
      (p.abandon reason).2.backlog = [] := by
  rw [abandonEntries, Pipeline.abandon]
  dsimp only
  by_cases hempty : p.backlog = []
  · rw [if_pos (by simp [hempty]), if_pos (by simp [hempty])]
    exact ⟨of_plain rfl rfl rfl rfl rfl, hempty⟩
  · rw [if_neg (by simpa using hempty), if_neg (by simpa using hempty)]
    refine ⟨⟨rfl, (Thumbnails.Plays.of_dropped _ _).append
      (.told _ _ (.told _ _ (.nil _))), ?_, fun _ => rfl⟩, rfl⟩
    rw [adoptions_append, losses_append, Entry.adoptions_dropped, Entry.losses_dropped]
    show (p.backlog ++ [] ++ []).Perm (p.backlog ++ [])
    rw [List.append_nil]

/-- Thumbnails of a record are adopted or fail now, or go to the backlog. -/
theorem attachImages (record : Record) (d : Document) (p : Pipeline ε) :
    p.Settles (Worker.attachEntries record d p)
      (record.staging?.map fun staging => ⟨.ofText staging, d.id⟩ : Option ImageTask).toList
      (Worker.attachImages record d p).2 := by
  rcases Worker.attachImages_cases record d p with
    ⟨hs, h⟩ | ⟨_, hs, ⟨hd, h⟩ | ⟨hd, _, _, hadopt, h⟩ | ⟨hd, _, _, hadopt, h⟩⟩
  · rw [h, Worker.attachEntries, hs]
    exact of_plain rfl rfl rfl rfl rfl
  · rw [h, Worker.attachEntries, hs]
    dsimp only
    rw [if_pos hd]
    exact ⟨rfl, .told _ _ (.nil _), List.Perm.refl _, fun _ => rfl⟩
  · rw [h, Worker.attachEntries, hs]
    dsimp only
    rw [if_neg (by simp [hd]), adoptEntries, hadopt]
    exact ⟨rfl, .adopted hadopt (.nil _), List.perm_append_comm, fun hwaiting => hwaiting⟩
  · rw [h, Worker.attachEntries, hs]
    dsimp only
    rw [if_neg (by simp [hd]), adoptEntries, hadopt]
    exact ⟨rfl, .failed hadopt (.told _ _ (.nil _)), List.perm_append_comm,
      fun hwaiting => hwaiting⟩

theorem noteSkip (record : Record) (p : Pipeline ε) :
    p.Settles (Worker.skipEntries record) [] (Worker.noteSkip record p) := by
  rw [Worker.skipEntries, Worker.noteSkip]
  cases record.imageSkip? with
  | none => exact of_plain rfl rfl rfl rfl rfl
  | some reason => cases reason <;> exact of_plain rfl rfl rfl rfl rfl

variable [SearchEngine ε]

theorem flush (p : Pipeline ε) :
    p.Settles p.writer.flushEntries [] { p with writer := p.writer.flush.2 } := by
  rcases p.writer.flush_cases with ⟨hp, h⟩ | ⟨hp, _, _, hc, h⟩ | ⟨hp, _, _, _, hc, h⟩
  · rw [h, Writer.flushEntries, hp]
    exact of_plain rfl rfl rfl rfl rfl
  · rw [h, Writer.flushEntries, if_neg (by simpa using hp), hc]
    exact of_plain rfl rfl rfl rfl rfl
  · rw [h, Writer.flushEntries, if_neg (by simpa using hp), hc]
    exact of_plain rfl rfl rfl rfl rfl

theorem send (p : Pipeline ε) (patches : List ImagePatch) (report : DrainReport) :
    p.Settles (p.sendEntries patches) [] (p.send patches report).2 := by
  rcases send_cases p patches report with ⟨hp, h⟩ | ⟨hp, _, _, hc, h⟩ | ⟨hp, _, _, hc, h⟩
  · rw [h, sendEntries, Writer.patch, if_pos (by simpa using hp)]
    exact of_plain rfl rfl rfl rfl rfl
  · rw [h, sendEntries, Writer.patch, if_neg (by simpa using hp), hc]
    exact of_plain rfl rfl rfl rfl rfl
  · rw [h, sendEntries, Writer.patch, if_neg (by simpa using hp), hc]
    exact of_plain rfl rfl rfl rfl rfl

/-- Every step settles what it takes up, and no task comes in with it. -/
theorem law : Law fun (p : Pipeline ε) entries q => p.Settles entries [] q where
  trans := trans
  quiet _ hjob hthumbnails hdisk hbacklog :=
    of_plain rfl hthumbnails hdisk hbacklog (by rw [hjob])
  takeUp := takeUp
  send := send
  flush := flush

end Pipeline.Settles

/-! ### Image sets of events -/

namespace Worker

open Pipeline (Settles)

variable (w : Worker)

/-- The task that comes in with an event. -/
def imageTask? : Event → Option ImageTask
  | .record r => w.taskOf? r
  | _ => none

/-- The event is a record that passes the check of its text and names a directory of
thumbnails. -/
def bringsImages : Event → Bool
  | .record r => w.isSubstantial r && !r.thumbDir.isEmpty
  | _ => false

theorem isSome_imageTask? (e : Event) : (w.imageTask? e).isSome = w.bringsImages e := by
  cases e with
  | discovered _ | skipped _ | failed _ _ | notice _ => rfl
  | record r =>
    rw [imageTask?, bringsImages, taskOf?, Record.staging?]
    cases w.isSubstantial r <;> cases r.thumbDir.isEmpty <;> rfl

/-- Each event that brings images brings one task. -/
theorem length_imageTasks (events : List Event) :
    (events.filterMap w.imageTask?).length = events.countP w.bringsImages := by
  rw [List.length_filterMap_eq_countP]
  exact congrArg (events.countP ·) (funext w.isSome_imageTask?)

variable [SearchEngine ε]

/-- **One event.**  The task that comes in with it is settled or left, and so are those that
waited. -/
theorem settles_handle (p : Pipeline ε) (e : Event) :
    p.Settles (w.eventEntries p e) (w.imageTask? e).toList (w.handle p e) := by
  cases e with
  | discovered _ | skipped _ | failed _ _ | notice _ => exact .of_plain rfl rfl rfl rfl rfl
  | record r =>
    -- neither the reading of the probe nor the note of a missing image moves a task
    have hwatched : p.Settles [] [] (p.watch p.monitor.check) := .of_plain rfl rfl rfl rfl rfl
    have hnoted := hwatched.trans (.noteSkip r _)
    rw [handle, handleRecord_eq, eventEntries, recordEntries, imageTask?, taskOf?]
    cases hsubstantial : w.isSubstantial r with
    | true =>
      rw [if_pos rfl, if_pos rfl, if_pos rfl]
      have hwritten := (Settles.attachImages r (w.documentOf r)
        (noteSkip r (p.watch p.monitor.check))).trans
          (Settles.law.write
            (attachImages r (w.documentOf r) (noteSkip r (p.watch p.monitor.check))).1 _)
      rw [List.append_nil] at hwritten
      exact hnoted.trans hwritten
    | false =>
      rw [if_neg Bool.false_ne_true, if_neg Bool.false_ne_true, if_neg Bool.false_ne_true]
      exact hnoted.trans (.of_plain rfl rfl rfl rfl rfl)

/-- Some events, one after the other. -/
theorem settles_events (events : List Event) :
    ∀ p : Pipeline ε, p.Settles (w.eventsEntries p events) (events.filterMap w.imageTask?)
      (events.foldl w.handle p) := by
  induction events with
  | nil => exact fun p => .of_plain rfl rfl rfl rfl rfl
  | cons e rest ih =>
    intro p
    have hrun := (w.settles_handle p e).trans (ih (w.handle p e))
    rw [List.filterMap_cons]
    cases htask : w.imageTask? e <;>
    · rw [htask] at hrun
      exact hrun

omit w in
/-- The end of a run leaves no task. -/
theorem settles_settle (interrupted : Bool) (p : Pipeline ε) :
    p.Settles (settleEntries interrupted p) [] (settle interrupted p) ∧
      (settle interrupted p).backlog = [] := by
  have hflushed := Settles.flush p
  cases interrupted with
  | true =>
    obtain ⟨hdropped, hnone⟩ :=
      Settles.abandon { p with writer := p.writer.flush.2 } interruption
    exact ⟨hflushed.trans hdropped, hnone⟩
  | false =>
    exact ⟨hflushed.trans (Settles.law.drainAll _), (Pipeline.drainAll_frame _).2⟩

omit w [SearchEngine ε] in
theorem settles_conclude (outcome : Outcome) (interrupted : Bool) (now : Instant)
    (p : Pipeline ε) :
    p.Settles (lastEntries outcome interrupted) [] (conclude outcome interrupted now p) ∧
      (conclude outcome interrupted now p).backlog = p.backlog := by
  obtain ⟨change, hconclude⟩ := conclude_eq outcome interrupted now p
  have htally := conclude_tally outcome interrupted now p
  have hplain : (lastEntries outcome interrupted).all Entry.isPlain = true := by
    rw [lastEntries]
    split <;> rfl
  refine ⟨.of_plain hplain ?_ ?_ ?_ (by rw [htally]), ?_⟩ <;> rw [hconclude] <;> rfl

/-- **A run.**  Each task that comes in with a handled event is adopted or lost. -/
theorem settles_run (interrupt : ε → Nat → Bool) (source : Source) (now : Instant)
    (p : Pipeline ε) :
    let handled := source.events.take (w.consume interrupt source.events p).handled
    p.Settles (w.entries interrupt source p) (handled.filterMap w.imageTask?)
        (w.run interrupt source now p) ∧
      (w.run interrupt source now p).backlog = [] := by
  intro handled
  obtain ⟨k, -, hhandled, hpipeline, -⟩ := w.consumeFrom_eq interrupt source.events 0 p
  have hk : (w.consume interrupt source.events p).handled = k := hhandled.trans (Nat.zero_add k)
  have hconsumed : (w.consume interrupt source.events p).pipeline = handled.foldl w.handle p := by
    rw [show handled = source.events.take k from congrArg (source.events.take ·) hk]
    exact hpipeline
  have hevents := w.settles_events handled p
  rw [← hconsumed] at hevents
  obtain ⟨hsettled, hnone⟩ := settles_settle (w.consume interrupt source.events p).interrupted
    (w.consume interrupt source.events p).pipeline
  obtain ⟨hconcluded, hkept⟩ := settles_conclude
    (source.finish (w.consume interrupt source.events p).handled)
    (w.consume interrupt source.events p).interrupted now
    (settle (w.consume interrupt source.events p).interrupted
      (w.consume interrupt source.events p).pipeline)
  have hrun := (hevents.trans hsettled).trans hconcluded
  rw [List.append_nil, List.append_nil] at hrun
  exact ⟨hrun, hkept.trans hnone⟩

end Worker

/-! ### The books of image sets -/

/-- What a job shows of image sets after some events.  All image sets that came in are adopted,
lost or waiting, each of them once, and the counters are the numbers of these; every adoption on
the way was one call that moved thumbnails on the disk. -/
structure Worker.ImagesSettled (w : Worker) (events : List Event) (entries : List Entry)
    (p q : Pipeline ε) : Prop where
  job : q.writer.job.tally = (p.writer.job.told entries).tally
  disk : p.thumbnails.Plays p.disk entries q.disk
  tasks : (Entry.adoptions entries ++ Entry.losses entries ++ q.backlog).Perm
    (events.filterMap w.imageTask?)
  images : q.writer.job.tally.images = UInt64.ofNat (Entry.adoptions entries).length
  imagesFailed : q.writer.job.tally.imagesFailed = UInt64.ofNat (Entry.losses entries).length
  deferred : q.writer.job.tally.deferred = UInt64.ofNat q.backlog.length
  total : q.writer.job.tally.images + q.writer.job.tally.imagesFailed +
    q.writer.job.tally.deferred = UInt64.ofNat (events.countP w.bringsImages)
  /-- The sum is one of numbers as long as no more image sets came in than can be counted. -/
  counted : events.countP w.bringsImages < UInt64.size →
    q.writer.job.tally.images.toNat + q.writer.job.tally.imagesFailed.toNat +
      q.writer.job.tally.deferred.toNat = events.countP w.bringsImages

/-- The law gives the books of a job that has just begun. -/
theorem Pipeline.Settles.imagesSettled {w : Worker} {events : List Event} {entries : List Entry}
    {p q : Pipeline ε} (h : p.Settles entries (events.filterMap w.imageTask?) q)
    (hbacklog : p.backlog = []) (htally : p.writer.job.tally = {})
    (hjob : q.writer.job.tally = (p.writer.job.told entries).tally) :
    w.ImagesSettled events entries p q := by
  obtain ⟨himages, hlost⟩ := Job.tally_told entries p.writer.job
  rw [← hjob, htally] at himages hlost
  have hadopted := himages.trans (UInt64.zero_add _)
  have hlosses := hlost.trans (UInt64.zero_add _)
  have hwaiting := h.waiting (by rw [htally, hbacklog]; rfl)
  have htasks := h.tasks
  rw [hbacklog, List.nil_append] at htasks
  have hlength := htasks.length_eq
  rw [w.length_imageTasks, List.length_append, List.length_append] at hlength
  refine ⟨hjob, h.disk, htasks, hadopted, hlosses, hwaiting, ?_, fun hfew => ?_⟩
  · rw [hadopted, hlosses, hwaiting, ← UInt64.ofNat_add, ← UInt64.ofNat_add, hlength]
  · rw [hadopted, hlosses, hwaiting, UInt64.toNat_ofNat_of_lt' (by omega),
      UInt64.toNat_ofNat_of_lt' (by omega), UInt64.toNat_ofNat_of_lt' (by omega), hlength]

variable [SearchEngine ε]

end Corpus
