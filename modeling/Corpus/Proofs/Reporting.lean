/-
Corpus/Proofs/Reporting.lean

What goes wrong in a run is said in the error log of its job.

The log keeps the latest messages and counts the ones that it dropped, so whatever its capacity is

    messages kept + messages dropped  =  messages that the job was told

(`Job.errors_told`).  The messages are then traced back to what happened: to the answers of the
engine, which are read off its calls, to the image sets that were lost, and to the events.  The
law for each function of a run is

    failed calls before + messages told + losses in silence
      =  failed calls after + image sets lost + messages of its own

(`Pipeline.Voices`), where the only losses in silence are those of an abandoned backlog, which one
message stands for.  It composes along a run and gives the number of messages at its end
(`errors_account`).

One thing goes unsaid: what a source finds wrong, when the run is interrupted and the source does
not fail for it (`anomaly_unsaid`).
-/
import Corpus.Proofs.Judging
import Corpus.Proofs.Settling

namespace Corpus

/-! ### The log -/

/-- How many messages a log was told, up to the size of its counter. -/
def ErrorLog.told (log : ErrorLog) : UInt64 := UInt64.ofNat log.size + log.dropped

/-- A message is kept in addition or makes the log drop one. -/
theorem ErrorLog.push_cases (log : ErrorLog) (message : String) :
    ((log.push message).size = log.size + 1 ∧ (log.push message).dropped = log.dropped) ∨
    ((log.push message).size = log.size ∧ (log.push message).dropped = log.dropped + 1) := by
  rw [push]
  split
  · exact .inr ⟨rfl, rfl⟩
  · split
    · refine .inr ⟨?_, rfl⟩
      show (log.entries.drop 1 ++ [message]).length = log.entries.length
      rw [List.length_append, List.length_drop, List.length_singleton]
      omega
    · refine .inl ⟨?_, rfl⟩
      show (log.entries ++ [message]).length = log.entries.length + 1
      rw [List.length_append, List.length_singleton]

/-- A log accounts for every message, as a number as long as its counter does not run over. -/
theorem ErrorLog.told_push_all (messages : List String) :
    ∀ log : ErrorLog,
      (messages.foldl push log).told = log.told + UInt64.ofNat messages.length ∧
      (log.size + log.dropped.toNat + messages.length < UInt64.size →
        (messages.foldl push log).size + (messages.foldl push log).dropped.toNat =
          log.size + log.dropped.toNat + messages.length) := by
  induction messages with
  | nil => exact fun log => ⟨(UInt64.add_zero _).symm, fun _ => rfl⟩
  | cons message rest ih =>
    intro log
    obtain ⟨hall, hcounted⟩ := ih (log.push message)
    rw [List.foldl_cons, hall, List.length_cons]
    -- the message is kept besides the others, or one is dropped for it: the sum grows by one
    have hone : (log.push message).told = log.told + 1 := by
      rw [told, told]
      rcases log.push_cases message with ⟨hsize, hdropped⟩ | ⟨hsize, hdropped⟩
      · rw [hsize, hdropped, UInt64.ofNat_add, UInt64.add_assoc, UInt64.add_assoc,
          UInt64.add_comm log.dropped]
        rfl
      · rw [hsize, hdropped, UInt64.add_assoc]
    refine ⟨?_, fun hfits => ?_⟩
    · rw [hone, Nat.add_comm, UInt64.ofNat_add, ← UInt64.add_assoc]
      rfl
    · have hstep : (log.push message).size + (log.push message).dropped.toNat =
          log.size + log.dropped.toNat + 1 := by
        rcases log.push_cases message with ⟨hsize, hdropped⟩ | ⟨hsize, hdropped⟩
        · rw [hsize, hdropped]
          omega
        · rw [hsize, hdropped, UInt64.toNat_add, Nat.mod_eq_of_lt]
          · rfl
          · show log.dropped.toNat + 1 < UInt64.size
            omega
      rw [hcounted (by omega), hstep]
      omega

/-- The messages among some entries. -/
def Entry.messages (entries : List Entry) : List String :=
  entries.filterMap fun entry =>
    match entry.update with
    | .error message => some message
    | _ => none

theorem Entry.messages_append (first second : List Entry) :
    messages (first ++ second) = messages first ++ messages second :=
  List.filterMap_append

theorem Entry.messages_dropped (tasks : List ImageTask) : messages (tasks.map .dropped) = [] := by
  induction tasks with
  | nil => rfl
  | cons task rest ih => exact ih

/-- The log of a job takes the messages that the job is told, in their order. -/
theorem Job.errors_told (entries : List Entry) :
    ∀ job : Job,
      (job.told entries).errors = (Entry.messages entries).foldl ErrorLog.push job.errors := by
  induction entries with
  | nil => exact fun _ => rfl
  | cons entry rest ih =>
    intro job
    rw [told_cons, ih]
    cases entry with
    | told u plain => cases u <;> rfl
    | adopted _ | failed _ | dropped _ => rfl

/-! ### Failed calls -/

namespace EngineCall

/-- The updates, each with whether it was carried out: whether it was accepted and the wait for
its task, the very next call, ended well. -/
def patchings : List EngineCall → List (List ImagePatch × Bool)
  | [] => []
  | .update patches (.ok _) :: .await _ _ (.ok _) :: rest => (patches, true) :: patchings rest
  | .update patches _ :: rest => (patches, false) :: patchings rest
  | _ :: rest => patchings rest

/-- How many batches and updates have failed. -/
def failures (calls : List EngineCall) : Nat :=
  (batches calls).countP (!·.2) + (patchings calls).countP (!·.2)

theorem patchings_append {first second : List EngineCall} (h : BeginsWork second) :
    patchings (first ++ second) = patchings first ++ patchings second := by
  fun_induction patchings first with
  | case1 => rfl
  | case2 patches task _ _ _ rest ih => simpa [patchings] using ih
  | case3 patches answer rest hrest ih =>
    -- the first call of `second` must not complete the last one of `first`
    rw [List.cons_append, patchings, ih, List.cons_append]
    intro number task limit result tail htail hanswer
    cases rest with
    | nil => exact h task limit (.ok result) tail htail
    | cons c rest =>
      obtain ⟨rfl, -⟩ := List.cons.inj htail
      exact hrest number task limit result rest rfl hanswer
  | case4 c rest h₁ h₂ ih =>
    cases c with
    | update patches answer => exact absurd rfl (h₂ patches answer)
    | add batch answer => simpa [patchings] using ih
    | await task limit answer => simpa [patchings] using ih

theorem failures_append {first second : List EngineCall} (h : BeginsWork second) :
    failures (first ++ second) = failures first + failures second := by
  rw [failures, failures, failures, batches_append h, patchings_append h, List.countP_append,
    List.countP_append]
  omega

end EngineCall

open EngineCall (batches patchings failures failures_append BeginsWork)

namespace Recorded

variable {ε : Type} [SearchEngine ε]

/-- A batch is one more failed call if its commit fails. -/
theorem failures_commit_add (e : Recorded ε) (limit : Span) (batch : List Document) :
    let c := SearchEngine.commit limit (SearchEngine.add e batch)
    failures c.2.calls = failures e.calls + (!c.1.isOk).toNat := by
  intro c
  rcases e.commit_add_cases limit batch with ⟨fault, hresult, hcalls⟩ | ⟨task, hcalls⟩
  · rw [hcalls, hresult, failures_append (by simp [BeginsWork])]
    rfl
  · rw [hcalls, failures_append (by simp [BeginsWork])]
    cases (SearchEngine.commit limit (SearchEngine.add e batch)).1 <;> rfl

/-- An update is one more failed call if it is not carried out. -/
theorem failures_commit_update (e : Recorded ε) (limit : Span) (patches : List ImagePatch) :
    let c := SearchEngine.commit limit (SearchEngine.update e patches)
    failures c.2.calls = failures e.calls + (!c.1.isOk).toNat := by
  intro c
  rcases e.commit_update_cases limit patches with ⟨fault, hresult, hcalls⟩ | ⟨task, hcalls⟩
  · rw [hcalls, hresult, failures_append (by simp [BeginsWork])]
    rfl
  · rw [hcalls, failures_append (by simp [BeginsWork])]
    cases (SearchEngine.commit limit (SearchEngine.update e patches)).1 <;> rfl

end Recorded

/-! ### The law of messages -/

variable {ε : Type}

/-- A backlog that is given up is lost. -/
theorem Pipeline.losses_abandonEntries (p : Pipeline ε) (reason : String) :
    Entry.losses (p.abandonEntries reason) = p.backlog := by
  rw [abandonEntries]
  by_cases hempty : p.backlog = []
  · rw [hempty]
    rfl
  · rw [if_neg (by simpa using hempty), Entry.losses_append, Entry.losses_dropped]
    exact List.append_nil _

/-- On its way from one state to another one a run tells the entries.  Each failed call and each
lost image set has one message among them, up to some silent losses, and there are some messages
of their own besides. -/
def Pipeline.Voices (p : Pipeline (Recorded ε)) (entries : List Entry) (own silent : Nat)
    (q : Pipeline (Recorded ε)) : Prop :=
  failures p.calls + (Entry.messages entries).length + silent =
    failures q.calls + (Entry.losses entries).length + own

namespace Pipeline.Voices

open Entry (messages losses messages_append losses_append)

variable {p q r : Pipeline (Recorded ε)} {first second : List Entry} {own silent more quiet : Nat}

/-- The law composes. -/
theorem trans (hp : p.Voices first own silent q) (hq : q.Voices second more quiet r) :
    p.Voices (first ++ second) (own + more) (silent + quiet) r := by
  rw [Voices] at hp hq ⊢
  rw [messages_append, losses_append, List.length_append, List.length_append]
  omega

/-- Where no call is made, the entries have a message for each loss and some of their own. -/
theorem of_calls (hcalls : q.calls = p.calls)
    (h : (messages first).length = (losses first).length + own) : p.Voices first own 0 q := by
  rw [Voices, hcalls, h]
  omega

/-- A task that is taken up is adopted or has its message. -/
theorem takeUp (p : Pipeline (Recorded ε)) (task : ImageTask) (rest : List ImageTask)
    (patches : List ImagePatch) (report : DrainReport) :
    p.Voices (p.takeUpEntries task rest) 0 0 (p.takeUp task rest patches report).2.2 := by
  have hcalls : (p.takeUp task rest patches report).2.2.calls = p.calls :=
    congrArg Recorded.calls (takeUp_frame p task rest patches report).1
  refine of_calls hcalls ?_
  rw [takeUpEntries, adoptEntries]
  split
  · rfl
  · split <;> rfl

/-- Giving up says once for all tasks of the backlog that they are lost. -/
theorem abandon (p : Pipeline (Recorded ε)) (reason : String) :
    p.Voices (p.abandonEntries reason) (if p.backlog.length = 0 then 0 else 1) p.backlog.length
      (p.abandon reason).2 := by
  have hcalls : (p.abandon reason).2.calls = p.calls := by
    rw [Pipeline.abandon]
    dsimp only
    split <;> rfl
  have hone : (messages (p.abandonEntries reason)).length =
      if p.backlog.length = 0 then 0 else 1 := by
    rw [abandonEntries]
    by_cases hempty : p.backlog = []
    · rw [hempty]
      rfl
    · rw [if_neg (by simpa using hempty), if_neg (by simpa using hempty), messages_append,
        Entry.messages_dropped]
      rfl
  rw [Voices, hcalls, hone, losses_abandonEntries]
  omega

/-- Thumbnails of a record are adopted, put off, or lost with a message. -/
theorem attachImages (record : Record) (d : Document) (p : Pipeline (Recorded ε)) :
    p.Voices (Worker.attachEntries record d p) 0 0 (Worker.attachImages record d p).2 := by
  have hcalls : (Worker.attachImages record d p).2.calls = p.calls :=
    congrArg Recorded.calls (Worker.attachImages_frame record d p).1
  refine of_calls hcalls ?_
  rw [Worker.attachEntries]
  split
  · rfl
  · split
    · rfl
    · rw [adoptEntries]
      split <;> rfl

theorem noteSkip (record : Record) (p : Pipeline (Recorded ε)) :
    p.Voices (Worker.skipEntries record) 0 0 (Worker.noteSkip record p) := by
  rw [Worker.skipEntries, Worker.noteSkip]
  cases record.imageSkip? <;> exact of_calls rfl rfl

variable [SearchEngine ε]

/-- A batch that fails has its message. -/
theorem flush (p : Pipeline (Recorded ε)) :
    p.Voices p.writer.flushEntries 0 0 { p with writer := p.writer.flush.2 } := by
  have hfailures := p.writer.engine.failures_commit_add p.writer.commitTimeout p.writer.pending
  rw [Voices, Writer.flushEntries]
  rcases p.writer.flush_cases with ⟨hp, h⟩ | ⟨hp, _, _, hc, h⟩ | ⟨hp, _, _, _, hc, h⟩
  · rw [h, hp]
    rfl
  · rw [hc] at hfailures
    rw [h, if_neg (by simpa using hp), hc]
    exact hfailures.symm
  · rw [hc] at hfailures
    rw [h, if_neg (by simpa using hp), hc]
    exact hfailures.symm

/-- An update that fails has its message. -/
theorem send (p : Pipeline (Recorded ε)) (patches : List ImagePatch) (report : DrainReport) :
    p.Voices (p.sendEntries patches) 0 0 (p.send patches report).2 := by
  have hfailures :=
    p.writer.engine.failures_commit_update p.writer.maintenanceTimeout patches
  rw [Voices, sendEntries, Writer.patch]
  rcases send_cases p patches report with ⟨hp, h⟩ | ⟨hp, _, _, hc, h⟩ | ⟨hp, _, _, hc, h⟩
  · rw [h, if_pos (by simpa using hp)]
    rfl
  · rw [hc] at hfailures
    rw [h, if_neg (by simpa using hp), hc]
    exact hfailures.symm
  · rw [hc] at hfailures
    rw [h, if_neg (by simpa using hp), hc]
    exact hfailures.symm

/-- Every step has a message for what fails in it, and none of its own. -/
theorem law : Law fun (p : Pipeline (Recorded ε)) entries q => p.Voices entries 0 0 q where
  trans := trans
  quiet hengine _ _ _ _ := of_calls (congrArg Recorded.calls hengine) rfl
  takeUp p task rest _ patches report := takeUp p task rest patches report
  send := send
  flush := flush

end Pipeline.Voices

/-! ### Messages of events -/

/-- An announced record could not be made. -/
def Event.isFailed : Event → Bool
  | .failed _ _ => true
  | _ => false

/-- The event tells of a problem. -/
def Event.isNotice : Event → Bool
  | .notice _ => true
  | _ => false

namespace Worker

open Pipeline (Voices)

variable (w : Worker)

/-- The event is a record with too little text. -/
def refuses : Event → Bool
  | .record r => !w.isSubstantial r
  | _ => false

/-- How many of some events have a message of their own. -/
def objections (events : List Event) : Nat :=
  events.countP Event.isFailed + events.countP w.refuses + events.countP Event.isNotice

theorem objections_cons (e : Event) (rest : List Event) :
    w.objections (e :: rest) = w.objections [e] + w.objections rest := by
  simp only [objections, List.countP_cons, List.countP_nil]
  omega

/-- What the end of a run may be told about. -/
def verdict? (outcome : Outcome) (interrupted : Bool) : Option String :=
  if interrupted then outcome.fatal
  else if outcome.fatal.isSome then none else outcome.anomaly

theorem messages_lastEntries (outcome : Outcome) (interrupted : Bool) :
    Entry.messages (lastEntries outcome interrupted) = (verdict? outcome interrupted).toList ∧
      Entry.losses (lastEntries outcome interrupted) = [] := by
  rw [lastEntries, ← verdict?]
  cases verdict? outcome interrupted <;> exact ⟨rfl, rfl⟩

variable [SearchEngine ε]

/-- **One event.**  It has a message if it could not be made, has too little text, or is one. -/
theorem voices_handle (p : Pipeline (Recorded ε)) (e : Event) :
    p.Voices (w.eventEntries p e) (w.objections [e]) 0 (w.handle p e) := by
  cases e with
  | discovered _ | skipped _ | failed _ _ | notice _ => exact .of_calls rfl rfl
  | record r =>
    have hwatched : p.Voices [] 0 0 (p.watch p.monitor.check) := .of_calls rfl rfl
    have hnoted := hwatched.trans (.noteSkip r _)
    rw [handle, handleRecord_eq, eventEntries, recordEntries]
    cases hsubstantial : w.isSubstantial r with
    | true =>
      have hnone : w.objections [.record r] = 0 := by
        simp [objections, refuses, Event.isFailed, Event.isNotice, hsubstantial]
      rw [if_pos rfl, if_pos rfl, hnone]
      have hwritten := (Voices.attachImages r (w.documentOf r)
        (noteSkip r (p.watch p.monitor.check))).trans
          (Voices.law.write
            (attachImages r (w.documentOf r) (noteSkip r (p.watch p.monitor.check))).1 _)
      exact hnoted.trans hwritten
    | false =>
      have hone : w.objections [.record r] = 1 := by
        simp [objections, refuses, Event.isFailed, Event.isNotice, hsubstantial]
      have hrefused (message : String) : Voices (noteSkip r (p.watch p.monitor.check))
          (failEntries message) 1 0 (refuse r (noteSkip r (p.watch p.monitor.check))) :=
        .of_calls rfl rfl
      rw [if_neg Bool.false_ne_true, if_neg Bool.false_ne_true, hone]
      exact hnoted.trans (hrefused _)

/-- Some events, one after the other. -/
theorem voices_events (events : List Event) :
    ∀ p : Pipeline (Recorded ε), p.Voices (w.eventsEntries p events) (w.objections events) 0
      (events.foldl w.handle p) := by
  induction events with
  | nil => exact fun p => .of_calls rfl rfl
  | cons e rest ih =>
    intro p
    rw [objections_cons]
    exact (w.voices_handle p e).trans (ih (w.handle p e))

omit w in
/-- The end of a run has one message for all tasks that it gives up. -/
theorem voices_settle (interrupted : Bool) (p : Pipeline (Recorded ε)) :
    let abandoned := if interrupted then p.backlog.length else 0
    p.Voices (settleEntries interrupted p) (if abandoned = 0 then 0 else 1) abandoned
      (settle interrupted p) := by
  intro abandoned
  have hflushed := Voices.flush p
  have hsettled : Voices { p with writer := p.writer.flush.2 }
      (if interrupted then
        Pipeline.abandonEntries { p with writer := p.writer.flush.2 } interruption
      else Pipeline.drainEntries { p with writer := p.writer.flush.2 })
      (if abandoned = 0 then 0 else 1) abandoned (settle interrupted p) := by
    cases interrupted with
    | true => exact .abandon { p with writer := p.writer.flush.2 } interruption
    | false => exact Voices.law.drainAll { p with writer := p.writer.flush.2 }
  have hboth := hflushed.trans hsettled
  rw [Nat.zero_add, Nat.zero_add] at hboth
  exact hboth

omit w [SearchEngine ε] in
theorem voices_conclude (outcome : Outcome) (interrupted : Bool) (now : Instant)
    (p : Pipeline (Recorded ε)) :
    p.Voices (lastEntries outcome interrupted) (verdict? outcome interrupted).toList.length 0
      (conclude outcome interrupted now p) := by
  obtain ⟨change, hconclude⟩ := conclude_eq outcome interrupted now p
  obtain ⟨hmessages, hlosses⟩ := messages_lastEntries outcome interrupted
  refine .of_calls (by rw [hconclude]; rfl) ?_
  rw [hmessages, hlosses, List.length_nil, Nat.zero_add]

/-- **A run.**  Every message is one of a failed call, of a lost image set, of an event, of the
abandoned backlog, or of the source at its end. -/
theorem voices_run (interrupt : Recorded ε → Nat → Bool) (source : Source) (now : Instant)
    (p : Pipeline (Recorded ε)) :
    let c := w.consume interrupt source.events p
    let abandoned := if c.interrupted then c.pipeline.backlog.length else 0
    p.Voices (w.entries interrupt source p)
      (w.objections (source.events.take c.handled) + (if abandoned = 0 then 0 else 1) +
        (verdict? (source.finish c.handled) c.interrupted).toList.length)
      abandoned (w.run interrupt source now p) := by
  intro c abandoned
  obtain ⟨k, -, hhandled, hpipeline, -⟩ := w.consumeFrom_eq interrupt source.events 0 p
  have hconsumed : c.pipeline = (source.events.take c.handled).foldl w.handle p := by
    rw [show c.handled = k from hhandled.trans (Nat.zero_add k)]
    exact hpipeline
  have hevents := w.voices_events (source.events.take c.handled) p
  rw [← hconsumed] at hevents
  -- events, then the end of the run, then its verdict
  have hrun := (hevents.trans (voices_settle c.interrupted c.pipeline)).trans
    (voices_conclude (source.finish c.handled) c.interrupted now
      (settle c.interrupted c.pipeline))
  rw [Nat.zero_add, Nat.add_zero] at hrun
  exact hrun

omit w in
/-- The tasks that a run gives up are among those lost. -/
theorem abandoned_le_losses (w : Worker) (interrupt : Recorded ε → Nat → Bool) (source : Source)
    (p : Pipeline (Recorded ε)) :
    let c := w.consume interrupt source.events p
    (if c.interrupted then c.pipeline.backlog.length else 0) ≤
      (Entry.losses (w.entries interrupt source p)).length := by
  intro c
  rw [entries, Entry.losses_append, Entry.losses_append, List.length_append, List.length_append]
  cases hinterrupted : c.interrupted with
  | false => exact Nat.zero_le _
  | true =>
    have hgiven (p : Pipeline (Recorded ε)) :
        p.backlog.length ≤ (Entry.losses (settleEntries true p)).length := by
      rw [settleEntries, if_pos rfl, Entry.losses_append, List.length_append,
        Pipeline.losses_abandonEntries]
      exact Nat.le_add_left _ _
    rw [if_pos rfl]
    exact (hgiven c.pipeline).trans ((Nat.le_add_left _ _).trans (Nat.le_add_right _ _))

end Worker

/-! ### No failure is silent -/

variable [SearchEngine ε]

/-- **The error log.**  Whatever the records, the engine and the disk are, and however the run ends,
the messages kept and dropped at the end are as many as the events that could not be made, the
records with too little text, the batches and updates that failed, the notices, the image sets lost
one by one, one for all tasks abandoned, and one for what the source found wrong: a fatal outcome
that an interruption comes before, or an anomaly of a run that was neither interrupted nor fatal.
Both sides are numbers as long as the job was not told more than can be counted. -/
theorem errors_account (x : Ingestion) (w : Worker) (interrupt : Recorded ε → Nat → Bool)
    (engine : ε) (d : Disk) (source : Source) (id : String) (kind : JobKind) (target : Path)
    (capacity : Nat) (started now : Instant) :
    let p := x.pipeline (⟨engine, []⟩ : Recorded ε) (.start id kind target capacity started) d
    let c := w.consume interrupt source.events p
    let q := w.run interrupt source now p
    let job := q.writer.job
    let handled := source.events.take c.handled
    let outcome := source.finish c.handled
    let abandoned := if c.interrupted then c.pipeline.backlog.length else 0
    let reported :=
      if c.interrupted then outcome.fatal.isSome
      else outcome.fatal.isNone && outcome.anomaly.isSome
    let others := handled.countP Event.isFailed + handled.countP w.refuses +
      (batches q.calls).countP (!·.2) + handled.countP Event.isNotice +
      (if abandoned = 0 then 0 else 1) + (patchings q.calls).countP (!·.2) + reported.toNat
    job.status.isTerminal = true ∧
      UInt64.ofNat job.errors.size + job.errors.dropped =
        UInt64.ofNat others + (job.tally.imagesFailed - UInt64.ofNat abandoned) ∧
      ((w.entries interrupt source p).length < UInt64.size →
        abandoned ≤ job.tally.imagesFailed.toNat ∧
          job.errors.size + job.errors.dropped.toNat =
            others + (job.tally.imagesFailed.toNat - abandoned)) := by
  intro p c q job handled outcome abandoned reported others
  have hjob := w.job_run interrupt source now p
  change job = _ at hjob
  have hvoices : failures p.calls + (Entry.messages (w.entries interrupt source p)).length +
      abandoned = failures q.calls + (Entry.losses (w.entries interrupt source p)).length +
        (w.objections handled + (if abandoned = 0 then 0 else 1) +
          (Worker.verdict? outcome c.interrupted).toList.length) :=
    w.voices_run interrupt source now p
  have habandoned : abandoned ≤ (Entry.losses (w.entries interrupt source p)).length :=
    w.abandoned_le_losses interrupt source p
  have hreported : (Worker.verdict? outcome c.interrupted).toList.length = reported.toNat := by
    show _ = Bool.toNat (if c.interrupted then outcome.fatal.isSome
      else outcome.fatal.isNone && outcome.anomaly.isSome)
    rw [Worker.verdict?]
    cases c.interrupted <;> cases outcome.fatal <;> cases outcome.anomaly <;> rfl
  rw [hreported] at hvoices
  generalize w.entries interrupt source p = entries at hjob hvoices habandoned ⊢
  -- the messages of the run are counted, and the log accounts for each of them
  have hcount : (Entry.messages entries).length =
      others + ((Entry.losses entries).length - abandoned) := by
    have hfailures : failures q.calls =
      (batches q.calls).countP (!·.2) + (patchings q.calls).countP (!·.2) := rfl
    have hnone : failures p.calls = 0 := rfl
    have hobjections : w.objections handled = handled.countP Event.isFailed +
      handled.countP w.refuses + handled.countP Event.isNotice := rfl
    have hothers : others = handled.countP Event.isFailed + handled.countP w.refuses +
      (batches q.calls).countP (!·.2) + handled.countP Event.isNotice +
      (if abandoned = 0 then 0 else 1) + (patchings q.calls).countP (!·.2) + reported.toNat := rfl
    omega
  have hlost : job.tally.imagesFailed = UInt64.ofNat (Entry.losses entries).length := by
    rw [hjob]
    exact ((Job.tally_told entries p.writer.job).2).trans (UInt64.zero_add _)
  have hlog : job.errors = (Entry.messages entries).foldl ErrorLog.push (.empty capacity) := by
    rw [hjob]
    exact Job.errors_told entries p.writer.job
  obtain ⟨htold, hkept⟩ := ErrorLog.told_push_all (Entry.messages entries) (.empty capacity)
  rw [← hlog] at htold hkept
  refine ⟨?_, ?_, fun hfits => ?_⟩
  · rw [hjob]
    exact Worker.isTerminal_ending _ _
  · rw [hlost, ← UInt64.ofNat_sub habandoned, ← UInt64.ofNat_add, ← hcount]
    exact htold.trans (UInt64.zero_add _)
  · have hmessages : (Entry.messages entries).length ≤ entries.length :=
      List.length_filterMap_le _ _
    have hlosses : (Entry.losses entries).length ≤ entries.length := List.length_filterMap_le _ _
    rw [hlost, UInt64.toNat_ofNat_of_lt' (Nat.lt_of_le_of_lt hlosses hfits), ← hcount]
    refine ⟨habandoned, (hkept ?_).trans (Nat.zero_add _)⟩
    exact (Nat.zero_add _).trans_lt (Nat.lt_of_le_of_lt hmessages hfits)

/-- An extractor gives one record, which has too little text, and exits with code 3: there are two
messages. -/
theorem errors_account_broken_off :
    let source := Sample.brokenOff.source ⟨.zim, "a.zim"⟩
    let p := (Sample.ingestion {} 900).pipeline (⟨{}, []⟩ : Recorded MemoryEngine) Sample.job
      (Sample.disk [])
    let job := (Sample.worker.run (fun _ _ => false) source default p).writer.job
    job.errors.size + job.errors.dropped.toNat = 2 := by
  intro source p job
  obtain ⟨-, -, hcounted⟩ := errors_account (Sample.ingestion {} 900) Sample.worker
    (fun _ _ => false) ({} : MemoryEngine) (Sample.disk []) source "job" .archiveIndex
    (.ofText "a.zim") 50 default default
  refine ((hcounted ?_).2).trans ?_
  · decide +kernel
  · decide +kernel

/-- When the same run is interrupted behind the record, what the source reports at its end is in no
message, and there is one message less than failures. -/
theorem anomaly_unsaid :
    let source := Sample.brokenOff.source ⟨.zim, "a.zim"⟩
    let interrupt : Recorded MemoryEngine → Nat → Bool := fun _ handled => decide (2 ≤ handled)
    let p := (Sample.ingestion {} 900).pipeline (⟨{}, []⟩ : Recorded MemoryEngine) Sample.job
      (Sample.disk [])
    let c := Sample.worker.consume interrupt source.events p
    let q := Sample.worker.run interrupt source default p
    let job := q.writer.job
    let handled := source.events.take c.handled
    let outcome := source.finish c.handled
    let abandoned := if c.interrupted then c.pipeline.backlog.length else 0
    let demoted := c.interrupted && outcome.fatal.isSome
    c.interrupted = true ∧ job.errors.size + job.errors.dropped.toNat = 1 ∧
      handled.countP Event.isFailed + handled.countP Sample.worker.refuses +
        (batches q.calls).countP (!·.2) + handled.countP Event.isNotice +
        (job.tally.imagesFailed.toNat - abandoned) + (if abandoned = 0 then 0 else 1) +
        (patchings q.calls).countP (!·.2) + (outcome.anomaly.isSome || demoted).toNat = 2 := by
  decide +kernel

end Corpus
