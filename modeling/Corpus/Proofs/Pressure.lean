/-
Corpus/Proofs/Pressure.lean

Memory pressure changes when work is done, not what is done.

Two runs over the same records are compared.  Their monitors, probes, batches, engines and disks
may be different, and so may be what the index and the directories of thumbnails held before.
If nothing fails in either of them, they show the same objects, leave the same thumbnails and
count the same.

What was there before matters only where a run puts nothing: a record with too little text adds
no document, and one without thumbnails leaves those of an earlier run.
-/
import Corpus.Ingest.Run
import Corpus.Proofs.Foresight
import Corpus.Proofs.Patching

namespace Corpus

/-! ### Runs in which nothing fails -/

/-- A run over records that was not interrupted and in which nothing failed.  The directory of
all thumbnails, which the service makes when it opens, is at `top`; the staged directory of a
task is at its origin, and what it holds is given; and where documents have their thumbnails
there is at most an old directory. -/
structure Worker.Smooth {ε : Type} [SearchEngine ε] (w : Worker) (records : List Record)
    (staged : ImageTask → List (Bytes × Node)) (x : Ingestion)
    (interrupt : Recorded ε → Nat → Bool) (source : Source) (now : Instant) (engine : ε)
    (job : Job) (d : Disk) (top : Place) (origin : ImageTask → Place) : Prop where
  events : source.events = Event.announced records
  uninterrupted :
    (w.consume interrupt source.events (x.pipeline ⟨engine, []⟩ job d)).interrupted = false
  unfailing :
    (w.run interrupt source now (x.pipeline ⟨engine, []⟩ job d)).writer.engine.Unfailing
  ready : x.thumbnails.Ready d top origin staged (w.tasksOf records)
  vacant : ∀ r ∈ records, d.root.at? (Thumbnails.shelf top (w.documentOf r).id) = none ∨
    ∃ old, d.root.at? (Thumbnails.shelf top (w.documentOf r).id) = some (.dir old)

namespace Worker

variable {ε : Type} [SearchEngine ε] {index : ε → Index} {w : Worker} {records : List Record}
  {staged : ImageTask → List (Bytes × Node)} {x : Ingestion}
  {interrupt : Recorded ε → Nat → Bool} {source : Source} {now : Instant} {engine : ε}
  {job : Job} {d : Disk} {top : Place} {origin : ImageTask → Place}

/-- A run in which nothing fails ends with what its records add to what it starts from. -/
theorem Smooth.outcome
    (h : w.Smooth records staged x interrupt source now engine job d top origin)
    (hserves : SearchEngine.Serves index)
    (hids : (records.map fun r => (w.documentOf r).id).Nodup) :
    let p := w.run interrupt source now (x.pipeline ⟨engine, []⟩ job d)
    x.thumbnails.Rooted p.disk top [] ∧
      w.foreseeAll x.thumbnails staged records (.seen index top engine job.tally d) =
        .seen index top p.writer.engine.engine p.writer.job.tally p.disk := by
  intro p
  have hstart : w.Foresees index x.thumbnails top origin staged records
      (.seen index top engine job.tally d) (x.pipeline ⟨engine, []⟩ job d) := by
    refine fun _ => ⟨rfl, rfl, h.ready, hids, nofun, ?_⟩
    rw [Prospect.seen, Pipeline.prospect]
    congr 1
    simp [Pipeline.tallyAhead, Pipeline.patchesAhead, Ingestion.pipeline, Tally.ahead]
  -- what is foreseen is handed on from event to event, and is done once all is settled
  have hhandled := hstart.handleAll hserves records _ _
  rw [← h.events] at hhandled
  obtain ⟨change, hrun, htally⟩ := run_of_not_interrupted h.uninterrupted now
  have hcalls := h.unfailing
  rw [hrun] at hcalls
  obtain ⟨hrooted, hseen⟩ := hhandled.settle hserves hcalls
  have hp : p = _ := hrun
  rw [hp]
  refine ⟨hrooted, hseen.trans ?_⟩
  rw [Prospect.seen, Prospect.seen, ← htally]
  rfl

/-- What a run puts in the place of a task's thumbnails. -/
theorem Smooth.shelf_of_task
    (h : w.Smooth records staged x interrupt source now engine job d top origin)
    (hserves : SearchEngine.Serves index)
    (hids : (records.map fun r => (w.documentOf r).id).Nodup) {task : ImageTask}
    (htask : task ∈ w.tasksOf records) :
    let p := w.run interrupt source now (x.pipeline ⟨engine, []⟩ job d)
    p.disk.root.at? (Thumbnails.shelf top task.id) =
      some (x.thumbnails.settle task.id (staged task)).2 := by
  intro p
  obtain ⟨-, hseen⟩ := h.outcome hserves hids
  exact (congrFun (congrArg Prospect.shelves hseen) task.id).symm.trans
    (foreseeAll_shelves_of_mem htask (hids.sublist (w.ids_tasksOf_sublist records)))

/-- The thumbnails of a document without a task stay what they were. -/
theorem Smooth.shelf_of_no_task
    (h : w.Smooth records staged x interrupt source now engine job d top origin)
    (hserves : SearchEngine.Serves index)
    (hids : (records.map fun r => (w.documentOf r).id).Nodup) {r : Record} (hr : r ∈ records)
    (htask : w.taskOf? r = none) :
    let p := w.run interrupt source now (x.pipeline ⟨engine, []⟩ job d)
    p.disk.root.at? (Thumbnails.shelf top (w.documentOf r).id) =
      d.root.at? (Thumbnails.shelf top (w.documentOf r).id) := by
  intro p
  have hother : (w.documentOf r).id ∉ (w.tasksOf records).map (·.id) := by
    intro hmem
    obtain ⟨task, htask', hid⟩ := List.mem_map.mp hmem
    obtain ⟨r', hr', hgives⟩ := List.mem_filterMap.mp htask'
    have hsame : r' = r := List.inj_on_of_nodup_map hids hr' hr
      ((w.id_of_taskOf? hgives).symm.trans hid)
    rw [hsame, htask] at hgives
    cases hgives
  obtain ⟨-, hseen⟩ := h.outcome hserves hids
  exact (congrFun (congrArg Prospect.shelves hseen) _).symm.trans
    (foreseeAll_shelves_of_not_mem hother)

/-- The names in the directory of a document without a task stay what they were. -/
theorem Smooth.names_of_no_task
    (h : w.Smooth records staged x interrupt source now engine job d top origin)
    (hserves : SearchEngine.Serves index)
    (hids : (records.map fun r => (w.documentOf r).id).Nodup) {r : Record} (hr : r ∈ records)
    (htask : w.taskOf? r = none) :
    let p := w.run interrupt source now (x.pipeline ⟨engine, []⟩ job d)
    x.thumbnails.names p.disk (w.documentOf r).id =
      x.thumbnails.names d (w.documentOf r).id := by
  intro p
  refine Thumbnails.names_congr h.ready.rooted (h.outcome hserves hids).1 (w.isName_documentOf r)
    (fun target => ?_) (h.shelf_of_no_task hserves hids hr htask)
  rcases h.vacant r hr with hnone | ⟨old, hold⟩
  · rw [hnone]
    simp
  · rw [hold]
    simp

end Worker

/-! ### Engines that accept everything -/

/-- The engine in memory accepts every call, and no task of it fails. -/
structure MemoryEngine.Accepts (e : MemoryEngine) : Prop where
  adds : ∀ reply ∈ e.addReplies, reply = .accept
  updates : ∀ reply ∈ e.updateReplies, reply = .accept
  stalled : e.stalled = []
  failing : e.failing = []

namespace MemoryEngine

variable {e : MemoryEngine}

theorem takeReply_of_accept {replies : List Reply} (h : ∀ reply ∈ replies, reply = .accept) :
    ∃ rest, takeReply replies = (.accept, rest) ∧ ∀ reply ∈ rest, reply = .accept := by
  cases replies with
  | nil => exact ⟨[], rfl, h⟩
  | cons first rest =>
    refine ⟨rest, ?_, fun reply hreply => h reply (List.mem_cons_of_mem first hreply)⟩
    rw [takeReply, h first List.mem_cons_self]

theorem Accepts.add (h : e.Accepts) (batch : List Document) :
    ∃ task e', SearchEngine.add e batch = (.ok task, e') ∧ e'.Accepts := by
  obtain ⟨rest, hreply, hrest⟩ := takeReply_of_accept h.adds
  rw [show SearchEngine.add e batch = e.add batch from rfl, MemoryEngine.add, hreply]
  exact ⟨_, _, rfl, ⟨hrest, h.updates, h.stalled, h.failing⟩⟩

theorem Accepts.update (h : e.Accepts) (patches : List ImagePatch) :
    ∃ task e', SearchEngine.update e patches = (.ok task, e') ∧ e'.Accepts := by
  obtain ⟨rest, hreply, hrest⟩ := takeReply_of_accept h.updates
  rw [show SearchEngine.update e patches = e.update patches from rfl, MemoryEngine.update,
    hreply]
  exact ⟨_, _, rfl, ⟨h.adds, hrest, h.stalled, h.failing⟩⟩

theorem Accepts.await (h : e.Accepts) (task : UInt64) (limit : Span) :
    e.await task limit = .ok () := by
  rw [MemoryEngine.await, h.stalled, h.failing]
  rfl

end MemoryEngine

/-- An engine that accepts everything goes on to do so, and no call of it fails. -/
theorem Recorded.invariant_accepts :
    Recorded.Invariant fun e : Recorded MemoryEngine => e.engine.Accepts ∧ e.Unfailing := by
  have hstep : ∀ (e : Recorded MemoryEngine) (engine : MemoryEngine) (call : EngineCall)
      (task : UInt64) (limit : Span), e.Unfailing → call.succeeded = true → engine.Accepts →
      (SearchEngine.commit limit (.ok task, (⟨engine, e.calls ++ [call]⟩ : Recorded MemoryEngine))
        ).2.engine.Accepts ∧
      (SearchEngine.commit limit (.ok task, (⟨engine, e.calls ++ [call]⟩ : Recorded MemoryEngine))
        ).2.Unfailing := by
    -- the call was accepted, and the wait for its task ends well
    intro e engine call task limit hcalls hcall haccepts
    refine ⟨haccepts, fun other hother => ?_⟩
    rcases List.mem_append.mp hother with hmem | hmem
    · rcases List.mem_append.mp hmem with hmem | hmem
      · exact hcalls other hmem
      · rw [List.mem_singleton.mp hmem]
        exact hcall
    · rw [List.mem_singleton.mp hmem]
      show (engine.await task limit).isOk = true
      rw [haccepts.await]
      rfl
  constructor
  · rintro e limit batch ⟨haccepts, hcalls⟩
    obtain ⟨task, engine, hadd, haccepts'⟩ := haccepts.add batch
    rw [Recorded.add_eq, hadd]
    exact hstep e engine _ task limit hcalls rfl haccepts'
  · rintro e limit patches ⟨haccepts, hcalls⟩ -
    obtain ⟨task, engine, hupdate, haccepts'⟩ := haccepts.update patches
    rw [Recorded.update_eq, hupdate]
    exact hstep e engine _ task limit hcalls rfl haccepts'

/-- No call fails in any run over an engine that accepts everything. -/
theorem MemoryEngine.Accepts.unfailing_run {e : MemoryEngine} (h : e.Accepts) (w : Worker)
    (x : Ingestion) (interrupt : Recorded MemoryEngine → Nat → Bool) (source : Source)
    (now : Instant) (job : Job) (d : Disk) :
    (w.run interrupt source now (x.pipeline ⟨e, []⟩ job d)).writer.engine.Unfailing :=
  (Worker.covered_run Recorded.invariant_accepts w interrupt source now
    (x.covered_pipeline job d ⟨h, nofun⟩)).1.invariant.2

/-! ### Two runs -/

section Agreement

variable {ε ε' : Type} [SearchEngine ε] [SearchEngine ε'] {index : ε → Index}
  {index' : ε' → Index} {w : Worker} {records : List Record}
  {staged : ImageTask → List (Bytes × Node)} {x x' : Ingestion}
  {interrupt : Recorded ε → Nat → Bool} {interrupt' : Recorded ε' → Nat → Bool}
  {source source' : Source} {now now' : Instant} {engine : ε} {engine' : ε'} {job job' : Job}
  {d d' : Disk} {top top' : Place} {origin origin' : ImageTask → Place}

end Agreement

/-! ### An archive of two articles -/

namespace Sample

/-- An article whose thumbnails wait in a directory of their own. -/
def illustrated : Record :=
  { path := "A/1", text := "an article with a picture", thumbDir := "/st/1" }

/-- An article without a picture. -/
def plain : Record := { path := "A/2", text := "an article without one" }

def worker : Worker := ⟨⟨.zim, "a.zim"⟩, {}⟩

def source (records : List Record) : Source :=
  ⟨⟨.zim, "a.zim"⟩, Event.announced records, fun _ => {}⟩

/-- A service on a machine that always has so many of its 1000 bytes available. -/
def ingestion (monitor : MonitorSettings) (available : UInt64) : Ingestion :=
  { settings := { monitor }
    thumbnails := ⟨.ofText "/t", "/static/thumbnails"⟩
    stagingRoot := .ofText "/st"
    programs := ⟨fun _ => none⟩
    probe := { readings := fun _ => ⟨1000, available, 0, 0.5⟩, processors := 4 } }

def job : Job := .start "job" .archiveIndex (.ofText "a.zim") 50 default

/-- The only file in the directory of the illustrated article. -/
def thumbnail : Bytes × Node := (Text.encode "x_thumb_0_large.jpg", .file [])

/-- The thumbnails of earlier runs, and the directory that the extractor has made. -/
def disk (old : List (Bytes × Node)) : Disk :=
  ⟨.dir [(Text.encode "t", .dir old),
    (Text.encode "st", .dir [(Text.encode "1", .dir [thumbnail])])], [], []⟩

/-- What the illustrated article leaves to be done for its thumbnails. -/
def task : ImageTask := ⟨.ofText "/st/1", "3eba24aa-d9ef-59e4-8a47-57486c25c71f"⟩

set_option maxRecDepth 100000 in
theorem id_illustrated : (worker.documentOf illustrated).id = task.id := by decide

set_option maxRecDepth 100000 in
theorem id_plain :
    (worker.documentOf plain).id = "4532d64f-b30e-5c3e-aa1c-14fa42545ec8" := by decide

theorem taskOf_illustrated : worker.taskOf? illustrated = some task := by
  have hsubstantial : worker.isSubstantial illustrated = true := by decide
  rw [Worker.taskOf?, hsubstantial, id_illustrated]
  rfl

theorem taskOf_plain : worker.taskOf? plain = none := by
  rw [Worker.taskOf?]
  split <;> rfl

/-- The directories of earlier runs stand where documents have theirs. -/
theorem at?_shelf (old : List (Bytes × Node)) (id : String) :
    (disk old).root.at? (Thumbnails.shelf [Text.encode "t"] id) = old.lookup (Text.encode id) := by
  show (Node.dir old).at? [Text.encode id] = old.lookup (Text.encode id)
  rw [Node.at?_dir_cons]
  cases old.lookup (Text.encode id) <;> rfl

/-- There is nothing but directories of earlier runs. -/
def Tidy (old : List (Bytes × Node)) : Prop :=
  ∀ id, old.lookup (Text.encode id) = none ∨ ∃ es, old.lookup (Text.encode id) = some (.dir es)

variable {old : List (Bytes × Node)} (monitor : MonitorSettings) (available : UInt64)

set_option maxRecDepth 10000 in
theorem staged (h : Tidy old) : (ingestion monitor available).thumbnails.Staged (disk old)
    [Text.encode "t"] task.staging task.id [Text.encode "st", Text.encode "1"] [thumbnail] := by
  have hfind : (disk old).find true (.ofText "/t") = .ok ([Text.encode "t"], .dir old) := by cbv
  have htrail : (disk old).trail true (.ofText "/t") = [[Text.encode "t"]] := by cbv
  have htrail' : (disk old).trail false task.staging =
      [[Text.encode "st"], [Text.encode "st", Text.encode "1"]] := by cbv
  refine ⟨⟨⟨old, hfind⟩, ?_⟩, by cbv, ?_, by decide, ?_, ?_, by cbv, fun _ => rfl⟩
  · show ∀ q ∈ (disk old).trail true (.ofText "/t"), _
    rw [htrail]
    decide
  · rw [htrail']
    decide
  · intro e he
    rw [List.mem_singleton.mp he]
    exact ⟨by decide, by decide, by decide, by decide⟩
  · rw [at?_shelf]
    exact h task.id

/-- Nothing stands in the way of the thumbnail. -/
theorem ready (h : Tidy old) : (ingestion monitor available).thumbnails.Ready (disk old)
    [Text.encode "t"] (fun _ => [Text.encode "st", Text.encode "1"]) (fun _ => [thumbnail])
    [task] := by
  have hstaged := staged monitor available h
  refine ⟨hstaged.rooted.narrow (List.nil_subset _), ?_, by decide, ?_⟩
  · intro other hother
    rw [List.mem_singleton.mp hother]
    exact hstaged
  · intro first hfirst second hsecond hne
    rw [List.mem_singleton.mp hfirst, List.mem_singleton.mp hsecond] at hne
    exact absurd rfl hne

/-- Nothing fails in a run over these articles, however the machine is doing. -/
theorem smooth (h : Tidy old) {records : List Record} (hrecords : records ⊆ [illustrated, plain]) :
    worker.Smooth records (fun _ => [thumbnail]) (ingestion monitor available)
      (fun _ _ => false) (source records) default ({} : MemoryEngine) job (disk old)
      [Text.encode "t"] (fun _ => [Text.encode "st", Text.encode "1"]) := by
  have htasks : worker.tasksOf records ⊆ [task] := by
    intro other hother
    obtain ⟨r, hr, hgives⟩ := List.mem_filterMap.mp hother
    rcases List.mem_pair.mp (hrecords hr) with rfl | rfl
    · rw [taskOf_illustrated] at hgives
      simp_all
    · rw [taskOf_plain] at hgives
      cases hgives
  have haccepts : ({} : MemoryEngine).Accepts := ⟨nofun, nofun, rfl, rfl⟩
  refine ⟨rfl, worker.not_interrupted_of_never (fun _ _ => rfl) _ _,
    haccepts.unfailing_run worker _ _ _ _ _ _, (ready monitor available h).subset htasks, ?_⟩
  intro r _
  rw [at?_shelf]
  exact h _

theorem tidy_nil : Tidy [] := fun _ => .inl rfl

theorem tidy_singleton (name : Bytes) (es : List (Bytes × Node)) : Tidy [(name, .dir es)] := by
  intro id
  rw [List.lookup_cons]
  split
  · exact .inr ⟨es, rfl⟩
  · exact .inl rfl

end Sample

end Corpus
