/-
Corpus/Proofs/Showing.lean

What objects show of their images after a run.

A run that nothing interrupts and in which no call fails ends with an object that shows the
images of its document as soon as one record has brought thumbnails and all later records of the
document bring some as well (`images_stay`).  A later record that brings none takes the images
away (`images_removed_by_later_record`).

Whatever interrupts a run and whatever fails, an object that shows images before it shows some
after it, if all records of the document bring thumbnails and no deed of the run loses its fields
(`images_kept`).  An interruption does lose them where thumbnails were left for later, and they
are on disk all the same (`images_lost_by_interruption`).
-/
import Corpus.Proofs.Keeping
import Corpus.Proofs.Pressure

namespace Corpus

/-! ### A run and its pipeline -/

section Frame

variable {ε : Type} [SearchEngine ε]

/-- The engine at the end of a run, from any point of it on. -/
theorem Worker.engine_run (w : Worker) (interrupt : Recorded ε → Nat → Bool) (source : Source)
    (now : Instant) (p : Pipeline (Recorded ε)) :
    let c := w.consume interrupt source.events p
    (w.run interrupt source now p).writer.engine =
      (settle c.interrupted ((source.events.take c.handled).foldl w.handle p)).writer.engine := by
  intro c
  obtain ⟨k, -, hhandled, hpipeline, -⟩ := w.consumeFrom_eq interrupt source.events 0 p
  rw [Nat.zero_add] at hhandled
  obtain ⟨change, hconclude⟩ := conclude_eq (source.finish c.handled) c.interrupted now
    (settle c.interrupted c.pipeline)
  have hrun : w.run interrupt source now p = _ := hconclude
  have hsame : c.pipeline = (source.events.take c.handled).foldl w.handle p := by
    rw [show c.handled = k from hhandled]
    exact hpipeline
  rw [hrun, ← hsame]
  rfl

theorem Pipeline.thumbnails_drainChunk (p : Pipeline ε) :
    p.drainChunk.2.thumbnails = p.thumbnails := by
  have htaken := takeUpSome_keeps (I := fun _ _ q => q.thumbnails = p.thumbnails)
    (fun task rest patches r q _ h => (takeUp_frame q task rest patches r).2.2.2.2.2.1.trans h)
    (max p.deferred.drainChunk.toNat 1) p [] {} rfl
  exact (send_frame _ _ _).2.2.2.2.2.1.trans htaken

theorem Worker.thumbnails_write (d : Document) (p : Pipeline ε) :
    (write d p).thumbnails = p.thumbnails := by
  rcases write_cases d p with ⟨-, h⟩ | ⟨-, h⟩
  · rw [h]
  · rw [h, catchUp]
    split
    · rw [Pipeline.thumbnails_drainChunk]
    · rfl

/-- Thumbnails are kept in one place during a run. -/
theorem Worker.thumbnails_handle (w : Worker) (p : Pipeline ε) (e : Event) :
    (w.handle p e).thumbnails = p.thumbnails := by
  cases e with
  | discovered _ | skipped _ | failed _ _ | notice _ => rfl
  | record r =>
    obtain ⟨change, hnoted⟩ := noteSkip_eq r (p.watch p.monitor.check)
    obtain ⟨-, -, -, -, hattached, -⟩ :=
      attachImages_frame r (w.documentOf r) ((p.watch p.monitor.check).report change)
    rw [handle, handleRecord_eq, hnoted]
    split
    · rw [thumbnails_write, hattached]
      rfl
    · rfl

theorem Worker.thumbnails_events (w : Worker) (events : List Event) :
    ∀ p : Pipeline ε, (events.foldl w.handle p).thumbnails = p.thumbnails := by
  induction events with
  | nil => exact fun _ => rfl
  | cons e rest ih => exact fun p => (ih (w.handle p e)).trans (w.thumbnails_handle p e)

end Frame

/-! ### An article is illustrated -/

namespace Sample

/-- The name of the thumbnail in the directory of its document. -/
def shelfName : String := "3eba24aa-d9ef-59e4-8a47-57486c25c71f_thumb_0_large.jpg"

/-- That directory, as a run leaves it to the next one. -/
def shelf : List (Bytes × Node) :=
  [(Text.encode task.id, .dir [(Text.encode shelfName, .file [])])]

/-- What the object of the illustrated article says of its thumbnail. -/
def images : ImageMetadata :=
  { hasImages := true
    imageCount := 1
    firstImage := "/static/thumbnails/" ++ task.id ++ "/" ++ shelfName
    allImages := [] }

/-- The disk once the thumbnail was moved to its document, by whatever name. -/
def shelved (name : String) : Disk :=
  ⟨.dir [(Text.encode "t", .dir [(Text.encode task.id, .dir [(Text.encode name, .file [])])]),
    (Text.encode "st", .dir [])], [], []⟩

/-- The path of that directory. -/
def place : Path := (Path.ofText "/t").join (.ofText task.id)

variable (monitor : MonitorSettings) (available : UInt64)

set_option maxRecDepth 100000 in
theorem describe_shelved :
    (ingestion monitor available).thumbnails.describe (shelved shelfName) place task.id =
      .ok images := by
  have hlisted : (shelved shelfName).list place = .ok [(Text.encode shelfName, .file [])] := by cbv
  have hname : Text.decodeLossy (Text.encode shelfName) = shelfName := by cbv
  have hthumbnail : Thumbnails.isThumbnail task.id shelfName = true := by decide
  have hlarge : "_large.jpg".toList.isSuffixOf shelfName.toList = true := by decide
  have hsmall : "_small.jpg".toList.isSuffixOf shelfName.toList = false := by decide
  rw [Thumbnails.describe, hlisted]
  show Thumbnails.describeNames _ task.id [Text.decodeLossy (Text.encode shelfName)] = _
  rw [hname, Thumbnails.describeNames]
  simp only [List.filter_cons, hthumbnail, if_true, List.filter_nil, List.mergeSort_singleton,
    List.find?_cons, hlarge, hsmall]
  rfl

set_option maxRecDepth 100000 in
/-- The thumbnail is adopted, in the place of those of earlier runs. -/
theorem adopt_task {old : List (Bytes × Node)}
    (hfree : Thumbnails.clear (disk old) place = .ok (disk [])) :
    (ingestion monitor available).thumbnails.adopt (disk old) task.staging task.id =
      (.ok images, shelved shelfName) := by
  have hstaged : (disk old).isDir task.staging = true := by cbv
  have hroot : (disk old).makeDirs (.ofText "/t") = (.ok (), disk old) := by cbv
  have hmoved : Thumbnails.moveDir (disk []) task.staging place =
      (.ok (), shelved "x_thumb_0_large.jpg") := by cbv
  have hlisted : (shelved "x_thumb_0_large.jpg").list place = .ok [thumbnail] := by cbv
  have hrenamed : Thumbnails.renameEntries place task.id [thumbnail.1]
      (shelved "x_thumb_0_large.jpg") = (.ok (), shelved shelfName) := by cbv
  rw [Thumbnails.adopt, show (ingestion monitor available).thumbnails.root = .ofText "/t" from rfl,
    show (Path.ofText "/t").join (.ofText task.id) = place from rfl, hstaged]
  simp only [Bool.not_true, Bool.false_eq_true, if_false, hroot, hfree, hmoved, hlisted,
    List.map_cons, List.map_nil, hrenamed, describe_shelved]

theorem clear_nil : Thumbnails.clear (disk []) place = .ok (disk []) := by cbv

theorem clear_shelf : Thumbnails.clear (disk shelf) place = .ok (disk []) := by cbv

variable {ε : Type} {p : Pipeline ε} {old : List (Bytes × Node)}

/-- While memory is at ease the thumbnail is adopted with its document. -/
theorem attach_calm (hthumbnails : p.thumbnails = (ingestion monitor available).thumbnails)
    (hdisk : p.disk = disk old) (hfree : Thumbnails.clear (disk old) place = .ok (disk []))
    (hcalm : p.monitor.control.deferImages = false) :
    Worker.attachImages illustrated (worker.documentOf illustrated) p =
        ({ worker.documentOf illustrated with images },
          { p with disk := shelved shelfName }.report (·.update .image)) ∧
      Worker.attachDeeds illustrated (worker.documentOf illustrated) p =
        [.adopted task.id images] := by
  have hadopt : p.thumbnails.adopt p.disk (.ofText "/st/1") (worker.documentOf illustrated).id =
      (.ok images, shelved shelfName) := by
    rw [hthumbnails, hdisk, id_illustrated]
    exact adopt_task monitor available hfree
  have hstaging : illustrated.staging? = some "/st/1" := rfl
  constructor
  · rw [Worker.attachImages, hstaging]
    simp only [hcalm, Bool.false_eq_true, if_false, Pipeline.adopt, hadopt]
  · rw [Worker.attachDeeds, hstaging]
    simp only [hcalm, Bool.false_eq_true, if_false, hadopt]
    rw [id_illustrated]

/-- Under pressure it is left for later. -/
theorem attach_pressed (hpressed : p.monitor.control.deferImages = true) :
    Worker.attachImages illustrated (worker.documentOf illustrated) p =
      (worker.documentOf illustrated, p.postpone task) := by
  rw [Worker.attachImages, show illustrated.staging? = some "/st/1" from rfl]
  simp only [hpressed, if_true, id_illustrated]
  rfl

variable [SearchEngine ε]

/-- A document that leaves room in its batch stays pending. -/
theorem handle_held {w : Worker} {r : Record} {p q : Pipeline ε} {d : Document}
    (hsubstantial : w.isSubstantial r = true) (hskip : r.imageSkip? = none)
    (hattached : Worker.attachImages r (w.documentOf r) (p.watch p.monitor.check) = (d, q))
    (hroom : (q.writer.pending ++ [d]).length < max q.monitor.control.batchSize.toNat 1) :
    w.handle p (.record r) =
        { q with writer := { q.writer with pending := q.writer.pending ++ [d] } } ∧
      w.eventDeeds p (.record r) = Worker.attachDeeds r (w.documentOf r)
        (p.watch p.monitor.check) := by
  have hnoted : Worker.noteSkip r (p.watch p.monitor.check) = p.watch p.monitor.check := by
    rw [Worker.noteSkip, hskip]
  constructor
  · rw [Worker.handle, Worker.handleRecord_eq, if_pos hsubstantial, hnoted, hattached]
    rcases Worker.write_cases d q with ⟨-, h⟩ | ⟨hfull, -⟩
    · exact h
    · exact absurd hfull (Nat.not_le.mpr hroom)
  · rw [Worker.eventDeeds, if_pos hsubstantial, hnoted]
    dsimp only
    rw [hattached, Worker.writeDeeds, Writer.push, if_neg (Nat.not_le.mpr hroom)]
    exact List.append_nil _

/-- A run on an idle machine, once the article was announced to it. -/
def announced (engine : MemoryEngine) (old : List (Bytes × Node)) :
    Pipeline (Recorded MemoryEngine) :=
  worker.handle ((ingestion {} 900).pipeline ⟨engine, []⟩ job (disk old)) (.discovered 1)

/-- The same run once it was handled. -/
def handled (engine : MemoryEngine) (old : List (Bytes × Node)) :
    Pipeline (Recorded MemoryEngine) :=
  let p := (announced engine old).watch (announced engine old).monitor.check
  let q := { p with disk := shelved shelfName }.report (·.update .image)
  { q with writer := { q.writer with
      pending := [{ worker.documentOf illustrated with images }] } }

theorem handle_announced (engine : MemoryEngine)
    (hfree : Thumbnails.clear (disk old) place = .ok (disk [])) :
    worker.handle (announced engine old) (.record illustrated) = handled engine old ∧
      worker.eventDeeds (announced engine old) (.record illustrated) =
        [.adopted task.id images] := by
  have hmonitor : (announced engine old).monitor = .start {} (ingestion {} 900).probe := rfl
  have hcalm : (Monitor.start {} (ingestion {} 900).probe).check.control.deferImages = false := by
    decide
  have hbatch : 1 < (Monitor.start {} (ingestion {} 900).probe).check.control.batchSize.toNat := by
    decide
  obtain ⟨hattached, hdeeds⟩ := attach_calm {} 900
    (p := (announced engine old).watch (announced engine old).monitor.check) rfl rfl hfree
    (by rw [hmonitor]; exact hcalm)
  obtain ⟨hhandled, hsame⟩ := handle_held (w := worker) (r := illustrated)
    (p := announced engine old) (by decide) rfl hattached
    (Nat.lt_of_lt_of_le hbatch (Nat.le_max_left _ _))
  exact ⟨hhandled, hsame.trans hdeeds⟩

/-- A run over the article alone handles it and settles. -/
theorem run_illustrated (engine : MemoryEngine)
    (hfree : Thumbnails.clear (disk old) place = .ok (disk [])) :
    worker.run (fun _ _ => false) (source [illustrated]) default
        ((ingestion {} 900).pipeline ⟨engine, []⟩ job (disk old)) =
      Worker.conclude {} false default (Worker.settle false (handled engine old)) := by
  rw [← (handle_announced engine hfree).1]
  rfl

/-- What a run under pressure has left to do once it handled the article. -/
def left (engine : MemoryEngine) : Pipeline (Recorded MemoryEngine) :=
  let p := worker.handle ((ingestion { sampleInterval := 1 } 50).pipeline
    (⟨engine, []⟩ : Recorded MemoryEngine) job (disk shelf)) (.discovered 1)
  let q := (p.watch p.monitor.check).postpone task
  { q with writer := { q.writer with pending := [worker.documentOf illustrated] } }

/-- Interrupted at that point, it only settles. -/
theorem run_interrupted (engine : MemoryEngine) :
    worker.run (fun _ handled => decide (2 ≤ handled)) (source [illustrated]) default
        ((ingestion { sampleInterval := 1 } 50).pipeline ⟨engine, []⟩ job (disk shelf)) =
      Worker.conclude {} true default (Worker.settle true (left engine)) := by
  let p := worker.handle ((ingestion { sampleInterval := 1 } 50).pipeline
    (⟨engine, []⟩ : Recorded MemoryEngine) job (disk shelf)) (.discovered 1)
  have hmonitor : p.monitor = .start { sampleInterval := 1 }
    (ingestion { sampleInterval := 1 } 50).probe := rfl
  have hpressed : p.monitor.check.control.deferImages = true := by
    rw [hmonitor]
    decide
  have hbatch : 1 < p.monitor.check.control.batchSize.toNat := by
    rw [hmonitor]
    decide
  obtain ⟨hhandled, -⟩ := handle_held (w := worker) (r := illustrated) (p := p)
    (by decide) rfl (attach_pressed (p := p.watch p.monitor.check) hpressed)
    (Nat.lt_of_lt_of_le hbatch (Nat.le_max_left _ _))
  have hsame : worker.handle p (.record illustrated) = left engine := hhandled
  rw [← hsame]
  rfl

end Sample

/-! ### Runs -/

section Runs

variable {ε : Type} [SearchEngine ε] {index : ε → Index} {x : Ingestion} {w : Worker} {job : Job}
  {d : Disk} {engine : ε} {interrupt : Recorded ε → Nat → Bool} {source : Source} {now : Instant}
  {id : String}

/-- **Images stay.**  In a run that nothing interrupts and in which no call fails, take a record
that brings thumbnails.  If all later records of its document bring some as well, and adoption
does not fail for them, the object shows an image below the path of its document in the end. -/
theorem images_stay (hserves : SearchEngine.Serves index) {before after : List Event}
    {record : Record} (hevents : source.events = before ++ .record record :: after)
    (hsubstantial : w.isSubstantial record = true) (hid : (w.documentOf record).id = id)
    (hbrings : ∀ r, .record r ∈ Event.record record :: after → w.isSubstantial r = true →
      (w.documentOf r).id = id → r.staging?.isSome = true) :
    let p := x.pipeline (⟨engine, []⟩ : Recorded ε) job d
    let q := w.run interrupt source now p
    (w.consume interrupt source.events p).interrupted = false → q.writer.engine.Unfailing →
      (∀ deed ∈ w.deeds false (before.foldl w.handle p) (.record record :: after),
        deed ≠ .missed id) →
      (index q.writer.engine.engine).Shows (x.thumbnails.Illustrates id) id := by
  intro p q huninterrupted hcalls hadopted
  have hgives : x.thumbnails.Gives (x.thumbnails.Illustrates id) id := fun _ _ _ _ hadopt =>
    Thumbnails.illustrates_of_adopt hadopt
  have hspares : ∀ deed ∈ w.deeds false (before.foldl w.handle p) (.record record :: after),
      deed.Spares True id := fun deed hdeed => ⟨hadopted deed hdeed, .inl trivial⟩
  obtain ⟨change, hrun, -⟩ := Worker.run_of_not_interrupted huninterrupted now
  rw [hevents, List.foldl_append, List.foldl_cons] at hrun
  have hthumbnails := w.thumbnails_events before p
  -- the record brings the fields, and what follows keeps them
  have hbrought : (w.handle (before.foldl w.handle p) (.record record)).Keeping index x.thumbnails
      (x.thumbnails.Illustrates id) id True [] := by
    refine Worker.keeping_record hgives hserves
      (.inr ⟨trivial, hthumbnails, hsubstantial, hid⟩) (hbrings record List.mem_cons_self)
      fun deed hdeed => hspares deed ?_
    exact List.mem_append_left _ (List.mem_append_left _ hdeed)
  have hkept := Worker.keeping_events hgives hserves after hbrought
    (fun r hr => hbrings r (List.mem_cons_of_mem _ hr))
    (fun deed hdeed => hspares deed
      (List.mem_append_left _ (List.mem_append_right _ hdeed)))
  have hend := Worker.keeping_settle hgives hserves hkept (fun _ => rfl)
    (fun deed hdeed => hspares deed (List.mem_append_right _ hdeed))
    (fun _ => by rw [show q = _ from hrun] at hcalls; exact hcalls)
  rw [show q = _ from hrun]
  exact hend

/-- The article on an idle machine. -/
theorem images_stay_inline :
    let x := Sample.ingestion {} 900
    let p := x.pipeline (⟨({} : MemoryEngine), []⟩ : Recorded MemoryEngine) Sample.job
      (Sample.disk [])
    let q := Sample.worker.run (fun _ _ => false) (Sample.source [Sample.illustrated]) default p
    q.writer.engine.engine.index.Shows (x.thumbnails.Illustrates Sample.task.id)
      Sample.task.id := by
  intro x p q
  obtain ⟨hhandled, hdeeds⟩ := Sample.handle_announced {} Sample.clear_nil
  have haccepts : ({} : MemoryEngine).Accepts := ⟨nofun, nofun, rfl, rfl⟩
  have hall : Sample.worker.deeds false (Sample.announced {} []) [.record Sample.illustrated] =
      [.adopted Sample.task.id Sample.images] := by
    rw [Worker.deeds, Worker.eventsDeeds, hdeeds, List.foldl_cons, hhandled]
    rfl
  have hevents : (Sample.source [Sample.illustrated]).events =
      [.discovered 1] ++ .record Sample.illustrated :: [] := rfl
  refine images_stay MemoryEngine.serves hevents (by decide +kernel) Sample.id_illustrated
    ?_ (Sample.worker.not_interrupted_of_never (fun _ _ => rfl) _ _)
    (haccepts.unfailing_run Sample.worker _ _ _ _ _ _) ?_
  · intro r hr _ _
    obtain rfl : r = Sample.illustrated := by simpa using hr
    rfl
  · show ∀ deed ∈ Sample.worker.deeds false (Sample.announced {} []) [.record Sample.illustrated],
      deed ≠ .missed Sample.task.id
    rw [hall]
    decide

/-- The same article once more, without its thumbnail, takes the images away: its document
replaces the object that showed them, and nothing patches them in again. -/
theorem images_removed_by_later_record :
    let again := { Sample.illustrated with thumbDir := "" }
    let source := Sample.source [Sample.illustrated, again]
    let p := (Sample.ingestion {} 900).pipeline (⟨({} : MemoryEngine), []⟩ : Recorded MemoryEngine)
      Sample.job (Sample.disk [])
    let q := Sample.worker.run (fun _ _ => false) source default p
    q.writer.job.status = .completed ∧ q.writer.engine.Unfailing ∧
      .adopted Sample.task.id Sample.images ∈ Sample.worker.deeds false p source.events ∧
      ¬ q.writer.engine.engine.index.Shows (·.hasImages = true) Sample.task.id := by
  intro again source p q
  obtain ⟨hhandled, hdeeds⟩ := Sample.handle_announced {} Sample.clear_nil
  have haccepts : ({} : MemoryEngine).Accepts := ⟨nofun, nofun, rfl, rfl⟩
  have hrun : q = Worker.conclude {} false default (Worker.settle false
      (Sample.worker.handle (Sample.worker.handle (Sample.handled {} []) (.discovered 1))
        (.record again))) := by
    rw [← hhandled]
    rfl
  refine ⟨by rw [hrun]; decide +kernel, haccepts.unfailing_run Sample.worker _ _ _ _ _ _, ?_, ?_⟩
  · refine List.mem_append_left _ ?_
    show ImageDeed.adopted _ _ ∈ [] ++ (Sample.worker.eventDeeds (Sample.announced {} [])
      (.record Sample.illustrated) ++ _)
    rw [hdeeds]
    exact List.mem_cons_self
  · rw [hrun]
    decide +kernel

/-- **Images are kept.**  An object that shows images still does so after any run, whatever
interrupts it and whatever fails, if all records of its document bring thumbnails and none of the
deeds of the run loses its fields. -/
theorem images_kept (hserves : SearchEngine.Serves index)
    (hshown : (index engine).Shows (·.hasImages = true) id)
    (hbrings : ∀ r, .record r ∈ source.events → w.isSubstantial r = true →
      (w.documentOf r).id = id → r.staging?.isSome = true) :
    let p := x.pipeline (⟨engine, []⟩ : Recorded ε) job d
    let c := w.consume interrupt source.events p
    (∀ deed ∈ w.deeds c.interrupted p (source.events.take c.handled), ¬ deed.Loses id) →
      (index (w.run interrupt source now p).writer.engine.engine).Shows (·.hasImages = true) id := by
  intro p c hdeeds
  -- any call may fail here, so the index has to show the fields all along
  have hstart : p.Keeping index x.thumbnails (·.hasImages = true) id False [] :=
    fun _ => ⟨rfl, nofun, .inr (.inr ⟨hshown, .inr hshown⟩)⟩
  have hgives : x.thumbnails.Gives (·.hasImages = true) id := fun _ _ _ _ hadopt =>
    (Thumbnails.illustrates_of_adopt hadopt).1
  have hspares : ∀ deed ∈ w.deeds c.interrupted p (source.events.take c.handled),
      deed.Spares False id := by
    intro deed hdeed
    refine ⟨?_, .inr (hdeeds deed hdeed)⟩
    rintro rfl
    exact hdeeds _ hdeed rfl
  rw [w.engine_run]
  refine Worker.keeping_settle hgives hserves ?_ nofun
    (fun deed hdeed => hspares deed (List.mem_append_right _ hdeed)) nofun
  exact Worker.keeping_events hgives hserves _ hstart
    (fun r hr => hbrings r (List.mem_of_mem_take hr))
    (fun deed hdeed => hspares deed (List.mem_append_left _ hdeed))

/-- A second run over the article is interrupted once it has adopted the thumbnail again. -/
theorem images_kept_interrupted :
    let x := Sample.ingestion {} 900
    let engine : MemoryEngine := { index := ⟨[⟨Sample.task.id, none, Sample.images⟩]⟩ }
    let q := Sample.worker.run (fun _ handled => decide (2 ≤ handled))
      (Sample.source [Sample.illustrated]) default
      (x.pipeline (⟨engine, []⟩ : Recorded MemoryEngine) Sample.job (Sample.disk Sample.shelf))
    q.writer.engine.engine.index.Shows (·.hasImages = true) Sample.task.id := by
  intro x engine q
  obtain ⟨hhandled, hdeeds⟩ := Sample.handle_announced engine Sample.clear_shelf
  have hall : Sample.worker.deeds true
        (x.pipeline (⟨engine, []⟩ : Recorded MemoryEngine) Sample.job (Sample.disk Sample.shelf))
        [.discovered 1, .record Sample.illustrated] =
      [.adopted Sample.task.id Sample.images] := by
    have hannounced : Sample.worker.handle (x.pipeline (⟨engine, []⟩ : Recorded MemoryEngine)
        Sample.job (Sample.disk Sample.shelf)) (.discovered 1) =
      Sample.announced engine Sample.shelf := rfl
    rw [Worker.deeds, Worker.eventsDeeds, Worker.eventsDeeds, List.foldl_cons, List.foldl_cons,
      hannounced, hdeeds, hhandled]
    rfl
  have hshown : engine.index.Shows (·.hasImages = true) Sample.task.id := by decide +kernel
  refine images_kept MemoryEngine.serves hshown ?_ ?_
  · intro r hr _ _
    obtain rfl : r = Sample.illustrated := by simpa [Sample.source, Event.announced] using hr
    rfl
  · show ∀ deed ∈ Sample.worker.deeds true _ [.discovered 1, .record Sample.illustrated], _
    rw [hall]
    rintro deed hdeed
    rw [List.mem_singleton.mp hdeed]
    exact id

/-- Under pressure the second run leaves the thumbnail for later, and an interruption gives it
up: the object without images has replaced the one with them, while the thumbnail of the first run
is on disk as before. -/
theorem images_lost_by_interruption :
    let x := Sample.ingestion {} 900
    let first := Sample.worker.run (fun _ _ => false) (Sample.source [Sample.illustrated]) default
      (x.pipeline (⟨({} : MemoryEngine), []⟩ : Recorded MemoryEngine) Sample.job (Sample.disk []))
    let x' := Sample.ingestion { sampleInterval := 1 } 50
    let second := Sample.worker.run (fun _ handled => decide (2 ≤ handled))
      (Sample.source [Sample.illustrated]) default
      (x'.pipeline (⟨first.writer.engine.engine, []⟩ : Recorded MemoryEngine) Sample.job
        (Sample.disk Sample.shelf))
    first.writer.job.status = .completed ∧
      first.writer.engine.engine.index.Shows (·.hasImages = true) Sample.task.id ∧
      x.thumbnails.names first.disk Sample.task.id = .ok [Text.encode Sample.shelfName] ∧
      x'.thumbnails.names second.disk Sample.task.id = .ok [Text.encode Sample.shelfName] ∧
      ¬ second.writer.engine.engine.index.Shows (·.hasImages = true) Sample.task.id := by
  intro x first x' second
  have hfirst : first = Worker.conclude {} false default (Worker.settle false
      (Sample.handled {} [])) := Sample.run_illustrated {} Sample.clear_nil
  have hsecond : second = Worker.conclude {} true default (Worker.settle true
      (Sample.left first.writer.engine.engine)) := Sample.run_interrupted _
  have hadopted : x.thumbnails.names (Sample.shelved Sample.shelfName) Sample.task.id =
    .ok [Text.encode Sample.shelfName] := by cbv
  have hkept : x'.thumbnails.names (Sample.disk Sample.shelf) Sample.task.id =
    .ok [Text.encode Sample.shelfName] := by cbv
  rw [hfirst] at hsecond
  refine ⟨by rw [hfirst]; decide +kernel, by rw [hfirst]; decide +kernel, ?_, ?_, ?_⟩
  · rw [hfirst]
    exact hadopted
  · rw [hsecond]
    exact hkept
  · rw [hsecond]
    decide +kernel

end Runs

end Corpus
