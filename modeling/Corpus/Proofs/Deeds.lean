/-
Corpus/Proofs/Deeds.lean

What became of the images in a run.

A document gets the fields of its images in one of two ways: its thumbnails are adopted before it
is handed to the writer, or they are adopted later and the fields are sent as a patch.  Each of
these can fail, and what was left for later can be given up.  The deeds of a run list all that in
the order in which it happened.
-/
import Corpus.Proofs.Foresight

namespace Corpus

/-- What became of the images of documents. -/
inductive ImageDeed where
  /-- The thumbnails of a document were adopted. -/
  | adopted (id : String) (images : ImageMetadata)
  /-- They were not: their adoption failed, or the document was rejected before it. -/
  | missed (id : String)
  /-- The fields of documents were sent to the engine, which carried that out or failed to. -/
  | patched (ids : List String) (done : Bool)
  /-- Thumbnails that were left for later were given up. -/
  | abandoned (ids : List String)
  deriving DecidableEq, Repr

/-- The deed may leave a document without the fields of its images. -/
def ImageDeed.Loses (id : String) : ImageDeed → Prop
  | .adopted _ _ => False
  | .missed other => other = id
  | .patched ids done => done = false ∧ id ∈ ids
  | .abandoned ids => id ∈ ids

variable {ε : Type}

namespace Pipeline

/-- What becomes of the thumbnails of a task. -/
def takeUpDeed (p : Pipeline ε) (task : ImageTask) : ImageDeed :=
  if p.writer.isRejected task.id then .missed task.id
  else
    match (p.thumbnails.adopt p.disk task.staging task.id).1 with
    | .ok images => .adopted task.id images
    | .error _ => .missed task.id

/-- What becomes of up to `n` tasks of the backlog. -/
def someDeeds : Nat → Pipeline ε → List ImagePatch → DrainReport → List ImageDeed
  | 0, _, _, _ => []
  | n + 1, p, patches, r =>
    match p.backlog with
    | [] => []
    | task :: rest =>
      p.takeUpDeed task :: someDeeds n (p.takeUp task rest patches r).2.2
        (p.takeUp task rest patches r).1 (p.takeUp task rest patches r).2.1

/-- Giving the backlog up. -/
def abandonDeeds (p : Pipeline ε) : List ImageDeed :=
  if p.backlog.isEmpty then [] else [.abandoned (p.backlog.map (·.id))]

variable [SearchEngine ε]

/-- Sending patches. -/
def sendDeeds (p : Pipeline ε) (patches : List ImagePatch) : List ImageDeed :=
  if patches.isEmpty then []
  else [.patched (patches.map (·.id)) (p.writer.patch patches).1.isOk]

/-- Taking a chunk up. -/
def chunkDeeds (p : Pipeline ε) : List ImageDeed :=
  someDeeds (max p.deferred.drainChunk.toNat 1) p [] {} ++
    (takeUpSome (max p.deferred.drainChunk.toNat 1) p [] {}).2.2.sendDeeds
      (takeUpSome (max p.deferred.drainChunk.toNat 1) p [] {}).1

/-- Taking all given tasks up and sending their patches, the last ones included. -/
def taskDeeds : List ImageTask → Pipeline ε → List ImagePatch → DrainReport → List ImageDeed
  | [], p, patches, _ => p.sendDeeds patches
  | task :: rest, p, patches, r =>
    let (patches', r', q) := p.takeUp task rest patches r
    p.takeUpDeed task ::
      if max q.deferred.patchBatch.toNat 1 ≤ patches'.length then
        q.sendDeeds patches' ++ taskDeeds rest (q.send patches' r').2.settle [] (q.send patches' r').1
      else taskDeeds rest q patches' r'

/-- Taking the whole backlog up. -/
def drainDeeds (p : Pipeline ε) : List ImageDeed :=
  if p.backlog.isEmpty then [] else taskDeeds p.backlog p.rested [] {}

end Pipeline

namespace Worker

/-- What becomes of the thumbnails of a record when it is handled. -/
def attachDeeds (r : Record) (d : Document) (p : Pipeline ε) : List ImageDeed :=
  match r.staging? with
  | none => []
  | some staging =>
    if p.monitor.control.deferImages then []
    else
      match (p.thumbnails.adopt p.disk (.ofText staging) d.id).1 with
      | .ok images => [.adopted d.id images]
      | .error _ => [.missed d.id]

variable [SearchEngine ε]

/-- Handing a document to the writer. -/
def writeDeeds (d : Document) (p : Pipeline ε) : List ImageDeed :=
  match p.writer.push d p.monitor.control.batchSize with
  | (some _, writer) =>
    if !p.backlog.isEmpty && p.monitor.isCalm then { p with writer }.chunkDeeds else []
  | (none, _) => []

/-- Handling an event. -/
def eventDeeds (w : Worker) (p : Pipeline ε) : Event → List ImageDeed
  | .record r =>
    if w.isSubstantial r then
      let noted := noteSkip r (p.watch p.monitor.check)
      attachDeeds r (w.documentOf r) noted ++
        writeDeeds (attachImages r (w.documentOf r) noted).1
          (attachImages r (w.documentOf r) noted).2
    else []
  | _ => []

/-- Handling events one after the other. -/
def eventsDeeds (w : Worker) : Pipeline ε → List Event → List ImageDeed
  | _, [] => []
  | p, e :: rest => w.eventDeeds p e ++ w.eventsDeeds (w.handle p e) rest

/-- The end of a run. -/
def settleDeeds (interrupted : Bool) (p : Pipeline ε) : List ImageDeed :=
  if interrupted then { p with writer := p.writer.flush.2 }.abandonDeeds
  else { p with writer := p.writer.flush.2 }.drainDeeds

/-- What becomes of all images from some point of a run on, with so many events still to be
handled before its end. -/
def deeds (w : Worker) (interrupted : Bool) (p : Pipeline ε) (events : List Event) :
    List ImageDeed :=
  w.eventsDeeds p events ++ settleDeeds interrupted (events.foldl w.handle p)

/-- Only a document that fills a batch leads to deeds when it is written, those of a chunk. -/
theorem writeDeeds_cases (d : Document) (p : Pipeline ε) :
    write d p = { p with writer := { p.writer with pending := p.writer.pending ++ [d] } } ∨
    ∃ q : Pipeline ε, q = { p with
        writer := ({ p.writer with pending := p.writer.pending ++ [d] } : Writer ε).flush.2 } ∧
      (write d p = q ∨ write d p = q.drainChunk.2 ∧ writeDeeds d p = q.chunkDeeds) := by
  rcases write_cases d p with ⟨-, h⟩ | ⟨hfull, h⟩
  · exact .inl h
  · refine .inr ⟨_, rfl, ?_⟩
    rw [h, catchUp]
    split
    · rename_i hcalm
      refine .inr ⟨rfl, ?_⟩
      obtain ⟨report, hpush⟩ := Writer.push_of_full hfull
      rw [writeDeeds, hpush]
      exact if_pos hcalm
    · exact .inl rfl

end Worker

/-! ### What adopted thumbnails say -/

namespace Thumbnails

/-- The fields name an image that stands for the document, served below its own path. -/
def Illustrates (t : Thumbnails) (id : String) (images : ImageMetadata) : Prop :=
  images.hasImages = true ∧ ∃ name, images.firstImage = t.url id name

theorem illustrates_of_describe {t : Thumbnails} {d : Disk} {dir : Path} {id : String}
    {images : ImageMetadata} (h : t.describe d dir id = .ok images) : t.Illustrates id images := by
  rw [describe] at h
  split at h
  · rw [describeNames] at h
    dsimp only at h
    split at h
    · cases h
      exact ⟨rfl, _, rfl⟩
    · cases h
  · cases h

/-- Whatever adoption answers is said of the directory of the document. -/
theorem illustrates_of_adopt {t : Thumbnails} {d d' : Disk} {staging : Path} {id : String}
    {images : ImageMetadata} (h : t.adopt d staging id = (.ok images, d')) :
    t.Illustrates id images := by
  rw [adopt] at h
  split at h
  · split at h
    · exact illustrates_of_describe (Prod.mk.inj h).1
    · cases (Prod.mk.inj h).1
  -- only the last branch describes, the other ones end in what failed
  · repeat' split at h
    all_goals first
      | exact illustrates_of_describe (Prod.mk.inj h).1
      | cases (Prod.mk.inj h).1

end Thumbnails

/-! ### Objects that show images -/

namespace Index

/-- The object with the identifier is there, and its image fields are as wanted. -/
def Shows (x : Index) (wanted : ImageMetadata → Prop) (id : String) : Prop :=
  ∃ o, x.get? id = some o ∧ wanted o.images

variable {x : Index} {wanted : ImageMetadata → Prop} {id : String}

instance [DecidablePred wanted] : Decidable (x.Shows wanted id) :=
  decidable_of_iff ((x.get? id).any fun o => decide (wanted o.images))
    (by simp [Shows, Option.any_eq_true])

theorem shows_add (d : Document) :
    (x.add d).Shows wanted id ↔ if id = d.id then wanted d.images else x.Shows wanted id := by
  rw [Shows, Shows, add, get?_put]
  split
  · simp
  · rfl

theorem shows_update (patch : ImagePatch) :
    (x.update patch).Shows wanted id ↔
      if id = patch.id then wanted patch.images else x.Shows wanted id := by
  rw [Shows, Shows, update, get?_put]
  split
  · simp
  · rfl

/-- What is shown after updates of which those of the object are as wanted. -/
theorem shows_updateAll {patches : List ImagePatch}
    (hwanted : ∀ patch ∈ patches, patch.id = id → wanted patch.images)
    (h : id ∈ patches.map (·.id) ∨ x.Shows wanted id) :
    (x.updateAll patches).Shows wanted id := by
  induction patches generalizing x with
  | nil => exact h.resolve_left (by simp)
  | cons patch patches ih =>
    -- a patch of the object makes it shown as wanted, and the later ones keep it so
    refine ih (x := x.update patch) (fun other hother =>
      hwanted other (List.mem_cons_of_mem patch hother)) ?_
    rw [shows_update]
    split
    · rename_i heq
      exact .inr (hwanted patch List.mem_cons_self heq.symm)
    · rename_i hne
      rw [List.map_cons, List.mem_cons] at h
      exact h.imp_left fun hmem => hmem.resolve_left hne

end Index

end Corpus
