/-
Corpus/Proofs/Keeping.lean

Image fields that are kept.

A document that is added replaces the whole object, so the fields of its images are gone until
they are patched in.  As long as every record of a document brings thumbnails this is only for a
time: the task waits in the backlog until the batch is flushed, its patch is sent while nothing is
pending, and so no document without images can come after it.  In the end the object shows its
images, unless one of the deeds of the run has lost them.

The invariant `Keeps` says where the fields are at each moment: still to be made in the backlog,
among the patches collected, or in the index once the pending documents are added to it.
-/
import Corpus.Proofs.Deeds

namespace Corpus

variable {ε : Type} [SearchEngine ε] {index : ε → Index}

/-! ### Calls and the index -/

/-- A flush adds what was pending or leaves the index alone. -/
theorem Writer.index_flush (hserves : SearchEngine.Serves index) (w : Writer (Recorded ε)) :
    index w.flush.2.engine.engine = index w.engine.engine ∨
      index w.flush.2.engine.engine = (index w.engine.engine).addAll w.pending := by
  rcases w.engine_flush with ⟨-, h⟩ | ⟨-, h⟩
  · rw [h]
    exact .inl rfl
  · rw [h, (w.engine.commit_add w.commitTimeout w.pending).2, hserves.commit_add]
    exact hserves.add w.engine.engine w.pending

/-- Patches are applied, or the index stays as it is and the failure is told. -/
theorem Pipeline.index_send (hserves : SearchEngine.Serves index) (p : Pipeline (Recorded ε))
    {patches : List ImagePatch} (hsome : patches ≠ []) (r : DrainReport) :
    ∃ done, p.sendDeeds patches = [.patched (patches.map (·.id)) done] ∧
      (index (p.send patches r).2.writer.engine.engine =
          (index p.writer.engine.engine).updateAll patches ∨
        done = false ∧
          index (p.send patches r).2.writer.engine.engine = index p.writer.engine.engine) := by
  have hne : patches.isEmpty = false := by simpa using hsome
  obtain ⟨hresult, hengine⟩ :=
    p.writer.engine.commit_update p.writer.maintenanceTimeout patches
  have hindex := hserves.commit_update p.writer.engine.engine p.writer.maintenanceTimeout patches
  rw [← hengine] at hindex
  refine ⟨_, by rw [sendDeeds, if_neg (by simp [hne])], ?_⟩
  rcases send_cases p patches r with ⟨h, -⟩ | ⟨-, engine, _, hc, h⟩ | ⟨-, fault, engine, hc, h⟩
  · exact absurd h hsome
  · rw [hc] at hresult hindex
    rw [h]
    exact .inl (hindex.trans (hserves.updated _ _ _ hresult.symm))
  · rw [hc] at hindex
    rw [h]
    rcases hserves.update p.writer.engine.engine patches with hsame | happlied
    · refine .inr ⟨?_, hindex.trans hsame⟩
      rw [Writer.patch, if_neg (by simp [hne]), hc]
      rfl
    · exact .inl (hindex.trans happlied)

namespace Pipeline

omit [SearchEngine ε] in
/-- Giving the backlog up asks nothing of the engine. -/
theorem engine_abandon (p : Pipeline ε) (reason : String) :
    (p.abandon reason).2.writer.engine = p.writer.engine := by
  rw [abandon]
  dsimp only
  split <;> rfl

end Pipeline

/-! ### Where the fields are -/

/-- Whatever adoption says of the images of a document is as wanted. -/
def Thumbnails.Gives (t : Thumbnails) (wanted : ImageMetadata → Prop) (id : String) : Prop :=
  ∀ d staging images d', t.adopt d staging id = (.ok images, d') → wanted images

/-- The deed does not concern the document, or cannot happen. -/
def ImageDeed.Spares (sure : Prop) (id : String) (deed : ImageDeed) : Prop :=
  deed ≠ .missed id ∧ (sure ∨ ¬ deed.Loses id)

/-- The image fields of a document are still to be made in the backlog, among the patches
collected, or shown by the index once what is pending is added.  If calls may fail, which is so
unless one is `sure`, they are shown already, and documents that are pending have them as well. -/
structure Pipeline.Keeps (index : ε → Index) (t : Thumbnails) (wanted : ImageMetadata → Prop)
    (id : String) (sure : Prop) (patches : List ImagePatch) (p : Pipeline (Recorded ε)) :
    Prop where
  thumbnails : p.thumbnails = t
  good : ∀ patch ∈ patches, patch.id = id → wanted patch.images
  kept : id ∈ p.backlog.map (·.id) ∨ id ∈ patches.map (·.id) ∨
    ((index p.writer.engine.engine).addAll p.writer.pending).Shows wanted id ∧
      (sure ∨ (index p.writer.engine.engine).Shows wanted id)

/-- The same as long as no call has failed that cannot fail. -/
def Pipeline.Keeping (index : ε → Index) (t : Thumbnails) (wanted : ImageMetadata → Prop)
    (id : String) (sure : Prop) (patches : List ImagePatch) (p : Pipeline (Recorded ε)) : Prop :=
  (sure → p.writer.engine.Unfailing) → p.Keeps index t wanted id sure patches

section Steps

variable {t : Thumbnails} {wanted : ImageMetadata → Prop} {id : String} {sure : Prop}
  {patches : List ImagePatch} {p : Pipeline (Recorded ε)}

open Pipeline (takeUp_cases takeUp_frame takeUpSome_keeps send_frame settle_eq send_of_unfailing
  index_send)

omit [SearchEngine ε] in
theorem Pipeline.Keeps.takeUp (h : p.Keeps index t wanted id sure patches)
    (hwanted : t.Gives wanted id)
    {task : ImageTask} {rest : List ImageTask} (hb : p.backlog = task :: rest)
    (hdeed : p.takeUpDeed task ≠ .missed id) (r : DrainReport) :
    (p.takeUp task rest patches r).2.2.Keeps index t wanted id sure
      (p.takeUp task rest patches r).1 := by
  -- a task whose thumbnails are missed is for another document
  have hlost : p.takeUpDeed task = .missed task.id →
      id ∈ rest.map (·.id) ∨ id ∈ patches.map (·.id) ∨
        ((index p.writer.engine.engine).addAll p.writer.pending).Shows wanted id ∧
          (sure ∨ (index p.writer.engine.engine).Shows wanted id) := by
    intro hmissed
    have hne : id ≠ task.id := by
      rintro rfl
      exact hdeed hmissed
    refine h.kept.imp_left fun hmem => ?_
    rw [hb, List.map_cons, List.mem_cons] at hmem
    exact hmem.resolve_left hne
  rcases takeUp_cases p task rest patches r with
    ⟨hrejected, heq⟩ | ⟨hrejected, images, disk, hadopt, heq⟩ |
    ⟨hrejected, fault, disk, hadopt, heq⟩
  · rw [heq]
    exact ⟨h.thumbnails, h.good, hlost (by rw [takeUpDeed, hrejected]; rfl)⟩
  · rw [heq]
    refine ⟨h.thumbnails, ?_, ?_⟩
    · intro patch hpatch hid
      rcases List.mem_append.mp hpatch with hold | hnew
      · exact h.good patch hold hid
      · obtain rfl := List.mem_singleton.mp hnew
        subst hid
        rw [h.thumbnails] at hadopt
        exact hwanted _ _ _ _ hadopt
    · -- a task of the document turns into a patch for it
      rw [List.map_append, List.mem_append]
      rcases h.kept with hwaiting | hcollected | hshown
      · rw [hb, List.map_cons, List.mem_cons] at hwaiting
        rcases hwaiting with heq | hwaiting
        · exact .inr (.inl (.inr (by simp [heq])))
        · exact .inl hwaiting
      · exact .inr (.inl (.inl hcollected))
      · exact .inr (.inr hshown)
  · rw [heq]
    exact ⟨h.thumbnails, h.good, hlost (by rw [takeUpDeed, hrejected, hadopt]; rfl)⟩

namespace Pipeline.Keeping

omit [SearchEngine ε] in
theorem watch (h : p.Keeping index t wanted id sure patches) (monitor : Monitor) :
    (p.watch monitor).Keeping index t wanted id sure patches :=
  fun hcalls => ⟨(h hcalls).thumbnails, (h hcalls).good, (h hcalls).kept⟩

omit [SearchEngine ε] in
theorem report (h : p.Keeping index t wanted id sure patches) (change : Job → Job) :
    (p.report change).Keeping index t wanted id sure patches :=
  fun hcalls => ⟨(h hcalls).thumbnails, (h hcalls).good, (h hcalls).kept⟩

omit [SearchEngine ε] in
theorem takeUp (h : p.Keeping index t wanted id sure patches)
    (hwanted : t.Gives wanted id)
    {task : ImageTask} {rest : List ImageTask} (hb : p.backlog = task :: rest)
    (hdeed : p.takeUpDeed task ≠ .missed id) (r : DrainReport) :
    (p.takeUp task rest patches r).2.2.Keeping index t wanted id sure
      (p.takeUp task rest patches r).1 := by
  intro hcalls
  rw [(takeUp_frame p task rest patches r).1] at hcalls
  exact (h hcalls).takeUp hwanted hb hdeed r

/-- With nothing pending, patches that are sent reach the index. -/
theorem send (h : p.Keeping index t wanted id sure patches) (hserves : SearchEngine.Serves index)
    (hidle : p.writer.pending = [])
    (hdeeds : ∀ deed ∈ p.sendDeeds patches, deed.Spares sure id) (r : DrainReport) :
    (p.send patches r).2.Keeping index t wanted id sure [] := by
  intro hcalls
  by_cases hnone : patches = []
  · subst hnone
    exact h hcalls
  have hbefore := h fun hsure => (send_of_unfailing hserves (hcalls hsure)).1
  obtain ⟨hpending, -, hbacklog, -, -, hthumbnails, -⟩ := send_frame p patches r
  refine ⟨hthumbnails.trans hbefore.thumbnails, nofun, ?_⟩
  obtain ⟨done, hsend, hindex⟩ := index_send hserves p hnone r
  have hshown : id ∈ patches.map (·.id) ∨ (index p.writer.engine.engine).Shows wanted id →
      (index (p.send patches r).2.writer.engine.engine).Shows wanted id := by
    intro hthere
    have happlied := Index.shows_updateAll hbefore.good hthere
    rcases hindex with heq | ⟨rfl, heq⟩
    · rw [heq]
      exact happlied
    · -- the patches failed, so the document was not among them, or they cannot have failed
      rcases (hdeeds _ (by rw [hsend]; exact List.mem_cons_self)).2 with hsure | hspared
      · obtain ⟨-, engine, stats, hsent, hupdated⟩ := send_of_unfailing hserves (hcalls hsure)
        rw [hsent]
        exact hupdated ▸ happlied
      · rw [heq]
        exact hthere.resolve_left fun hmem => hspared ⟨rfl, hmem⟩
  -- nothing is pending, so what the object shows is what the index holds
  rw [hbacklog, hpending, hidle]
  rcases hbefore.kept with hwaiting | hcollected | ⟨hthere, -⟩
  · exact .inl hwaiting
  · exact .inr (.inr ⟨hshown (.inl hcollected), .inr (hshown (.inl hcollected))⟩)
  · rw [hidle] at hthere
    exact .inr (.inr ⟨hshown (.inr hthere), .inr (hshown (.inr hthere))⟩)

omit [SearchEngine ε] in
theorem takeUpSome
    (hwanted : t.Gives wanted id)
    (n : Nat) : ∀ p patches r, p.Keeping index t wanted id sure patches →
      (∀ deed ∈ someDeeds n p patches r, deed ≠ .missed id) →
      (takeUpSome n p patches r).2.2.Keeping index t wanted id sure
        (takeUpSome n p patches r).1 := by
  induction n with
  | zero => exact fun _ _ _ h _ => h
  | succ n ih =>
    intro p patches r h hdeeds
    rw [Pipeline.takeUpSome]
    rw [someDeeds] at hdeeds
    cases hb : p.backlog with
    | nil => exact h
    | cons task rest =>
      rw [hb] at hdeeds
      exact ih _ _ _ (h.takeUp hwanted hb (hdeeds _ List.mem_cons_self) r)
        fun deed hdeed => hdeeds deed (List.mem_cons_of_mem _ hdeed)

theorem drainChunk (h : p.Keeping index t wanted id sure [])
    (hwanted : t.Gives wanted id)
    (hserves : SearchEngine.Serves index) (hidle : p.writer.pending = [])
    (hdeeds : ∀ deed ∈ p.chunkDeeds, deed.Spares sure id) :
    p.drainChunk.2.Keeping index t wanted id sure [] := by
  have htaken := takeUpSome hwanted (max p.deferred.drainChunk.toNat 1) p [] {} h
    fun deed hdeed => (hdeeds deed (List.mem_append_left _ hdeed)).1
  have hpending := takeUpSome_keeps (I := fun _ _ q => q.writer.pending = [])
    (fun task rest patches r q _ hq => (takeUp_frame q task rest patches r).2.1.trans hq)
    (max p.deferred.drainChunk.toNat 1) p [] {} hidle
  exact htaken.send hserves hpending
    (fun deed hdeed => hdeeds deed (List.mem_append_right _ hdeed)) _

theorem drainTasks
    (hwanted : t.Gives wanted id)
    (hserves : SearchEngine.Serves index) (tasks : List ImageTask) :
    ∀ p patches r, p.backlog = tasks → p.writer.pending = [] →
      p.Keeping index t wanted id sure patches →
      (∀ deed ∈ taskDeeds tasks p patches r, deed.Spares sure id) →
      ((drainTasks tasks p patches r).2.2.send (drainTasks tasks p patches r).1
        (drainTasks tasks p patches r).2.1).2.Keeping index t wanted id sure [] := by
  induction tasks with
  | nil => exact fun p patches r _ hidle h hdeeds => h.send hserves hidle hdeeds r
  | cons task rest ih =>
    intro p patches r hb hidle h hdeeds
    rw [taskDeeds] at hdeeds
    rw [Pipeline.drainTasks]
    have htaken := h.takeUp hwanted hb (hdeeds _ List.mem_cons_self).1 r
    have hframe := takeUp_frame p task rest patches r
    generalize p.takeUp task rest patches r = taken at htaken hframe hdeeds ⊢
    obtain ⟨patches', r', q⟩ := taken
    obtain ⟨-, hpending, -, hbacklog, -⟩ := hframe
    dsimp only at htaken hpending hbacklog hdeeds ⊢
    split
    · rename_i hfull
      rw [if_pos hfull] at hdeeds
      have hsent := htaken.send hserves (hpending.trans hidle)
        (fun deed hdeed => hdeeds deed
          (List.mem_cons_of_mem _ (List.mem_append_left _ hdeed))) r'
      obtain ⟨monitor, hm⟩ := settle_eq (q.send patches' r').2
      obtain ⟨hpending', -, hbacklog', -⟩ := send_frame q patches' r'
      rw [hm] at hdeeds ⊢
      exact ih ((q.send patches' r').2.watch monitor) _ _ (hbacklog'.trans hbacklog)
        (hpending'.trans (hpending.trans hidle)) (hsent.watch monitor)
        fun deed hdeed => hdeeds deed (List.mem_cons_of_mem _ (List.mem_append_right _ hdeed))
    · rename_i hspace
      rw [if_neg hspace] at hdeeds
      exact ih q patches' r' hbacklog (hpending.trans hidle) htaken
        fun deed hdeed => hdeeds deed (List.mem_cons_of_mem _ hdeed)

theorem drainAll (h : p.Keeping index t wanted id sure [])
    (hwanted : t.Gives wanted id)
    (hserves : SearchEngine.Serves index) (hidle : p.writer.pending = [])
    (hdeeds : ∀ deed ∈ p.drainDeeds, deed.Spares sure id) :
    p.drainAll.2.Keeping index t wanted id sure [] := by
  cases hempty : p.backlog.isEmpty with
  | true =>
    rw [drainAll_of_isEmpty hempty]
    exact h
  | false =>
    rw [drainAll_of_not_isEmpty hempty]
    rw [drainDeeds, if_neg (by simp [hempty])] at hdeeds
    exact drainTasks hwanted hserves p.backlog p.rested [] {} (rested_backlog p)
      ((congrArg Writer.pending (rested_writer p)).trans hidle) (h.watch _) hdeeds

/-- A flush puts what was pending into the index, or changes nothing that is shown. -/
theorem flush (h : p.Keeping index t wanted id sure []) (hserves : SearchEngine.Serves index) :
    Pipeline.Keeping index t wanted id sure [] { p with writer := p.writer.flush.2 } := by
  intro hcalls
  have hbefore := h fun hsure => (Writer.flush_of_unfailing hserves (hcalls hsure)).1
  refine ⟨hbefore.thumbnails, nofun, ?_⟩
  rcases hbefore.kept with hwaiting | hcollected | ⟨hnext, hnow⟩
  · exact .inl hwaiting
  · exact absurd hcollected (by simp)
  · -- either the batch arrives, or the index showed the fields before and may take it or not
    have hshown : (index p.writer.flush.2.engine.engine).Shows wanted id := by
      rcases hnow with hsure | hnow
      · obtain ⟨-, engine, _, _, hflush, hindex⟩ :=
          Writer.flush_of_unfailing hserves (hcalls hsure)
        rw [hflush]
        exact hindex.1 ▸ hnext
      · rcases p.writer.index_flush hserves with heq | heq
        · rw [heq]
          exact hnow
        · rw [heq]
          exact hnext
    rw [show ({ p with writer := p.writer.flush.2 } : Pipeline _).writer.pending = [] from
      Writer.flush_pending p.writer]
    exact .inr (.inr ⟨hshown, .inr hshown⟩)

end Pipeline.Keeping

/-! ### Events -/

namespace Worker

variable {w : Worker} {r : Record} {d : Document}

omit [SearchEngine ε] in
/-- What waits in the backlog goes on waiting while a record is taken up. -/
theorem backlog_subset_attachImages (r : Record) (d : Document) (p : Pipeline ε) :
    p.backlog ⊆ (attachImages r d p).2.backlog := by
  intro task htask
  rcases attachImages_cases r d p with
    ⟨-, ha⟩ | ⟨_, -, ⟨-, ha⟩ | ⟨-, _, _, -, ha⟩ | ⟨-, _, _, -, ha⟩⟩
  · rwa [ha]
  · rw [ha]
    exact List.mem_append_left _ htask
  · rwa [ha]
  · rwa [ha]

omit [SearchEngine ε] in
/-- A document whose record brings thumbnails gets its fields, or a task for them. -/
theorem attach_brings {p : Pipeline ε} (hwanted : p.thumbnails.Gives wanted d.id)
    (hbrings : r.staging?.isSome = true)
    (hdeeds : ∀ deed ∈ attachDeeds r d p, deed ≠ .missed d.id) :
    d.id ∈ (attachImages r d p).2.backlog.map (·.id) ∨ wanted (attachImages r d p).1.images := by
  obtain ⟨staging, hstaging⟩ := Option.isSome_iff_exists.mp hbrings
  rw [attachDeeds, hstaging] at hdeeds
  rcases attachImages_cases r d p with
    ⟨hnone, -⟩ | ⟨staging', hstaging', ⟨-, ha⟩ | ⟨-, images, disk, hadopt, ha⟩ |
      ⟨hnow, fault, disk, hadopt, ha⟩⟩
  · rw [hstaging] at hnone
    cases hnone
  · rw [ha]
    exact .inl (by simp [Pipeline.postpone, Pipeline.setBacklog, Pipeline.report])
  · rw [ha]
    exact .inr (hwanted _ _ _ _ hadopt)
  · rw [hstaging] at hstaging'
    cases hstaging'
    simp [hnow, hadopt] at hdeeds

omit [SearchEngine ε] in
/-- A document that brings thumbnails is pending with its fields, or they are left for later.
Where no call fails, it does not matter what was known of the document before. -/
theorem keeping_attach (hwanted : t.Gives wanted id)
    (h : (sure → p.writer.engine.Unfailing) →
      p.Keeps index t wanted id sure [] ∨ sure ∧ p.thumbnails = t ∧ d.id = id)
    (hbrings : d.id = id → r.staging?.isSome = true)
    (hdeeds : ∀ deed ∈ attachDeeds r d p, deed ≠ .missed id) :
    let attached := attachImages r d p
    Pipeline.Keeping index t wanted id sure [] { attached.2 with
      writer := { attached.2.writer with
        pending := attached.2.writer.pending ++ [attached.1] } } := by
  intro attached hcalls
  obtain ⟨hengine, hpending, -, -, hthumbnails, -⟩ := attachImages_frame r d p
  have hbefore := h fun hsure => by
    rw [← hengine]
    exact hcalls hsure
  have ht : p.thumbnails = t := hbefore.elim (·.thumbnails) (·.2.1)
  have hwaits : id ∈ p.backlog.map (·.id) → id ∈ attached.2.backlog.map (·.id) := fun hmem =>
    List.map_subset _ (backlog_subset_attachImages r d p) hmem
  refine ⟨hthumbnails.trans ht, nofun, ?_⟩
  show id ∈ attached.2.backlog.map (·.id) ∨ id ∈ [] ∨
    ((index attached.2.writer.engine.engine).addAll
      (attached.2.writer.pending ++ [attached.1])).Shows wanted id ∧
      (sure ∨ (index attached.2.writer.engine.engine).Shows wanted id)
  rw [hengine, hpending, Index.addAll_append,
    show ∀ x : Index, x.addAll [attached.1] = x.add attached.1 from fun _ => rfl,
    Index.shows_add, attachImages_id]
  by_cases hid : d.id = id
  · -- the document itself: with its fields, or with a task for them
    subst hid
    rw [if_pos rfl]
    rcases attach_brings (ht ▸ hwanted) (hbrings rfl) hdeeds with hleft | himages
    · exact .inl hleft
    · rcases hbefore with hkeeps | ⟨hsure, -⟩
      · rcases hkeeps.kept with hwaiting | hcollected | ⟨-, hnow⟩
        · exact .inl (hwaits hwaiting)
        · exact absurd hcollected List.not_mem_nil
        · exact .inr (.inr ⟨himages, hnow⟩)
      · exact .inr (.inr ⟨himages, .inl hsure⟩)
  · -- another document, which replaces another object
    rw [if_neg (Ne.symm hid)]
    have hkeeps := hbefore.resolve_right fun h => hid h.2.2
    rcases hkeeps.kept with hwaiting | hcollected | hshown
    · exact .inl (hwaits hwaiting)
    · exact absurd hcollected List.not_mem_nil
    · exact .inr (.inr hshown)

/-- Handing a document to the writer keeps what holding it keeps. -/
theorem keeping_write (hwanted : t.Gives wanted id) (hserves : SearchEngine.Serves index)
    (h : Pipeline.Keeping index t wanted id sure []
      { p with writer := { p.writer with pending := p.writer.pending ++ [d] } })
    (hdeeds : ∀ deed ∈ writeDeeds d p, deed.Spares sure id) :
    (write d p).Keeping index t wanted id sure [] := by
  rcases writeDeeds_cases d p with heq | ⟨q, hq, hwrite⟩
  · rw [heq]
    exact h
  · have hflushed : q.Keeping index t wanted id sure [] := by
      rw [hq]
      exact h.flush hserves
    rcases hwrite with heq | ⟨heq, hchunk⟩
    · rw [heq]
      exact hflushed
    · rw [heq]
      rw [hchunk] at hdeeds
      exact hflushed.drainChunk hwanted hserves (by rw [hq]; exact Writer.flush_pending _) hdeeds

/-- **One record** keeps the fields of a document, or brings them itself. -/
theorem keeping_record (hwanted : t.Gives wanted id) (hserves : SearchEngine.Serves index)
    (h : p.Keeping index t wanted id sure [] ∨
      sure ∧ p.thumbnails = t ∧ w.isSubstantial r = true ∧ (w.documentOf r).id = id)
    (hbrings : w.isSubstantial r = true → (w.documentOf r).id = id → r.staging?.isSome = true)
    (hdeeds : ∀ deed ∈ w.eventDeeds p (.record r), deed.Spares sure id) :
    (w.handleRecord r p).Keeping index t wanted id sure [] := by
  obtain ⟨change, hnoted⟩ := noteSkip_eq r (p.watch p.monitor.check)
  rw [handleRecord_eq, hnoted]
  rw [eventDeeds, hnoted] at hdeeds
  split
  · rename_i hsubstantial
    rw [if_pos hsubstantial] at hdeeds
    refine keeping_write hwanted hserves (keeping_attach hwanted ?_ (hbrings hsubstantial)
      fun deed hdeed => (hdeeds deed (List.mem_append_left _ hdeed)).1)
      fun deed hdeed => hdeeds deed (List.mem_append_right _ hdeed)
    intro hcalls
    rcases h with hkeeping | ⟨hsure, hthumbnails, -, hid⟩
    · exact .inl (((hkeeping.watch _).report change) hcalls)
    · exact .inr ⟨hsure, hthumbnails, hid⟩
  · rename_i hthin
    rcases h with hkeeping | ⟨-, -, hsubstantial, -⟩
    · exact ((hkeeping.watch _).report change).report _
    · exact absurd hsubstantial hthin

/-- **One event** keeps the fields of a document unless it hands the document over without any. -/
theorem keeping_handle (hwanted : t.Gives wanted id) (hserves : SearchEngine.Serves index)
    (h : p.Keeping index t wanted id sure []) {e : Event}
    (hbrings : ∀ r, e = .record r → w.isSubstantial r = true → (w.documentOf r).id = id →
      r.staging?.isSome = true)
    (hdeeds : ∀ deed ∈ w.eventDeeds p e, deed.Spares sure id) :
    (w.handle p e).Keeping index t wanted id sure [] := by
  cases e with
  | discovered _ | skipped _ | failed _ _ | notice _ => exact h.report _
  | record r => exact keeping_record hwanted hserves (.inl h) (hbrings r rfl) hdeeds

/-- Events keep the fields of a document, one after the other. -/
theorem keeping_events (hwanted : t.Gives wanted id) (hserves : SearchEngine.Serves index)
    (events : List Event) :
    ∀ {p : Pipeline (Recorded ε)}, p.Keeping index t wanted id sure [] →
      (∀ r, .record r ∈ events → w.isSubstantial r = true → (w.documentOf r).id = id →
        r.staging?.isSome = true) →
      (∀ deed ∈ w.eventsDeeds p events, deed.Spares sure id) →
      (events.foldl w.handle p).Keeping index t wanted id sure [] := by
  induction events with
  | nil => exact fun h _ _ => h
  | cons e rest ih =>
    intro p h hbrings hdeeds
    refine ih (keeping_handle hwanted hserves h ?_ ?_) ?_ ?_
    · rintro r rfl
      exact hbrings r List.mem_cons_self
    · exact fun deed hdeed => hdeeds deed (List.mem_append_left _ hdeed)
    · exact fun r hr => hbrings r (List.mem_cons_of_mem e hr)
    · exact fun deed hdeed => hdeeds deed (List.mem_append_right _ hdeed)

/-- At the end of a run the index shows the fields that were kept. -/
theorem keeping_settle (hwanted : t.Gives wanted id) (hserves : SearchEngine.Serves index)
    (h : p.Keeping index t wanted id sure []) {interrupted : Bool}
    (hended : sure → interrupted = false)
    (hdeeds : ∀ deed ∈ settleDeeds interrupted p, deed.Spares sure id)
    (hcalls : sure → (settle interrupted p).writer.engine.Unfailing) :
    (index (settle interrupted p).writer.engine.engine).Shows wanted id := by
  have hflushed := h.flush hserves
  have hidle : ({ p with writer := p.writer.flush.2 } : Pipeline _).writer.pending = [] :=
    Writer.flush_pending p.writer
  cases interrupted with
  | true =>
    have hunsure : ¬ sure := fun hsure => absurd (hended hsure) (by decide)
    rw [settleDeeds, if_pos rfl] at hdeeds
    rw [settle, if_pos rfl]
    generalize ({ p with writer := p.writer.flush.2 } : Pipeline (Recorded ε)) = q at *
    rw [q.engine_abandon]
    rw [Pipeline.abandonDeeds] at hdeeds
    -- had it waited, giving the backlog up would be a deed that loses it
    have hgone : id ∉ q.backlog.map (·.id) := by
      intro hmem
      have hsome : q.backlog.isEmpty = false := by
        cases hb : q.backlog with
        | nil => simp [hb] at hmem
        | cons task rest => rfl
      rw [if_neg (by simp [hsome])] at hdeeds
      exact ((hdeeds _ List.mem_cons_self).2.resolve_left hunsure) hmem
    have hkept := (hflushed fun hsure => absurd hsure hunsure).kept
    exact (((hkept.resolve_left hgone).resolve_left (by simp)).2.resolve_left hunsure)
  | false =>
    rw [settleDeeds, if_neg Bool.false_ne_true] at hdeeds
    have hdrained := (hflushed.drainAll hwanted hserves hidle hdeeds hcalls).kept
    obtain ⟨hpending, hbacklog⟩ :=
      Pipeline.drainAll_frame ({ p with writer := p.writer.flush.2 } : Pipeline (Recorded ε))
    rw [hbacklog, hpending, hidle] at hdrained
    exact ((hdrained.resolve_left (by simp)).resolve_left (by simp)).1

end Worker

end Steps

end Corpus
