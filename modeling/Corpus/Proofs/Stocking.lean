/-
Corpus/Proofs/Stocking.lean

What a run over plain records puts into the index.

A plain record names no directory of thumbnails, so its document goes to the writer as it is, and
nothing is left for later.  Unless a call of the engine fails, handing documents over, committing
them and ending the run keep one law:

    index with the pending documents added  =  first index with all documents handed over added

(`Pipeline.Stocked.objects`), and the documents indexed and pending are as many as were handed
over.  An index that was empty then has one object for each identifier of the documents
(`Index.length_addAll`).
-/
import Corpus.Proofs.Interruption
import Mathlib

namespace Corpus

namespace Index

/-- Adding documents lists no identifier twice. -/
theorem nodup_ids_addAll {x : Index} (h : x.ids.Nodup) (ds : List Document) :
    (x.addAll ds).ids.Nodup := by
  induction ds generalizing x with
  | nil => exact h
  | cons d rest ih =>
    refine ih ?_
    rw [add, put]
    split
    · -- the object of the identifier is exchanged
      have hids : (x.objects.map fun o => if o.id == d.id then ⟨d.id, some d, d.images⟩ else o).map
          (·.id) = x.ids := by
        rw [ids, List.map_map]
        refine List.map_congr_left fun o _ => ?_
        by_cases ho : o.id = d.id <;> simp [ho]
      rw [ids, hids]
      exact h
    · rename_i hnew
      have hfresh : d.id ∉ x.ids := by
        intro hmem
        obtain ⟨o, ho, hid⟩ := List.mem_map.mp hmem
        exact hnew (List.any_eq_true.mpr ⟨o, ho, by simpa using hid⟩)
      rw [ids, List.map_append, List.nodup_append]
      refine ⟨h, List.nodup_singleton _, fun id hid other hother => ?_⟩
      rw [List.mem_singleton.mp hother]
      exact fun heq => hfresh ((show id = d.id from heq) ▸ hid)

/-- An index has one object for each identifier of the documents that it was made from. -/
theorem length_addAll (ds : List Document) :
    (({} : Index).addAll ds).objects.length = (ds.map (·.id)).dedup.length := by
  have hperm : (({} : Index).addAll ds).ids.Perm (ds.map (·.id)).dedup := by
    refine (List.perm_ext_iff_of_nodup (nodup_ids_addAll (x := {}) List.nodup_nil ds)
      (List.nodup_dedup _)).mpr fun id => ?_
    rw [mem_ids_addAll, List.mem_dedup]
    simp [ids]
  rw [← hperm.length_eq, ids, List.length_map]

end Index

/-! ### The law -/

variable {ε : Type}

/-- Nothing is left for later, and unless a call has failed all documents handed over are in the
index or pending. -/
structure Pipeline.Stocks (index : ε → Index) (base : Index) (docs : List Document)
    (p : Pipeline (Recorded ε)) : Prop where
  backlog : p.backlog = []
  objects : p.writer.engine.Unfailing →
    (index p.writer.engine.engine).addAll p.writer.pending = base.addAll docs
  indexed : p.writer.engine.Unfailing →
    p.writer.job.tally.indexed + UInt64.ofNat p.writer.pending.length = UInt64.ofNat docs.length

namespace Pipeline.Stocks

variable {index : ε → Index} {base : Index} {docs : List Document} {p : Pipeline (Recorded ε)}

/-- A report that indexes nothing keeps the law. -/
theorem report (h : p.Stocks index base docs) {change : Job → Job}
    (hchange : (change p.writer.job).tally.indexed = p.writer.job.tally.indexed) :
    (p.report change).Stocks index base docs := by
  refine ⟨h.backlog, h.objects, fun hcalls => ?_⟩
  show (change p.writer.job).tally.indexed + _ = _
  rw [hchange]
  exact h.indexed hcalls

theorem watch (h : p.Stocks index base docs) (monitor : Monitor) :
    (p.watch monitor).Stocks index base docs :=
  ⟨h.backlog, h.objects, h.indexed⟩

/-- A document that is handed over is pending. -/
theorem hold (h : p.Stocks index base docs) (d : Document) :
    Stocks index base (docs ++ [d])
      { p with writer := { p.writer with pending := p.writer.pending ++ [d] } } := by
  refine ⟨h.backlog, fun hcalls => ?_, fun hcalls => ?_⟩
  · show (index p.writer.engine.engine).addAll (p.writer.pending ++ [d]) = _
    rw [Index.addAll_append, Index.addAll_append, h.objects hcalls]
  · show p.writer.job.tally.indexed + UInt64.ofNat (p.writer.pending ++ [d]).length = _
    rw [List.length_append, List.length_append, UInt64.ofNat_add, UInt64.ofNat_add,
      ← h.indexed hcalls, UInt64.add_assoc]

section Calls

variable [SearchEngine ε] (hserves : SearchEngine.Serves index)

include hserves

/-- Committing moves what is pending into the index. -/
theorem flush (h : p.Stocks index base docs) :
    Stocks index base docs { p with writer := p.writer.flush.2 } := by
  refine ⟨h.backlog, fun hcalls => ?_, fun hcalls => ?_⟩
  · obtain ⟨hbefore, engine, stats, job, heq, hindex, -⟩ :=
      Writer.flush_of_unfailing hserves hcalls
    rw [heq]
    show (index engine.engine).addAll [] = _
    rw [hindex, ← h.objects hbefore]
    rfl
  · obtain ⟨hbefore, engine, stats, job, heq, -, htally⟩ :=
      Writer.flush_of_unfailing hserves hcalls
    have hcount : job.tally.indexed + UInt64.ofNat 0 =
        p.writer.job.tally.indexed + UInt64.ofNat p.writer.pending.length :=
      congrArg Tally.indexed (htally 0 0)
    rw [heq]
    exact hcount.trans (h.indexed hbefore)

theorem write (h : p.Stocks index base docs) (d : Document) :
    (Worker.write d p).Stocks index base (docs ++ [d]) := by
  rcases Worker.write_cases d p with ⟨-, heq⟩ | ⟨-, heq⟩
  · rw [heq]
    exact h.hold d
  · -- there is no backlog to be taken up behind the commit
    have hflushed := (h.hold d).flush hserves
    rw [heq, Worker.catchUp, if_neg (by simp [h.backlog])]
    exact hflushed

end Calls

end Pipeline.Stocks

namespace Worker

variable [SearchEngine ε] {index : ε → Index} (hserves : SearchEngine.Serves index) (w : Worker)

include hserves

/-- **One event.**  A plain record with enough text hands its document over, nothing else does. -/
theorem stocks_handle {base : Index} {docs : List Document} {p : Pipeline (Recorded ε)}
    (h : p.Stocks index base docs) {e : Event} (hplain : ∀ r, e = .record r → r.staging? = none) :
    (w.handle p e).Stocks index base (docs ++ (w.documentOf? e).toList) := by
  cases e with
  | discovered _ | skipped _ | failed _ _ | notice _ =>
    show Pipeline.Stocks index base (docs ++ []) _
    rw [List.append_nil]
    exact h.report rfl
  | record r =>
    have hnoted : (noteSkip r (p.watch p.monitor.check)).Stocks index base docs := by
      rw [noteSkip]
      cases r.imageSkip? with
      | none => exact h.watch _
      | some reason => exact (h.watch _).report (by cases reason <;> rfl)
    -- a plain record has no thumbnails, so nothing comes between it and its document
    have hattach : attachImages r (w.documentOf r) (noteSkip r (p.watch p.monitor.check)) =
        (w.documentOf r, noteSkip r (p.watch p.monitor.check)) := by
      rw [attachImages, hplain r rfl]
    rw [handle, handleRecord_eq, hattach, documentOf?]
    split
    · exact hnoted.write hserves (w.documentOf r)
    · rw [Option.toList_none, List.append_nil]
      exact hnoted.report rfl

/-- Plain records hand over their documents, one after the other. -/
theorem stocks_events (events : List Event) (hplain : ∀ r, .record r ∈ events → r.staging? = none) :
    ∀ {base : Index} {docs : List Document} {p : Pipeline (Recorded ε)},
      p.Stocks index base docs →
      (events.foldl w.handle p).Stocks index base (docs ++ events.filterMap w.documentOf?) := by
  induction events with
  | nil =>
    intro base docs p h
    rw [List.filterMap_nil, List.append_nil]
    exact h
  | cons e rest ih =>
    intro base docs p h
    have hone := w.stocks_handle hserves h (e := e) fun r hr => hplain r (hr ▸ List.mem_cons_self)
    have hrest := ih (fun r hr => hplain r (List.mem_cons_of_mem e hr)) hone
    rw [List.append_assoc] at hrest
    rw [List.filterMap_cons]
    cases hd : w.documentOf? e <;>
    · rw [hd] at hrest
      exact hrest

/-- **A run.**  When no call fails and nothing interrupts, a run over plain records adds their
documents to the index in order, and counts them as indexed. -/
theorem run_stocks {interrupt : Recorded ε → Nat → Bool} {source : Source} (now : Instant)
    {p : Pipeline (Recorded ε)} (hbacklog : p.backlog = []) (hpending : p.writer.pending = [])
    (hindexed : p.writer.job.tally.indexed = 0)
    (hplain : ∀ r, .record r ∈ source.events → r.staging? = none)
    (hrunning : (w.consume interrupt source.events p).interrupted = false)
    (hcalls : (w.run interrupt source now p).writer.engine.Unfailing) :
    let q := w.run interrupt source now p
    let docs := source.events.filterMap w.documentOf?
    index q.writer.engine.engine = (index p.writer.engine.engine).addAll docs ∧
      q.writer.job.tally.indexed = UInt64.ofNat docs.length := by
  intro q docs
  have hstart : p.Stocks index (index p.writer.engine.engine) [] := by
    refine ⟨hbacklog, fun _ => by rw [hpending], fun _ => ?_⟩
    rw [hpending, hindexed]
    rfl
  obtain ⟨change, hrun, htally⟩ := run_of_not_interrupted hrunning now
  -- the last commit leaves nothing pending, so the law is about the index alone
  have hsettled := (w.stocks_events hserves source.events hplain hstart).flush hserves
  have hnone : (settle false (source.events.foldl w.handle p)) =
      { source.events.foldl w.handle p with
        writer := (source.events.foldl w.handle p).writer.flush.2 } := by
    rw [settle]
    exact congrArg Prod.snd (Pipeline.drainAll_of_isEmpty (List.isEmpty_iff.mpr hsettled.backlog))
  rw [← hnone] at hsettled
  have hempty : (settle false (source.events.foldl w.handle p)).writer.pending = [] := by
    rw [hnone]
    exact Writer.flush_pending _
  rw [hrun] at hcalls
  have hobjects := hsettled.objects hcalls
  have hcount := hsettled.indexed hcalls
  rw [hempty] at hobjects hcount
  have hq : q = _ := hrun
  rw [hq]
  refine ⟨hobjects, ?_⟩
  show (change _).tally.indexed = _
  rw [htally]
  exact (UInt64.add_zero _).symm.trans hcount

end Worker

end Corpus
