/-
Corpus/Proofs/Staging.lean

Staged directories of several tasks.

No way leads through a directory that is going to move, so adopting one of them leaves the
others as they are.  What will stand in the places of the documents is therefore settled once
all directories are staged, in whatever order they are adopted.
-/
import Corpus.Ingest.Pipeline
import Corpus.Proofs.Adopting

namespace Corpus

namespace Thumbnails

open Disk

variable {t : Thumbnails} {d d' : Disk} {top : Place} {origin : ImageTask → Place}
  {staged : ImageTask → List (Bytes × Node)} {tasks : List ImageTask}

/-- The places of different documents are apart. -/
theorem shelf_apart {id id' : String} (h : id ≠ id') : (shelf top id).Apart (shelf top id') := by
  have hne : ∀ {a b : String}, a ≠ b → ¬ shelf top a <+: shelf top b := by
    intro a b hab habove
    have heq : shelf top a = shelf top b := habove.eq_of_length (by simp [shelf])
    rw [shelf, shelf, List.append_right_inj, List.singleton_inj] at heq
    exact hab (Text.encode_inj.mp heq)
  exact ⟨hne h, hne h.symm⟩

/-- All tasks have their directories staged, outside that of all thumbnails, and no way to one
of them leads through a place that another one changes. -/
structure Ready (t : Thumbnails) (d : Disk) (top : Place) (origin : ImageTask → Place)
    (staged : ImageTask → List (Bytes × Node)) (tasks : List ImageTask) : Prop where
  rooted : t.Rooted d top []
  staged : ∀ task ∈ tasks, t.Staged d top task.staging task.id (origin task) (staged task)
  outside : ∀ task ∈ tasks, ¬ top <+: origin task
  apart : ∀ task ∈ tasks, ∀ other ∈ tasks, task.id ≠ other.id →
    ∀ q ∈ d.trail false task.staging, ¬ origin other <+: q ∧ ¬ shelf top other.id <+: q

namespace Ready

theorem subset (h : t.Ready d top origin staged tasks) {fewer : List ImageTask}
    (hfewer : fewer ⊆ tasks) : t.Ready d top origin staged fewer :=
  ⟨h.rooted, fun task htask => h.staged task (hfewer htask),
    fun task htask => h.outside task (hfewer htask),
    fun task htask other hother => h.apart task (hfewer htask) other (hfewer hother)⟩

/-- What is staged is apart from where documents have their thumbnails. -/
theorem origin_apart_shelf (h : t.Ready d top origin staged tasks) {task : ImageTask}
    (htask : task ∈ tasks) (id : String) : (origin task).Apart (shelf top id) := by
  have houtside := h.outside task htask
  refine ⟨fun hprefix => ?_, fun hprefix => houtside ((List.prefix_append _ _).trans hprefix)⟩
  rcases List.prefix_concat_iff.mp hprefix with heq | habove
  · exact houtside (heq ▸ List.prefix_append top _)
  · exact (h.staged task htask).rooted.not_prefix_top List.mem_cons_self habove

theorem origin_apart_origin (h : t.Ready d top origin staged tasks) {task other : ImageTask}
    (htask : task ∈ tasks) (hother : other ∈ tasks) (hne : task.id ≠ other.id) :
    (origin task).Apart (origin other) := by
  -- the way to a staged directory looks at the directory itself
  have htrail : ∀ task ∈ tasks, origin task ∈ d.trail false task.staging := fun task htask =>
    mem_trail_of_find (h.staged task htask).found
  exact ⟨(h.apart other hother task htask hne.symm _ (htrail other hother)).1,
    (h.apart task htask other hother hne _ (htrail task htask)).1⟩

/-- The other tasks are for other documents. -/
theorem other_ids {before after : List ImageTask} {task other : ImageTask}
    (hids : ((before ++ task :: after).map (·.id)).Nodup) (hother : other ∈ before ++ after) :
    other ∈ before ++ task :: after ∧ other.id ≠ task.id := by
  refine ⟨((List.sublist_cons_self task after).append_left before).subset hother, fun heq => ?_⟩
  rw [List.map_append, List.map_cons, List.nodup_middle, List.nodup_cons, ← List.map_append] at hids
  exact hids.1 (List.mem_map.mpr ⟨other, hother, heq⟩)

/-- **One task of many.**  Its adoption answers what its own entries decide, puts these in the
place of its document, and leaves the other tasks ready. -/
theorem adopt (before : List ImageTask) {after : List ImageTask} {task : ImageTask}
    (h : t.Ready d top origin staged (before ++ task :: after))
    (hids : ((before ++ task :: after).map (·.id)).Nodup) (hid : IsName (Text.encode task.id))
    (hplain : '/' ∉ task.id.toList) :
    ∃ d', t.adopt d task.staging task.id = ((t.settle task.id (staged task)).1, d') ∧
      t.Ready d' top origin staged (before ++ after) ∧
      ∀ id, d'.root.at? (shelf top id) =
        if id = task.id then some (t.settle task.id (staged task)).2
        else d.root.at? (shelf top id) := by
  have htask : task ∈ before ++ task :: after := by simp
  obtain ⟨d', hadopt, hdir, hspares⟩ := (h.staged task htask).adopt_eq hid hplain
  have hother : ∀ other ∈ before ++ after, _ := fun _ hmem => other_ids hids hmem
  -- the ways of the other tasks avoid both places that this adoption changes
  have haway : ∀ other ∈ before ++ after, ∀ q ∈ d.trail false other.staging,
      ∀ z ∈ [origin task, shelf top task.id], ¬ z <+: q := by
    intro other hmem q hq z hz
    obtain ⟨hmem', hne⟩ := hother other hmem
    obtain ⟨horigin, hshelf⟩ := h.apart other hmem' task htask hne q hq
    rcases List.mem_pair.mp hz with rfl | rfl
    · exact horigin
    · exact hshelf
  -- and the places of the other documents are apart from both
  have hshelf : ∀ id, id ≠ task.id →
      d'.root.at? (shelf top id) = d.root.at? (shelf top id) := by
    intro id hne
    refine hspares.at? _ fun z hz => ?_
    rcases List.mem_pair.mp hz with rfl | rfl
    · exact h.origin_apart_shelf htask id
    · exact shelf_apart (Ne.symm hne)
  refine ⟨d', hadopt, ⟨?_, ?_, ?_, ?_⟩, fun id => ?_⟩
  · exact ((h.staged task htask).rooted.spares hspares).narrow (List.nil_subset _)
  · intro other hmem
    obtain ⟨hmem', hne⟩ := hother other hmem
    refine (h.staged other hmem').spares hspares (h.staged task htask).rooted.away
      (haway other hmem) (hspares.at? _ fun z hz => ?_) ?_
    · rcases List.mem_pair.mp hz with rfl | rfl
      · exact h.origin_apart_origin htask hmem' hne.symm
      · exact (h.origin_apart_shelf hmem' task.id).symm
    · rw [hshelf other.id hne]
      exact (h.staged other hmem').vacant
  · exact fun other hmem => h.outside other (hother other hmem).1
  · intro first hfirst second hsecond hne q hq
    rw [hspares.trail (haway first hfirst)] at hq
    exact h.apart first (hother first hfirst).1 second (hother second hsecond).1 hne q hq
  · split
    · rename_i heq
      rw [heq]
      exact hdir
    · rename_i hne
      exact hshelf id hne

end Ready

end Thumbnails

end Corpus
