/-
Corpus/Proofs/Retaining.lean

Which messages the error log of a job still has.

Every message that is pushed goes behind those kept, and what sticks out of the capacity at the
front is dropped.  Dropping early does no harm to the end, so at any time

    messages kept  =  the last of all messages pushed, as many as the log can hold

(`ErrorLog.entries_push_all`), and the counter says how many came before them
(`ErrorLog.dropped_push_all_empty`).  A log without capacity is no exception: it keeps the last zero
messages.  A reader of the job sees just these (`Job.snapshot_told`).
-/
import Corpus.Proofs.Reporting
import Corpus.Proofs.Tailing

namespace Corpus

open Diagnostics (lastOf length_lastOf lastOf_suffix lastOf_append_lastOf)

namespace ErrorLog

/-! ### One message -/

@[simp] theorem capacity_push (log : ErrorLog) (message : String) :
    (log.push message).capacity = log.capacity := by
  rw [push]
  split
  · rfl
  · split <;> rfl

/-- A message goes behind those kept, of which the oldest one makes room in a full log. -/
theorem entries_push {log : ErrorLog} (hroom : log.size ≤ log.capacity) (message : String) :
    (log.push message).entries = lastOf log.capacity (log.entries ++ [message]) := by
  have hlength : (log.entries ++ [message]).length = log.size + 1 := by
    rw [List.length_append, List.length_singleton, size]
  rw [push, lastOf, hlength]
  split
  next hzero =>
    -- the log cannot hold even the message, and it had none before
    have hempty : log.entries = [] := List.length_eq_zero_iff.mp (by rw [size] at hroom; omega)
    show log.entries = _
    rw [hzero, Nat.sub_zero, ← hlength, List.drop_length, hempty]
  next hpos =>
    split
    next hfull =>
      have hone : log.size + 1 - log.capacity = 1 := by rw [size]; omega
      rw [hone, List.drop_append_of_le_length (by omega)]
    next hfree =>
      have hnone : log.size + 1 - log.capacity = 0 := by rw [size] at hroom ⊢; omega
      rw [hnone, List.drop_zero]

/-! ### Any number of messages -/

@[simp] theorem capacity_push_all (messages : List String) (log : ErrorLog) :
    (messages.foldl push log).capacity = log.capacity := by
  induction messages generalizing log with
  | nil => rfl
  | cons message rest ih => rw [List.foldl_cons, ih, capacity_push]

/-- A log that holds the last of what it was told still does so when it is told more. -/
theorem entries_push_all (messages : List String) :
    ∀ {log : ErrorLog} {told : List String}, log.entries = lastOf log.capacity told →
      (messages.foldl push log).entries = lastOf log.capacity (told ++ messages) := by
  induction messages with
  | nil =>
    intro log told h
    rw [List.foldl_nil, List.append_nil, h]
  | cons message rest ih =>
    intro log told h
    have hroom : log.size ≤ log.capacity := by
      rw [size, h, length_lastOf]
      exact Nat.min_le_right _ _
    -- the message is put behind an end of what was told, which is as good as all of it
    have hone : (log.push message).entries =
        lastOf (log.push message).capacity (told ++ [message]) := by
      rw [entries_push hroom, h, lastOf_append_lastOf, capacity_push]
    rw [List.foldl_cons, ih hone, capacity_push, List.append_assoc, List.singleton_append]

/-- A log that was empty at first holds the last of all messages. -/
theorem entries_push_all_empty (capacity : Nat) (messages : List String) :
    (messages.foldl push (.empty capacity)).entries = lastOf capacity messages := by
  have hempty : (empty capacity).entries = lastOf (empty capacity).capacity [] :=
    List.drop_nil.symm
  exact entries_push_all messages hempty

/-- The counter of a log that was empty at first says how many messages do not fit in, up to the
size of the counter. -/
theorem dropped_push_all_empty (capacity : Nat) (messages : List String) :
    (messages.foldl push (.empty capacity)).dropped =
      UInt64.ofNat (messages.length - min messages.length capacity) := by
  have htold : UInt64.ofNat (messages.foldl push (.empty capacity)).size +
      (messages.foldl push (.empty capacity)).dropped = UInt64.ofNat messages.length :=
    (told_push_all messages (.empty capacity)).1.trans (UInt64.zero_add _)
  have hsize : (messages.foldl push (.empty capacity)).size = min messages.length capacity := by
    rw [size, entries_push_all_empty, length_lastOf]
  rw [UInt64.ofNat_sub (Nat.min_le_left _ _), ← htold, hsize, UInt64.add_comm,
    UInt64.add_sub_cancel]

/-- **The log keeps the latest messages**, in the order in which they were pushed and as many as
it can hold, and counts those before them.  A log that can hold none stays empty and counts them
all. -/
theorem keeps_latest (capacity : Nat) (messages : List String)
    (hcount : messages.length < UInt64.size) :
    let log := messages.foldl push (.empty capacity)
    log.entries = lastOf (min capacity messages.length) messages ∧
      messages.take log.dropped.toNat ++ log.entries = messages ∧
      log.size = min capacity messages.length ∧
      (log.isEmpty = true ↔ log.size = 0) ∧
      log.dropped.toNat = messages.length - log.size := by
  intro log
  have hentries : log.entries = lastOf capacity messages :=
    entries_push_all_empty capacity messages
  have hsize : log.size = min messages.length capacity := by
    rw [size, hentries, length_lastOf]
  have hdropped : log.dropped.toNat = messages.length - min messages.length capacity := by
    rw [dropped_push_all_empty, UInt64.toNat_ofNat_of_lt' (by omega)]
  have hgone : messages.length - min messages.length capacity = messages.length - capacity := by
    omega
  refine ⟨?_, ?_, ?_, ?_, ?_⟩
  · rw [hentries, lastOf, lastOf, Nat.min_comm, hgone]
  · rw [hdropped, hentries, lastOf, hgone, List.take_append_drop]
  · rw [hsize, Nat.min_comm]
  · rw [isEmpty, size, List.isEmpty_iff, List.length_eq_zero_iff]
  · rw [hdropped, hsize]

/-- Of three messages a log for two keeps the last two, a log for none none. -/
theorem keeps_latest_two :
    (["a", "b", "c"].foldl push (.empty 2)).entries = ["b", "c"] ∧
      (["a", "b", "c"].foldl push (.empty 0)).dropped.toNat = 3 := by
  obtain ⟨hentries, -⟩ := keeps_latest 2 ["a", "b", "c"] (by decide)
  obtain ⟨-, -, hsize, -, hdropped⟩ := keeps_latest 0 ["a", "b", "c"] (by decide)
  exact ⟨hentries, hdropped.trans (by rw [hsize]; rfl)⟩

end ErrorLog

/-! ### What is seen of a job -/

/-- A reader of a job sees the latest messages that the job was told, and how many there were
before them. -/
theorem Job.snapshot_told (id : String) (kind : JobKind) (target : Path) (capacity : Nat)
    (started : Instant) (entries : List Entry) :
    let messages := Entry.messages entries
    let seen := ((Job.start id kind target capacity started).told entries).snapshot
    seen.errors = lastOf capacity messages ∧
      seen.errorsDropped = UInt64.ofNat (messages.length - min messages.length capacity) := by
  intro messages seen
  have herrors : ((Job.start id kind target capacity started).told entries).errors =
      messages.foldl ErrorLog.push (.empty capacity) :=
    Job.errors_told entries (.start id kind target capacity started)
  refine ⟨?_, ?_⟩
  · show ((Job.start id kind target capacity started).told entries).errors.entries = _
    rw [herrors, ErrorLog.entries_push_all_empty]
  · show ((Job.start id kind target capacity started).told entries).errors.dropped = _
    rw [herrors, ErrorLog.dropped_push_all_empty]

/-- When a run has ended, a reader sees the latest messages of the run, whatever the end was. -/
theorem Worker.snapshot_run {ε : Type} [SearchEngine ε] (w : Worker)
    (interrupt : ε → Nat → Bool) (source : Source) (now : Instant) (p : Pipeline ε) (id : String)
    (kind : JobKind) (target : Path) (capacity : Nat) (started : Instant)
    (hjob : p.writer.job = .start id kind target capacity started) :
    (w.run interrupt source now p).writer.job.snapshot.errors =
      lastOf capacity (Entry.messages (w.entries interrupt source p)) := by
  rw [← (Job.snapshot_told id kind target capacity started (w.entries interrupt source p)).1,
    ← hjob, w.job_run interrupt source now p]
  rfl

end Corpus
