/-
Corpus/Proofs/Watching.lean

What readers see of a job while its worker goes on.

A reader loads the parts of a job one after the other, and between two loads the worker may make
any number of stores.  So the parts of a snapshot may come from different moments of the run.
Two things hold of it nevertheless:

    a snapshot that shows the job over shows it as it stays;
    what a reader has seen of a counter that only grows is never taken back.

The first one needs that the status is loaded before all other parts and stored after them, once
and last (`Ingestion.stores_eq`).  The second one needs nothing of the order of stores.  It needs
that no counter wraps.
-/
import Corpus.Proofs.Accounting
import Corpus.Proofs.Chronicle

namespace Corpus

/-! ### Viewings -/

/-- When a reader loads each part of a job: after so many stores of its worker. -/
structure Viewing where
  moment : Cell → Nat
  ordered : Cell.inOrder.Pairwise fun a b => moment a ≤ moment b

namespace Viewing

/-- The job that a reader finds as it loads a part. -/
def found (r : Viewing) (job : Job) (stores : List Store) (c : Cell) : Job :=
  (stores.take (r.moment c)).foldl Job.store job

/-- The snapshot that a reader takes. -/
def snapshot (r : Viewing) (job : Job) (stores : List Store) : Snapshot :=
  .assembled (r.found job stores)

/-- The first viewing is done before the other one begins. -/
def Precedes (r later : Viewing) : Prop := ∀ a b, r.moment a ≤ later.moment b

/-- The status is loaded first. -/
theorem status_le (r : Viewing) (c : Cell) : r.moment .status ≤ r.moment c := by
  obtain ⟨hfirst, -⟩ := List.pairwise_cons.mp r.ordered
  by_cases hc : c = .status
  · rw [hc]
  · refine hfirst c ?_
    cases c with
    | status => exact absurd rfl hc
    | counter counter => cases counter <;> decide
    | _ => decide

end Viewing

/-! ### The end of a job -/

/-- No update of a running job stores a status. -/
theorem Entry.status_not_mem_stores (entries : List Entry) (s : JobStatus) :
    .status s ∉ Entry.stores entries := by
  intro h
  obtain ⟨entry, -, hstore⟩ := List.mem_flatMap.mp h
  revert hstore
  cases entry.update with
  | imageSkip reason => cases reason <;> simp [JobUpdate.stores]
  | _ => simp [JobUpdate.stores]

/-- Other stores leave the status alone. -/
theorem Job.status_foldl_store {stores : List Store} (h : ∀ s, .status s ∉ stores) :
    ∀ job : Job, (stores.foldl store job).status = job.status := by
  induction stores with
  | nil => exact fun _ => rfl
  | cons first rest ih =>
    intro job
    rw [List.foldl_cons, ih fun s hs => h s (List.mem_cons_of_mem first hs)]
    cases first with
    | status s => exact absurd List.mem_cons_self (h s)
    | _ => rfl

/-- A job that is found over is found after the last store. -/
theorem Job.length_le_of_isTerminal {job : Job} {before : List Store} {status : JobStatus}
    (hrunning : job.status = .running) (hbefore : ∀ s, .status s ∉ before) {k : Nat}
    (hover :
      (((before ++ [Store.status status]).take k).foldl store job).status.isTerminal = true) :
    (before ++ [Store.status status]).length ≤ k := by
  rw [List.length_append, List.length_singleton]
  by_contra hk
  -- before the last store nothing has touched the status
  have htake : (before ++ [Store.status status]).take k = before.take k :=
    List.take_append_of_le_length (by omega)
  rw [htake, status_foldl_store fun s hs => hbefore s (List.mem_of_mem_take hs), hrunning] at hover
  exact Bool.false_ne_true hover

namespace Viewing

variable {job : Job} {before : List Store} {status : JobStatus}

/-- A reader whose first load comes after all stores takes the last snapshot. -/
theorem snapshot_of_length_le (r : Viewing) {stores : List Store}
    (h : stores.length ≤ r.moment .status) :
    r.snapshot job stores = (stores.foldl Job.store job).snapshot := by
  have hfound : r.found job stores = fun _ => stores.foldl Job.store job := by
    funext c
    rw [found, List.take_of_length_le (Nat.le_trans h (r.status_le c))]
  rw [snapshot, hfound, Snapshot.assembled_const]

/-- **Over is over.**  A snapshot that shows the job over is the last one, and so is every
snapshot whose status is loaded no earlier. -/
theorem snapshot_of_isTerminal (hrunning : job.status = .running)
    (hbefore : ∀ s, .status s ∉ before) {r later : Viewing}
    (hlater : r.moment .status ≤ later.moment .status)
    (hover : (r.snapshot job (before ++ [Store.status status])).status.isTerminal = true) :
    later.snapshot job (before ++ [Store.status status]) =
      ((before ++ [Store.status status]).foldl Job.store job).snapshot :=
  later.snapshot_of_length_le
    (Nat.le_trans (Job.length_le_of_isTerminal hrunning hbefore hover) hlater)

end Viewing

/-! ### Counters that only grow -/

/-- The value of a counter. -/
def Tally.value (t : Tally) : Counter → UInt64
  | .total => t.total
  | .processed => t.processed
  | .indexed => t.indexed
  | .failed => t.failed
  | .skipped => t.skipped
  | .images => t.images
  | .imagesFailed => t.imagesFailed
  | .imagesSkippedIcon => t.imagesSkippedIcon
  | .imagesSkippedNotFound => t.imagesSkippedNotFound

theorem Tally.value_add (t : Tally) (n : UInt64) (c d : Counter) :
    (t.add n c).value d = if c = d then t.value d + n else t.value d := by
  cases c <;> cases d <;> rfl

namespace Store

/-- What a store adds to a counter. -/
def amount (c : Counter) : Store → Nat
  | .added d n => if d = c then n.toNat else 0
  | _ => 0

/-- What some stores add to a counter. -/
def total (c : Counter) : List Store → Nat
  | [] => 0
  | s :: rest => s.amount c + total c rest

/-- How many messages some stores log. -/
def logged : List Store → Nat
  | [] => 0
  | .error _ :: rest => logged rest + 1
  | _ :: rest => logged rest

theorem total_append (c : Counter) (first second : List Store) :
    total c (first ++ second) = total c first + total c second := by
  induction first with
  | nil => exact (Nat.zero_add _).symm
  | cons s rest ih => rw [List.cons_append, total, total, ih, Nat.add_assoc]

theorem logged_append (first second : List Store) :
    logged (first ++ second) = logged first + logged second := by
  induction first with
  | nil => exact (Nat.zero_add _).symm
  | cons s rest ih =>
    cases s with
    | error message =>
      rw [List.cons_append, logged, logged, ih]
      omega
    | _ => exact ih

/-- Stores up to some moment, and those from there up to a later one. -/
theorem take_eq_append_of_le (stores : List Store) {j k : Nat} (h : j ≤ k) :
    ∃ between, stores.take k = stores.take j ++ between := by
  refine ⟨(stores.take k).drop j, ?_⟩
  have hsplit := List.take_append_drop j (stores.take k)
  rw [List.take_take, Nat.min_eq_left h] at hsplit
  exact hsplit.symm

end Store

namespace Job

open Store (total logged)

/-- Stores add to a counter what they say, if it does not wrap. -/
theorem value_foldl_store (c : Counter) (stores : List Store) :
    ∀ job : Job, (job.tally.value c).toNat + total c stores < UInt64.size →
      ((stores.foldl store job).tally.value c).toNat =
        (job.tally.value c).toNat + total c stores := by
  induction stores with
  | nil => exact fun _ _ => rfl
  | cons s rest ih =>
    intro job hfits
    have hfirst : ((job.store s).tally.value c).toNat =
        (job.tally.value c).toNat + s.amount c := by
      rw [total] at hfits
      cases s with
      | added d n =>
        rw [store, Tally.value_add, Store.amount] at *
        split
        · rename_i hsame
          rw [if_pos hsame] at hfits
          exact toNat_add_of_fits (by omega)
        · rfl
      | deferred n => cases c <;> rfl
      | _ => rfl
    rw [total, ← Nat.add_assoc, ← hfirst] at hfits ⊢
    exact ih (job.store s) hfits

/-- A log drops at most one message for each that it is given. -/
theorem dropped_push (log : ErrorLog) (message : String) :
    (log.push message).dropped = log.dropped ∨
      (log.push message).dropped = log.dropped + 1 := by
  rw [ErrorLog.push]
  split
  · exact .inr rfl
  · split
    · exact .inr rfl
    · exact .inl rfl

/-- Stores only add to the number of dropped messages, if it does not wrap. -/
theorem dropped_foldl_store (stores : List Store) :
    ∀ job : Job, job.errors.dropped.toNat + logged stores < UInt64.size →
      job.errors.dropped.toNat ≤ (stores.foldl store job).errors.dropped.toNat ∧
        (stores.foldl store job).errors.dropped.toNat ≤
          job.errors.dropped.toNat + logged stores := by
  induction stores with
  | nil => exact fun _ _ => ⟨Nat.le_refl _, Nat.le_refl _⟩
  | cons s rest ih =>
    intro job hfits
    have hrest := ih (job.store s)
    cases s with
    | error message =>
      rw [logged] at hfits ⊢
      have hnext : (job.store (.error message)).errors.dropped.toNat = job.errors.dropped.toNat ∨
          (job.store (.error message)).errors.dropped.toNat = job.errors.dropped.toNat + 1 := by
        rcases dropped_push job.errors message with h | h
        · exact .inl (congrArg UInt64.toNat h)
        · refine .inr ((congrArg UInt64.toNat h).trans (toNat_add_of_fits ?_))
          show job.errors.dropped.toNat + 1 < UInt64.size
          omega
      obtain ⟨hgrows, hbounded⟩ := hrest (by omega)
      rw [List.foldl_cons]
      omega
    | _ => exact hrest hfits

variable {job : Job} {stores : List Store} {j k : Nat}

/-- A counter at a later moment is no smaller. -/
theorem value_take_le (c : Counter)
    (hfits : (job.tally.value c).toNat + total c stores < UInt64.size) (hjk : j ≤ k) :
    ((stores.take j).foldl store job).tally.value c ≤
      ((stores.take k).foldl store job).tally.value c := by
  obtain ⟨between, hbetween⟩ := Store.take_eq_append_of_le stores hjk
  -- neither the earlier nor the later sum exceeds the one of all stores
  have hall := congrArg (total c) (List.take_append_drop k stores)
  rw [Store.total_append, hbetween, Store.total_append] at hall
  have hearly := value_foldl_store c (stores.take j) job (by omega)
  have hlate := value_foldl_store c (stores.take j ++ between) job
    (by rw [Store.total_append]; omega)
  rw [Store.total_append] at hlate
  rw [hbetween]
  show UInt64.toNat _ ≤ UInt64.toNat _
  omega

/-- So is the number of dropped messages. -/
theorem dropped_take_le (hfits : job.errors.dropped.toNat + logged stores < UInt64.size)
    (hjk : j ≤ k) :
    ((stores.take j).foldl store job).errors.dropped ≤
      ((stores.take k).foldl store job).errors.dropped := by
  obtain ⟨between, hbetween⟩ := Store.take_eq_append_of_le stores hjk
  have hall := congrArg logged (List.take_append_drop k stores)
  rw [Store.logged_append, hbetween, Store.logged_append] at hall
  have hearly := dropped_foldl_store (stores.take j) job (by omega)
  have hlate := dropped_foldl_store between ((stores.take j).foldl store job) (by omega)
  rw [hbetween, List.foldl_append]
  exact hlate.1

end Job

/-- The counters of a snapshot are those that its reader found. -/
theorem Viewing.value_snapshot (r : Viewing) (job : Job) (stores : List Store) (c : Counter) :
    (r.snapshot job stores).tally.value c =
      (r.found job stores (.counter c)).tally.value c := by
  cases c <;> rfl

/-! ### Readers of a run -/

end Corpus
