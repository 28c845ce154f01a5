/-
Corpus/Proofs/Batching.lean

The books of a writer.

A writer may be asked to take documents, with another size of its batches each time, to commit
what is pending, and to update image fields; and the engine may answer every call as it likes.
After any number of such operations

    documents of the batches submitted ++ documents pending  =  documents pushed

(`Writer.Kept.submitted`), so no document is submitted twice, out of order or never.  Each batch
has ended one way, committed or failed, and the list of these ends accounts for all the rest: the
job, the writer's own totals and the identifiers it remembers are those of its ends, one after
the other.
-/
import Corpus.Proofs.Pipeline
import Corpus.Proofs.Recording

namespace Corpus

/-! ### How batches end -/

/-- A batch that was submitted, and how its commit ended. -/
structure BatchEnd where
  batch : List Document
  result : Except EngineError Unit

namespace BatchEnd

/-- The documents of a committed batch. -/
def committed (b : BatchEnd) : List Document :=
  match b.result with
  | .ok () => b.batch
  | .error _ => []

/-- The documents of a failed batch. -/
def rejected (b : BatchEnd) : List Document :=
  match b.result with
  | .ok () => []
  | .error _ => b.batch

/-- What is logged of a failed batch. -/
def messages (b : BatchEnd) : List String :=
  match b.result with
  | .ok () => []
  | .error e => ["Batch of " ++ toString b.batch.length ++ " documents failed: " ++ e.message]

/-- What a job is told of a batch. -/
def report (job : Job) (b : BatchEnd) : Job :=
  match b.result with
  | .ok () => job.indexed (UInt64.ofNat b.batch.length)
  | .error e =>
    (job.failed (UInt64.ofNat b.batch.length)).logError
      ("Batch of " ++ toString b.batch.length ++ " documents failed: " ++ e.message)

/-- Each document of the batches is committed or rejected with its batch. -/
theorem length_flatten (ends : List BatchEnd) :
    (ends.map (·.batch)).flatten.length =
      (ends.flatMap committed).length + (ends.flatMap rejected).length := by
  induction ends with
  | nil => rfl
  | cons b rest ih =>
    -- a batch is committed or rejected as a whole
    have hone : b.batch.length = b.committed.length + b.rejected.length := by
      rw [committed, rejected]
      cases b.result with
      | ok _ => rfl
      | error _ => exact (Nat.zero_add _).symm
    rw [List.map_cons, List.flatten_cons, List.flatMap_cons, List.flatMap_cons,
      List.length_append, List.length_append, List.length_append, hone, ih]
    omega

/-- What a job shows of the batches that it was told of. -/
theorem report_all (ends : List BatchEnd) :
    ∀ job : Job, (ends.foldl report job).tally =
        { job.tally with
          indexed := job.tally.indexed + UInt64.ofNat (ends.flatMap committed).length
          failed := job.tally.failed + UInt64.ofNat (ends.flatMap rejected).length
          processed := job.tally.processed +
            UInt64.ofNat (ends.map (·.batch)).flatten.length } ∧
      (ends.foldl report job).errors = (ends.flatMap messages).foldl ErrorLog.push job.errors := by
  induction ends with
  | nil => exact fun job => ⟨by simp, rfl⟩
  | cons b rest ih =>
    intro job
    obtain ⟨htally, herrors⟩ := ih (report job b)
    have hcount : ∀ (a : UInt64) (first second : List Document),
        a + UInt64.ofNat first.length + UInt64.ofNat second.length =
          a + UInt64.ofNat (first ++ second).length := by
      intro a first second
      rw [List.length_append, UInt64.ofNat_add, UInt64.add_assoc]
    rw [List.foldl_cons, htally, herrors]
    simp only [List.flatMap_cons, List.map_cons, List.flatten_cons, List.foldl_append, ← hcount]
    cases hb : b.result with
    | ok _ => simp [report, committed, rejected, messages, hb, Job.indexed, Job.update,
        Job.updateTally]
    | error e => simp [report, committed, rejected, messages, hb, Job.failed, Job.logError,
        Job.update, Job.updateTally]

end BatchEnd

namespace EngineCall

/-- The batches of all calls that add documents. -/
def added (calls : List EngineCall) : List (List Document) :=
  calls.filterMap fun
    | .add batch _ => some batch
    | _ => none

/-- How batches ended: with the error of the call that was to add it, or else with the answer to
the wait for its task, the very next call. -/
def ends : List EngineCall → List BatchEnd
  | [] => []
  | .add batch (.ok _) :: .await _ _ result :: rest => ⟨batch, result⟩ :: ends rest
  | .add batch (.error e) :: rest => ⟨batch, .error e⟩ :: ends rest
  | _ :: rest => ends rest

theorem added_append (first second : List EngineCall) :
    added (first ++ second) = added first ++ added second :=
  List.filterMap_append

theorem ends_append {first second : List EngineCall} (h : BeginsWork second) :
    ends (first ++ second) = ends first ++ ends second := by
  fun_induction ends first with
  | case1 => rfl
  | case2 batch task number limit result rest ih => simpa [ends] using ih
  | case3 batch e rest ih => simpa [ends] using ih
  | case4 c rest hwaited hrefused ih =>
    rw [List.cons_append, ends]
    · exact ih
    · -- the first call of `second` must not complete the last one of `first`
      intro batch task number limit result tail hadd htail
      cases rest with
      | nil => exact h number limit result tail htail
      | cons next rest =>
        obtain ⟨rfl, -⟩ := List.cons.inj htail
        exact hwaited batch task number limit result rest hadd rfl
    · exact hrefused

end EngineCall

open EngineCall (added ends added_append ends_append BeginsWork)

namespace Recorded

variable {ε : Type} [SearchEngine ε]

/-- A batch is refused when it is submitted, or ends as the wait for its task does. -/
theorem ends_commit_add (e : Recorded ε) (limit : Span) (batch : List Document) :
    let c := SearchEngine.commit limit (SearchEngine.add e batch)
    added c.2.calls = added e.calls ++ [batch] ∧
      ends c.2.calls = ends e.calls ++ [⟨batch, c.1⟩] := by
  intro c
  rcases e.commit_add_cases limit batch with ⟨fault, hresult, hcalls⟩ | ⟨task, hcalls⟩
  · rw [hcalls, hresult, added_append, ends_append (by simp [BeginsWork])]
    exact ⟨rfl, rfl⟩
  · rw [hcalls, added_append, ends_append (by simp [BeginsWork])]
    exact ⟨rfl, rfl⟩

/-- An update is no batch. -/
theorem ends_commit_update (e : Recorded ε) (limit : Span) (patches : List ImagePatch) :
    let c := SearchEngine.commit limit (SearchEngine.update e patches)
    added c.2.calls = added e.calls ∧ ends c.2.calls = ends e.calls := by
  intro c
  rcases e.commit_update_cases limit patches with ⟨fault, -, hcalls⟩ | ⟨task, hcalls⟩
  · rw [hcalls, added_append, ends_append (by simp [BeginsWork])]
    exact ⟨List.append_nil _, List.append_nil _⟩
  · rw [hcalls, added_append, ends_append (by simp [BeginsWork])]
    exact ⟨List.append_nil _, List.append_nil _⟩

end Recorded

/-! ### What a writer is asked to do -/

namespace Writer

/-- What a writer can be asked to do. -/
inductive Operation where
  | push (d : Document) (size : UInt64)
  | flush
  | patch (patches : List ImagePatch)

/-- The document that is pushed. -/
def Operation.pushed? : Operation → Option Document
  | .push d _ => some d
  | _ => none

variable {ε : Type}

/-- A writer after an operation. -/
def perform [SearchEngine ε] (w : Writer ε) : Operation → Writer ε
  | .push d size => (w.push d size).2
  | .flush => w.flush.2
  | .patch patches => (w.patch patches).2

/-- The writer keeps its books since its job was so and so, with some documents pushed. -/
structure Kept (w : Writer (Recorded ε)) (job : Job) (pushed : List Document) : Prop where
  submitted : (added w.engine.calls).flatten ++ w.pending = pushed
  /-- Each batch has ended. -/
  ended : (ends w.engine.calls).map (·.batch) = added w.engine.calls
  job : w.job = (ends w.engine.calls).foldl BatchEnd.report job
  documents : w.stats.documentsCommitted =
    UInt64.ofNat ((ends w.engine.calls).flatMap BatchEnd.committed).length
  rejected : w.rejected = ((ends w.engine.calls).flatMap BatchEnd.rejected).map (·.id)

namespace Kept

variable {w : Writer (Recorded ε)} {job : Job} {pushed : List Document}

/-- A document that is taken is pending. -/
theorem hold (h : w.Kept job pushed) (d : Document) :
    Kept { w with pending := w.pending ++ [d] } job (pushed ++ [d]) := by
  refine ⟨?_, h.ended, h.job, h.documents, h.rejected⟩
  rw [← h.submitted, List.append_assoc]

variable [SearchEngine ε]

/-- What was pending becomes one batch, which ends as its commit does. -/
theorem flush (h : w.Kept job pushed) : w.flush.2.Kept job pushed := by
  by_cases hp : w.pending = []
  · -- with nothing pending no call is made
    have hidle : w.flush.2 = w := by rw [Writer.flush, if_pos (by simp [hp])]
    rw [hidle]
    exact h
  obtain ⟨hadded, hends⟩ := w.engine.ends_commit_add w.commitTimeout w.pending
  rw [Writer.flush, if_neg (by simpa using hp)]
  dsimp only
  generalize SearchEngine.commit w.commitTimeout (SearchEngine.add w.engine w.pending) = ended
    at hadded hends ⊢
  obtain ⟨result, engine⟩ := ended
  dsimp only at hadded hends ⊢
  have hsubmitted : (added engine.calls).flatten ++ [] = pushed := by
    rw [hadded, List.flatten_append, List.append_nil, ← h.submitted]
    simp
  have hended : (ends engine.calls).map (·.batch) = added engine.calls := by
    rw [hadded, hends, List.map_append, h.ended]
    rfl
  cases result with
  | ok _ =>
    refine ⟨hsubmitted, hended, ?_, ?_, ?_⟩
    · rw [hends, List.foldl_append, ← h.job]
      rfl
    · show w.stats.documentsCommitted + UInt64.ofNat w.pending.length = _
      rw [hends, h.documents, List.flatMap_append, List.length_append, UInt64.ofNat_add]
      simp [BatchEnd.committed]
    · rw [hends, List.flatMap_append, List.map_append, ← h.rejected]
      simp [BatchEnd.rejected]
  | error e =>
    refine ⟨hsubmitted, hended, ?_, ?_, ?_⟩
    · rw [hends, List.foldl_append, ← h.job]
      rfl
    · rw [hends, List.flatMap_append]
      simpa [BatchEnd.committed] using h.documents
    · rw [hends, List.flatMap_append, List.map_append, ← h.rejected]
      simp [BatchEnd.rejected]

theorem push (h : w.Kept job pushed) (d : Document) (size : UInt64) :
    (w.push d size).2.Kept job (pushed ++ [d]) := by
  rw [Writer.push]
  dsimp only
  split
  · exact (h.hold d).flush
  · exact h.hold d

theorem patch (h : w.Kept job pushed) (patches : List ImagePatch) :
    (w.patch patches).2.Kept job pushed := by
  rw [Writer.patch]
  split
  · exact h
  obtain ⟨hadded, hends⟩ := w.engine.ends_commit_update w.maintenanceTimeout patches
  generalize SearchEngine.commit w.maintenanceTimeout (SearchEngine.update w.engine patches) = ended
    at hadded hends ⊢
  obtain ⟨result, engine⟩ := ended
  dsimp only at hadded hends ⊢
  -- an update adds no batch, so the books are those kept before it
  have hkept : Kept { w with engine } job pushed := by
    obtain ⟨hsubmitted, hended, hjob, hdocuments, hrejected⟩ := h
    rw [← hadded] at hsubmitted hended
    rw [← hends] at hended hjob hdocuments hrejected
    exact ⟨hsubmitted, hended, hjob, hdocuments, hrejected⟩
  cases result with
  | ok _ => exact ⟨hkept.submitted, hkept.ended, hkept.job, hkept.documents, hkept.rejected⟩
  | error _ => exact hkept

/-- **One operation.** -/
theorem perform (h : w.Kept job pushed) (operation : Operation) :
    (w.perform operation).Kept job (pushed ++ operation.pushed?.toList) := by
  cases operation with
  | push d size => exact h.push d size
  | flush =>
    rw [show (Operation.flush).pushed?.toList = [] from rfl, List.append_nil]
    exact h.flush
  | patch patches =>
    rw [show (Operation.patch patches).pushed?.toList = [] from rfl, List.append_nil]
    exact h.patch patches

/-- Any number of operations. -/
theorem operations (operations : List Operation) :
    ∀ {w : Writer (Recorded ε)} {pushed : List Document}, w.Kept job pushed →
      (operations.foldl Writer.perform w).Kept job
        (pushed ++ operations.filterMap Operation.pushed?) := by
  induction operations with
  | nil =>
    intro w pushed h
    rw [List.filterMap_nil, List.append_nil]
    exact h
  | cons operation rest ih =>
    intro w pushed h
    have hrest := ih (h.perform operation)
    rw [List.append_assoc] at hrest
    rw [List.foldl_cons, List.filterMap_cons]
    cases hpushed : operation.pushed? <;>
    · rw [hpushed] at hrest
      exact hrest

end Kept

/-! ### The books of a writer -/

/-- What there is to see of a writer after some documents were pushed. -/
structure Accounted (w : Writer (Recorded ε)) (capacity : Nat) (pushed : List Document) :
    Prop where
  /-- No document is submitted twice, out of order or never. -/
  submitted : (added w.engine.calls).flatten ++ w.pending = pushed
  /-- Each batch was committed or failed. -/
  ended : (ends w.engine.calls).map (·.batch) = added w.engine.calls
  /-- All of a committed batch counts as indexed, and all of a failed one as failed. -/
  indexed : w.job.tally.indexed =
    UInt64.ofNat ((ends w.engine.calls).flatMap BatchEnd.committed).length
  failed : w.job.tally.failed =
    UInt64.ofNat ((ends w.engine.calls).flatMap BatchEnd.rejected).length
  total : w.job.tally.indexed + w.job.tally.failed + UInt64.ofNat w.pending.length =
    UInt64.ofNat pushed.length
  /-- The sum is one of numbers as long as no more were pushed than can be counted. -/
  counted : pushed.length < UInt64.size →
    w.job.tally.indexed.toNat + w.job.tally.failed.toNat + w.pending.length = pushed.length
  documents : w.stats.documentsCommitted = w.job.tally.indexed
  /-- The log was given one message for each failed batch. -/
  errors : w.job.errors =
    ((ends w.engine.calls).flatMap BatchEnd.messages).foldl ErrorLog.push (.empty capacity)
  /-- The writer remembers the documents of failed batches and no other ones. -/
  rejected : ∀ id, w.isRejected id = true ↔
    ∃ b ∈ ends w.engine.calls, ∃ e, b.result = .error e ∧ id ∈ b.batch.map (·.id)

theorem Kept.accounted {w : Writer (Recorded ε)} {id : String} {kind : JobKind} {target : Path}
    {capacity : Nat} {started : Instant} {pushed : List Document}
    (h : w.Kept (.start id kind target capacity started) pushed) : w.Accounted capacity pushed := by
  obtain ⟨htally, herrors⟩ :=
    BatchEnd.report_all (ends w.engine.calls) (.start id kind target capacity started)
  rw [← h.job] at htally herrors
  have hindexed : w.job.tally.indexed =
      UInt64.ofNat ((ends w.engine.calls).flatMap BatchEnd.committed).length := by
    rw [htally]
    exact UInt64.zero_add _
  have hfailed : w.job.tally.failed =
      UInt64.ofNat ((ends w.engine.calls).flatMap BatchEnd.rejected).length := by
    rw [htally]
    exact UInt64.zero_add _
  -- what was pushed is pending or in a batch, and what is in a batch is committed or rejected
  have hlength := congrArg List.length h.submitted
  rw [List.length_append, ← h.ended, BatchEnd.length_flatten] at hlength
  refine ⟨h.submitted, h.ended, hindexed, hfailed, ?_, fun hfew => ?_,
    h.documents.trans hindexed.symm, herrors, fun id => ?_⟩
  · rw [hindexed, hfailed, ← UInt64.ofNat_add, ← UInt64.ofNat_add, hlength]
  · rw [hindexed, hfailed, UInt64.toNat_ofNat_of_lt' (by omega),
      UInt64.toNat_ofNat_of_lt' (by omega), hlength]
  · rw [isRejected_eq_true_iff, h.rejected, List.map_flatMap, List.mem_flatMap]
    refine exists_congr fun b => and_congr_right fun _ => ?_
    rw [BatchEnd.rejected]
    cases b.result with
    | ok _ => simp
    | error e => simp

end Writer

/-- **Batches.**  A writer that begins with an empty job, asked to do anything any number of times,
submits what is pushed in its order, and accounts for it, whatever the engine answers. -/
theorem batches_account_for_documents {ε : Type} [SearchEngine ε] (engine : ε) (id : String)
    (kind : JobKind) (target : Path) (capacity : Nat) (started : Instant)
    (commitTimeout maintenanceTimeout : Span) (operations : List Writer.Operation) :
    let start : Writer (Recorded ε) :=
      { engine := ⟨engine, []⟩, job := .start id kind target capacity started, commitTimeout
        maintenanceTimeout }
    (operations.foldl Writer.perform start).Accounted capacity
      (operations.filterMap Writer.Operation.pushed?) := by
  intro start
  have hstart : start.Kept (.start id kind target capacity started) [] :=
    ⟨rfl, rfl, rfl, rfl, rfl⟩
  exact (hstart.operations operations).accounted

/-- Four documents for an engine that refuses the second batch: one is committed alone, two are
refused together, and one is pending. -/
theorem batches_account_for_documents_refused :
    let d : String → Document := fun id =>
      { id, filename := "", content := "", fileType := "", fileSize := 0, filePath := ""
        source := .folder, folderRoot := "", zimArticleUrl := none, images := {} }
    let operations : List Writer.Operation :=
      [.push (d "1") 0, .push (d "2") 2, .patch [⟨"1", {}⟩], .push (d "3") 2, .flush,
        .push (d "4") 3]
    let start : Writer (Recorded MemoryEngine) :=
      { engine := ⟨{ addReplies := [.accept, .refuse] }, []⟩
        job := .start "job" .folderSync (.ofText "/a") 50 default
        commitTimeout := default, maintenanceTimeout := default }
    let w := operations.foldl Writer.perform start
    w.job.tally.indexed.toNat + w.job.tally.failed.toNat + w.pending.length = 4 ∧
      w.rejected = ["2", "3"] ∧ w.pending.map (·.id) = ["4"] := by
  intro d operations start w
  have h : w.Accounted 50 [d "1", d "2", d "3", d "4"] :=
    batches_account_for_documents ({ addReplies := [.accept, .refuse] } : MemoryEngine) "job"
      .folderSync (.ofText "/a") 50 default default default operations
  refine ⟨h.counted (by decide), ?_, ?_⟩
  · decide +kernel
  · decide +kernel

end Corpus
