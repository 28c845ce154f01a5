/-
Corpus/Proofs/Recording.lean

An engine together with the list of all calls that were made of it.  It answers every call
as the engine inside does, so what holds of every run over it holds whatever an engine
answers, and the list tells in which order batches were committed and updates were made.

A batch is committed if the call that added it was accepted and the wait for its task, the
very next call, ended well; in every other case the batch has failed.
-/
import Corpus.Engine.Memory
import Corpus.Ingest.Writer

namespace Corpus

/-- A call of an engine with its answer. -/
inductive EngineCall where
  | add (batch : List Document) (answer : Except EngineError UInt64)
  | update (patches : List ImagePatch) (answer : Except EngineError UInt64)
  | await (task : UInt64) (limit : Span) (answer : Except EngineError Unit)

/-- An engine and the calls that were made of it, the oldest first. -/
structure Recorded (ε : Type) where
  engine : ε
  calls : List EngineCall := []

namespace Recorded

variable {ε : Type} [SearchEngine ε]

instance : SearchEngine (Recorded ε) where
  name := SearchEngine.name ε
  add e batch :=
    let (answer, engine) := SearchEngine.add e.engine batch
    (answer, ⟨engine, e.calls ++ [.add batch answer]⟩)
  update e patches :=
    let (answer, engine) := SearchEngine.update e.engine patches
    (answer, ⟨engine, e.calls ++ [.update patches answer]⟩)
  await e task limit :=
    let (answer, engine) := SearchEngine.await e.engine task limit
    (answer, ⟨engine, e.calls ++ [.await task limit answer]⟩)

theorem add_eq (e : Recorded ε) (batch : List Document) :
    SearchEngine.add e batch =
      ((SearchEngine.add e.engine batch).1,
        ⟨(SearchEngine.add e.engine batch).2,
          e.calls ++ [.add batch (SearchEngine.add e.engine batch).1]⟩) := rfl

theorem update_eq (e : Recorded ε) (patches : List ImagePatch) :
    SearchEngine.update e patches =
      ((SearchEngine.update e.engine patches).1,
        ⟨(SearchEngine.update e.engine patches).2,
          e.calls ++ [.update patches (SearchEngine.update e.engine patches).1]⟩) := rfl

end Recorded

/-! ### What a list of calls tells -/

/-- The batches that were added, each with whether it was committed. -/
def EngineCall.batches : List EngineCall → List (List Document × Bool)
  | [] => []
  | .add batch (.ok _) :: .await _ _ (.ok _) :: rest => (batch, true) :: batches rest
  | .add batch _ :: rest => (batch, false) :: batches rest
  | _ :: rest => batches rest

/-- The patches of every update. -/
def EngineCall.updates (calls : List EngineCall) : List (List ImagePatch) :=
  calls.filterMap fun
    | .update patches _ => some patches
    | _ => none

namespace EngineCall

/-- A list of calls begins with new work, not with the wait for earlier work. -/
def BeginsWork (calls : List EngineCall) : Prop :=
  ∀ task limit answer rest, calls ≠ .await task limit answer :: rest

theorem batches_append {first second : List EngineCall} (h : BeginsWork second) :
    batches (first ++ second) = batches first ++ batches second := by
  fun_induction batches first with
  | case1 => rfl
  | case2 batch task _ _ _ rest ih => simpa [batches] using ih
  | case3 batch answer rest hrest ih =>
    -- the first call of `second` must not complete the last one of `first`
    rw [List.cons_append, batches, ih, List.cons_append]
    intro number task limit result tail htail hanswer
    cases rest with
    | nil => exact h task limit (.ok result) tail htail
    | cons c rest =>
      obtain ⟨rfl, -⟩ := List.cons.inj htail
      exact hrest number task limit result rest rfl hanswer
  | case4 c rest h₁ h₂ ih =>
    cases c with
    | add batch answer => exact absurd rfl (h₂ batch answer)
    | update patches answer => simpa [batches] using ih
    | await task limit answer => simpa [batches] using ih

theorem updates_append (first second : List EngineCall) :
    updates (first ++ second) = updates first ++ updates second :=
  List.filterMap_append

end EngineCall

namespace Recorded

open EngineCall

variable {ε : Type} [SearchEngine ε]

/-- A batch is refused when it is submitted, or its commit ends as the wait for its task does, the
very next call. -/
theorem commit_add_cases (e : Recorded ε) (limit : Span) (batch : List Document) :
    let c := SearchEngine.commit limit (SearchEngine.add e batch)
    (∃ fault, c.1 = .error fault ∧ c.2.calls = e.calls ++ [.add batch (.error fault)]) ∨
      ∃ task, c.2.calls = e.calls ++ [.add batch (.ok task), .await task limit c.1] := by
  rcases hadd : SearchEngine.add e.engine batch with ⟨answer, engine⟩
  cases answer with
  | error fault =>
    refine .inl ⟨fault, ?_, ?_⟩ <;> simp [SearchEngine.commit, SearchEngine.add, hadd]
  | ok task =>
    refine .inr ⟨task, ?_⟩
    simp [SearchEngine.commit, SearchEngine.add, SearchEngine.await, hadd]

/-- An update is refused when it is submitted, or ends as the wait for its task does. -/
theorem commit_update_cases (e : Recorded ε) (limit : Span) (patches : List ImagePatch) :
    let c := SearchEngine.commit limit (SearchEngine.update e patches)
    (∃ fault, c.1 = .error fault ∧ c.2.calls = e.calls ++ [.update patches (.error fault)]) ∨
      ∃ task, c.2.calls = e.calls ++ [.update patches (.ok task), .await task limit c.1] := by
  rcases hupdate : SearchEngine.update e.engine patches with ⟨answer, engine⟩
  cases answer with
  | error fault =>
    refine .inl ⟨fault, ?_, ?_⟩ <;> simp [SearchEngine.commit, SearchEngine.update, hupdate]
  | ok task =>
    refine .inr ⟨task, ?_⟩
    simp [SearchEngine.commit, SearchEngine.update, SearchEngine.await, hupdate]

/-- What a commit of a batch adds to the calls. -/
theorem calls_commit_add (e : Recorded ε) (limit : Span) (batch : List Document) :
    ∃ made, (SearchEngine.commit limit (SearchEngine.add e batch)).2.calls = e.calls ++ made ∧
      BeginsWork made ∧ updates made = [] ∧
      batches made =
        [(batch, (SearchEngine.commit limit (SearchEngine.add e batch)).1.isOk)] := by
  rcases e.commit_add_cases limit batch with ⟨fault, hresult, hcalls⟩ | ⟨task, hcalls⟩
  · exact ⟨_, hcalls, by simp [BeginsWork], rfl, by rw [hresult]; rfl⟩
  · refine ⟨_, hcalls, by simp [BeginsWork], rfl, ?_⟩
    cases (SearchEngine.commit limit (SearchEngine.add e batch)).1 <;> rfl

/-- What an update adds to the calls: itself, and the wait for its task if there is one. -/
theorem calls_commit_update (e : Recorded ε) (limit : Span) (patches : List ImagePatch) :
    ∃ answer waits,
      (SearchEngine.commit limit (SearchEngine.update e patches)).2.calls =
        e.calls ++ .update patches answer :: waits ∧
      updates waits = [] ∧ batches (.update patches answer :: waits) = [] := by
  rcases e.commit_update_cases limit patches with ⟨_, -, hcalls⟩ | ⟨_, hcalls⟩
  · exact ⟨_, _, hcalls, rfl, rfl⟩
  · exact ⟨_, _, hcalls, rfl, rfl⟩

/-- An update is no batch. -/
theorem batches_commit_update (e : Recorded ε) (limit : Span) (patches : List ImagePatch) :
    batches (SearchEngine.commit limit (SearchEngine.update e patches)).2.calls =
      batches e.calls := by
  obtain ⟨answer, waits, hcalls, -, hnone⟩ := e.calls_commit_update limit patches
  rw [hcalls, batches_append (by simp [BeginsWork]), hnone, List.append_nil]

/-- A commit ends as it does without the recording. -/
theorem commit_add (e : Recorded ε) (limit : Span) (batch : List Document) :
    (SearchEngine.commit limit (SearchEngine.add e batch)).1 =
        (SearchEngine.commit limit (SearchEngine.add e.engine batch)).1 ∧
      (SearchEngine.commit limit (SearchEngine.add e batch)).2.engine =
        (SearchEngine.commit limit (SearchEngine.add e.engine batch)).2 := by
  rcases hadd : SearchEngine.add e.engine batch with ⟨answer, engine⟩
  cases answer <;> simp [SearchEngine.commit, SearchEngine.add, SearchEngine.await, hadd]

/-- An update ends as it does without the recording. -/
theorem commit_update (e : Recorded ε) (limit : Span) (patches : List ImagePatch) :
    (SearchEngine.commit limit (SearchEngine.update e patches)).1 =
        (SearchEngine.commit limit (SearchEngine.update e.engine patches)).1 ∧
      (SearchEngine.commit limit (SearchEngine.update e patches)).2.engine =
        (SearchEngine.commit limit (SearchEngine.update e.engine patches)).2 := by
  rcases hupdate : SearchEngine.update e.engine patches with ⟨answer, engine⟩
  cases answer <;> simp [SearchEngine.commit, SearchEngine.update, SearchEngine.await, hupdate]

end Recorded

/-! ### Calls that do not fail -/

/-- The call did not fail. -/
def EngineCall.succeeded : EngineCall → Bool
  | .add _ answer => answer.isOk
  | .update _ answer => answer.isOk
  | .await _ _ answer => answer.isOk

namespace Recorded

variable {ε : Type}

/-- No call has failed. -/
def Unfailing (e : Recorded ε) : Prop := ∀ call ∈ e.calls, call.succeeded = true

namespace Unfailing

variable [SearchEngine ε] {e : Recorded ε} {limit : Span}

omit [SearchEngine ε] in
/-- Where no call of a commit failed, the wait at its end did not. -/
theorem of_awaited {e' : Recorded ε} {first : EngineCall} {task : UInt64}
    {result : Except EngineError Unit} (h : e'.Unfailing)
    (hcalls : e'.calls = e.calls ++ [first, .await task limit result]) :
    e.Unfailing ∧ result = .ok () := by
  have hlast : (EngineCall.await task limit result).succeeded = true := h _ (by simp [hcalls])
  refine ⟨fun call hcall => h call (hcalls ▸ List.mem_append_left _ hcall), ?_⟩
  cases result with
  | ok _ => rfl
  | error fault => cases hlast

/-- Where no call fails, batches are committed. -/
theorem commit_add {batch : List Document}
    (h : (SearchEngine.commit limit (SearchEngine.add e batch)).2.Unfailing) :
    e.Unfailing ∧ (SearchEngine.commit limit (SearchEngine.add e batch)).1 = .ok () := by
  rcases e.commit_add_cases limit batch with ⟨fault, -, hcalls⟩ | ⟨task, hcalls⟩
  · have hlast := h (.add batch (.error fault)) (by simp [hcalls])
    cases hlast
  · exact h.of_awaited hcalls

/-- Where no call fails, updates are carried out. -/
theorem commit_update {patches : List ImagePatch}
    (h : (SearchEngine.commit limit (SearchEngine.update e patches)).2.Unfailing) :
    e.Unfailing ∧
      (SearchEngine.commit limit (SearchEngine.update e patches)).1 = .ok () := by
  rcases e.commit_update_cases limit patches with ⟨fault, -, hcalls⟩ | ⟨task, hcalls⟩
  · have hlast := h (.update patches (.error fault)) (by simp [hcalls])
    cases hlast
  · exact h.of_awaited hcalls

end Unfailing

end Recorded

end Corpus
