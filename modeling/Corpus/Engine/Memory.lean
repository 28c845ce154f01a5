/-
Corpus/Engine/Memory.lean

An engine in memory.  Its index keeps one object per identifier: adding a document replaces
the whole object, and an update sets the image fields of an old object or makes one that has
no others.  A script tells how it answers each call.
-/
import Corpus.Engine.Basic

namespace Corpus

/-- An object of the index: the document added last, if one ever was, and the image fields
in force. -/
structure Stored where
  id : String
  document : Option Document
  images : ImageMetadata
  deriving DecidableEq, Repr

/-- The objects of an index, one per identifier. -/
structure Index where
  objects : List Stored := []
  deriving DecidableEq, Repr

namespace Index

/-- The object with an identifier. -/
def get? (x : Index) (id : String) : Option Stored := x.objects.find? (·.id == id)

/-- Puts an object in the place of the one with its identifier, or behind all others. -/
def put (x : Index) (s : Stored) : Index :=
  if x.objects.any (·.id == s.id) then ⟨x.objects.map fun o => if o.id == s.id then s else o⟩
  else ⟨x.objects ++ [s]⟩

/-- Adds a document. -/
def add (x : Index) (d : Document) : Index := x.put ⟨d.id, some d, d.images⟩

/-- Sets image fields. -/
def update (x : Index) (p : ImagePatch) : Index :=
  x.put ⟨p.id, (x.get? p.id).bind (·.document), p.images⟩

/-- Adds documents in order. -/
def addAll (x : Index) (ds : List Document) : Index := ds.foldl add x

/-- Sets image fields in order. -/
def updateAll (x : Index) (ps : List ImagePatch) : Index := ps.foldl update x

end Index

/-- How the engine answers a call. -/
inductive Reply where
  | accept
  /-- The call is refused and takes no task. -/
  | refuse
  /-- A task is given that stores nothing and never ends. -/
  | stall
  /-- The call is carried out, but its task fails with a message. -/
  | reject (message : String)
  /-- The call is carried out and the service is told to stop. -/
  | interrupt
  deriving DecidableEq, Repr

/-- The engine: its index, its script and what it was asked. -/
structure MemoryEngine where
  index : Index := {}
  addReplies : List Reply := []
  updateReplies : List Reply := []
  nextTask : UInt64 := 0
  /-- Tasks that never end. -/
  stalled : List UInt64 := []
  /-- Tasks that fail, with their messages. -/
  failing : List (UInt64 × String) := []
  interrupted : Bool := false
  /-- The size of every batch it was asked to add, latest first. -/
  batchSizes : List Nat := []
  /-- The identifiers of every update, latest first. -/
  updates : List (List String) := []
  deriving Repr

namespace MemoryEngine

/-- The reply to the next call, and the replies to those after it. -/
def takeReply : List Reply → Reply × List Reply
  | [] => (.accept, [])
  | r :: rest => (r, rest)

/-- Answers a call whose effect is the given index. -/
def answer (e : MemoryEngine) (reply : Reply) (refusal : String) (changed : Index) :
    Except EngineError UInt64 × MemoryEngine :=
  let task := e.nextTask
  match reply with
  | .refuse => (.error (.api 503 refusal), e)
  | .stall => (.ok task, { e with nextTask := task + 1, stalled := task :: e.stalled })
  | .accept => (.ok task, { e with nextTask := task + 1, index := changed })
  | .reject message =>
    (.ok task,
      { e with nextTask := task + 1, index := changed, failing := (task, message) :: e.failing })
  | .interrupt => (.ok task, { e with nextTask := task + 1, index := changed, interrupted := true })

/-- Adds documents as the script says. -/
def add (e : MemoryEngine) (ds : List Document) : Except EngineError UInt64 × MemoryEngine :=
  let (reply, rest) := takeReply e.addReplies
  let e := { e with addReplies := rest, batchSizes := ds.length :: e.batchSizes }
  e.answer reply "injected add failure" (e.index.addAll ds)

/-- Sets image fields as the script says. -/
def update (e : MemoryEngine) (ps : List ImagePatch) : Except EngineError UInt64 × MemoryEngine :=
  let (reply, rest) := takeReply e.updateReplies
  let e := { e with updateReplies := rest, updates := ps.map ImagePatch.id :: e.updates }
  e.answer reply "injected update failure" (e.index.updateAll ps)

/-- Waits for a task. -/
def await (e : MemoryEngine) (task : UInt64) (limit : Span) : Except EngineError Unit :=
  if e.stalled.contains task then .error (.timeout task limit)
  else
    match e.failing.lookup task with
    | some message => .error (.taskFailed task message)
    | none => .ok ()

instance : SearchEngine MemoryEngine where
  name := "memory"
  add := add
  update := update
  await e task limit := (e.await task limit, e)

end MemoryEngine

end Corpus
