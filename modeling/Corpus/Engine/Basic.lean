/-
Corpus/Engine/Basic.lean

Search engines.  Every write is a task that the engine works on later: adding and updating
documents give the number of a task, and awaiting it tells how it ended.
-/
import Corpus.Document.Basic
import Corpus.Time.Span

namespace Corpus

/-- What an engine answers when something went wrong. -/
inductive EngineError where
  /-- There was no answer, or none that can be read. -/
  | request (reason : String)
  /-- The engine refused. -/
  | api (status : Nat) (message : String)
  | taskFailed (task : UInt64) (message : String)
  | timeout (task : UInt64) (limit : Span)
  | invalidConfig (message : String)
  deriving DecidableEq, Repr

/-- What is said of an error. -/
def EngineError.message : EngineError → String
  | .request reason => "Request failed: " ++ reason
  | .api status message => "Engine returned " ++ toString status ++ ": " ++ message
  | .taskFailed task message => "Task " ++ toString task.toNat ++ " failed: " ++ message
  | .timeout task limit =>
    "Task " ++ toString task.toNat ++ " did not finish within " ++ limit.text
  | .invalidConfig message => "Invalid engine config: " ++ message

/-- A search engine with state `ε`. -/
class SearchEngine (ε : Type) where
  /-- The name of the engine. -/
  name : String
  /-- Adds documents, each in the place of an old one with its identifier. -/
  add : ε → List Document → Except EngineError UInt64 × ε
  /-- Sets the image fields of documents. -/
  update : ε → List ImagePatch → Except EngineError UInt64 × ε
  /-- Waits for a task no longer than a given time. -/
  await : ε → UInt64 → Span → Except EngineError Unit × ε

end Corpus
