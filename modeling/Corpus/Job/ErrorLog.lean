/-
Corpus/Job/ErrorLog.lean

The error log of a job.  It keeps the latest messages up to its capacity and counts the
ones it had to drop.
-/
namespace Corpus

/-- A log of bounded length. -/
structure ErrorLog where
  capacity : Nat
  /-- The messages kept, oldest first. -/
  entries : List String := []
  dropped : UInt64 := 0
  deriving DecidableEq, Repr, Inhabited

namespace ErrorLog

/-- A log without messages. -/
def empty (capacity : Nat) : ErrorLog := { capacity }

/-- Adds a message, dropping the oldest one of a full log. -/
def push (log : ErrorLog) (message : String) : ErrorLog :=
  if log.capacity = 0 then { log with dropped := log.dropped + 1 }
  else if log.entries.length = log.capacity then
    { log with entries := log.entries.drop 1 ++ [message], dropped := log.dropped + 1 }
  else { log with entries := log.entries ++ [message] }

/-- How many messages are kept. -/
def size (log : ErrorLog) : Nat := log.entries.length

/-- No message is kept. -/
def isEmpty (log : ErrorLog) : Bool := log.entries.isEmpty

end ErrorLog

end Corpus
