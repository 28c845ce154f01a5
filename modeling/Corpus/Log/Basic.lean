/-
Corpus/Log/Basic.lean

Messages for the log.  Every message has a level and the name of the part of the program
that writes it; what it says besides is of no concern here.
-/
namespace Corpus.Log

/-- How much a message matters. -/
inductive Level where
  | error
  | warn
  | info
  | debug
  | trace
  deriving DecidableEq, Repr

namespace Level

/-- The place among the levels, from one for what matters most. -/
def rank : Level → Nat
  | .error => 1
  | .warn => 2
  | .info => 3
  | .debug => 4
  | .trace => 5

/-- The word for a level. -/
def word : Level → String
  | .error => "ERROR"
  | .warn => "WARN"
  | .info => "INFO"
  | .debug => "DEBUG"
  | .trace => "TRACE"

end Level

/-- A message. -/
structure Message where
  level : Level
  /-- The part of the program that writes it. -/
  part : String
  deriving DecidableEq, Repr

/-- A message of a part of the service. -/
def say (level : Level) (part : String) : Message := ⟨level, "corpusd::" ++ part⟩

end Corpus.Log
