/-
Corpus/Extractor/RunReport.lean

How a run of the streaming extractor ended, and what is said of it.  A run that gave no
record and did not succeed is fatal for the job; one that gave records and did not succeed
is an anomaly.  A message quotes the diagnostics where there are any.
-/
import Corpus.Extractor.Diagnostics

namespace Corpus

/-- How a run of the streaming extractor ended. -/
structure RunReport where
  records : UInt64 := 0
  /-- Lines that were no record. -/
  malformed : UInt64 := 0
  /-- The exit code, if the extractor exited by itself. -/
  exitCode : Option Int := none
  /-- The end of what it wrote beside its output. -/
  diagnostics : String := ""
  /-- It did not exit in time. -/
  killed : Bool := false
  deriving DecidableEq, Repr

namespace RunReport

def succeeded (r : RunReport) : Bool := r.exitCode == some 0

/-- Nothing useful happened. -/
def isFatal (r : RunReport) : Bool := r.records == 0 && !r.succeeded

/-- The ending in words. -/
def ending (r : RunReport) : String :=
  if r.killed then "extractor did not exit and was killed"
  else
    match r.exitCode with
    | some code => "extractor exited with code " ++ toString code
    | none => "extractor terminated by signal"

/-- The part of the diagnostics that is quoted. -/
def quote (r : RunReport) : String := Diagnostics.quote r.diagnostics

/-- What makes the job fail. -/
def fatal? (r : RunReport) : Option String :=
  if r.isFatal then some (if r.quote.isEmpty then r.ending else r.quote) else none

/-- What is noted although the job goes on. -/
def anomaly? (r : RunReport) : Option String :=
  if r.succeeded || r.isFatal then none
  else
    let message := r.ending ++ " after " ++ toString r.records.toNat ++ " records"
    some (if r.quote.isEmpty then message else message ++ ": " ++ r.quote)

end RunReport

end Corpus
