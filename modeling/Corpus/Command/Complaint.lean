/-
Corpus/Command/Complaint.lean

What a command says when it fails: what it could not do, and below that the causes, each
behind the one that it explains.  More than one cause are numbered.
-/
import Corpus.Service.Basic
import Corpus.Settings.Load

namespace Corpus

/-- What could not be done, and why. -/
structure Complaint where
  summary : String
  causes : List String := []
  deriving DecidableEq, Repr

namespace Complaint

/-- A number at the end of five columns. -/
def numberText (n : Nat) : String :=
  let digits := Nat.toDigits 10 n
  String.ofList (List.replicate (5 - digits.length) ' ' ++ digits)

/-- A cause behind its number, if it has one; further lines are set below the first. -/
def causeText (number : Option Nat) (cause : String) : String :=
  let (first, further) := match number with
    | some n => (numberText n ++ ": ", "       ")
    | none => ("    ", "    ")
  first ++ ("\n" ++ further).intercalate (cause.splitOn "\n")

/-- The causes with numbers, if there are several. -/
def causeTexts : List String → List String
  | [cause] => [causeText none cause]
  | causes => causes.zipIdx.map fun (cause, n) => causeText (some n) cause

/-- The whole complaint. -/
def text (c : Complaint) : String :=
  let head := "Error: " ++ c.summary
  let tail :=
    if c.causes.isEmpty then ""
    else "\n\nCaused by:\n" ++ "\n".intercalate (causeTexts c.causes)
  head ++ tail ++ "\n"

end Complaint

/-- The chain of causes that begins with a failure to load settings. -/
def Settings.LoadError.causes (e : Settings.LoadError) : List String :=
  match e with
  | .unreadable _ reason => [e.message, reason]
  | .malformed _ => [e.message, ""]
  | .invalid _ => [e.message]

/-- The chain of causes that begins with a failure to start the service. -/
def ServiceError.causes (e : ServiceError) : List String :=
  match e with
  | .config fault => [e.message, (Settings.LoadError.invalid fault).message]
  | .engine error => [e.message, error.message]
  | .directory _ fault => [e.message, fault.text]

end Corpus
