/-
Corpus/Service/Registry.lean

All jobs ever submitted, and for each target the job that holds it.

A target is held from the submission of a job until its worker lets go of it, which is some
time after the job has ended.  In between the target may be taken over by a new job, so a
worker lets go only of what its own job still holds.
-/
import Corpus.Job.Snapshot

namespace Corpus

/-- What becomes of a submission. -/
inductive Submission where
  /-- A new job works on the target. -/
  | started (id : String)
  /-- An earlier job still works on it. -/
  | alreadyRunning (id : String)
  deriving DecidableEq, Repr

namespace Submission

/-- The job that works on the target. -/
def id : Submission → String
  | .started id | .alreadyRunning id => id

def isDuplicate : Submission → Bool
  | .started _ => false
  | .alreadyRunning _ => true

end Submission

/-- The job is not over. -/
def Job.isRunning (job : Job) : Bool := !job.status.isTerminal

/-- All jobs in the order of their submission, and the holders of targets. -/
structure Registry where
  jobs : List Job := []
  holders : List (Path × String) := []
  deriving Repr

namespace Registry

/-- The job with an identifier. -/
def get? (r : Registry) (id : String) : Option Job := r.jobs.find? (·.id == id)

/-- The job that holds a target. -/
def holder? (r : Registry) (target : Path) : Option String := r.holders.lookup target

/-- There is a running job with an identifier. -/
def isRunning (r : Registry) (id : String) : Bool := (r.get? id).any (·.isRunning)

/-- The running job that holds a target. -/
def runningOn? (r : Registry) (target : Path) : Option String :=
  (r.holder? target).filter r.isRunning

/-- Takes in a new job, unless a running one holds its target. -/
def submit (r : Registry) (job : Job) : Submission × Registry :=
  match r.runningOn? job.target with
  | some id => (.alreadyRunning id, r)
  | none =>
    (.started job.id,
      { jobs := r.jobs ++ [job]
        holders := (job.target, job.id) :: r.holders.filter (·.1 != job.target) })

/-- Notes what became of a job. -/
def note (r : Registry) (job : Job) : Registry :=
  { r with jobs := r.jobs.map fun j => if j.id == job.id then job else j }

/-- Lets go of a target on behalf of a job. -/
def release (r : Registry) (target : Path) (id : String) : Registry :=
  if r.holder? target = some id then
    { r with holders := r.holders.filter (·.1 != target) }
  else r

/-- How many jobs run. -/
def running (r : Registry) : Nat := r.jobs.countP (·.isRunning)

/-- The earlier of two snapshots, by their identifiers if they began together. -/
def snapshotLe (a b : Snapshot) : Bool :=
  a.startedAt.before b.startedAt || (a.startedAt == b.startedAt && decide (a.id ≤ b.id))

/-- Snapshots of all jobs, the oldest first. -/
def list (r : Registry) : List Snapshot := (r.jobs.map (·.snapshot)).mergeSort snapshotLe

end Registry

end Corpus
