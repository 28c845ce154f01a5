/-
Corpus/Service/Basic.lean

The service: a registry of jobs, an engine that all of them write to, and a disk.

A job waits in the registry until its worker takes its turn; then it runs to its end.  After
a shutdown has begun every worker finds itself interrupted before its first event.
-/
import Corpus.Disk.Absolute
import Corpus.Ingest.Run
import Corpus.Service.Registry
import Corpus.Settings.Check

namespace Corpus

/-- Why the service does not start. -/
inductive ServiceError where
  | config (fault : SettingsFault)
  | engine (error : EngineError)
  /-- A directory cannot be made. -/
  | directory (path : Path) (fault : Fault)
  deriving DecidableEq, Repr

/-- What is said of an error. -/
def ServiceError.message : ServiceError → String
  | .config fault => "Invalid configuration: Invalid config: " ++ fault.message
  | .engine error => "Search engine unavailable: " ++ error.message
  | .directory path fault => "Cannot prepare " ++ path.shown ++ ": " ++ fault.text

/-- The service with an engine of type `ε`. -/
structure Service (ε : Type) where
  ingestion : Ingestion
  engine : ε
  disk : Disk
  registry : Registry := {}
  /-- A shutdown has begun. -/
  stopped : Bool := false

namespace Service

variable {ε : Type}

/-- Makes directories one after the other. -/
def prepare : List Path → Disk → Except ServiceError Unit × Disk
  | [], d => (.ok (), d)
  | dir :: rest, d =>
    match d.makeDirs dir with
    | (.ok (), d) => prepare rest d
    | (.error fault, d) => (.error (.directory dir fault), d)

/-- Opens the service with a given engine.  Its directories are made first. -/
def openWith (x : Ingestion) (engine : ε) (d : Disk) : Except ServiceError (Service ε) × Disk :=
  match prepare [x.thumbnails.root, x.stagingRoot] d with
  | (.ok (), d) => (.ok { ingestion := x, engine, disk := d }, d)
  | (.error e, d) => (.error e, d)

/-- Opens the service if its settings are in order and its engine can be had. -/
def start (x : Ingestion) (engine : Except EngineError ε) (d : Disk) :
    Except ServiceError (Service ε) × Disk :=
  match x.settings.fault? with
  | some fault => (.error (.config fault), d)
  | none =>
    match engine with
    | .error e => (.error (.engine e), d)
    | .ok engine => openWith x engine d

/-- Submits a job under a new identifier. -/
def submit (s : Service ε) (kind : JobKind) (target : Path) (id : String) (now : Instant) :
    Submission × Service ε :=
  let job := Job.start id kind (s.disk.normalize target)
    s.ingestion.settings.ingest.errorLogCapacity.toNat now
  let (submission, registry) := s.registry.submit job
  (submission, { s with registry })

/-- What is known of a job. -/
def get? (s : Service ε) (id : String) : Option Snapshot :=
  (s.registry.get? id).map (·.snapshot)

variable [SearchEngine ε]

/-- Lets the worker of a job run to its end. -/
def runJob (s : Service ε) (now : Instant) (job : Job) : Service ε :=
  let r := s.ingestion.runJob (fun _ _ => s.stopped) s.engine s.disk job now
  { s with
    engine := r.engine
    disk := r.disk
    registry := (s.registry.note r.job).release job.target job.id }

/-- Lets all workers run that can go on. -/
def advance (s : Service ε) (canGoOn : Job → Bool) (now : Instant) : Service ε :=
  (s.registry.jobs.filter fun job => job.isRunning && canGoOn job).foldl (·.runJob now ·) s

/-- Interrupts all jobs and lets their workers end. -/
def shutdown (s : Service ε) (now : Instant) : Service ε :=
  { s with stopped := true }.advance (fun _ => true) now

end Service

end Corpus
