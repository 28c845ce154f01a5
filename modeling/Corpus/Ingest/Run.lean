/-
Corpus/Ingest/Run.lean

A job from its start to its end: opens the source that fits the target, runs a worker over
it, and removes the job's staging directory whatever happened.
-/
import Corpus.Extractor.Feed
import Corpus.Ingest.Worker
import Corpus.Settings.Places
import Corpus.Source.Archive
import Corpus.Source.Folder

namespace Corpus

/-- What all jobs share. -/
structure Ingestion where
  settings : Settings
  thumbnails : Thumbnails
  /-- Each job has its own directory below this one. -/
  stagingRoot : Path
  programs : Programs
  /-- The probe that each job starts with. -/
  probe : Probe

namespace Ingestion

/-- Where the settings and the environment put thumbnails and staging directories. -/
def ofSettings (settings : Settings) (e : Environment) (programs : Programs) (probe : Probe) :
    Ingestion :=
  { settings
    thumbnails :=
      .ofRoot (settings.ingest.thumbnailRoot e) settings.ingest.thumbnailUrlPrefix
    stagingRoot := settings.ingest.stagingRoot e
    programs
    probe }

/-- The staging directory of a job. -/
def stagingOf (x : Ingestion) (id : String) : Path := x.stagingRoot.join (.ofText id)

/-- The directory, below that of a job, for entries of archives. -/
def scratchIn (staging : Path) : Path := staging.join (.ofText "scratch")

def extractor (x : Ingestion) : TextExtractor := ⟨x.settings.extractor, x.programs⟩

def filter (x : Ingestion) : EntryFilter := .ofExtensions x.settings.ingest.allowedExtensions

/-- Opens a packed encyclopedia. -/
def openStream (x : Ingestion) (d : Disk) (target staging : Path) :
    Except SourceError Source × Disk :=
  match d.makeDirs staging with
  | (.error fault, d) => (.error (.io fault.text), d)
  | (.ok (), d) =>
    match x.settings.extractor.launchStream x.programs d target staging with
    | .error e => (.error e, d)
    | .ok run => (.ok (run.source (.ofPath .zim target)), d)

/-- Opens an archive by the extension of its name. -/
def openArchive (x : Ingestion) (d : Disk) (target staging : Path) :
    Except SourceError Source × Disk :=
  if d.isFile target then
    let extension := Text.toLower (EntryName.extension target.shown)
    if extension = "zim" then x.openStream d target staging
    else if extension = "zip" then
      match Archive.openSource x.filter x.extractor d target (scratchIn staging) with
      | .ok (source, d) => (.ok source, d)
      | .error e => (.error e, d)
    else (.error (.unsupportedArchive target), d)
  else (.error (.notFound target), d)

/-- Opens the source of a job. -/
def openSource (x : Ingestion) (d : Disk) (kind : JobKind) (target staging : Path) :
    Except SourceError Source × Disk :=
  match kind with
  | .folderSync => (Folder.openSource x.filter x.extractor d target, d)
  | .archiveIndex => x.openArchive d target staging

/-- Removes a staging directory if it is there. -/
def removeStaging (d : Disk) (staging : Path) : Disk :=
  match d.removeDir staging with
  | .ok d => d
  | .error _ => d

variable {ε : Type} [SearchEngine ε]

/-- The pipeline that a job starts with. -/
def pipeline (x : Ingestion) (engine : ε) (job : Job) (d : Disk) : Pipeline ε :=
  { writer :=
      { engine
        job
        commitTimeout := x.settings.engine.commitTimeout
        maintenanceTimeout := x.settings.engine.maintenanceTimeout }
    monitor := .start x.settings.monitor x.probe
    disk := d
    thumbnails := x.thumbnails
    deferred := x.settings.deferred }

/-- What a job leaves: the engine, itself in a final state, and the disk. -/
structure Result (ε : Type) where
  engine : ε
  job : Job
  disk : Disk

/-- Runs a job to its end. -/
def runJob (x : Ingestion) (interrupt : ε → Nat → Bool) (engine : ε) (d : Disk) (job : Job)
    (now : Instant) : Result ε :=
  let staging := x.stagingOf job.id
  match x.openSource d job.kind job.target staging with
  -- a source that cannot be opened may have made the staging directory before it failed
  | (.error e, d) => ⟨engine, job.fail e.message none now, removeStaging d staging⟩
  | (.ok source, d) =>
    let worker : Worker := ⟨source.provenance, x.settings.ingest⟩
    let p := worker.run interrupt source now (x.pipeline engine job d)
    ⟨p.writer.engine, p.writer.job, removeStaging p.disk staging⟩

end Ingestion

end Corpus
