/-
Corpus/Settings/Basic.lean

The settings of the service in six sections, each with a default for every field.
-/
import Corpus.Time.Span

namespace Corpus

/-- How to reach the search engine. -/
structure EngineSettings where
  url : String := "http://127.0.0.1:7700"
  /-- The key; an environment variable takes its place where it is unset. -/
  apiKey : Option String := none
  /-- The name of the index that documents go to. -/
  index : String := "documents"
  /-- How long the commit of a batch may take. -/
  commitTimeoutSecs : UInt64 := 60
  /-- How long an update of image fields may take. -/
  maintenanceTimeoutSecs : UInt64 := 30
  /-- The pause between two questions for the state of a task. -/
  taskPollMs : UInt64 := 50
  /-- How long one request may take. -/
  requestTimeoutSecs : UInt64 := 30
  deriving Repr, Inhabited

/-- The thresholds and step sizes of the pressure ladder. -/
structure MonitorSettings where
  batchMin : UInt64 := 10
  batchDefault : UInt64 := 50
  batchMax : UInt64 := 400
  /-- Growth per sample under low pressure. -/
  batchStepUp : UInt64 := 10
  /-- Shrinkage per sample under moderate pressure. -/
  batchStepDown : UInt64 := 5
  /-- Fractions of memory in use at which the bands begin. -/
  memoryCritical : Float := 0.90
  memoryHigh : Float := 0.80
  memoryModerate : Float := 0.65
  memoryLow : Float := 0.50
  /-- Loads per processor above which the ladder tightens. -/
  loadHigh : Float := 2.0
  loadElevated : Float := 1.5
  criticalSleepMs : UInt64 := 2000
  highSleepMs : UInt64 := 200
  moderateSleepMs : UInt64 := 50
  loadHighSleepMs : UInt64 := 300
  loadElevatedSleepMs : UInt64 := 100
  /-- How many records pass between two samples. -/
  sampleInterval : UInt64 := 50
  cooldownPollMs : UInt64 := 1000
  /-- The wait before the images left over at the end are taken up. -/
  cooldownMaxWaitMs : UInt64 := 60000
  /-- The wait between chunks of them while memory stays high. -/
  cooldownRecheckWaitMs : UInt64 := 30000
  deriving Repr, Inhabited

/-- How many images left for later are taken up at once. -/
structure DeferredSettings where
  /-- Images taken up between batches. -/
  drainChunk : UInt64 := 100
  /-- Patches in one update at the end. -/
  patchBatch : UInt64 := 50
  deriving DecidableEq, Repr, Inhabited

/-- The external program that reads archives and documents. -/
structure ExtractorSettings where
  command : String := "doc_extractor"
  /-- Arguments placed before those of a call. -/
  args : List String := []
  /-- How long the program may go on after its output has ended. -/
  exitTimeoutSecs : UInt64 := 30
  singleFileTimeoutSecs : UInt64 := 120
  deriving DecidableEq, Repr, Inhabited

/-- The extensions that are indexed by default. -/
def Settings.defaultExtensions : List String :=
  ["pdf", "txt", "docx", "doc", "md", "xlsx", "html", "htm", "jpg", "jpeg", "png", "gif",
    "webp", "svg", "bmp"]

/-- What is indexed and where its images go. -/
structure IngestSettings where
  allowedExtensions : List String := Settings.defaultExtensions
  /-- Content is cut to this many characters. -/
  maxContentChars : UInt64 := 100000
  /-- A record with less text than this fails. -/
  minTextChars : UInt64 := 10
  errorLogCapacity : UInt64 := 50
  progressLogInterval : UInt64 := 1000
  thumbnailDir : Option String := none
  /-- What stands before the path of a thumbnail in a document. -/
  thumbnailUrlPrefix : String := "/static/thumbnails"
  stagingDir : Option String := none
  deriving DecidableEq, Repr, Inhabited

/-- What is logged and how log files are cut. -/
structure DaemonSettings where
  logLevel : String := "info"
  logRotation : String := "daily"
  deriving DecidableEq, Repr, Inhabited

/-- All settings. -/
structure Settings where
  engine : EngineSettings := {}
  monitor : MonitorSettings := {}
  deferred : DeferredSettings := {}
  extractor : ExtractorSettings := {}
  ingest : IngestSettings := {}
  daemon : DaemonSettings := {}
  deriving Repr, Inhabited

namespace EngineSettings

/-- How long the commit of a batch may take. -/
def commitTimeout (s : EngineSettings) : Span := .ofSeconds s.commitTimeoutSecs.toNat

/-- How long an update of image fields may take. -/
def maintenanceTimeout (s : EngineSettings) : Span := .ofSeconds s.maintenanceTimeoutSecs.toNat

end EngineSettings

end Corpus
