/-
Corpus/Settings/Sections.lean

Settings taken apart into sections of named values, in the order in which they are written.
An optional field that is not set has no value.
-/
import Corpus.Settings.File
import Corpus.Toml.Printer

namespace Corpus

/-- A count as a value. -/
def Toml.Value.count (n : UInt64) : Toml.Value := .integer n.toNat

/-- Texts as a value. -/
def Toml.Value.texts (ts : List String) : Toml.Value := .array (ts.map .string)

/-- The values of the fields. -/
def EngineSettings.values (s : EngineSettings) : List (Option Toml.Value) :=
  [some (.string s.url), s.apiKey.map .string, some (.string s.index),
    some (.count s.commitTimeoutSecs), some (.count s.maintenanceTimeoutSecs),
    some (.count s.taskPollMs), some (.count s.requestTimeoutSecs)]

/-- The values of the fields. -/
def MonitorSettings.values (s : MonitorSettings) : List (Option Toml.Value) :=
  [ .count s.batchMin, .count s.batchDefault, .count s.batchMax, .count s.batchStepUp,
    .count s.batchStepDown, .float s.memoryCritical, .float s.memoryHigh,
    .float s.memoryModerate, .float s.memoryLow, .float s.loadHigh, .float s.loadElevated,
    .count s.criticalSleepMs, .count s.highSleepMs, .count s.moderateSleepMs,
    .count s.loadHighSleepMs, .count s.loadElevatedSleepMs, .count s.sampleInterval,
    .count s.cooldownPollMs, .count s.cooldownMaxWaitMs, .count s.cooldownRecheckWaitMs
    ].map some

/-- The values of the fields. -/
def DeferredSettings.values (s : DeferredSettings) : List (Option Toml.Value) :=
  [.count s.drainChunk, .count s.patchBatch].map some

/-- The values of the fields. -/
def ExtractorSettings.values (s : ExtractorSettings) : List (Option Toml.Value) :=
  [.string s.command, .texts s.args, .count s.exitTimeoutSecs,
    .count s.singleFileTimeoutSecs].map some

/-- The values of the fields. -/
def IngestSettings.values (s : IngestSettings) : List (Option Toml.Value) :=
  [some (.texts s.allowedExtensions), some (.count s.maxContentChars),
    some (.count s.minTextChars), some (.count s.errorLogCapacity),
    some (.count s.progressLogInterval), s.thumbnailDir.map .string,
    some (.string s.thumbnailUrlPrefix), s.stagingDir.map .string]

/-- The values of the fields. -/
def DaemonSettings.values (s : DaemonSettings) : List (Option Toml.Value) :=
  [.string s.logLevel, .string s.logRotation].map some

namespace Settings

/-- All sections with all their fields. -/
def sections (s : Settings) : List (String × List (String × Option Toml.Value)) :=
  [ ("engine", EngineSettings.fieldNames.zip s.engine.values),
    ("monitor", MonitorSettings.fieldNames.zip s.monitor.values),
    ("deferred", DeferredSettings.fieldNames.zip s.deferred.values),
    ("extractor", ExtractorSettings.fieldNames.zip s.extractor.values),
    ("ingest", IngestSettings.fieldNames.zip s.ingest.values),
    ("daemon", DaemonSettings.fieldNames.zip s.daemon.values) ]

/-- The settings as a document. -/
def text (s : Settings) : String :=
  Toml.writeSections <| s.sections.map fun (title, fields) =>
    (title, fields.filterMap fun (name, v) => v.map (name, ·))

end Settings

end Corpus
