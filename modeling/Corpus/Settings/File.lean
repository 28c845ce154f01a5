/-
Corpus/Settings/File.lean

Settings read from a file.  Sections and fields may be missing and unknown ones are passed
over.  A section may also be an array with the values of its first fields in order, and a
date in its place counts as an empty section.
-/
import Corpus.Disk.Path
import Corpus.Settings.Check
import Corpus.Toml.Reader

namespace Corpus

/-! ### Fields -/

namespace Toml.Value

/-- A text. -/
def asText? : Value → Option String
  | .string s => some s
  | _ => none

/-- A natural number below `2 ^ 64`. -/
def asCount? : Value → Option UInt64
  | .integer n => if 0 ≤ n && n < UInt64.size then some (UInt64.ofNat n.toNat) else none
  | _ => none

/-- A float, or an integer that fits a word of 64 bits with or without a sign. -/
def asFloat? : Value → Option Float
  | .float x => some x
  | .integer n =>
    if 0 ≤ n && n < UInt64.size then some (UInt64.ofNat n.toNat).toFloat
    else if -(Nat.pow 2 63) ≤ n && n < 0 then some (-(UInt64.ofNat n.natAbs).toFloat)
    else none
  | _ => none

/-- An array of texts. -/
def asTexts? : Value → Option (List String)
  | .array items => items.mapM asText?
  | _ => none

end Toml.Value

/-- The fields of a section: found by name, or by position in the order of the names. -/
structure Section where
  names : List String
  fields : List (String × Toml.Value)

namespace Section

/-- A section of the document. -/
def of? (document : List (String × Toml.Value)) (title : String) (names : List String) :
    Option Section :=
  match document.lookup title with
  | none | some .moment => some ⟨names, []⟩
  | some (.table entries) => some ⟨names, entries⟩
  | some (.array items) => some ⟨names, names.zip items⟩
  | some _ => none

/-- A field, or what it is by default. -/
def get {α : Type} (s : Section) (name : String) (default : α)
    (read : Toml.Value → Option α) : Option α :=
  match s.fields.lookup name with
  | some v => read v
  | none => some default

end Section

/-! ### Sections -/

namespace EngineSettings

def fieldNames : List String :=
  ["url", "api_key", "index", "commit_timeout_secs", "maintenance_timeout_secs",
    "task_poll_ms", "request_timeout_secs"]

/-- Reads the section. -/
def read? (s : Section) : Option EngineSettings := do
  let d : EngineSettings := {}
  let url ← s.get "url" d.url (·.asText?)
  let apiKey ← s.get "api_key" d.apiKey fun v => v.asText?.map some
  let index ← s.get "index" d.index (·.asText?)
  let commitTimeoutSecs ← s.get "commit_timeout_secs" d.commitTimeoutSecs (·.asCount?)
  let maintenanceTimeoutSecs ←
    s.get "maintenance_timeout_secs" d.maintenanceTimeoutSecs (·.asCount?)
  let taskPollMs ← s.get "task_poll_ms" d.taskPollMs (·.asCount?)
  let requestTimeoutSecs ← s.get "request_timeout_secs" d.requestTimeoutSecs (·.asCount?)
  some { url, apiKey, index, commitTimeoutSecs, maintenanceTimeoutSecs, taskPollMs,
         requestTimeoutSecs }

end EngineSettings

namespace MonitorSettings

def fieldNames : List String :=
  ["batch_min", "batch_default", "batch_max", "batch_step_up", "batch_step_down",
    "memory_critical", "memory_high", "memory_moderate", "memory_low", "load_high",
    "load_elevated", "critical_sleep_ms", "high_sleep_ms", "moderate_sleep_ms",
    "load_high_sleep_ms", "load_elevated_sleep_ms", "sample_interval", "cooldown_poll_ms",
    "cooldown_max_wait_ms", "cooldown_recheck_wait_ms"]

/-- Reads the section. -/
def read? (s : Section) : Option MonitorSettings := do
  let d : MonitorSettings := {}
  let batchMin ← s.get "batch_min" d.batchMin (·.asCount?)
  let batchDefault ← s.get "batch_default" d.batchDefault (·.asCount?)
  let batchMax ← s.get "batch_max" d.batchMax (·.asCount?)
  let batchStepUp ← s.get "batch_step_up" d.batchStepUp (·.asCount?)
  let batchStepDown ← s.get "batch_step_down" d.batchStepDown (·.asCount?)
  let memoryCritical ← s.get "memory_critical" d.memoryCritical (·.asFloat?)
  let memoryHigh ← s.get "memory_high" d.memoryHigh (·.asFloat?)
  let memoryModerate ← s.get "memory_moderate" d.memoryModerate (·.asFloat?)
  let memoryLow ← s.get "memory_low" d.memoryLow (·.asFloat?)
  let loadHigh ← s.get "load_high" d.loadHigh (·.asFloat?)
  let loadElevated ← s.get "load_elevated" d.loadElevated (·.asFloat?)
  let criticalSleepMs ← s.get "critical_sleep_ms" d.criticalSleepMs (·.asCount?)
  let highSleepMs ← s.get "high_sleep_ms" d.highSleepMs (·.asCount?)
  let moderateSleepMs ← s.get "moderate_sleep_ms" d.moderateSleepMs (·.asCount?)
  let loadHighSleepMs ← s.get "load_high_sleep_ms" d.loadHighSleepMs (·.asCount?)
  let loadElevatedSleepMs ← s.get "load_elevated_sleep_ms" d.loadElevatedSleepMs (·.asCount?)
  let sampleInterval ← s.get "sample_interval" d.sampleInterval (·.asCount?)
  let cooldownPollMs ← s.get "cooldown_poll_ms" d.cooldownPollMs (·.asCount?)
  let cooldownMaxWaitMs ← s.get "cooldown_max_wait_ms" d.cooldownMaxWaitMs (·.asCount?)
  let cooldownRecheckWaitMs ←
    s.get "cooldown_recheck_wait_ms" d.cooldownRecheckWaitMs (·.asCount?)
  some { batchMin, batchDefault, batchMax, batchStepUp, batchStepDown, memoryCritical, memoryHigh,
         memoryModerate, memoryLow, loadHigh, loadElevated, criticalSleepMs, highSleepMs,
         moderateSleepMs, loadHighSleepMs, loadElevatedSleepMs, sampleInterval, cooldownPollMs,
         cooldownMaxWaitMs, cooldownRecheckWaitMs }

end MonitorSettings

namespace DeferredSettings

def fieldNames : List String := ["drain_chunk", "patch_batch"]

/-- Reads the section. -/
def read? (s : Section) : Option DeferredSettings := do
  let d : DeferredSettings := {}
  let drainChunk ← s.get "drain_chunk" d.drainChunk (·.asCount?)
  let patchBatch ← s.get "patch_batch" d.patchBatch (·.asCount?)
  some { drainChunk, patchBatch }

end DeferredSettings

namespace ExtractorSettings

def fieldNames : List String :=
  ["command", "args", "exit_timeout_secs", "single_file_timeout_secs"]

/-- Reads the section. -/
def read? (s : Section) : Option ExtractorSettings := do
  let d : ExtractorSettings := {}
  let command ← s.get "command" d.command (·.asText?)
  let args ← s.get "args" d.args (·.asTexts?)
  let exitTimeoutSecs ← s.get "exit_timeout_secs" d.exitTimeoutSecs (·.asCount?)
  let singleFileTimeoutSecs ←
    s.get "single_file_timeout_secs" d.singleFileTimeoutSecs (·.asCount?)
  some { command, args, exitTimeoutSecs, singleFileTimeoutSecs }

end ExtractorSettings

namespace IngestSettings

def fieldNames : List String :=
  ["allowed_extensions", "max_content_chars", "min_text_chars", "error_log_capacity",
    "progress_log_interval", "thumbnail_dir", "thumbnail_url_prefix", "staging_dir"]

/-- Reads the section. -/
def read? (s : Section) : Option IngestSettings := do
  let d : IngestSettings := {}
  let allowedExtensions ← s.get "allowed_extensions" d.allowedExtensions (·.asTexts?)
  let maxContentChars ← s.get "max_content_chars" d.maxContentChars (·.asCount?)
  let minTextChars ← s.get "min_text_chars" d.minTextChars (·.asCount?)
  let errorLogCapacity ← s.get "error_log_capacity" d.errorLogCapacity (·.asCount?)
  let progressLogInterval ← s.get "progress_log_interval" d.progressLogInterval (·.asCount?)
  let thumbnailDir ← s.get "thumbnail_dir" d.thumbnailDir fun v => v.asText?.map some
  let thumbnailUrlPrefix ← s.get "thumbnail_url_prefix" d.thumbnailUrlPrefix (·.asText?)
  let stagingDir ← s.get "staging_dir" d.stagingDir fun v => v.asText?.map some
  some { allowedExtensions, maxContentChars, minTextChars, errorLogCapacity, progressLogInterval,
         thumbnailDir, thumbnailUrlPrefix, stagingDir }

end IngestSettings

namespace DaemonSettings

def fieldNames : List String := ["log_level", "log_rotation"]

/-- Reads the section. -/
def read? (s : Section) : Option DaemonSettings := do
  let d : DaemonSettings := {}
  let logLevel ← s.get "log_level" d.logLevel (·.asText?)
  let logRotation ← s.get "log_rotation" d.logRotation (·.asText?)
  some { logLevel, logRotation }

end DaemonSettings

/-! ### Files -/

namespace Settings

/-- The settings of a document. -/
def ofDocument? (document : List (String × Toml.Value)) : Option Settings := do
  let engine ← (← Section.of? document "engine" EngineSettings.fieldNames) |> EngineSettings.read?
  let monitor ←
    (← Section.of? document "monitor" MonitorSettings.fieldNames) |> MonitorSettings.read?
  let deferred ←
    (← Section.of? document "deferred" DeferredSettings.fieldNames) |> DeferredSettings.read?
  let extractor ←
    (← Section.of? document "extractor" ExtractorSettings.fieldNames) |> ExtractorSettings.read?
  let ingest ← (← Section.of? document "ingest" IngestSettings.fieldNames) |> IngestSettings.read?
  let daemon ← (← Section.of? document "daemon" DaemonSettings.fieldNames) |> DaemonSettings.read?
  some { engine, monitor, deferred, extractor, ingest, daemon }

/-- Reads the settings of a document. -/
def read? (text : String) : Option Settings := (Toml.read? text).bind ofDocument?

/-- Why there are no settings. -/
inductive LoadError where
  /-- The file cannot be read, for the reason given. -/
  | unreadable (path : Path) (reason : String)
  /-- The file is no document, or a field has the wrong type. -/
  | malformed (path : Path)
  | invalid (fault : SettingsFault)
  deriving DecidableEq, Repr

/-- What is said of a failure; what is wrong inside a malformed document is left out. -/
def LoadError.message : LoadError → String
  | .unreadable path reason => "Failed to read config " ++ path.shown ++ ": " ++ reason
  | .malformed path => "Failed to parse config " ++ path.shown ++ ": "
  | .invalid fault => "Invalid config: " ++ fault.message

/-- The settings in the bytes of a file. -/
def ofBytes (path : Path) (content : Bytes) : Except LoadError Settings :=
  match Text.decode? content with
  | none => .error (.unreadable path "stream did not contain valid UTF-8")
  | some text =>
    match read? text with
    | none => .error (.malformed path)
    | some settings =>
      match settings.fault? with
      | some fault => .error (.invalid fault)
      | none => .ok settings

end Settings

end Corpus
