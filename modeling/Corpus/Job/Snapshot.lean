/-
Corpus/Job/Snapshot.lean

Snapshots: what a reader sees of a job at one moment, and its JSON form.
-/
import Corpus.Job.Basic
import Corpus.Json.Printer
import Corpus.Number.Shortest

namespace Corpus

/-- What a reader sees of a job. -/
structure Snapshot where
  id : String
  kind : JobKind
  target : Path
  status : JobStatus
  tally : Tally
  /-- The latest errors, oldest first. -/
  errors : List String
  errorsDropped : UInt64
  fatalError : Option String
  startedAt : Instant
  finishedAt : Option Instant
  monitor : Option MonitorSummary
  deriving Repr

/-- What a reader sees of the job now. -/
def Job.snapshot (job : Job) : Snapshot :=
  { id := job.id
    kind := job.kind
    target := job.target
    status := job.status
    tally := job.tally
    errors := job.errors.entries
    errorsDropped := job.errors.dropped
    fatalError := job.fatalError
    startedAt := job.startedAt
    finishedAt := job.finishedAt
    monitor := job.monitor }

/-! ### Writing -/

/-- A double as a JSON number. -/
def Json.Value.float (x : Float) : Json.Value := .number (Text.encode (Number.compactText x))

/-- A value that may be missing. -/
def Json.Value.option {α : Type} (write : α → Json.Value) : Option α → Json.Value
  | some a => write a
  | none => .null

/-- The fields of a summary. -/
def MonitorSummary.members (s : MonitorSummary) : List (String × Json.Value) :=
  [ ("samples", .count s.samples),
    ("adjustments", .count s.adjustments),
    ("cooldowns", .count s.cooldowns),
    ("final_batch_size", .count s.finalBatchSize),
    ("last_memory_usage", .float s.lastMemoryUsage) ]

/-- The counters. -/
def Tally.members (t : Tally) : List (String × Json.Value) :=
  [ ("total", .count t.total),
    ("processed", .count t.processed),
    ("indexed", .count t.indexed),
    ("failed", .count t.failed),
    ("skipped", .count t.skipped),
    ("images", .count t.images),
    ("images_failed", .count t.imagesFailed),
    ("images_skipped_icon", .count t.imagesSkippedIcon),
    ("images_skipped_not_found", .count t.imagesSkippedNotFound),
    ("deferred", .count t.deferred) ]

/-- The JSON form of a snapshot; none if its target is no text. -/
def Snapshot.toJson? (s : Snapshot) : Option Json.Value := do
  let target ← Text.decode? s.target.bytes
  some <| .record <|
    [ ("id", .text s.id), ("kind", .text s.kind.word), ("target", .text target),
      ("status", .text s.status.word) ] ++
    s.tally.members ++
    [ ("errors", .array (s.errors.map .text)),
      ("errors_dropped", .count s.errorsDropped),
      ("fatal_error", .option .text s.fatalError),
      ("started_at", .text s.startedAt.text),
      ("finished_at", .option (fun t => .text t.text) s.finishedAt),
      ("monitor", .option (fun m => .record m.members) s.monitor) ]

/-! ### Reading -/

/-- Reads a summary. -/
def MonitorSummary.ofMembers? (members : List (String × Json.Value)) : Option MonitorSummary := do
  let samples ← Json.required? members "samples" (·.asCount?)
  let adjustments ← Json.required? members "adjustments" (·.asCount?)
  let cooldowns ← Json.required? members "cooldowns" (·.asCount?)
  let finalBatchSize ← Json.required? members "final_batch_size" (·.asCount?)
  let lastMemoryUsage ← Json.required? members "last_memory_usage" (·.asFloat?)
  some { samples, adjustments, cooldowns, finalBatchSize, lastMemoryUsage }

/-- Reads a summary written as an object, or as an array of its fields in order. -/
def MonitorSummary.ofJson? : Json.Value → Option MonitorSummary
  | .array [a, b, c, d, e] =>
    ofMembers? [("samples", a), ("adjustments", b), ("cooldowns", c), ("final_batch_size", d),
      ("last_memory_usage", e)]
  | .array _ => none
  | v => do ofMembers? (← v.named?)

/-- Reads the counters. -/
def Tally.ofMembers? (members : List (String × Json.Value)) : Option Tally := do
  let total ← Json.required? members "total" (·.asCount?)
  let processed ← Json.required? members "processed" (·.asCount?)
  let indexed ← Json.required? members "indexed" (·.asCount?)
  let failed ← Json.required? members "failed" (·.asCount?)
  let skipped ← Json.required? members "skipped" (·.asCount?)
  let images ← Json.required? members "images" (·.asCount?)
  let imagesFailed ← Json.required? members "images_failed" (·.asCount?)
  let imagesSkippedIcon ← Json.required? members "images_skipped_icon" (·.asCount?)
  let imagesSkippedNotFound ← Json.required? members "images_skipped_not_found" (·.asCount?)
  let deferred ← Json.required? members "deferred" (·.asCount?)
  some { total, processed, indexed, failed, skipped, images, imagesFailed, imagesSkippedIcon,
         imagesSkippedNotFound, deferred }

/-- Reads a snapshot off the fields of an object. -/
def Snapshot.ofMembers? (members : List (String × Json.Value)) : Option Snapshot := do
  let id ← Json.required? members "id" (·.asText?)
  let kind ← Json.required? members "kind" fun v => v.asWord?.bind JobKind.ofWord?
  let target ← Json.required? members "target" (·.asText?)
  let status ← Json.required? members "status" fun v => v.asWord?.bind JobStatus.ofWord?
  let tally ← Tally.ofMembers? members
  let errors ← Json.required? members "errors" (·.asTexts?)
  let errorsDropped ← Json.required? members "errors_dropped" (·.asCount?)
  let fatalError ← Json.optional? members "fatal_error" none (·.orNull? (·.asText?))
  let startedAt ← Json.required? members "started_at" fun v => v.asText?.bind Instant.read?
  let finishedAt ← Json.optional? members "finished_at" none
    (·.orNull? fun v => v.asText?.bind Instant.read?)
  let monitor ← Json.optional? members "monitor" none (·.orNull? MonitorSummary.ofJson?)
  some { id, kind, target := .ofText target, status, tally, errors, errorsDropped, fatalError,
         startedAt, finishedAt, monitor }

/-- The names of the fields in the order of the array form. -/
def Snapshot.fieldNames : List String :=
  [ "id", "kind", "target", "status", "total", "processed", "indexed", "failed", "skipped",
    "images", "images_failed", "images_skipped_icon", "images_skipped_not_found", "deferred",
    "errors", "errors_dropped", "fatal_error", "started_at", "finished_at", "monitor" ]

/-- Reads a snapshot written as an object, or as an array of all its fields in order. -/
def Snapshot.ofJson? : Json.Value → Option Snapshot
  | .array items =>
    if items.length = fieldNames.length then ofMembers? (fieldNames.zip items) else none
  | v => do ofMembers? (← v.named?)

end Corpus
