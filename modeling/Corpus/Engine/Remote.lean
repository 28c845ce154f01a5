/-
Corpus/Engine/Remote.lean

A search engine behind a transport.  Every write is one request, which the engine answers
with the number of a task; a task is awaited by asking for its state again and again until
it has ended or the time is up.
-/
import Corpus.Document.Json
import Corpus.Engine.Basic
import Corpus.Engine.Transport
import Corpus.Json.Reader
import Corpus.Settings.Places
import Corpus.Text.Blank

namespace Corpus

/-- Where an engine is and how it is asked. -/
structure EngineSite where
  /-- The address without a slash at its end. -/
  baseUrl : String
  index : String
  key : Option String
  /-- The pause between two questions for a task. -/
  pollInterval : Span
  pollInterval_pos : 0 < pollInterval.nanos

/-- How far a task is. -/
inductive TaskStatus where
  | enqueued
  | processing
  | succeeded
  | failed
  | canceled
  deriving DecidableEq, Repr

namespace TaskStatus

/-- The word for a status. -/
def word : TaskStatus → String
  | .enqueued => "enqueued"
  | .processing => "processing"
  | .succeeded => "succeeded"
  | .failed => "failed"
  | .canceled => "canceled"

/-- The status that a word stands for. -/
def ofWord? (s : String) : Option TaskStatus :=
  [enqueued, processing, succeeded, failed, canceled].find? (·.word = s)

end TaskStatus

/-- What an engine says of a task. -/
structure TaskView where
  status : TaskStatus
  /-- Why the task failed. -/
  error : Option String
  deriving DecidableEq, Repr

/-! ### Reading answers -/

/-- Reads the number of a new task. -/
def taskNumber? (body : Bytes) : Option UInt64 := do
  match ← Json.read? body with
  | .array [v] => v.asCount?
  | .array _ => none
  | v => Json.required? (← v.named?) "taskUid" (·.asCount?)

namespace TaskView

/-- Reads why a task failed. -/
def reason? : Json.Value → Option String
  | .array [v] => v.asText?
  | .array _ => none
  | v => do Json.required? (← v.named?) "message" (·.asText?)

/-- Reads a status. -/
def status? (v : Json.Value) : Option TaskStatus := v.asWord?.bind TaskStatus.ofWord?

/-- Reads what an engine says of a task. -/
def read? (body : Bytes) : Option TaskView := do
  match ← Json.read? body with
  | .array [status] => some ⟨← status? status, none⟩
  | .array [status, error] => some ⟨← status? status, ← error.orNull? reason?⟩
  | .array _ => none
  | v =>
    let members ← v.named?
    let status ← Json.required? members "status" status?
    let error ← Json.optional? members "error" none (·.orNull? reason?)
    some { status, error }

/-- What is said of a task that did not succeed. -/
def failure (v : TaskView) : String := v.error.getD ("task " ++ v.status.word)

end TaskView

namespace EngineSite

/-- The address without the slashes at its end. -/
def trimSlashes (url : String) : String :=
  String.ofList (Text.dropEndWhile (· == '/') url.toList)

/-- The site that the settings describe. -/
def ofSettings (s : EngineSettings) (e : Environment) : Except EngineError EngineSite :=
  let baseUrl := trimSlashes s.url
  if baseUrl.isEmpty then .error (.invalidConfig "engine.url is empty")
  else if Text.isBlankText s.index then .error (.invalidConfig "engine.index is empty")
  else
    .ok
      { baseUrl
        index := s.index
        key := s.resolvedKey e
        pollInterval := .ofMillis (max s.taskPollMs.toNat 1)
        pollInterval_pos := by simp only [Span.ofMillis]; omega }

/-- Where documents are written. -/
def documentsUrl (s : EngineSite) : String :=
  s.baseUrl ++ "/indexes/" ++ s.index ++ "/documents?primaryKey=id"

/-- Where the state of a task is asked for. -/
def taskUrl (s : EngineSite) (task : UInt64) : String :=
  s.baseUrl ++ "/tasks/" ++ toString task.toNat

variable {τ : Type} [Transport τ]

/-- Sends a request and takes its answer: what went wrong, or the body of a success, and how
long it took. -/
def ask (s : EngineSite) (method : HttpMethod) (url : String) (body : Option Json.Value)
    (t : τ) : Except EngineError Bytes × Span × τ :=
  let request : HttpRequest := { method, url, key := s.key, body }
  if request.isSendable then
    let (exchange, t) := Transport.send t request
    let result := match exchange.answer with
      | none =>
        .error (.request
          ("error sending request for url (" ++ HttpRequest.sentUrl url ++ ")"))
      | some response =>
        if response.isSuccess then .ok response.body
        else .error (.api response.status response.text)
    (result, exchange.elapsed, t)
  -- a request that cannot even be built takes no time
  else (.error (.request "builder error"), .zero, t)

/-- An answer that cannot be read. -/
def unreadable : EngineError := .request "error decoding response body"

/-- Writes something and takes the number of its task. -/
def enqueue (s : EngineSite) (method : HttpMethod) (objects : List Json.Value) (t : τ) :
    Except EngineError UInt64 × τ :=
  match s.ask method s.documentsUrl (some (.array objects)) t with
  | (.error e, _, t) => (.error e, t)
  | (.ok body, _, t) =>
    match taskNumber? body with
    | some task => (.ok task, t)
    | none => (.error unreadable, t)

/-- Asks for the state of a task. -/
def view (s : EngineSite) (task : UInt64) (t : τ) : Except EngineError TaskView × Span × τ :=
  match s.ask .get (s.taskUrl task) none t with
  | (.error e, elapsed, t) => (.error e, elapsed, t)
  | (.ok body, elapsed, t) =>
    match TaskView.read? body with
    | some v => (.ok v, elapsed, t)
    | none => (.error unreadable, elapsed, t)

/-- Awaits a task while `left` nanoseconds are left of the limit. -/
def awaitFrom (s : EngineSite) (task : UInt64) (limit : Span) (left : Nat) (t : τ) :
    Except EngineError Unit × τ :=
  match s.view task t with
  | (answer, elapsed, t) =>
    -- an answer that comes too late is not looked at
    if left < elapsed.nanos then (.error (.timeout task limit), t)
    else
      match answer with
      | .error e => (.error e, t)
      | .ok v =>
        match v.status with
        | .succeeded => (.ok (), t)
        | .failed | .canceled => (.error (.taskFailed task v.failure), t)
        | .enqueued | .processing =>
          -- there is no use in a pause that outlasts the time
          if left ≤ elapsed.nanos + s.pollInterval.nanos then (.error (.timeout task limit), t)
          else s.awaitFrom task limit (left - elapsed.nanos - s.pollInterval.nanos) t
termination_by left
decreasing_by
  have := s.pollInterval_pos
  omega

/-- Awaits a task no longer than a given time. -/
def await (s : EngineSite) (task : UInt64) (limit : Span) (t : τ) :
    Except EngineError Unit × τ :=
  s.awaitFrom task limit limit.nanos t

end EngineSite

/-- An engine behind a transport. -/
structure RemoteEngine (τ : Type) where
  site : EngineSite
  transport : τ

namespace RemoteEngine

variable {τ : Type} [Transport τ]

/-- The engine with its transport moved on. -/
def moved {α : Type} (x : RemoteEngine τ) (step : α × τ) : α × RemoteEngine τ :=
  (step.1, { x with transport := step.2 })

instance : SearchEngine (RemoteEngine τ) where
  name := "meilisearch"
  add x ds := x.moved (x.site.enqueue .post (ds.map fun d => .record d.members) x.transport)
  update x ps := x.moved (x.site.enqueue .put (ps.map fun p => .record p.members) x.transport)
  await x task limit := x.moved (x.site.await task limit x.transport)

end RemoteEngine

end Corpus
