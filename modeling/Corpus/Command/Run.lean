/-
Corpus/Command/Run.lean

What the commands do.  A command finds a host with its disk, environment and programs, and
leaves output, perhaps a complaint, messages for the log, and the disk as it is then.

Settings are read first, but not where a template is to be written, so that bad settings can
be replaced.  The log file is opened next, before the command itself begins.
-/
import Corpus.Command.Arguments
import Corpus.Command.Complaint
import Corpus.Engine.Remote
import Corpus.Ingest.Journal
import Corpus.Job.Report
import Corpus.Log.File
import Corpus.Log.Filter
import Corpus.Settings.Sections
import Corpus.Settings.Template

namespace Corpus

/-- Where a command runs. -/
structure Host where
  environment : Environment
  disk : Disk
  programs : Programs
  probe : Probe
  now : Instant
  /-- The identifier for a job. -/
  jobId : String

/-- What a command leaves. -/
structure Effect where
  disk : Disk
  output : String := ""
  complaint : Option Complaint := none
  messages : List Log.Message := []

/-- What a run of the program leaves. -/
structure Ended where
  status : Nat
  output : String := ""
  /-- What is said about a failure. -/
  complaint : String := ""
  disk : Disk
  /-- The messages that are logged. -/
  messages : List Log.Message := []
  /-- The file they are in, if there is one. -/
  logFile : Option Log.File := none

namespace Host

/-- A path in the environment. -/
def userFile (h : Host) : Path := h.environment.userSettingsFile

/-- Writes the template of a settings file. -/
def writeTemplate (h : Host) (explicit : Option Path) (overwrite : Bool) : Effect :=
  let path := explicit.getD h.userFile
  if h.disk.exists? path && !overwrite then
    { disk := h.disk
      complaint := some
        ⟨"Config file already exists: " ++ path.shown ++ " (use --force to overwrite)", []⟩ }
  else
    let parent := (path.parent?.filter (!·.bytes.isEmpty)).getD (.ofText ".")
    match h.disk.makeDirs parent with
    | (.error fault, disk) =>
      { disk, complaint := some ⟨"Failed to create " ++ parent.shown, [fault.text]⟩ }
    | (.ok (), disk) =>
      match disk.write path (Text.encode Settings.template) with
      | .error fault =>
        { disk, complaint := some ⟨"Failed to write config file " ++ path.shown, [fault.text]⟩ }
      | .ok disk =>
        { disk
          output := "Created config file: " ++ path.shown ++ "\n\n" ++
            "Edit this file to point at your Meilisearch instance and tune the resource " ++
            "monitor.\n" }

/-- Shows the settings in force and where they come from. -/
def showSettings (h : Host) (explicit : Option Path) (s : Settings) : Effect :=
  let origin := match Settings.sourceFile? h.disk h.environment explicit with
    | some path => "# Config file: " ++ path.shown
    | none => "# No config file found, using defaults"
  { disk := h.disk, output := origin ++ "\n\n" ++ s.text }

/-- Takes one sample of the host. -/
def check (h : Host) (s : Settings) : Effect :=
  match (Monitor.start s.monitor h.probe).sample.1 with
  | none =>
    { disk := h.disk
      complaint := some ⟨"Memory telemetry is unavailable on this host", []⟩ }
  | some sample =>
    { disk := h.disk
      output := "Host resources (starting from batch size " ++
        toString s.monitor.batchDefault.toNat ++ "):\n\n" ++ Report.sample sample }

/-- The report on a job, as text or as JSON. -/
def report (s : Snapshot) (json : Bool) : Except Complaint String :=
  if json then
    match s.toJson? with
    | some v => .ok (Text.decodeLossy v.renderPretty ++ "\n")
    | none =>
      .error ⟨"Failed to serialize job snapshot", ["path contains invalid UTF-8 characters"]⟩
  else .ok (Report.summary s)

/-- What is said when a job failed. -/
def jobComplaint? (s : Snapshot) : Option Complaint :=
  if s.status = .failed then
    some ⟨"Job " ++ s.id ++ " failed: " ++ s.fatalError.getD "unknown error", []⟩
  else none

variable {τ : Type} [Transport τ]

/-- Runs a job from its submission to its end. -/
def follow (h : Host) (service : Service (RemoteEngine τ)) (kind : JobKind) (target : Path)
    (json : Bool) : Effect :=
  let (_, submitted) := service.submit kind target h.jobId h.now
  let ended := submitted.advance (fun _ => true) h.now
  match submitted.registry.get? h.jobId, ended.registry.get? h.jobId with
  | some job, some done =>
    let followed : List Log.Message :=
      [Log.say .info "jobs::registry", Log.say .info "commands::ingest"] ++
        service.ingestion.journal submitted.disk job done
    match report done.snapshot json with
    | .error complaint => { disk := ended.disk, complaint, messages := followed }
    | .ok output =>
      match jobComplaint? done.snapshot with
      | some complaint => { disk := ended.disk, output, complaint, messages := followed }
      | none =>
        { disk := (ended.shutdown h.now).disk
          output
          messages :=
            followed ++ [Log.say .info "jobs::registry", Log.say .debug "jobs::registry"] }
  | _, _ =>
    { disk := ended.disk
      complaint := some ⟨"Job " ++ h.jobId ++ " is no longer known to the registry", []⟩ }

/-- Starts the service and runs a job. -/
def ingest (h : Host) (t : τ) (s : Settings) (kind : JobKind) (target : Path) (json : Bool) :
    Effect :=
  let x := Ingestion.ofSettings s h.environment h.programs h.probe
  let engine := (EngineSite.ofSettings s.engine h.environment).map (RemoteEngine.mk · t)
  let reached : List Log.Message :=
    if engine.isOk then [Log.say .info "engine::meilisearch"] else []
  match Service.start x engine h.disk with
  | (.error e, disk) =>
    { disk
      complaint := some ⟨"Failed to start ingestion service", e.causes⟩
      messages := reached }
  | (.ok service, disk) =>
    let effect := { h with disk }.follow service kind target json
    { effect with messages := reached ++ Log.say .info "app" :: effect.messages }

/-- Carries out a command. -/
def perform (h : Host) (t : τ) (i : Invocation) (s : Settings) : Effect :=
  match i.action with
  | .ingest kind target json _ => h.ingest t s kind target json
  | .showSettings => h.showSettings i.settingsFile s
  | .writeTemplate overwrite => h.writeTemplate i.settingsFile overwrite
  | .check => h.check s

/-- The settings for a command. -/
def settingsFor (h : Host) (i : Invocation) : Except Settings.LoadError Settings :=
  match i.action with
  | .writeTemplate _ => .ok {}
  | _ => Settings.load h.disk h.environment i.settingsFile

/-- Carries out a command with its messages going to a file, or to nowhere in particular. -/
def performLogged (h : Host) (t : τ) (i : Invocation) (s : Settings)
    (file : Option Log.File) : Ended :=
  let effect := h.perform t i s
  let rules := Log.rulesFor h.environment s.daemon i.verbosity
  let messages := effect.messages.filter (Log.passes rules)
  { status := if effect.complaint.isSome then 1 else 0
    output := effect.output
    complaint := (effect.complaint.map (·.text)).getD ""
    disk := ((file.bind (·.append? messages effect.disk)).getD effect.disk)
    messages
    logFile := file }

/-- Opens the log file and carries out a command.  Where the file has no directory the messages
go elsewhere; where it cannot be opened the program gives up. -/
def runWith (h : Host) (t : τ) (i : Invocation) (s : Settings) : Ended :=
  match i.logFile with
  | none => h.performLogged t i s none
  | some path =>
    let file := Log.File.ofPath path s.daemon.logRotation h.now
    match file.prepare? h.disk with
    | (none, disk) => { h with disk }.performLogged t i s none
    | (some (), disk) =>
      match file.append? [] disk with
      | some disk => { h with disk }.performLogged t i s (some file)
      | none => { status := 101, complaint := "The log file cannot be opened\n", disk }

/-- Runs a command. -/
def runCommand (h : Host) (t : τ) (i : Invocation) : Ended :=
  match h.settingsFor i with
  | .ok s => h.runWith t i s
  | .error e =>
    { status := 1
      complaint := (Complaint.mk "Failed to load configuration" e.causes).text
      disk := h.disk }

/-- How the program is used. -/
def usage : String := Report.lines
  [ "Index folders and archives into Meilisearch without exhausting the host",
    "",
    "Usage: corpusd [OPTIONS] <COMMAND>",
    "",
    "Commands:",
    "  ingest folder <PATH>   Index every eligible file below a folder",
    "  ingest archive <PATH>  Index a .zim or .zip archive",
    "  config show            Show current effective configuration",
    "  config init            Write a commented config template",
    "  check                  Sample host resources once",
    "",
    "Options:",
    "  --config <FILE>        Config file",
    "  --log-file <FILE>      Write logs to a rotating file",
    "  -v, --verbose          Increase log verbosity (-v debug, -vv trace)",
    "  -h, --help             Print help" ]

/-- Runs the program on the words of a command line. -/
def run (h : Host) (t : τ) (words : List String) : Ended :=
  match Invocation.read words with
  | .ok i => h.runCommand t i
  | .error .help => { status := 0, output := usage, disk := h.disk }
  | .error .misuse => { status := 2, complaint := usage, disk := h.disk }

end Host

end Corpus
