/-
Corpus/Ingest/Journal.lean

The messages that a job writes to the log, as far as they can be told from its source and
from what it came to.  A message has the name of the part of the service that writes it.
-/
import Corpus.Ingest.Run
import Corpus.Log.Basic

namespace Corpus

/-- The extractor is needed for the text of an entry. -/
def EntryName.needsExtractor (entry : String) : Bool :=
  let extension := Text.toLower (EntryName.extension entry)
  !plainTypes.contains extension && !imageTypes.contains extension

/-- The part of the service that reads a kind of source. -/
def SourceKind.part : SourceKind → String
  | .zim => "pipeline::extraction"
  | .zip => "pipeline::archive"
  | .folder => "pipeline::folder"

/-- The messages that come with an event. -/
def Event.messages (kind : SourceKind) : Event → List Log.Message
  | .discovered _ =>
    match kind with
    | .zim => []
    | _ => [Log.say .debug kind.part]
  | .skipped _ => [Log.say .trace "pipeline"]
  | .record r =>
    match kind with
    | .zim => [Log.say .trace kind.part]
    | _ => if EntryName.needsExtractor r.path then [Log.say .trace "pipeline::extract"] else []
  | .failed entry _ =>
    (if EntryName.needsExtractor entry then [Log.say .trace "pipeline::extract"] else []) ++
      [Log.say .trace kind.part]
  | .notice _ => [Log.say .warn "pipeline"]

/-- The event settles a record without a document. -/
def Worker.settlesAlone (w : Worker) : Event → Bool
  | .record r => !w.isSubstantial r
  | .failed _ _ => true
  | _ => false

namespace Ingestion

/-- The messages of a job that went over a source. -/
def sourceJournal (x : Ingestion) (source : Source) (done : Job) : List Log.Message :=
  let kind := source.provenance.source
  let worker : Worker := ⟨source.provenance, x.settings.ingest⟩
  let outcome := source.finish source.events.length
  (if kind = .zim then [Log.say .info kind.part] else []) ++
  [Log.say .debug "monitor"] ++
  source.events.flatMap (Event.messages kind) ++
  (if done.tally.images = 0 then [] else [Log.say .trace "pipeline::thumbnails"]) ++
  (if source.events.countP worker.settlesAlone < done.tally.failed.toNat then
    [Log.say .warn "pipeline::writer"] else []) ++
  (if done.monitor.any (0 < ·.adjustments) then [Log.say .info "monitor"] else []) ++
  (if kind = .zim then [Log.say .debug kind.part] else []) ++
  (if outcome.fatal.isSome || outcome.anomaly.isSome then [Log.say .warn "pipeline"] else []) ++
  [Log.say .debug "pipeline", Log.say .info "pipeline"]

/-- The messages of a job, from the disk it began with and what became of it. -/
def journal (x : Ingestion) (d : Disk) (job done : Job) : List Log.Message :=
  let staging := x.stagingOf job.id
  Log.say .info "pipeline" ::
    match x.openSource d job.kind job.target staging with
    | (.error _, d) =>
      Log.say .warn "pipeline" :: (if d.exists? staging then [Log.say .debug "pipeline"] else [])
    | (.ok source, _) => x.sourceJournal source done

end Ingestion

end Corpus
