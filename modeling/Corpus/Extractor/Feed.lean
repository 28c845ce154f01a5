/-
Corpus/Extractor/Feed.lean

The feed of the streaming extractor: one record per line of its output.  Blank lines are
passed over, lines that are no record are counted, and a line that is no text ends the
feed.

As a source, the feed announces each record right before it gives it.
-/
import Corpus.Extractor.Program
import Corpus.Extractor.RunReport
import Corpus.Settings.Basic
import Corpus.Source.Event

namespace Corpus

/-- The lines still to be read, and what was read so far. -/
structure Feed where
  lines : List Bytes
  records : UInt64 := 0
  malformed : UInt64 := 0
  deriving DecidableEq, Repr

namespace Feed

/-- The byte that ends a line. -/
def newline : UInt8 := 10

/-- The lines of an output. -/
def linesOf (output : Bytes) : List Bytes := output.splitOn newline

/-- A feed of which nothing was read. -/
def ofOutput (output : Bytes) : Feed := { lines := linesOf output }

/-- What a line is. -/
inductive Line where
  | blank
  | record (r : Record)
  | malformed
  /-- The line is no text. -/
  | broken
  deriving DecidableEq, Repr

/-- Reads one line. -/
def readLine (line : Bytes) : Line :=
  match Text.decode? line with
  | none => .broken
  | some text =>
    let trimmed := Text.trimChars text.toList
    if trimmed.isEmpty then .blank
    else
      match Record.decode? (Text.encodeChars trimmed) with
      | some r => .record r
      | none => .malformed

/-- The next record among some lines. -/
def nextAmong (records malformed : UInt64) : List Bytes → Option Record × Feed
  | [] => (none, ⟨[], records, malformed⟩)
  | line :: rest =>
    match readLine line with
    | .blank => nextAmong records malformed rest
    | .record r => (some r, ⟨rest, records + 1, malformed⟩)
    | .malformed => nextAmong records (malformed + 1) rest
    -- nothing behind a line that is no text is ever read
    | .broken => (none, ⟨[], records, malformed⟩)

/-- The next record, if there is one. -/
def next (f : Feed) : Option Record × Feed := nextAmong f.records f.malformed f.lines

/-- The records among some lines, put in reverse onto those read before. -/
def recordsOnto (acc : List Record) : List Bytes → List Record
  | [] => acc
  | line :: rest =>
    match readLine line with
    | .record r => recordsOnto (r :: acc) rest
    | .broken => acc
    | _ => recordsOnto acc rest

/-- All records to come. -/
def toList (f : Feed) : List Record := (recordsOnto [] f.lines).reverse

/-- What is reported when the extractor is closed after so much was read. -/
def close (f : Feed) (run : Execution) : RunReport :=
  { records := f.records
    malformed := f.malformed
    exitCode :=
      match run.ending with
      | .exited code => some code
      | _ => none
    diagnostics := Diagnostics.text (Diagnostics.reads run.diagnostics)
    killed := run.ending == .stuck }

end Feed

namespace ExtractorSettings

/-- Starts the extractor on an archive. -/
def launchStream (s : ExtractorSettings) (ps : Programs) (d : Disk) (archive staging : Path) :
    Except SourceError Execution :=
  let args :=
    s.args.map Text.encode ++
      [Text.encode "--zim", archive.bytes, Text.encode "--extract-images", staging.bytes]
  match ps.launch d s.command args with
  | .ok run => .ok run
  | .error fault => .error (.spawn s.command fault.text)

end ExtractorSettings

/-- The events of some records, each announced before it is given. -/
def Event.announced (records : List Record) : List Event :=
  records.flatMap fun r => [.discovered 1, .record r]

/-- The outcome of a source that is fed by the extractor. -/
def RunReport.outcome (r : RunReport) : Outcome :=
  { records := r.records, anomaly := r.anomaly?, fatal := r.fatal? }

/-- The extractor's run as a source.  A record counts as soon as it is announced. -/
def Execution.source (run : Execution) (provenance : Provenance) : Source :=
  let feed := Feed.ofOutput run.output
  { provenance
    events := Event.announced feed.toList
    -- of the two events of a record the first one counts it
    finish := fun taken =>
      ({ feed with records := UInt64.ofNat ((taken + 1) / 2) }.close run).outcome }

end Corpus
