/-
Corpus/Job/Report.lean

What people read of jobs and samples: a line while a job runs, a summary when it has
ended, and a report of one sample.
-/
import Corpus.Job.Snapshot

namespace Corpus.Report

/-- Lines of text, each with its line end. -/
def lines (ls : List String) : String := String.join (ls.map (· ++ "\n"))

/-- A number in decimal digits. -/
def count (n : UInt64) : String := toString n.toNat

/-- How much of the announced work is settled, three characters wide. -/
def percent (t : Tally) : String :=
  if t.total == 0 then "  -%"
  else
    let p := t.processed * 100 / t.total
    let p := if 100 < p then 100 else p
    let digits := Nat.toDigits 10 p.toNat
    String.ofList (List.replicate (3 - digits.length) ' ' ++ digits) ++ "%"

/-- One line on a running job. -/
def progressLine (t : Tally) : String :=
  percent t ++ " " ++ count t.processed ++ "/" ++ count t.total ++ " processed, " ++
    count t.indexed ++ " indexed, " ++ count t.failed ++ " failed" ++
    (if 0 < t.images + t.imagesFailed then ", " ++ count t.images ++ " images" else "") ++
    (if 0 < t.deferred then ", " ++ count t.deferred ++ " deferred" else "")

/-- A length of time in its two largest units. -/
def duration (seconds : UInt64) : String :=
  if seconds < 60 then count seconds ++ " seconds"
  else if seconds < 3600 then
    if 0 < seconds % 60 then count (seconds / 60) ++ " min " ++ count (seconds % 60) ++ " sec"
    else count (seconds / 60) ++ " minutes"
  else
    let minutes := seconds % 3600 / 60
    if 0 < minutes then count (seconds / 3600) ++ " hr " ++ count minutes ++ " min"
    else count (seconds / 3600) ++ " hours"

/-- An amount of memory given in units of 1024 bytes. -/
def memory (kib : UInt64) : String :=
  if kib < 1024 then count kib ++ " KB"
  else if kib < 1048576 then Number.fixed 1 (kib.toFloat / 1024.0) ++ " MB"
  else Number.fixed 2 (kib.toFloat / 1048576.0) ++ " GB"

/-- How long a finished job took; no less than nothing. -/
def elapsed (s : Snapshot) (finished : Instant) : UInt64 :=
  UInt64.ofNat (Instant.secondsBetween s.startedAt finished).toNat

/-- The summary of a job. -/
def summary (s : Snapshot) : String :=
  let t := s.tally
  lines <|
    [ "Job " ++ s.id ++ " (" ++ s.kind.word ++ ") " ++ s.status.word,
      "  Target:    " ++ s.target.shown ] ++
    (match s.finishedAt with
      | some finished => ["  Duration:  " ++ duration (elapsed s finished)]
      | none => []) ++
    [ "  Documents: " ++ count t.indexed ++ " indexed, " ++ count t.failed ++ " failed, " ++
        count t.skipped ++ " skipped (" ++ count t.total ++ " discovered)" ] ++
    (if 0 < t.images + t.imagesFailed + t.imagesSkippedIcon + t.imagesSkippedNotFound then
      [ "  Images:    " ++ count t.images ++ " adopted, " ++ count t.imagesFailed ++ " failed, " ++
          count t.imagesSkippedIcon ++ " icons skipped, " ++ count t.imagesSkippedNotFound ++
          " not found" ]
    else []) ++
    (match s.monitor with
      | some m =>
        [ "  Monitor:   " ++ count m.samples ++ " samples, " ++ count m.adjustments ++
            " adjustments, " ++ count m.cooldowns ++ " cooldowns, final batch " ++
            count m.finalBatchSize ]
      | none => []) ++
    (match s.fatalError with
      | some fatal => ["  Error:     " ++ fatal]
      | none => []) ++
    (if s.errors.isEmpty then []
    else
      "  Recent errors:" :: s.errors.map ("    - " ++ ·) ++
        (if 0 < s.errorsDropped then
          ["    (" ++ count s.errorsDropped ++ " older errors dropped)"]
        else []))

/-- The report of a sample. -/
def sample (s : Sample) : String :=
  lines
    [ "Memory usage:  " ++ Number.fixed 1 (s.usage * 100.0) ++ "%",
      "Process RSS:   " ++ memory (s.residentSet / 1024),
      "Load (1 min):  " ++ Number.fixed 2 s.loadOne ++ " across " ++ count s.processors ++
        " CPUs (ratio " ++ Number.fixed 2 s.ratio ++ ")",
      "Pressure band: " ++ s.band.name,
      "",
      "Batch size:    " ++ count s.control.batchSize,
      "Images:        " ++ if s.control.deferImages then "deferred" else "inline",
      "Flush sleep:   " ++ toString s.control.pause.millis ++ " ms" ]

end Corpus.Report
