/-
Corpus.lean

The service that fills a search index from folders and archives: everything it is made of.
-/
import Corpus.Command.Arguments
import Corpus.Command.Complaint
import Corpus.Command.Run
import Corpus.Digest.NameId
import Corpus.Digest.Sha1
import Corpus.Disk.Absolute
import Corpus.Disk.Basic
import Corpus.Disk.Fault
import Corpus.Disk.Path
import Corpus.Disk.Tree
import Corpus.Document.Basic
import Corpus.Document.EntryName
import Corpus.Document.Json
import Corpus.Document.Record
import Corpus.Engine.Basic
import Corpus.Engine.Memory
import Corpus.Engine.Remote
import Corpus.Engine.Transport
import Corpus.Extractor.Diagnostics
import Corpus.Extractor.Feed
import Corpus.Extractor.FileText
import Corpus.Extractor.Program
import Corpus.Extractor.Relay
import Corpus.Extractor.RunReport
import Corpus.Ingest.Journal
import Corpus.Ingest.Pipeline
import Corpus.Ingest.Run
import Corpus.Ingest.Thumbnails
import Corpus.Ingest.Worker
import Corpus.Ingest.Writer
import Corpus.Job.Basic
import Corpus.Job.ErrorLog
import Corpus.Job.Report
import Corpus.Job.Snapshot
import Corpus.Job.Store
import Corpus.Json.Printer
import Corpus.Json.Reader
import Corpus.Json.Value
import Corpus.Log.Basic
import Corpus.Log.File
import Corpus.Log.Filter
import Corpus.Number.Binary64
import Corpus.Number.Decimal
import Corpus.Number.Fixed
import Corpus.Number.Shortest
import Corpus.Pressure.Host
import Corpus.Pressure.Ladder
import Corpus.Pressure.Monitor
import Corpus.Service.Basic
import Corpus.Service.Registry
import Corpus.Settings.Basic
import Corpus.Settings.Check
import Corpus.Settings.File
import Corpus.Settings.Load
import Corpus.Settings.Places
import Corpus.Settings.Sections
import Corpus.Settings.Template
import Corpus.Source.Archive
import Corpus.Source.Channel
import Corpus.Source.Event
import Corpus.Source.Filter
import Corpus.Source.Folder
import Corpus.Source.Production
import Corpus.Source.Trouble
import Corpus.Text.Blank
import Corpus.Text.Case
import Corpus.Text.CaseTable
import Corpus.Text.CodePage437
import Corpus.Text.Utf8
import Corpus.Time.Instant
import Corpus.Time.Span
import Corpus.Toml.Printer
import Corpus.Toml.Quoted
import Corpus.Toml.Reader
import Corpus.Toml.Scalar
import Corpus.Toml.Value
import Corpus.Zip.Archive
import Corpus.Zip.Crc32
import Corpus.Zip.Entry
import Corpus.Zip.Inflate
import Corpus.Main
import Corpus.Proofs.Recording
import Corpus.Proofs.Pipeline
import Corpus.Proofs.Indexing
import Corpus.Proofs.Patching
import Corpus.Proofs.Accounting
import Corpus.Proofs.Staffing
import Corpus.Proofs.Places
import Corpus.Proofs.Walking
import Corpus.Proofs.Naming
import Corpus.Proofs.Adopting
import Corpus.Proofs.Staging
import Corpus.Proofs.Prospect
import Corpus.Proofs.Foresight
import Corpus.Proofs.Pressure
import Corpus.Proofs.Feeding
import Corpus.Proofs.Interruption
import Corpus.Proofs.Deeds
import Corpus.Proofs.Keeping
import Corpus.Proofs.Showing
import Corpus.Proofs.Identity
import Corpus.Proofs.Chronicle
import Corpus.Proofs.Watching
import Corpus.Proofs.Settling
import Corpus.Proofs.Batching
import Corpus.Proofs.Tailing
import Corpus.Proofs.Judging
import Corpus.Proofs.Reporting
import Corpus.Proofs.Decoding
import Corpus.Proofs.Listing
import Corpus.Proofs.Stocking
import Corpus.Proofs.Locating
import Corpus.Proofs.Syncing
import Corpus.Proofs.Packing
import Corpus.Proofs.Draining
import Corpus.Proofs.Sizing
import Corpus.Proofs.Acknowledging
import Corpus.Proofs.Captioning
import Corpus.Proofs.Rungs
import Corpus.Proofs.Wrapping
import Corpus.Proofs.Sampling
import Corpus.Proofs.Rejecting
import Corpus.Proofs.Ranking
import Corpus.Proofs.Converging
import Corpus.Proofs.Cooling
import Corpus.Proofs.Stopping
import Corpus.Proofs.Conveying
import Corpus.Proofs.Announcing
import Corpus.Proofs.Relaying
import Corpus.Proofs.Visiting
import Corpus.Proofs.Retracing
import Corpus.Proofs.Confining
import Corpus.Proofs.Describing
import Corpus.Proofs.Landing
import Corpus.Proofs.Copying
import Corpus.Proofs.Readopting
import Corpus.Proofs.Spelling
import Corpus.Proofs.Merging
import Corpus.Proofs.Replacing
import Corpus.Proofs.Retaining
import Corpus.Proofs.Renaming
import Corpus.Proofs.Crossing
