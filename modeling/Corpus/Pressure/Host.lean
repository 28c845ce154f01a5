/-
Corpus/Pressure/Host.lean

Readings from the tables that the kernel keeps about memory, load and processors.
-/
import Corpus.Number.Decimal
import Corpus.Pressure.Monitor
import Corpus.Text.Blank

namespace Corpus

/-- What the kernel says, as the texts of its tables. -/
structure KernelTables where
  /-- Sizes of memory in the machine. -/
  memory : String := ""
  /-- Sizes of memory held by this process. -/
  process : String := ""
  /-- Load averages. -/
  load : String := ""
  /-- One entry for each processor. -/
  processors : String := ""

namespace KernelTables

/-- The text behind a name and a colon at the start of a line. -/
def row? (table name : String) : Option String :=
  (table.splitOn "\n").findSome? fun line =>
    match line.splitOn ":" with
    | key :: rest =>
      if Text.trim key = name then some (Text.trim (":".intercalate rest)) else none
    | [] => none

/-- A size in bytes, from an entry in units of 1024 bytes. -/
def size (table name : String) : UInt64 :=
  let digits := ((row? table name).getD "").toList.takeWhile Char.isDigit
  UInt64.ofNat (digits.foldl (fun n c => n * 10 + (c.toNat - 48)) 0 * 1024)

/-- The reading of the tables. -/
def reading (k : KernelTables) : Reading :=
  { totalMemory := size k.memory "MemTotal"
    availableMemory := size k.memory "MemAvailable"
    residentSet := size k.process "VmRSS"
    loadOne := (Number.readFloat? ((k.load.splitOn " ").headD "")).getD 0.0 }

/-- The number of processors, at least one. -/
def processorCount (k : KernelTables) : UInt64 :=
  let entries := (k.processors.splitOn "\n").filter fun line =>
    Text.trim ((line.splitOn ":").headD "") = "processor"
  UInt64.ofNat (max 1 entries.length)

/-- A probe that goes on giving the reading of the tables. -/
def probe (k : KernelTables) : Probe :=
  { readings := fun _ => k.reading, processors := k.processorCount }

end KernelTables

end Corpus
