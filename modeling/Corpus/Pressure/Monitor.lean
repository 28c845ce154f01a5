/-
Corpus/Pressure/Monitor.lean

The monitor: the ladder driven by readings of the machine.

Readings come from a probe, one after the other.  Every so many records one is taken as a
sample and moves the control; other readings only refresh the usage that is remembered.  A
reading without a total says nothing and changes nothing.
-/
import Corpus.Pressure.Ladder

namespace Corpus

/-- One reading of the machine. -/
structure Reading where
  totalMemory : UInt64
  availableMemory : UInt64
  /-- The memory held by this process. -/
  residentSet : UInt64
  /-- The load average of the last minute. -/
  loadOne : Float
  deriving Repr, Inhabited

/-- The fraction of memory in use, if the total is known. -/
def Reading.usage? (r : Reading) : Option Float :=
  if r.totalMemory == 0 then none
  else
    -- more memory available than there is counts as all of it
    let available := if r.totalMemory < r.availableMemory then r.totalMemory else r.availableMemory
    some (1.0 - available.toFloat / r.totalMemory.toFloat)

/-- A source of readings. -/
structure Probe where
  /-- The reading that each request gets, counted from zero. -/
  readings : Nat → Reading
  /-- How many were taken. -/
  taken : Nat := 0
  processors : UInt64

namespace Probe

/-- The next reading. -/
def read (p : Probe) : Reading × Probe := (p.readings p.taken, { p with taken := p.taken + 1 })

/-- The load per processor. -/
def ratio (p : Probe) (r : Reading) : Float :=
  r.loadOne / (Control.atLeast 1 p.processors).toFloat

end Probe

/-- A sample and what it decided. -/
structure Sample where
  usage : Float
  residentSet : UInt64
  loadOne : Float
  ratio : Float
  processors : UInt64
  band : Band
  control : Control
  deriving Repr

/-- What a job reports of its monitor. -/
structure MonitorSummary where
  samples : UInt64
  adjustments : UInt64
  cooldowns : UInt64
  finalBatchSize : UInt64
  lastMemoryUsage : Float
  deriving Repr, Inhabited

/-- The ladder, its probe and what happened so far. -/
structure Monitor where
  settings : MonitorSettings
  probe : Probe
  control : Control
  checks : UInt64 := 0
  samples : UInt64 := 0
  /-- Samples that changed the control. -/
  adjustments : UInt64 := 0
  /-- Samples in the critical band. -/
  cooldowns : UInt64 := 0
  lastUsage : Float := 0.0

namespace Monitor

/-- A monitor that has taken no reading. -/
def start (settings : MonitorSettings) (probe : Probe) : Monitor :=
  { settings, probe, control := Control.initial settings }

/-- Takes a reading as a sample. -/
def sample (m : Monitor) : Option Sample × Monitor :=
  let (reading, probe) := m.probe.read
  match reading.usage? with
  | none => (none, { m with probe })
  | some usage =>
    let ratio := m.probe.ratio reading
    let band := Band.ofUsage m.settings usage
    let next := m.control.adjust m.settings usage ratio
    let sample : Sample :=
      { usage, residentSet := reading.residentSet, loadOne := reading.loadOne, ratio
        processors := Control.atLeast 1 m.probe.processors, band, control := next }
    (some sample,
      { m with
        probe
        control := next
        samples := m.samples + 1
        lastUsage := usage
        cooldowns := if band = .critical then m.cooldowns + 1 else m.cooldowns
        adjustments := if next = m.control then m.adjustments else m.adjustments + 1 })

/-- Counts one record, with a sample whenever the interval is full. -/
def check (m : Monitor) : Monitor :=
  let m := { m with checks := m.checks + 1 }
  if m.checks % Control.atLeast 1 m.settings.sampleInterval == 0 then m.sample.2 else m

/-- Images may be taken up as far as the last usage tells. -/
def isCalm (m : Monitor) : Bool := m.lastUsage < m.settings.memoryModerate

/-- Takes a reading for its usage alone. -/
def freshUsage (m : Monitor) : Option Float × Monitor :=
  let (reading, probe) := m.probe.read
  match reading.usage? with
  | none => (none, { m with probe })
  | some usage => (some usage, { m with probe, lastUsage := usage })

/-- A fresh usage lies above the high mark. -/
def aboveHigh (m : Monitor) : Bool × Monitor :=
  match m.freshUsage with
  | (some usage, m) => (m.settings.memoryHigh < usage, m)
  | (none, m) => (false, m)

/-- A fresh usage lies below the high mark, or is unknown. -/
def hasRecovered (m : Monitor) : Bool × Monitor :=
  match m.freshUsage with
  | (some usage, m) => (usage < m.settings.memoryHigh, m)
  | (none, m) => (true, m)

/-- The pause between two reads while waiting, in nanoseconds and never nothing. -/
def pollNanos (m : Monitor) : Nat := max 1 m.settings.cooldownPollMs.toNat * 1000000

/-- How long one sleep between two reads lasts when `left` nanoseconds remain. -/
def pollSpan (m : Monitor) (left : Nat) : Nat := min m.pollNanos left

/-- Waits for memory to recover while `left` nanoseconds remain, reading at most `reads` times.
A sleep of `d` nanoseconds takes `clock d` of them. -/
def awaitRecovery (clock : Nat → Nat) : Nat → Nat → Monitor → Bool × Monitor
  | 0, _, m => (false, m)
  | reads + 1, left, m =>
    -- memory is looked at before the time is, so a wait of no time reads once
    match m.hasRecovered with
    | (true, m) => (true, m)
    | (false, m) =>
      if left = 0 then (false, m)
      else awaitRecovery clock reads (left - clock (m.pollSpan left)) m

/-- The most reads that a wait can take. -/
def cooldownReads (m : Monitor) (maxWait : Span) : Nat :=
  (maxWait.nanos + m.pollNanos - 1) / m.pollNanos + 1

/-- Waits until memory has recovered or the time is over, and tells which. -/
def cooldown (m : Monitor) (maxWait : Span) : Bool × Monitor :=
  awaitRecovery id (m.cooldownReads maxWait) maxWait.nanos m

/-- What is reported in the end. -/
def summary (m : Monitor) : MonitorSummary :=
  { samples := m.samples
    adjustments := m.adjustments
    cooldowns := m.cooldowns
    finalBatchSize := m.control.batchSize
    lastMemoryUsage := m.lastUsage }

end Monitor

end Corpus
