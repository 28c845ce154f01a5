/-
Corpus/Settings/Check.lean

Which settings the service accepts.  Of several faults the first in the order below is
reported.
-/
import Corpus.Settings.Basic
import Corpus.Text.Blank

namespace Corpus

/-- Why settings are refused. -/
inductive SettingsFault where
  /-- The batch sizes are not `1 ≤ min ≤ default ≤ max`. -/
  | batchSizes (min default max : UInt64)
  /-- The memory thresholds do not rise from above zero to at most one. -/
  | memoryThresholds
  /-- The elevated load lies above the high load. -/
  | loadThresholds
  /-- An interval that is waited for or divided by is zero. -/
  | intervals
  /-- A chunk of deferred work is empty. -/
  | chunkSizes
  /-- There is no command to run. -/
  | command
  deriving DecidableEq, Repr

/-- What is said of a fault. -/
def SettingsFault.message : SettingsFault → String
  | .batchSizes min default max =>
    "batch sizes must satisfy 1 <= min <= default <= max (got " ++
      toString min.toNat ++ "/" ++ toString default.toNat ++ "/" ++ toString max.toNat ++ ")"
  | .memoryThresholds =>
    "memory thresholds must satisfy 0 < low < moderate < high < critical <= 1"
  | .loadThresholds => "load_elevated must not exceed load_high"
  | .intervals => "sample_interval and cooldown_poll_ms must be positive"
  | .chunkSizes => "deferred chunk sizes must be positive"
  | .command => "extractor.command is empty"

namespace MonitorSettings

/-- The batch sizes are ordered and none is zero. -/
def batchesOrdered (m : MonitorSettings) : Bool :=
  m.batchMin != 0 && m.batchMin ≤ m.batchDefault && m.batchDefault ≤ m.batchMax

/-- The memory thresholds rise from above zero to at most one. -/
def memoryOrdered (m : MonitorSettings) : Bool :=
  0.0 < m.memoryLow && m.memoryLow < m.memoryModerate && m.memoryModerate < m.memoryHigh &&
    m.memoryHigh < m.memoryCritical && m.memoryCritical ≤ 1.0

end MonitorSettings

namespace Settings

/-- The first fault of the settings, if they have one. -/
def fault? (s : Settings) : Option SettingsFault :=
  let m := s.monitor
  if !m.batchesOrdered then some (.batchSizes m.batchMin m.batchDefault m.batchMax)
  else if !m.memoryOrdered then some .memoryThresholds
  else if m.loadElevated > m.loadHigh then some .loadThresholds
  else if m.sampleInterval == 0 || m.cooldownPollMs == 0 then some .intervals
  else if s.deferred.drainChunk == 0 || s.deferred.patchBatch == 0 then some .chunkSizes
  else if Text.isBlankText s.extractor.command then some .command
  else none

/-- Settings that the service runs with. -/
def Valid (s : Settings) : Prop := s.fault? = none

instance (s : Settings) : Decidable s.Valid := inferInstanceAs (Decidable (_ = _))

end Settings

end Corpus
