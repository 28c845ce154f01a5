/-
Corpus/Pressure/Ladder.lean

The ladder that turns memory and load into control over the pipeline.

     usage  0 ---- low ------ moderate ---- high ---- critical ---- 1
              low  |  dead zone  |  moderate  |   high   |  critical
              grow |  no change  |   shrink   | 2/3,defer| min,defer

A sample picks a band by memory usage; the band sets the batch size, whether images are
left for later, and a pause after each commit.  The load can only tighten the result: above
the high mark it halves the batch and lengthens the pause, above the elevated mark it
lengthens the pause.
-/
import Corpus.Settings.Basic

namespace Corpus

/-- What the pipeline is told. -/
structure Control where
  batchSize : UInt64
  deferImages : Bool
  /-- The pause after a commit. -/
  pause : Span
  deriving DecidableEq, Repr, Inhabited

/-- How much memory is in use, from the most severe to the least. -/
inductive Band where
  | critical
  | high
  | moderate
  | deadZone
  | low
  deriving DecidableEq, Repr, Inhabited

namespace Band

/-- The band of a usage.  A usage that compares with nothing is in the dead zone. -/
def ofUsage (m : MonitorSettings) (usage : Float) : Band :=
  if m.memoryCritical ≤ usage then .critical
  else if m.memoryHigh ≤ usage then .high
  else if m.memoryModerate ≤ usage then .moderate
  else if usage < m.memoryLow then .low
  else .deadZone

/-- The name of a band in reports. -/
def name : Band → String
  | .critical => "Critical"
  | .high => "High"
  | .moderate => "Moderate"
  | .deadZone => "DeadZone"
  | .low => "Low"

end Band

/-- How the load compares with its marks. -/
inductive LoadLevel where
  | calm
  | elevated
  | high
  deriving DecidableEq, Repr

/-- The level of a load ratio. -/
def LoadLevel.ofRatio (m : MonitorSettings) (ratio : Float) : LoadLevel :=
  if m.loadHigh < ratio then .high
  else if m.loadElevated < ratio then .elevated
  else .calm

namespace Control

/-- The nearest batch size within the bounds. -/
def clampBatch (m : MonitorSettings) (size : UInt64) : UInt64 :=
  if size < m.batchMin then m.batchMin
  else if m.batchMax < size then m.batchMax
  else size

/-- Where a job starts. -/
def initial (m : MonitorSettings) : Control :=
  ⟨clampBatch m m.batchDefault, false, .zero⟩

/-- The larger of two sizes. -/
def atLeast (bound size : UInt64) : UInt64 := if size < bound then bound else size

/-- The smaller of two sizes. -/
def atMost (bound size : UInt64) : UInt64 := if bound < size then bound else size

/-- What memory alone asks for. -/
def underMemory (m : MonitorSettings) (current : Control) : Band → Control
  | .critical => ⟨m.batchMin, true, .ofMillis m.criticalSleepMs.toNat⟩
  -- the product is one of words, and so is the sum below: both may wrap
  | .high => ⟨atLeast m.batchMin (current.batchSize * 2 / 3), true, .ofMillis m.highSleepMs.toNat⟩
  | .moderate =>
    -- no more is taken away than there is
    ⟨atLeast m.batchMin (current.batchSize - atMost current.batchSize m.batchStepDown), false,
      .ofMillis m.moderateSleepMs.toNat⟩
  | .low => ⟨atMost m.batchMax (current.batchSize + m.batchStepUp), false, .zero⟩
  | .deadZone => current

/-- What the load makes of it. -/
def underLoad (m : MonitorSettings) (c : Control) : LoadLevel → Control
  | .high =>
    { c with
      pause := c.pause.longer (.ofMillis m.loadHighSleepMs.toNat)
      batchSize := atLeast m.batchMin (c.batchSize / 2) }
  | .elevated => { c with pause := c.pause.longer (.ofMillis m.loadElevatedSleepMs.toNat) }
  | .calm => c

/-- One rung for a band and a load level. -/
def step (m : MonitorSettings) (current : Control) (band : Band) (load : LoadLevel) : Control :=
  let next := (current.underMemory m band).underLoad m load
  -- the bounds have the last word
  { next with batchSize := clampBatch m next.batchSize }

/-- One sample applied to the control in force. -/
def adjust (m : MonitorSettings) (current : Control) (usage ratio : Float) : Control :=
  current.step m (Band.ofUsage m usage) (LoadLevel.ofRatio m ratio)

end Control

end Corpus
