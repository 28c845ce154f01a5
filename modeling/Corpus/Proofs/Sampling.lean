/-
Corpus/Proofs/Sampling.lean

Which readings move the ladder.

All operations of a monitor draw from one stream of readings.  Some readings are samples, others
only refresh the usage that is remembered, and a reading without a total is used up like any other
one.  A ledger (`Monitor.Ledger`) says who takes which reading without looking at the monitor: it
counts the checks and writes down each reading with the purpose that it was taken for.  Every
operation keeps the monitor in step with its ledger,

    control  =  left fold of the ladder over the samples of the ledger

(`Monitor.Follows.perform`), and so do all operations one after the other.  The counts of the
monitor are words, so they agree with the ledger as far as a word counts.
-/
import Corpus.Proofs.Rungs

namespace Corpus

/-- How many of some samples change the control that the ones before them lead to. -/
def Control.changes (s : MonitorSettings) (samples : List (Float × Float)) : Nat :=
  (List.range samples.length).countP fun i =>
    after s (samples.take (i + 1)) ≠ after s (samples.take i)

/-- One more sample. -/
theorem Control.changes_concat (s : MonitorSettings) (samples : List (Float × Float))
    (usage ratio : Float) :
    changes s (samples ++ [(usage, ratio)]) = changes s samples +
      if (after s samples).adjust s usage ratio = after s samples then 0 else 1 := by
  -- the earlier samples have the same samples before them as without the last one
  have hbefore : ((List.range samples.length).countP fun i =>
      after s ((samples ++ [(usage, ratio)]).take (i + 1)) ≠
        after s ((samples ++ [(usage, ratio)]).take i)) = changes s samples := by
    refine List.countP_congr fun i hi => ?_
    have hlt := List.mem_range.mp hi
    rw [List.take_append_of_le_length hlt, List.take_append_of_le_length (Nat.le_of_lt hlt)]
  have hall : (samples ++ [(usage, ratio)]).take (samples.length + 1) =
      samples ++ [(usage, ratio)] :=
    List.take_of_length_le (by rw [List.length_append, List.length_singleton])
  rw [changes, List.length_append, List.length_singleton, List.range_succ, List.countP_append,
    hbefore, List.countP_singleton, hall, List.take_left, after_concat]
  by_cases hsame : (after s samples).adjust s usage ratio = after s samples
  · rw [if_pos hsame, hsame, if_neg (by simp)]
  · rw [if_neg hsame, if_pos (by simpa using hsame)]

/-- No interval between two samples is empty. -/
theorem Settings.Valid.sampleInterval {s : Settings} (h : s.Valid) :
    0 < s.monitor.sampleInterval.toNat := by
  rcases Nat.eq_zero_or_pos s.monitor.sampleInterval.toNat with hzero | hpos
  · have hinterval : s.monitor.sampleInterval = 0 := UInt64.toNat_inj.mp hzero
    rw [Valid, fault?, hinterval] at h
    split at h
    · cases h
    · split at h
      · cases h
      · split at h
        · cases h
        · cases h
  · exact hpos

namespace Monitor

/-! ### Operations and their ledger -/

/-- What a job does with its monitor. -/
inductive Operation where
  /-- Counts a record. -/
  | check
  | sample
  | freshUsage
  | aboveHigh
  /-- Waits while `left` nanoseconds remain, for `reads` readings at most, as `Monitor.cooldown`
  does. -/
  | cooldown (clock : Nat → Nat) (reads left : Nat)
  | control
  | summary

/-- The operation counts a record. -/
def Operation.isCheck : Operation → Bool
  | .check => true
  | _ => false

/-- The monitor behind an operation. -/
def Operation.perform (m : Monitor) : Operation → Monitor
  | .check => m.check
  | .sample => m.sample.2
  | .freshUsage => m.freshUsage.2
  | .aboveHigh => m.aboveHigh.2
  | .cooldown clock reads left => (awaitRecovery clock reads left m).2
  | .control | .summary => m

/-- A reading that was taken, as a sample or for its usage alone. -/
structure Take where
  reading : Reading
  sampled : Bool

/-- The usage and the load that a reading tells the ladder, if it is a sample and has a total. -/
def Take.sample? (p : Probe) (take : Take) : Option (Float × Float) :=
  if take.sampled then take.reading.usage?.map (·, p.ratio take.reading) else none

theorem Take.sample?_eq_none (p : Probe) {take : Take}
    (h : take.sampled = false ∨ take.reading.usage? = none) : take.sample? p = none := by
  rw [sample?]
  rcases h with hunsampled | hunknown
  · rw [if_neg (by rw [hunsampled]; exact Bool.false_ne_true)]
  · rw [hunknown]
    exact ite_self none

/-- What operations have done to the stream of readings. -/
structure Ledger where
  checks : Nat := 0
  takes : List Take := []

namespace Ledger

/-- The usage and the load of each sample with a total. -/
def samples (p : Probe) (l : Ledger) : List (Float × Float) := l.takes.filterMap (Take.sample? p)

/-- The usage of each reading with a total. -/
def usages (l : Ledger) : List Float := l.takes.filterMap (·.reading.usage?)

/-- The reading that comes next. -/
def next (p : Probe) (l : Ledger) : Reading := p.readings (p.taken + l.takes.length)

/-- More readings are taken. -/
def add (l : Ledger) (takes : List Take) : Ledger := { l with takes := l.takes ++ takes }

/-- What a wait takes: readings for their usage, up to the first that does not show memory at the
high mark or above it, as long as there is time. -/
def waited (s : MonitorSettings) (p : Probe) (clock : Nat → Nat) : Nat → Nat → Ledger → List Take
  | 0, _, _ => []
  | reads + 1, left, l =>
    let take : Take := ⟨l.next p, false⟩
    let span := min (max 1 s.cooldownPollMs.toNat * 1000000) left
    if take.reading.usage?.all (· < s.memoryHigh) ∨ left = 0 then [take]
    else take :: waited s p clock reads (left - clock span) (l.add [take])

/-- What an operation takes.  Of the checks, those whose number the interval divides take a
sample. -/
def taking (s : MonitorSettings) (p : Probe) (l : Ledger) : Operation → List Take
  | .check =>
    if s.sampleInterval.toNat ∣ (l.checks + 1) % UInt64.size then [⟨l.next p, true⟩] else []
  | .sample => [⟨l.next p, true⟩]
  | .freshUsage | .aboveHigh => [⟨l.next p, false⟩]
  | .cooldown clock reads left => l.waited s p clock reads left
  | .control | .summary => []

/-- The ledger behind an operation. -/
def record (s : MonitorSettings) (p : Probe) (l : Ledger) (op : Operation) : Ledger :=
  { checks := if op.isCheck then l.checks + 1 else l.checks
    takes := l.takes ++ l.taking s p op }

end Ledger

/-- The monitor behind some operations. -/
def performAll (m : Monitor) (ops : List Operation) : Monitor :=
  ops.foldl Operation.perform m

/-- The ledger behind some operations. -/
def ledger (s : MonitorSettings) (p : Probe) (ops : List Operation) : Ledger :=
  ops.foldl (Ledger.record s p) {}

/-! ### A monitor in step with its ledger -/

/-- Readings are taken one after the other, and none is left out. -/
def Ledger.InOrder (p : Probe) (l : Ledger) : Prop :=
  l.takes.map (·.reading) =
    (List.range l.takes.length).map fun i => p.readings (p.taken + i)

/-- The ladder stands where some samples have led it, and counts them. -/
structure Led (s : MonitorSettings) (fed : List (Float × Float)) (m : Monitor) : Prop where
  control : m.control = Control.after s fed
  samples : m.samples = .ofNat fed.length
  adjustments : m.adjustments = .ofNat (Control.changes s fed)
  cooldowns : m.cooldowns =
    .ofNat (fed.countP fun sample => Band.ofUsage s sample.1 = .critical)

/-- The monitor is what its ledger says. -/
structure Follows (s : MonitorSettings) (p : Probe) (l : Ledger) (m : Monitor) : Prop where
  inOrder : l.InOrder p
  settings : m.settings = s
  probe : m.probe = { p with taken := p.taken + l.takes.length }
  checks : m.checks = .ofNat l.checks
  led : Led s (l.samples p) m
  lastUsage : m.lastUsage = l.usages.getLastD 0.0

/-- Two monitors whose ladders stand alike and have come there alike. -/
structure Agrees (m m' : Monitor) : Prop where
  control : m'.control = m.control
  samples : m'.samples = m.samples
  adjustments : m'.adjustments = m.adjustments
  cooldowns : m'.cooldowns = m.cooldowns

variable {s : MonitorSettings} {p : Probe} {l : Ledger} {m : Monitor}

theorem follows_start (s : MonitorSettings) (p : Probe) : Follows s p {} (start s p) :=
  ⟨rfl, rfl, rfl, rfl, ⟨rfl, rfl, rfl, rfl⟩, rfl⟩

namespace Ledger

theorem samples_add (p : Probe) (l : Ledger) (takes : List Take) :
    (l.add takes).samples p = l.samples p ++ samples p ⟨0, takes⟩ :=
  List.filterMap_append

theorem InOrder.add_next {p : Probe} {l : Ledger} (h : l.InOrder p) (sampled : Bool) :
    (l.add [⟨l.next p, sampled⟩]).InOrder p := by
  rw [InOrder] at h
  show (l.takes ++ [_]).map _ = (List.range (l.takes ++ [_]).length).map _
  rw [List.map_append, List.length_append, List.length_singleton, List.range_succ,
    List.map_append, h]
  rfl

theorem usages_add (l : Ledger) (takes : List Take) :
    (l.add takes).usages = l.usages ++ usages ⟨0, takes⟩ :=
  List.filterMap_append

/-- The last usage is that of the reading, if it has one. -/
theorem getLastD_usages_add (l : Ledger) (take : Take) :
    (l.add [take]).usages.getLastD 0.0 = take.reading.usage?.getD (l.usages.getLastD 0.0) := by
  rw [usages_add]
  cases husage : take.reading.usage? with
  | none => simp [usages, husage]
  | some usage => simp [usages, husage]

end Ledger

/-! ### Single readings -/

/-- The next reading of the monitor is the one that the ledger says. -/
theorem Follows.read (h : Follows s p l m) (take : Take) :
    m.probe.read = (l.next p, { p with taken := p.taken + (l.add [take]).takes.length }) := by
  rw [h.probe, Probe.read, Ledger.add, List.length_append, List.length_singleton, Ledger.next,
    Nat.add_assoc]

theorem freshUsage_eq (m : Monitor) :
    m.freshUsage = (m.probe.read.1.usage?,
      { m with probe := m.probe.read.2
               lastUsage := m.probe.read.1.usage?.getD m.lastUsage }) := by
  rw [Monitor.freshUsage]
  dsimp only
  cases m.probe.read.1.usage? with
  | none => rfl
  | some usage => rfl

/-- A reading that tells the ladder nothing moves the remembered usage at most. -/
theorem Follows.refresh (h : Follows s p l m) {sampled : Bool}
    (hnone : Take.sample? p ⟨l.next p, sampled⟩ = none) :
    Follows s p (l.add [⟨l.next p, sampled⟩])
      { m with
        probe := { p with taken := p.taken + (l.add [⟨l.next p, sampled⟩]).takes.length }
        lastUsage := (l.next p).usage?.getD m.lastUsage } := by
  have hsamples : (l.add [⟨l.next p, sampled⟩]).samples p = l.samples p := by
    have hnothing : Ledger.samples p ⟨0, [⟨l.next p, sampled⟩]⟩ = [] :=
      List.filterMap_cons_none hnone
    rw [Ledger.samples_add, hnothing, List.append_nil]
  refine ⟨h.inOrder.add_next sampled, h.settings, rfl, h.checks, ?_, ?_⟩
  · rw [hsamples]
    exact ⟨h.led.control, h.led.samples, h.led.adjustments, h.led.cooldowns⟩
  · rw [Ledger.getLastD_usages_add, ← h.lastUsage]

theorem Follows.freshUsage (h : Follows s p l m) :
    Follows s p (l.add [⟨l.next p, false⟩]) m.freshUsage.2 := by
  rw [freshUsage_eq, h.read ⟨l.next p, false⟩]
  exact h.refresh (Take.sample?_eq_none p (.inl rfl))

/-- A sample moves the ladder, if it has a total. -/
theorem Follows.sample (h : Follows s p l m) :
    Follows s p (l.add [⟨l.next p, true⟩]) m.sample.2 := by
  rw [Monitor.sample, h.read ⟨l.next p, true⟩]
  dsimp only
  cases husage : (l.next p).usage? with
  | none =>
    -- the reading is used up all the same, and counts as no sample
    have hnone : Take.sample? p ⟨l.next p, true⟩ = none := Take.sample?_eq_none p (.inr husage)
    have hrefresh := h.refresh hnone
    rwa [husage] at hrefresh
  | some usage =>
    have hsamples : (l.add [⟨l.next p, true⟩]).samples p =
        l.samples p ++ [(usage, p.ratio (l.next p))] := by
      rw [Ledger.samples_add]
      simp [Ledger.samples, Take.sample?, husage]
    have hratio : m.probe.ratio (l.next p) = p.ratio (l.next p) := by
      rw [h.probe]
      rfl
    have hnext : m.control.adjust m.settings usage (m.probe.ratio (l.next p)) =
        (Control.after s (l.samples p)).adjust s usage (p.ratio (l.next p)) := by
      rw [h.settings, h.led.control, hratio]
    refine ⟨h.inOrder.add_next true, h.settings, rfl, h.checks, ⟨?_, ?_, ?_, ?_⟩, ?_⟩
    · rw [hsamples, Control.after_concat]
      exact hnext
    · rw [hsamples, List.length_append, List.length_singleton, UInt64.ofNat_add,
        ← h.led.samples]
      rfl
    · rw [hsamples, Control.changes_concat, UInt64.ofNat_add, ← h.led.adjustments]
      dsimp only
      rw [hnext, h.led.control]
      split
      · exact (UInt64.add_zero _).symm
      · rfl
    · rw [hsamples, List.countP_append, UInt64.ofNat_add, ← h.led.cooldowns,
        List.countP_singleton]
      dsimp only
      rw [h.settings]
      by_cases hcritical : Band.ofUsage s usage = .critical
      · simp [hcritical]
      · simp [hcritical]
    · rw [Ledger.getLastD_usages_add, husage]
      rfl

/-! ### Operations -/

theorem aboveHigh_snd (m : Monitor) : m.aboveHigh.2 = m.freshUsage.2 := by
  rw [aboveHigh]
  split
  · rename_i heq
    rw [heq]
  · rename_i heq
    rw [heq]

/-- Memory has recovered unless a usage says that it has not. -/
theorem hasRecovered_eq (m : Monitor) :
    m.hasRecovered = (m.probe.read.1.usage?.all (· < m.settings.memoryHigh), m.freshUsage.2) := by
  rw [hasRecovered, freshUsage_eq]
  dsimp only
  cases m.probe.read.1.usage? with
  | none => rfl
  | some usage => rfl

/-- A wait takes the readings that its ledger says. -/
theorem Follows.awaitRecovery (clock : Nat → Nat) (reads : Nat) :
    ∀ (left : Nat) {l : Ledger} {m : Monitor}, Follows s p l m →
      Follows s p (l.add (l.waited s p clock reads left))
        (Monitor.awaitRecovery clock reads left m).2 := by
  -- on the readings that are left: the ledger of the wait goes on from the one behind its first
  -- reading, which `Follows.freshUsage` keeps in step
  induction reads with
  | zero =>
    intro left l m h
    rw [Ledger.waited, Ledger.add, List.append_nil, Monitor.awaitRecovery]
    exact h
  | succ reads ih =>
    intro left l m h
    have hfresh := h.freshUsage
    have hspan : m.freshUsage.2.pollSpan left =
        min (max 1 s.cooldownPollMs.toNat * 1000000) left := by
      rw [pollSpan, pollNanos, hfresh.settings]
    rw [Monitor.awaitRecovery, hasRecovered_eq, h.read ⟨l.next p, false⟩, h.settings, Ledger.waited]
    dsimp only
    cases hrecovered : (l.next p).usage?.all (· < s.memoryHigh) with
    | true =>
      rw [if_pos (.inl rfl)]
      exact hfresh
    | false =>
      dsimp only
      by_cases hleft : left = 0
      · rw [if_pos hleft, if_pos (.inr hleft)]
        exact hfresh
      · have hrest := ih (left - clock (m.freshUsage.2.pollSpan left)) hfresh
        rw [if_neg hleft, if_neg (not_or.mpr ⟨Bool.false_ne_true, hleft⟩)]
        rw [hspan] at hrest ⊢
        rw [Ledger.add, Ledger.add, List.append_assoc] at hrest
        exact hrest

/-- The number of a check is a word when the interval is to divide it. -/
theorem Follows.check_eq (h : Follows s p l m) (hinterval : 0 < s.sampleInterval.toNat) :
    let counted := { m with checks := m.checks + 1 }
    m.check = if s.sampleInterval.toNat ∣ (l.checks + 1) % UInt64.size then counted.sample.2
      else counted := by
  intro counted
  -- an interval of valid settings is at least one as it is
  have hatLeast : Control.atLeast 1 m.settings.sampleInterval = s.sampleInterval := by
    rw [h.settings, ← UInt64.toNat_inj, Control.toNat_atLeast]
    exact Nat.max_eq_right hinterval
  have hcount : m.checks + 1 = .ofNat (l.checks + 1) := by
    rw [h.checks, UInt64.ofNat_add]
    rfl
  have hdivides : (m.checks + 1) % s.sampleInterval = 0 ↔
      s.sampleInterval.toNat ∣ (l.checks + 1) % UInt64.size := by
    rw [hcount, ← UInt64.toNat_inj, UInt64.toNat_mod, UInt64.toNat_ofNat']
    exact (Nat.dvd_iff_mod_eq_zero ..).symm
  show (if (m.checks + 1) % Control.atLeast 1 m.settings.sampleInterval == 0 then
    counted.sample.2 else counted) = _
  rw [hatLeast]
  by_cases hdvd : s.sampleInterval.toNat ∣ (l.checks + 1) % UInt64.size
  · rw [if_pos (beq_iff_eq.mpr (hdivides.mpr hdvd)), if_pos hdvd]
  · rw [if_neg (mt (fun heq => hdivides.mp (beq_iff_eq.mp heq)) hdvd), if_neg hdvd]

/-- **One operation.**  The monitor stays in step with its ledger. -/
theorem Follows.perform (h : Follows s p l m) (hinterval : 0 < s.sampleInterval.toNat)
    (op : Operation) : Follows s p (l.record s p op) (op.perform m) := by
  cases op with
  | check =>
    have hcounted : Follows s p { l with checks := l.checks + 1 }
        { m with checks := m.checks + 1 } := by
      refine ⟨h.inOrder, h.settings, h.probe, ?_,
        ⟨h.led.control, h.led.samples, h.led.adjustments, h.led.cooldowns⟩, h.lastUsage⟩
      show m.checks + 1 = .ofNat (l.checks + 1)
      rw [h.checks, UInt64.ofNat_add]
      rfl
    rw [Operation.perform, h.check_eq hinterval, Ledger.record, Ledger.taking,
      if_pos (show Operation.check.isCheck = true from rfl)]
    split
    · exact hcounted.sample
    · rw [List.append_nil]
      exact hcounted
  | sample => exact h.sample
  | freshUsage => exact h.freshUsage
  | aboveHigh =>
    rw [Operation.perform, aboveHigh_snd]
    exact h.freshUsage
  | cooldown clock reads left => exact h.awaitRecovery clock reads left
  | control | summary =>
    show Follows s p ⟨l.checks, l.takes ++ []⟩ m
    rw [List.append_nil]
    exact h

/-- Any number of operations. -/
theorem Follows.performAll (hinterval : 0 < s.sampleInterval.toNat) (ops : List Operation) :
    ∀ {l : Ledger} {m : Monitor}, Follows s p l m →
      Follows s p (ops.foldl (Ledger.record s p) l) (m.performAll ops) := by
  -- from any ledger, since what comes next depends on what was taken before
  induction ops with
  | nil => exact fun h => h
  | cons op ops ih => exact fun h => ih (h.perform hinterval op)

/-! ### Operations that do not move the ladder -/

/-- Two monitors whose ladders were led by the same samples. -/
theorem Led.agrees {fed : List (Float × Float)} {m' : Monitor} (h : Led s fed m)
    (h' : Led s fed m') : Agrees m m' where
  control := by rw [h.control, h'.control]
  samples := by rw [h.samples, h'.samples]
  adjustments := by rw [h.adjustments, h'.adjustments]
  cooldowns := by rw [h.cooldowns, h'.cooldowns]

namespace Ledger

/-- Readings that are no samples or have no total add no sample. -/
theorem samples_record_of (p : Probe) (l : Ledger) {op : Operation}
    (h : ∀ take ∈ l.taking s p op, take.sampled = false ∨ take.reading.usage? = none) :
    (l.record s p op).samples p = l.samples p := by
  have hnone : samples p ⟨0, l.taking s p op⟩ = [] :=
    List.filterMap_eq_nil_iff.mpr fun take htake => take.sample?_eq_none p (h take htake)
  show (l.add (l.taking s p op)).samples p = l.samples p
  rw [samples_add, hnone, List.append_nil]

/-- A wait takes no sample. -/
theorem unsampled_waited (clock : Nat → Nat) (reads : Nat) :
    ∀ (left : Nat) (l : Ledger), ∀ take ∈ l.waited s p clock reads left, take.sampled = false := by
  induction reads with
  | zero => exact fun left l take h => absurd h List.not_mem_nil
  | succ reads ih =>
    intro left l take h
    rw [waited] at h
    dsimp only at h
    split at h
    · rw [List.mem_singleton.mp h]
    · rcases List.mem_cons.mp h with rfl | hrest
      · rfl
      · exact ih _ _ take hrest

/-- Checks and samples are the only operations that take samples. -/
theorem unsampled_taking (p : Probe) (l : Ledger) {op : Operation} (hcheck : op ≠ .check)
    (hsample : op ≠ .sample) : ∀ take ∈ l.taking s p op, take.sampled = false := by
  cases op with
  | check => exact absurd rfl hcheck
  | sample => exact absurd rfl hsample
  | freshUsage | aboveHigh =>
    intro take h
    rw [List.mem_singleton.mp h]
  | cooldown clock reads left => exact unsampled_waited clock reads left l
  | control | summary => exact fun take h => absurd h List.not_mem_nil

/-- The ledger counts the checks. -/
theorem checks_ledger (s : MonitorSettings) (p : Probe) (ops : List Operation) :
    (ledger s p ops).checks = ops.countP Operation.isCheck := by
  induction ops using List.reverseRecOn with
  | nil => rfl
  | append_singleton ops op ih =>
    rw [ledger, List.foldl_concat, List.countP_append, List.countP_singleton, ← ih]
    cases hcheck : op.isCheck with
    | true => rw [record, if_pos hcheck]; rfl
    | false => rw [record, if_neg (by rw [hcheck]; exact Bool.false_ne_true)]; rfl

end Ledger

end Monitor

/-- A reading says nothing if it has no total. -/
theorem Reading.usage?_eq_none {r : Reading} (h : r.totalMemory = 0) : r.usage? = none := by
  rw [usage?, if_pos (beq_iff_eq.mpr h)]

/-- **Sampling.**  Under valid settings, whatever the readings and after any operations: readings
are taken in order and as the ledger says, and the check after `n` others takes a sample exactly if
the interval divides `n + 1`.  The control is the left fold of the ladder over the samples with a
total.  The summary counts them, those that changed the control and the critical ones, and the usage
in it is the last one that any operation read.  Operations other than checks and samples move
neither the ladder nor its counts, and readings without a total move nothing. -/
theorem ladder_folds_samples (x : Settings) (hvalid : x.Valid) (probe : Probe)
    (ops : List Monitor.Operation) :
    let s := x.monitor
    let m := (Monitor.start s probe).performAll ops
    let l := Monitor.ledger s probe ops
    let samples := l.samples probe
    let n := ops.countP Monitor.Operation.isCheck
    let counted := { m with checks := m.checks + 1 }
    (m.probe.taken = probe.taken + l.takes.length ∧
      l.takes.map (·.reading) =
        (List.range l.takes.length).map fun i => probe.readings (probe.taken + i)) ∧
    (n + 1 < UInt64.size →
      m.check = if s.sampleInterval.toNat ∣ n + 1 then counted.sample.2 else counted) ∧
    m.control = Control.after s samples ∧
    m.summary =
      { samples := .ofNat samples.length
        adjustments := .ofNat (Control.changes s samples)
        cooldowns := .ofNat (samples.countP fun sample => Band.ofUsage s sample.1 = .critical)
        finalBatchSize := (Control.after s samples).batchSize
        lastMemoryUsage := l.usages.getLastD 0.0 } ∧
    (∀ op : Monitor.Operation, op ≠ .check → op ≠ .sample → Monitor.Agrees m (op.perform m)) ∧
    ∀ op : Monitor.Operation, (∀ take ∈ l.taking s probe op, take.reading.totalMemory = 0) →
      Monitor.Agrees m (op.perform m) ∧ (op.perform m).lastUsage = m.lastUsage := by
  intro s m l samples n counted
  have hinterval : 0 < s.sampleInterval.toNat := hvalid.sampleInterval
  have hfollows : Monitor.Follows s probe l m :=
    Monitor.Follows.performAll hinterval ops (Monitor.follows_start s probe)
  refine ⟨⟨?_, hfollows.inOrder⟩, ?_, hfollows.led.control, ?_, ?_, ?_⟩
  · rw [hfollows.probe]
  · intro hn
    have hcheck := hfollows.check_eq hinterval
    rwa [Monitor.Ledger.checks_ledger, Nat.mod_eq_of_lt hn] at hcheck
  · rw [Monitor.summary, hfollows.led.samples, hfollows.led.adjustments, hfollows.led.cooldowns,
      hfollows.led.control, hfollows.lastUsage]
  · intro op hcheck hsample
    have hnext := (hfollows.perform hinterval op).led
    rw [Monitor.Ledger.samples_record_of probe l fun take htake =>
      .inl (Monitor.Ledger.unsampled_taking probe l hcheck hsample take htake)] at hnext
    exact hfollows.led.agrees hnext
  · intro op hzero
    have hnext := hfollows.perform hinterval op
    have hunknown : ∀ take ∈ l.taking s probe op, take.reading.usage? = none :=
      fun take htake => Reading.usage?_eq_none (hzero take htake)
    refine ⟨?_, ?_⟩
    · have hled := hnext.led
      rw [Monitor.Ledger.samples_record_of probe l fun take htake =>
        .inr (hunknown take htake)] at hled
      exact hfollows.led.agrees hled
    · have husages : (l.record s probe op).usages = l.usages := by
        show (l.add (l.taking s probe op)).usages = l.usages
        rw [Monitor.Ledger.usages_add, Monitor.Ledger.usages, Monitor.Ledger.usages,
          List.filterMap_eq_nil_iff.mpr hunknown, List.append_nil]
      rw [hnext.lastUsage, hfollows.lastUsage, husages]

/-- A probe that runs through some readings of a machine with 1000 bytes, each given by the bytes in
all and those available, and then goes on with the last one. -/
def Sample.probing (readings : List (UInt64 × UInt64)) : Probe :=
  { readings := fun i =>
      let (total, available) := readings.getD i (1000, 500)
      ⟨total, available, 0, 0.5⟩
    processors := 4 }

/-- Every other check takes a sample.  The first one has no total and is used up all the same; the
second one and the last sample are critical, and only the second one changes the control. -/
theorem ladder_folds_samples_mixed :
    let x : Settings := { monitor := { sampleInterval := 2 } }
    let probe := Sample.probing
      [(1000, 50), (0, 0), (1000, 700), (1000, 50), (1000, 150), (0, 7), (1000, 50)]
    let ops : List Monitor.Operation :=
      [.check, .aboveHigh, .check, .freshUsage, .check, .control, .check,
        .cooldown id 9 3000000000, .sample, .summary]
    let m := (Monitor.start x.monitor probe).performAll ops
    let l := Monitor.ledger x.monitor probe ops
    x.Valid ∧ m.probe.taken = 7 ∧ (l.samples probe).length = 2 ∧
      m.control = Control.after x.monitor (l.samples probe) ∧ m.control.batchSize = 10 ∧
      m.summary.samples = 2 ∧ m.summary.adjustments = 1 ∧ m.summary.cooldowns = 2 ∧
      m.check.control = m.control := by
  intro x probe ops m l
  have hvalid : x.Valid := by decide
  obtain ⟨⟨htaken, -⟩, hcheck, hcontrol, hsummary, -, -⟩ := ladder_folds_samples x hvalid probe ops
  have htakes : l.takes.length = 7 := by decide +kernel
  have hsamples : (l.samples probe).length = 2 := by decide +kernel
  have hchanges : Control.changes x.monitor (l.samples probe) = 1 := by decide +kernel
  have hcritical : ((l.samples probe).countP fun sample =>
      Band.ofUsage x.monitor sample.1 = .critical) = 2 := by decide +kernel
  have hsize : (Control.after x.monitor (l.samples probe)).batchSize = 10 := by decide +kernel
  refine ⟨hvalid, ?_, hsamples, hcontrol, ?_, ?_, ?_, ?_, ?_⟩
  · rw [htaken, htakes]
    rfl
  · rw [hcontrol, hsize]
  · rw [hsummary, hsamples]
    rfl
  · rw [hsummary, hchanges]
    rfl
  · rw [hsummary, hcritical]
    rfl
  · rw [hcheck (by decide), if_neg (by decide)]

end Corpus
