/-
Corpus/Proofs/Cooling.lean

Waiting for memory to recover.

A wait reads the usage of memory and sleeps in between, until a reading shows that memory has
recovered or a look at the clock shows that the deadline has passed.  How long a reading takes is up
to the machine, and a sleep may last longer than asked for, but never shorter (`Clock`).  The last
sleep is cut to what remains of the wait, so that every sleep brings the deadline closer by a poll
interval or reaches it, and the wait is a recursion on the time that remains (`Monitor.awaitOn`):

    remaining  ≤  k * poll interval    gives    readings  ≤  k + 1

(`Monitor.waitEnds`).  The wait of a job is bounded by a number of readings.  That bound is never
met: on a clock that keeps time exactly the two waits are one (`Monitor.cooldown_eq`).
-/
import Mathlib.Algebra.Order.Floor.Div
import Corpus.Proofs.Sampling

namespace Corpus

/-- How time passes during a wait. -/
structure Clock where
  /-- What each reading takes, counted from zero. -/
  reading : Nat → Nat
  /-- What the sleep behind a reading takes if it is to last so long. -/
  sleep : Nat → Nat → Nat
  le_sleep : ∀ i d, d ≤ sleep i d

/-- Readings take no time, and sleeps exactly theirs. -/
def Clock.exact : Clock := ⟨fun _ => 0, fun _ d => d, fun _ d => Nat.le_refl d⟩

@[simp] theorem Clock.reading_exact (i : Nat) : exact.reading i = 0 := rfl

@[simp] theorem Clock.sleep_exact (i d : Nat) : exact.sleep i d = d := rfl

/-- A reading that ends a wait: the usage is unknown, or below the high mark. -/
def Reading.Recovered (s : MonitorSettings) (r : Reading) : Prop :=
  ∀ usage, r.usage? = some usage → usage < s.memoryHigh

namespace Reading

variable {s : MonitorSettings} {r : Reading}

theorem recovered_iff :
    r.Recovered s ↔ r.totalMemory = 0 ∨ ∃ usage, r.usage? = some usage ∧ usage < s.memoryHigh := by
  constructor
  · intro h
    cases husage : r.usage? with
    | some usage => exact .inr ⟨usage, rfl, h usage husage⟩
    | none =>
      refine .inl ?_
      rw [usage?] at husage
      split at husage
      · rename_i hzero
        exact beq_iff_eq.mp hzero
      · cases husage
  · rintro (hzero | ⟨usage, husage, hbelow⟩) other hother
    · rw [usage?_eq_none hzero] at hother
      cases hother
    · cases husage.symm.trans hother
      exact hbelow

theorem not_recovered_iff :
    ¬ r.Recovered s ↔ ∃ usage, r.usage? = some usage ∧ ¬ usage < s.memoryHigh := by
  rw [Recovered]
  push Not
  rfl

theorem all_eq_true_iff : r.usage?.all (· < s.memoryHigh) = true ↔ r.Recovered s := by
  rw [Recovered]
  cases r.usage? with
  | none => simp
  | some usage => simp

end Reading

namespace Monitor

/-! ### A wait on a clock -/

theorem pollNanos_pos (m : Monitor) : 0 < m.pollNanos :=
  Nat.mul_pos (Nat.lt_of_lt_of_le Nat.one_pos (Nat.le_max_left _ _)) (by decide)

/-- A sleep takes at least the poll interval, or what is left. -/
theorem le_sleep_pollSpan (clock : Clock) (m : Monitor) (i left : Nat) :
    min m.pollNanos left ≤ clock.sleep i (m.pollSpan left) :=
  clock.le_sleep i _

/-- Waits from `now` on, `i` readings behind the start: tells whether memory has recovered, and when
the wait was over. -/
def awaitOn (clock : Clock) (deadline i now : Nat) (m : Monitor) : Bool × Nat × Monitor :=
  match m.hasRecovered with
  | (true, m) => (true, now + clock.reading i, m)
  | (false, m) =>
    if now + clock.reading i < deadline then
      let span := m.pollSpan (deadline - (now + clock.reading i))
      awaitOn clock deadline (i + 1) (now + clock.reading i + clock.sleep i span) m
    else (false, now + clock.reading i, m)
termination_by deadline - now
decreasing_by
  have hsleep := le_sleep_pollSpan clock m i (deadline - (now + clock.reading i))
  have hpoll := m.pollNanos_pos
  omega

variable {s : MonitorSettings} {m : Monitor} {clock : Clock} {deadline : Nat}

/-- A reading leaves the settings and takes the next reading of the probe. -/
theorem freshUsage_frame (m : Monitor) :
    m.freshUsage.2.settings = m.settings ∧
      m.freshUsage.2.probe = { m.probe with taken := m.probe.taken + 1 } := by
  rw [freshUsage_eq]
  exact ⟨rfl, rfl⟩

/-- A reading that shows that memory has recovered ends the wait. -/
theorem awaitOn_of_recovered (h : m.settings = s) (i now : Nat)
    (hfirst : m.probe.read.1.Recovered s) :
    awaitOn clock deadline i now m = (true, now + clock.reading i, m.freshUsage.2) := by
  rw [awaitOn, hasRecovered_eq, h, Reading.all_eq_true_iff.mpr hfirst]

/-- Any other reading ends the wait if the deadline has passed behind it. -/
theorem awaitOn_of_late (h : m.settings = s) {i now : Nat}
    (hfirst : ¬ m.probe.read.1.Recovered s) (hlate : deadline ≤ now + clock.reading i) :
    awaitOn clock deadline i now m = (false, now + clock.reading i, m.freshUsage.2) := by
  rw [awaitOn, hasRecovered_eq, h,
    Bool.eq_false_iff.mpr (mt Reading.all_eq_true_iff.mp hfirst)]
  exact if_neg (Nat.not_lt.mpr hlate)

/-- Otherwise the wait goes on behind a sleep. -/
theorem awaitOn_of_early (h : m.settings = s) {i now : Nat}
    (hfirst : ¬ m.probe.read.1.Recovered s) (hearly : now + clock.reading i < deadline) :
    awaitOn clock deadline i now m =
      awaitOn clock deadline (i + 1)
        (now + clock.reading i +
          clock.sleep i (m.freshUsage.2.pollSpan (deadline - (now + clock.reading i))))
        m.freshUsage.2 := by
  rw [awaitOn, hasRecovered_eq, h,
    Bool.eq_false_iff.mpr (mt Reading.all_eq_true_iff.mp hfirst)]
  exact if_pos hearly

/-- What a wait comes to after so many readings: none but the last shows that memory has recovered,
and if that does not either, the deadline has passed. -/
structure WaitEnds (s : MonitorSettings) (deadline reads : Nat) (m : Monitor)
    (result : Bool × Nat × Monitor) : Prop where
  pos : 0 < reads
  probe : result.2.2.probe = { m.probe with taken := m.probe.taken + reads }
  earlier : ∀ i, i + 1 < reads → ¬ (m.probe.readings (m.probe.taken + i)).Recovered s
  last : result.1 = true ↔ (m.probe.readings (m.probe.taken + (reads - 1))).Recovered s
  late : result.1 = false → deadline ≤ result.2.1

/-- A wait that goes on behind its first reading. -/
theorem WaitEnds.succ {reads : Nat} {result : Bool × Nat × Monitor}
    (h : WaitEnds s deadline reads m.freshUsage.2 result)
    (hfirst : ¬ m.probe.read.1.Recovered s) : WaitEnds s deadline (reads + 1) m result := by
  obtain ⟨-, hprobe⟩ := freshUsage_frame m
  have hreading : ∀ i, m.freshUsage.2.probe.readings (m.freshUsage.2.probe.taken + i) =
      m.probe.readings (m.probe.taken + (i + 1)) := by
    intro i
    rw [hprobe, Nat.add_right_comm]
    rfl
  refine ⟨Nat.succ_pos _, ?_, ?_, ?_, h.late⟩
  · rw [h.probe, hprobe, Nat.add_right_comm]
    rfl
  · intro i hi
    cases i with
    | zero => exact hfirst
    | succ i =>
      rw [← hreading]
      exact h.earlier i (Nat.lt_of_succ_lt_succ hi)
  · have hpos := h.pos
    rw [h.last, hreading, Nat.sub_add_cancel hpos, Nat.add_sub_cancel]

/-- A wait that ends with its first reading. -/
theorem waitEnds_one {recovered : Bool} {seen : Nat}
    (hfirst : recovered = true ↔ m.probe.read.1.Recovered s)
    (hlate : recovered = false → deadline ≤ seen) :
    WaitEnds s deadline 1 m (recovered, seen, m.freshUsage.2) where
  pos := Nat.one_pos
  probe := (freshUsage_frame m).2
  earlier := fun _ hi => absurd (Nat.lt_of_succ_lt_succ hi) (Nat.not_lt_zero _)
  last := hfirst
  late := hlate

/-- One turn of a wait: it ends, or goes on as the rest of it does. -/
theorem waitEnds_of_rest (h : m.settings = s) {i now k : Nat}
    (hrest : ∀ seen, now ≤ seen → seen < deadline →
      ∃ reads ≤ k, WaitEnds s deadline reads m.freshUsage.2
        (awaitOn clock deadline (i + 1)
          (seen + clock.sleep i (m.freshUsage.2.pollSpan (deadline - seen))) m.freshUsage.2)) :
    ∃ reads ≤ k + 1, WaitEnds s deadline reads m (awaitOn clock deadline i now m) := by
  by_cases hfirst : m.probe.read.1.Recovered s
  · rw [awaitOn_of_recovered h i now hfirst]
    exact ⟨1, Nat.le_add_left 1 k, waitEnds_one (iff_of_true rfl hfirst) nofun⟩
  · rcases Nat.lt_or_ge (now + clock.reading i) deadline with hearly | hlate
    · obtain ⟨reads, hreads, hends⟩ := hrest _ (Nat.le_add_right _ _) hearly
      rw [awaitOn_of_early h hfirst hearly]
      exact ⟨reads + 1, Nat.succ_le_succ hreads, hends.succ hfirst⟩
    · rw [awaitOn_of_late h hfirst hlate]
      exact ⟨1, Nat.le_add_left 1 k,
        waitEnds_one (iff_of_false Bool.false_ne_true hfirst) fun _ => hlate⟩

/-- **A wait ends**, after at most one reading more than there are poll intervals in the time that
remains. -/
theorem waitEnds (clock : Clock) (k : Nat) :
    ∀ {m : Monitor} (i now : Nat), m.settings = s → deadline - now ≤ k * m.pollNanos →
      ∃ reads ≤ k + 1, WaitEnds s deadline reads m (awaitOn clock deadline i now m) := by
  -- on the poll intervals that remain: a sleep uses up one of them, unless it reaches the deadline
  induction k with
  | zero =>
    intro m i now h hremaining
    refine waitEnds_of_rest h fun seen hnow hseen => ?_
    omega
  | succ k ih =>
    intro m i now h hremaining
    refine waitEnds_of_rest h fun seen hnow hseen => ?_
    obtain ⟨hsettings, -⟩ := freshUsage_frame m
    have hpoll : m.freshUsage.2.pollNanos = m.pollNanos := by
      rw [pollNanos, pollNanos, hsettings]
    have hsleep := le_sleep_pollSpan clock m.freshUsage.2 i (deadline - seen)
    rw [Nat.succ_mul] at hremaining
    refine ih (i + 1) _ (hsettings.trans h) ?_
    rw [hpoll] at hsleep ⊢
    omega

/-! ### The wait of a job -/

/-- A bounded wait ends with a reading that shows that memory has recovered. -/
theorem awaitRecovery_of_recovered (f : Nat → Nat) (k left : Nat)
    (hfirst : m.probe.read.1.Recovered m.settings) :
    awaitRecovery f (k + 1) left m = (true, m.freshUsage.2) := by
  rw [awaitRecovery, hasRecovered_eq, Reading.all_eq_true_iff.mpr hfirst]

/-- Behind any other reading a bounded wait ends if no time is left, and goes on otherwise. -/
theorem awaitRecovery_of_not_recovered (f : Nat → Nat) (k left : Nat)
    (hfirst : ¬ m.probe.read.1.Recovered m.settings) :
    awaitRecovery f (k + 1) left m =
      if left = 0 then (false, m.freshUsage.2)
      else awaitRecovery f k (left - f (m.freshUsage.2.pollSpan left)) m.freshUsage.2 := by
  rw [awaitRecovery, hasRecovered_eq,
    Bool.eq_false_iff.mpr (mt Reading.all_eq_true_iff.mp hfirst)]

/-- One turn of both waits. -/
theorem awaitRecovery_of_rest {i now k : Nat}
    (hrest : now < deadline → ∀ span, span = m.freshUsage.2.pollSpan (deadline - now) →
      awaitRecovery id k (deadline - (now + span)) m.freshUsage.2 =
        ((awaitOn .exact deadline (i + 1) (now + span) m.freshUsage.2).1,
          (awaitOn .exact deadline (i + 1) (now + span) m.freshUsage.2).2.2)) :
    awaitRecovery id (k + 1) (deadline - now) m =
      ((awaitOn .exact deadline i now m).1, (awaitOn .exact deadline i now m).2.2) := by
  by_cases hfirst : m.probe.read.1.Recovered m.settings
  · rw [awaitRecovery_of_recovered id k _ hfirst, awaitOn_of_recovered rfl i now hfirst]
  rw [awaitRecovery_of_not_recovered id k _ hfirst]
  rcases Nat.lt_or_ge now deadline with hearly | hlate
  · -- the sleep is rewritten, since evaluating it would count its nanoseconds
    rw [if_neg (Nat.sub_ne_zero_of_lt hearly), awaitOn_of_early rfl hfirst hearly, id_eq,
      Nat.sub_sub, hrest hearly _ rfl, Clock.sleep_exact, Clock.reading_exact, Nat.add_zero now]
  · rw [if_pos (Nat.sub_eq_zero_of_le hlate), awaitOn_of_late rfl hfirst hlate]

/-- A wait that may take enough readings is the one on an exact clock. -/
theorem awaitRecovery_eq (k : Nat) :
    ∀ {m : Monitor} (i now : Nat), deadline - now ≤ k * m.pollNanos →
      awaitRecovery id (k + 1) (deadline - now) m =
        ((awaitOn .exact deadline i now m).1, (awaitOn .exact deadline i now m).2.2) := by
  induction k with
  | zero =>
    intro m i now hremaining
    refine awaitRecovery_of_rest fun hnow _ _ => ?_
    omega
  | succ k ih =>
    intro m i now hremaining
    refine awaitRecovery_of_rest fun hnow span hspan => ih (i + 1) _ ?_
    have hpoll : m.freshUsage.2.pollNanos = m.pollNanos := by
      rw [pollNanos, pollNanos, (freshUsage_frame m).1]
    rw [Nat.succ_mul] at hremaining
    rw [pollSpan, hpoll] at hspan
    rw [hpoll]
    omega

/-- As many poll intervals as the wait holds, the last of them perhaps cut, make up for it. -/
theorem le_ceilDiv_mul_pollNanos (m : Monitor) (nanos : Nat) :
    nanos ≤ (nanos ⌈/⌉ m.pollNanos) * m.pollNanos := by
  rw [Nat.mul_comm, ← ceilDiv_le_iff_le_mul m.pollNanos_pos]

/-- **The wait of a job** is the one on an exact clock: its bound on readings is high enough. -/
theorem cooldown_eq (m : Monitor) (maxWait : Span) :
    m.cooldown maxWait =
      ((awaitOn .exact maxWait.nanos 0 0 m).1, (awaitOn .exact maxWait.nanos 0 0 m).2.2) := by
  have hreads : m.cooldownReads maxWait = maxWait.nanos ⌈/⌉ m.pollNanos + 1 := by
    rw [cooldownReads, Nat.ceilDiv_eq_add_pred_div]
  have hwait : awaitRecovery id (maxWait.nanos ⌈/⌉ m.pollNanos + 1) (maxWait.nanos - 0) m = _ :=
    awaitRecovery_eq _ 0 0 (m.le_ceilDiv_mul_pollNanos maxWait.nanos)
  rw [Nat.sub_zero] at hwait
  rw [cooldown, hreads, hwait]

end Monitor

/-- No poll interval of valid settings is empty. -/
theorem Settings.Valid.cooldownPoll {s : Settings} (h : s.Valid) :
    0 < s.monitor.cooldownPollMs.toNat := by
  rcases Nat.eq_zero_or_pos s.monitor.cooldownPollMs.toNat with hzero | hpos
  · have hpoll : s.monitor.cooldownPollMs = 0 := UInt64.toNat_inj.mp hzero
    rw [Valid, fault?, hpoll] at h
    split at h
    · cases h
    · split at h
      · cases h
      · split at h
        · cases h
        · split at h
          · cases h
          · rename_i hintervals
            exact absurd (Bool.or_true _) hintervals
  · exact hpos

open Monitor (awaitOn)

/-- **Cooldown.**  Under valid settings, for any readings, any length of the wait and any clock: the
wait takes one reading at least, and at most one more than there are poll intervals in it, the last
of them perhaps cut.  It tells that memory has recovered exactly if the last reading has no total or
shows a usage below the high mark, which no reading before it does; and that it has not exactly if
every reading shows a usage that is not below the high mark and the deadline has passed.  The wait of
a job is this wait on an exact clock. -/
theorem wait_ends_by_reading_or_deadline (x : Settings) (hvalid : x.Valid) (m : Monitor)
    (hsettings : m.settings = x.monitor) (clock : Clock) (maxWait : Span) :
    let s := x.monitor
    let result := awaitOn clock maxWait.nanos 0 0 m
    let reads := result.2.2.probe.taken - m.probe.taken
    let reading (i : Nat) := m.probe.readings (m.probe.taken + i)
    (0 < reads ∧ reads ≤ maxWait.nanos ⌈/⌉ (s.cooldownPollMs.toNat * 1000000) + 1) ∧
    (result.1 = true ↔ (reading (reads - 1)).totalMemory = 0 ∨
      ∃ usage, (reading (reads - 1)).usage? = some usage ∧ usage < s.memoryHigh) ∧
    (∀ i, i + 1 < reads →
      ∃ usage, (reading i).usage? = some usage ∧ ¬ usage < s.memoryHigh) ∧
    (result.1 = false ↔
      (∀ i < reads, ∃ usage, (reading i).usage? = some usage ∧ ¬ usage < s.memoryHigh) ∧
        maxWait.nanos ≤ result.2.1) ∧
    m.cooldown maxWait =
      ((awaitOn .exact maxWait.nanos 0 0 m).1, (awaitOn .exact maxWait.nanos 0 0 m).2.2) := by
  intro s result reads reading
  have hpoll : m.pollNanos = s.cooldownPollMs.toNat * 1000000 := by
    rw [Monitor.pollNanos, hsettings, Nat.max_eq_right hvalid.cooldownPoll]
  obtain ⟨taken, htaken, hends⟩ : ∃ taken ≤ _, Monitor.WaitEnds s maxWait.nanos taken m result :=
    Monitor.waitEnds clock _ 0 0 hsettings (m.le_ceilDiv_mul_pollNanos maxWait.nanos)
  have hreads : reads = taken := by
    show result.2.2.probe.taken - m.probe.taken = taken
    rw [hends.probe]
    exact Nat.add_sub_cancel_left _ _
  rw [hreads, ← hpoll]
  have hearlier : ∀ i, i + 1 < taken →
      ∃ usage, (reading i).usage? = some usage ∧ ¬ usage < s.memoryHigh :=
    fun i hi => Reading.not_recovered_iff.mp (hends.earlier i hi)
  have hpos := hends.pos
  refine ⟨⟨hpos, htaken⟩, hends.last.trans Reading.recovered_iff, hearlier, ⟨fun hfalse => ?_, ?_⟩,
    m.cooldown_eq maxWait⟩
  · refine ⟨fun i hi => ?_, hends.late hfalse⟩
    rcases Nat.lt_or_ge (i + 1) taken with hbefore | hlast
    · exact hearlier i hbefore
    · have hnot := mt hends.last.mpr (ne_true_of_eq_false hfalse)
      obtain rfl : i = taken - 1 := by omega
      exact Reading.not_recovered_iff.mp hnot
  · rintro ⟨hall, -⟩
    have hnot := Reading.not_recovered_iff.mpr (hall (taken - 1) (Nat.sub_lt hpos Nat.one_pos))
    exact Bool.eq_false_iff.mpr (mt hends.last.mp hnot)

/-- Memory that never recovers, a clock that runs late, and a poll interval that does not divide the
wait: after four readings at most the wait is over without success, and not before its deadline. -/
theorem wait_ends_by_reading_or_deadline_late :
    let x : Settings := { monitor := { cooldownPollMs := 5 } }
    let probe : Probe := { readings := fun _ => ⟨1000, 50, 0, 0.5⟩, processors := 4 }
    let m := Monitor.start x.monitor probe
    let clock : Clock := ⟨fun _ => 100, fun i d => d + i, fun i d => Nat.le_add_right d i⟩
    let result := awaitOn clock (Span.ofMillis 12).nanos 0 0 m
    x.Valid ∧ m.settings = x.monitor ∧ result.1 = false ∧ 12000000 ≤ result.2.1 ∧
      result.2.2.probe.taken ≤ 4 := by
  intro x probe m clock result
  have hvalid : x.Valid := by decide
  obtain ⟨⟨-, hreads⟩, hlast, -, hfalse, -⟩ :=
    wait_ends_by_reading_or_deadline x hvalid m rfl clock (Span.ofMillis 12)
  have hhigh : ¬ (⟨1000, 50, 0, 0.5⟩ : Reading).Recovered x.monitor :=
    Reading.not_recovered_iff.mpr ⟨_, rfl, by decide +kernel⟩
  have hresult : result.1 = false :=
    Bool.eq_false_iff.mpr fun htrue => hhigh (Reading.recovered_iff.mpr (hlast.mp htrue))
  have hfour : (Span.ofMillis 12).nanos ⌈/⌉ (x.monitor.cooldownPollMs.toNat * 1000000) + 1 = 4 := by
    decide +kernel
  rw [hfour] at hreads
  exact ⟨hvalid, rfl, hresult, (hfalse.mp hresult).2, hreads⟩

end Corpus
