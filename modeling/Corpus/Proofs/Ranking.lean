/-
Corpus/Proofs/Ranking.lean

Bands by how severe they are, and the sizes that they allow.

All bands start from the size in force.  The critical one asks for the smallest size, the high and
the moderate one for no more than the size in force, and the low one, if its sum fits a word, for no
less.  The load and the last bound keep the order of what the bands ask for (`Control.step_le_step`),
so a severer band allows no larger size,

    critical  ≤  high, moderate  ≤  dead zone  ≤  low

and only the high and the moderate band need a closer look: the one takes a third away, the other a
step of its own setting.  A step larger than the third makes the moderate band the stricter one
(`high_allows_more_than_moderate`).
-/
import Corpus.Proofs.Wrapping

namespace Corpus

/-- The place of a band among all of them, the larger the more memory is in use. -/
def Band.severity : Band → Nat
  | .critical => 4
  | .high => 3
  | .moderate => 2
  | .deadZone => 1
  | .low => 0

namespace Control

/-- Two thirds of the size are no more than a step down leaves of it, or than the smallest size. -/
def StepsGently (s : MonitorSettings) (c : Control) : Prop :=
  c.batchSize.toNat * 2 / 3 ≤ max s.batchMin.toNat (c.batchSize.toNat - s.batchStepDown.toNat)

instance (s : MonitorSettings) (c : Control) : Decidable (c.StepsGently s) :=
  inferInstanceAs (Decidable (_ ≤ _))

variable {s : MonitorSettings} {c : Control}

/-! ### What the bands ask for -/

/-- A product that wraps comes out too small, so the high band never asks for more than two
thirds. -/
theorem asked_high_le (c : Control) :
    (c.underMemory s .high).batchSize.toNat ≤ max s.batchMin.toNat (c.batchSize.toNat * 2 / 3) := by
  have hproduct : (c.batchSize * 2).toNat ≤ c.batchSize.toNat * 2 := by
    rw [UInt64.toNat_mul]
    exact Nat.mod_le _ _
  show (atLeast s.batchMin (c.batchSize * 2 / 3)).toNat ≤ _
  rw [toNat_atLeast, UInt64.toNat_div]
  simp only [UInt64.reduceToNat]
  omega

theorem asked_moderate (c : Control) : (c.underMemory s .moderate).batchSize.toNat =
    max s.batchMin.toNat (c.batchSize.toNat - s.batchStepDown.toNat) :=
  toNat_underMemory trivial

/-- No band asks for less than the smallest size, if the sum of the low one fits a word. -/
theorem least_le_asked (h : s.Sizes) (hwithin : c.Within s) {band : Band}
    (hsum : band = .low → c.Fits s .low) :
    s.batchMin.toNat ≤ (c.underMemory s band).batchSize.toNat := by
  have hrange := UInt64.le_iff_toNat_le.mp h.2
  have hleast := UInt64.le_iff_toNat_le.mp hwithin.1
  cases band with
  | critical => exact Nat.le_refl _
  | high =>
    show _ ≤ (atLeast s.batchMin (c.batchSize * 2 / 3)).toNat
    rw [toNat_atLeast]
    exact Nat.le_max_left _ _
  | moderate =>
    rw [asked_moderate]
    exact Nat.le_max_left _ _
  | deadZone => exact hleast
  | low =>
    rw [toNat_underMemory (hsum rfl), exactAsked]
    omega

/-- Bands above the dead zone ask for no more than the size in force. -/
theorem asked_le_size (hwithin : c.Within s) {band : Band} (hsevere : 0 < band.severity) :
    (c.underMemory s band).batchSize.toNat ≤ c.batchSize.toNat := by
  have hleast := UInt64.le_iff_toNat_le.mp hwithin.1
  cases band with
  | critical => exact hleast
  | high =>
    have hthird := asked_high_le (s := s) c
    omega
  | moderate =>
    rw [asked_moderate]
    omega
  | deadZone => exact Nat.le_refl _
  | low => exact absurd hsevere (Nat.lt_irrefl 0)

/-- The low band asks for no less than the size in force, if the sum fits a word. -/
theorem size_le_asked_low (hwithin : c.Within s) (hsum : c.Fits s .low) :
    c.batchSize.toNat ≤ (c.underMemory s .low).batchSize.toNat := by
  have hmost := UInt64.le_iff_toNat_le.mp hwithin.2
  rw [toNat_underMemory hsum, exactAsked]
  omega

/-- **What two bands ask for.** -/
theorem asked_le_asked (h : s.Sizes) (hwithin : c.Within s) {severe mild : Band}
    (hsevere : mild.severity < severe.severity)
    (hgentle : severe = .high → mild = .moderate → c.StepsGently s)
    (hsum : mild = .low → c.Fits s .low) :
    (c.underMemory s severe).batchSize.toNat ≤ (c.underMemory s mild).batchSize.toNat := by
  have hsize := asked_le_size hwithin (Nat.zero_lt_of_lt hsevere)
  cases mild with
  | critical => cases severe <;> exact absurd hsevere (by decide)
  | deadZone => exact hsize
  | low => exact Nat.le_trans hsize (size_le_asked_low hwithin (hsum rfl))
  | high =>
    cases severe with
    | critical => exact least_le_asked h hwithin hsum
    | high | moderate | deadZone | low => exact absurd hsevere (by decide)
  | moderate =>
    cases severe with
    | critical => exact least_le_asked h hwithin hsum
    | high =>
      -- the only two bands that may both lie between the smallest size and the size in force
      have hthird := asked_high_le (s := s) c
      have hstep := hgentle rfl rfl
      rw [StepsGently] at hstep
      rw [asked_moderate]
      omega
    | moderate | deadZone | low => exact absurd hsevere (by decide)

/-! ### What comes of it -/

/-- **One rung for each of two bands.**  Under one load the sizes keep the order of what the bands
ask for. -/
theorem step_le_step (h : s.Sizes) {severe mild : Band}
    (hasked : (c.underMemory s severe).batchSize.toNat ≤
      (c.underMemory s mild).batchSize.toNat) (load : LoadLevel) :
    (c.step s severe load).batchSize ≤ (c.step s mild load).batchSize := by
  cases load with
  | calm | elevated => exact clampBatch_mono h (UInt64.le_iff_toNat_le.mpr hasked)
  | high =>
    show clampBatch s (atLeast s.batchMin ((c.underMemory s severe).batchSize / 2)) ≤
      clampBatch s (atLeast s.batchMin ((c.underMemory s mild).batchSize / 2))
    rw [clampBatch_atLeast h, clampBatch_atLeast h]
    refine clampBatch_mono h (UInt64.le_iff_toNat_le.mpr ?_)
    rw [UInt64.toNat_div, UInt64.toNat_div]
    exact Nat.div_le_div_right hasked

/-- Without a high load the high band allows no more than the moderate one exactly if the steps of
the moderate one are gentle. -/
theorem step_high_le_moderate_iff (h : s.Sizes) (hwithin : c.Within s) (hproduct : c.Fits s .high)
    {load : LoadLevel} (hload : load ≠ .high) :
    (c.step s .high load).batchSize ≤ (c.step s .moderate load).batchSize ↔ c.StepsGently s := by
  have hrange := UInt64.le_iff_toNat_le.mp h.2
  have hmost := UInt64.le_iff_toNat_le.mp hwithin.2
  have hmoderate : c.Fits s .moderate := trivial
  rw [UInt64.le_iff_toNat_le, toNat_step h hproduct, toNat_step h hmoderate, StepsGently]
  cases load with
  | calm | elevated =>
    simp only [exactSize, exactAsked, clampNat]
    omega
  | high => exact absurd rfl hload

end Control

/-- **Severity.**  Under valid settings and from any control in their range, of two samples with one
load the one in the severer band leads to no larger batches: always against the dead zone, for the
critical band always, against the low band if its sum fits a word, and for the high band against the
moderate one if the steps of that are gentle.  If the load is not high, and twice the size fits a
word, the last condition is also necessary. -/
theorem severer_bands_allow_less (x : Settings) (hvalid : x.Valid) (c : Control)
    (hwithin : c.Within x.monitor) (usage milder ratio : Float)
    (hsevere : (Band.ofUsage x.monitor milder).severity <
      (Band.ofUsage x.monitor usage).severity) :
    let s := x.monitor
    let severe := Band.ofUsage s usage
    let mild := Band.ofUsage s milder
    ((severe = .high → mild = .moderate → c.StepsGently s) → (mild = .low → c.Fits s .low) →
      (c.adjust s usage ratio).batchSize ≤ (c.adjust s milder ratio).batchSize) ∧
    (severe = .high → mild = .moderate → ¬ s.loadHigh < ratio → c.Fits s .high →
      ((c.adjust s usage ratio).batchSize ≤ (c.adjust s milder ratio).batchSize ↔
        c.StepsGently s)) := by
  intro s severe mild
  have hsizes : s.Sizes := hvalid.sizes
  constructor
  · intro hgentle hsum
    exact Control.step_le_step hsizes
      (Control.asked_le_asked hsizes hwithin hsevere hgentle hsum) (LoadLevel.ofRatio s ratio)
  · intro hhigh hmoderate hload hproduct
    have hlevel : LoadLevel.ofRatio s ratio ≠ .high := LoadLevel.ofRatio_ne_high hload
    have hiff := Control.step_high_le_moderate_iff hsizes hwithin hproduct hlevel
    rw [← hhigh, ← hmoderate] at hiff
    exact hiff

/-- Two thirds of 51 are 34, and a step of 5 leaves 46: the steps are gentle, and under a high load,
which halves both sizes, the order stays. -/
theorem severer_bands_allow_less_halved :
    let x : Settings := {}
    let c : Control := ⟨51, true, .ofMillis 200⟩
    x.Valid ∧ c.Within x.monitor ∧
      (Band.ofUsage x.monitor 0.7).severity < (Band.ofUsage x.monitor 0.85).severity ∧
      (c.adjust x.monitor 0.85 3.0).batchSize = 17 ∧ (c.adjust x.monitor 0.7 3.0).batchSize = 23 ∧
      (c.adjust x.monitor 0.85 3.0).batchSize ≤ (c.adjust x.monitor 0.7 3.0).batchSize ∧
      ((c.adjust x.monitor 0.85 1.7).batchSize ≤ (c.adjust x.monitor 0.7 1.7).batchSize ↔
        c.StepsGently x.monitor) := by
  intro x c
  have hvalid : x.Valid := by decide
  have hwithin : c.Within x.monitor := ⟨by decide, by decide⟩
  have hsevere : (Band.ofUsage x.monitor 0.7).severity < (Band.ofUsage x.monitor 0.85).severity := by
    decide
  have hgentle : c.StepsGently x.monitor := by decide
  have hmoderate : Band.ofUsage x.monitor 0.7 ≠ .low := by decide
  obtain ⟨hless, -⟩ := severer_bands_allow_less x hvalid c hwithin 0.85 0.7 3.0 hsevere
  obtain ⟨-, hiff⟩ := severer_bands_allow_less x hvalid c hwithin 0.85 0.7 1.7 hsevere
  exact ⟨hvalid, hwithin, hsevere, by decide, by decide,
    hless (fun _ _ => hgentle) fun hlow => absurd hlow hmoderate,
    hiff (by decide) (by decide) (by decide) (by decide)⟩

/-- A step down of 60 leaves a third of the size that a job starts with, where the high band leaves
two thirds. -/
theorem high_allows_more_than_moderate :
    let x : Settings := { monitor := { batchDefault := 90, batchStepDown := 60 } }
    let c := Control.initial x.monitor
    x.Valid ∧ c.Within x.monitor ∧ Band.ofUsage x.monitor 0.85 = .high ∧
      Band.ofUsage x.monitor 0.7 = .moderate ∧ (c.adjust x.monitor 0.85 0.0).batchSize = 60 ∧
      (c.adjust x.monitor 0.7 0.0).batchSize = 30 ∧
      ¬ (c.adjust x.monitor 0.85 0.0).batchSize ≤ (c.adjust x.monitor 0.7 0.0).batchSize := by
  intro x c
  exact ⟨by decide, ⟨by decide, by decide⟩, by decide, by decide, by decide, by decide, by decide⟩

end Corpus
