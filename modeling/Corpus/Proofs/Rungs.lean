/-
Corpus/Proofs/Rungs.lean

The rungs of the ladder.

A sample picks a rung: memory says first what the batch size, the pause and the fate of images are
to be, and the load has its say behind it.  What memory asks for may lie outside the range of the
settings, and the sum or the product behind it may even wrap.  The bound at the end of the rung
brings every size back, so each control that samples can lead to lies in the range
(`Control.within_after`).  The lower bound that the load sets is no news to the bound at the end,

    clampBatch (atLeast batchMin size)  =  clampBatch size

and clamping keeps the order of sizes.  Therefore half of what memory asks for never ends above it,
whatever memory asked for, and the load can only tighten the rung (`Control.step_tightens`).
-/
import Corpus.Proofs.Sizing

namespace Corpus

namespace Control

/-- The control after some samples, each of them a usage of memory and a ratio of load. -/
def after (s : MonitorSettings) (samples : List (Float × Float)) : Control :=
  samples.foldl (fun c sample => c.adjust s sample.1 sample.2) (initial s)

variable {s : MonitorSettings}

/-- One more sample. -/
theorem after_concat (samples : List (Float × Float)) (usage ratio : Float) :
    after s (samples ++ [(usage, ratio)]) = (after s samples).adjust s usage ratio :=
  List.foldl_concat ..

/-- No sample leads out of the range of the settings. -/
theorem within_after (h : s.Sizes) (samples : List (Float × Float)) :
    (after s samples).Within s := by
  induction samples using List.reverseRecOn with
  | nil => exact within_initial h
  | append_singleton samples sample _ =>
    rw [after_concat]
    exact within_step h _ _ _

/-! ### Bounds as numbers -/

theorem toNat_atLeast (bound size : UInt64) :
    (atLeast bound size).toNat = max bound.toNat size.toNat := by
  rw [atLeast]
  split
  · rename_i hlt
    rw [UInt64.lt_iff_toNat_lt] at hlt
    omega
  · rename_i hle
    rw [UInt64.lt_iff_toNat_lt] at hle
    omega

theorem toNat_atMost (bound size : UInt64) :
    (atMost bound size).toNat = min bound.toNat size.toNat := by
  rw [atMost]
  split
  · rename_i hlt
    rw [UInt64.lt_iff_toNat_lt] at hlt
    omega
  · rename_i hle
    rw [UInt64.lt_iff_toNat_lt] at hle
    omega

theorem toNat_clampBatch (h : s.Sizes) (size : UInt64) :
    (clampBatch s size).toNat = max s.batchMin.toNat (min s.batchMax.toNat size.toNat) := by
  have hrange := UInt64.le_iff_toNat_le.mp h.2
  rw [clampBatch]
  split
  · rename_i hlow
    rw [UInt64.lt_iff_toNat_lt] at hlow
    omega
  · rename_i hlow
    rw [UInt64.lt_iff_toNat_lt] at hlow
    split
    · rename_i hhigh
      rw [UInt64.lt_iff_toNat_lt] at hhigh
      omega
    · rename_i hhigh
      rw [UInt64.lt_iff_toNat_lt] at hhigh
      omega

/-! ### What the load does -/

/-- A control that asks for no more than another one: no larger batches, no shorter pause, and the
same for images. -/
structure Tightens (c d : Control) : Prop where
  batchSize : c.batchSize ≤ d.batchSize
  pause : d.pause.nanos ≤ c.pause.nanos
  deferImages : c.deferImages = d.deferImages

/-- The load sets a lower bound, which is also the one of the settings. -/
theorem clampBatch_atLeast (h : s.Sizes) (size : UInt64) :
    clampBatch s (atLeast s.batchMin size) = clampBatch s size := by
  rw [← UInt64.toNat_inj, toNat_clampBatch h, toNat_clampBatch h, toNat_atLeast]
  have hrange := UInt64.le_iff_toNat_le.mp h.2
  omega

theorem clampBatch_mono (h : s.Sizes) {size larger : UInt64} (hle : size ≤ larger) :
    clampBatch s size ≤ clampBatch s larger := by
  rw [UInt64.le_iff_toNat_le] at hle ⊢
  rw [toNat_clampBatch h, toNat_clampBatch h]
  omega

/-- **One rung.**  Whatever control is in force and whatever memory asks for, the load tightens
it. -/
theorem step_tightens (h : s.Sizes) (current : Control) (band : Band) (load : LoadLevel) :
    (current.step s band load).Tightens (current.step s band .calm) := by
  have hlonger : ∀ span more : Span, span.nanos ≤ (span.longer more).nanos := by
    intro span more
    rw [Span.nanos_longer]
    exact Nat.le_max_left _ _
  cases load with
  | calm => exact ⟨UInt64.le_refl _, Nat.le_refl _, rfl⟩
  | elevated => exact ⟨UInt64.le_refl _, hlonger _ _, rfl⟩
  | high =>
    refine ⟨?_, hlonger _ _, rfl⟩
    -- half of a size may fall below the smallest one, which only the last bound makes up for
    have hhalf : (current.underMemory s band).batchSize / 2 ≤
        (current.underMemory s band).batchSize := by
      rw [UInt64.le_iff_toNat_le, UInt64.toNat_div]
      exact Nat.div_le_self _ _
    show clampBatch s (atLeast s.batchMin ((current.underMemory s band).batchSize / 2)) ≤
      clampBatch s (current.underMemory s band).batchSize
    rw [clampBatch_atLeast h]
    exact clampBatch_mono h hhalf

end Control

/-- A ratio above neither mark is calm. -/
theorem LoadLevel.ofRatio_of_not_lt {s : MonitorSettings} {ratio : Float}
    (helevated : ¬ s.loadElevated < ratio) (hhigh : ¬ s.loadHigh < ratio) :
    ofRatio s ratio = .calm := by
  rw [ofRatio, if_neg hhigh, if_neg helevated]

/-- A ratio that is not above the high mark makes no high load. -/
theorem LoadLevel.ofRatio_ne_high {s : MonitorSettings} {ratio : Float}
    (hhigh : ¬ s.loadHigh < ratio) : ofRatio s ratio ≠ .high := by
  rw [ofRatio, if_neg hhigh]
  split
  · exact nofun
  · exact nofun

/-- **Range of the ladder.**  Under valid settings, after any samples the size of batches lies
between the smallest and the largest one.  From any control, a sample under any load asks for no
larger batches and no shorter pause than it would under a load above neither mark, and for the same
treatment of images. -/
theorem samples_stay_in_range (x : Settings) (hvalid : x.Valid) (samples : List (Float × Float)) :
    let s := x.monitor
    let c := Control.after s samples
    s.batchMin ≤ s.batchMax ∧ s.batchMin ≤ c.batchSize ∧ c.batchSize ≤ s.batchMax ∧
      ∀ (current : Control) (usage ratio calm : Float),
        ¬ s.loadElevated < calm → ¬ s.loadHigh < calm →
          (current.adjust s usage ratio).Tightens (current.adjust s usage calm) := by
  intro s c
  have hsizes : s.Sizes := hvalid.sizes
  obtain ⟨hmin, hmax⟩ := Control.within_after hsizes samples
  refine ⟨hsizes.2, hmin, hmax, fun current usage ratio calm helevated hhigh => ?_⟩
  rw [Control.adjust, Control.adjust, LoadLevel.ofRatio_of_not_lt helevated hhigh]
  exact Control.step_tightens hsizes current (Band.ofUsage s usage) (LoadLevel.ofRatio s ratio)

/-- A step up that wraps, a mark of load that no ratio compares with, and samples that are no
numbers: the size stays in the range, and a high load halves it. -/
theorem samples_stay_in_range_wrapping :
    let x : Settings :=
      { monitor :=
          { batchMin := 3, batchDefault := 40, batchMax := 90
            batchStepUp := 18446744073709551615, loadElevated := 0.0 / 0.0 } }
    let c := Control.after x.monitor [(0.1, 0.0), (0.0 / 0.0, 1.0 / 0.0), (0.7, 0.0 / 0.0)]
    x.Valid ∧ ¬ x.monitor.loadElevated < 1.0 ∧ ¬ x.monitor.loadHigh < 1.0 ∧
      c.batchSize = 14 ∧ x.monitor.batchMin ≤ c.batchSize ∧ c.batchSize ≤ x.monitor.batchMax ∧
      (c.adjust x.monitor 0.6 3.0).batchSize = 7 ∧
      (c.adjust x.monitor 0.6 3.0).Tightens (c.adjust x.monitor 0.6 1.0) := by
  intro x c
  have hvalid : x.Valid := by decide
  have helevated : ¬ x.monitor.loadElevated < 1.0 := by decide
  have hhigh : ¬ x.monitor.loadHigh < 1.0 := by decide
  obtain ⟨-, hmin, hmax, htightens⟩ := samples_stay_in_range x hvalid
    [(0.1, 0.0), (0.0 / 0.0, 1.0 / 0.0), (0.7, 0.0 / 0.0)]
  exact ⟨hvalid, helevated, hhigh, by decide +kernel, hmin, hmax, by decide +kernel,
    htightens c 0.6 3.0 1.0 helevated hhigh⟩

end Corpus
