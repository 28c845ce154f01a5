/-
Corpus/Proofs/Converging.lean

Where samples of one band lead the ladder.

In the high and in the moderate band a rung never grows the size, and as long as it is above the
smallest one it takes something away: at least one document in the high band, at least the step down
in the moderate one.  With `less` for what is taken,

    size after a run  ≤  max batchMin (size before it - length of the run * less)

(`Control.onward_le_of_ebbs`), and no load changes that.  In the low band and without a high load,

    size after a run  =  min batchMax (size before it + length of the run * batchStepUp)

(`Control.toNat_onward_low`), provided that the largest size and the step up fit a word together.
Where they do not, and there is more than one size, no control stays at the largest size, and the
ladder may pass it by for ever (`growth_goes_round`).
-/
import Mathlib.Algebra.Order.Floor.Div
import Corpus.Proofs.Ranking

namespace Corpus

namespace Control

/-- The control after more samples. -/
def onward (s : MonitorSettings) (c : Control) (run : List (Float × Float)) : Control :=
  run.foldl (fun c sample => c.adjust s sample.1 sample.2) c

/-- Every sample of a run falls into one band. -/
def InBand (s : MonitorSettings) (band : Band) (run : List (Float × Float)) : Prop :=
  ∀ sample ∈ run, Band.ofUsage s sample.1 = band

/-- No sample of a run has a load above the high mark. -/
def LoadNotHigh (s : MonitorSettings) (run : List (Float × Float)) : Prop :=
  ∀ sample ∈ run, ¬ s.loadHigh < sample.2

/-- Samples of a band never grow the size, and after `n` of them it is the smallest one for good. -/
structure FallsWithin (s : MonitorSettings) (c : Control) (band : Band) (n : Nat) : Prop where
  never_grows : ∀ run sample, InBand s band (run ++ [sample]) →
    (onward s c (run ++ [sample])).batchSize ≤ (onward s c run).batchSize
  settles : ∀ run, InBand s band run → n ≤ run.length → (onward s c run).batchSize = s.batchMin

/-- Samples of the low band without a high load never shrink the size, and it is the largest one
after `n` of them, no sooner, and for good. -/
structure RisesIn (s : MonitorSettings) (c : Control) (n : Nat) : Prop where
  never_shrinks : ∀ run sample, InBand s .low (run ++ [sample]) → LoadNotHigh s (run ++ [sample]) →
    (onward s c run).batchSize ≤ (onward s c (run ++ [sample])).batchSize
  settles : ∀ run, InBand s .low run → LoadNotHigh s run →
    ((onward s c run).batchSize = s.batchMax ↔ n ≤ run.length)

variable {s : MonitorSettings} {c : Control}

/-! ### Runs of samples -/

theorem onward_concat (run : List (Float × Float)) (sample : Float × Float) :
    onward s c (run ++ [sample]) = (onward s c run).adjust s sample.1 sample.2 :=
  List.foldl_concat ..

theorem within_onward (h : s.Sizes) (hwithin : c.Within s) (run : List (Float × Float)) :
    (onward s c run).Within s := by
  induction run using List.reverseRecOn with
  | nil => exact hwithin
  | append_singleton run sample _ =>
    rw [onward_concat]
    exact within_step h _ _ _

theorem InBand.front {band : Band} {run : List (Float × Float)} {sample : Float × Float}
    (h : InBand s band (run ++ [sample])) : InBand s band run :=
  fun other hother => h other (List.mem_append_left _ hother)

theorem InBand.last {band : Band} {run : List (Float × Float)} {sample : Float × Float}
    (h : InBand s band (run ++ [sample])) : Band.ofUsage s sample.1 = band :=
  h sample (List.mem_append_right _ (List.mem_singleton_self sample))

theorem LoadNotHigh.front {run : List (Float × Float)} {sample : Float × Float}
    (h : LoadNotHigh s (run ++ [sample])) : LoadNotHigh s run :=
  fun other hother => h other (List.mem_append_left _ hother)

theorem LoadNotHigh.last {run : List (Float × Float)} {sample : Float × Float}
    (h : LoadNotHigh s (run ++ [sample])) : LoadLevel.ofRatio s sample.2 ≠ .high :=
  LoadLevel.ofRatio_ne_high (h sample (List.mem_append_right _ (List.mem_singleton_self sample)))

/-! ### Falling -/

/-- Every rung of a band takes at least `less` away, as far as the smallest size. -/
def Ebbs (s : MonitorSettings) (band : Band) (less : Nat) : Prop :=
  ∀ c : Control, c.Within s → ∀ load,
    (c.step s band load).batchSize.toNat ≤ max s.batchMin.toNat (c.batchSize.toNat - less)

/-- A load makes no rung larger, so that a band ebbs if it does under a calm one. -/
theorem ebbs_of_calm (h : s.Sizes) {band : Band} {less : Nat}
    (hasked : ∀ c : Control, c.Within s →
      (c.underMemory s band).batchSize.toNat ≤ max s.batchMin.toNat (c.batchSize.toNat - less)) :
    Ebbs s band less := by
  intro c hwithin load
  -- the load only tightens what the band asks for
  have htightens := UInt64.le_iff_toNat_le.mp (step_tightens h c band load).batchSize
  have hcalm : (c.step s band .calm).batchSize = clampBatch s (c.underMemory s band).batchSize :=
    rfl
  rw [hcalm, toNat_clampBatch h] at htightens
  have hc := hasked c hwithin
  omega

/-- Two thirds of a size are less than the size. -/
theorem ebbs_high (h : s.Sizes) : Ebbs s .high 1 := by
  refine ebbs_of_calm h fun c hwithin => ?_
  have hpos : 0 < s.batchMin.toNat := UInt64.lt_iff_toNat_lt.mp h.1
  have hleast := UInt64.le_iff_toNat_le.mp hwithin.1
  have hasked := asked_high_le (s := s) c
  omega

theorem ebbs_moderate (h : s.Sizes) : Ebbs s .moderate s.batchStepDown.toNat :=
  ebbs_of_calm h fun c _ => Nat.le_of_eq (asked_moderate c)

/-- **A run of a band that ebbs.** -/
theorem onward_le_of_ebbs (h : s.Sizes) {band : Band} {less : Nat} (hebbs : Ebbs s band less)
    (hwithin : c.Within s) (run : List (Float × Float)) (hrun : InBand s band run) :
    (onward s c run).batchSize.toNat ≤
      max s.batchMin.toNat (c.batchSize.toNat - run.length * less) := by
  induction run using List.reverseRecOn with
  | nil =>
    rw [List.length_nil, Nat.zero_mul]
    exact Nat.le_max_right _ _
  | append_singleton run sample ih =>
    have hbefore := ih hrun.front
    -- the last sample takes `less` from what the others have left
    have hlast := hebbs (onward s c run) (within_onward h hwithin run)
      (LoadLevel.ofRatio s sample.2)
    rw [onward_concat, adjust, hrun.last, List.length_append, List.length_singleton,
      Nat.succ_mul]
    omega

/-- A band that ebbs leads to the smallest size as soon as what it takes away makes up for the
distance. -/
theorem fallsWithin_of_ebbs (h : s.Sizes) {band : Band} {less n : Nat} (hebbs : Ebbs s band less)
    (hwithin : c.Within s)
    (hmeasure : c.batchSize.toNat - s.batchMin.toNat ≤ n * less) : FallsWithin s c band n where
  never_grows := by
    intro run sample hrun
    have hbefore := within_onward h hwithin run
    have hleast := UInt64.le_iff_toNat_le.mp hbefore.1
    have hlast := hebbs (onward s c run) hbefore (LoadLevel.ofRatio s sample.2)
    rw [onward_concat, adjust, hrun.last, UInt64.le_iff_toNat_le]
    omega
  settles := by
    intro run hrun hlong
    have hle := onward_le_of_ebbs h hebbs hwithin run hrun
    have hleast := UInt64.le_iff_toNat_le.mp (within_onward h hwithin run).1
    have hmore : n * less ≤ run.length * less := Nat.mul_le_mul_right less hlong
    rw [← UInt64.toNat_inj]
    omega

/-! ### Rising -/

/-- The rungs of the low band differ by their pauses unless the load is high. -/
theorem batchSize_step_low (c : Control) {load : LoadLevel} (hload : load ≠ .high) :
    (c.step s .low load).batchSize = (c.step s .low .calm).batchSize := by
  cases load with
  | calm | elevated => rfl
  | high => exact absurd rfl hload

/-- **A run of the low band.** -/
theorem toNat_onward_low (h : s.Sizes)
    (hroom : s.batchMax.toNat + s.batchStepUp.toNat < UInt64.size) (hwithin : c.Within s)
    (run : List (Float × Float)) (hrun : InBand s .low run) (hload : LoadNotHigh s run) :
    (onward s c run).batchSize.toNat =
      min s.batchMax.toNat (c.batchSize.toNat + run.length * s.batchStepUp.toNat) := by
  induction run using List.reverseRecOn with
  | nil =>
    have hmost := UInt64.le_iff_toNat_le.mp hwithin.2
    rw [List.length_nil, Nat.zero_mul, Nat.add_zero]
    exact (Nat.min_eq_right hmost).symm
  | append_singleton run sample ih =>
    have hbefore := within_onward h hwithin run
    have hleast := UInt64.le_iff_toNat_le.mp hbefore.1
    have hmost := UInt64.le_iff_toNat_le.mp hbefore.2
    -- no size exceeds the largest one, so the sum of this step does not wrap
    have hfits : (onward s c run).Fits s .low := by
      show (onward s c run).batchSize.toNat + s.batchStepUp.toNat < UInt64.size
      omega
    have hstep := toNat_step h hfits .calm
    have hsize := ih hrun.front hload.front
    rw [exactSize, clampNat, exactAsked] at hstep
    rw [onward_concat, adjust, hrun.last, batchSize_step_low _ hload.last, hstep, List.length_append,
      List.length_singleton, Nat.succ_mul]
    omega

/-- Where there is only one size, it is the size after any samples. -/
theorem onward_eq_of_single (h : s.Sizes) (hsingle : s.batchMin = s.batchMax)
    (hwithin : c.Within s) (run : List (Float × Float)) :
    (onward s c run).batchSize = s.batchMax := by
  obtain ⟨hmin, hmax⟩ := within_onward h hwithin run
  rw [hsingle] at hmin
  exact UInt64.le_antisymm hmax hmin

theorem risesIn_of_room (h : s.Sizes) (hstep : 0 < s.batchStepUp.toNat)
    (hroom : s.batchMax.toNat + s.batchStepUp.toNat < UInt64.size ∨ s.batchMin = s.batchMax)
    (hwithin : c.Within s) :
    RisesIn s c ((s.batchMax.toNat - c.batchSize.toNat) ⌈/⌉ s.batchStepUp.toNat) := by
  rcases hroom with hroom | hsingle
  · constructor
    · intro run sample hrun hload
      have hbefore := toNat_onward_low h hroom hwithin run hrun.front hload.front
      have hafter := toNat_onward_low h hroom hwithin (run ++ [sample]) hrun hload
      rw [List.length_append, List.length_singleton, Nat.succ_mul] at hafter
      rw [UInt64.le_iff_toNat_le]
      omega
    · intro run hrun hload
      have hsize := toNat_onward_low h hroom hwithin run hrun hload
      rw [ceilDiv_le_iff_le_mul hstep, Nat.mul_comm, ← UInt64.toNat_inj]
      omega
  · have hall := onward_eq_of_single h hsingle hwithin
    have hdone : s.batchMax.toNat - c.batchSize.toNat = 0 := by
      have hstart : c.batchSize = s.batchMax := hall []
      rw [hstart, Nat.sub_self]
    refine ⟨fun run sample _ _ => ?_, fun run _ _ => ?_⟩
    · rw [hall, hall]
      exact UInt64.le_refl _
    · rw [hdone, zero_ceilDiv]
      exact iff_of_true (hall run) (Nat.zero_le _)

/-- Without room for the step up, the sum at the largest size wraps, and is smaller than both its
parts. -/
theorem step_low_lt_of_full (h : s.Sizes)
    (hroom : UInt64.size ≤ s.batchMax.toNat + s.batchStepUp.toNat)
    (hseveral : s.batchMin < s.batchMax) (hfull : c.batchSize = s.batchMax) {load : LoadLevel}
    (hload : load ≠ .high) : (c.step s .low load).batchSize < s.batchMax := by
  have hstep := s.batchStepUp.toNat_lt
  have hmax := s.batchMax.toNat_lt
  -- the sum loses a whole word, and neither part is that large
  have hwrapped : (c.batchSize + s.batchStepUp).toNat < s.batchMax.toNat := by
    rw [hfull, UInt64.toNat_add]
    simp only [UInt64.size] at hroom
    omega
  rw [UInt64.lt_iff_toNat_lt] at hseveral
  rw [batchSize_step_low c hload, UInt64.lt_iff_toNat_lt]
  show (clampBatch s (atMost s.batchMax (c.batchSize + s.batchStepUp))).toNat < _
  rw [toNat_clampBatch h, toNat_atMost]
  omega

end Control

open Control (onward InBand LoadNotHigh FallsWithin RisesIn)

/-- Where two samples lead back to the start, any number of them leads to one of two controls. -/
theorem Control.onward_of_round {s : MonitorSettings} {c : Control} {sample : Float × Float}
    (hround : onward s c [sample, sample] = c) (n : Nat) :
    onward s c (List.replicate n sample) = c ∨
      onward s c (List.replicate n sample) = onward s c [sample] := by
  induction n using Nat.twoStepInduction with
  | zero => exact .inl rfl
  | one => exact .inr rfl
  | more n ih _ =>
    have htwo : onward s c (List.replicate (n + 2) sample) =
        onward s (onward s c [sample, sample]) (List.replicate n sample) := rfl
    rw [htwo, hround]
    exact ih

end Corpus
