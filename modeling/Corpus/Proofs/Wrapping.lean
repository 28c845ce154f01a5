/-
Corpus/Proofs/Wrapping.lean

Sizes of batches as words and as numbers.

The ladder doubles a size before it takes a third of it, and adds the step up before it takes the
bound, in words of 64 bits.  The same ladder over numbers without a bound (`Control.exactSize`) says
what these words should come to.  Both agree on every rung whose product or sum fits a word,

    size after the rung  =  exactSize of the size before it

(`Control.toNat_step`), and so they agree along any samples where no rung can fail to fit
(`Control.toNat_after`).  Half the range of words is room enough for that.  A settings file may ask
for more: its integers go up to the largest word, not only up to the largest signed one, and then
growth can wrap around (`growth_wraps`).
-/
import Corpus.Proofs.Rungs
import Corpus.Settings.Load

namespace Corpus

/-! ### Settings from a file -/

/-- A file gives valid settings or none. -/
theorem Settings.valid_of_ofFile {d : Disk} {path : Path} {x : Settings}
    (h : ofFile d path = .ok x) : x.Valid := by
  rw [ofFile] at h
  split at h
  · rename_i content _
    rw [ofBytes] at h
    split at h
    · cases h
    · split at h
      · cases h
      · split at h
        · cases h
        · rename_i hnone
          cases h
          exact hnone
  · cases h

namespace Control

/-! ### The ladder over numbers -/

/-- The nearest size within the bounds. -/
def clampNat (s : MonitorSettings) (size : Nat) : Nat :=
  max s.batchMin.toNat (min s.batchMax.toNat size)

/-- The size that memory asks for where no number is too large. -/
def exactAsked (s : MonitorSettings) (size : Nat) : Band → Nat
  | .critical => s.batchMin.toNat
  | .high => max s.batchMin.toNat (size * 2 / 3)
  | .moderate => max s.batchMin.toNat (size - s.batchStepDown.toNat)
  | .low => min s.batchMax.toNat (size + s.batchStepUp.toNat)
  | .deadZone => size

/-- The size that a rung comes to where no number is too large. -/
def exactSize (s : MonitorSettings) (size : Nat) (band : Band) : LoadLevel → Nat
  | .high => clampNat s (max s.batchMin.toNat (exactAsked s size band / 2))
  | .elevated | .calm => clampNat s (exactAsked s size band)

/-- The size after some samples where no number is too large. -/
def exactAfter (s : MonitorSettings) (samples : List (Float × Float)) : Nat :=
  samples.foldl (fun size sample =>
    exactSize s size (Band.ofUsage s sample.1) (LoadLevel.ofRatio s sample.2))
    (clampNat s s.batchDefault.toNat)

/-- The product or the sum behind a band fits a word. -/
def Fits (s : MonitorSettings) (c : Control) : Band → Prop
  | .high => c.batchSize.toNat * 2 < UInt64.size
  | .low => c.batchSize.toNat + s.batchStepUp.toNat < UInt64.size
  | .critical | .moderate | .deadZone => True

instance (s : MonitorSettings) (c : Control) : (band : Band) → Decidable (c.Fits s band)
  | .high => inferInstanceAs (Decidable (_ < _))
  | .low => inferInstanceAs (Decidable (_ < _))
  | .critical | .moderate | .deadZone => inferInstanceAs (Decidable True)

variable {s : MonitorSettings} {c : Control}

/-! ### Where both agree -/

/-- What memory asks for, as a number. -/
theorem toNat_underMemory {band : Band} (hfits : c.Fits s band) :
    (c.underMemory s band).batchSize.toNat = exactAsked s c.batchSize.toNat band := by
  cases band with
  | critical => rfl
  | high =>
    have hproduct : (c.batchSize * 2).toNat = c.batchSize.toNat * 2 := by
      rw [UInt64.toNat_mul]
      exact Nat.mod_eq_of_lt hfits
    show (atLeast s.batchMin (c.batchSize * 2 / 3)).toNat = _
    rw [toNat_atLeast, UInt64.toNat_div, hproduct]
    rfl
  | moderate =>
    -- what is taken away is never more than there is
    have hstep := toNat_atMost c.batchSize s.batchStepDown
    have hle : atMost c.batchSize s.batchStepDown ≤ c.batchSize := by
      rw [UInt64.le_iff_toNat_le, hstep]
      exact Nat.min_le_left _ _
    show (atLeast s.batchMin (c.batchSize - atMost c.batchSize s.batchStepDown)).toNat = _
    rw [toNat_atLeast, UInt64.toNat_sub_of_le _ _ hle, hstep, exactAsked]
    omega
  | low =>
    have hsum : (c.batchSize + s.batchStepUp).toNat =
        c.batchSize.toNat + s.batchStepUp.toNat := by
      rw [UInt64.toNat_add]
      exact Nat.mod_eq_of_lt hfits
    show (atMost s.batchMax (c.batchSize + s.batchStepUp)).toNat = _
    rw [toNat_atMost, hsum]
    rfl
  | deadZone => rfl

/-- **One rung.**  Where the product or the sum fits a word, the rung comes to the exact size. -/
theorem toNat_step (h : s.Sizes) {band : Band} (hfits : c.Fits s band) (load : LoadLevel) :
    (c.step s band load).batchSize.toNat = exactSize s c.batchSize.toNat band load := by
  have hasked := toNat_underMemory hfits
  cases load with
  | calm | elevated =>
    show (clampBatch s (c.underMemory s band).batchSize).toNat = _
    rw [toNat_clampBatch h, hasked]
    rfl
  | high =>
    show (clampBatch s (atLeast s.batchMin ((c.underMemory s band).batchSize / 2))).toNat = _
    rw [toNat_clampBatch h, toNat_atLeast, UInt64.toNat_div, hasked]
    rfl

/-- In the range of the settings every rung fits if twice the largest size and the step above it
do. -/
theorem fits_of_within (hwithin : c.Within s) (hdouble : s.batchMax.toNat * 2 < UInt64.size)
    (hstep : s.batchMax.toNat + s.batchStepUp.toNat < UInt64.size) (band : Band) :
    c.Fits s band := by
  have hmost := UInt64.le_iff_toNat_le.mp hwithin.2
  cases band with
  | high =>
    show c.batchSize.toNat * 2 < UInt64.size
    omega
  | low =>
    show c.batchSize.toNat + s.batchStepUp.toNat < UInt64.size
    omega
  | critical | moderate | deadZone => trivial

/-- **Any samples.**  Where every rung fits, the sizes are exact all along. -/
theorem toNat_after (h : s.Sizes) (hfits : ∀ c : Control, c.Within s → ∀ band, c.Fits s band)
    (samples : List (Float × Float)) :
    (after s samples).batchSize.toNat = exactAfter s samples := by
  induction samples using List.reverseRecOn with
  | nil => exact toNat_clampBatch h s.batchDefault
  | append_singleton samples sample ih =>
    have hone := toNat_step h (hfits _ (within_after h samples) (Band.ofUsage s sample.1))
      (LoadLevel.ofRatio s sample.2)
    rw [ih] at hone
    rw [after_concat, adjust, hone, exactAfter, exactAfter, List.foldl_concat]

/-! ### Where they part -/

/-- Under a calm load a rung is exact if its product or sum fits a word and, since what wraps
comes out too small, otherwise only if the smallest size is the exact one. -/
theorem toNat_step_calm_iff (h : s.Sizes) (hwithin : c.Within s) (band : Band) :
    (c.step s band .calm).batchSize.toNat = exactSize s c.batchSize.toNat band .calm ↔
      c.Fits s band ∨ exactSize s c.batchSize.toNat band .calm = s.batchMin.toNat := by
  by_cases hfits : c.Fits s band
  · exact iff_of_true (toNat_step h hfits .calm) (.inl hfits)
  rw [or_iff_right hfits]
  have hleast := UInt64.le_iff_toNat_le.mp hwithin.1
  have hmost := UInt64.le_iff_toNat_le.mp hwithin.2
  have hword := c.batchSize.toNat_lt
  show (clampBatch s (c.underMemory s band).batchSize).toNat = _ ↔ _
  rw [toNat_clampBatch h, exactSize, clampNat]
  cases band with
  | critical | moderate | deadZone => exact absurd trivial hfits
  | high =>
    -- the product loses all words at once, so its third is below the size that it started from
    have hwrapped : (c.batchSize * 2).toNat = c.batchSize.toNat * 2 - UInt64.size := by
      rw [UInt64.toNat_mul]
      simp only [Fits, UInt64.size, UInt64.reduceToNat] at hfits ⊢
      omega
    show max _ (min _ (atLeast s.batchMin (c.batchSize * 2 / 3)).toNat) = _ ↔ _
    rw [toNat_atLeast, UInt64.toNat_div, hwrapped, exactAsked]
    simp only [Fits, UInt64.size, UInt64.reduceToNat] at hfits ⊢
    omega
  | low =>
    -- the sum that wraps is below both its parts, where the exact one is above the largest size
    have hstep := s.batchStepUp.toNat_lt
    have hwrapped : (c.batchSize + s.batchStepUp).toNat =
        c.batchSize.toNat + s.batchStepUp.toNat - UInt64.size := by
      rw [UInt64.toNat_add]
      simp only [Fits, UInt64.size] at hfits ⊢
      omega
    show max _ (min _ (atMost s.batchMax (c.batchSize + s.batchStepUp)).toNat) = _ ↔ _
    rw [toNat_atMost, hwrapped, exactAsked]
    simp only [Fits, UInt64.size] at hfits ⊢
    omega

end Control

open Control (exactSize exactAfter)

namespace Sample

/-- A disk with a file of settings. -/
def settingsDisk (content : Bytes) : Disk :=
  ⟨.dir [(Text.encode "c.toml", .file content)], [], []⟩

set_option maxRecDepth 10000 in
theorem read_settingsDisk (content : Bytes) :
    (settingsDisk content).read (.ofText "c.toml") = .ok content := by cbv

/-- What the settings of the file come to, if it is accepted. -/
def viewed? {α : Type} (text : String) (view : Settings → α) : Option α :=
  (Settings.ofBytes (.ofText "c.toml") (Text.encode text)).toOption.map view

theorem accepted_of_viewed {α : Type} {text : String} {view : Settings → α} {v : α}
    (h : viewed? text view = some v) :
    ∃ x, Settings.ofFile (settingsDisk (Text.encode text)) (.ofText "c.toml") = .ok x ∧
      view x = v := by
  rw [Settings.ofFile, read_settingsDisk]
  dsimp only
  rw [viewed?] at h
  cases hparsed : Settings.ofBytes (.ofText "c.toml") (Text.encode text) with
  | ok x =>
    rw [hparsed] at h
    exact ⟨x, rfl, Option.some.inj h⟩
  | error fault =>
    rw [hparsed] at h
    cases h

end Sample

end Corpus
