import Hueplusplus.ColorUnits.Division

/-!
# Colours for a screen

`fromXY` converts a colour to channels of 8 bits: a linear map, the inverse of the gamma
correction, and a scaling that gives the brightest channel the brightness of the colour. The
first step divides by the y coordinate, which may be zero. The later steps cannot fail, whatever
`pow` computes.
-/

namespace Hueplusplus

structure RGB where
  r : UInt8
  g : UInt8
  b : UInt8
deriving DecidableEq

namespace RGB

/-- The conversion of a float without fraction to `uint8_t`, if it has a meaning. -/
def toUInt8 (n : ℤ) : Except Exception UInt8 :=
  if 0 ≤ n ∧ n ≤ 255 then .ok (UInt8.ofNat n.toNat) else .error .undefinedBehaviour

/-- Reverse gamma correction. -/
def gamma (pow : ℚ → ℚ → ℚ) (channel : ℚ) : ℚ :=
  if channel ≤ 0.0031308 then 12.92 * channel
  else (1 + 0.055) * pow channel (1 / 2.4) - 0.055

/-- A scaled channel as it is rounded and converted. -/
def channel (scaled : ℚ) : Except Exception UInt8 := toUInt8 (stdRound (max 0 scaled))

def fromXY (pow : ℚ → ℚ → ℚ) (xy : XYBrightness) : Except Exception RGB := do
  if xy.brightness < 1e-4 then return ⟨0, 0, 0⟩
  let z := 1 - xy.xy.x - xy.xy.y
  let Y := 0.3
  let X := (← divide Y xy.xy.y) * xy.xy.x
  let Z := (← divide Y xy.xy.y) * z
  let r := X * 1.656492 - Y * 0.354851 - Z * 0.255038
  let g := -X * 0.707196 + Y * 1.655397 + Z * 0.036152
  let b := X * 0.051713 - Y * 0.121364 + Z * 1.011530
  let gammaR := gamma pow r
  let gammaG := gamma pow g
  let gammaB := gamma pow b
  -- Scale color values so that the brightness matches
  let maxColor := max gammaR (max gammaG gammaB)
  if maxColor < 1e-4 then
    -- Low color values, out of gamut?
    return ⟨0, 0, 0⟩
  let rScaled := (← divide gammaR maxColor) * xy.brightness * 255
  let gScaled := (← divide gammaG maxColor) * xy.brightness * 255
  let bScaled := (← divide gammaB maxColor) * xy.brightness * 255
  return ⟨← channel rScaled, ← channel gScaled, ← channel bScaled⟩

/-- `fromXY` with a gamut. -/
def fromXYInGamut (pow : ℚ → ℚ → ℚ) (xy : XYBrightness) (gamut : ColorGamut) :
    Except Exception RGB := do
  if gamut.contains xy.xy then fromXY pow xy
  else fromXY pow ⟨← Checked.corrected gamut xy.xy, xy.brightness⟩

theorem toUInt8_returns {n : ℤ} (low : 0 ≤ n) (high : n ≤ 255) :
    toUInt8 n = .ok (UInt8.ofNat n.toNat) := if_pos ⟨low, high⟩

theorem stdRound_bounds {q : ℚ} {n : ℕ} (low : 0 ≤ q) (high : q ≤ n) :
    0 ≤ stdRound q ∧ stdRound q ≤ n := by
  rw [stdRound, if_pos low]
  constructor
  · exact Int.floor_nonneg.mpr (by linarith)
  · have below : ⌊q + 1 / 2⌋ < (n : ℤ) + 1 := by
      rw [Int.floor_lt]
      push_cast
      linarith
    exact Int.lt_add_one_iff.mp below

theorem channel_returns {scaled : ℚ} (high : scaled ≤ 255) :
    ∃ value, channel scaled = .ok value := by
  have upper : max 0 scaled ≤ (255 : ℕ) := max_le (by norm_num) (by exact_mod_cast high)
  obtain ⟨roundLow, roundHigh⟩ := stdRound_bounds (le_max_left 0 scaled) upper
  exact ⟨_, toUInt8_returns roundLow roundHigh⟩

/-- A channel that is at most the brightest one is scaled into the range of `uint8_t`. -/
theorem scaled_le {gamma maxColor brightness : ℚ} (positive : 0 < maxColor)
    (le : gamma ≤ maxColor) (low : 0 ≤ brightness) (high : brightness ≤ 1) :
    gamma / maxColor * brightness * 255 ≤ 255 := by
  have ratio : gamma / maxColor ≤ 1 := (div_le_one positive).mpr le
  have bright : gamma / maxColor * brightness ≤ 1 := by
    calc gamma / maxColor * brightness ≤ 1 * brightness :=
          mul_le_mul_of_nonneg_right ratio low
      _ ≤ 1 := by rwa [one_mul]
  linarith

section Conversion

variable (pow : ℚ → ℚ → ℚ) {xy : XYBrightness}

theorem fromXY_of_dark (dark : xy.brightness < 1e-4) : fromXY pow xy = .ok ⟨0, 0, 0⟩ := by
  rw [fromXY, if_pos dark]
  rfl

theorem fromXY_of_y_eq_zero (bright : ¬ xy.brightness < 1e-4) (zero : xy.xy.y = 0) :
    fromXY pow xy = .error .undefinedBehaviour := by
  simp [fromXY, if_neg bright, zero]

theorem fromXY_of_y_ne_zero (bright : ¬ xy.brightness < 1e-4) (high : xy.brightness ≤ 1)
    (nonzero : xy.xy.y ≠ 0) : ∃ rgb, fromXY pow xy = .ok rgb := by
  have low : 0 ≤ xy.brightness := le_trans (by norm_num) (not_lt.mp bright)
  simp only [fromXY, if_neg bright, divide_of_ne_zero nonzero, Except.ok_bind]
  generalize gamma pow _ = gammaR
  generalize gamma pow _ = gammaG
  generalize gamma pow _ = gammaB
  split
  · exact ⟨_, rfl⟩
  · rename_i light
    have positive : 0 < max gammaR (max gammaG gammaB) :=
      lt_of_lt_of_le (by norm_num) (not_lt.mp light)
    obtain ⟨r, red⟩ := channel_returns (scaled_le positive (le_max_left _ _) low high)
    obtain ⟨g, green⟩ := channel_returns
      (scaled_le positive ((le_max_left _ _).trans (le_max_right _ _)) low high)
    obtain ⟨b, blue⟩ := channel_returns
      (scaled_le positive ((le_max_right _ _).trans (le_max_right _ _)) low high)
    refine ⟨⟨r, g, b⟩, ?_⟩
    simp [divide_of_ne_zero positive.ne', red, green, blue]

theorem exists_fromXY_iff (high : xy.brightness ≤ 1) :
    (∃ rgb, fromXY pow xy = .ok rgb) ↔ xy.xy.y ≠ 0 ∨ xy.brightness < 1e-4 := by
  by_cases dark : xy.brightness < 1e-4
  · exact iff_of_true ⟨_, fromXY_of_dark pow dark⟩ (.inr dark)
  · by_cases zero : xy.xy.y = 0
    · refine iff_of_false ?_ (not_or.mpr ⟨not_not.mpr zero, dark⟩)
      rintro ⟨rgb, returned⟩
      rw [fromXY_of_y_eq_zero pow dark zero] at returned
      cases returned
    · exact iff_of_true (fromXY_of_y_ne_zero pow dark high zero) (.inl zero)

/-- The colour that is converted for a gamut. -/
def shown (gamut : ColorGamut) (xy : XY) : XY :=
  if gamut.contains xy then xy else gamut.corrected xy

@[simp] theorem fromXYInGamut_eq (gamut : ColorGamut) :
    fromXYInGamut pow xy gamut = fromXY pow ⟨shown gamut xy.xy, xy.brightness⟩ := by
  rw [fromXYInGamut, shown, Checked.corrected_divides]
  cases gamut.contains xy.xy <;> rfl

/-- Both conversions divide by no zero and convert channels from 0 to 255 only, exactly if the
colour has a y coordinate other than zero, or is too dark to be converted. -/
theorem fromXY_in_range_iff (high : xy.brightness ≤ 1) :
    ((∃ rgb, fromXY pow xy = .ok rgb) ↔ xy.xy.y ≠ 0 ∨ xy.brightness < 1e-4) ∧
      ∀ gamut, (∃ rgb, fromXYInGamut pow xy gamut = .ok rgb) ↔
        (shown gamut xy.xy).y ≠ 0 ∨ xy.brightness < 1e-4 := by
  refine ⟨exists_fromXY_iff pow high, fun gamut => ?_⟩
  rw [fromXYInGamut_eq]
  exact @exists_fromXY_iff pow ⟨shown gamut xy.xy, xy.brightness⟩ high

end Conversion

theorem fromXY_in_range_iff_white :
    let white : XYBrightness := ⟨⟨1 / 3, 1 / 3⟩, 1⟩
    ((∃ rgb, fromXY (fun r _ => r) white = .ok rgb) ↔
        white.xy.y ≠ 0 ∨ white.brightness < 1e-4) ∧
      ∀ gamut, (∃ rgb, fromXYInGamut (fun r _ => r) white gamut = .ok rgb) ↔
        (shown gamut white.xy).y ≠ 0 ∨ white.brightness < 1e-4 :=
  @fromXY_in_range_iff (fun r _ => r) ⟨⟨1 / 3, 1 / 3⟩, 1⟩ le_rfl

/-- The red corner of the maximal gamut divides by zero. -/
theorem red_corner_divides_by_zero :
    ¬ ∀ (pow : ℚ → ℚ → ℚ) (xy : XYBrightness),
      (∀ r s e, 0 < r → r ≤ s → 0 < pow r e ∧ pow r e ≤ pow s e) →
      (0 ≤ xy.xy.x ∧ xy.xy.x ≤ 1) → (0 ≤ xy.xy.y ∧ xy.xy.y ≤ 1) →
      (0 ≤ xy.brightness ∧ xy.brightness ≤ 1) → ∃ rgb, fromXY pow xy = .ok rgb := by
  intro claim
  obtain ⟨rgb, returned⟩ := claim (fun r _ => r) ⟨ColorGamut.maxGamut.redCorner, 1⟩
    (fun r s _ positive le => ⟨positive, le⟩) ⟨zero_le_one, le_rfl⟩ ⟨le_rfl, zero_le_one⟩
    ⟨zero_le_one, le_rfl⟩
  rw [fromXY_of_y_eq_zero _ (by norm_num) rfl] at returned
  cases returned

end RGB

end Hueplusplus
