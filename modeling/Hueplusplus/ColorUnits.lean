import Mathlib.Data.Rat.Floor

/-!
# Colour units

Colours as the setters take them. Floats are rationals and their arithmetic is
exact; `stdRound` is `std::round`.
-/

namespace Hueplusplus

structure HueSaturation where
  hue : ℤ
  saturation : ℤ
deriving DecidableEq

structure XY where
  x : ℚ
  y : ℚ
deriving DecidableEq

/-- Colour in CIE with the brightness from 0 to 1. -/
structure XYBrightness where
  xy : XY
  brightness : ℚ
deriving DecidableEq

/-- Nearest integer, halfway cases away from zero. -/
def stdRound (q : ℚ) : ℤ :=
  if 0 ≤ q then ⌊q + 1 / 2⌋ else -⌊-q + 1 / 2⌋

@[simp] theorem stdRound_intCast (n : ℤ) : stdRound n = n := by
  have half : ∀ m : ℤ, ⌊(m : ℚ) + 1 / 2⌋ = m := fun m => by
    rw [Int.floor_eq_iff]
    constructor <;> linarith
  rw [stdRound]
  split
  · exact half n
  · have := half (-n)
    push_cast at this
    rw [this, neg_neg]

section Scales

variable {scale n : ℤ} (positive : 0 < scale) (low : 0 ≤ n)

include positive low

/-- From a scale with one step more: the upper half comes out one lower. -/
theorem stdRound_scale_down (high : n ≤ scale + 1) :
    stdRound ((n : ℚ) / (scale + 1) * scale) = if 2 * n ≤ scale + 1 then n else n - 1 := by
  have pos : (0 : ℚ) < scale := by exact_mod_cast positive
  have nonneg : (0 : ℚ) ≤ n := by exact_mod_cast low
  have le_one : (n : ℚ) / (scale + 1) ≤ 1 :=
    (div_le_one (by positivity)).mpr (by exact_mod_cast high)
  have split_off : (n : ℚ) / (scale + 1) * scale = n - n / (scale + 1) := by
    field_simp
    ring
  have part : 0 ≤ (n : ℚ) / (scale + 1) := by positivity
  rw [stdRound, if_pos (by positivity), split_off, Int.floor_eq_iff]
  split
  · rename_i half
    have upper : (n : ℚ) / (scale + 1) ≤ 1 / 2 := by
      have doubled : 2 * (n : ℚ) ≤ scale + 1 := by exact_mod_cast half
      rw [div_le_iff₀ (by positivity)]
      linarith
    constructor <;> linarith
  · rename_i half
    have lower : 1 / 2 < (n : ℚ) / (scale + 1) := by
      have doubled : (scale : ℚ) + 1 < 2 * n := by exact_mod_cast not_le.mp half
      rw [lt_div_iff₀ (by positivity)]
      linarith
    push_cast
    constructor <;> linarith

/-- To a scale with one step more: the upper half comes out one higher. -/
theorem stdRound_scale_up (high : n ≤ scale) :
    stdRound ((n : ℚ) / scale * (scale + 1)) = if 2 * n < scale then n else n + 1 := by
  have pos : (0 : ℚ) < scale := by exact_mod_cast positive
  have nonneg : (0 : ℚ) ≤ n := by exact_mod_cast low
  have le_one : (n : ℚ) / scale ≤ 1 := (div_le_one pos).mpr (by exact_mod_cast high)
  have split_off : (n : ℚ) / scale * (scale + 1) = n + n / scale := by
    field_simp
  have part : 0 ≤ (n : ℚ) / scale := by positivity
  rw [stdRound, if_pos (by positivity), split_off, Int.floor_eq_iff]
  split
  · rename_i half
    have upper : (n : ℚ) / scale < 1 / 2 := by
      have doubled : 2 * (n : ℚ) < scale := by exact_mod_cast half
      rw [div_lt_iff₀ pos]
      linarith
    constructor <;> linarith
  · rename_i half
    have lower : 1 / 2 ≤ (n : ℚ) / scale := by
      have doubled : (scale : ℚ) ≤ 2 * n := by exact_mod_cast not_lt.mp half
      rw [le_div_iff₀ pos]
      linarith
    push_cast
    constructor <;> linarith

end Scales

end Hueplusplus
