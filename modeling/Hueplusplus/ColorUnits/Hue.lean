import Hueplusplus.ColorUnits.RGB
import Hueplusplus.StateTransaction.Basic

/-!
# Hue and saturation of a colour of a screen

Red, green and blue have the hues 0, 25500 and 46920. The hue of a colour lies around that of
its brightest channel, on the side of the second brightest one. The saturation has its extreme
values exactly for the greys and for the colours without one of the channels. Every operation
on floats is rounded to single precision; the bounds are integers, which rounding respects.
-/

namespace Hueplusplus

open BinaryFormat

/-- The conversion of a float to `int`. -/
def truncate (q : ℚ) : ℤ := if 0 ≤ q then ⌊q⌋ else ⌈q⌉

namespace RGB

/-- `width * quotient + center`, where the quotient is that of a division. -/
def around (width quotient center : ℚ) : ℚ :=
  single.round (single.round (width * single.round quotient) + center)

/-- The branches of `toHueSaturation` that compute the hue. -/
def toHue (r g b cmax cmin : ℤ) (diff : ℚ) : Except Exception ℤ := do
  if cmax = cmin then return 0
  else if cmax = r then
    return (truncate (around 9307 (← divide (g - b : ℤ) diff) 65535)).tmod 65535
  else if cmax = g then
    return (truncate (around 12750 (← divide (b - r : ℤ) diff) 25500)).tmod 65535
  else if cmax = b then
    return (truncate (around 10710 (← divide (r - g : ℤ) diff) 46920)).tmod 65535
  else return -1

/-- The branches of `toHueSaturation` that compute the saturation. -/
def toSaturation (cmax : ℤ) (diff : ℚ) : Except Exception ℤ := do
  if cmax = 0 then return 0
  else return stdRound (single.round (single.round (← divide diff cmax) * 254))

def toHueSaturation (rgb : RGB) : Except Exception HueSaturation := do
  let r : ℤ := rgb.r.toNat
  let g : ℤ := rgb.g.toNat
  let b : ℤ := rgb.b.toNat
  let cmax := max r (max g b)
  let cmin := min r (min g b)
  let diff : ℚ := (cmax - cmin : ℤ)
  return ⟨← toHue r g b cmax cmin diff, ← toSaturation cmax diff⟩

theorem truncate_bounds {q : ℚ} {low high : ℕ} (lower : low ≤ q) (upper : q ≤ high) :
    low ≤ truncate q ∧ truncate q ≤ high := by
  have nonneg : 0 ≤ q := le_trans (by positivity) lower
  rw [truncate, if_pos nonneg]
  constructor
  · exact Int.le_floor.mpr (by exact_mod_cast lower)
  · have := Int.floor_le_floor upper
    rwa [Int.floor_natCast] at this

theorem around_neg (width quotient center : ℚ) :
    around width (-quotient) (-center) = -around width quotient center := by
  rw [around, round_neg, mul_neg, round_neg, ← neg_add, round_neg, around]

/-- An integer bounds the quotient, another one then the product, and the last one the sum. -/
theorem around_le {width : ℕ} {center k : ℤ} {quotient : ℚ} (unit : |k| ≤ 1)
    (small : |center| + width ≤ 2 ^ 24) (le : quotient ≤ k) :
    around width quotient center ≤ (k * width + center : ℤ) := by
  have digits : (2 : ℤ) ^ single.precision = 2 ^ 24 := rfl
  rw [abs_le] at unit
  have size : |k * width| ≤ width := by
    rw [abs_le]
    constructor <;> nlinarith
  have center_le := abs_nonneg center
  have sum := abs_add_le (k * width) center
  have rounded := single.round_le_intCast (n := k) (by rw [digits, abs_le]; omega) le
  have product := single.round_le_intCast (n := k * width) (by rw [digits]; omega)
    (show width * single.round quotient ≤ (k * width : ℤ) by
      push_cast
      rw [mul_comm (k : ℚ)]
      exact mul_le_mul_of_nonneg_left rounded (by positivity))
  refine single.round_le_intCast (by rw [digits]; omega) ?_
  push_cast at product ⊢
  linarith

theorem le_around {width : ℕ} {center k : ℤ} {quotient : ℚ} (unit : |k| ≤ 1)
    (small : |center| + width ≤ 2 ^ 24) (le : k ≤ quotient) :
    ((k * width + center : ℤ) : ℚ) ≤ around width quotient center := by
  have mirrored := @around_le width (-center) (-k) (-quotient) (by rwa [abs_neg])
    (by rwa [abs_neg]) (by push_cast; linarith)
  rw [Int.cast_neg center, around_neg] at mirrored
  push_cast at mirrored ⊢
  linarith

/-- A hue around a center: the difference of the two other channels decides about the side. -/
theorem truncate_around {width center : ℕ} {difference diff : ℤ} (pos : 0 < diff)
    (low : -diff ≤ difference) (high : difference ≤ diff) (start : width ≤ center)
    (small : center + width ≤ 2 ^ 24) :
    let hue := truncate (around width ((difference : ℚ) / diff) center)
    (center : ℤ) - width ≤ hue ∧ hue ≤ center + width ∧ (0 ≤ difference → center ≤ hue) ∧
      (difference ≤ 0 → hue ≤ center) := by
  intro hue
  have positive : (0 : ℚ) < diff := by exact_mod_cast pos
  have fits : |(center : ℤ)| + width ≤ 2 ^ 24 := by
    rw [Nat.abs_cast]
    exact_mod_cast small
  have least := @le_around width center (-1) ((difference : ℚ) / diff) (by decide) fits <| by
    rw [le_div_iff₀ positive]
    exact_mod_cast (by omega : -1 * diff ≤ difference)
  have most := @around_le width center 1 ((difference : ℚ) / diff) (by decide) fits <| by
    rw [Int.cast_one, div_le_one positive]
    exact_mod_cast high
  have cast : ((center - width : ℕ) : ℚ) = center - width := Nat.cast_sub start
  push_cast at least most
  have bounds := @truncate_bounds (around width ((difference : ℚ) / diff) center) (center - width)
    (center + width) (by rw [cast]; linarith) (by push_cast; linarith)
  refine ⟨by omega, by omega, fun nonneg => ?_, fun nonpos => ?_⟩
  · have later := @le_around width center 0 ((difference : ℚ) / diff) (by decide) fits <| by
      exact_mod_cast div_nonneg (by exact_mod_cast nonneg : (0 : ℚ) ≤ difference) positive.le
    push_cast at later
    exact (@truncate_bounds _ center (center + width) (by linarith) (by push_cast; linarith)).1
  · have earlier := @around_le width center 0 ((difference : ℚ) / diff) (by decide) fits <| by
      exact_mod_cast div_nonpos_of_nonpos_of_nonneg
        (by exact_mod_cast nonpos : (difference : ℚ) ≤ 0) positive.le
    push_cast at earlier
    exact (@truncate_bounds _ (center - width) center (by rw [cast]; linarith) (by linarith)).2

/-- The hue of a colour that is no grey. -/
def hueOf (r g b diff : ℤ) : ℤ :=
  if g ≤ r ∧ b ≤ r then
    (truncate (around 9307 (((g - b : ℤ) : ℚ) / diff) 65535)).tmod 65535
  else if b ≤ g then
    (truncate (around 12750 (((b - r : ℤ) : ℚ) / diff) 25500)).tmod 65535
  else (truncate (around 10710 (((r - g : ℤ) : ℚ) / diff) 46920)).tmod 65535

/-- The part of the circle of hues that the order of the channels determines. -/
def Sector (r g b hue : ℤ) : Prop :=
  if g ≤ r ∧ b ≤ r then
    (b ≤ g → 0 ≤ hue ∧ hue ≤ 9307) ∧ (g ≤ b → hue = 0 ∨ 56228 ≤ hue ∧ hue < 65535)
  else if b ≤ g then
    (b ≤ r → 12750 ≤ hue ∧ hue ≤ 25500) ∧ (r ≤ b → 25500 ≤ hue ∧ hue ≤ 38250)
  else
    (r ≤ g → 36210 ≤ hue ∧ hue ≤ 46920) ∧ (g ≤ r → 46920 ≤ hue ∧ hue ≤ 57630)

theorem hueOf_sector {r g b diff : ℤ} (pos : 0 < diff) (red_green : |r - g| ≤ diff)
    (green_blue : |g - b| ≤ diff) (blue_red : |b - r| ≤ diff) :
    Sector r g b (hueOf r g b diff) := by
  rw [abs_le] at red_green green_blue blue_red
  unfold Sector hueOf
  split_ifs with red green
  · obtain ⟨low, high, later, earlier⟩ :=
      truncate_around pos green_blue.1 green_blue.2 (show 9307 ≤ 65535 by decide) (by decide)
    push_cast at low high later earlier ⊢
    rw [Int.tmod_eq_emod_of_nonneg (by omega)]
    omega
  · obtain ⟨low, high, later, earlier⟩ :=
      truncate_around pos blue_red.1 blue_red.2 (show 12750 ≤ 25500 by decide) (by decide)
    push_cast at low high later earlier ⊢
    rw [Int.tmod_eq_emod_of_nonneg (by omega)]
    omega
  · obtain ⟨low, high, later, earlier⟩ :=
      truncate_around pos red_green.1 red_green.2 (show 10710 ≤ 46920 by decide) (by decide)
    push_cast at low high later earlier ⊢
    rw [Int.tmod_eq_emod_of_nonneg (by omega)]
    omega

theorem Sector.range {r g b hue : ℤ} (sector : Sector r g b hue) : 0 ≤ hue ∧ hue < 65535 := by
  unfold Sector at sector
  split_ifs at sector <;> omega

/-- Two roundings do not take a saturation far from the exact one. -/
theorem saturation_error {share : ℚ} (low : 0 ≤ share) (high : share ≤ 1) :
    |single.round (single.round share * 254) - share * 254| ≤ 1 / 10000 := by
  have nonneg := single.round_nonneg low
  have le := single.round_le_intCast (n := 1) (by decide) (by simpa using high)
  rw [Int.cast_one] at le
  have error : ∀ q, 0 ≤ q → q ≤ 254 → |single.round q - q| ≤ q / 16777216 + 1 / 2 ^ 100 := by
    intro q q_low _
    have unit : (2 : ℚ) ^ single.least / 2 ≤ 1 / 2 ^ 100 := by
      rw [show single.least = -149 from rfl]
      norm_num
    have bound := single.abs_round_sub_le q
    rw [show single.precision = 24 from rfl, abs_of_nonneg q_low] at bound
    norm_num at unit bound ⊢
    linarith
  have first := abs_le.mp (error share low (by linarith))
  have second := abs_le.mp (error (single.round share * 254) (by linarith) (by linarith))
  norm_num at first second
  rw [abs_le]
  constructor <;> linarith

section Share

variable {share : ℚ} (low : 0 ≤ share)

include low

/-- The saturation of a share of the whole. -/
theorem stdRound_share_eq : stdRound (single.round (single.round share * 254)) =
    ⌊single.round (single.round share * 254) + 1 / 2⌋ := by
  have nonneg := single.round_nonneg low
  rw [stdRound, if_pos (single.round_nonneg (by linarith))]

variable (high : share ≤ 1)

include high

theorem stdRound_share_range : 0 ≤ stdRound (single.round (single.round share * 254)) ∧
    stdRound (single.round (single.round share * 254)) ≤ 254 := by
  have error := abs_le.mp (saturation_error low high)
  have below : stdRound (single.round (single.round share * 254)) < 255 := by
    rw [stdRound_share_eq low, Int.floor_lt]
    push_cast
    linarith
  refine ⟨?_, by omega⟩
  rw [stdRound_share_eq low]
  exact Int.floor_nonneg.mpr (by linarith)

/-- The least share of a colour of a screen is not rounded away. -/
theorem stdRound_share_pos (some : 1 / 255 ≤ share) :
    0 < stdRound (single.round (single.round share * 254)) := by
  have error := abs_le.mp (saturation_error low high)
  rw [stdRound_share_eq low, Int.floor_pos]
  linarith

theorem stdRound_share_lt (part : share ≤ 254 / 255) :
    stdRound (single.round (single.round share * 254)) < 254 := by
  have error := abs_le.mp (saturation_error low high)
  rw [stdRound_share_eq low, Int.floor_lt]
  push_cast
  linarith

end Share

theorem stdRound_share_one : stdRound (single.round (single.round 1 * 254)) = 254 := by
  have one : single.round 1 = 1 := by
    exact_mod_cast single.round_intCast (n := 1) (by decide)
  have whole : single.round 254 = (254 : ℤ) :=
    single.round_intCast (n := 254) (by decide)
  rw [one, one_mul, whole, stdRound_intCast]

/-- The saturation of a colour that is not black. -/
theorem saturation_bounds {cmax cmin : ℕ} (pos : 0 < cmax) (le : cmin ≤ cmax)
    (small : cmax ≤ 255) :
    let saturation := stdRound
      (single.round (single.round (((cmax - cmin : ℤ) : ℚ) / cmax) * 254))
    0 ≤ saturation ∧ saturation ≤ 254 ∧ (saturation = 0 ↔ cmin = cmax) ∧
      (saturation = 254 ↔ cmin = 0) := by
  have positive : (0 : ℚ) < cmax := by exact_mod_cast pos
  have le_rat : (cmin : ℚ) ≤ cmax := by exact_mod_cast le
  have small_rat : (cmax : ℚ) ≤ 255 := by exact_mod_cast small
  have nonneg_rat : (0 : ℚ) ≤ cmin := by positivity
  have low : 0 ≤ ((cmax : ℚ) - cmin) / cmax := div_nonneg (by linarith) positive.le
  have high : ((cmax : ℚ) - cmin) / cmax ≤ 1 := by
    rw [div_le_one positive]
    linarith
  push_cast
  obtain ⟨nonneg, le_254⟩ := stdRound_share_range low high
  refine ⟨nonneg, le_254, ⟨fun none => ?_, ?_⟩, ⟨fun all => ?_, ?_⟩⟩
  · by_contra different
    have apart : (1 : ℚ) ≤ (cmax : ℚ) - cmin := by
      rw [le_sub_iff_add_le']
      exact_mod_cast (by omega : cmin + 1 ≤ cmax)
    refine (stdRound_share_pos low high ?_).ne' none
    rw [div_le_div_iff₀ (by norm_num) positive]
    linarith
  · rintro rfl
    rw [sub_self, zero_div, round_zero, zero_mul, round_zero]
    exact stdRound_intCast 0
  · by_contra positive_min
    have one : (1 : ℚ) ≤ cmin := by exact_mod_cast Nat.one_le_iff_ne_zero.mpr positive_min
    refine (stdRound_share_lt low high ?_).ne all
    rw [div_le_div_iff₀ positive (by norm_num)]
    linarith
  · rintro rfl
    rw [Nat.cast_zero, sub_zero, div_self positive.ne', stdRound_share_one]

/-- What hue and saturation say about a colour. -/
structure Describes (hueSat : HueSaturation) (rgb : RGB) : Prop where
  hue_range : 0 ≤ hueSat.hue ∧ hueSat.hue < 65535
  saturation_range : 0 ≤ hueSat.saturation ∧ hueSat.saturation ≤ 254
  /-- Greys have no saturation, and the hue of red. -/
  grey : hueSat.saturation = 0 ↔ rgb.r = rgb.g ∧ rgb.g = rgb.b
  hue_grey : hueSat.saturation = 0 → hueSat.hue = 0
  /-- The colours that lack a channel are fully saturated. -/
  vivid : hueSat.saturation = 254 ↔ (rgb.r = 0 ∨ rgb.g = 0 ∨ rgb.b = 0) ∧
    ¬ (rgb.r = 0 ∧ rgb.g = 0 ∧ rgb.b = 0)
  sector : hueSat.saturation ≠ 0 → Sector rgb.r.toNat rgb.g.toNat rgb.b.toNat hueSat.hue

/-- The conversion of channels that are not all zero. -/
theorem toHueSaturation_returns {rgb : RGB} {r g b cmax cmin : ℕ} (hr : rgb.r.toNat = r)
    (hg : rgb.g.toNat = g) (hb : rgb.b.toNat = b) (hmax : cmax = max r (max g b))
    (hmin : cmin = min r (min g b)) (pos : 0 < cmax) :
    toHueSaturation rgb =
      .ok ⟨if cmax = cmin then 0 else hueOf r g b (cmax - cmin),
        stdRound (single.round (single.round (((cmax - cmin : ℤ) : ℚ) / cmax) * 254))⟩ := by
  have castMax : max (r : ℤ) (max g b) = cmax := by omega
  have castMin : min (r : ℤ) (min g b) = cmin := by omega
  have nonzero : ((cmax : ℤ) : ℚ) ≠ 0 := by exact_mod_cast pos.ne'
  have saturation : toSaturation cmax ((cmax - cmin : ℤ) : ℚ) =
      .ok (stdRound (single.round (single.round (((cmax - cmin : ℤ) : ℚ) / cmax) * 254))) := by
    rw [toSaturation, if_neg (by omega), divide_of_ne_zero nonzero]
    rfl
  have hue : toHue r g b cmax cmin ((cmax - cmin : ℤ) : ℚ) =
      .ok (if cmax = cmin then 0 else hueOf r g b (cmax - cmin)) := by
    by_cases grey : cmax = cmin
    · rw [toHue, if_pos (by omega), if_pos grey]
      rfl
    · have diff : ((cmax - cmin : ℤ) : ℚ) ≠ 0 := by
        rw [Int.cast_ne_zero]
        omega
      rw [toHue, if_neg (by omega), if_neg grey, hueOf]
      simp only [divide_of_ne_zero diff]
      by_cases red : cmax = r
      · rw [if_pos (by omega), if_pos (by omega)]
        rfl
      · by_cases green : cmax = g
        · rw [if_neg (by omega), if_pos (by omega), if_neg (by omega), if_pos (by omega)]
          rfl
        · rw [if_neg (by omega), if_neg (by omega), if_pos (by omega), if_neg (by omega),
            if_neg (by omega)]
          rfl
  simp only [toHueSaturation, hr, hg, hb, castMax, castMin, hue, saturation, Except.ok_bind,
    Except.pure_eq_ok]

theorem grey_iff (rgb : RGB) :
    min rgb.r.toNat (min rgb.g.toNat rgb.b.toNat) = max rgb.r.toNat (max rgb.g.toNat rgb.b.toNat) ↔
      rgb.r = rgb.g ∧ rgb.g = rgb.b := by
  simp only [← UInt8.toNat_inj]
  omega

theorem darkest_eq_zero_iff (rgb : RGB) :
    min rgb.r.toNat (min rgb.g.toNat rgb.b.toNat) = 0 ↔ rgb.r = 0 ∨ rgb.g = 0 ∨ rgb.b = 0 := by
  simp only [← UInt8.toNat_inj, UInt8.toNat_zero]
  omega

theorem describes_of_not_black {rgb : RGB} (lit : ¬ (rgb.r = 0 ∧ rgb.g = 0 ∧ rgb.b = 0)) :
    ∃ hueSat, toHueSaturation rgb = .ok hueSat ∧ Describes hueSat rgb := by
  have r_high := rgb.r.toNat_lt
  have g_high := rgb.g.toNat_lt
  have b_high := rgb.b.toNat_lt
  have pos : 0 < max rgb.r.toNat (max rgb.g.toNat rgb.b.toNat) := by
    simp only [← UInt8.toNat_inj, UInt8.toNat_zero] at lit
    omega
  have returned := toHueSaturation_returns rfl rfl rfl rfl rfl pos
  have greys := grey_iff rgb
  have vivids := darkest_eq_zero_iff rgb
  have between : min rgb.r.toNat (min rgb.g.toNat rgb.b.toNat) ≤
      max rgb.r.toNat (max rgb.g.toNat rgb.b.toNat) := by omega
  have apart : max rgb.r.toNat (max rgb.g.toNat rgb.b.toNat) ≠
        min rgb.r.toNat (min rgb.g.toNat rgb.b.toNat) →
      Sector rgb.r.toNat rgb.g.toNat rgb.b.toNat (hueOf rgb.r.toNat rgb.g.toNat rgb.b.toNat
        ((max rgb.r.toNat (max rgb.g.toNat rgb.b.toNat) : ℕ) -
          (min rgb.r.toNat (min rgb.g.toNat rgb.b.toNat) : ℕ))) := by
    intro different
    refine hueOf_sector (by omega) ?_ ?_ ?_ <;> rw [abs_le] <;> omega
  obtain ⟨low, high, grey, vivid⟩ := saturation_bounds pos between (by omega)
  generalize max rgb.r.toNat (max rgb.g.toNat rgb.b.toNat) = cmax at *
  generalize min rgb.r.toNat (min rgb.g.toNat rgb.b.toNat) = cmin at *
  refine ⟨_, returned, ⟨?_, ⟨low, high⟩, grey.trans greys, ?_, ?_, ?_⟩⟩
  · by_cases same : cmax = cmin
    · simp only [if_pos same]
      omega
    · simp only [if_neg same]
      exact (apart same).range
  · exact fun none => if_pos (grey.mp none).symm
  · exact vivid.trans (vivids.trans (and_iff_left lit).symm)
  · intro some
    have different : cmax ≠ cmin := fun same => some (grey.mpr same.symm)
    simp only [if_neg different]
    exact apart different

theorem toHueSaturation_describes (rgb : RGB) :
    ∃ hueSat, toHueSaturation rgb = .ok hueSat ∧ Describes hueSat rgb := by
  by_cases black : rgb.r = 0 ∧ rgb.g = 0 ∧ rgb.b = 0
  · obtain ⟨r, g, b⟩ := rgb
    obtain ⟨rfl, rfl, rfl⟩ := black
    exact ⟨⟨0, 0⟩, by decide +kernel, ⟨by decide, by decide, by decide, by decide, by decide,
      fun some => absurd rfl some⟩⟩
  · exact describes_of_not_black black

/-- No conversion divides by zero, and its result describes the colour; a request for it is
never clamped. -/
theorem setColor_toHueSaturation (rgb : RGB) (t : StateTransaction) :
    ∃ hueSat, toHueSaturation rgb = .ok hueSat ∧ Describes hueSat rgb ∧
      (t.setColorHueSaturation hueSat).request.find? "hue" = some (.num hueSat.hue) ∧
      (t.setColorHueSaturation hueSat).request.find? "sat" = some (.num hueSat.saturation) := by
  obtain ⟨hueSat, returned, describes⟩ := toHueSaturation_describes rgb
  obtain ⟨hue_low, hue_high⟩ := describes.hue_range
  obtain ⟨saturation_low, saturation_high⟩ := describes.saturation_range
  refine ⟨hueSat, returned, describes, ?_, ?_⟩
  · refine (OrderedMap.find?_insert_ne _ _ (by decide)).trans
      ((OrderedMap.find?_insert_self _ _ _).trans ?_)
    rw [min_eq_left (by omega), max_eq_right hue_low]
  · refine (OrderedMap.find?_insert_self _ _ _).trans ?_
    rw [min_eq_left saturation_high, max_eq_right saturation_low]

end RGB

end Hueplusplus
