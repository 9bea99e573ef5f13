import Hueplusplus.ColorUnits.RGB
import Hueplusplus.StateTransaction.Basic

/-!
# Colours of a screen

`toXY` converts channels of 8 bits to a colour and a brightness: the gamma correction and a
linear map, whose result is divided by the sum of its coordinates. So all colours of a screen
lie in one triangle, whatever `pow` computes. From there a correction by one of the predefined
gamuts does not leave the range of the coordinates, even where it leaves the gamut. Converted
back, the brightest channel has its old value.
-/

namespace Hueplusplus

namespace RGB

/-- Gamma correction. -/
def correctedChannel (pow : ℚ → ℚ → ℚ) (channel : ℚ) : ℚ :=
  if channel > 0.04045 then pow ((channel + 0.055) / (1 + 0.055)) 2.4 else channel / 12.92

def toXY (pow : ℚ → ℚ → ℚ) (rgb : RGB) : Except Exception XYBrightness := do
  if rgb.r = 0 ∧ rgb.g = 0 ∧ rgb.b = 0 then
    -- Return white with minimum brightness
    return ⟨⟨0.32272673, 0.32902291⟩, 0⟩
  let red : ℚ := rgb.r.toNat / 255
  let green : ℚ := rgb.g.toNat / 255
  let blue : ℚ := rgb.b.toNat / 255
  let redCorrected := correctedChannel pow red
  let greenCorrected := correctedChannel pow green
  let blueCorrected := correctedChannel pow blue
  let X := redCorrected * 0.664511 + greenCorrected * 0.154324 + blueCorrected * 0.162028
  let Y := redCorrected * 0.283881 + greenCorrected * 0.668433 + blueCorrected * 0.047685
  let Z := redCorrected * 0.000088 + greenCorrected * 0.072310 + blueCorrected * 0.986039
  let x ← divide X (X + Y + Z)
  let y ← divide Y (X + Y + Z)
  -- Set brightness to the brightest channel value (rather than average of them),
  -- so full red/green/blue can be displayed
  return ⟨⟨x, y⟩, max red (max green blue)⟩

/-- `toXY` with a gamut. -/
def toXYInGamut (pow : ℚ → ℚ → ℚ) (rgb : RGB) (gamut : ColorGamut) :
    Except Exception XYBrightness := do
  let xy ← toXY pow rgb
  if gamut.contains xy.xy then return xy
  else return { xy with xy := ← Checked.corrected gamut xy.xy }

/-- The value of the brightest channel. -/
def brightest (rgb : RGB) : ℕ := max rgb.r.toNat (max rgb.g.toNat rgb.b.toNat)

/-- The colours of the three channels alone. -/
def screen : ColorGamut where
  redCorner := ⟨0.664511 / 0.94848, 0.283881 / 0.94848⟩
  greenCorner := ⟨0.154324 / 0.895067, 0.668433 / 0.895067⟩
  blueCorner := ⟨0.162028 / 1.195752, 0.047685 / 1.195752⟩

theorem counterclockwise_screen : screen.Counterclockwise := by
  norm_num [ColorGamut.Counterclockwise, XY.sign, screen]

/-- What is assumed of `pow`: it maps positive numbers to positive numbers. -/
def Positive (pow : ℚ → ℚ → ℚ) : Prop := ∀ base exponent, 0 < base → 0 < pow base exponent

section ToXY

variable {pow : ℚ → ℚ → ℚ}

theorem correctedChannel_nonneg (positive : Positive pow) {channel : ℚ} (nonneg : 0 ≤ channel) :
    0 ≤ correctedChannel pow channel := by
  unfold correctedChannel
  split
  · exact (positive _ _ (by positivity)).le
  · positivity

theorem correctedChannel_pos (positive : Positive pow) {channel : ℚ} (pos : 0 < channel) :
    0 < correctedChannel pow channel := by
  unfold correctedChannel
  split
  · exact positive _ _ (by positivity)
  · positivity

/-- Channels of which one is not zero mix to a colour of the triangle. -/
theorem screen_contains_mix {red green blue : ℚ} (hr : 0 ≤ red) (hg : 0 ≤ green) (hb : 0 ≤ blue)
    {X Y sum : ℚ} (defX : X = red * 0.664511 + green * 0.154324 + blue * 0.162028)
    (defY : Y = red * 0.283881 + green * 0.668433 + blue * 0.047685)
    (defSum : sum = red * 0.94848 + green * 0.895067 + blue * 1.195752) (pos : 0 < sum) :
    screen.contains ⟨X / sum, Y / sum⟩ = true := by
  rw [ColorGamut.contains_iff_weights _ _ counterclockwise_screen]
  refine ⟨red * 0.94848 / sum, green * 0.895067 / sum, blue * 1.195752 / sum, by positivity,
    by positivity, by positivity, ?_, ?_, ?_⟩
  · rw [← add_div, ← add_div, ← defSum, div_self pos.ne']
  · rw [defX, screen]
    field_simp
  · rw [defY, screen]
    field_simp

theorem max_div_255 (rgb : RGB) :
    max ((rgb.r.toNat : ℚ) / 255) (max ((rgb.g.toNat : ℚ) / 255) ((rgb.b.toNat : ℚ) / 255)) =
      rgb.brightest / 255 := by
  have positive : (0 : ℚ) ≤ 255 := by norm_num
  rw [max_div_div_right positive, max_div_div_right positive, brightest, Nat.cast_max,
    Nat.cast_max]

/-- Every colour is converted to one in the triangle and the brightness of its brightest
channel. -/
theorem toXY_returns (positive : Positive pow) (rgb : RGB) :
    ∃ xy, toXY pow rgb = .ok ⟨xy, rgb.brightest / 255⟩ ∧ screen.contains xy = true := by
  by_cases black : rgb.r = 0 ∧ rgb.g = 0 ∧ rgb.b = 0
  · refine ⟨⟨0.32272673, 0.32902291⟩, ?_, ?_⟩
    · obtain ⟨r, g, b⟩ := rgb
      obtain ⟨rfl, rfl, rfl⟩ := black
      simp [toXY, brightest]
    · norm_num [ColorGamut.contains, XY.isRightOf, XY.sign, screen]
  · have red : 0 ≤ correctedChannel pow (rgb.r.toNat / 255) :=
      correctedChannel_nonneg positive (by positivity)
    have green : 0 ≤ correctedChannel pow (rgb.g.toNat / 255) :=
      correctedChannel_nonneg positive (by positivity)
    have blue : 0 ≤ correctedChannel pow (rgb.b.toNat / 255) :=
      correctedChannel_nonneg positive (by positivity)
    have lit : ∀ {channel : UInt8}, channel ≠ 0 →
        0 < correctedChannel pow (channel.toNat / 255) := by
      intro channel nonzero
      have count : 0 < channel.toNat := by
        rw [Nat.pos_iff_ne_zero]
        exact fun zero => nonzero (UInt8.toNat_inj.mp zero)
      exact correctedChannel_pos positive (by positivity)
    have some_lit : 0 < correctedChannel pow (rgb.r.toNat / 255) ∨
        0 < correctedChannel pow (rgb.g.toNat / 255) ∨
        0 < correctedChannel pow (rgb.b.toNat / 255) := by
      by_contra none
      obtain ⟨r, g, b⟩ := not_or.mp none |>.imp_right not_or.mp
      exact black ⟨not_not.mp (mt lit r), not_not.mp (mt lit g), not_not.mp (mt lit b)⟩
    rw [toXY, if_neg black]
    simp only [max_div_255]
    generalize correctedChannel pow (rgb.r.toNat / 255) = r at *
    generalize correctedChannel pow (rgb.g.toNat / 255) = g at *
    generalize correctedChannel pow (rgb.b.toNat / 255) = b at *
    have pos : 0 < r * 0.94848 + g * 0.895067 + b * 1.195752 := by
      rcases some_lit with lit | lit | lit <;> positivity
    have total : r * 0.664511 + g * 0.154324 + b * 0.162028 +
        (r * 0.283881 + g * 0.668433 + b * 0.047685) +
        (r * 0.000088 + g * 0.072310 + b * 0.986039) =
        r * 0.94848 + g * 0.895067 + b * 1.195752 := by ring
    rw [total]
    simp only [divide_of_ne_zero pos.ne', Except.ok_bind, Except.pure_eq_ok]
    exact ⟨_, rfl, screen_contains_mix red green blue rfl rfl rfl pos⟩

end ToXY

/-- Both coordinates are well inside of their range. -/
def InRange (xy : XY) : Prop := 1 / 10 ≤ xy.x ∧ xy.x ≤ 3 / 4 ∧ 1 / 40 ≤ xy.y ∧ xy.y ≤ 3 / 4

instance (xy : XY) : Decidable (InRange xy) :=
  inferInstanceAs (Decidable (1 / 10 ≤ xy.x ∧ xy.x ≤ 3 / 4 ∧ 1 / 40 ≤ xy.y ∧ xy.y ≤ 3 / 4))

theorem InRange.clamp {xy : XY} (inRange : InRange xy) :
    max 0 (min xy.x 1) = xy.x ∧ max 0 (min xy.y 1) = xy.y := by
  obtain ⟨x_low, x_high, y_low, y_high⟩ := inRange
  rw [min_eq_left (x_high.trans (by norm_num)), min_eq_left (y_high.trans (by norm_num))]
  exact ⟨max_eq_right (le_trans (by norm_num) x_low), max_eq_right (le_trans (by norm_num) y_low)⟩

/-- A colour mixed from three others. -/
structure Mix (xy p1 p2 p3 : XY) (t1 t2 t3 : ℚ) : Prop where
  nonneg : 0 ≤ t1 ∧ 0 ≤ t2 ∧ 0 ≤ t3
  total : t1 + t2 + t3 = 1
  x : xy.x = t1 * p1.x + t2 * p2.x + t3 * p3.x
  y : xy.y = t1 * p1.y + t2 * p2.y + t3 * p3.y

namespace Mix

variable {xy p1 p2 p3 : XY} {t1 t2 t3 : ℚ}

theorem inRange (mix : Mix xy p1 p2 p3 t1 t2 t3) (h1 : InRange p1) (h2 : InRange p2)
    (h3 : InRange p3) : InRange xy := by
  obtain ⟨⟨n1, n2, n3⟩, total, x, y⟩ := mix
  have low : ∀ {bound a b c : ℚ}, bound ≤ a → bound ≤ b → bound ≤ c →
      bound ≤ t1 * a + t2 * b + t3 * c := by
    intro bound a b c ha hb hc
    calc bound = t1 * bound + t2 * bound + t3 * bound :=
        by rw [← add_mul, ← add_mul, total, one_mul]
      _ ≤ t1 * a + t2 * b + t3 * c := by gcongr
  have high : ∀ {bound a b c : ℚ}, a ≤ bound → b ≤ bound → c ≤ bound →
      t1 * a + t2 * b + t3 * c ≤ bound := by
    intro bound a b c ha hb hc
    calc t1 * a + t2 * b + t3 * c ≤ t1 * bound + t2 * bound + t3 * bound := by gcongr
      _ = bound := by rw [← add_mul, ← add_mul, total, one_mul]
  rw [InRange, x, y]
  exact ⟨low h1.1 h2.1 h3.1, high h1.2.1 h2.2.1 h3.2.1, low h1.2.2.1 h2.2.2.1 h3.2.2.1,
    high h1.2.2.2 h2.2.2.2 h3.2.2.2⟩

/-- Projections onto a line keep the shares of a mix. -/
theorem projectOntoLine (mix : Mix xy p1 p2 p3 t1 t2 t3) (a b : XY) :
    Mix (xy.projectOntoLine a b) (p1.projectOntoLine a b) (p2.projectOntoLine a b)
      (p3.projectOntoLine a b) t1 t2 t3 := by
  obtain ⟨nonneg, total, x, y⟩ := mix
  obtain rfl : t3 = 1 - t1 - t2 := by linarith
  refine ⟨nonneg, total, ?_, ?_⟩ <;>
  · simp only [XY.projectOntoLine, x, y]
    ring

end Mix

theorem mix_of_screen_contains {xy : XY} (contains : screen.contains xy = true) :
    ∃ t1 t2 t3, Mix xy screen.redCorner screen.greenCorner screen.blueCorner t1 t2 t3 := by
  rw [ColorGamut.contains_iff_weights _ _ counterclockwise_screen] at contains
  obtain ⟨t1, t2, t3, n1, n2, n3, total, x, y⟩ := contains
  exact ⟨t1, t2, t3, ⟨n1, n2, n3⟩, total, x, y⟩

/-- The first corner of the side is in range, and so are the projections of the corners of the
screen's triangle onto the side. -/
def SideKeepsRange (p1 p2 : XY) : Prop :=
  InRange p1 ∧ InRange (screen.redCorner.projectOntoLine p1 p2) ∧
    InRange (screen.greenCorner.projectOntoLine p1 p2) ∧
    InRange (screen.blueCorner.projectOntoLine p1 p2)

instance (p1 p2 : XY) : Decidable (SideKeepsRange p1 p2) :=
  inferInstanceAs (Decidable (_ ∧ _ ∧ _ ∧ _))

structure KeepsRange (gamut : ColorGamut) : Prop where
  red : SideKeepsRange gamut.redCorner gamut.greenCorner
  green : SideKeepsRange gamut.greenCorner gamut.blueCorner
  blue : SideKeepsRange gamut.blueCorner gamut.redCorner

theorem keepsRange_gamutA : KeepsRange ColorGamut.gamutA :=
  ⟨by decide +kernel, by decide +kernel, by decide +kernel⟩

theorem keepsRange_gamutB : KeepsRange ColorGamut.gamutB :=
  ⟨by decide +kernel, by decide +kernel, by decide +kernel⟩

theorem keepsRange_gamutC : KeepsRange ColorGamut.gamutC :=
  ⟨by decide +kernel, by decide +kernel, by decide +kernel⟩

theorem inRange_of_screen_contains {xy : XY} (contains : screen.contains xy = true) :
    InRange xy := by
  obtain ⟨t1, t2, t3, mix⟩ := mix_of_screen_contains contains
  exact mix.inRange (by decide +kernel) (by decide +kernel) (by decide +kernel)

theorem SideKeepsRange.projectOntoLine {p1 p2 xy : XY} (keeps : SideKeepsRange p1 p2)
    (contains : screen.contains xy = true) : InRange (xy.projectOntoLine p1 p2) := by
  obtain ⟨t1, t2, t3, mix⟩ := mix_of_screen_contains contains
  exact (mix.projectOntoLine p1 p2).inRange keeps.2.1 keeps.2.2.1 keeps.2.2.2

theorem KeepsRange.shown {gamut : ColorGamut} (keeps : KeepsRange gamut) {xy : XY}
    (contains : screen.contains xy = true) : InRange (shown gamut xy) := by
  have itself := inRange_of_screen_contains contains
  unfold RGB.shown ColorGamut.corrected
  split_ifs
  · exact itself
  · exact keeps.green.1
  · exact keeps.red.1
  · exact keeps.red.projectOntoLine contains
  · exact keeps.blue.1
  · exact keeps.green.projectOntoLine contains
  · exact keeps.blue.projectOntoLine contains
  · exact itself

theorem maxGamut_contains {xy : XY} (contains : screen.contains xy = true) :
    ColorGamut.maxGamut.contains xy = true := by
  obtain ⟨t1, t2, t3, ⟨n1, n2, n3⟩, total, x, y⟩ := mix_of_screen_contains contains
  rw [ColorGamut.contains_iff_weights _ _ (ColorGamut.counterclockwise_predefined _ (by simp))]
  norm_num [screen] at x y
  refine ⟨xy.x, xy.y, 1 - xy.x - xy.y, ?_, ?_, ?_, by ring, ?_, ?_⟩
  · rw [x]
    positivity
  · rw [y]
    positivity
  · linarith
  · norm_num [ColorGamut.maxGamut]
  · norm_num [ColorGamut.maxGamut]

def predefinedGamuts : List ColorGamut :=
  [ColorGamut.gamutA, ColorGamut.gamutB, ColorGamut.gamutC, ColorGamut.maxGamut]

theorem inRange_shown {gamut : ColorGamut} (predefined : gamut ∈ predefinedGamuts) {xy : XY}
    (contains : screen.contains xy = true) : InRange (shown gamut xy) := by
  simp only [predefinedGamuts, List.mem_cons, List.not_mem_nil, or_false] at predefined
  rcases predefined with rfl | rfl | rfl | rfl
  · exact keepsRange_gamutA.shown contains
  · exact keepsRange_gamutB.shown contains
  · exact keepsRange_gamutC.shown contains
  · rw [RGB.shown, if_pos (maxGamut_contains contains)]
    exact inRange_of_screen_contains contains

theorem toXYInGamut_eq (pow : ℚ → ℚ → ℚ) (rgb : RGB) (gamut : ColorGamut) :
    toXYInGamut pow rgb gamut =
      (fun xy => { xy with xy := shown gamut xy.xy }) <$> toXY pow rgb := by
  rw [toXYInGamut]
  cases toXY pow rgb with
  | error e => rfl
  | ok xy =>
    simp only [Except.ok_bind, Checked.corrected_divides, shown, Except.pure_eq_ok]
    cases contained : gamut.contains xy.xy <;> simp [Functor.map, Except.map, contained]

/-- The colour is in range, and the brightness is that of the brightest channel. -/
theorem toXYInGamut_returns {pow : ℚ → ℚ → ℚ} (positive : Positive pow) (rgb : RGB)
    {gamut : ColorGamut} (predefined : gamut ∈ predefinedGamuts) :
    ∃ xy, toXYInGamut pow rgb gamut = .ok ⟨xy, rgb.brightest / 255⟩ ∧ InRange xy := by
  obtain ⟨xy, returned, contains⟩ := toXY_returns positive rgb
  rw [toXYInGamut_eq, returned]
  exact ⟨_, rfl, inRange_shown predefined contains⟩

theorem brightest_le (rgb : RGB) : rgb.brightest ≤ 255 :=
  max_le (Nat.lt_succ_iff.mp rgb.r.toNat_lt)
    (max_le (Nat.lt_succ_iff.mp rgb.g.toNat_lt) (Nat.lt_succ_iff.mp rgb.b.toNat_lt))

/-- A colour of a screen is never clamped: the request has the very coordinates of the
conversion, and the rounded brightness of the brightest channel. -/
theorem setColor_toXYInGamut {pow : ℚ → ℚ → ℚ} (positive : Positive pow) (rgb : RGB)
    {gamut : ColorGamut} (predefined : gamut ∈ predefinedGamuts) (t : StateTransaction) :
    ∃ xy, toXYInGamut pow rgb gamut = .ok xy ∧
      (t.setColorXYBrightness xy).request.find? "xy" =
        some (.arr [.num xy.xy.x, .num xy.xy.y]) ∧
      (t.setColorXYBrightness xy).request.find? "bri" =
        some (.num (stdRound (rgb.brightest / 255 * 254))) := by
  obtain ⟨xy, returned, inRange⟩ := toXYInGamut_returns positive rgb predefined
  refine ⟨_, returned, ?_, ?_⟩
  · refine (OrderedMap.find?_insert_self _ _ _).trans ?_
    rw [inRange.clamp.1, inRange.clamp.2]
  · have bright : (rgb.brightest : ℚ) / 255 * 254 ≤ (254 : ℕ) := by
      have le : (rgb.brightest : ℚ) ≤ 255 := by exact_mod_cast rgb.brightest_le
      push_cast
      linarith
    obtain ⟨low, high⟩ := stdRound_bounds (by positivity) bright
    refine (OrderedMap.find?_insert_ne _ _ (by decide)).trans
      ((OrderedMap.find?_insert_self _ _ _).trans ?_)
    rw [min_eq_left (by exact_mod_cast high), max_eq_right low]

/-- Squares, and for the smaller exponents what `pow` computes near 0.3 for `1 / 2.4`. -/
def roughPow (base exponent : ℚ) : ℚ :=
  if exponent ≤ 1 then max base 0.6055 else base * base

theorem positive_roughPow : Positive roughPow := by
  intro base exponent pos
  unfold roughPow
  split
  · exact lt_max_of_lt_left pos
  · exact mul_pos pos pos

theorem setColor_toXYInGamut_white :
    ∃ xy, toXYInGamut roughPow ⟨255, 255, 255⟩ ColorGamut.gamutC = .ok xy ∧
      ((StateTransaction.new Utils.acknowledgingCommands "/lights/1/state"
          none).setColorXYBrightness xy).request.find? "xy" =
        some (.arr [.num xy.xy.x, .num xy.xy.y]) ∧
      ((StateTransaction.new Utils.acknowledgingCommands "/lights/1/state"
          none).setColorXYBrightness xy).request.find? "bri" =
        some (.num (stdRound ((255 : ℕ) / 255 * 254))) :=
  setColor_toXYInGamut positive_roughPow ⟨255, 255, 255⟩ (by simp [predefinedGamuts]) _

/-- What is assumed of `pow` for exponents up to 1: it moves no number below both the number
and 1. -/
def Root (pow : ℚ → ℚ → ℚ) : Prop :=
  ∀ base exponent, 0 < base → 0 ≤ exponent → exponent ≤ 1 → min base 1 ≤ pow base exponent

/-- The coordinates are in their range, and the second one is not close to zero. -/
def Convertible (xy : XY) : Prop := 0 ≤ xy.x ∧ xy.x ≤ 1 ∧ 1 / 50 ≤ xy.y ∧ xy.y ≤ 1

/-- Colours that single precision can take for one of a screen. -/
theorem InRange.convertible_of_close {xy other : XY} (inRange : InRange xy)
    (hx : |other.x - xy.x| ≤ 501 / 5000000) (hy : |other.y - xy.y| ≤ 501 / 5000000) :
    Convertible other := by
  obtain ⟨x_low, x_high, y_low, y_high⟩ := inRange
  obtain ⟨x_left, x_right⟩ := abs_le.mp hx
  obtain ⟨y_left, y_right⟩ := abs_le.mp hy
  refine ⟨?_, ?_, ?_, ?_⟩ <;> linarith

theorem InRange.convertible {xy : XY} (inRange : InRange xy) : Convertible xy :=
  inRange.convertible_of_close (by norm_num) (by norm_num)

/-- Some channel is not close to zero before the gamma correction is reversed. -/
theorem exists_bright_channel {x y : ℚ} (convertible : Convertible ⟨x, y⟩) :
    let X := 0.3 / y * x
    let Z := 0.3 / y * (1 - x - y)
    1 / 10 ≤ X * 1.656492 - 0.3 * 0.354851 - Z * 0.255038 ∨
      1 / 10 ≤ -X * 0.707196 + 0.3 * 1.655397 + Z * 0.036152 ∨
      1 / 10 ≤ X * 0.051713 - 0.3 * 0.121364 + Z * 1.011530 := by
  obtain ⟨x_low, x_high, y_low, y_high⟩ := convertible
  simp only at x_low x_high y_low y_high
  intro X Z
  have y_pos : 0 < y := lt_of_lt_of_le (by norm_num) y_low
  have scale_pos : 0 ≤ 0.3 / y := by positivity
  have scale_high : 0.3 / y ≤ 15 := by
    rw [div_le_iff₀ y_pos]
    linarith
  have X_low : 0 ≤ X := mul_nonneg scale_pos x_low
  have X_high : X ≤ 15 :=
    (mul_le_of_le_one_right scale_pos x_high).trans scale_high
  have Z_low : -15 ≤ Z := by
    have : 0.3 / y * -1 ≤ Z := mul_le_mul_of_nonneg_left (by linarith) scale_pos
    linarith
  have Z_high : Z ≤ 15 := by
    have : Z ≤ 0.3 / y * 1 := mul_le_mul_of_nonneg_left (by linarith) scale_pos
    linarith
  by_contra dark
  simp only [not_or, not_le] at dark
  obtain ⟨red, green, blue⟩ := dark
  linarith

theorem gamma_bright {pow : ℚ → ℚ → ℚ} (root : Root pow) {channel : ℚ}
    (bright : 1 / 10 ≤ channel) : 1e-4 ≤ gamma pow channel := by
  have low : min channel 1 ≤ pow channel (1 / 2.4) :=
    root channel _ (by linarith) (by norm_num) (by norm_num)
  have least : 1 / 10 ≤ pow channel (1 / 2.4) := (le_min bright (by norm_num)).trans low
  rw [gamma, if_neg (by norm_num; linarith)]
  linarith

theorem stdRound_mono {p q : ℚ} (low : 0 ≤ p) (le : p ≤ q) : stdRound p ≤ stdRound q := by
  rw [stdRound, stdRound, if_pos low, if_pos (low.trans le)]
  exact Int.floor_le_floor (by linarith)

/-- A scaled channel has at most the value that the brightness gives the brightest one. -/
theorem channel_scaled {gamma maxColor brightness : ℚ} (low : 0 ≤ brightness)
    (high : brightness ≤ 1) (positive : 0 < maxColor) (le : gamma ≤ maxColor) :
    ∃ value : UInt8, channel (gamma / maxColor * brightness * 255) = .ok value ∧
      (value.toNat : ℤ) ≤ stdRound (brightness * 255) ∧
      (gamma = maxColor → (value.toNat : ℤ) = stdRound (brightness * 255)) := by
  have ratio : gamma / maxColor ≤ 1 := (div_le_one positive).mpr le
  have scaled : max 0 (gamma / maxColor * brightness * 255) ≤ brightness * 255 := by
    refine max_le (by positivity) (mul_le_mul_of_nonneg_right ?_ (by norm_num))
    exact mul_le_of_le_one_left low ratio
  have rounded := stdRound_mono (le_max_left 0 _) scaled
  obtain ⟨roundLow, roundHigh⟩ :=
    stdRound_bounds (n := 255) (le_max_left 0 _) (scaled.trans (by push_cast; linarith))
  have value : ((UInt8.ofNat (stdRound (max 0 (gamma / maxColor * brightness * 255))).toNat).toNat
      : ℤ) = stdRound (max 0 (gamma / maxColor * brightness * 255)) := by
    rw [UInt8.toNat_ofNat']
    omega
  refine ⟨_, toUInt8_returns roundLow roundHigh, value.trans_le rounded, ?_⟩
  rintro rfl
  rw [value, div_self positive.ne', one_mul, max_eq_right (by positivity)]

/-- The brightest channel of the result has the brightness of the colour. -/
theorem fromXY_brightest {pow : ℚ → ℚ → ℚ} (root : Root pow) {xy : XY}
    (convertible : Convertible xy) {brightness : ℚ} (low : 0 ≤ brightness)
    (high : brightness ≤ 1) :
    ∃ rgb, fromXY pow ⟨xy, brightness⟩ = .ok rgb ∧
      (rgb.brightest : ℤ) = stdRound (brightness * 255) := by
  obtain ⟨x, y⟩ := xy
  have nonzero : y ≠ 0 := (lt_of_lt_of_le (by norm_num) convertible.2.2.1).ne'
  by_cases dark : brightness < 1e-4
  · refine ⟨⟨0, 0, 0⟩, fromXY_of_dark pow dark, ?_⟩
    rw [stdRound, if_pos (by positivity), eq_comm]
    refine Int.floor_eq_iff.mpr ⟨?_, ?_⟩ <;> norm_num [brightest] at dark ⊢ <;> linarith
  · have channels := exists_bright_channel convertible
    simp only [fromXY, if_neg dark, divide_of_ne_zero nonzero, Except.ok_bind] at channels ⊢
    generalize 0.3 / y * x * 1.656492 - 0.3 * 0.354851 - 0.3 / y * (1 - x - y) * 0.255038 = r
      at channels ⊢
    generalize -(0.3 / y * x) * 0.707196 + 0.3 * 1.655397 + 0.3 / y * (1 - x - y) * 0.036152 = g
      at channels ⊢
    generalize 0.3 / y * x * 0.051713 - 0.3 * 0.121364 + 0.3 / y * (1 - x - y) * 1.011530 = b
      at channels ⊢
    have light : 1e-4 ≤ max (gamma pow r) (max (gamma pow g) (gamma pow b)) := by
      rcases channels with red | green | blue
      · exact le_max_of_le_left (gamma_bright root red)
      · exact le_max_of_le_right (le_max_of_le_left (gamma_bright root green))
      · exact le_max_of_le_right (le_max_of_le_right (gamma_bright root blue))
    rw [if_neg (not_lt.mpr light)]
    generalize gamma pow r = gammaR at *
    generalize gamma pow g = gammaG at *
    generalize gamma pow b = gammaB at *
    have positive : 0 < max gammaR (max gammaG gammaB) := lt_of_lt_of_le (by norm_num) light
    obtain ⟨red, redReturned, redLe, redEq⟩ :=
      channel_scaled low high positive (le_max_left gammaR _)
    obtain ⟨green, greenReturned, greenLe, greenEq⟩ :=
      channel_scaled low high positive ((le_max_left gammaG gammaB).trans (le_max_right gammaR _))
    obtain ⟨blue, blueReturned, blueLe, blueEq⟩ :=
      channel_scaled low high positive
        ((le_max_right gammaG gammaB).trans (le_max_right gammaR _))
    refine ⟨⟨red, green, blue⟩, ?_, ?_⟩
    · simp [divide_of_ne_zero positive.ne', redReturned, greenReturned, blueReturned]
    · rw [brightest, Nat.cast_max, Nat.cast_max]
      refine le_antisymm (max_le redLe (max_le greenLe blueLe)) ?_
      -- one of the channels is the maximum that the others are scaled by
      rcases max_choice gammaR (max gammaG gammaB) with first | later
      · exact (redEq first.symm).symm.le.trans (le_max_left _ _)
      · rcases max_choice gammaG gammaB with second | third
        · exact (greenEq (later.trans second).symm).symm.le.trans
            (le_max_of_le_right (le_max_left _ _))
        · exact (blueEq (later.trans third).symm).symm.le.trans
            (le_max_of_le_right (le_max_right _ _))

/-- The brightness of 8 bits is exact. -/
theorem fromXY_brightest_div_255 {pow : ℚ → ℚ → ℚ} (root : Root pow) {xy : XY}
    (convertible : Convertible xy) {n : ℕ} (small : n ≤ 255) :
    ∃ rgb, fromXY pow ⟨xy, n / 255⟩ = .ok rgb ∧ rgb.brightest = n := by
  have upper : (n : ℚ) ≤ 255 := by exact_mod_cast small
  obtain ⟨rgb, returned, bright⟩ := fromXY_brightest root convertible
    (div_nonneg n.cast_nonneg (by norm_num)) ((div_le_one (by norm_num)).mpr upper)
  refine ⟨rgb, returned, ?_⟩
  have whole : stdRound ((n : ℚ) / 255 * 255) = n := by
    rw [div_mul_cancel₀ _ (by norm_num)]
    exact_mod_cast stdRound_intCast n
  exact_mod_cast bright.trans whole

/-- A colour of a screen that is converted and converted back is defined, and keeps the value
of its brightest channel, also after a correction by a predefined gamut. -/
theorem brightest_round_trip {pow : ℚ → ℚ → ℚ} (positive : Positive pow) (root : Root pow)
    (rgb : RGB) :
    (∃ back, (toXY pow rgb >>= fromXY pow) = .ok back ∧ back.brightest = rgb.brightest) ∧
      ∀ gamut ∈ predefinedGamuts, ∃ back,
        (toXYInGamut pow rgb gamut >>= fromXY pow) = .ok back ∧
          back.brightest = rgb.brightest := by
  constructor
  · obtain ⟨xy, returned, contains⟩ := toXY_returns positive rgb
    rw [returned, Except.ok_bind]
    exact fromXY_brightest_div_255 root (inRange_of_screen_contains contains).convertible
      rgb.brightest_le
  · intro gamut predefined
    obtain ⟨xy, returned, inRange⟩ := toXYInGamut_returns positive rgb predefined
    rw [returned, Except.ok_bind]
    exact fromXY_brightest_div_255 root inRange.convertible rgb.brightest_le

theorem root_roughPow : Root roughPow := by
  intro base exponent _ _ small
  rw [roughPow, if_pos small]
  exact (min_le_left base 1).trans (le_max_left base _)

theorem brightest_round_trip_white :
    (∃ back, (toXY roughPow ⟨255, 255, 255⟩ >>= fromXY roughPow) = .ok back ∧
      back.brightest = 255) ∧
      ∀ gamut ∈ predefinedGamuts, ∃ back,
        (toXYInGamut roughPow ⟨255, 255, 255⟩ gamut >>= fromXY roughPow) = .ok back ∧
          back.brightest = 255 :=
  brightest_round_trip positive_roughPow root_roughPow ⟨255, 255, 255⟩

end RGB

end Hueplusplus
