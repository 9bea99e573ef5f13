import Hueplusplus.Foundation.Plane
import Hueplusplus.ColorUnits

/-!
# Gamuts

`contains` decides membership in the gamut's triangle. `corrected` chooses a corner or a side by
the sides a colour is right of, and this choice is the nearest one for some colours only: the
foot on the chosen side may fall beyond its corners, and at an obtuse corner the nearest
point may be on a side.
-/

namespace Hueplusplus

namespace XY

def sign (p0 p1 p2 : XY) : ℚ :=
  (p0.x - p2.x) * (p1.y - p2.y) - (p1.x - p2.x) * (p0.y - p2.y)

def isRightOf (xy p1 p2 : XY) : Bool :=
  decide (sign xy p1 p2 < 0)

def projectOntoLine (xy p1 p2 : XY) : XY :=
  let abX := p2.x - p1.x
  let abY := p2.y - p1.y
  let lenABSquared := abX * abX + abY * abY
  let dot := (xy.x - p1.x) * abX + (xy.y - p1.y) * abY
  ⟨p1.x + abX * dot / lenABSquared, p1.y + abY * dot / lenABSquared⟩

def point (xy : XY) : ℚ × ℚ :=
  (xy.x, xy.y)

theorem sign_eq_area (xy p1 p2 : XY) : sign xy p1 p2 = Plane.area p1.point p2.point xy.point := by
  simp only [sign, Plane.area, point]
  ring

theorem isRightOf_iff (xy p1 p2 : XY) :
    isRightOf xy p1 p2 = true ↔ Plane.area p1.point p2.point xy.point < 0 := by
  rw [isRightOf, decide_eq_true_iff, sign_eq_area]

theorem not_isRightOf_iff (xy p1 p2 : XY) :
    isRightOf xy p1 p2 = false ↔ 0 ≤ Plane.area p1.point p2.point xy.point := by
  rw [isRightOf, decide_eq_false_iff_not, sign_eq_area, not_lt]

theorem point_projectOntoLine (xy p1 p2 : XY) :
    (projectOntoLine xy p1 p2).point = Plane.foot p1.point p2.point xy.point := by
  ext <;> simp [projectOntoLine, point, Plane.foot, Plane.dot] <;> ring

end XY

structure ColorGamut where
  redCorner : XY
  greenCorner : XY
  blueCorner : XY
deriving DecidableEq

namespace ColorGamut

open XY Plane

def gamutA : ColorGamut := ⟨⟨0.704, 0.296⟩, ⟨0.2151, 0.7106⟩, ⟨0.138, 0.08⟩⟩

def gamutB : ColorGamut := ⟨⟨0.675, 0.322⟩, ⟨0.409, 0.518⟩, ⟨0.167, 0.04⟩⟩

def gamutC : ColorGamut := ⟨⟨0.692, 0.308⟩, ⟨0.17, 0.7⟩, ⟨0.153, 0.048⟩⟩

def maxGamut : ColorGamut := ⟨⟨1, 0⟩, ⟨0, 1⟩, ⟨0, 0⟩⟩

def contains (gamut : ColorGamut) (xy : XY) : Bool :=
  !isRightOf xy gamut.redCorner gamut.greenCorner
    && !isRightOf xy gamut.greenCorner gamut.blueCorner
    && !isRightOf xy gamut.blueCorner gamut.redCorner

def corrected (gamut : ColorGamut) (xy : XY) : XY :=
  if isRightOf xy gamut.redCorner gamut.greenCorner then
    if isRightOf xy gamut.greenCorner gamut.blueCorner then
      gamut.greenCorner
    else if isRightOf xy gamut.blueCorner gamut.redCorner then
      gamut.redCorner
    else
      projectOntoLine xy gamut.redCorner gamut.greenCorner
  else if isRightOf xy gamut.greenCorner gamut.blueCorner then
    if isRightOf xy gamut.blueCorner gamut.redCorner then
      gamut.blueCorner
    else
      projectOntoLine xy gamut.greenCorner gamut.blueCorner
  else if isRightOf xy gamut.blueCorner gamut.redCorner then
    projectOntoLine xy gamut.blueCorner gamut.redCorner
  else
    xy

/-- Red, green and blue corner are oriented counterclockwise and not on one line. -/
def Counterclockwise (gamut : ColorGamut) : Prop :=
  0 < sign gamut.redCorner gamut.greenCorner gamut.blueCorner

theorem counterclockwise_predefined :
    ∀ gamut ∈ [gamutA, gamutB, gamutC, maxGamut], gamut.Counterclockwise := by
  simp only [List.forall_mem_cons, List.not_mem_nil, false_imp_iff, implies_true, and_true,
    Counterclockwise, sign, gamutA, gamutB, gamutC, maxGamut]
  norm_num

theorem Counterclockwise.area_pos {gamut : ColorGamut} (h : gamut.Counterclockwise) :
    0 < area gamut.redCorner.point gamut.greenCorner.point gamut.blueCorner.point := by
  rwa [← area_rotate, ← sign_eq_area]

theorem contains_iff_mem {gamut : ColorGamut} {xy : XY} (h : gamut.Counterclockwise) :
    gamut.contains xy = true ↔
      xy.point ∈ triangle gamut.redCorner.point gamut.greenCorner.point gamut.blueCorner.point := by
  rw [mem_triangle_iff h.area_pos, contains]
  simp only [Bool.and_eq_true, Bool.not_eq_true', not_isRightOf_iff, and_assoc]

/-- A gamut contains a colour exactly if the colour is a convex combination of the corners. -/
theorem contains_iff_weights (gamut : ColorGamut) (xy : XY) (h : gamut.Counterclockwise) :
    gamut.contains xy = true ↔ ∃ red green blue : ℚ,
      0 ≤ red ∧ 0 ≤ green ∧ 0 ≤ blue ∧ red + green + blue = 1 ∧
      xy.x = red * gamut.redCorner.x + green * gamut.greenCorner.x + blue * gamut.blueCorner.x ∧
      xy.y = red * gamut.redCorner.y + green * gamut.greenCorner.y +
        blue * gamut.blueCorner.y := by
  rw [contains_iff_mem h, mem_triangle_iff_weights]
  simp only [Prod.ext_iff, point, Prod.fst_add, Prod.snd_add, Prod.smul_fst, Prod.smul_snd,
    smul_eq_mul, eq_comm]

theorem contains_iff_weights_maxGamut : ∃ red green blue : ℚ,
    0 ≤ red ∧ 0 ≤ green ∧ 0 ≤ blue ∧ red + green + blue = 1 ∧
      1 / 3 = red * 1 + green * 0 + blue * 0 ∧ 1 / 2 = red * 0 + green * 1 + blue * 0 :=
  (contains_iff_weights maxGamut ⟨1 / 3, 1 / 2⟩
    (by norm_num [Counterclockwise, sign, maxGamut])).1
    (by norm_num [contains, isRightOf, sign, maxGamut])

/-- The documented result of `corrected`: a colour of the gamut itself, and else the closest
point on the border. -/
def IsCorrection (gamut : ColorGamut) (xy result : XY) : Prop :=
  if gamut.contains xy then
    result = xy
  else
    IsNearest gamut.redCorner.point gamut.greenCorner.point gamut.blueCorner.point
      xy.point result.point

/-- The foot of a colour on the line through two corners falls between the corners. -/
def Alongside (xy p1 p2 : XY) : Prop :=
  0 ≤ dot (xy.point - p1.point) (p2.point - p1.point) ∧
    dot (xy.point - p1.point) (p2.point - p1.point) ≤
      dot (p2.point - p1.point) (p2.point - p1.point)

/-- Seen from a corner, a colour and the two other corners form no acute angle. -/
def Behind (xy corner p1 p2 : XY) : Prop :=
  dot (xy.point - corner.point) (p1.point - corner.point) ≤ 0 ∧
    dot (xy.point - corner.point) (p2.point - corner.point) ≤ 0

/-- A colour right of one side only is alongside it, one right of two sides is behind their
common corner. -/
def Correctable (gamut : ColorGamut) (xy : XY) : Prop :=
  match isRightOf xy gamut.redCorner gamut.greenCorner,
    isRightOf xy gamut.greenCorner gamut.blueCorner,
    isRightOf xy gamut.blueCorner gamut.redCorner with
  | true, false, false => Alongside xy gamut.redCorner gamut.greenCorner
  | false, true, false => Alongside xy gamut.greenCorner gamut.blueCorner
  | false, false, true => Alongside xy gamut.blueCorner gamut.redCorner
  | true, true, _ => Behind xy gamut.greenCorner gamut.redCorner gamut.blueCorner
  | true, false, true => Behind xy gamut.redCorner gamut.blueCorner gamut.greenCorner
  | false, true, true => Behind xy gamut.blueCorner gamut.greenCorner gamut.redCorner
  | false, false, false => True

theorem isNearest_projectOntoLine_iff {xy p1 p2 p3 : XY}
    (ccw : 0 < area p1.point p2.point p3.point) (beyond : isRightOf xy p1 p2 = true) :
    IsNearest p1.point p2.point p3.point xy.point (projectOntoLine xy p1 p2).point ↔
      Alongside xy p1 p2 := by
  rw [point_projectOntoLine]
  exact isNearest_foot_iff ccw ((isRightOf_iff _ _ _).1 beyond)

/-- `corrected` gives a nearest point of the border exactly for the correctable colours. -/
theorem corrected_iff (gamut : ColorGamut) (xy : XY) (h : gamut.Counterclockwise) :
    gamut.IsCorrection xy (gamut.corrected xy) ↔ gamut.Correctable xy := by
  have red := h.area_pos
  have green := red
  rw [← area_rotate] at green
  have blue := green
  rw [← area_rotate] at blue
  unfold IsCorrection contains corrected Correctable
  -- each choice is turned until its side, or the side before its corner, is the first one
  cases hr : isRightOf xy gamut.redCorner gamut.greenCorner <;>
    cases hg : isRightOf xy gamut.greenCorner gamut.blueCorner <;>
    cases hb : isRightOf xy gamut.blueCorner gamut.redCorner <;>
    simp only [Bool.not_true, Bool.not_false, Bool.and_true, Bool.and_false, if_true,
      Bool.false_eq_true, if_false]
  · rw [← isNearest_rotate, ← isNearest_rotate]
    exact isNearest_projectOntoLine_iff blue hb
  · rw [← isNearest_rotate]
    exact isNearest_projectOntoLine_iff green hg
  · rw [← isNearest_rotate]
    exact isNearest_corner_iff
  · exact isNearest_projectOntoLine_iff red hr
  · rw [← isNearest_rotate, ← isNearest_rotate]
    exact isNearest_corner_iff
  · exact isNearest_corner_iff
  · exact isNearest_corner_iff

theorem corrected_iff_maxGamut :
    maxGamut.IsCorrection ⟨1, 1 / 3⟩ (maxGamut.corrected ⟨1, 1 / 3⟩) :=
  (corrected_iff maxGamut ⟨1, 1 / 3⟩ (by norm_num [Counterclockwise, sign, maxGamut])).2
    (by norm_num [Correctable, Alongside, isRightOf, sign, point, dot, maxGamut])

/-- A colour beyond the red corner is right of one side only, and its foot on that side is
beyond the corner too, outside of the gamut. -/
theorem corrected_outside_gamutA : gamutA.Counterclockwise ∧
    ¬ gamutA.IsCorrection ⟨0.9, 0.4⟩ (gamutA.corrected ⟨0.9, 0.4⟩) := by
  have ccw : gamutA.Counterclockwise := counterclockwise_predefined _ (by simp)
  have beyond : isRightOf ⟨0.9, 0.4⟩ gamutA.redCorner gamutA.greenCorner = true := by
    norm_num [isRightOf, sign, gamutA]
  have chosen : gamutA.corrected ⟨0.9, 0.4⟩ =
      projectOntoLine ⟨0.9, 0.4⟩ gamutA.redCorner gamutA.greenCorner := by
    norm_num [corrected, isRightOf, sign, gamutA]
  refine ⟨ccw, ?_⟩
  rw [IsCorrection, if_neg (by simp [contains, beyond]), chosen,
    isNearest_projectOntoLine_iff ccw.area_pos beyond]
  norm_num [Alongside, point, dot, gamutA]

end ColorGamut

end Hueplusplus
