import Hueplusplus.ColorUnits.Gamut
import Hueplusplus.Json

/-!
# Divisions by zero

In exact arithmetic a quotient by zero has no meaning. Where the code divides, `divide` makes
that visible. A gamut projects onto a side only if the colour is right of it, and nothing is
right of a side of length zero.
-/

namespace Hueplusplus

/-- A quotient, if it has a meaning. -/
def divide (a b : ℚ) : Except Exception ℚ :=
  if b = 0 then .error .undefinedBehaviour else .ok (a / b)

theorem divide_of_ne_zero {b : ℚ} (h : b ≠ 0) (a : ℚ) : divide a b = .ok (a / b) := if_neg h

@[simp] theorem divide_zero (a : ℚ) : divide a 0 = .error .undefinedBehaviour := if_pos rfl

namespace Checked

/-- `projectOntoLine` with its divisions. -/
def projectOntoLine (xy p1 p2 : XY) : Except Exception XY := do
  let abX := p2.x - p1.x
  let abY := p2.y - p1.y
  let lenABSquared := abX * abX + abY * abY
  let dot := (xy.x - p1.x) * abX + (xy.y - p1.y) * abY
  let eX := p1.x + (← divide (abX * dot) lenABSquared)
  let eY := p1.y + (← divide (abY * dot) lenABSquared)
  return ⟨eX, eY⟩

/-- `ColorGamut::corrected` with the divisions of `projectOntoLine`. -/
def corrected (gamut : ColorGamut) (xy : XY) : Except Exception XY :=
  if xy.isRightOf gamut.redCorner gamut.greenCorner then
    if xy.isRightOf gamut.greenCorner gamut.blueCorner then
      .ok gamut.greenCorner
    else if xy.isRightOf gamut.blueCorner gamut.redCorner then
      .ok gamut.redCorner
    else
      projectOntoLine xy gamut.redCorner gamut.greenCorner
  else if xy.isRightOf gamut.greenCorner gamut.blueCorner then
    if xy.isRightOf gamut.blueCorner gamut.redCorner then
      .ok gamut.blueCorner
    else
      projectOntoLine xy gamut.greenCorner gamut.blueCorner
  else if xy.isRightOf gamut.blueCorner gamut.redCorner then
    projectOntoLine xy gamut.blueCorner gamut.redCorner
  else
    .ok xy

/-- The length of a side is zero exactly if its corners coincide. -/
theorem lenABSquared_eq_zero_iff (p1 p2 : XY) :
    (p2.x - p1.x) * (p2.x - p1.x) + (p2.y - p1.y) * (p2.y - p1.y) = 0 ↔ p1 = p2 := by
  rw [add_eq_zero_iff_of_nonneg (mul_self_nonneg _) (mul_self_nonneg _), mul_self_eq_zero,
    mul_self_eq_zero, sub_eq_zero, sub_eq_zero, eq_comm, eq_comm (a := p2.y), ← XY.mk.injEq]

theorem projectOntoLine_of_ne {p1 p2 : XY} (h : p1 ≠ p2) (xy : XY) :
    projectOntoLine xy p1 p2 = .ok (xy.projectOntoLine p1 p2) := by
  have length := mt (lenABSquared_eq_zero_iff p1 p2).mp h
  simp [projectOntoLine, divide_of_ne_zero length, XY.projectOntoLine]

/-- Two corners with a colour right of their side differ. -/
theorem ne_of_isRightOf {xy p1 p2 : XY} (right : xy.isRightOf p1 p2 = true) : p1 ≠ p2 := by
  rintro rfl
  have area := (XY.isRightOf_iff xy p1 p1).mp right
  rw [Plane.area, sub_self, sub_self, zero_mul, zero_mul, sub_self] at area
  exact lt_irrefl 0 area

theorem projectOntoLine_of_isRightOf {xy p1 p2 : XY} (right : xy.isRightOf p1 p2 = true) :
    projectOntoLine xy p1 p2 = .ok (xy.projectOntoLine p1 p2) :=
  projectOntoLine_of_ne (ne_of_isRightOf right) xy

/-- No correction divides by zero, for any three corners and any colour. -/
theorem corrected_divides (gamut : ColorGamut) (xy : XY) :
    corrected gamut xy = .ok (gamut.corrected xy) := by
  unfold corrected ColorGamut.corrected
  cases red : xy.isRightOf gamut.redCorner gamut.greenCorner <;>
    cases green : xy.isRightOf gamut.greenCorner gamut.blueCorner <;>
    cases blue : xy.isRightOf gamut.blueCorner gamut.redCorner <;>
    simp only [if_true, Bool.false_eq_true, if_false]
  · exact projectOntoLine_of_isRightOf blue
  · exact projectOntoLine_of_isRightOf green
  · exact projectOntoLine_of_isRightOf red

end Checked

end Hueplusplus
