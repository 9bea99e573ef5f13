import Hueplusplus.Light.Basic
import Hueplusplus.Resources.Setters
import Hueplusplus.StateTransaction.LastCall

/-!
# A colour that is read and set again

The brightness of a light is an integer up to 254, that of a colour a number up to 1. The
strategy divides by 254 and `setColor` multiplies by 254, so a brightness comes back as it was.
The state that a scene keeps divides by 255: a brightness of 128 or more comes back smaller.
-/

namespace Hueplusplus

open Effect

namespace SimpleColorHueStrategy

/-- The colour in the state of a light. -/
def readXY (state : Object) : LightM XYBrightness := do
  let x ← state.read "xy" fun xy => do (← xy.elem 0).getFloat
  let y ← state.read "xy" fun xy => do (← xy.elem 1).getFloat
  let bri ← state.read "bri" Json.getInt
  return ⟨⟨x, y⟩, bri / 254⟩

def getColorXY (read : Refresh) : LightM XYBrightness := do
  let state ← Light.getValue read
  readXY state

/-- `getColorXY` of a constant light. -/
def constGetColorXY : LightM XYBrightness := do
  let state := (← get).cache
  readXY state

end SimpleColorHueStrategy

/-- A light without the strategy has no colour. -/
theorem Light.getColorXY_eq (l : Light) :
    l.getColorXY = if l.colorHueStrategy.isSome then SimpleColorHueStrategy.constGetColorXY
      else pure ⟨⟨0, 0⟩, 0⟩ := rfl

def Scene.LightState.getXY (s : Scene.LightState) : Except Exception XYBrightness := do
  let xy ← Json.at' s.state "xy"
  let x ← (← xy.elem 0).getFloat
  let y ← (← xy.elem 1).getFloat
  let bri ← (← Json.at' s.state "bri").getInt
  return ⟨⟨x, y⟩, bri / 255⟩

namespace ReadColor

/-- The state has a colour in the ranges of the API. -/
structure Shows (state : Object) (xy : XY) (bri : ℤ) : Prop where
  color : state.find? "xy" = some (.arr [.num xy.x, .num xy.y])
  brightness : state.find? "bri" = some (.num bri)
  x_range : 0 ≤ xy.x ∧ xy.x ≤ 1
  y_range : 0 ≤ xy.y ∧ xy.y ≤ 1
  bri_range : 0 ≤ bri ∧ bri ≤ 254

/-- Setting the colour puts this in the request of any transaction. -/
def Sets (color : XYBrightness) (xy : XY) (bri : ℤ) : Prop :=
  ∀ t : StateTransaction,
    (t.setColorXYBrightness color).request.find? "xy" = some (.arr [.num xy.x, .num xy.y]) ∧
      (t.setColorXYBrightness color).request.find? "bri" = some (.num bri)

section Colors

variable {state : Object} {xy : XY} {bri : ℤ}

theorem Shows.result_readXY (h : Shows state xy bri) (w : World) :
    result (SimpleColorHueStrategy.readXY state) w = (.ok ⟨xy, bri / 254⟩, w) := by
  have x : Json.elem (.arr [.num xy.x, .num xy.y]) 0 >>= Json.getFloat = .ok xy.x := rfl
  have y : Json.elem (.arr [.num xy.x, .num xy.y]) 1 >>= Json.getFloat = .ok xy.y := rfl
  simp [SimpleColorHueStrategy.readXY, Object.read, h.color, h.brightness, x, y]

theorem Shows.getXY (h : Shows state xy bri) :
    (Scene.LightState.mk state.toJson).getXY = .ok ⟨xy, bri / 255⟩ := by
  have pair : Json.at' state.toJson "xy" = .ok (.arr [.num xy.x, .num xy.y]) :=
    Json.at'_of_find? h.color
  have brightness : Json.at' state.toJson "bri" = .ok (.num bri) := Json.at'_of_find? h.brightness
  have x : Json.elem (.arr [.num xy.x, .num xy.y]) 0 = .ok (.num xy.x) := rfl
  have y : Json.elem (.arr [.num xy.x, .num xy.y]) 1 = .ok (.num xy.y) := rfl
  simp [Scene.LightState.getXY, pair, brightness, x, y, Json.getFloat]

theorem clamp_eq {α : Type*} [LinearOrder α] {low high a : α} (h : low ≤ a ∧ a ≤ high) :
    max low (min a high) = a := by
  rw [min_eq_left h.2, max_eq_right h.1]

theorem find?_setColorXYBrightness (t : StateTransaction) (color : XYBrightness) {key : String}
    {value : Json} (given : (SetterCall.setColorXYBrightness color).value? key = some value) :
    (t.setColorXYBrightness color).request.find? key = some value := by
  refine (@StateTransaction.find?_call t (.setColorXYBrightness color) ?_ key).trans ?_
  · simp [SetterCall.transition?]
  · rw [given]
    rfl

/-- In the ranges of the API nothing is clamped, so only the rounding matters. -/
theorem Shows.sets_iff (h : Shows state xy bri) {brightness : ℚ}
    (range : 0 ≤ stdRound (brightness * 254) ∧ stdRound (brightness * 254) ≤ 254) :
    Sets ⟨xy, brightness⟩ xy bri ↔ stdRound (brightness * 254) = bri := by
  have pair : (SetterCall.setColorXYBrightness ⟨xy, brightness⟩).value? "xy" =
      some (.arr [.num xy.x, .num xy.y]) := by
    refine Eq.trans (b := some (.arr [.num (max 0 (min xy.x 1)), .num (max 0 (min xy.y 1))]))
      rfl ?_
    rw [clamp_eq h.x_range, clamp_eq h.y_range]
  have number : (SetterCall.setColorXYBrightness ⟨xy, brightness⟩).value? "bri" =
      some (.num (stdRound (brightness * 254) : ℤ)) := by
    refine Eq.trans (b := some (.num (max 0 (min (stdRound (brightness * 254)) 254) : ℤ))) rfl ?_
    rw [clamp_eq range]
  constructor
  · intro sets
    have requested := (sets (.new Utils.acknowledgingCommands "" none)).2
    rw [find?_setColorXYBrightness _ _ number] at requested
    exact_mod_cast Json.num.inj (Option.some.inj requested)
  · intro same t
    rw [← same]
    exact ⟨find?_setColorXYBrightness t _ pair, find?_setColorXYBrightness t _ number⟩

theorem Shows.sets_div_254 (h : Shows state xy bri) : Sets ⟨xy, bri / 254⟩ xy bri := by
  have whole : (bri : ℚ) / 254 * 254 = bri := div_mul_cancel₀ _ (by norm_num)
  have rounded : stdRound ((bri : ℚ) / 254 * 254) = bri := by rw [whole, stdRound_intCast]
  rw [h.sets_iff (by rw [rounded]; exact h.bri_range)]
  exact rounded

theorem Shows.sets_div_255_iff (h : Shows state xy bri) :
    Sets ⟨xy, bri / 255⟩ xy bri ↔ bri ≤ 127 := by
  have range := h.bri_range
  have rounded := @stdRound_scale_down 254 bri (by decide) range.1 (by omega)
  norm_num at rounded
  rw [h.sets_iff (by rw [rounded]; split <;> omega), rounded]
  split <;> omega

/-- The colour that the strategy reads from a light with this state, in each of the two ways, is
set as it was. -/
structure ReadFromLight (state : Object) (xy : XY) (bri : ℤ) : Prop where
  refreshing : ∀ {read : Refresh} {w w' : World}, Returns (Light.getValue read) w state w' →
    ∃ color, Returns (SimpleColorHueStrategy.getColorXY read) w color w' ∧ Sets color xy bri
  constant : ∀ {w : World}, w.cache = state →
    ∃ color, Returns SimpleColorHueStrategy.constGetColorXY w color w ∧ Sets color xy bri

/-- The colour that is read from the state of a scene is set as it was. -/
def ReadFromScene (state : Object) (xy : XY) (bri : ℤ) : Prop :=
  ∃ color, (Scene.LightState.mk state.toJson).getXY = .ok color ∧ Sets color xy bri

theorem Shows.readFromLight (h : Shows state xy bri) : ReadFromLight state xy bri where
  refreshing {read w w'} value := by
    refine ⟨_, ?_, h.sets_div_254⟩
    rw [SimpleColorHueStrategy.getColorXY, returns_bind]
    exact ⟨state, w', value, h.result_readXY w'⟩
  constant {w} cached := by
    refine ⟨_, ?_, h.sets_div_254⟩
    rw [SimpleColorHueStrategy.constGetColorXY, returns_bind]
    refine ⟨w, w, returns_get.mpr ⟨rfl, rfl⟩, ?_⟩
    rw [cached]
    exact h.result_readXY w

/-- A colour that is read from a light is set as it was. One that is read from a scene is set as
it was exactly if its brightness is at most 127. -/
theorem color_set_back_iff (h : Shows state xy bri) :
    ReadFromLight state xy bri ∧ (ReadFromScene state xy bri ↔ bri ≤ 127) := by
  refine ⟨h.readFromLight, ?_⟩
  rw [ReadFromScene, h.getXY, ← h.sets_div_255_iff]
  constructor
  · rintro ⟨color, same, sets⟩
    rwa [Except.ok.inj same]
  · exact fun sets => ⟨_, rfl, sets⟩

end Colors

/-- A state with this brightness. -/
def litState (bri : ℤ) : Object :=
  (OrderedMap.empty.insert "bri" (.num bri)).insert "xy" (.arr [.num (1 / 2), .num (1 / 4)])

theorem shows_litState {bri : ℤ} (range : 0 ≤ bri ∧ bri ≤ 254) :
    Shows (litState bri) ⟨1 / 2, 1 / 4⟩ bri where
  color := OrderedMap.find?_insert_self _ _ _
  brightness :=
    (OrderedMap.find?_insert_ne _ _ (by decide)).trans (OrderedMap.find?_insert_self _ _ _)
  x_range := by norm_num
  y_range := by norm_num
  bri_range := range

theorem color_set_back_iff_100 :
    ReadFromLight (litState 100) ⟨1 / 2, 1 / 4⟩ 100 ∧
      (ReadFromScene (litState 100) ⟨1 / 2, 1 / 4⟩ 100 ↔ (100 : ℤ) ≤ 127) :=
  color_set_back_iff (shows_litState (by decide))

/-- A scene's brightness of 254 is set as 253. -/
theorem full_brightness_not_set_back :
    ¬ ∀ (state : Object) (xy : XY) (bri : ℤ), Shows state xy bri →
      ReadFromLight state xy bri ∧ ReadFromScene state xy bri := by
  intro claim
  have shows := @shows_litState 254 (by decide)
  obtain ⟨color, read, sets⟩ := (claim _ _ _ shows).2
  rw [shows.getXY] at read
  obtain rfl := Except.ok.inj read
  exact absurd (shows.sets_div_255_iff.mp sets) (by decide)

end ReadColor

end Hueplusplus
