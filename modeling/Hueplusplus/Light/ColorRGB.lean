import Hueplusplus.Bridge.Lists
import Hueplusplus.ColorUnits.ToXY
import Hueplusplus.Light.Alert
import Hueplusplus.Light.Brightness
import Hueplusplus.Light.ReadColor
import Hueplusplus.StateTransaction.Again

/-!
# Colours of a screen on a light

The factory chooses a colour type for a light, from its capabilities or from its model. The type
gives the gamut that `setColorRGB` corrects a colour by before it is set like any other. What is
read back afterwards has lost nothing of the brightest channel, except where two roundings meet:
the brightness goes from 255 steps to 254 and back.
-/

namespace Hueplusplus

open Effect

namespace Json

/-- `at` by index. -/
def atElem : Json → ℕ → Except Exception Json
  | .arr elems, i =>
    match elems[i]? with
    | some value => .ok value
    | none => .error (.jsonException 401)
  | _, _ => .error (.jsonException 304)

end Json

/-- Whether a light has a gamut, which one, and whether it also has a temperature. -/
inductive ColorType where
  | undefined
  | none
  | gamutA
  | gamutB
  | gamutC
  | temperature
  | gamutATemperature
  | gamutBTemperature
  | gamutCTemperature
  | gamutOther
  | gamutOtherTemperature
deriving DecidableEq

/-- A light with the colour type that the factory gave it. -/
structure TypedLight extends Light where
  colorType : ColorType

/-- What the state of a light says about its control. -/
def capability (lightState : Json) (key : String) : Json :=
  (lightState.follow ["capabilities", "control", key]).getD .null

namespace LightFactory

def gamutBTypes : List String := ["LCT001", "LCT002", "LCT003", "LCT007", "LLM001"]

def gamutCTypes : List String :=
  ["LCT010", "LCT011", "LCT012", "LCT014", "LCT015", "LCT016", "LLC020", "LST002", "LCA003",
    "LCB001"]

def gamutATypes : List String :=
  ["LST001", "LLC005", "LLC006", "LLC007", "LLC010", "LLC011", "LLC012", "LLC013", "LLC014"]

def capabilityColorType (gamut : String) (hasCt : Bool) : ColorType :=
  if gamut = "A" then if hasCt then .gamutATemperature else .gamutA
  else if gamut = "B" then if hasCt then .gamutBTemperature else .gamutB
  else if gamut = "C" then if hasCt then .gamutCTemperature else .gamutC
  -- Only other type is "Other" which does not have an enum value
  else if hasCt then .gamutOtherTemperature else .gamutOther

def modelColorType (modelid : String) (hasCt : Bool) : ColorType :=
  if modelid ∈ gamutATypes then if hasCt then .gamutATemperature else .gamutA
  else if modelid ∈ gamutBTypes then if hasCt then .gamutBTemperature else .gamutB
  else if modelid ∈ gamutCTypes then if hasCt then .gamutCTemperature else .gamutC
  else .undefined

def getColorType (lightState : Json) (hasCt : Bool) : Except Exception ColorType := do
  match capability lightState "colorgamuttype" with
  | .str gamut => return capabilityColorType gamut hasCt
  | _ =>
    -- Old version without capabilities, fall back to hardcoded types
    let modelid ← (← lightState.at' "modelid").getString
    return modelColorType modelid hasCt

/-- `createLight`, with the colour type of the light. -/
def createTypedLight (lightState : Json) (id : ℤ) : Except Exception TypedLight := do
  match lightType? (← typeName lightState) with
  | some .onOff => return { createLight id .onOff with colorType := .none }
  | some .dimmable => return { createLight id .dimmable with colorType := .none }
  | some .colorTemperature =>
    return { createLight id .colorTemperature with colorType := .temperature }
  | some .color =>
    let colorType ← getColorType lightState false
    return { createLight id .color with colorType }
  | some .extendedColor =>
    let colorType ← getColorType lightState true
    return { createLight id .extendedColor with colorType }
  | none => throw (.hueException "Could not determine Light type!")

end LightFactory

namespace TypedLight

/-- `getColorGamut`, with what the constant `getValue` of the light's cache comes to. -/
def getColorGamut (l : TypedLight) (value : Except Exception Json) :
    Except Exception ColorGamut := do
  match l.colorType with
  | .gamutA | .gamutATemperature => return .gamutA
  | .gamutB | .gamutBTemperature => return .gamutB
  | .gamutC | .gamutCTemperature => return .gamutC
  | .undefined => return .maxGamut
  | .gamutOther | .gamutOtherTemperature | .none | .temperature =>
    match capability (← value) "colorgamut" with
    | .arr [red, green, blue] =>
      let corner (json : Json) : Except Exception XY := do
        let x ← (← json.atElem 0).getFloat
        let y ← (← json.atElem 1).getFloat
        return ⟨x, y⟩
      return ⟨← corner red, ← corner green, ← corner blue⟩
    -- Unknown or no color light
    | _ => return .maxGamut

def setColorRGB (pow : ℚ → ℚ → ℚ) (l : TypedLight) (value : Except Exception Json) (rgb : RGB)
    (transition : UInt8) (o : Occasion) : LightM Bool := do
  if l.colorHueStrategy.isSome then
    let gamut ← Effect.ofExcept (l.getColorGamut value)
    let xy ← Effect.ofExcept (RGB.toXYInGamut pow rgb gamut)
    l.setColorXY xy transition o
  else return false

/-- The colour types of lights with a gamut of the library, or with none that is known. -/
def HasGamut (colorType : ColorType) : Prop :=
  colorType ∈ [.undefined, .gamutA, .gamutB, .gamutC, .gamutATemperature, .gamutBTemperature,
    .gamutCTemperature]

theorem getColorGamut_predefined {l : TypedLight} (known : HasGamut l.colorType)
    (value : Except Exception Json) :
    ∃ gamut ∈ RGB.predefinedGamuts, l.getColorGamut value = .ok gamut := by
  unfold getColorGamut
  cases colorType : l.colorType <;> simp_all [HasGamut, RGB.predefinedGamuts]

end TypedLight

namespace LightFactory

theorem getColorType_cases {lightState : Json} {hasCt : Bool} {colorType : ColorType}
    (h : getColorType lightState hasCt = .ok colorType) :
    TypedLight.HasGamut colorType ∨ colorType = .gamutOther ∨
      colorType = .gamutOtherTemperature := by
  unfold getColorType at h
  split at h
  · rw [← Except.ok.inj h, capabilityColorType]
    split_ifs <;> simp [TypedLight.HasGamut]
  · obtain ⟨_, -, h⟩ := Except.bind_eq_ok_iff.mp h
    obtain ⟨_, -, h⟩ := Except.bind_eq_ok_iff.mp h
    rw [← Except.ok.inj h, modelColorType]
    split_ifs <;> simp [TypedLight.HasGamut]

/-- A light with control of its colour has a gamut of the library, or one that its state gives. -/
theorem createTypedLight_colored {lightState : Json} {id : ℤ} {l : TypedLight}
    (created : createTypedLight lightState id = .ok l) (colored : l.colorHueStrategy.isSome) :
    TypedLight.HasGamut l.colorType ∨
      l.colorType = .gamutOther ∨ l.colorType = .gamutOtherTemperature := by
  obtain ⟨type, -, created⟩ := Except.bind_eq_ok_iff.mp created
  split at created
  case h_4 | h_5 =>
    obtain ⟨colorType, chosen, created⟩ := Except.bind_eq_ok_iff.mp created
    rw [← Except.ok.inj created]
    exact getColorType_cases chosen
  case h_6 => cases created
  all_goals
    rw [← Except.ok.inj created] at colored
    cases colored

end LightFactory

section ReadBack

open Sync StateTransaction ReadColor

/-- The cached state shows a colour that was set, the coordinates up to what single precision
takes for equal. -/
theorem Light.setColorXY_cached {l : Light} {w w' : World} {color : XYBrightness}
    {transition : UInt8} {o : Occasion} (colored : l.colorHueStrategy.isSome)
    (cache : WellTyped w.cache) (light : WellTyped w.light)
    (success : Returns (l.setColorXY color transition o) w true w') :
    ∃ x y, w'.cache.find? "xy" = some (.arr [.num x, .num y]) ∧
      |x - max 0 (min color.xy.x 1)| ≤ 501 / 5000000 ∧
      |y - max 0 (min color.xy.y 1)| ≤ 501 / 5000000 ∧
      w'.cache.find? "bri" =
        some (.num (max 0 (min (stdRound (color.brightness * 254)) 254) : ℤ)) := by
  rw [Light.setColorXY, if_pos colored] at success
  obtain ⟨accepted, rfl⟩ := returns_commitTransaction (s := ⟨w.cache, w.light, .empty⟩) success
  generalize before : State.read ⟨w.cache, w.light, .empty⟩ o.refresh = s at *
  have typed : WellTyped s.cache := by
    rw [← before]
    cases o.refresh with
    | fresh | failed e => exact cache
    | refreshed => exact light
  obtain ⟨after, stored, follows⟩ := follows_of_accepted typed accepted
  have shown : (system.step s (l.update o [.setColorXYBrightness color,
      .setTransition transition.toUInt16])).cache = after := by
    simp only [system, stored, Option.getD_some]
  rw [shown]
  have requested : ∀ {key : String} {value : Json},
      (SetterCall.setColorXYBrightness color).value? key = some value →
      key ≠ "transitiontime" → ((l.update o [.setColorXYBrightness color,
        .setTransition transition.toUInt16]).request s.cache).find? key = some value :=
    fun given other => (find?_setTransition _ _ other).trans (find?_setColorXYBrightness _ _ given)
  obtain ⟨bri, bright, same⟩ := follows.shown typed (by decide)
    (@requested "bri" _ rfl (by decide))
  obtain ⟨xy, colored, close⟩ := follows.shown typed (by decide)
    (@requested "xy" _ rfl (by decide))
  rw [if_neg (by decide)] at same
  rw [if_pos rfl] at close
  rw [bright, same]
  rcases close with same | ⟨x, y, x', y', current, value, hx, hy⟩
  · refine ⟨_, _, colored.trans same, ?_, ?_, rfl⟩ <;> norm_num
  · simp only [Option.some.injEq, Json.arr.injEq, List.cons.injEq, Json.num.injEq, and_true]
      at value
    obtain ⟨rfl, rfl⟩ := value
    obtain ⟨x_low, x_high⟩ := clamp_bounds (zero_le_one' ℚ) color.xy.x
    obtain ⟨y_low, y_high⟩ := clamp_bounds (zero_le_one' ℚ) color.xy.y
    exact ⟨x, y, colored.trans current, Utils.abs_sub_le_of_floatEquals hx x_low x_high,
      Utils.abs_sub_le_of_floatEquals hy y_low y_high, rfl⟩

theorem fromXY_of_254 {pow : ℚ → ℚ → ℚ} (root : RGB.Root pow) {xy : XY}
    (convertible : RGB.Convertible xy) {bri : ℤ} (range : 0 ≤ bri ∧ bri ≤ 254) :
    ∃ rgb, RGB.fromXY pow ⟨xy, bri / 254⟩ = .ok rgb ∧
      (rgb.brightest : ℤ) = if 2 * bri < 254 then bri else bri + 1 := by
  have low : (0 : ℚ) ≤ bri := by exact_mod_cast range.1
  have high : (bri : ℚ) ≤ 254 := by exact_mod_cast range.2
  have rounded := @stdRound_scale_up 254 bri (by decide) range.1 range.2
  norm_num at rounded
  rw [← rounded]
  exact RGB.fromXY_brightest root convertible (by positivity)
    ((div_le_one (by norm_num)).mpr high)

theorem Light.returns_getColorXY {l : Light} (colored : l.colorHueStrategy.isSome) {w : World}
    {xy : XY} {bri : ℤ} (shows : Shows w.cache xy bri) :
    Returns l.getColorXY w ⟨xy, bri / 254⟩ w := by
  rw [getColorXY_eq, if_pos colored, SimpleColorHueStrategy.constGetColorXY, returns_bind]
  exact ⟨w, w, returns_get.mpr ⟨rfl, rfl⟩, shows.result_readXY w⟩

namespace TypedLight

variable {pow : ℚ → ℚ → ℚ} {l : TypedLight}

/-- With a gamut of the library, a colour of a screen is converted and set like any other. -/
theorem setColorRGB_eq (positive : RGB.Positive pow) (colored : l.colorHueStrategy.isSome)
    (known : HasGamut l.colorType) (value : Except Exception Json) (rgb : RGB)
    (transition : UInt8) (o : Occasion) :
    ∃ xy, RGB.InRange xy ∧ l.setColorRGB pow value rgb transition o =
      l.setColorXY ⟨xy, rgb.brightest / 255⟩ transition o := by
  obtain ⟨gamut, predefined, chosen⟩ := getColorGamut_predefined known value
  obtain ⟨xy, converted, inRange⟩ := RGB.toXYInGamut_returns positive rgb predefined
  refine ⟨xy, inRange, ?_⟩
  rw [setColorRGB, if_pos colored, chosen]
  change (Effect.ofExcept (RGB.toXYInGamut pow rgb gamut) >>= fun xy =>
    l.setColorXY xy transition o) = _
  rw [converted]
  rfl

/-- A colour of a screen that a light of the factory has been set to is read back and converted
to one with the same value of the brightest channel, but 127 comes back as 128. This holds for
every gamut of the library, whatever the cache shows that the request is trimmed by. -/
theorem setColorRGB_read_back (positive : RGB.Positive pow) (root : RGB.Root pow)
    {lightState : Json} {id : ℤ} (created : LightFactory.createTypedLight lightState id = .ok l)
    (colored : l.colorHueStrategy.isSome)
    (notOther : l.colorType ≠ .gamutOther ∧ l.colorType ≠ .gamutOtherTemperature)
    {w w' : World} (cache : WellTyped w.cache) (light : WellTyped w.light)
    {value : Except Exception Json} {rgb : RGB} {transition : UInt8} {o : Occasion}
    (success : Returns (l.setColorRGB pow value rgb transition o) w true w') :
    ∃ xy back, Returns l.getColorXY w' xy w' ∧ RGB.fromXY pow xy = .ok back ∧
      back.brightest = if rgb.brightest = 127 then 128 else rgb.brightest := by
  have known : HasGamut l.colorType := by
    rcases LightFactory.createTypedLight_colored created colored with known | other | other
    · exact known
    · exact absurd other notOther.1
    · exact absurd other notOther.2
  obtain ⟨xy, inRange, same⟩ := setColorRGB_eq positive colored known value rgb transition o
  rw [same] at success
  obtain ⟨x, y, color, hx, hy, bright⟩ := Light.setColorXY_cached colored cache light success
  have small : (rgb.brightest : ℤ) ≤ 255 := by exact_mod_cast rgb.brightest_le
  have sent := @stdRound_scale_down 254 rgb.brightest (by decide) (Int.natCast_nonneg _) small
  norm_num at sent
  have range : 0 ≤ stdRound ((rgb.brightest : ℚ) / 255 * 254) ∧
      stdRound ((rgb.brightest : ℚ) / 255 * 254) ≤ 254 := by
    rw [sent]
    split <;> omega
  rw [clamp_eq range] at bright
  rw [inRange.clamp.1] at hx
  rw [inRange.clamp.2] at hy
  have convertible : RGB.Convertible ⟨x, y⟩ := inRange.convertible_of_close hx hy
  have shows : Shows w'.cache ⟨x, y⟩ (stdRound ((rgb.brightest : ℚ) / 255 * 254)) :=
    ⟨color, bright, ⟨convertible.1, convertible.2.1⟩,
      ⟨le_trans (by norm_num) convertible.2.2.1, convertible.2.2.2⟩, range⟩
  obtain ⟨back, returned, brightest⟩ := fromXY_of_254 root convertible range
  refine ⟨_, back, Light.returns_getColorXY colored shows, returned, ?_⟩
  rw [sent] at brightest
  split_ifs at brightest ⊢ <;> omega

/-- A light without capabilities, whose model gives the gamut. -/
def oldLight : Json := .obj [("modelid", .str "LCT001"), ("type", .str "Extended color light")]

theorem createTypedLight_oldLight : LightFactory.createTypedLight oldLight 1 =
    .ok { LightFactory.createLight 1 .extendedColor with colorType := .gamutBTemperature } := by
  have lower : "Extended color light".map Char.toLower = "extended color light" := by
    rw [← String.toList_inj]
    simp
  have type : LightFactory.lightType? "Extended color light" = some .extendedColor := by
    rw [LightFactory.lightType?, lower]
    rfl
  have name : LightFactory.typeName oldLight = .ok "Extended color light" := rfl
  rw [LightFactory.createTypedLight, name, Except.ok_bind, type]
  rfl

theorem setColorRGB_read_back_grey :
    let l : TypedLight :=
      { LightFactory.createLight 1 .extendedColor with colorType := .gamutBTemperature }
    ∃ w' xy back, Returns l.getColorXY w' xy w' ∧
      RGB.fromXY RGB.roughPow xy = .ok back ∧ back.brightest = 128 := by
  intro l
  let o : Occasion := ⟨.fresh, Utils.acknowledgingCommands, fun light _ => light⟩
  have typed : WellTyped temperatureLight := by decide +kernel
  have success : (result (l.setColorRGB RGB.roughPow (.ok oldLight) ⟨127, 127, 127⟩ 4 o)
      ⟨temperatureLight, temperatureLight⟩).1 = .ok true := by
    decide +kernel
  exact ⟨_, setColorRGB_read_back RGB.positive_roughPow RGB.root_roughPow
    createTypedLight_oldLight rfl (by decide) typed typed (Prod.ext success rfl)⟩

end TypedLight

end ReadBack

end Hueplusplus
