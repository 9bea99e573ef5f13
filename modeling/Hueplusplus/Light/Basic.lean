import Hueplusplus.Foundation.Effect
import Hueplusplus.Light.Bridge

/-!
# Lights and their alerts

A light is the strategies its type has been given. Its cache and the light at the
bridge make up the `World` its methods run on. What the surroundings decide is an
argument: for each place that reads the cache, whether the read refreshes it, and for
each commit, the replies to its PUT and what the bridge does if they are no success.

The strategies repeat one sequence of three commits, `alertSequence`; they differ in
the commands that set the alert's colour and those that restore the old state. The
delays between the commits are left out.
-/

namespace Hueplusplus

/-- What a non-constant `getValue` of the light's cache does: return the cached value,
replace it by the bridge's first, or throw because that failed. -/
inductive Refresh where
  | fresh
  | refreshed
  | failed (e : Exception)

/-- The light's state in the cache and at the bridge. -/
structure World where
  cache : Object
  light : Object

abbrev LightM := Effect Exception World

/-- The moment a transaction is made and sent. -/
structure Occasion where
  refresh : Refresh
  commands : HueCommandAPI
  /-- The light after a PUT without a success, from the light before it and the body. The bridge
  can have taken over all of it and the reply was lost, or a part of it. -/
  unaccepted : Object → Object → Object

/-- The light after a commit. -/
def Occasion.afterCommit (o : Occasion) (light : Object) (result : CommitResult) : Object :=
  match result.outcome, result.sent with
  | .ok true, _ => Bridge.afterCommit light result
  | _, some body => o.unaccepted light body
  | _, none => light

theorem Occasion.afterCommit_of_success {o : Occasion} {light : Object} {result : CommitResult}
    (success : result.outcome = .ok true) :
    o.afterCommit light result = Bridge.afterCommit light result := by
  rw [Occasion.afterCommit, success]

/-- `operator[]` of a constant object, which must have the key, and a conversion. -/
def Object.read {α : Type} (o : Object) (key : String) (get : Json → Except Exception α) :
    LightM α :=
  match o.find? key with
  | some value => Effect.ofExcept (get value)
  | none => throw .undefinedBehaviour

inductive BrightnessStrategy where
  | simple
deriving DecidableEq

inductive ColorTemperatureStrategy where
  | simple
  | extended
deriving DecidableEq

inductive ColorHueStrategy where
  | simple
  | extended
deriving DecidableEq

structure Light where
  id : ℤ
  brightnessStrategy : Option BrightnessStrategy
  colorTemperatureStrategy : Option ColorTemperatureStrategy
  colorHueStrategy : Option ColorHueStrategy

/-- What an alert meets on its way. Extended strategies that fall back on the simple
one read the state twice. -/
structure Surroundings where
  read : Refresh
  readAgain : Refresh
  color : Occasion
  alert : Occasion
  restore : Occasion

namespace Light

/-- `state.getValue()["state"]` on a non-constant light. -/
def getValue : Refresh → LightM Object
  | .fresh => do return (← get).cache
  | .refreshed => do
    modify fun w => { w with cache := w.light }
    return (← get).cache
  | .failed e => throw e

/-- `transaction()`, the setters, and `commit()`. -/
def commitTransaction (l : Light) (o : Occasion) (setters : List SetterCall) : LightM Bool := do
  let state ← getValue o.refresh
  let transaction := StateTransaction.new o.commands ("/lights/" ++ toString l.id ++ "/state")
    (some state)
  let result := (transaction.calls setters).commit true
  modify fun w =>
    { cache := result.state.getD w.cache, light := o.afterCommit w.light result }
  Effect.ofExcept result.outcome

def getBrightness (l : Light) : LightM UInt32 := do
  if l.brightnessStrategy.isSome then
    return UInt32.ofInt (← (← get).cache.read "bri" Json.getInt)
  else return 0

def getColorHueSaturation (l : Light) : LightM HueSaturation := do
  if l.colorHueStrategy.isSome then
    let hue ← (← get).cache.read "hue" Json.getInt
    let saturation ← (← get).cache.read "sat" Json.getInt
    return ⟨hue, saturation⟩
  else return ⟨0, 0⟩

def getColorXY (l : Light) : LightM XYBrightness := do
  if l.colorHueStrategy.isSome then
    let state := (← get).cache
    let x ← state.read "xy" fun xy => do (← xy.elem 0).getFloat
    let y ← state.read "xy" fun xy => do (← xy.elem 1).getFloat
    let bri ← state.read "bri" Json.getInt
    return ⟨⟨x, y⟩, bri / 254⟩
  else return ⟨⟨0, 0⟩, 0⟩

def setColorHueSaturation (l : Light) (hueSat : HueSaturation) (transition : UInt8)
    (o : Occasion) : LightM Bool := do
  if l.colorHueStrategy.isSome then
    l.commitTransaction o [.setColorHueSaturation hueSat, .setTransition transition.toUInt16]
  else return false

def setColorXY (l : Light) (xy : XYBrightness) (transition : UInt8) (o : Occasion) :
    LightM Bool := do
  if l.colorHueStrategy.isSome then
    l.commitTransaction o [.setColorXYBrightness xy, .setTransition transition.toUInt16]
  else return false

def setColorTemperature (l : Light) (mired : UInt32) (transition : UInt8) (o : Occasion) :
    LightM Bool := do
  if l.colorTemperatureStrategy.isSome then
    l.commitTransaction o [.setColorTemperature mired, .setTransition transition.toUInt16]
  else return false

def alert (l : Light) (o : Occasion) : LightM Bool :=
  l.commitTransaction o [.alert]

/-- Set the alert's colour, alert, and commit a transaction that restores the light. -/
def alertSequence (l : Light) (env : Surroundings) (setColor : Occasion → LightM Bool)
    (restore : List SetterCall) : LightM Bool := do
  if !(← setColor env.color) then return false
  else if !(← l.alert env.alert) then return false
  else l.commitTransaction env.restore restore

end Light

namespace SimpleColorHueStrategy

def alertHueSaturation (hueSat : HueSaturation) (l : Light) (env : Surroundings)
    (read : Refresh) : LightM Bool := do
  let state ← Light.getValue read
  let cType ← state.read "colormode" Json.getString
  let on ← state.read "on" Json.getBool
  if cType = "hs" then
    let oldHueSat ← l.getColorHueSaturation
    l.alertSequence env (l.setColorHueSaturation hueSat 1)
      [.setColorHueSaturation oldHueSat, .setOn on, .setTransition 1]
  else if cType = "xy" then
    let oldXY ← l.getColorXY
    l.alertSequence env (l.setColorHueSaturation hueSat 1)
      [.setColorXYBrightness oldXY, .setOn on, .setTransition 1]
  else return false

def alertXY (xy : XYBrightness) (l : Light) (env : Surroundings) (read : Refresh) :
    LightM Bool := do
  let state ← Light.getValue read
  let cType ← state.read "colormode" Json.getString
  let on ← state.read "on" Json.getBool
  if cType = "hs" then
    let oldHueSat ← l.getColorHueSaturation
    let oldBrightness := (← l.getBrightness).toUInt8
    l.alertSequence env (l.setColorXY xy 1)
      [.setColorHueSaturation oldHueSat, .setBrightness oldBrightness, .setOn on,
        .setTransition 1]
  else if cType = "xy" then
    let oldXY ← l.getColorXY
    l.alertSequence env (l.setColorXY xy 1)
      [.setColorXYBrightness oldXY, .setOn on, .setTransition 1]
  else return false

end SimpleColorHueStrategy

namespace ExtendedColorHueStrategy

def alertHueSaturation (hueSat : HueSaturation) (l : Light) (env : Surroundings) :
    LightM Bool := do
  let state ← Light.getValue env.read
  let cType ← state.read "colormode" Json.getString
  let on ← state.read "on" Json.getBool
  if cType ≠ "ct" then
    SimpleColorHueStrategy.alertHueSaturation hueSat l env env.readAgain
  else
    let oldCT := UInt16.ofInt (← state.read "ct" Json.getInt)
    l.alertSequence env (l.setColorHueSaturation hueSat 1)
      [.setColorTemperature oldCT.toUInt32, .setOn on, .setTransition 1]

def alertXY (xy : XYBrightness) (l : Light) (env : Surroundings) : LightM Bool := do
  let state ← Light.getValue env.read
  let cType ← state.read "colormode" Json.getString
  let on ← state.read "on" Json.getBool
  if cType ≠ "ct" then
    SimpleColorHueStrategy.alertXY xy l env env.readAgain
  else
    let oldCT := UInt16.ofInt (← state.read "ct" Json.getInt)
    let oldBrightness := (← l.getBrightness).toUInt8
    l.alertSequence env (l.setColorXY xy 1)
      [.setColorTemperature oldCT.toUInt32, .setBrightness oldBrightness, .setOn on,
        .setTransition 1]

end ExtendedColorHueStrategy

def SimpleColorTemperatureStrategy.alertTemperature (mired : UInt32) (l : Light)
    (env : Surroundings) (read : Refresh) : LightM Bool := do
  let state ← Light.getValue read
  let cType ← state.read "colormode" Json.getString
  let on ← state.read "on" Json.getBool
  if cType = "ct" then
    let oldCT := UInt16.ofInt (← state.read "ct" Json.getInt)
    l.alertSequence env (l.setColorTemperature mired 1)
      [.setColorTemperature oldCT.toUInt32, .setOn on, .setTransition 1]
  else return false

def ExtendedColorTemperatureStrategy.alertTemperature (mired : UInt32) (l : Light)
    (env : Surroundings) : LightM Bool := do
  let state ← Light.getValue env.read
  let cType ← state.read "colormode" Json.getString
  let on ← state.read "on" Json.getBool
  if cType = "ct" then
    SimpleColorTemperatureStrategy.alertTemperature mired l env env.readAgain
  else if cType = "hs" then
    let oldHueSat ← l.getColorHueSaturation
    l.alertSequence env (l.setColorTemperature mired 1)
      [.setColorHueSaturation oldHueSat, .setOn on, .setTransition 1]
  else if cType = "xy" then
    let oldXy ← l.getColorXY
    l.alertSequence env (l.setColorTemperature mired 1)
      [.setColorXYBrightness oldXy, .setOn on, .setTransition 1]
  else return false

/-- A call of one of the three alerts with a colour. -/
inductive AlertCall where
  | hueSaturation (hueSat : HueSaturation)
  | xy (xy : XYBrightness)
  | temperature (mired : UInt32)

/-- Colour mode of the alert's colour. -/
def AlertCall.mode : AlertCall → String
  | .hueSaturation _ => "hs"
  | .xy _ => "xy"
  | .temperature _ => "ct"

namespace Light

def alertHueSaturation (l : Light) (hueSat : HueSaturation) (env : Surroundings) :
    LightM Bool :=
  match l.colorHueStrategy with
  | some .simple => SimpleColorHueStrategy.alertHueSaturation hueSat l env env.read
  | some .extended => ExtendedColorHueStrategy.alertHueSaturation hueSat l env
  | none => return false

def alertXY (l : Light) (xy : XYBrightness) (env : Surroundings) : LightM Bool :=
  match l.colorHueStrategy with
  | some .simple => SimpleColorHueStrategy.alertXY xy l env env.read
  | some .extended => ExtendedColorHueStrategy.alertXY xy l env
  | none => return false

def alertTemperature (l : Light) (mired : UInt32) (env : Surroundings) : LightM Bool :=
  match l.colorTemperatureStrategy with
  | some .simple => SimpleColorTemperatureStrategy.alertTemperature mired l env env.read
  | some .extended => ExtendedColorTemperatureStrategy.alertTemperature mired l env
  | none => return false

def alertWith (l : Light) (env : Surroundings) : AlertCall → LightM Bool
  | .hueSaturation hueSat => l.alertHueSaturation hueSat env
  | .xy xy => l.alertXY xy env
  | .temperature mired => l.alertTemperature mired env

end Light

namespace LightFactory

/-- Strategies of the lights `createLight` makes, by type. -/
inductive LightType where
  | onOff
  | dimmable
  | colorTemperature
  | color
  | extendedColor
deriving DecidableEq

def createLight (id : ℤ) : LightType → Light
  | .onOff => ⟨id, none, none, none⟩
  | .dimmable => ⟨id, some .simple, none, none⟩
  | .colorTemperature => ⟨id, some .simple, some .simple, none⟩
  | .color => ⟨id, some .simple, none, some .simple⟩
  | .extendedColor => ⟨id, some .simple, some .extended, some .extended⟩

end LightFactory

end Hueplusplus
