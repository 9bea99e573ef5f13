import Hueplusplus.Light.ColorRGB

/-!
# The calls on a light

A program calls the methods of a light in any order: commands, alerts with a colour, and getters.
A command commits one setter with its transition. Getters of a constant light only look at the
cache, the others may refresh it first, and two of them add a member that is not there.
-/

namespace Hueplusplus

open Effect StateTransaction Sync

namespace Light

/-- `state.getValue()["state"][key]` of a light that is not constant: a missing member is added. -/
def stateMember (read : Refresh) (key : String) : LightM Json := do
  let state ← getValue read
  match state.find? key with
  | some value => return value
  | none =>
    modify fun w => { w with cache := w.cache.insert key .null }
    return .null

def isOn (read : Refresh) : LightM Bool := do
  let state ← getValue read
  Effect.ofExcept do (← Json.at' state.toJson "on").getBool

/-- `isOn` of a constant light. -/
def constIsOn : LightM Bool := do
  let state := (← get).cache
  Effect.ofExcept do (← Json.at' state.toJson "on").getBool

/-- `getColorTemperature` of a constant light. -/
def getColorTemperature (l : Light) : LightM UInt32 := do
  if l.colorTemperatureStrategy.isSome then
    return UInt32.ofInt (← (← get).cache.read "ct" Json.getInt)
  else return 0

end Light

def SimpleBrightnessStrategy.getBrightness (read : Refresh) : LightM UInt32 := do
  let bri ← Light.stateMember read "bri"
  return UInt32.ofInt (← Effect.ofExcept bri.getInt)

def SimpleColorTemperatureStrategy.getColorTemperature (read : Refresh) : LightM UInt32 := do
  let ct ← Light.stateMember read "ct"
  return UInt32.ofInt (← Effect.ofExcept ct.getInt)

def SimpleColorHueStrategy.getColorHueSaturation (read : Refresh) : LightM HueSaturation := do
  let state ← Light.getValue read
  let hue ← state.read "hue" Json.getInt
  let saturation ← state.read "sat" Json.getInt
  return ⟨hue, saturation⟩

namespace Light

inductive Query where
  | isOn
  | brightness
  | colorTemperature
  | colorHueSaturation
  | colorXY

/-- What a getter returns. -/
inductive Reading where
  | flag (on : Bool)
  | number (n : UInt32)
  | hueSaturation (hueSat : HueSaturation)
  | xy (xy : XYBrightness)

namespace Query

/-- The getter of a light that is not constant. -/
def ask (l : Light) (read : Refresh) : Query → LightM Reading
  | isOn => return .flag (← Light.isOn read)
  | brightness => do
    if l.brightnessStrategy.isSome then
      return .number (← SimpleBrightnessStrategy.getBrightness read)
    else return .number 0
  | colorTemperature => do
    if l.colorTemperatureStrategy.isSome then
      return .number (← SimpleColorTemperatureStrategy.getColorTemperature read)
    else return .number 0
  | colorHueSaturation => do
    if l.colorHueStrategy.isSome then
      return .hueSaturation (← SimpleColorHueStrategy.getColorHueSaturation read)
    else return .hueSaturation ⟨0, 0⟩
  | colorXY => do
    if l.colorHueStrategy.isSome then
      return .xy (← SimpleColorHueStrategy.getColorXY read)
    else return .xy ⟨⟨0, 0⟩, 0⟩

/-- The getter of a constant light. -/
def constAsk (l : Light) : Query → LightM Reading
  | isOn => return .flag (← Light.constIsOn)
  | brightness => return .number (← l.getBrightness)
  | colorTemperature => return .number (← l.getColorTemperature)
  | colorHueSaturation => return .hueSaturation (← l.getColorHueSaturation)
  | colorXY => return .xy (← l.getColorXY)

/-- The attributes a getter looks at. -/
def reads : Query → List String
  | isOn => ["on"]
  | brightness => ["bri"]
  | colorTemperature => ["ct"]
  | colorHueSaturation => ["hue", "sat"]
  | colorXY => ["xy", "bri"]

end Query

variable (l : Light) (transition : UInt8) (o : Occasion)

def on : LightM Bool :=
  l.commitTransaction o [.setOn true, .setTransition transition.toUInt16]

def off : LightM Bool :=
  l.commitTransaction o [.setOn false, .setTransition transition.toUInt16]

def setColorHue (hue : UInt16) : LightM Bool :=
  if l.colorHueStrategy.isSome then
    l.commitTransaction o [.setColorHue hue, .setTransition transition.toUInt16]
  else return false

def setColorSaturation (sat : UInt8) : LightM Bool :=
  if l.colorHueStrategy.isSome then
    l.commitTransaction o [.setColorSaturation sat, .setTransition transition.toUInt16]
  else return false

def setColorLoop (on : Bool) : LightM Bool :=
  if l.colorHueStrategy.isSome then l.commitTransaction o [.setColorLoop on]
  else return false

end Light

namespace TypedLight

/-- A call of a method that makes one transaction. -/
inductive Command where
  | on (transition : UInt8)
  | off (transition : UInt8)
  | setBrightness (bri : UInt32) (transition : UInt8)
  | setColorTemperature (mired : UInt32) (transition : UInt8)
  | setColorHue (hue : UInt16) (transition : UInt8)
  | setColorSaturation (sat : UInt8) (transition : UInt8)
  | setColorHueSaturation (hueSat : HueSaturation) (transition : UInt8)
  | setColorXY (xy : XYBrightness) (transition : UInt8)
  /-- With the value of the light's cache, for its gamut. -/
  | setColorRGB (value : Except Exception Json) (rgb : RGB) (transition : UInt8)
  | setColorLoop (on : Bool)
  | alert

namespace Command

variable (pow : ℚ → ℚ → ℚ) (l : TypedLight)

def run (o : Occasion) : Command → LightM Bool
  | on transition => l.on transition o
  | off transition => l.off transition o
  | setBrightness bri transition => l.setBrightness bri transition o
  | setColorTemperature mired transition => l.setColorTemperature mired transition o
  | setColorHue hue transition => l.setColorHue transition o hue
  | setColorSaturation sat transition => l.setColorSaturation transition o sat
  | setColorHueSaturation hueSat transition => l.setColorHueSaturation hueSat transition o
  | setColorXY xy transition => l.setColorXY xy transition o
  | setColorRGB value rgb transition => l.setColorRGB pow value rgb transition o
  | setColorLoop flag => l.setColorLoop o flag
  | alert => l.alert o

/-- What a command sets, the transition apart. -/
def setter : Command → Except Exception SetterCall
  | on _ => .ok (.setOn true)
  | off _ => .ok (.setOn false)
  | setBrightness bri _ => .ok (.setBrightness bri.toUInt8)
  | setColorTemperature mired _ => .ok (.setColorTemperature mired)
  | setColorHue hue _ => .ok (.setColorHue hue)
  | setColorSaturation sat _ => .ok (.setColorSaturation sat)
  | setColorHueSaturation hueSat _ => .ok (.setColorHueSaturation hueSat)
  | setColorXY xy _ => .ok (.setColorXYBrightness xy)
  | setColorRGB value rgb _ => do
    let gamut ← l.getColorGamut value
    let xy ← RGB.toXYInGamut pow rgb gamut
    return .setColorXYBrightness xy
  | setColorLoop flag => .ok (.setColorLoop flag)
  | alert => .ok .alert

end Command

inductive Event where
  | command (command : Command) (o : Occasion)
  | alert (call : AlertCall) (env : Surroundings)
  | query (query : Light.Query) (read : Refresh)

/-- What a call leaves of the cache and the light. -/
def Event.run (pow : ℚ → ℚ → ℚ) (l : TypedLight) (w : World) : Event → World
  | command c o => (result (c.run pow l o) w).2
  | alert call env => (result (l.alertWith env call) w).2
  | query q read => (result (q.ask l.toLight read) w).2

end TypedLight

/-- The attributes that a light has for its strategies, where a getter can add them. -/
def Light.controls (l : Light) : List String :=
  (if l.brightnessStrategy.isSome then ["bri"] else []) ++
    if l.colorTemperatureStrategy.isSome then ["ct"] else []

/-- A PUT without a success can change the light all the same, but only in the attributes
`unsure`, and they keep their types. -/
structure Occasion.Confined (unsure : List String) (o : Occasion) : Prop where
  typed : ∀ light body, WellTyped light → WellTyped body → WellTyped (o.unaccepted light body)
  kept : ∀ light body key, (light.find? key).isSome →
    ((o.unaccepted light body).find? key).isSome
  others : ∀ light body, ∀ key ∈ Bridge.absoluteKeys, key ∉ unsure →
    (o.unaccepted light body).find? key = light.find? key

structure Surroundings.Confined (unsure : List String) (env : Surroundings) : Prop where
  color : env.color.Confined unsure
  alert : env.alert.Confined unsure
  restore : env.restore.Confined unsure

namespace TypedLight

def Event.Confined (unsure : List String) : Event → Prop
  | command _ o => o.Confined unsure
  | alert _ env => env.Confined unsure
  | query _ _ => True

/-- Runs of a light that nobody else changes, from when the cache equals it. -/
def system (pow : ℚ → ℚ → ℚ) (l : TypedLight) (unsure : List String) : System World Event where
  init w := w.cache = w.light ∧ WellTyped w.light ∧
    ∀ key ∈ l.controls, (w.light.find? key).isSome
  admissible _ event := event.Confined unsure
  step w event := event.run pow l w

end TypedLight

/-- The setter gives values to attributes, and increments none. -/
def SetterCall.isAbsolute : SetterCall → Bool
  | .incrementBrightness _ | .incrementSaturation _ | .incrementHue _
  | .incrementColorTemperature _ | .incrementColorXY _ _ => false
  | _ => true

namespace TypedLight

namespace Command

/-- What running a command comes to. -/
inductive Runs (pow : ℚ → ℚ → ℚ) (l : TypedLight) (command : Command) : Prop where
  | unsupported (run : ∀ o, command.run pow l o = pure false)
  /-- Its colour cannot be converted. -/
  | failed (e : Exception) (run : ∀ o, command.run pow l o = throw e)
  | commits (setter : SetterCall) (more : List SetterCall)
    (run : ∀ o, command.run pow l o = l.commitTransaction o (setter :: more))
    (sets : command.setter pow l = .ok setter) (absolute : setter.isAbsolute)
    (plain : setter.transition? = none)
    (transition : more = [] ∨ ∃ transition, more = [.setTransition transition])

/-- The colour is converted before anything is sent. -/
theorem setColorRGB_cases (pow : ℚ → ℚ → ℚ) {l : TypedLight} (control : l.colorHueStrategy.isSome)
    (value : Except Exception Json) (rgb : RGB) (transition : UInt8) :
    (∃ e, ∀ o, l.setColorRGB pow value rgb transition o = throw e) ∨
      ∃ xy, setter pow l (.setColorRGB value rgb transition) = .ok (.setColorXYBrightness xy) ∧
        ∀ o, l.setColorRGB pow value rgb transition o = l.setColorXY xy transition o := by
  have unfolded : ∀ o, l.setColorRGB pow value rgb transition o =
      Effect.ofExcept (l.getColorGamut value) >>= fun gamut =>
        Effect.ofExcept (RGB.toXYInGamut pow rgb gamut) >>= fun xy =>
          l.setColorXY xy transition o := fun _ => if_pos control
  cases known : l.getColorGamut value with
  | error e =>
      refine .inl ⟨e, fun o => ?_⟩
      rw [unfolded, known]
      rfl
  | ok gamut =>
      have chosen : ∀ o, l.setColorRGB pow value rgb transition o =
          Effect.ofExcept (RGB.toXYInGamut pow rgb gamut) >>= fun xy =>
            l.setColorXY xy transition o := fun o => by
        rw [unfolded, known]
        rfl
      cases converted : RGB.toXYInGamut pow rgb gamut with
      | error e =>
          refine .inl ⟨e, fun o => ?_⟩
          rw [chosen, converted]
          rfl
      | ok xy =>
          refine .inr ⟨xy, ?_, fun o => ?_⟩
          · rw [setter, known, Except.ok_bind, converted]
            rfl
          · rw [chosen, converted]
            rfl

theorem runs (pow : ℚ → ℚ → ℚ) (l : TypedLight) (command : Command) : Runs pow l command := by
  cases command with
  | on | off => exact .commits _ _ (fun _ => rfl) rfl rfl rfl (.inr ⟨_, rfl⟩)
  | alert => exact .commits _ _ (fun _ => rfl) rfl rfl rfl (.inl rfl)
  | setBrightness bri transition =>
      have run : ∀ o, Command.run pow l o (.setBrightness bri transition) =
          l.setBrightness bri transition o := fun _ => rfl
      cases control : l.brightnessStrategy with
      | none => exact .unsupported fun o => by rw [run, Light.setBrightness, control]
      | some strategy =>
          cases strategy
          refine .commits (.setBrightness bri.toUInt8) [.setTransition transition.toUInt16]
            (fun o => ?_) rfl rfl rfl (.inr ⟨_, rfl⟩)
          rw [run, Light.setBrightness, control]
          rfl
  | setColorTemperature =>
      by_cases control : l.colorTemperatureStrategy.isSome
      · exact .commits _ _ (fun _ => if_pos control) rfl rfl rfl (.inr ⟨_, rfl⟩)
      · exact .unsupported fun _ => if_neg control
  | setColorHue | setColorSaturation | setColorHueSaturation | setColorXY =>
      by_cases control : l.colorHueStrategy.isSome
      · exact .commits _ _ (fun _ => if_pos control) rfl rfl rfl (.inr ⟨_, rfl⟩)
      · exact .unsupported fun _ => if_neg control
  | setColorLoop =>
      by_cases control : l.colorHueStrategy.isSome
      · exact .commits _ _ (fun _ => if_pos control) rfl rfl rfl (.inl rfl)
      · exact .unsupported fun _ => if_neg control
  | setColorRGB value rgb transition =>
      by_cases control : l.colorHueStrategy.isSome
      · rcases setColorRGB_cases pow control value rgb transition with
          ⟨e, run⟩ | ⟨xy, sets, run⟩
        · exact .failed e run
        · exact .commits _ _ (fun o => (run o).trans (if_pos control)) sets rfl rfl
            (.inr ⟨_, rfl⟩)
      · exact .unsupported fun _ => if_neg control

end Command

end TypedLight

/-- Two states of a light have the same values of these attributes. -/
def SameAttributes (keys : List String) (a b : Object) : Prop :=
  ∀ key ∈ keys, a.find? key = b.find? key

/-- The computation changes nothing, and what it returns depends on these attributes of the cached
state. -/
structure Observes {α : Type} (keys : List String) (x : LightM α) : Prop where
  state : ∀ w, (result x w).2 = w
  outcome : ∀ w w', SameAttributes keys w.cache w'.cache → (result x w).1 = (result x w').1

namespace Observes

variable {α β : Type} {keys : List String}

theorem pure (a : α) : Observes keys (pure a : LightM α) := ⟨fun _ => rfl, fun _ _ _ => rfl⟩

theorem ofExcept (x : Except Exception α) : Observes keys (Effect.ofExcept x : LightM α) :=
  ⟨fun _ => rfl, fun _ _ _ => rfl⟩

theorem throw (e : Exception) : Observes keys (throw e : LightM α) :=
  ⟨fun _ => rfl, fun _ _ _ => rfl⟩

theorem bind {x : LightM α} {f : α → LightM β} (first : Observes keys x)
    (second : ∀ a, Observes keys (f a)) : Observes keys (x >>= f) := by
  have left (w : World) : result (x >>= f) w =
      match (result x w).1 with
      | .ok a => result (f a) w
      | .error e => (.error e, w) := by
    have same := first.state w
    rw [result_bind]
    cases ran : result x w with
    | mk outcome t =>
        rw [ran] at same
        obtain rfl : t = w := same
        cases outcome <;> rfl
  refine ⟨fun w => ?_, fun w w' same => ?_⟩
  · rw [left]
    cases (result x w).1 with
    | error e => rfl
    | ok a => exact (second a).state w
  · rw [left, left, first.outcome w w' same]
    cases (result x w').1 with
    | error e => rfl
    | ok a => exact (second a).outcome w w' same

/-- What is done with the cache depends on its attributes. -/
theorem get {f : World → LightM α} (second : ∀ w, Observes keys (f w))
    (same : ∀ w w', SameAttributes keys w.cache w'.cache → f w = f w') :
    Observes keys (get >>= f) where
  state w := (second w).state w
  outcome w w' agree := by
    change (result (f w) w).1 = (result (f w') w').1
    rw [same w w' agree]
    exact (second w').outcome w w' agree

theorem ite {p : Prop} [Decidable p] {x y : LightM α} (first : Observes keys x)
    (second : Observes keys y) : Observes keys (if p then x else y) := by
  split
  · exact first
  · exact second

theorem read (state : Object) (key : String) (get : Json → Except Exception α) :
    Observes keys (state.read key get) := by
  rw [Object.read]
  cases state.find? key with
  | none => exact throw _
  | some value => exact ofExcept _

/-- An attribute of the cached state. -/
theorem member (key : String) (get : Json → Except Exception α)
    (listed : key ∈ keys) {f : α → LightM β} (second : ∀ a, Observes keys (f a)) :
    Observes keys (do f (← (← MonadState.get).cache.read key get)) :=
  Observes.get (fun w => (read w.cache key get).bind second) fun w w' same => by
    simp only [Object.read, same key listed]

theorem readXY (state : Object) : Observes keys (SimpleColorHueStrategy.readXY state) :=
  (read state "xy" _).bind fun _ => (read state "xy" _).bind fun _ =>
    (read state "bri" _).bind fun _ => pure _

variable (l : Light)

theorem constIsOn : Observes ["on"] Light.constIsOn := by
  refine get (fun w => ofExcept _) fun w w' same => ?_
  have found : Json.at' w.cache.toJson "on" = Json.at' w'.cache.toJson "on" := by
    change (match w.cache.find? "on" with
      | some value => _
      | none => _) = _
    rw [same "on" (by decide)]
    rfl
  simp only [found]

theorem getBrightness (bri : "bri" ∈ keys) : Observes keys l.getBrightness :=
  ite (member "bri" _ bri fun _ => pure _) (pure _)

theorem getColorTemperature : Observes ["ct"] l.getColorTemperature :=
  ite (member "ct" _ (by decide) fun _ => pure _) (pure _)

theorem getColorHueSaturation (hue : "hue" ∈ keys) (sat : "sat" ∈ keys) :
    Observes keys l.getColorHueSaturation :=
  ite (member "hue" _ hue fun _ => member "sat" _ sat fun _ => pure _) (pure _)

theorem getColorXY (xy : "xy" ∈ keys) (bri : "bri" ∈ keys) : Observes keys l.getColorXY := by
  refine ite (get (fun w => readXY w.cache) fun w w' same => ?_) (pure _)
  simp only [Object.read, same "xy" xy, same "bri" bri]

/-- A getter of a constant light looks at its attributes of the cached state only. -/
theorem constAsk (query : Light.Query) : Observes query.reads (query.constAsk l) := by
  cases query with
  | isOn => exact constIsOn.bind fun _ => pure _
  | brightness => exact (getBrightness l (by decide)).bind fun _ => pure _
  | colorTemperature => exact (getColorTemperature l).bind fun _ => pure _
  | colorHueSaturation =>
      exact (getColorHueSaturation l (by decide) (by decide)).bind fun _ => pure _
  | colorXY => exact (getColorXY l (by decide) (by decide)).bind fun _ => pure _

end Observes

end Hueplusplus
