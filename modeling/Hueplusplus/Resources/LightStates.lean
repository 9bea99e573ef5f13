import Hueplusplus.Json.Members
import Hueplusplus.Light.ReadColor
import Hueplusplus.Resources.CreateScene

/-!
# The states of the lights of a scene

A `LightState` is built by calls of a builder, each of which assigns to members of its JSON. A
scene has one for each of its lights, under the decimal id of the light. The order of the keys
in the JSON is that of the texts, the order of a map that of the ids.
-/

namespace Hueplusplus

open AssocList

namespace Scene.LightState

variable (s : Scene.LightState)

def isOn : Except Exception Bool := Json.value s.state "on" false Json.getBool

def hasBrightness : Bool := Json.count s.state "bri"

def getBrightness : Except Exception ℤ := Json.value s.state "bri" 0 Json.getInt

def hasHueSat : Bool := Json.count s.state "hue" && Json.count s.state "sat"

def getHueSat : Except Exception HueSaturation := do
  return ⟨← Json.value s.state "hue" 0 Json.getInt, ← Json.value s.state "sat" 0 Json.getInt⟩

def hasXY : Bool := Json.count s.state "xy"

def hasCt : Bool := Json.count s.state "ct"

def getCt : Except Exception ℤ := Json.value s.state "ct" 0 Json.getInt

def hasEffect : Bool := Json.count s.state "effect"

def getColorloop : Except Exception Bool := do
  return decide ((← Json.value s.state "effect" "" Json.getString) = "colorloop")

def getTransitionTime : Except Exception ℤ := Json.value s.state "transitiontime" 4 Json.getInt

end Scene.LightState

structure LightStateBuilder where
  state : Json

namespace LightStateBuilder

def new : LightStateBuilder := ⟨.null⟩

section Setters

variable (builder : LightStateBuilder)

/-- An assignment to a member of the state. -/
def assign (key : String) (value : Json) : Except Exception LightStateBuilder := do
  return ⟨← builder.state.setMember key value⟩

def setOn (on : Bool) : Except Exception LightStateBuilder := builder.assign "on" (.bool on)

def setBrightness (brightness : ℤ) : Except Exception LightStateBuilder :=
  builder.assign "bri" (.num brightness)

def setHueSat (hueSat : HueSaturation) : Except Exception LightStateBuilder := do
  let builder ← builder.assign "hue" (.num hueSat.hue)
  builder.assign "sat" (.num hueSat.saturation)

def setXY (xy : XY) : Except Exception LightStateBuilder :=
  builder.assign "xy" (.arr [.num xy.x, .num xy.y])

def setCt (mired : ℤ) : Except Exception LightStateBuilder := builder.assign "ct" (.num mired)

def setColorloop (enabled : Bool) : Except Exception LightStateBuilder :=
  builder.assign "effect" (.str (if enabled then "colorloop" else "none"))

def setTransitionTime (time : ℤ) : Except Exception LightStateBuilder :=
  builder.assign "transitiontime" (.num time)

def create : Scene.LightState := ⟨builder.state⟩

end Setters

inductive Call where
  | setOn (on : Bool)
  | setBrightness (brightness : ℤ)
  | setHueSat (hueSat : HueSaturation)
  | setXY (xy : XY)
  | setCt (mired : ℤ)
  | setColorloop (enabled : Bool)
  | setTransitionTime (time : ℤ)

namespace Call

def run (builder : LightStateBuilder) : Call → Except Exception LightStateBuilder
  | setOn on => builder.setOn on
  | setBrightness brightness => builder.setBrightness brightness
  | setHueSat hueSat => builder.setHueSat hueSat
  | setXY xy => builder.setXY xy
  | setCt mired => builder.setCt mired
  | setColorloop enabled => builder.setColorloop enabled
  | setTransitionTime time => builder.setTransitionTime time

/-- The members that a call assigns to. -/
def writes : Call → List (String × Json)
  | setOn on => [("on", .bool on)]
  | setBrightness brightness => [("bri", .num brightness)]
  | setHueSat hueSat => [("hue", .num hueSat.hue), ("sat", .num hueSat.saturation)]
  | setXY xy => [("xy", .arr [.num xy.x, .num xy.y])]
  | setCt mired => [("ct", .num mired)]
  | setColorloop enabled => [("effect", .str (if enabled then "colorloop" else "none"))]
  | setTransitionTime time => [("transitiontime", .num time)]

def on? : Call → Option Bool
  | setOn on => some on
  | _ => none

def brightness? : Call → Option ℤ
  | setBrightness brightness => some brightness
  | _ => none

def hueSat? : Call → Option HueSaturation
  | setHueSat hueSat => some hueSat
  | _ => none

def xy? : Call → Option XY
  | setXY xy => some xy
  | _ => none

def ct? : Call → Option ℤ
  | setCt mired => some mired
  | _ => none

def colorloop? : Call → Option Bool
  | setColorloop enabled => some enabled
  | _ => none

def transitionTime? : Call → Option ℤ
  | setTransitionTime time => some time
  | _ => none

end Call

/-- The state shows the last call about each attribute, or the default of its getter. -/
structure Shows (calls : List Call) (s : Scene.LightState) : Prop where
  on : s.isOn = .ok ((lastCall Call.on? calls).getD false)
  brightness : s.hasBrightness = (lastCall Call.brightness? calls).isSome ∧
    s.getBrightness = .ok ((lastCall Call.brightness? calls).getD 0)
  hueSat : s.hasHueSat = (lastCall Call.hueSat? calls).isSome ∧
    s.getHueSat = .ok ((lastCall Call.hueSat? calls).getD ⟨0, 0⟩)
  xy : s.hasXY = (lastCall Call.xy? calls).isSome ∧
    s.getXY = match lastCall Call.xy? calls, lastCall Call.brightness? calls with
      | some xy, some brightness => .ok ⟨xy, brightness / 255⟩
      | _, _ => .error (.jsonException 403)
  ct : s.hasCt = (lastCall Call.ct? calls).isSome ∧
    s.getCt = .ok ((lastCall Call.ct? calls).getD 0)
  colorloop : s.hasEffect = (lastCall Call.colorloop? calls).isSome ∧
    s.getColorloop = .ok ((lastCall Call.colorloop? calls).getD false)
  transitionTime : s.getTransitionTime = .ok ((lastCall Call.transitionTime? calls).getD 4)

theorem assign_eq (builder : LightStateBuilder) (key : String) (value : Json) :
    builder.assign key value =
      (builder.state.assignAll [(key, value)]).map LightStateBuilder.mk := by
  rw [assign, Json.assignAll, List.foldlM_cons]
  cases builder.state.setMember key value <;> rfl

theorem run_eq (call : Call) (builder : LightStateBuilder) :
    call.run builder = (builder.state.assignAll call.writes).map LightStateBuilder.mk := by
  cases call with
  | setHueSat hueSat =>
      rw [Call.run, setHueSat, assign_eq, Call.writes,
        show [("hue", Json.num hueSat.hue), ("sat", Json.num hueSat.saturation)] =
          [("hue", Json.num hueSat.hue)] ++ [("sat", Json.num hueSat.saturation)] from rfl,
        Json.assignAll_append]
      cases builder.state.assignAll [("hue", Json.num hueSat.hue)] with
      | error e => rfl
      | ok state => exact assign_eq ⟨state⟩ _ _
  | _ => exact assign_eq builder _ _

/-- The calls assign their members one after the other. -/
theorem foldlM_run (calls : List Call) (builder : LightStateBuilder) :
    calls.foldlM Call.run builder =
      (builder.state.assignAll (calls.flatMap Call.writes)).map LightStateBuilder.mk := by
  induction calls generalizing builder with
  | nil => rfl
  | cons call calls ih =>
      rw [List.foldlM_cons, run_eq, List.flatMap_cons, Json.assignAll_append]
      cases builder.state.assignAll call.writes with
      | error e => rfl
      | ok state => exact ih ⟨state⟩

/-- The state after at least one call: its members are the last writes. -/
theorem exists_built {calls : List Call} (some : calls ≠ []) :
    ∃ builder, calls.foldlM Call.run new = .ok builder ∧
      builder.state.HasMembers (lastWrite (calls.flatMap Call.writes)) := by
  have written : calls.flatMap Call.writes ≠ [] := by
    obtain ⟨call, rest, rfl⟩ := List.exists_cons_of_ne_nil some
    cases call <;> exact List.cons_ne_nil _ _
  obtain ⟨state, assigned, members⟩ := Json.hasMembers_of_assignAll_null written
  refine ⟨⟨state⟩, ?_, members⟩
  rw [foldlM_run, new, assigned]
  rfl

section LastCalls

variable (calls : List Call)

theorem lastWrite_on : lastWrite (calls.flatMap Call.writes) "on" =
    (lastCall Call.on? calls).map .bool :=
  lastWrite_flatMap (fun call => by cases call <;> rfl) calls

theorem lastWrite_brightness : lastWrite (calls.flatMap Call.writes) "bri" =
    (lastCall Call.brightness? calls).map fun brightness => .num brightness :=
  lastWrite_flatMap (fun call => by cases call <;> rfl) calls

theorem lastWrite_hue : lastWrite (calls.flatMap Call.writes) "hue" =
    (lastCall Call.hueSat? calls).map fun hueSat => .num hueSat.hue :=
  lastWrite_flatMap (fun call => by cases call <;> rfl) calls

theorem lastWrite_sat : lastWrite (calls.flatMap Call.writes) "sat" =
    (lastCall Call.hueSat? calls).map fun hueSat => .num hueSat.saturation :=
  lastWrite_flatMap (fun call => by cases call <;> rfl) calls

theorem lastWrite_xy : lastWrite (calls.flatMap Call.writes) "xy" =
    (lastCall Call.xy? calls).map fun xy => .arr [.num xy.x, .num xy.y] :=
  lastWrite_flatMap (fun call => by cases call <;> rfl) calls

theorem lastWrite_ct : lastWrite (calls.flatMap Call.writes) "ct" =
    (lastCall Call.ct? calls).map fun mired => .num mired :=
  lastWrite_flatMap (fun call => by cases call <;> rfl) calls

theorem lastWrite_effect : lastWrite (calls.flatMap Call.writes) "effect" =
    (lastCall Call.colorloop? calls).map
      fun enabled => .str (if enabled then "colorloop" else "none") :=
  lastWrite_flatMap (fun call => by cases call <;> rfl) calls

theorem lastWrite_transitiontime : lastWrite (calls.flatMap Call.writes) "transitiontime" =
    (lastCall Call.transitionTime? calls).map fun time => .num time :=
  lastWrite_flatMap (fun call => by cases call <;> rfl) calls

end LastCalls

/-- A getter of a member that is an integer. -/
theorem elim_getInt (default : ℤ) (last : Option ℤ) :
    (last.map fun n : ℤ => Json.num n).elim (.ok default) Json.getInt =
      (.ok (last.getD default) : Except Exception ℤ) := by
  cases last with
  | none => rfl
  | some n => exact Json.getInt_int n

theorem shows_of_hasMembers {calls : List Call} {s : Scene.LightState}
    (h : Json.HasMembers s.state (lastWrite (calls.flatMap Call.writes))) : Shows calls s where
  on := by
    rw [Scene.LightState.isOn, h.value, lastWrite_on]
    cases lastCall Call.on? calls <;> rfl
  brightness := by
    rw [Scene.LightState.hasBrightness, Scene.LightState.getBrightness, h.count, h.value,
      lastWrite_brightness, Option.isSome_map, elim_getInt]
    exact ⟨rfl, rfl⟩
  hueSat := by
    rw [Scene.LightState.hasHueSat, Scene.LightState.getHueSat, h.count, h.count, h.value, h.value,
      lastWrite_hue, lastWrite_sat, Option.isSome_map, Option.isSome_map, Bool.and_self]
    cases lastCall Call.hueSat? calls with
    | none => exact ⟨rfl, rfl⟩
    | some hueSat =>
        refine ⟨rfl, ?_⟩
        simp only [Option.map_some, Option.elim_some, Json.getInt_int]
        rfl
  xy := by
    rw [Scene.LightState.hasXY, Scene.LightState.getXY, h.count, h.at', h.at', lastWrite_xy,
      lastWrite_brightness, Option.isSome_map]
    refine ⟨rfl, ?_⟩
    cases lastCall Call.xy? calls with
    | none => rfl
    | some xy =>
        cases lastCall Call.brightness? calls with
        | none => rfl
        | some brightness =>
            simp only [Option.map_some, Option.elim_some, Except.ok_bind, Json.getInt_int]
            rfl
  ct := by
    rw [Scene.LightState.hasCt, Scene.LightState.getCt, h.count, h.value, lastWrite_ct,
      Option.isSome_map, elim_getInt]
    exact ⟨rfl, rfl⟩
  colorloop := by
    rw [Scene.LightState.hasEffect, Scene.LightState.getColorloop, h.count, h.value,
      lastWrite_effect, Option.isSome_map]
    refine ⟨rfl, ?_⟩
    cases lastCall Call.colorloop? calls with
    | none => rfl
    | some enabled => cases enabled <;> rfl
  transitionTime := by
    rw [Scene.LightState.getTransitionTime, h.value, lastWrite_transitiontime, elim_getInt]

/-- A state built by any calls shows the last call about each attribute. -/
theorem built_shows (calls : List Call) (some : calls ≠ []) :
    ∃ builder, calls.foldlM Call.run new = .ok builder ∧ Shows calls builder.create := by
  obtain ⟨builder, built, members⟩ := exists_built some
  exact ⟨builder, built, shows_of_hasMembers members⟩

/-- The brightness is set twice, the hue once. -/
theorem built_shows_twice :
    ∃ builder, [Call.setBrightness 10, .setHueSat ⟨25500, 254⟩, .setBrightness 20].foldlM
        Call.run new = .ok builder ∧
      Shows [.setBrightness 10, .setHueSat ⟨25500, 254⟩, .setBrightness 20] builder.create :=
  built_shows [.setBrightness 10, .setHueSat ⟨25500, 254⟩, .setBrightness 20]
    (List.cons_ne_nil _ _)

end LightStateBuilder

namespace Scene

/-- The loop of `getLightStates`. -/
def readLightStates (items : List (Option String × Json)) :
    Except Exception (OrderedMap ℤ LightState) :=
  items.foldlM (fun result entry => do
    let id ← Text.stoi (← Json.iteratorKey entry.1).toList
    return result.emplace id ⟨entry.2⟩) .empty

/-- `getLightStates`, by the JSON its constant `getValue` returns. -/
def getLightStates (value : Json) : Except Exception (OrderedMap ℤ LightState) := do
  if value.count "lightstates" then
    let lightStates ← value.at' "lightstates"
    readLightStates lightStates.items
  else return .empty

/-- The JSON of the states that the setters of scenes and of their requests assemble. -/
def lightStatesJson (states : OrderedMap ℤ LightState) : Except Exception Json :=
  states.entries.foldlM (fun json entry => json.setMember (toString entry.1) entry.2.toJson)
    Json.null

theorem lightStatesJson_eq (states : OrderedMap ℤ LightState) :
    lightStatesJson states = .ok (if states.entries = [] then .null
      else .obj (mapValues LightState.toJson (states.respell toString))) := by
  have writes : lightStatesJson states = Json.null.assignAll
      (states.entries.map fun entry => (toString entry.1, entry.2.toJson)) := by
    rw [lightStatesJson, Json.assignAll, List.foldlM_map]
  rw [writes, Json.assignAll_null, OrderedMap.respell, mapValues_writeAll, mapValues, mapValues,
    List.map_nil, List.map_map]
  simp only [List.map_eq_nil_iff]
  rfl

theorem readLightStates_respell {states : OrderedMap ℤ LightState}
    (ints : ∀ id s, (id, s) ∈ states.entries → Text.IsInt id) :
    readLightStates (Json.obj (mapValues LightState.toJson (states.respell toString))).items =
      .ok states := by
  have read (id : ℤ) (s : LightState) (member : (id, s) ∈ states.entries) :
      Text.stoi (toString id).toList = (.ok id : Except Exception ℤ) := by
    rw [Text.toList_toString, Text.stoi_ofInt (ints id s member)]
  refine Eq.trans ?_ (@OrderedMap.readKeys_respell ℤ String LightState Exception _
    (fun key => Text.stoi key.toList) _ toString states read)
  rw [readLightStates, Json.items, mapValues, List.map_map, List.foldlM_map]
  rfl

/-- The states that were sent are read back, in the order of the ids. -/
theorem getLightStates_of_sent {states : OrderedMap ℤ LightState}
    (ints : ∀ id s, (id, s) ∈ states.entries → Text.IsInt id) {json value : Json}
    (sent : lightStatesJson states = .ok json) (stored : value.find? "lightstates" = some json) :
    getLightStates value = .ok states := by
  rw [lightStatesJson_eq] at sent
  obtain rfl := Except.ok.inj sent
  have counted : value.count "lightstates" = true := by rw [Json.count, stored, Option.isSome_some]
  rw [getLightStates, if_pos counted, Json.at'_of_find? stored, Except.ok_bind]
  by_cases none : states.entries = []
  · rw [if_pos none]
    exact congrArg Except.ok (OrderedMap.ext none).symm
  · rw [if_neg none]
    exact readLightStates_respell ints

/-- A scene and a request for a scene send the same JSON for a map of states, and any scene that
has stored it shows the map again. -/
theorem light_states_read_back (states : OrderedMap ℤ LightState)
    (ints : ∀ id s, (id, s) ∈ states.entries → Text.IsInt id) :
    ∃ json, (∀ scene : Scene, APICache.Puts (scene.setLightStates · states)
        ("/scenes/" ++ scene.id ++ "") (.obj [("lightstates", json)])) ∧
      (∀ params params' : CreateScene, params.setLightStates states = .ok params' →
        params'.getRequest.find? "lightstates" = some json) ∧
      ∀ value : Json, value.find? "lightstates" = some json →
        getLightStates value = .ok states := by
  have sent := lightStatesJson_eq states
  refine ⟨_, fun scene env => ⟨fun _ => scene.refresh env false, ?_⟩, fun params params' set => ?_,
    fun value stored => getLightStates_of_sent ints sent stored⟩
  · have assembled : scene.setLightStates env states =
        Effect.ofExcept (lightStatesJson states) >>= fun lightStates =>
          scene.sendPutRequest env "" (.obj [("lightstates", lightStates)]) >>= fun _ =>
            scene.refresh env false := rfl
    refine assembled.trans ?_
    rw [sent]
    change (scene.sendPutRequest env "" _ >>= fun _ => scene.refresh env false) = _
    exact bind_assoc _ _ _
  · rw [CreateScene.setLightStates, ← lightStatesJson, sent, Except.ok_bind] at set
    exact (CreateScene.find?_assign set "lightstates").trans (if_pos rfl)

/-- Two lights, whose ids are in the other order as texts. -/
theorem light_states_read_back_twins :
    let states : OrderedMap ℤ LightState :=
      ⟨[(2, ⟨.obj [("on", .bool true)]⟩), (10, ⟨.obj [("bri", .num 7)]⟩)],
        List.pairwise_pair.mpr (show (2 : ℤ) < 10 by decide)⟩
    ∃ json, (∀ scene : Scene, APICache.Puts (scene.setLightStates · states)
        ("/scenes/" ++ scene.id ++ "") (.obj [("lightstates", json)])) ∧
      (∀ params params' : CreateScene, params.setLightStates states = .ok params' →
        params'.getRequest.find? "lightstates" = some json) ∧
      ∀ value : Json, value.find? "lightstates" = some json →
        getLightStates value = .ok states := by
  intro states
  refine light_states_read_back states fun id s member => ?_
  have cases : id = 2 ∨ id = 10 := by
    rcases List.mem_cons.mp member with same | later
    · exact .inl (Prod.mk.inj same).1
    · exact .inr (Prod.mk.inj (List.mem_singleton.mp later)).1
  rcases cases with rfl | rfl
  · exact ⟨by decide, by decide⟩
  · exact ⟨by decide, by decide⟩

end Scene

end Hueplusplus
