import Hueplusplus.Resources.Attributes
import Hueplusplus.Resources.Device

/-!
# What sensors are told and what they tell

The JSON of a sensor has a part for its configuration and one for its state. The classes of
sensors differ in the attributes they have setters and getters for. Unlike those of schedules,
rules and groups, no setter of a sensor fetches the JSON again: what was set is shown from the
next refresh on, and until then the getters show what they did before. What the bridge has is a
parameter, with the same assumptions as for the others.
-/

namespace Hueplusplus

open Effect APICache Caches

inductive Alert where
  | none
  | select
  | lselect
deriving DecidableEq

def alertToString : Alert → String
  | .lselect => "lselect"
  | .select => "select"
  | .none => "none"

def alertFromString (s : String) : Alert :=
  if s = "select" then .select else if s = "lselect" then .lselect else .none

@[simp] theorem alertFromString_alertToString (alert : Alert) :
    alertFromString (alertToString alert) = alert := by
  cases alert <;> decide

/-- The parts of the JSON of a sensor that are set by attribute. -/
inductive SensorPart where
  | config
  | state
deriving DecidableEq

def SensorPart.key : SensorPart → String
  | .config => "config"
  | .state => "state"

namespace Sensor

section Setters

variable (env : CacheEnv) (sensor : BaseDevice)

/-- Sends these attributes of a part. -/
def sendAttributes (part : SensorPart) (attributes : List (String × Json)) : CacheM Unit := do
  let _ ← sensor.sendPutRequest env ("/" ++ part.key) (.obj attributes)

def setConfigAttribute (key : String) (value : Json) : CacheM Unit :=
  sendAttributes env sensor .config [(key, value)]

def setStateAttribute (key : String) (value : Json) : CacheM Unit :=
  sendAttributes env sensor .state [(key, value)]

def setOn (on : Bool) : CacheM Unit := setConfigAttribute env sensor "on" (.bool on)

def setBatteryState (percent : ℤ) : CacheM Unit :=
  setConfigAttribute env sensor "battery" (.num percent)

def sendAlert (type : Alert) : CacheM Unit :=
  setConfigAttribute env sensor "alert" (.str (alertToString type))

def setUserTest (enabled : Bool) : CacheM Unit :=
  setConfigAttribute env sensor "usertest" (.bool enabled)

def setURL (url : String) : CacheM Unit := setConfigAttribute env sensor "url" (.str url)

def setLEDIndication (on : Bool) : CacheM Unit :=
  setConfigAttribute env sensor "ledindication" (.bool on)

def setSensitivity (sensitivity : ℤ) : CacheM Unit :=
  setConfigAttribute env sensor "sensitivity" (.num sensitivity)

def setDarkThreshold (threshold : ℤ) : CacheM Unit :=
  setConfigAttribute env sensor "tholddark" (.num threshold)

def setThresholdOffset (offset : ℤ) : CacheM Unit :=
  setConfigAttribute env sensor "tholdoffset" (.num offset)

def setSunriseOffset (minutes : ℤ) : CacheM Unit :=
  setConfigAttribute env sensor "sunriseoffset" (.num minutes)

def setSunsetOffset (minutes : ℤ) : CacheM Unit :=
  setConfigAttribute env sensor "sunsetoffset" (.num minutes)

/-- An empty text resets the coordinate. -/
def coordinate (text : String) : Json := if text = "" then .null else .str text

def setCoordinates (latitude longitude : String) : CacheM Unit :=
  sendAttributes env sensor .config
    [("lat", coordinate latitude), ("long", coordinate longitude)]

def setButtonEvent (code : ℤ) : CacheM Unit :=
  setStateAttribute env sensor "buttonevent" (.num code)

def setOpen (isOpen : Bool) : CacheM Unit := setStateAttribute env sensor "open" (.bool isOpen)

def setPresence (presence : Bool) : CacheM Unit :=
  setStateAttribute env sensor "presence" (.bool presence)

def setTemperature (temperature : ℤ) : CacheM Unit :=
  setStateAttribute env sensor "temperature" (.num temperature)

def setHumidity (humidity : ℤ) : CacheM Unit :=
  setStateAttribute env sensor "humidity" (.num humidity)

def setLightLevel (level : ℤ) : CacheM Unit :=
  setStateAttribute env sensor "lightlevel" (.num level)

def setFlag (flag : Bool) : CacheM Unit := setStateAttribute env sensor "flag" (.bool flag)

def setStatus (status : ℤ) : CacheM Unit := setStateAttribute env sensor "status" (.num status)

end Setters

section Getters

variable (value : Json)

/-- An attribute of a part. -/
def getAttribute {α : Type} (part : SensorPart) (key : String) (get : Json → Except Exception α) :
    Except Exception α := do
  get (← (← value.at' part.key).at' key)

def isOn : Except Exception Bool := getAttribute value .config "on" Json.getBool

def getBatteryState : Except Exception ℤ := getAttribute value .config "battery" Json.getInt

def getLastAlert : Except Exception Alert :=
  getAttribute value .config "alert" fun alert => alertFromString <$> alert.getString

def getURL : Except Exception String := getAttribute value .config "url" Json.getString

def getLEDIndication : Except Exception Bool :=
  getAttribute value .config "ledindication" Json.getBool

def getSensitivity : Except Exception ℤ := getAttribute value .config "sensitivity" Json.getInt

def getDarkThreshold : Except Exception ℤ := getAttribute value .config "tholddark" Json.getInt

def getThresholdOffset : Except Exception ℤ :=
  getAttribute value .config "tholdoffset" Json.getInt

def getSunriseOffset : Except Exception ℤ :=
  getAttribute value .config "sunriseoffset" Json.getInt

def getSunsetOffset : Except Exception ℤ := getAttribute value .config "sunsetoffset" Json.getInt

def getButtonEvent : Except Exception ℤ := getAttribute value .state "buttonevent" Json.getInt

def isOpen : Except Exception Bool := getAttribute value .state "open" Json.getBool

def getPresence : Except Exception Bool := getAttribute value .state "presence" Json.getBool

def getTemperature : Except Exception ℤ := getAttribute value .state "temperature" Json.getInt

def getHumidity : Except Exception ℤ := getAttribute value .state "humidity" Json.getInt

def getLightLevel : Except Exception ℤ := getAttribute value .state "lightlevel" Json.getInt

def getFlag : Except Exception Bool := getAttribute value .state "flag" Json.getBool

def getStatus : Except Exception ℤ := getAttribute value .state "status" Json.getInt

/-- `getConfig` and `getState`, as far as one attribute is concerned. -/
def getPartAttribute (part : SensorPart) (key : String) : Except Exception Json :=
  getAttribute value part key .ok

end Getters

inductive Call where
  | setConfigAttribute (key : String) (value : Json)
  | setStateAttribute (key : String) (value : Json)
  | setOn (on : Bool)
  | setBatteryState (percent : ℤ)
  | sendAlert (type : Alert)
  | setUserTest (enabled : Bool)
  | setURL (url : String)
  | setLEDIndication (on : Bool)
  | setSensitivity (sensitivity : ℤ)
  | setDarkThreshold (threshold : ℤ)
  | setThresholdOffset (offset : ℤ)
  | setSunriseOffset (minutes : ℤ)
  | setSunsetOffset (minutes : ℤ)
  | setCoordinates (latitude longitude : String)
  | setButtonEvent (code : ℤ)
  | setOpen (isOpen : Bool)
  | setPresence (presence : Bool)
  | setTemperature (temperature : ℤ)
  | setHumidity (humidity : ℤ)
  | setLightLevel (level : ℤ)
  | setFlag (flag : Bool)
  | setStatus (status : ℤ)

namespace Call

def run (env : CacheEnv) (sensor : BaseDevice) : Call → CacheM Unit
  | setConfigAttribute key value => Sensor.setConfigAttribute env sensor key value
  | setStateAttribute key value => Sensor.setStateAttribute env sensor key value
  | setOn on => Sensor.setOn env sensor on
  | setBatteryState percent => Sensor.setBatteryState env sensor percent
  | sendAlert type => Sensor.sendAlert env sensor type
  | setUserTest enabled => Sensor.setUserTest env sensor enabled
  | setURL url => Sensor.setURL env sensor url
  | setLEDIndication on => Sensor.setLEDIndication env sensor on
  | setSensitivity sensitivity => Sensor.setSensitivity env sensor sensitivity
  | setDarkThreshold threshold => Sensor.setDarkThreshold env sensor threshold
  | setThresholdOffset offset => Sensor.setThresholdOffset env sensor offset
  | setSunriseOffset minutes => Sensor.setSunriseOffset env sensor minutes
  | setSunsetOffset minutes => Sensor.setSunsetOffset env sensor minutes
  | setCoordinates latitude longitude => Sensor.setCoordinates env sensor latitude longitude
  | setButtonEvent code => Sensor.setButtonEvent env sensor code
  | setOpen isOpen => Sensor.setOpen env sensor isOpen
  | setPresence presence => Sensor.setPresence env sensor presence
  | setTemperature temperature => Sensor.setTemperature env sensor temperature
  | setHumidity humidity => Sensor.setHumidity env sensor humidity
  | setLightLevel level => Sensor.setLightLevel env sensor level
  | setFlag flag => Sensor.setFlag env sensor flag
  | setStatus status => Sensor.setStatus env sensor status

def part : Call → SensorPart
  | setStateAttribute _ _ | setButtonEvent _ | setOpen _ | setPresence _ | setTemperature _
  | setHumidity _ | setLightLevel _ | setFlag _ | setStatus _ => .state
  | _ => .config

/-- The attributes that a call sends. -/
def attributes : Call → List (String × Json)
  | setConfigAttribute key value | setStateAttribute key value => [(key, value)]
  | setOn on => [("on", .bool on)]
  | setBatteryState percent => [("battery", .num percent)]
  | sendAlert type => [("alert", .str (alertToString type))]
  | setUserTest enabled => [("usertest", .bool enabled)]
  | setURL url => [("url", .str url)]
  | setLEDIndication on => [("ledindication", .bool on)]
  | setSensitivity sensitivity => [("sensitivity", .num sensitivity)]
  | setDarkThreshold threshold => [("tholddark", .num threshold)]
  | setThresholdOffset offset => [("tholdoffset", .num offset)]
  | setSunriseOffset minutes => [("sunriseoffset", .num minutes)]
  | setSunsetOffset minutes => [("sunsetoffset", .num minutes)]
  | setCoordinates latitude longitude =>
    [("lat", coordinate latitude), ("long", coordinate longitude)]
  | setButtonEvent code => [("buttonevent", .num code)]
  | setOpen isOpen => [("open", .bool isOpen)]
  | setPresence presence => [("presence", .bool presence)]
  | setTemperature temperature => [("temperature", .num temperature)]
  | setHumidity humidity => [("humidity", .num humidity)]
  | setLightLevel level => [("lightlevel", .num level)]
  | setFlag flag => [("flag", .bool flag)]
  | setStatus status => [("status", .num status)]

/-- The attributes of a call that the bridge tells. The coordinates cannot be retrieved. -/
def reported : Call → List (String × Json)
  | setCoordinates _ _ => []
  | call => call.attributes

theorem reported_subset (call : Call) : call.reported ⊆ call.attributes := by
  cases call with
  | setCoordinates latitude longitude => exact List.nil_subset _
  | _ => exact List.Subset.refl _

theorem run_eq (env : CacheEnv) (sensor : BaseDevice) (call : Call) :
    call.run env sensor = sendAttributes env sensor call.part call.attributes := by
  cases call <;> rfl

/-- The getters of the attributes return what the call was given, by what the constant `getValue`
returns. Some attributes have no getter of their own, and the coordinates have none. -/
def Shown (view : Except Exception Json) : Call → Prop
  | setConfigAttribute key value => (view >>= (getPartAttribute · .config key)) = .ok value
  | setStateAttribute key value => (view >>= (getPartAttribute · .state key)) = .ok value
  | setOn on => (view >>= isOn) = .ok on
  | setBatteryState percent => (view >>= getBatteryState) = .ok percent
  | sendAlert type => (view >>= getLastAlert) = .ok type
  | setUserTest enabled => (view >>= (getPartAttribute · .config "usertest")) = .ok (.bool enabled)
  | setURL url => (view >>= getURL) = .ok url
  | setLEDIndication on => (view >>= getLEDIndication) = .ok on
  | setSensitivity sensitivity => (view >>= getSensitivity) = .ok sensitivity
  | setDarkThreshold threshold => (view >>= getDarkThreshold) = .ok threshold
  | setThresholdOffset offset => (view >>= getThresholdOffset) = .ok offset
  | setSunriseOffset minutes => (view >>= getSunriseOffset) = .ok minutes
  | setSunsetOffset minutes => (view >>= getSunsetOffset) = .ok minutes
  | setCoordinates _ _ => True
  | setButtonEvent code => (view >>= getButtonEvent) = .ok code
  | setOpen open' => (view >>= isOpen) = .ok open'
  | setPresence presence => (view >>= getPresence) = .ok presence
  | setTemperature temperature => (view >>= getTemperature) = .ok temperature
  | setHumidity humidity => (view >>= getHumidity) = .ok humidity
  | setLightLevel level => (view >>= getLightLevel) = .ok level
  | setFlag flag => (view >>= getFlag) = .ok flag
  | setStatus status => (view >>= getStatus) = .ok status

/-- A call is shown by JSON that has its attributes. -/
theorem shown_of_follow {view : Except Exception Json} {call : Call}
    (found : ∀ sent ∈ call.reported, ∃ json, view = .ok json ∧
      json.follow [call.part.key, sent.1] = some sent.2) : call.Shown view := by
  have read {α : Type} {key : String} {value : Json} (sent : (key, value) ∈ call.reported)
      (get : Json → Except Exception α) :
      (view >>= (getAttribute · call.part key get)) = get value := by
    obtain ⟨json, rfl, inside⟩ := found _ sent
    obtain ⟨part, there, member⟩ := Option.bind_eq_some_iff.mp inside
    rw [Json.follow_singleton] at member
    rw [Except.ok_bind, getAttribute, Json.at'_of_find? there, Except.ok_bind,
      Json.at'_of_find? member, Except.ok_bind]
  cases call with
  | setCoordinates latitude longitude => trivial
  | sendAlert type =>
      refine (read List.mem_cons_self _).trans ?_
      exact congrArg Except.ok (alertFromString_alertToString type)
  | setBatteryState n | setSensitivity n | setDarkThreshold n | setThresholdOffset n
  | setSunriseOffset n | setSunsetOffset n | setButtonEvent n | setTemperature n
  | setHumidity n | setLightLevel n | setStatus n =>
      exact (read List.mem_cons_self _).trans (Json.getInt_int n)
  | _ => exact read List.mem_cons_self _

end Call

section Runs

variable (env : CacheEnv) (sensor : BaseDevice)

/-- Runs of the setters and of the functions of the caches. -/
abbrev system : System Caches (AttributeEvent Call) :=
  AttributeEvent.system env fun call => call.run env sensor

/-- Where the bridge has an attribute. -/
def place (part : SensorPart) (key : String) : List String :=
  env.keys sensor.state ++ [part.key, key]

/-- The assumptions about the bridge that has this after each request. The cache is a root or on
one, and no reading of the clock is its epoch. -/
structure Served (has : ℕ → Json) : Prop where
  level : sensor.state.length ≤ 1
  ticks : ∀ n, env.clock n ≠ 0
  answers : Answers env has
  takes : ∀ n (call : Call) reply,
    (env.commands n).putRequest (getRequestPath env sensor.state ++ ("/" ++ call.part.key))
      (.obj call.attributes) = .ok reply →
    ∀ sent ∈ call.reported, (has n).follow (place env sensor call.part sent.1) = some sent.2

variable {env : CacheEnv} {sensor : BaseDevice} {has : ℕ → Json}

/-- A setter does nothing but send its PUT request. -/
theorem state_run (call : Call) (s : Caches) : (result (call.run env sensor) s).2 = s.failed := by
  rw [Call.run_eq, sendAttributes, state_bind_pure]
  rfl

theorem returns_run {call : Call} {s t : Caches} (returned : Returns (call.run env sensor) s ⟨⟩ t) :
    t = s.failed ∧ ∃ reply, (env.commands s.requests).putRequest
      (getRequestPath env sensor.state ++ ("/" ++ call.part.key)) (.obj call.attributes) =
        .ok reply := by
  rw [Call.run_eq, sendAttributes] at returned
  obtain ⟨reply, u, put, done⟩ := returns_bind.mp returned
  obtain ⟨acknowledged, rfl⟩ := Prod.mk.inj (show (_, s.failed) = _ from put)
  exact ⟨(returns_pure.mp done).2.symm, reply, acknowledged⟩

theorem Served.keeps_run (served : Served env sensor has) {place : List String} {value : Json}
    (nonempty : place ≠ []) (s : Caches) (events : List (AttributeEvent Call)) :
    Keeps has place value s ((system env sensor).run s events) := by
  refine AttributeEvent.keeps_run served.answers served.ticks nonempty (fun call s => ?_) s events
  rw [state_run]
  exact keeps_failed

/-- Without a refresh the getters show what they did. -/
@[simp] theorem constGetValue_run (calls : List Call) (s : Caches) :
    constGetValue env ((system env sensor).run s (calls.map .call)) sensor.state =
      constGetValue env s sensor.state := by
  have same (s : Caches) : ∀ id, constGetValue env s.failed id = constGetValue env s id := by
    intro id
    induction id with
    | nil => rfl
    | cons i base ih => rw [constGetValue, constGetValue, ih]
  induction calls generalizing s with
  | nil => rfl
  | cons call calls ih =>
      have step : (system env sensor).step s (.call call) = s.failed := state_run call s
      rw [List.map_cons, System.run_cons, ih, step, same]

/-- What a setter of a sensor was given is shown from the next refresh on that returns until it is
changed at the bridge. No setter changes what the getters show. -/
theorem shown_from_refresh (served : Served env sensor has) {call : Call} {s t u : Caches}
    (returned : Returns (call.run env sensor) s ⟨⟩ t) {between after : List (AttributeEvent Call)}
    (refreshed : Returns (APICache.refresh env sensor.state)
      ((system env sensor).run t between) ⟨⟩ u)
    (unchanged : ∀ sent ∈ call.reported, ∀ n, s.requests < n →
      n < ((system env sensor).run u after).requests →
      (has n).follow (place env sensor call.part sent.1) =
        (has s.requests).follow (place env sensor call.part sent.1)) :
    call.Shown (constGetValue env ((system env sensor).run u after) sensor.state) ∧
      ∀ (calls : List Call) (v : Caches),
        constGetValue env ((system env sensor).run v (calls.map .call)) sensor.state =
          constGetValue env v sensor.state := by
  refine ⟨Call.shown_of_follow fun sent member => ?_, fun calls v => constGetValue_run calls v⟩
  obtain ⟨rfl, reply, put⟩ := returns_run returned
  have taken := served.takes s.requests call reply put sent member
  have nonempty : place env sensor call.part sent.1 ≠ [] := by simp [place]
  have lasts : Lasts has (place env sensor call.part sent.1) sent.2 s.requests
      ((system env sensor).run u after).requests := by
    intro n later before
    rcases Nat.eq_or_lt_of_le later with rfl | later
    · exact taken
    · exact (unchanged sent member n later before).trans taken
  have waits : Keeps has (place env sensor call.part sent.1) sent.2 s.failed _ :=
    served.keeps_run nonempty s.failed between
  have refreshes : Keeps has (place env sensor call.part sent.1) sent.2 _ _ :=
    keeps_refresh served.answers served.ticks nonempty sensor.state
      ((system env sensor).run s.failed between)
  rw [show result (APICache.refresh env sensor.state) _ = _ from refreshed] at refreshes
  have keeps : Keeps has (place env sensor call.part sent.1) sent.2 u _ :=
    served.keeps_run nonempty u after
  have begins : s.requests ≤ ((system env sensor).run s.failed between).requests :=
    (Nat.le_succ s.requests).trans waits.requests
  have shows : Shows (place env sensor call.part sent.1) sent.2 u :=
    shows_of_refresh served.answers served.ticks served.level refreshed
      (lasts.sub begins keeps.requests)
  exact (keeps.shows (lasts.sub (begins.trans refreshes.requests) le_rfl) shows).constGetValue

/-- A bridge with one sensor, which can be turned on. -/
def sensorJson : Json := .obj [("1", .obj [("config", .obj [("on", .bool true)])])]

def sensorCaches : CacheEnv :=
  servedCaches "sensors" "1" sensorJson fun uri body =>
    if uri = "/api/username/sensors/1/config" ∧ body = .obj [("on", .bool true)] then .ok (.arr [])
    else .error (.hueException "")

/-- A sensor of a list is turned on and asked. It cannot be turned off then. -/
theorem shown_from_refresh_on :
    let sensor : BaseDevice := ⟨1, [0]⟩
    let s : Caches := ⟨fun _ => ⟨0, 0, .null⟩, 0, 0, [], []⟩
    let u := (result (APICache.refresh sensorCaches [0]) s.failed).2
    (constGetValue sensorCaches ((system sensorCaches sensor).run u [.call (.setOn false)]) [0] >>=
        isOn) = .ok true ∧
      ∀ (calls : List Call) (v : Caches), constGetValue sensorCaches
          ((system sensorCaches sensor).run v (calls.map .call)) [0] =
        constGetValue sensorCaches v [0] := by
  intro sensor s u
  have served : Served sensorCaches sensor fun _ => sensorJson := by
    refine ⟨le_rfl, servedCaches_ticks _ _ _ _, servedCaches_answers _ _ _ _, ?_⟩
    intro n call reply put sent member
    obtain ⟨first, accepted⟩ := servedCaches_put put
    split at accepted
    · rename_i same
      have part : call.part = .config := by
        cases state : call.part with
        | config => rfl
        | state =>
            rw [state] at same
            have uri : (sensorCaches.commands 0).combinedPath (getRequestPath sensorCaches [0] ++
                ("/" ++ SensorPart.state.key)) = "/api/username/sensors/1/config" := same.1
            exact absurd uri (by decide +kernel)
      have only := call.reported_subset member
      rw [Json.obj.inj same.2, List.mem_singleton] at only
      rw [only, part]
      rfl
    · cases accepted
  have returned : Returns (Call.run sensorCaches sensor (.setOn true)) s ⟨⟩ s.failed :=
    Prod.ext (by decide +kernel) (state_run _ _)
  have refreshed : Returns (APICache.refresh sensorCaches [0]) s.failed ⟨⟩ u :=
    Prod.ext (by decide +kernel) rfl
  clear_value u
  exact @shown_from_refresh sensorCaches sensor _ served (.setOn true) s s.failed u returned []
    [.call (.setOn false)] refreshed fun _ _ _ _ _ => rfl

end Runs

end Sensor

end Hueplusplus
