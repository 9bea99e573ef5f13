import Hueplusplus.Resources.Attributes
import Hueplusplus.TimePattern.RoundTrip

/-!
# Schedules

A schedule has a command, the time to make it at, and a few other attributes. The times are sent
as text. What the setters of a schedule send is what the builder of a request for a new one
writes, and the getters read both.
-/

namespace Hueplusplus

open Effect Time

structure Schedule where
  id : ℤ
  state : CacheId

namespace Schedule

section Setters

variable (env : CacheEnv) (zone : TimeZone) (schedule : Schedule)

def refresh : CacheM Unit := APICache.refresh env schedule.state

def sendPutRequest (request : Json) : CacheM Json :=
  APICache.PUTRequest env ("/schedules/" ++ toString schedule.id) request

def setName (name : String) : CacheM Unit := do
  let _ ← schedule.sendPutRequest env (.obj [("name", .str name)])
  schedule.refresh env

def setDescription (description : String) : CacheM Unit := do
  let _ ← schedule.sendPutRequest env (.obj [("description", .str description)])
  schedule.refresh env

def setCommand (command : Action) : CacheM Unit := do
  let _ ← schedule.sendPutRequest env (.obj [("command", command.toJson)])
  schedule.refresh env

def setTime (timePattern : TimePattern) : CacheM Unit := do
  let text ← Effect.ofExcept (timePattern.toString zone)
  let _ ← schedule.sendPutRequest env (.obj [("localtime", .str (String.ofList text))])
  schedule.refresh env

def setEnabled (enabled : Bool) : CacheM Unit := do
  let status := if enabled then "enabled" else "disabled"
  let _ ← schedule.sendPutRequest env (.obj [("status", .str status)])
  schedule.refresh env

def setAutodelete (autodelete : Bool) : CacheM Unit := do
  let _ ← schedule.sendPutRequest env (.obj [("autodelete", .bool autodelete)])
  schedule.refresh env

end Setters

section Getters

variable (zone : TimeZone) (value : Json)

def getName : Except Exception String := do (← value.at' "name").getString

def getDescription : Except Exception String := do (← value.at' "description").getString

def getCommand : Except Exception Action := do return ⟨← value.at' "command"⟩

def getTime : Except Exception TimePattern := do
  TimePattern.parse zone (← (← value.at' "localtime").getString).toList

def isEnabled : Except Exception Bool := do
  return decide ((← (← value.at' "status").getString) = "enabled")

def getAutodelete : Except Exception Bool := do (← value.at' "autodelete").getBool

end Getters

inductive Call where
  | setName (name : String)
  | setDescription (description : String)
  | setCommand (command : Action)
  | setTime (timePattern : TimePattern)
  | setEnabled (enabled : Bool)
  | setAutodelete (autodelete : Bool)

namespace Call

variable (zone : TimeZone)

def run (env : CacheEnv) (schedule : Schedule) : Call → CacheM Unit
  | setName name => schedule.setName env name
  | setDescription description => schedule.setDescription env description
  | setCommand command => schedule.setCommand env command
  | setTime timePattern => schedule.setTime env zone timePattern
  | setEnabled enabled => schedule.setEnabled env enabled
  | setAutodelete autodelete => schedule.setAutodelete env autodelete

/-- The attribute a call is about. -/
def key : Call → String
  | setName _ => "name"
  | setDescription _ => "description"
  | setCommand _ => "command"
  | setTime _ => "localtime"
  | setEnabled _ => "status"
  | setAutodelete _ => "autodelete"

/-- The JSON of the attribute. -/
def value : Call → Except Exception Json
  | setName name => .ok (.str name)
  | setDescription description => .ok (.str description)
  | setCommand command => .ok command.toJson
  | setTime timePattern => do return .str (String.ofList (← timePattern.toString zone))
  | setEnabled enabled => .ok (.str (if enabled then "enabled" else "disabled"))
  | setAutodelete autodelete => .ok (.bool autodelete)

/-- The getter of the attribute returns what the call was given, a time if it can be read back
from its text. -/
def Shown (json : Json) : Call → Prop
  | setName name => getName json = .ok name
  | setDescription description => getDescription json = .ok description
  | setCommand command => getCommand json = .ok command
  | setTime timePattern => timePattern.Readable zone → getTime zone json = .ok timePattern
  | setEnabled enabled => isEnabled json = .ok enabled
  | setAutodelete autodelete => getAutodelete json = .ok autodelete

theorem shown_of_find? {call : Call} {json sent : Json} (made : call.value zone = .ok sent)
    (found : json.find? call.key = some sent) : call.Shown zone json := by
  have read := Json.at'_of_find? found
  cases call with
  | setTime timePattern =>
      intro readable
      obtain ⟨text, printed, same⟩ := Except.bind_eq_ok_iff.mp made
      obtain rfl := Except.ok.inj same
      change json.at' "localtime" = _ at read
      rw [← readable.roundTrip]
      simp [getTime, read, Json.getString, printed, String.toList_ofList]
  | setName name | setDescription description =>
      obtain rfl := Except.ok.inj made
      exact congrArg (· >>= Json.getString) read
  | setCommand command =>
      obtain rfl := Except.ok.inj made
      exact congrArg (· >>= fun command => pure (Action.mk command)) read
  | setEnabled enabled =>
      obtain rfl := Except.ok.inj made
      change json.at' "status" = _ at read
      simp only [Shown, isEnabled, read, Except.ok_bind, Json.getString]
      cases enabled <;> rfl
  | setAutodelete autodelete =>
      obtain rfl := Except.ok.inj made
      exact congrArg (· >>= Json.getBool) read

end Call

/-- The setters of a schedule. -/
def setters (zone : TimeZone) (schedule : Schedule) : AttributeSetters Call where
  state := schedule.state
  path := "/schedules/" ++ toString schedule.id
  key := Call.key
  value := Call.value zone
  run env call := call.run zone env schedule
  spec env call := by
    cases call with
    | setTime timePattern =>
        simp only [Call.run, setTime, Call.value]
        cases timePattern.toString zone <;> rfl
    | _ => rfl

section Runs

open APICache AttributeSetters

/-- What a setter of a schedule was given is shown from the next refresh on that returns until the
attribute is changed at the bridge. -/
theorem schedule_shows_set {zone : TimeZone} {schedule : Schedule} {env : CacheEnv}
    {has : ℕ → Json} (served : (setters zone schedule).Served env has) {call : Call}
    {s t : Caches} (fetched : (setters zone schedule).Fetched env s call t)
    {events : List (AttributeEvent Call)}
    (unchanged : ∀ n, s.requests < n →
      n < (((setters zone schedule).system env).run t events).requests →
      (has n).follow ((setters zone schedule).place env call) =
        (has s.requests).follow ((setters zone schedule).place env call)) :
    ∃ value, constGetValue env (((setters zone schedule).system env).run t events)
      schedule.state = .ok value ∧ call.Shown zone value := by
  obtain ⟨sent, value, made, cached, found⟩ := shown_until_changed served fetched unchanged
  exact ⟨value, cached, Call.shown_of_find? zone made found⟩

/-- A bridge with one schedule, which can be given the time that it has. -/
def scheduleJson : Json := .obj [("localtime", .str "R12/PT01:00:00")]

def scheduleCaches : CacheEnv :=
  servedCaches "schedules/1" "" scheduleJson fun _ body =>
    if body.find? "localtime" = some (.str "R12/PT01:00:00") then .ok (.arr [])
    else .error (.hueException "")

/-- A schedule is set to every hour, twelve times. It cannot be renamed then. -/
theorem schedule_shows_set_timer :
    let schedule : Schedule := ⟨1, []⟩
    let timer : TimePattern := .timer ⟨seconds 3600, 12, 0⟩
    let s : Caches := ⟨fun _ => ⟨0, 0, .null⟩, 0, 0, [], []⟩
    let t := (result ((setters utc schedule).run scheduleCaches (.setTime timer)) s).2
    ∃ value, constGetValue scheduleCaches (((setters utc schedule).system scheduleCaches).run t
      [.call (.setName "alarm"), .cache (.refresh [])]) [] = .ok value ∧
        getTime utc value = .ok timer := by
  intro schedule timer s t
  have served : (setters utc schedule).Served scheduleCaches fun _ => scheduleJson := by
    refine ⟨Nat.zero_le 1, servedCaches_ticks _ _ _ _, servedCaches_answers _ _ _ _, ?_⟩
    intro n call value reply made put
    obtain ⟨first, accepted⟩ := servedCaches_put put
    cases call with
    | setTime time =>
        change (if some value = some (.str "R12/PT01:00:00") then _ else _) = _ at accepted
        split at accepted
        · rename_i same
          rw [Option.some.inj same]
          rfl
        · cases accepted
    | _ => cases accepted
  have returned : Returns ((setters utc schedule).run scheduleCaches (.setTime timer)) s ⟨⟩ t :=
    Prod.ext (by decide +kernel) rfl
  clear_value t
  obtain ⟨value, cached, shown⟩ := @schedule_shows_set utc schedule scheduleCaches _ served
    (.setTime timer) s t (.returned returned) [.call (.setName "alarm"), .cache (.refresh [])]
    fun _ _ _ => rfl
  exact ⟨value, cached, shown ⟨by decide, ⟨3600, by decide, rfl⟩, 0, by decide, rfl⟩⟩

end Runs

end Schedule

structure CreateSchedule where
  request : Json

namespace CreateSchedule

def new : CreateSchedule := ⟨.null⟩

section Setters

variable (params : CreateSchedule)

/-- An assignment to a member of the request. -/
def assign (key : String) (value : Json) : Except Exception CreateSchedule := do
  return ⟨← params.request.setMember key value⟩

def setName (name : String) : Except Exception CreateSchedule := params.assign "name" (.str name)

def setDescription (description : String) : Except Exception CreateSchedule :=
  params.assign "description" (.str description)

def setCommand (command : Action) : Except Exception CreateSchedule :=
  params.assign "command" command.toJson

def setTime (zone : TimeZone) (time : TimePattern) : Except Exception CreateSchedule := do
  params.assign "localtime" (.str (String.ofList (← time.toString zone)))

def setStatus (enabled : Bool) : Except Exception CreateSchedule :=
  params.assign "status" (.str (if enabled then "enabled" else "disabled"))

def setAutodelete (autodelete : Bool) : Except Exception CreateSchedule :=
  params.assign "autodelete" (.bool autodelete)

def setRecycle (recycle : Bool) : Except Exception CreateSchedule :=
  params.assign "recycle" (.bool recycle)

def getRequest : Json := params.request

end Setters

/-- A call of a setter. All but `setRecycle` are about an attribute of schedules. -/
inductive Call where
  | schedule (call : Schedule.Call)
  | setRecycle (recycle : Bool)

namespace Call

def run (zone : TimeZone) (params : CreateSchedule) : Call → Except Exception CreateSchedule
  | schedule (.setName name) => params.setName name
  | schedule (.setDescription description) => params.setDescription description
  | schedule (.setCommand command) => params.setCommand command
  | schedule (.setTime timePattern) => params.setTime zone timePattern
  | schedule (.setEnabled enabled) => params.setStatus enabled
  | schedule (.setAutodelete autodelete) => params.setAutodelete autodelete
  | setRecycle recycle => params.setRecycle recycle

/-- The member a call assigns to. -/
def key : Call → String
  | schedule call => call.key
  | setRecycle _ => "recycle"

def value (zone : TimeZone) : Call → Except Exception Json
  | schedule call => call.value zone
  | setRecycle recycle => .ok (.bool recycle)

end Call

variable {zone : TimeZone} {params params' : CreateSchedule}

theorem run_eq (call : Call) : call.run zone params =
    (call.value zone >>= fun value => params.assign call.key value) := by
  cases call with
  | setRecycle recycle => rfl
  | schedule call =>
      cases call with
      | setTime time =>
          change (time.toString zone >>= _) = (time.toString zone >>= _) >>= _
          cases time.toString zone <;> rfl
      | _ => rfl

theorem find?_run {call : Call} (ran : call.run zone params = .ok params') :
    ∃ value, call.value zone = .ok value ∧ ∀ key, params'.request.find? key =
      if call.key = key then some value else params.request.find? key := by
  rw [run_eq] at ran
  obtain ⟨value, made, assigned⟩ := Except.bind_eq_ok_iff.mp ran
  obtain ⟨request, set, done⟩ := Except.bind_eq_ok_iff.mp assigned
  obtain rfl := Except.ok.inj done
  exact ⟨value, made, Json.find?_setMember set⟩

theorem find?_foldlM {calls : List Call} {key : String}
    (untouched : ∀ call ∈ calls, call.key ≠ key)
    (ran : calls.foldlM (Call.run zone) params = .ok params') :
    params'.request.find? key = params.request.find? key := by
  induction calls generalizing params with
  | nil =>
      obtain rfl := Except.ok.inj ran
      rfl
  | cons call calls ih =>
      rw [List.foldlM_cons] at ran
      obtain ⟨next, first, later⟩ := Except.bind_eq_ok_iff.mp ran
      obtain ⟨value, -, found⟩ := find?_run first
      rw [ih (fun call member => untouched call (List.mem_cons_of_mem _ member)) later, found,
        if_neg (untouched call List.mem_cons_self)]

/-- A schedule that has the members of a request shows for each attribute what the last call
about it was given. -/
theorem created_schedule_shows {call : Schedule.Call} {before after : List Call}
    (ran : (before ++ .schedule call :: after).foldlM (Call.run zone) new = .ok params)
    (untouched : ∀ later ∈ after, later.key ≠ call.key) {json : Json}
    (created : ∀ key, json.find? key = params.getRequest.find? key ∨
      params.getRequest.find? key = none) : call.Shown zone json := by
  rw [List.foldlM_append] at ran
  obtain ⟨early, -, rest⟩ := Except.bind_eq_ok_iff.mp ran
  rw [List.foldlM_cons] at rest
  obtain ⟨next, set, later⟩ := Except.bind_eq_ok_iff.mp rest
  obtain ⟨value, made, found⟩ := find?_run set
  have requested : params.getRequest.find? call.key = some value := by
    rw [getRequest, find?_foldlM untouched later, found]
    exact if_pos rfl
  rcases created call.key with same | absent
  · exact Schedule.Call.shown_of_find? zone made (same.trans requested)
  · rw [requested] at absent
    cases absent

end CreateSchedule

end Hueplusplus
