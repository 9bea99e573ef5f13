import Hueplusplus.Foundation.System
import Hueplusplus.Resources.LightIds

/-!
# Requests for new scenes

A scene has a group or a list of lights, and its type says which. The setters of `CreateScene`
write the members of the request one after the other, and what is written stays when a later
statement throws. The check for the other member comes first, and behind it nothing throws, so
a setter either makes all its changes or none.
-/

namespace Hueplusplus

open Effect

namespace CreateScene

/-- A call of any setter. -/
inductive BuilderCall where
  | setName (name : String)
  | setGroupId (id : ℤ)
  | setLightIds (ids : List ℤ)
  | setRecycle (recycle : Bool)
  | setAppdata (data : String) (version : ℤ)
  | setLightStates (states : OrderedMap ℤ Scene.LightState)

/-- The request after a call that returns. -/
def BuilderCall.run (params : CreateScene) : BuilderCall → Except Exception CreateScene
  | .setName name => params.setName name
  | .setGroupId id => params.setGroupId id
  | .setLightIds ids => params.setLightIds ids
  | .setRecycle recycle => params.setRecycle recycle
  | .setAppdata data version => params.setAppdata data version
  | .setLightStates states => params.setLightStates states

namespace Stepwise

abbrev BuilderM := Effect Exception CreateScene

/-- `request[key] = value`. -/
def assign (key : String) (value : Json) : BuilderM Unit := do
  let assigned ← Effect.ofExcept ((← get).assign key value)
  modify fun _ => assigned

/-- The check at the start of `setGroupId` and `setLightIds`. -/
def checkAbsent (key : String) : BuilderM Unit := do
  if (← get).request.count key then
    throw (.hueException "Can only set either group or lights")

def setName (name : String) : BuilderM Unit := assign "name" (.str name)

def setGroupId (id : ℤ) : BuilderM Unit := do
  checkAbsent "lights"
  assign "group" (.str (toString id))
  assign "type" (.str "GroupScene")

def setLightIds (ids : List ℤ) : BuilderM Unit := do
  checkAbsent "group"
  let lights := Json.pushBackAll (ids.map fun id => .str (toString id))
  assign "lights" lights
  assign "type" (.str "LightScene")

def setRecycle (recycle : Bool) : BuilderM Unit := assign "recycle" (.bool recycle)

def setAppdata (data : String) (version : ℤ) : BuilderM Unit :=
  assign "appdata" (.obj [("data", .str data), ("version", .num version)])

def setLightStates (states : OrderedMap ℤ Scene.LightState) : BuilderM Unit := do
  let statesJson ← Effect.ofExcept (states.entries.foldlM
    (fun json entry => json.setMember (toString entry.1) entry.2.toJson) Json.null)
  assign "lightstates" statesJson

def call : BuilderCall → BuilderM Unit
  | .setName name => setName name
  | .setGroupId id => setGroupId id
  | .setLightIds ids => setLightIds ids
  | .setRecycle recycle => setRecycle recycle
  | .setAppdata data version => setAppdata data version
  | .setLightStates states => setLightStates states

end Stepwise

/-- Calls in any order, each of which may throw. -/
def builderSystem : System CreateScene BuilderCall where
  init params := params = new
  admissible _ _ := True
  step params call := (result (Stepwise.call call) params).2

/-- A call that returns leaves this request, and one that throws the old one. -/
def atomic (params : CreateScene) :
    Except Exception CreateScene → Except Exception Unit × CreateScene
  | .ok changed => (.ok (), changed)
  | .error e => (.error e, params)

section Atomic

variable {params changed : CreateScene}

@[simp] theorem result_assign (params : CreateScene) (key : String) (value : Json) :
    result (Stepwise.assign key value) params = params.atomic (params.assign key value) := by
  simp only [Stepwise.assign, result_bind, result_get, result_ofExcept]
  cases params.assign key value <;> rfl

/-- After one assignment the next cannot throw. -/
theorem exists_assign_of_assign {key : String} {value : Json}
    (first : params.assign key value = .ok changed) (key' : String) (value' : Json) :
    ∃ final, changed.assign key' value' = .ok final := by
  obtain ⟨request, set, done⟩ := Except.bind_eq_ok_iff.mp first
  obtain rfl := Except.ok.inj done
  have object : ∃ members, request = .obj members := by
    cases same : params.request with
    | null | obj members =>
        rw [same] at set
        exact ⟨_, (Except.ok.inj set).symm⟩
    | _ => rw [same] at set; cases set
  obtain ⟨members, rfl⟩ := object
  exact ⟨_, rfl⟩

/-- Two assignments are made or neither of them is. -/
theorem result_assign_assign (params : CreateScene) (key key' : String) (value value' : Json) :
    result (do Stepwise.assign key value; Stepwise.assign key' value') params =
      params.atomic (do (← params.assign key value).assign key' value') := by
  rw [result_bind, result_assign]
  cases first : params.assign key value with
  | error e => rfl
  | ok changed =>
      obtain ⟨final, second⟩ := exists_assign_of_assign first key' value'
      simp [atomic, second]

@[simp] theorem result_checkAbsent (key : String) (rest : Stepwise.BuilderM Unit) :
    result (do Stepwise.checkAbsent key; rest) params =
      if params.request.count key then
        params.atomic (.error (.hueException "Can only set either group or lights"))
      else result rest params := by
  simp only [Stepwise.checkAbsent, result_bind, result_get]
  cases params.request.count key <;> rfl

/-- The statements of a setter do what the setter does as a whole. -/
@[simp] theorem result_call (params : CreateScene) (call : BuilderCall) :
    result (Stepwise.call call) params = params.atomic (call.run params) := by
  cases call with
  | setName | setRecycle | setAppdata => exact result_assign params _ _
  | setGroupId id =>
      refine (result_checkAbsent "lights" _).trans ?_
      simp only [BuilderCall.run, setGroupId, result_assign_assign]
      cases params.request.count "lights" <;> rfl
  | setLightIds ids =>
      refine (result_checkAbsent "group" _).trans ?_
      simp only [BuilderCall.run, setLightIds, result_assign_assign]
      cases params.request.count "group" <;> rfl
  | setLightStates states =>
      simp only [Stepwise.call, Stepwise.setLightStates, BuilderCall.run, setLightStates,
        result_bind, result_ofExcept]
      cases states.entries.foldlM
        (fun json entry => json.setMember (toString entry.1) entry.2.toJson) Json.null with
      | error e => rfl
      | ok statesJson => exact result_assign params _ _

end Atomic

/-- The request has a group or lights or neither, and the type that says which. -/
structure Consistent (request : Json) : Prop where
  exclusive : ¬ (request.count "group" = true ∧ request.count "lights" = true)
  groupScene : request.find? "type" = some (.str "GroupScene") ↔ request.count "group" = true
  lightScene : request.find? "type" = some (.str "LightScene") ↔ request.count "lights" = true
  untyped : request.find? "type" = none ↔
    request.count "group" = false ∧ request.count "lights" = false

section Requests

variable {params changed : CreateScene}

theorem Consistent.ofGroup {request : Json} (group : request.count "group" = true)
    (lights : request.count "lights" = false)
    (type : request.find? "type" = some (.str "GroupScene")) : Consistent request := by
  constructor <;> simp [group, lights, type]

theorem Consistent.ofLights {request : Json} (group : request.count "group" = false)
    (lights : request.count "lights" = true)
    (type : request.find? "type" = some (.str "LightScene")) : Consistent request := by
  constructor <;> simp [group, lights, type]

theorem consistent_new : Consistent new.request := by
  constructor <;> simp [new, Json.count, Json.find?]

/-- An assignment to any other member keeps the three. -/
theorem Consistent.assign {key : String} {value : Json} (h : Consistent params.request)
    (assigned : params.assign key value = .ok changed)
    (other : key ∉ ["group", "lights", "type"]) : Consistent changed.request := by
  simp only [List.mem_cons, List.not_mem_nil, or_false, not_or] at other
  have group : changed.request.count "group" = params.request.count "group" := by
    rw [Json.count, find?_assign assigned, if_neg other.1, Json.count]
  have lights : changed.request.count "lights" = params.request.count "lights" := by
    rw [Json.count, find?_assign assigned, if_neg other.2.1, Json.count]
  have type : changed.request.find? "type" = params.request.find? "type" := by
    rw [find?_assign assigned, if_neg other.2.2]
  constructor
  · rw [group, lights]
    exact h.exclusive
  · rw [type, group]
    exact h.groupScene
  · rw [type, lights]
    exact h.lightScene
  · rw [type, group, lights]
    exact h.untyped

theorem consistent_setGroupId {id : ℤ} (set : params.setGroupId id = .ok changed) :
    Consistent changed.request := by
  unfold setGroupId at set
  split at set
  · cases set
  · rename_i noLights
    obtain ⟨middle, group, type⟩ := Except.bind_eq_ok_iff.mp set
    apply Consistent.ofGroup
    · simp [Json.count, find?_assign type, find?_assign group]
    · simpa [Json.count, find?_assign type, find?_assign group] using noLights
    · simp [find?_assign type]

theorem consistent_setLightIds {ids : List ℤ} (set : params.setLightIds ids = .ok changed) :
    Consistent changed.request := by
  unfold setLightIds at set
  split at set
  · cases set
  · rename_i noGroup
    obtain ⟨middle, lights, type⟩ := Except.bind_eq_ok_iff.mp set
    apply Consistent.ofLights
    · simpa [Json.count, find?_assign type, find?_assign lights] using noGroup
    · simp [Json.count, find?_assign type, find?_assign lights]
    · simp [find?_assign type]

theorem Consistent.run (h : Consistent params.request) {call : BuilderCall}
    (ran : call.run params = .ok changed) : Consistent changed.request := by
  cases call with
  | setName | setRecycle | setAppdata => exact h.assign ran (by decide)
  | setGroupId id => exact consistent_setGroupId ran
  | setLightIds ids => exact consistent_setLightIds ran
  | setLightStates states =>
      obtain ⟨_, _, assigned⟩ := Except.bind_eq_ok_iff.mp ran
      exact h.assign assigned (by decide)

end Requests

theorem consistent_invariant : builderSystem.Invariant fun params => Consistent params.request where
  init params start := by
    rw [show params = new from start]
    exact consistent_new
  step params call h _ := by
    change Consistent (result (Stepwise.call call) params).2.request
    rw [result_call]
    cases ran : call.run params with
    | error e => exact h
    | ok changed => exact h.run ran

/-- After any calls the request has a group or lights or neither, and the type says which; a
call that throws leaves it as it was. -/
theorem request_consistent (calls : List BuilderCall) :
    Consistent (builderSystem.run new calls).getRequest ∧
      ∀ (call : BuilderCall) (e : Exception) (after : CreateScene),
        result (Stepwise.call call) (builderSystem.run new calls) = (.error e, after) →
          after.getRequest = (builderSystem.run new calls).getRequest := by
  constructor
  · exact consistent_invariant.holds ((System.Reachable.init rfl).run (fun _ _ => trivial) calls)
  · intro call e after threw
    rw [result_call] at threw
    cases ran : call.run (builderSystem.run new calls) with
    | ok changed => rw [ran] at threw; cases threw
    | error e =>
        rw [ran] at threw
        rw [← (Prod.mk.inj threw).2]

end CreateScene

end Hueplusplus
