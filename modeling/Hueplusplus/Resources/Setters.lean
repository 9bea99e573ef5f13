import Hueplusplus.APICache.Moves
import Hueplusplus.Action

/-!
# Setters of scenes, rules and groups

A resource keeps its JSON in a cache, its own root cache or one below the cache of a list.
Each setter PUTs the new attribute and calls `refresh`, which each of the three classes has
in the same form; they differ in whether they force it.
-/

namespace Hueplusplus

namespace APICache

variable (env : CacheEnv)

/-- `getCommandAPI().PUTRequest(path, request)` of a cache. -/
def PUTRequest (path : String) (request : Json) : CacheM Json := do
  let s ← get
  modify fun s => { s with requests := s.requests + 1 }
  Effect.ofExcept ((env.commands s.requests).putRequest path request)

/-- The member function `refresh(bool force)` of a resource with the cache `state`. -/
def refreshState (state : CacheId) (force : Bool) : CacheM Unit :=
  if force then refresh env state
  else do
    let _ ← getValue env state
    return

/-- In all surroundings the computation starts with this PUT. -/
def Puts (setter : CacheEnv → CacheM Unit) (path : String) (request : Json) : Prop :=
  ∀ env, ∃ next : Json → CacheM Unit, setter env = PUTRequest env path request >>= next

/-- Commands to a bridge that answers every PUT by throwing its body. -/
def throwingCommands : HueCommandAPI where
  ip := "192.168.2.1"
  port := 80
  username := "username"
  httpHandler :=
    { getJson := fun _ _ _ _ _ => .ok .null
      putJson := fun _ _ body _ _ => .error (.hueAPIResponseException body)
      postJson := fun _ _ _ _ _ => .ok .null
      deleteJson := fun _ _ _ _ _ => .ok .null }

/-- A computation starts with at most one PUT. -/
theorem Puts.unique {setter : CacheEnv → CacheM Unit} {path path' : String}
    {request request' : Json} (first : Puts setter path request)
    (second : Puts setter path' request') : request = request' := by
  let env : CacheEnv := ⟨fun _ => "", fun _ => 0, fun _ => throwingCommands⟩
  let s : Caches := ⟨fun _ => ⟨0, 0, .null⟩, 0, 0, [], []⟩
  have thrown : ∀ {path : String} {request : Json}, Puts setter path request →
      (Effect.result (setter env) s).1 = .error (.hueAPIResponseException request) := by
    intro path request puts
    obtain ⟨next, same⟩ := puts env
    rw [same]
    rfl
  have same := (thrown first).symm.trans (thrown second)
  exact Exception.hueAPIResponseException.inj (Except.error.inj same)

end APICache

namespace Json

/-- A vector written into a null value by `push_back`: an empty one leaves it null. -/
def pushBackAll : List Json → Json
  | [] => .null
  | elems => .arr elems

@[simp] theorem elements_pushBackAll (elems : List Json) :
    (pushBackAll elems).elements = elems := by
  cases elems with
  | nil => rfl
  | cons first rest => exact elements_arr _

end Json

namespace Condition

inductive Operator where
  | eq
  | gt
  | lt
  | dx
  | ddx
  | stable
  | notStable
  | in
  | notIn

end Condition

structure Condition where
  address : String
  op : Condition.Operator
  value : String

namespace Condition

def Operator.opStr : Operator → String
  | eq => "eq"
  | gt => "gt"
  | lt => "lt"
  | dx => "dx"
  | ddx => "ddx"
  | stable => "stable"
  | notStable => "not stable"
  | Operator.in => "in"
  | notIn => "not in"

def toJson (c : Condition) : Json :=
  let result := [("address", .str c.address), ("operator", .str c.op.opStr)]
  if c.value.isEmpty then .obj result else .obj (result ++ [("value", .str c.value)])

end Condition

structure Scene where
  id : String
  state : CacheId

namespace Scene

/-- `hueplusplus::LightState`, the state a scene keeps for a light. -/
structure LightState where
  state : Json

def LightState.toJson (s : LightState) : Json := s.state

variable (env : CacheEnv) (scene : Scene)

def refresh (force : Bool) : CacheM Unit := APICache.refreshState env scene.state force

def sendPutRequest (path : String) (request : Json) : CacheM Unit := do
  let _ ← APICache.PUTRequest env ("/scenes/" ++ scene.id ++ path) request

def setName (name : String) : CacheM Unit := do
  scene.sendPutRequest env "" (.obj [("name", .str name)])
  scene.refresh env false

def setLightIds (ids : List ℤ) : CacheM Unit := do
  let lightsJson := Json.pushBackAll (ids.map fun id => .str (toString id))
  scene.sendPutRequest env "" (.obj [("lights", lightsJson)])
  scene.refresh env false

def setAppdata (data : String) (version : ℤ) : CacheM Unit := do
  let appdata := Json.obj [("data", .str data), ("version", .num version)]
  scene.sendPutRequest env "" (.obj [("appdata", appdata)])
  scene.refresh env false

def setLightStates (states : OrderedMap ℤ LightState) : CacheM Unit := do
  let lightStates ← Effect.ofExcept (states.entries.foldlM
    (fun json entry => json.setMember (toString entry.1) entry.2.toJson) Json.null)
  scene.sendPutRequest env "" (.obj [("lightstates", lightStates)])
  scene.refresh env false

def storeCurrentLightState : CacheM Unit := do
  scene.sendPutRequest env "" (.obj [("storelightstate", .bool true)])
  scene.refresh env false

def storeCurrentLightStateWith (transition : ℤ) : CacheM Unit := do
  scene.sendPutRequest env ""
    (.obj [("storelightstate", .bool true), ("transitiontime", .num transition)])
  scene.refresh env false

end Scene

structure Rule where
  id : ℤ
  state : CacheId

namespace Rule

variable (env : CacheEnv) (rule : Rule)

def refresh (force : Bool) : CacheM Unit := APICache.refreshState env rule.state force

def sendPutRequest (request : Json) : CacheM Json :=
  APICache.PUTRequest env ("/rules/" ++ toString rule.id) request

def setName (name : String) : CacheM Unit := do
  let _ ← rule.sendPutRequest env (.obj [("name", .str name)])
  rule.refresh env true

def setEnabled (enabled : Bool) : CacheM Unit := do
  let status := if enabled then "enabled" else "disabled"
  let _ ← rule.sendPutRequest env (.obj [("status", .str status)])
  rule.refresh env true

def setConditions (conditions : List Condition) : CacheM Unit := do
  let json := Json.pushBackAll (conditions.map Condition.toJson)
  let _ ← rule.sendPutRequest env (.obj [("conditions", json)])
  rule.refresh env true

def setActions (actions : List Action) : CacheM Unit := do
  let json := Json.pushBackAll (actions.map Action.toJson)
  let _ ← rule.sendPutRequest env (.obj [("actions", json)])
  rule.refresh env true

end Rule

structure Group where
  id : ℤ
  state : CacheId

namespace Group

variable (env : CacheEnv) (group : Group)

def refresh (force : Bool) : CacheM Unit := APICache.refreshState env group.state force

def sendPutRequest (subPath : String) (request : Json) : CacheM Json :=
  APICache.PUTRequest env ("/groups/" ++ toString group.id ++ subPath) request

def setName (name : String) : CacheM Unit := do
  let _ ← group.sendPutRequest env "" (.obj [("name", .str name)])
  group.refresh env true

def setLights (ids : List ℤ) : CacheM Unit := do
  let lights := Json.arr (ids.map fun id => .str (toString id))
  let _ ← group.sendPutRequest env "" (.obj [("lights", lights)])
  group.refresh env true

def setRoomType (type : String) : CacheM Unit := do
  let _ ← group.sendPutRequest env "" (.obj [("class", .str type)])
  group.refresh env true

end Group

end Hueplusplus
