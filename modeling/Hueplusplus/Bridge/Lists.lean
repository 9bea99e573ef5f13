import Hueplusplus.APICache.Views
import Hueplusplus.ResourceList
import Hueplusplus.Light.Basic

/-!
# The lists of a bridge and its configuration

The operations of the resource lists, and those of `BridgeConfig` that make requests. The
resources that a list constructs share its cache, or have a cache of their own, which is
filled at construction.
-/

namespace Hueplusplus

/-- The cache of a resource. -/
inductive ResourceState where
  | shared (base : CacheId)
  | own (commands : HueCommandAPI) (path : String) (cache : APICache)

structure Resource (α : Type) where
  id : α
  state : ResourceState

namespace LightFactory

/-- `lightState.value("type", "")`. -/
def typeName (lightState : Json) : Except Exception String :=
  match lightState with
  | .obj _ => (lightState.find? "type").elim (.ok "") Json.getString
  | _ => .error (.jsonException 306)

/-- The cases of `createLight`, which ignore the case of the letters. -/
def lightType? (type : String) : Option LightType :=
  match type.map Char.toLower with
  | "on/off light" | "on/off plug-in unit" => some .onOff
  | "dimmable light" | "dimmable plug-in unit" => some .dimmable
  | "color temperature light" => some .colorTemperature
  | "color light" => some .color
  | "extended color light" => some .extendedColor
  | _ => none

/-- What `getColorType` reads. -/
def checkColorType (lightState : Json) : Except Exception Unit := do
  match lightState.follow ["capabilities", "control", "colorgamuttype"] with
  | some (.str _) => return
  | _ =>
    -- Old version without capabilities, fall back to hardcoded types
    let _ ← (← lightState.at' "modelid").getString
    return

/-- The part of `createLight` after the construction of the light. -/
def checkLightType (type : String) (lightState : Json) : Except Exception LightType :=
  match lightType? type with
  | none => .error (.hueException "Could not determine Light type!")
  | some .color => do
    checkColorType lightState
    return .color
  | some .extendedColor => do
    checkColorType lightState
    return .extendedColor
  | some type => return type

end LightFactory

namespace Bridge

variable (clock : ℕ → ℤ)

/-- The time of refresh of a new cache without a base. -/
def initialRefresh (initial : Json) : BridgeM ℤ :=
  if initial = .null then return 0 else atCaches clock fun env => APICache.now env

/-- `refresh` of a cache without a base. -/
def refreshOwn (commands : HueCommandAPI) (path : String) (cache : APICache) :
    BridgeM APICache := do
  let value ← request commands .get path (.obj [])
  let lastRefresh ← atCaches clock fun env => APICache.now env
  return { cache with lastRefresh, value }

/-- `needsRefresh` of a cache without a base. -/
def needsRefreshOwn (cache : APICache) : BridgeM Bool := do
  if cache.lastRefresh = 0 ∨ cache.refreshDuration < 0 then
    -- No value set yet
    return true
  else if durationMax - cache.refreshDuration > cache.lastRefresh then
    let nextRefresh := cache.lastRefresh + cache.refreshDuration
    return decide ((← atCaches clock fun env => APICache.now env) ≥ nextRefresh)
  else return false

/-- `getValue` of a cache without a base. -/
def getOwnValue (commands : HueCommandAPI) (path : String) (cache : APICache) :
    BridgeM APICache := do
  if ← needsRefreshOwn clock cache then refreshOwn clock commands path cache
  else return cache

/-- The commands that a new resource takes over. -/
def resourceCommands (b : Bridge) : Part → HueCommandAPI
  | .lights => b.lightFactory
  | part => b.commands part.stateCache

def resourceDuration (b : Bridge) : Part → ℤ
  | .lights => b.refreshDuration
  | part => (b.caches.cache part.stateCache).refreshDuration

/-- The cache of a new resource, by its entry in the list. -/
def resourceState (part : Part) (key : String) (state : Json) : BridgeM ResourceState := do
  let b ← get
  if b.sharedState then return .shared part.stateCache
  else
    let commands := b.resourceCommands part
    let path := "/" ++ part.entry ++ "/" ++ key
    let lastRefresh ← initialRefresh clock state
    let cache : APICache := ⟨b.resourceDuration part, lastRefresh, state⟩
    match part with
    | .schedules => return .own commands path (← refreshOwn clock commands path cache)
    | _ => return .own commands path (← getOwnValue clock commands path cache)

section Lists

variable {α : Type} [IdType α]

def construct (part : Part) (id : α) (state : Json) : BridgeM (Resource α) := do
  match part with
  | .lights =>
    let type ← Effect.ofExcept (LightFactory.typeName state)
    let resource := ⟨id, ← resourceState clock part (maybeToString id) state⟩
    let _ ← Effect.ofExcept (LightFactory.checkLightType type state)
    return resource
  | _ => return ⟨id, ← resourceState clock part (maybeToString id) state⟩

/-- A request through `stateCache->getCommandAPI()`. -/
def listRequest (part : Part) (verb : HttpVerb) (path : String) (body : Json) :
    BridgeM Json := do
  let b ← get
  request (b.commands part.stateCache) verb path body

/-- The cache of a list, with the calls that it makes. -/
def listCache (part : Part) : ListCache Bridge where
  getRequestPath := "/" ++ part.entry
  getValue := getCacheValue clock part.stateCache
  refresh := refreshCache clock part.stateCache
  request := listRequest part

def constructAll (part : Part) :
    List (Option String × Json) → BridgeM (List (Resource α)) :=
  ListCache.constructAll (construct clock part)

def getAll (part : Part) : BridgeM (List (Resource α)) :=
  (listCache clock part).getAll (construct clock part)

def getResource (part : Part) (id : α) : BridgeM (Resource α) :=
  (listCache clock part).getResource (construct clock part) id

def getGroup (id : ℤ) : BridgeM (Resource ℤ) :=
  (listCache clock .groups).getGroup (construct clock .groups) id

def existsResource (part : Part) (id : α) : BridgeM Bool := (listCache clock part).existsResource id

def existsGroup (id : ℤ) : BridgeM Bool := (listCache clock .groups).existsGroup id

def removeResource (part : Part) (id : α) : BridgeM Bool := (listCache clock part).removeResource id

def search (part : Part) (deviceIds : List String) : BridgeM Unit :=
  (listCache clock part).search deviceIds

def getNewDevices (part : Part) : BridgeM Json := (listCache clock part).getNewDevices

def create [Inhabited α] (part : Part) (params : Json) : BridgeM α :=
  (listCache clock part).create params

theorem existsResource_eq (part : Part) (id : α) : existsResource clock part id = (do
    let state ← getCacheValue clock part.stateCache
    return state.count (maybeToString id)) := rfl

theorem existsGroup_eq (id : ℤ) : existsGroup clock id =
    if id = 0 then pure true else existsResource clock .groups id := rfl

theorem getResource_eq (part : Part) (id : α) : getResource clock part id = (do
    let state ← getCacheValue clock part.stateCache
    match state.find? (maybeToString id) with
    | some value => construct clock part id value
    | none => throw (.hueException "Resource id is not valid")) := rfl

theorem getGroup_eq (id : ℤ) : getGroup clock id = (do
    let state ← getCacheValue clock Part.groups.stateCache
    if id = 0 then construct clock .groups id (.arr [.null])
    else
      match state.find? (maybeToString id) with
      | some value => construct clock .groups id value
      | none => throw (.hueException "Resource id is not valid")) := rfl

theorem getAll_eq (part : Part) : (getAll clock part : BridgeM (List (Resource α))) = (do
    let state ← getCacheValue clock part.stateCache
    constructAll clock part state.items) := rfl

end Lists

def refreshConfig (force : Bool) : BridgeM Unit := do
  if force then refreshCache clock Part.config.stateCache
  else
    let _ ← getCacheValue clock Part.config.stateCache

def removeUser (userKey : String) : BridgeM Unit := do
  let _ ← listRequest .config .delete ("/config/whitelist/" ++ userKey) (.obj [])

def pressLinkButton : BridgeM Unit := do
  let _ ← listRequest .config .put "/config" (.obj [("linkbutton", .bool true)])

def touchLink : BridgeM Unit := do
  let _ ← listRequest .config .put "/config" (.obj [("touchlink", .bool true)])

end Bridge

end Hueplusplus
