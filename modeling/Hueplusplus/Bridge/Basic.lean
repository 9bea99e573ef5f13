import Hueplusplus.APICache.Basic
import Hueplusplus.Utils

/-!
# The bridge object and its HTTP calls

A `Bridge` holds its address and credentials, and hands out copies of them: a
`HueCommandAPI` in the cache of its whole state, in the caches of its lists and its
configuration on it, and in the factory of its lights. Its own methods use the fields, the
caches use their copies.

The state records every HTTP call with its reply and with what the fields were at that
moment; the record is read by the statements only. The number of the calls so far selects
the reply of the handler. Delays are left out, and the clock is that of the caches.
-/

namespace Hueplusplus

/-- Methods of `IHttpHandler`. -/
inductive HttpVerb where
  | get
  | put
  | post
  | delete
deriving DecidableEq

namespace IHttpHandler

def json (handler : IHttpHandler) : HttpVerb → HttpMethod
  | .get => handler.getJson
  | .put => handler.putJson
  | .post => handler.postJson
  | .delete => handler.deleteJson

/-- What the handler does after `n` more calls. -/
def after (handler : IHttpHandler) (n : ℕ) : IHttpHandler where
  getJson i := handler.getJson (n + i)
  putJson i := handler.putJson (n + i)
  postJson i := handler.postJson (n + i)
  deleteJson i := handler.deleteJson (n + i)

end IHttpHandler

/-- The commands after `n` more calls of the handler. -/
def HueCommandAPI.after (commands : HueCommandAPI) (n : ℕ) : HueCommandAPI :=
  { commands with httpHandler := commands.httpHandler.after n }

/-- An HTTP call of a bridge. -/
structure Exchange where
  verb : HttpVerb
  uri : String
  body : Json
  ip : String
  port : ℤ
  reply : Except Exception Json
  /-- `getBridgeIP()`, `getBridgePort()` and `getUsername()` at that moment. -/
  bridgeIP : String
  bridgePort : ℤ
  username : String
  /-- Calls before this one. -/
  number : ℕ

structure Bridge where
  ip : String
  port : ℤ
  username : String
  clientkey : String
  httpHandler : IHttpHandler
  refreshDuration : ℤ
  sharedState : Bool
  /-- The copies in the caches. -/
  commands : CacheId → HueCommandAPI
  /-- The copy in the factory of `lightList`. -/
  lightFactory : HueCommandAPI
  caches : Caches
  /-- The calls so far, the latest first. -/
  exchanges : List Exchange

abbrev BridgeM := Effect Exception Bridge

namespace APICache

/-- The part of `refresh` after the request of this cache. -/
def takeOver (env : CacheEnv) : CacheId → Json → CacheM Unit
  | [], result => do
    let time ← now env
    record [] time result
    modify fun s => s.update [] fun c => { c with lastRefresh := time }
    modify fun s => s.update [] fun c => { c with value := result }
  | i :: base, result => do
    let time ← now env
    record (i :: base) time result
    modify fun s => s.update (i :: base) fun c => { c with lastRefresh := time }
    storeMember env i base result

end APICache

namespace Bridge

/-- The lists of a bridge and its configuration, in the order of their construction. -/
inductive Part where
  | lights
  | groups
  | schedules
  | scenes
  | sensors
  | rules
  | config
deriving DecidableEq

namespace Part

def entry : Part → String
  | lights => "lights"
  | groups => "groups"
  | schedules => "schedules"
  | scenes => "scenes"
  | sensors => "sensors"
  | rules => "rules"
  | config => "config"

/-- The cache of the part, on `stateCache`. -/
def stateCache : Part → CacheId
  | lights => [0]
  | groups => [1]
  | schedules => [2]
  | scenes => [3]
  | sensors => [4]
  | rules => [5]
  | config => [6]

end Part

/-- The paths of `stateCache`, of the caches on it, and of the resources that share them. -/
def cachePath : CacheId → String
  | [] => ""
  | [0] => Part.lights.entry
  | [1] => Part.groups.entry
  | [2] => Part.schedules.entry
  | [3] => Part.scenes.entry
  | [4] => Part.sensors.entry
  | [5] => Part.rules.entry
  | [6] => Part.config.entry
  | id :: _ => toString id

variable (clock : ℕ → ℤ)

/-- The surroundings of the caches at this moment. -/
def cacheEnv (b : Bridge) : CacheEnv where
  path := cachePath
  clock := clock
  commands _ := (b.commands []).after b.exchanges.length

/-- A computation of the caches that makes no request. -/
def atCaches {α : Type} (x : CacheEnv → CacheM α) : BridgeM α := do
  let b ← get
  let (outcome, caches) := Effect.result (x (b.cacheEnv clock)) b.caches
  modify fun b => { b with caches }
  Effect.ofExcept outcome

/-- A call of the HTTP handler. -/
def http (handler : IHttpHandler) (verb : HttpVerb) (uri : String) (body : Json) (ip : String)
    (port : ℤ) : BridgeM Json := do
  let b ← get
  let reply := handler.json verb b.exchanges.length uri body ip port
  let exchange : Exchange :=
    { verb, uri, body, ip, port, reply
      bridgeIP := b.ip
      bridgePort := b.port
      username := b.username
      number := b.exchanges.length }
  modify fun b => { b with exchanges := exchange :: b.exchanges }
  Effect.ofExcept reply

/-- `RunWithTimeout`: the functor is called once more after the errors that are retried. -/
def runWithTimeout (fn : BridgeM Json) : BridgeM Json :=
  tryCatch fn fun e =>
    match e with
    | .systemError code => if code.retried then fn else throw (.systemError code)
    | e => throw e

/-- The four kinds of requests of a `HueCommandAPI`. -/
def request (commands : HueCommandAPI) (verb : HttpVerb) (path : String) (body : Json) :
    BridgeM Json := do
  let response ← runWithTimeout
    (http commands.httpHandler verb (commands.combinedPath path) body commands.ip commands.port)
  Effect.ofExcept (HueCommandAPI.handleError response)

/-- `commands.GETRequest(getRequestPath(), {})` of a cache. -/
def GETRequest (id : CacheId) : BridgeM Json := do
  let b ← get
  modify fun b => { b with caches := { b.caches with requests := b.caches.requests + 1 } }
  request (b.commands id) .get (APICache.getRequestPath (b.cacheEnv clock) id) (.obj [])

/-- `APICache::refresh`, see `mirrors_refreshCache`. -/
def refreshCache : CacheId → BridgeM Unit
  | [] => do
    let result ← GETRequest clock []
    atCaches clock fun env => APICache.takeOver env [] result
  | i :: base => do
    if ← atCaches clock fun env => APICache.needsRefresh env base then refreshCache base
    else
      let result ← GETRequest clock (i :: base)
      atCaches clock fun env => APICache.takeOver env (i :: base) result

/-- `APICache::getValue`. -/
def getCacheValue (id : CacheId) : BridgeM Json := do
  if ← atCaches clock fun env => APICache.needsRefresh env id then
    refreshCache clock id
  atCaches clock fun env => APICache.cachedValue env id

/-- Caches without a value, each with the refresh duration it is constructed with. -/
def emptyCaches (stateDuration refreshDuration : ℤ) : CacheId → APICache
  | [] => ⟨stateDuration, 0, .null⟩
  | _ => ⟨refreshDuration, 0, .null⟩

/-- The constructor. Each cache takes over the commands of its base. -/
def new (ip : String) (port : ℤ) (username : String) (handler : IHttpHandler)
    (clientkey : String) (refreshDuration : ℤ) (sharedState : Bool) : Bridge :=
  let commands : HueCommandAPI := { ip, port, username, httpHandler := handler }
  { ip, port, username, clientkey, refreshDuration, sharedState
    httpHandler := handler
    commands := fun _ => commands
    lightFactory := commands
    caches := ⟨emptyCaches durationMax refreshDuration, 0, 0, [], []⟩
    exchanges := [] }

def refresh : BridgeM Unit := refreshCache clock []

def setIP (ip : String) : BridgeM Unit := modify fun b => { b with ip }

def setPort (port : ℤ) : BridgeM Unit := modify fun b => { b with port }

/-- All caches and lists are constructed anew. -/
def setHttpHandler (handler : IHttpHandler) : BridgeM Unit := do
  modify fun b => { b with httpHandler := handler }
  modify fun b =>
    let commands : HueCommandAPI :=
      { ip := b.ip, port := b.port, username := b.username, httpHandler := handler }
    { b with
      commands := fun _ => commands
      lightFactory := commands
      caches :=
        { b.caches with
          cache := emptyCaches b.refreshDuration b.refreshDuration
          fetched := []
          history := [] } }
  refreshCache clock []

/-- The error number that `HueAPIResponseException::Create` reads. -/
def errorNumber (response : Json) : Except Exception ℤ := do
  let error ← response.at' "error"
  let errorCode ← match error.find? "type" with
    | some (.num q) => if q.den = 1 then .ok q.num else .ok (-1)
    | some (.str s) => Text.stoi s.toList
    | _ => .ok (-1)
  -- `value` is defined for objects only
  match error with
  | .obj _ =>
    let _ ← (error.find? "address").elim (.ok "") Json.getString
    let _ ← (error.find? "description").elim (.ok "") Json.getString
    return errorCode
  | _ => .error (.jsonException 306)

/-- The body of the request for a username. -/
def usernameRequest : Json :=
  .obj [("devicetype", .str "HuePlusPlus#User"), ("generateclientkey", .bool true)]

/-- A reply without a username ends the loop if it is an error other than 101. -/
def checkRefusal (answer : Json) : Except Exception Unit := do
  if answer.size > 0 then
    let first ← answer.elemOrNull 0
    if first.count "error" then
      -- All errors except 101: Link button not pressed
      if (← errorNumber first) ≠ 101 then
        throw (.hueAPIResponseException first)

/-- What `requestUsername` does with a granted username. -/
def storeCredentials (username : String) (jsonKey : Json) : BridgeM Unit := do
  modify fun b => { b with username }
  -- Update commands with new username and ip
  setHttpHandler clock (← get).httpHandler
  if jsonKey ≠ .null then
    let clientkey ← Effect.ofExcept jsonKey.getString
    modify fun b => { b with clientkey }

/-- One round of the loop of `requestUsername`, and whether it ends with `break`. -/
def usernameRound : BridgeM Bool := do
  let b ← get
  let answer ← http b.httpHandler .post "/api" usernameRequest b.ip b.port
  let jsonUser := Utils.safeGetMember answer 0 ["success", "username"]
  let jsonKey := Utils.safeGetMember answer 0 ["success", "clientkey"]
  if jsonUser ≠ .null then
    let username ← Effect.ofExcept jsonUser.getString
    storeCredentials clock username jsonKey
    return true
  else
    Effect.ofExcept (checkRefusal answer)
    return false

/-- The time allows the loop this number of rounds after the first. -/
def requestUsername : ℕ → BridgeM String
  | 0 => do
    let _ ← usernameRound clock
    return (← get).username
  | rounds + 1 => do
    if ← usernameRound clock then return (← get).username
    else requestUsername rounds

/-- The body of a request to start or stop streaming. -/
def streamRequest (active : Bool) : Json := .obj [("stream", .obj [("active", .bool active)])]

def startStreaming (groupIdentifier : String) : BridgeM Bool := do
  let b ← get
  if b.clientkey.isEmpty then
    throw (.hueException "Cannot stream without client key!")
  let uri := "/api/" ++ b.username ++ "/groups/" ++ groupIdentifier
  let answer ← http b.httpHandler .put uri (streamRequest true) b.ip b.port
  let key := "/groups/" ++ groupIdentifier ++ "/stream/active"
  return decide (Utils.safeGetMember answer 0 ["success", key] = .bool true)

def stopStreaming (groupIdentifier : String) : BridgeM Bool := do
  let b ← get
  let uri := "/api/" ++ b.username ++ "/groups/" ++ groupIdentifier
  let answer ← http b.httpHandler .put uri (streamRequest false) b.ip b.port
  let first ← Effect.ofExcept (answer.elemOrNull 0)
  match first.find? "success" with
  | some success =>
    let key := "/groups/" ++ groupIdentifier ++ "/stream/active"
    return decide (success.find? key = some (.bool false))
  | none => return false

end Bridge

end Hueplusplus
