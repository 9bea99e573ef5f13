import Hueplusplus.Foundation.Effect
import Hueplusplus.Foundation.System
import Hueplusplus.HueCommandAPI

/-!
# Caches of API requests

An `APICache` either holds the JSON of its own requests or keeps it in its base cache,
as a member of the base's value. A cache is named by its place below the root: the root
is `[]`, and `i :: base` is the `i`-th cache constructed on `base`. So a chain of any
depth, and any number of caches on one base, are parts of one tree of caches.

The clock and the bridge are sequences: the readings of the clock, and the commands that
answer the requests, in the order they are made. The records of what was fetched and of what
the caches did are read by the statements only.
-/

namespace Hueplusplus

abbrev CacheId := List ℕ

/-- `duration::max()`, in ticks of the clock. -/
def durationMax : ℤ := 2 ^ 63 - 1

/-- What changes in a cache after its construction. -/
structure APICache where
  refreshDuration : ℤ
  lastRefresh : ℤ
  value : Json

/-- JSON that a request of a cache returned, with the reading of the clock afterwards. -/
structure Fetch where
  id : CacheId
  time : ℤ
  json : Json

/-- What can change a time of refresh. -/
inductive CacheEvent where
  /-- All caches are constructed, with an initial value of the root. -/
  | constructed (time : ℤ)
  /-- The cache has brought its time up to date from its base. -/
  | checked (id : CacheId)
  /-- A request of the cache has returned. -/
  | refreshed (id : CacheId) (time : ℤ)

structure Caches where
  cache : CacheId → APICache
  /-- Readings of the clock so far. -/
  readings : ℕ
  /-- Requests so far. -/
  requests : ℕ
  /-- What was fetched, or given as the initial value, the latest first. -/
  fetched : List Fetch
  /-- What the caches did, the latest first. -/
  history : List CacheEvent

/-- The paths the caches were constructed with, the clock and the bridge. -/
structure CacheEnv where
  path : CacheId → String
  clock : ℕ → ℤ
  commands : ℕ → HueCommandAPI

abbrev CacheM := Effect Exception Caches

/-- The keys from the root's value to that of a cache. -/
def CacheEnv.keys (env : CacheEnv) : CacheId → List String
  | [] => []
  | i :: base => env.keys base ++ [env.path (i :: base)]

namespace Caches

/-- Change one cache. -/
def update (s : Caches) (id : CacheId) (f : APICache → APICache) : Caches :=
  { s with cache := Function.update s.cache id (f (s.cache id)) }

end Caches

namespace APICache

variable (env : CacheEnv)

/-- `steady_clock::now()`. -/
def now : CacheM ℤ := do
  let s ← get
  modify fun s => { s with readings := s.readings + 1 }
  return env.clock s.readings

def getRequestPath : CacheId → String
  | [] => env.path []
  | i :: base => getRequestPath base ++ "/" ++ env.path (i :: base)

/-- `commands.GETRequest(getRequestPath(), {})` of a cache. -/
def GETRequest (id : CacheId) : CacheM Json := do
  let s ← get
  modify fun s => { s with requests := s.requests + 1 }
  Effect.ofExcept ((env.commands s.requests).getRequest (getRequestPath env id) (.obj []))

/-- Note what a request of a cache returned. -/
def record (id : CacheId) (time : ℤ) (json : Json) : CacheM Unit :=
  modify fun s =>
    { s with
      fetched := ⟨id, time, json⟩ :: s.fetched
      history := .refreshed id time :: s.history }

/-- Note that a cache is checked. -/
def recordCheck (id : CacheId) : CacheM Unit :=
  modify fun s => { s with history := .checked id :: s.history }

/-- The end of `needsRefresh`, after `lastRefresh` has been brought up to date. -/
def outdated (id : CacheId) : CacheM Bool := do
  let c := (← get).cache id
  if c.lastRefresh = 0 ∨ c.refreshDuration < 0 then
    -- No value set yet
    return true
  else if durationMax - c.refreshDuration > c.lastRefresh then
    let nextRefresh := c.lastRefresh + c.refreshDuration
    return decide ((← now env) ≥ nextRefresh)
  else return false

def needsRefresh : CacheId → CacheM Bool
  | [] => do
    recordCheck []
    outdated env []
  | i :: base => do
    -- Update lastRefresh in case base was refreshed
    modify fun s => s.update (i :: base) fun c =>
      { c with lastRefresh := max c.lastRefresh (s.cache base).lastRefresh }
    recordCheck (i :: base)
    outdated env (i :: base)

/-- `base->value[path] = result`. -/
def storeMember (i : ℕ) (base : CacheId) (result : Json) : CacheM Unit := do
  let value ← Effect.ofExcept (((← get).cache base).value.setMember (env.path (i :: base)) result)
  modify fun s => s.update base fun c => { c with value := value }

def refresh : CacheId → CacheM Unit
  | [] => do
    let result ← GETRequest env []
    let time ← now env
    record [] time result
    modify fun s => s.update [] fun c => { c with lastRefresh := time }
    modify fun s => s.update [] fun c => { c with value := result }
  | i :: base => do
    if ← needsRefresh env base then refresh base
    else
      let result ← GETRequest env (i :: base)
      let time ← now env
      record (i :: base) time result
      modify fun s => s.update (i :: base) fun c => { c with lastRefresh := time }
      storeMember env i base result

/-- The part of `getValue` after a refresh. -/
def cachedValue : CacheId → CacheM Json
  | [] => do return ((← get).cache []).value
  | i :: base => do
    match ((← get).cache base).value.find? (env.path (i :: base)) with
    | some value => return value
    | none => throw (.hueException "Child path not present in base cache")

def getValue (id : CacheId) : CacheM Json := do
  if ← needsRefresh env id then
    refresh env id
  cachedValue env id

/-- `getValue() const`. -/
def constGetValue (s : Caches) : CacheId → Except Exception Json
  | [] =>
    if (s.cache []).lastRefresh = 0 then
      .error (.hueException ("Tried to call const getValue(), but no value was cached. " ++
        "Call refresh() or non-const getValue() first."))
    else .ok (s.cache []).value
  | i :: base => do (← constGetValue s base).at' (env.path (i :: base))

def setRefreshDuration (id : CacheId) (refreshDuration : ℤ) : CacheM Unit :=
  modify fun s => s.update id fun c => { c with refreshDuration }

end APICache

/-- A call of a member function on a cache of the tree. -/
inductive CacheCall where
  | refresh (id : CacheId)
  | getValue (id : CacheId)
  | setRefreshDuration (id : CacheId) (refreshDuration : ℤ)

def CacheCall.id : CacheCall → CacheId
  | .refresh id | .getValue id | .setRefreshDuration id _ => id

/-- The caches after a call, whether it returned or threw. -/
def CacheCall.run (env : CacheEnv) (s : Caches) : CacheCall → Caches
  | .refresh id => (Effect.result (APICache.refresh env id) s).2
  | .getValue id => (Effect.result (APICache.getValue env id) s).2
  | .setRefreshDuration id d => (Effect.result (APICache.setRefreshDuration id d) s).2

/-- A tree of caches as the constructors leave it: a non-null initial value of the root is
taken to be up to date, and the other caches take over the time of their base. -/
structure Constructed (env : CacheEnv) (s : Caches) : Prop where
  requests : s.requests = 0
  below : ∀ i base, (s.cache (i :: base)).value = .null ∧
    (s.cache (i :: base)).lastRefresh = (s.cache base).lastRefresh
  root : ((s.cache []).value = .null ∧ (s.cache []).lastRefresh = 0 ∧ s.fetched = []) ∨
    ((s.cache []).value ≠ .null ∧ (s.cache []).lastRefresh = env.clock 0 ∧ s.readings = 1 ∧
      s.fetched = [⟨[], env.clock 0, (s.cache []).value⟩])
  history : s.history = s.fetched.map fun f => .constructed f.time

/-- Calls in any order on any caches of the tree. -/
def cacheSystem (env : CacheEnv) : System Caches CacheCall where
  init := Constructed env
  admissible _ _ := True
  step s call := call.run env s

end Hueplusplus
