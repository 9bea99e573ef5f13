import Hueplusplus.Bridge.Address
import Hueplusplus.Foundation.Alike

/-!
# Two bridges that differ in one refresh duration

The constructor gives the cache of the whole state no limit of age, `setHttpHandler` gives it
the refresh duration of the lists. Two bridges that differ in this alone make the same
requests in everything but the check whether the whole state is outdated.
-/

namespace Hueplusplus

open Effect

/-- The caches hold the same. Only the root of the first has no limit of age. -/
structure Caches.Twin (refreshDuration : ℤ) (s t : Caches) : Prop where
  value : ∀ id, (t.cache id).value = (s.cache id).value
  last : ∀ id, (t.cache id).lastRefresh = (s.cache id).lastRefresh
  duration : ∀ id, (t.cache id).refreshDuration = refreshDuration
  unlimited : (s.cache []).refreshDuration = durationMax
  below : ∀ i base, (s.cache (i :: base)).refreshDuration = refreshDuration
  set : 0 ≤ (s.cache []).lastRefresh

namespace Caches

variable {d : ℤ} {s t : Caches}

theorem Twin.lastRefresh (twin : Twin d s t) (id : CacheId) :
    t.lastRefresh id = s.lastRefresh id := by
  cases id with
  | nil => exact twin.last []
  | cons i base => rw [Caches.lastRefresh, Caches.lastRefresh, twin.last, twin.last]

/-- Of the checks, only that of the root can differ. -/
theorem Twin.staleAt_child (twin : Twin d s t) (i : ℕ) (base : CacheId) (time : ℤ) :
    t.staleAt (i :: base) time = s.staleAt (i :: base) time := by
  rw [staleAt, staleAt, twin.lastRefresh, twin.duration, twin.below]

/-- The root of the first is stale only before its first refresh. -/
theorem Twin.staleAt_root (twin : Twin d s t) (time : ℤ) :
    s.staleAt [] time = true ↔ (s.cache []).lastRefresh = 0 := by
  have set := twin.set
  have last : s.lastRefresh [] = (s.cache []).lastRefresh := rfl
  simp only [staleAt, last, twin.unlimited, durationMax, Bool.or_eq_true, Bool.and_eq_true,
    decide_eq_true_eq]
  omega

theorem Twin.checked (twin : Twin d s t) (id : CacheId) : Twin d (s.checked id) (t.checked id) where
  value other := by rw [checked_value, checked_value, twin.value]
  last other := by rw [checked_lastRefresh, checked_lastRefresh, twin.lastRefresh, twin.last]
  duration other := by rw [checked_refreshDuration, twin.duration]
  unlimited := by rw [checked_refreshDuration, twin.unlimited]
  below i base := by rw [checked_refreshDuration, twin.below]
  set := by
    rw [checked_root_lastRefresh]
    exact twin.set

theorem arrived_lastRefresh (env : CacheEnv) (s : Caches) (id other : CacheId) (json : Json) :
    ((s.arrived env id json).cache other).lastRefresh =
      if other = id then env.clock s.readings else (s.cache other).lastRefresh := by
  rw [arrived_cache]
  split <;> rfl

/-- Both have received the same at the same time. -/
theorem Twin.arrived (twin : Twin d s t) {env env' : CacheEnv} {time : ℤ} (nonneg : 0 ≤ time)
    (now : env.clock s.readings = time) (now' : env'.clock t.readings = time) (id : CacheId)
    (json : Json) : Twin d (s.arrived env id json) (t.arrived env' id json) where
  value other := by rw [arrived_value, arrived_value, twin.value]
  last other := by rw [arrived_lastRefresh, arrived_lastRefresh, now, now', twin.last]
  duration other := by rw [arrived_refreshDuration, twin.duration]
  unlimited := by rw [arrived_refreshDuration, twin.unlimited]
  below i base := by rw [arrived_refreshDuration, twin.below]
  set := by
    rw [arrived_lastRefresh, now]
    split
    · exact nonneg
    · exact twin.set

theorem Twin.store (twin : Twin d s t) (id : CacheId) (value : Json) :
    Twin d (s.store id value) (t.store id value) where
  value other := by
    rw [store_cache, store_cache, apply_ite APICache.value, apply_ite APICache.value, twin.value]
  last other := by rw [store_lastRefresh, store_lastRefresh, twin.last]
  duration other := by rw [store_refreshDuration, twin.duration]
  unlimited := by rw [store_refreshDuration, twin.unlimited]
  below i base := by rw [store_refreshDuration, twin.below]
  set := by
    rw [store_lastRefresh]
    exact twin.set

/-- The numbers of readings and requests, and the record, may differ. -/
theorem Twin.counted (twin : Twin d s t) (readings readings' requests requests' : ℕ)
    (fetched fetched' : List Fetch) :
    Twin d { s with readings, requests, fetched }
      { t with readings := readings', requests := requests', fetched := fetched' } :=
  ⟨twin.value, twin.last, twin.duration, twin.unlimited, twin.below, twin.set⟩

end Caches

/-- What a call asks for, and where. -/
def Exchange.asked (e : Exchange) : HttpVerb × String × Json × String × ℤ :=
  (e.verb, e.uri, e.body, e.ip, e.port)

/-- Since they had these records, both have made the same calls. -/
def Bridge.SameCalls (before before' : List Exchange) (a b : Bridge) : Prop :=
  ∃ new new', a.exchanges = new ++ before ∧ b.exchanges = new' ++ before' ∧
    new.map Exchange.asked = new'.map Exchange.asked

/-- Two bridges with the same credentials, whose handlers give the same replies to the same GETs
from the calls on that each has made before. -/
structure Connection where
  ip : String
  port : ℤ
  username : String
  refreshDuration : ℤ
  handler : IHttpHandler
  handler' : IHttpHandler
  before : List Exchange
  before' : List Exchange
  replies : ∀ i, handler.getJson (before.length + i) = handler'.getJson (before'.length + i)

namespace Connection

def commands (c : Connection) : HueCommandAPI where
  ip := c.ip
  port := c.port
  username := c.username
  httpHandler := c.handler

def commands' (c : Connection) : HueCommandAPI := { c.commands with httpHandler := c.handler' }

/-- The bridges differ in the refresh duration of the root only, and have made the same calls. -/
structure Twin (c : Connection) (a b : Bridge) : Prop where
  caches : Caches.Twin c.refreshDuration a.caches b.caches
  commands : ∀ id, a.commands id = c.commands
  commands' : ∀ id, b.commands id = c.commands'
  lightFactory : a.lightFactory = c.commands
  lightFactory' : b.lightFactory = c.commands'
  refreshDuration : a.refreshDuration = b.refreshDuration
  sharedState : a.sharedState = b.sharedState
  calls : Bridge.SameCalls c.before c.before' a b

variable {c : Connection}

theorem alike_http (uri : String) (body : Json) :
    Alike c.Twin Eq (Bridge.http c.handler .get uri body c.ip c.port)
      (Bridge.http c.handler' .get uri body c.ip c.port) := by
  intro a b twin
  obtain ⟨new, new', log, log', same⟩ := twin.calls
  have counted : new.length = new'.length := by simpa using congrArg List.length same
  let e := a.call c.handler .get uri body c.ip c.port
  let e' := b.call c.handler' .get uri body c.ip c.port
  have replied : e.reply = e'.reply := by
    change c.handler.getJson a.exchanges.length uri body c.ip c.port =
      c.handler'.getJson b.exchanges.length uri body c.ip c.port
    rw [log, log', List.length_append, List.length_append, counted, Nat.add_comm, c.replies,
      Nat.add_comm]
  have after : c.Twin { a with exchanges := e :: a.exchanges }
      { b with exchanges := e' :: b.exchanges } :=
    { twin with
      calls := ⟨e :: new, e' :: new', congrArg (e :: ·) log, congrArg (e' :: ·) log', by
        rw [List.map_cons, List.map_cons, same]
        rfl⟩ }
  rw [Bridge.result_http, Bridge.result_http]
  change Agree c.Twin Eq (e.reply, _) (e'.reply, _)
  rw [replied]
  cases e'.reply with
  | error err => exact .threw after
  | ok json => exact .returned rfl after

theorem alike_runWithTimeout {x y : BridgeM Json} (alike : Alike c.Twin Eq x y) :
    Alike c.Twin Eq (Bridge.runWithTimeout x) (Bridge.runWithTimeout y) := by
  refine alike_tryCatch alike fun e => ?_
  cases e with
  | systemError code =>
      cases retried : code.retried with
      | true => simpa only [retried, if_true] using alike
      | false => simpa only [retried, Bool.false_eq_true, if_false] using alike_throw _
  | _ => exact alike_throw _

theorem alike_request (path : String) (body : Json) :
    Alike c.Twin Eq (Bridge.request c.commands .get path body)
      (Bridge.request c.commands' .get path body) :=
  (alike_runWithTimeout (alike_http _ body)).bind fun _ _ same => same ▸ alike_ofExcept _

section Caches

open APICache

variable (time : ℤ)

/-- Of a computation of the caches only the caches and its value matter. -/
theorem alike_atCaches {α : Type} {S : α → α → Prop} {x : CacheEnv → CacheM α}
    (agree : ∀ (commands commands' : ℕ → HueCommandAPI) s t, Caches.Twin c.refreshDuration s t →
      Agree (Caches.Twin c.refreshDuration) S
        (result (x ⟨Bridge.cachePath, fun _ => time, commands⟩) s)
        (result (x ⟨Bridge.cachePath, fun _ => time, commands'⟩) t)) :
    Alike c.Twin S (Bridge.atCaches (fun _ => time) x) (Bridge.atCaches (fun _ => time) x) := by
  intro a b twin
  have agrees := agree (fun _ => (a.commands []).after a.exchanges.length)
    (fun _ => (b.commands []).after b.exchanges.length) _ _ twin.caches
  rw [Bridge.result_atCaches, Bridge.result_atCaches]
  have ran : result (x (a.cacheEnv fun _ => time)) a.caches = result (x ⟨Bridge.cachePath,
      fun _ => time, fun _ => (a.commands []).after a.exchanges.length⟩) a.caches := rfl
  have ran' : result (x (b.cacheEnv fun _ => time)) b.caches = result (x ⟨Bridge.cachePath,
      fun _ => time, fun _ => (b.commands []).after b.exchanges.length⟩) b.caches := rfl
  rw [ran, ran']
  generalize result (x ⟨Bridge.cachePath, fun _ => time,
    fun _ => (a.commands []).after a.exchanges.length⟩) a.caches = left at agrees ⊢
  generalize result (x ⟨Bridge.cachePath, fun _ => time,
    fun _ => (b.commands []).after b.exchanges.length⟩) b.caches = right at agrees ⊢
  cases agrees with
  | returned values caches => exact .returned values { twin with caches }
  | threw caches => exact .threw { twin with caches }

theorem alike_now :
    Alike c.Twin (fun now now' => now = time ∧ now' = time)
      (Bridge.atCaches (fun _ => time) fun env => now env)
      (Bridge.atCaches (fun _ => time) fun env => now env) :=
  alike_atCaches time fun _ _ _ _ twin => .returned ⟨rfl, rfl⟩ (twin.counted _ _ _ _ _ _)

theorem alike_cachedValue (id : CacheId) :
    Alike c.Twin Eq (Bridge.atCaches (fun _ => time) fun env => cachedValue env id)
      (Bridge.atCaches (fun _ => time) fun env => cachedValue env id) := by
  refine alike_atCaches time fun _ _ s t twin => ?_
  rw [result_cachedValue, result_cachedValue]
  cases id with
  | nil => exact .returned (twin.value []).symm twin
  | cons i base =>
      simp only [twin.value base]
      cases (s.cache base).value.find? (Bridge.cachePath (i :: base)) with
      | none => exact .threw twin
      | some value => exact .returned rfl twin

theorem agree_storeMember (env env' : CacheEnv) {d : ℤ} {s t : Caches} (twin : Caches.Twin d s t)
    (path : env'.path = env.path) (i : ℕ) (base : CacheId) (json : Json) :
    Agree (Caches.Twin d) (fun _ _ => True) (result (storeMember env i base json) s)
      (result (storeMember env' i base json) t) := by
  rw [result_storeMember, result_storeMember, twin.value, path]
  cases (s.cache base).value.setMember (env.path (i :: base)) json with
  | ok value => exact .returned trivial (twin.store base value)
  | error e => exact .threw twin

theorem alike_takeOver (nonneg : 0 ≤ time) (id : CacheId) (json : Json) :
    Alike c.Twin (fun _ _ => True)
      (Bridge.atCaches (fun _ => time) fun env => takeOver env id json)
      (Bridge.atCaches (fun _ => time) fun env => takeOver env id json) := by
  refine alike_atCaches time fun commands commands' s t twin => ?_
  let env : CacheEnv := ⟨Bridge.cachePath, fun _ => time, commands⟩
  let env' : CacheEnv := ⟨Bridge.cachePath, fun _ => time, commands'⟩
  have arrived : Caches.Twin c.refreshDuration
      { s.arrived env id json with requests := s.requests }
      { t.arrived env' id json with requests := t.requests } :=
    (twin.arrived nonneg rfl rfl id json).counted _ _ _ _ _ _
  cases id with
  | nil => exact .returned trivial (arrived.store [] json)
  | cons i base => exact agree_storeMember env env' arrived rfl i base json

theorem alike_GETRequest (id : CacheId) :
    Alike c.Twin Eq (Bridge.GETRequest (fun _ => time) id)
      (Bridge.GETRequest (fun _ => time) id) := by
  refine alike_get.bind fun a b twin => ?_
  have path : getRequestPath (b.cacheEnv fun _ => time) id =
      getRequestPath (a.cacheEnv fun _ => time) id :=
    getRequestPath_commands (a.cacheEnv fun _ => time) (b.cacheEnv fun _ => time).commands id
  rw [twin.commands, twin.commands', path]
  refine Alike.bind (alike_modify ?_) fun _ _ _ => alike_request _ _
  intro a b twin
  exact { twin with caches := twin.caches.counted _ _ _ _ _ _ }

variable {time : ℤ}

/-- A request of a cache, and what follows. -/
theorem alike_fetch (nonneg : 0 ≤ time) (id : CacheId) :
    Alike c.Twin (fun _ _ => True)
      (do
        let result ← Bridge.GETRequest (fun _ => time) id
        Bridge.atCaches (fun _ => time) fun env => takeOver env id result)
      (do
        let result ← Bridge.GETRequest (fun _ => time) id
        Bridge.atCaches (fun _ => time) fun env => takeOver env id result) := by
  refine (alike_GETRequest time id).bind fun _ json same => ?_
  rw [same]
  exact alike_takeOver time nonneg id json

theorem alike_refresh_root (nonneg : 0 ≤ time) :
    Alike c.Twin (fun _ _ => True) (Bridge.refreshCache (fun _ => time) [])
      (Bridge.refreshCache (fun _ => time) []) := alike_fetch nonneg []

/-- A refresh of a list is alike if the checks of the root are. -/
theorem agree_refresh_child (nonneg : 0 ≤ time) (i : ℕ) {a b : Bridge} (twin : c.Twin a b)
    (checks : a.caches.staleAt [] time = b.caches.staleAt [] time) :
    Agree c.Twin (fun _ _ => True) (result (Bridge.refreshCache (fun _ => time) [i]) a)
      (result (Bridge.refreshCache (fun _ => time) [i]) b) := by
  have checked : Agree c.Twin (fun stale stale' => stale = stale')
      (result (Bridge.atCaches (fun _ => time) fun env => needsRefresh env []) a)
      (result (Bridge.atCaches (fun _ => time) fun env => needsRefresh env []) b) := by
    rw [Bridge.result_atCaches_needsRefresh, Bridge.result_atCaches_needsRefresh]
    exact .returned checks { twin with caches := twin.caches.checked [] }
  refine agree_bind checked fun stale _ same => ?_
  rw [← same]
  cases stale with
  | true => exact alike_refresh_root nonneg
  | false => exact alike_fetch nonneg [i]

/-- A query of a list is alike if the checks of the root are, or nothing is to be refreshed. -/
theorem agree_getValue (nonneg : 0 ≤ time) (i : ℕ) {a b : Bridge} (twin : c.Twin a b)
    (checks : a.caches.staleAt [] time = b.caches.staleAt [] time ∨
      b.caches.staleAt [i] time = false) :
    Agree c.Twin Eq (result (Bridge.getCacheValue (fun _ => time) [i]) a)
      (result (Bridge.getCacheValue (fun _ => time) [i]) b) := by
  have checked : c.Twin { a with caches := a.caches.checked [i] }
      { b with caches := b.caches.checked [i] } :=
    { twin with caches := twin.caches.checked [i] }
  have root (s : Caches) : (s.checked [i]).staleAt [] time = s.staleAt [] time :=
    Caches.checked_staleAt (by simp) time
  rw [Bridge.getCacheValue, result_bind, result_bind, Bridge.result_atCaches_needsRefresh,
    Bridge.result_atCaches_needsRefresh, ← twin.caches.staleAt_child i [] time]
  cases stale : b.caches.staleAt [i] time with
  | false => exact alike_cachedValue time [i] _ _ checked
  | true =>
      have same : a.caches.staleAt [] time = b.caches.staleAt [] time :=
        checks.resolve_right (by rw [stale]; simp)
      refine agree_bind (agree_refresh_child nonneg i checked ?_) fun _ _ _ =>
        alike_cachedValue time [i]
      rw [root, root, same]

end Caches

section Construction

variable (time : ℤ)

theorem alike_initialRefresh (initial : Json) :
    Alike c.Twin Eq (Bridge.initialRefresh (fun _ => time) initial)
      (Bridge.initialRefresh (fun _ => time) initial) := by
  unfold Bridge.initialRefresh
  split
  · exact alike_pure rfl
  · exact (alike_now time).mono fun now now' both => both.1.trans both.2.symm

theorem alike_refreshOwn (path : String) (cache : APICache) :
    Alike c.Twin (fun _ _ => True)
      (Bridge.refreshOwn (fun _ => time) c.commands path cache)
      (Bridge.refreshOwn (fun _ => time) c.commands' path cache) :=
  (alike_request path _).bind fun _ _ _ => (alike_now time).bind fun _ _ _ => alike_pure trivial

theorem alike_needsRefreshOwn (cache : APICache) :
    Alike c.Twin Eq (Bridge.needsRefreshOwn (fun _ => time) cache)
      (Bridge.needsRefreshOwn (fun _ => time) cache) := by
  unfold Bridge.needsRefreshOwn
  split
  · exact alike_pure rfl
  · split
    · refine (alike_now time).bind fun now now' both => alike_pure ?_
      rw [both.1, both.2]
    · exact alike_pure rfl

theorem alike_getOwnValue (path : String) (cache : APICache) :
    Alike c.Twin (fun _ _ => True)
      (Bridge.getOwnValue (fun _ => time) c.commands path cache)
      (Bridge.getOwnValue (fun _ => time) c.commands' path cache) := by
  refine (alike_needsRefreshOwn time cache).bind fun stale _ same => ?_
  rw [← same]
  cases stale with
  | true => exact alike_refreshOwn time path cache
  | false => exact alike_pure trivial

theorem resourceDuration_eq {a b : Bridge} (twin : c.Twin a b) (part : Bridge.Part) :
    a.resourceDuration part = b.resourceDuration part := by
  cases part with
  | lights => exact twin.refreshDuration
  | _ => exact (twin.caches.below _ []).trans (twin.caches.duration _).symm

theorem resourceCommands_eq {a b : Bridge} (twin : c.Twin a b) (part : Bridge.Part) :
    a.resourceCommands part = c.commands ∧ b.resourceCommands part = c.commands' := by
  cases part with
  | lights => exact ⟨twin.lightFactory, twin.lightFactory'⟩
  | _ => exact ⟨twin.commands _, twin.commands' _⟩

theorem alike_resourceState (part : Bridge.Part) (key : String) (state : Json) :
    Alike c.Twin (fun _ _ => True) (Bridge.resourceState (fun _ => time) part key state)
      (Bridge.resourceState (fun _ => time) part key state) := by
  refine alike_get.bind fun a b twin => ?_
  simp only
  rw [twin.sharedState, (resourceCommands_eq twin part).1, (resourceCommands_eq twin part).2,
    resourceDuration_eq twin part]
  split
  · exact alike_pure trivial
  · refine (alike_initialRefresh time state).bind fun lastRefresh _ same => ?_
    rw [← same]
    cases part with
    | schedules =>
        exact (alike_refreshOwn time _ _).bind fun _ _ _ => alike_pure trivial
    | _ => exact (alike_getOwnValue time _ _).bind fun _ _ _ => alike_pure trivial

variable {α : Type} [IdType α]

theorem alike_construct (part : Bridge.Part) (id : α) (state : Json) :
    Alike c.Twin (fun _ _ => True) (Bridge.construct (fun _ => time) part id state)
      (Bridge.construct (fun _ => time) part id state) := by
  have made := alike_resourceState (c := c) time part (maybeToString id) state
  cases part with
  | lights =>
      refine (alike_ofExcept (LightFactory.typeName state)).bind fun type _ same => ?_
      rw [← same]
      refine made.bind fun _ _ _ => ?_
      exact (alike_ofExcept _).bind fun _ _ _ => alike_pure trivial
  | _ => exact made.bind fun _ _ _ => alike_pure trivial

theorem alike_constructAll (part : Bridge.Part) (items : List (Option String × Json)) :
    Alike c.Twin (fun _ _ => True)
      (Bridge.constructAll (fun _ => time) part items : BridgeM (List (Resource α)))
      (Bridge.constructAll (fun _ => time) part items : BridgeM (List (Resource α))) := by
  induction items with
  | nil => exact alike_pure trivial
  | cons item rest ih =>
      match item with
      | (none, _) => exact alike_throw _
      | (some key, state) =>
          refine (alike_ofExcept (maybeStoi key)).bind fun id _ same => ?_
          rw [← same]
          refine (alike_construct time part id state).bind fun _ _ _ => ?_
          exact ih.bind fun _ _ _ => alike_pure trivial

end Construction

end Connection

end Hueplusplus
