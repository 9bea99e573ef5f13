import Hueplusplus.APICache.Requests
import Hueplusplus.Bridge.Basic

/-!
# What a request of a bridge does

As long as all caches hold the same commands, a refresh of a cache of the bridge is the
refresh of `APICache` in the surroundings of this moment, and what it adds to the record of
calls is one call, or two if the first was answered by an error that is retried.
-/

namespace Hueplusplus

open Effect

/-- A call that was made through the given commands, from a bridge with the fields of `b`. -/
def Exchange.Through (e : Exchange) (b : Bridge) (commands : HueCommandAPI) (verb : HttpVerb) :
    Prop :=
  (∃ path, e.uri = commands.combinedPath path) ∧ e.verb = verb ∧ e.ip = commands.ip ∧
    e.port = commands.port ∧ e.bridgeIP = b.ip ∧ e.bridgePort = b.port ∧
    e.username = b.username

namespace APICache

theorem refresh_child (env : CacheEnv) (i : ℕ) (base : CacheId) :
    refresh env (i :: base) = (do
      if ← needsRefresh env base then refresh env base
      else
        let result ← GETRequest env (i :: base)
        takeOver env (i :: base) result) := rfl

end APICache

namespace Bridge

variable (clock : ℕ → ℤ)

/-- The record of a call made now. -/
def call (b : Bridge) (handler : IHttpHandler) (verb : HttpVerb) (uri : String) (body : Json)
    (ip : String) (port : ℤ) : Exchange where
  verb := verb
  uri := uri
  body := body
  ip := ip
  port := port
  reply := handler.json verb b.exchanges.length uri body ip port
  bridgeIP := b.ip
  bridgePort := b.port
  username := b.username
  number := b.exchanges.length

@[simp] theorem result_http (b : Bridge) (handler : IHttpHandler) (verb : HttpVerb) (uri : String)
    (body : Json) (ip : String) (port : ℤ) :
    result (http handler verb uri body ip port) b =
      ((b.call handler verb uri body ip port).reply,
        { b with exchanges := b.call handler verb uri body ip port :: b.exchanges }) := rfl

@[simp] theorem result_atCaches {α : Type} (x : CacheEnv → CacheM α) (b : Bridge) :
    result (atCaches clock x) b =
      ((result (x (b.cacheEnv clock)) b.caches).1,
        { b with caches := (result (x (b.cacheEnv clock)) b.caches).2 }) := rfl

/-- A check of a cache makes no calls. -/
theorem result_atCaches_needsRefresh (id : CacheId) (b : Bridge) :
    result (atCaches clock fun env => APICache.needsRefresh env id) b =
      (.ok (b.caches.staleAt id (clock b.caches.readings)),
        { b with caches := b.caches.checked id }) := by
  rw [result_atCaches, APICache.result_needsRefresh]
  rfl

/-- The call of a request, and the same call once more after one that was answered by an error
that is retried. -/
theorem result_runWithTimeout (handler : IHttpHandler) (verb : HttpVerb) (uri : String)
    (body : Json) (ip : String) (port : ℤ) (b : Bridge) :
    ∃ new : List Exchange, new ≠ [] ∧
      (∀ e ∈ new, e.uri = uri ∧ e.verb = verb ∧ e.ip = ip ∧ e.port = port ∧
        e.bridgeIP = b.ip ∧ e.bridgePort = b.port ∧ e.username = b.username) ∧
      result (runWithTimeout (http handler verb uri body ip port)) b =
        (Hueplusplus.runWithTimeout fun attempt =>
            handler.json verb (b.exchanges.length + attempt) uri body ip port,
          { b with exchanges := new ++ b.exchanges }) := by
  let first := b.call handler verb uri body ip port
  let between : Bridge := { b with exchanges := first :: b.exchanges }
  let second := between.call handler verb uri body ip port
  have once : ∀ e ∈ [first], e.uri = uri ∧ e.verb = verb ∧ e.ip = ip ∧ e.port = port ∧
      e.bridgeIP = b.ip ∧ e.bridgePort = b.port ∧ e.username = b.username := by
    intro e member
    rw [List.mem_singleton.mp member]
    exact ⟨rfl, rfl, rfl, rfl, rfl, rfl, rfl⟩
  simp only [runWithTimeout, Hueplusplus.runWithTimeout, result_tryCatch, result_http]
  cases replied : handler.json verb (b.exchanges.length + 0) uri body ip port with
  | ok response =>
      have reply : (b.call handler verb uri body ip port).reply = .ok response := replied
      rw [reply]
      exact ⟨[first], by simp, once, rfl⟩
  | error e =>
      have reply : (b.call handler verb uri body ip port).reply = .error e := replied
      rw [reply]
      cases e with
      | systemError code =>
          simp only
          cases retried : code.retried with
          | true =>
              refine ⟨[second, first], by simp, ?_, rfl⟩
              intro e member
              rcases List.mem_cons.mp member with rfl | earlier
              · exact ⟨rfl, rfl, rfl, rfl, rfl, rfl, rfl⟩
              · exact once e earlier
          | false => exact ⟨[first], by simp, once, rfl⟩
      | _ => exact ⟨[first], by simp, once, rfl⟩

/-- A request has the result of the pure request with the replies that are due, and leaves a
record of its calls and nothing else. -/
theorem result_request (commands : HueCommandAPI) (verb : HttpVerb) (path : String)
    (body : Json) (b : Bridge) :
    ∃ new : List Exchange, new ≠ [] ∧ (∀ e ∈ new, e.Through b commands verb) ∧
      result (request commands verb path body) b =
        ((commands.after b.exchanges.length).request (fun h => h.json verb) path body,
          { b with exchanges := new ++ b.exchanges }) := by
  obtain ⟨new, made, calls, ran⟩ := result_runWithTimeout commands.httpHandler verb
    (commands.combinedPath path) body commands.ip commands.port b
  have pure : (commands.after b.exchanges.length).request (fun h => h.json verb) path body =
      Hueplusplus.runWithTimeout (fun attempt => commands.httpHandler.json verb
        (b.exchanges.length + attempt) (commands.combinedPath path) body commands.ip
        commands.port) >>= HueCommandAPI.handleError := by
    cases verb <;> rfl
  refine ⟨new, made, ?_, ?_⟩
  · intro e member
    obtain ⟨uri, rest⟩ := calls e member
    exact ⟨⟨path, uri⟩, rest⟩
  · rw [pure, request, result_bind, ran]
    cases Hueplusplus.runWithTimeout fun attempt => commands.httpHandler.json verb
      (b.exchanges.length + attempt) (commands.combinedPath path) body commands.ip
      commands.port <;> rfl

section Caches

variable {b : Bridge}

/-- All caches hold the same commands. -/
def Uniform (b : Bridge) : Prop := ∀ id, b.commands id = b.commands []

/-- The bridge has done what its caches do on their own, and these calls. -/
def Mirrors {α : Type} (b : Bridge) (new : List Exchange) (outcome : Except Exception α × Bridge)
    (outcome' : Except Exception α × Caches) : Prop :=
  outcome = (outcome'.1, { b with caches := outcome'.2, exchanges := new ++ b.exchanges })

/-- What the caches do next without a request. -/
theorem mirrors_bind {α β : Type} {new : List Exchange} {start : Bridge} {s : Caches}
    {x : BridgeM α} {y : CacheM α} {z : CacheEnv → α → CacheM β}
    (ran : b.Mirrors new (result x start) (result y s))
    (silent : ∀ a commands t, result (z { b.cacheEnv clock with commands } a) t =
      result (z (b.cacheEnv clock) a) t) :
    b.Mirrors new (result (x >>= fun a => atCaches clock fun env => z env a) start)
      (result (y >>= z (b.cacheEnv clock)) s) := by
  unfold Mirrors at ran ⊢
  rw [result_bind, result_bind, ran]
  rcases result y s with ⟨e | a, t⟩
  · rfl
  · simp only [← silent a fun _ => (b.commands []).after (new ++ b.exchanges).length]
    rfl

theorem mirrors_GETRequest (uniform : b.Uniform) (id : CacheId) :
    ∃ new : List Exchange, new ≠ [] ∧ (∀ e ∈ new, e.Through b (b.commands []) .get) ∧
      b.Mirrors new (result (GETRequest clock id) b)
        (result (APICache.GETRequest (b.cacheEnv clock) id) b.caches) := by
  obtain ⟨new, made, through, ran⟩ := result_request (b.commands id) .get
    (APICache.getRequestPath (b.cacheEnv clock) id) (.obj []) { b with caches := b.caches.failed }
  rw [uniform id] at through ran
  refine ⟨new, made, through, ?_⟩
  simp only [Mirrors, GETRequest, result_bind, result_get, result_modify, uniform id]
  exact ran

theorem takeOver_commands (env : CacheEnv) (id : CacheId) (json : Json)
    (commands : ℕ → HueCommandAPI) (s : Caches) :
    result (APICache.takeOver { env with commands } id json) s =
      result (APICache.takeOver env id json) s := by
  cases id <;> rfl

/-- As long as all caches hold the same commands, a refresh is that of `APICache`. -/
theorem mirrors_refreshCache (uniform : b.Uniform) (id : CacheId) :
    ∃ new : List Exchange, new ≠ [] ∧ (∀ e ∈ new, e.Through b (b.commands []) .get) ∧
      b.Mirrors new (result (refreshCache clock id) b)
        (result (APICache.refresh (b.cacheEnv clock) id) b.caches) := by
  induction id generalizing b with
  | nil =>
      obtain ⟨new, made, through, ran⟩ := mirrors_GETRequest clock uniform []
      exact ⟨new, made, through, mirrors_bind clock ran fun json => takeOver_commands _ [] json⟩
  | cons i base ih =>
      have uniform' : Uniform { b with caches := b.caches.checked base } := uniform
      have asked : (b.cacheEnv clock).clock b.caches.readings = clock b.caches.readings := rfl
      rw [refreshCache, APICache.refresh_child, result_bind, result_bind,
        result_atCaches_needsRefresh, APICache.result_needsRefresh, asked]
      cases b.caches.staleAt base (clock b.caches.readings) with
      | true => exact ih uniform'
      | false =>
          obtain ⟨new, made, through, ran⟩ :=
            mirrors_GETRequest clock uniform' (i :: base)
          exact ⟨new, made, through,
            mirrors_bind clock ran fun json => takeOver_commands _ (i :: base) json⟩

/-- Likewise for `getValue`, which makes a call exactly if the cache is stale. -/
theorem mirrors_getCacheValue (uniform : b.Uniform) (id : CacheId) :
    ∃ new : List Exchange,
      (new = [] ↔ b.caches.staleAt id (clock b.caches.readings) = false) ∧
      (∀ e ∈ new, e.Through b (b.commands []) .get) ∧
      b.Mirrors new (result (getCacheValue clock id) b)
        (result (APICache.getValue (b.cacheEnv clock) id) b.caches) := by
  have uniform' : Uniform { b with caches := b.caches.checked id } := uniform
  have silent : ∀ (u : Unit) (commands : ℕ → HueCommandAPI) (t : Caches),
      result (APICache.cachedValue { b.cacheEnv clock with commands } id) t =
        result (APICache.cachedValue (b.cacheEnv clock) id) t :=
    fun _ commands t => APICache.result_cachedValue_commands _ commands t id
  have asked : (b.cacheEnv clock).clock b.caches.readings = clock b.caches.readings := rfl
  rw [getCacheValue, APICache.getValue, result_bind, result_bind, result_atCaches_needsRefresh,
    APICache.result_needsRefresh, asked]
  cases b.caches.staleAt id (clock b.caches.readings) with
  | true =>
      obtain ⟨new, made, through, ran⟩ := mirrors_refreshCache clock uniform' id
      exact ⟨new, iff_of_false made (by simp), through, mirrors_bind clock ran silent⟩
  | false => exact ⟨[], iff_of_true rfl rfl, by simp, rfl⟩

end Caches

end Bridge

end Hueplusplus
