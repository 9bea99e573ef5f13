import Hueplusplus.Bridge.Credentials
import Hueplusplus.Bridge.Operations
import Mathlib.Data.List.Induction

/-!
# Which address the requests of a bridge go to

The bridge's own methods use its fields, the caches, the lists and the resources at their
construction use copies of the commands. `setHttpHandler` and a granted username renew all
copies, `setIP` and `setPort` none. So every request goes to the current address exactly if no
request is made through a copy while the copies are behind.
-/

namespace Hueplusplus

open Effect

/-- The call goes to the address in force, and under the current username unless it is a request
for a username. -/
structure Exchange.Addressed (e : Exchange) : Prop where
  ip : e.ip = e.bridgeIP
  port : e.port = e.bridgePort
  uri : (e.verb = .post ∧ e.uri = "/api") ∨ ∃ rest, e.uri = "/api/" ++ e.username ++ rest ∧
    (rest = "" ∨ rest.toList.head? = some '/')

theorem HueCommandAPI.combinedPath_username (commands : HueCommandAPI) (path : String) :
    ∃ rest, commands.combinedPath path = "/api/" ++ commands.username ++ rest ∧
      (rest = "" ∨ rest.toList.head? = some '/') := by
  rw [combinedPath]
  cases chars : path.toList with
  | nil => exact ⟨"", by simp, .inl rfl⟩
  | cons c rest =>
      by_cases slash : c = '/'
      · subst slash
        exact ⟨path, rfl, .inr (by rw [chars]; rfl)⟩
      · refine ⟨"/" ++ path, ?_, .inr (by simp)⟩
        simp [slash, String.append_assoc]

namespace Bridge

variable (clock : ℕ → ℤ)

/-- The copies hold the current address. -/
def InStep (b : Bridge) : Prop := (b.commands []).ip = b.ip ∧ (b.commands []).port = b.port

/-- A cache without a base needs a refresh when the clock shows `time`. -/
def outdatedOwn (cache : APICache) (time : ℤ) : Bool :=
  cache.lastRefresh = 0 || cache.refreshDuration < 0 ||
    (durationMax - cache.refreshDuration > cache.lastRefresh &&
      time ≥ cache.lastRefresh + cache.refreshDuration)

/-- The cache of a new resource that does not share that of its list. -/
def newCache (b : Bridge) (part : Part) (state : Json) : APICache :=
  ⟨b.resourceDuration part, if state = .null then 0 else clock b.caches.readings, state⟩

/-- The construction of a resource requests its state. -/
def fetches (b : Bridge) (part : Part) (state : Json) : Bool :=
  !b.sharedState && (part = .schedules ||
    outdatedOwn (b.newCache clock part state) (clock (b.caches.readings + 1)))

/-- A step that makes a request through a copy finds the copies in step. -/
def Fits (b : Bridge) : Step → Prop
  | .refresh _ | .listRequest .. => b.InStep
  | .getValue id => b.caches.staleAt id (clock b.caches.readings) = true → b.InStep
  | .resourceState part _ state => b.fetches clock part state = true → b.InStep
  | _ => True

/-- All copies are the same, and have the current username. -/
structure Consistent (b : Bridge) : Prop where
  uniform : b.Uniform
  lightFactory : b.lightFactory = b.commands []
  username : (b.commands []).username = b.username

/-- Nothing has changed but the caches, and these calls were made through the commands. -/
def Asked (b : Bridge) (commands : HueCommandAPI) (new : List Exchange) (final : Bridge) : Prop :=
  (∃ caches, final = { b with caches, exchanges := new ++ b.exchanges }) ∧
    ∀ e ∈ new, ∃ verb, e.Through b commands verb

variable {b : Bridge}

/-- What the copies and the username are decides. -/
theorem Consistent.frame {final : Bridge} (consistent : b.Consistent)
    (commands : final.commands = b.commands) (lightFactory : final.lightFactory = b.lightFactory)
    (username : final.username = b.username) : final.Consistent := by
  constructor
  · rw [Uniform, commands]
    exact consistent.uniform
  · rw [lightFactory, commands]
    exact consistent.lightFactory
  · rw [username, commands]
    exact consistent.username

theorem addressed_iff {e : Exchange} {verb : HttpVerb} (consistent : b.Consistent)
    (through : e.Through b (b.commands []) verb) : e.Addressed ↔ b.InStep := by
  obtain ⟨⟨path, uri⟩, -, ip, port, bridgeIP, bridgePort, username⟩ := through
  constructor
  · intro addressed
    exact ⟨(ip.symm.trans addressed.ip).trans bridgeIP,
      (port.symm.trans addressed.port).trans bridgePort⟩
  · intro inStep
    refine ⟨?_, ?_, .inr ?_⟩
    · rw [ip, inStep.1, bridgeIP]
    · rw [port, inStep.2, bridgePort]
    · rw [uri, username, ← consistent.username]
      exact HueCommandAPI.combinedPath_username _ path

theorem asked_refresh (uniform : b.Uniform) (id : CacheId) :
    ∃ new, new ≠ [] ∧ b.Asked (b.commands []) new (result (refreshCache clock id) b).2 := by
  obtain ⟨new, made, through, mirrors⟩ := mirrors_refreshCache clock uniform id
  exact ⟨new, made, ⟨_, congrArg Prod.snd mirrors⟩, fun e member => ⟨_, through e member⟩⟩

theorem asked_getValue (uniform : b.Uniform) (id : CacheId) :
    ∃ new, (new = [] ↔ b.caches.staleAt id (clock b.caches.readings) = false) ∧
      b.Asked (b.commands []) new (result (getCacheValue clock id) b).2 := by
  obtain ⟨new, made, through, mirrors⟩ := mirrors_getCacheValue clock uniform id
  exact ⟨new, made, ⟨_, congrArg Prod.snd mirrors⟩, fun e member => ⟨_, through e member⟩⟩

theorem asked_request (commands : HueCommandAPI) (verb : HttpVerb) (path : String)
    (body : Json) :
    ∃ new, new ≠ [] ∧ b.Asked commands new (result (request commands verb path body) b).2 := by
  obtain ⟨new, made, through, ran⟩ := result_request commands verb path body b
  exact ⟨new, made, ⟨_, congrArg Prod.snd ran⟩, fun e member => ⟨verb, through e member⟩⟩

theorem asked_listRequest (uniform : b.Uniform) (part : Part) (verb : HttpVerb) (path : String)
    (body : Json) :
    ∃ new, new ≠ [] ∧
      b.Asked (b.commands []) new (result (listRequest part verb path body) b).2 := by
  rw [listRequest, result_bind, result_get, ← uniform part.stateCache]
  exact asked_request (b.commands part.stateCache) verb path body

theorem asked_refreshOwn (commands : HueCommandAPI) (path : String) (cache : APICache) :
    ∃ new, new ≠ [] ∧
      b.Asked commands new (result (refreshOwn clock commands path cache) b).2 := by
  obtain ⟨new, made, ⟨caches, final⟩, through⟩ :=
    asked_request (b := b) commands .get path (.obj [])
  refine ⟨new, made, ?_, through⟩
  rw [refreshOwn, result_bind]
  cases ran : result (request commands .get path (.obj [])) b with
  | mk outcome t =>
      rw [ran] at final
      cases outcome with
      | error e => exact ⟨caches, final⟩
      | ok value =>
          obtain rfl : t = { b with caches, exchanges := new ++ b.exchanges } := final
          exact ⟨{ caches with readings := caches.readings + 1 }, rfl⟩

/-- A check of a cache without a base at most reads the clock. -/
theorem result_needsRefreshOwn (cache : APICache) :
    ∃ caches, result (needsRefreshOwn clock cache) b =
      (.ok (outdatedOwn cache (clock b.caches.readings)), { b with caches }) := by
  rw [needsRefreshOwn, result_ite, outdatedOwn]
  by_cases unset : cache.lastRefresh = 0 ∨ cache.refreshDuration < 0
  · refine ⟨b.caches, ?_⟩
    rw [if_pos unset]
    cases unset with
    | inl zero => simp [zero]
    | inr negative => simp [negative]
  · obtain ⟨set, duration⟩ := not_or.mp unset
    rw [if_neg unset, result_ite]
    by_cases inside : durationMax - cache.refreshDuration > cache.lastRefresh
    · refine ⟨{ b.caches with readings := b.caches.readings + 1 }, ?_⟩
      rw [if_pos inside, result_bind, result_atCaches, APICache.result_now]
      simp [set, duration, inside, cacheEnv]
    · refine ⟨b.caches, ?_⟩
      rw [if_neg inside]
      simp [set, duration, inside]

theorem asked_getOwnValue (commands : HueCommandAPI) (path : String) (cache : APICache) :
    ∃ new, (new = [] ↔ outdatedOwn cache (clock b.caches.readings) = false) ∧
      b.Asked commands new (result (getOwnValue clock commands path cache) b).2 := by
  obtain ⟨caches, checked⟩ := result_needsRefreshOwn clock cache (b := b)
  rw [getOwnValue, result_bind, checked]
  cases outdatedOwn cache (clock b.caches.readings) with
  | true =>
      obtain ⟨new, made, asked⟩ :=
        asked_refreshOwn clock commands path cache (b := { b with caches })
      exact ⟨new, iff_of_false made (by simp), asked⟩
  | false => exact ⟨[], iff_of_true rfl rfl, ⟨caches, rfl⟩, by simp⟩

theorem result_initialRefresh (initial : Json) :
    ∃ caches, (initial ≠ .null → caches.readings = b.caches.readings + 1) ∧
      result (initialRefresh clock initial) b =
        (.ok (if initial = .null then 0 else clock b.caches.readings), { b with caches }) := by
  rw [initialRefresh, result_ite]
  by_cases null : initial = .null
  · rw [if_pos null, if_pos null]
    exact ⟨b.caches, fun known => absurd null known, rfl⟩
  · rw [if_neg null, if_neg null]
    exact ⟨{ b.caches with readings := b.caches.readings + 1 }, fun _ => rfl, rfl⟩

theorem resourceCommands_eq (consistent : b.Consistent) (part : Part) :
    b.resourceCommands part = b.commands [] := by
  cases part with
  | lights => exact consistent.lightFactory
  | _ => exact consistent.uniform _

/-- The construction of a resource makes a call exactly if it has to fetch its state. -/
theorem asked_resourceState (consistent : b.Consistent) (part : Part) (key : String)
    (state : Json) :
    ∃ new, (new = [] ↔ b.fetches clock part state = false) ∧
      b.Asked (b.commands []) new (result (resourceState clock part key state) b).2 := by
  rw [resourceState, result_bind, result_get]
  simp only
  rw [result_ite]
  by_cases shared : b.sharedState = true
  · rw [if_pos shared]
    exact ⟨[], iff_of_true rfl (by simp [fetches, shared]), ⟨b.caches, rfl⟩, by simp⟩
  · obtain ⟨caches, later, dated⟩ := result_initialRefresh clock state (b := b)
    have time : outdatedOwn (b.newCache clock part state) (clock caches.readings) =
        outdatedOwn (b.newCache clock part state) (clock (b.caches.readings + 1)) := by
      by_cases null : state = .null
      · simp [outdatedOwn, newCache, null]
      · rw [later null]
    rw [if_neg shared, result_bind, dated, ← resourceCommands_eq consistent part]
    have own := asked_getOwnValue clock (b.resourceCommands part)
      ("/" ++ part.entry ++ "/" ++ key) (b.newCache clock part state) (b := { b with caches })
    rw [time] at own
    cases part with
    | schedules =>
        obtain ⟨new, made, asked⟩ := asked_refreshOwn clock (b.resourceCommands .schedules)
          ("/" ++ Part.schedules.entry ++ "/" ++ key) (b.newCache clock .schedules state)
          (b := { b with caches })
        simp only [state_bind_pure]
        exact ⟨new, iff_of_false made (by simp [fetches, shared]), asked⟩
    | _ =>
        obtain ⟨new, made, asked⟩ := own
        simp only [state_bind_pure]
        exact ⟨new, by simpa [fetches, shared] using made, asked⟩

/-- All calls since `b` went to the address in force, and the copies are the same again. -/
def Talks (b final : Bridge) : Prop :=
  final.Consistent ∧
    ∃ new, final.exchanges = new ++ b.exchanges ∧ ∀ e ∈ new, e.Addressed

/-- Nothing was called. -/
theorem talks_silent {final : Bridge} (consistent : final.Consistent)
    (log : final.exchanges = b.exchanges) : b.Talks final := ⟨consistent, [], log, by simp⟩

theorem talks_refl (consistent : b.Consistent) : b.Talks b := talks_silent consistent rfl

theorem Talks.trans {between final : Bridge} (first : b.Talks between)
    (second : between.Talks final) : b.Talks final := by
  obtain ⟨-, new, log, addressed⟩ := first
  obtain ⟨consistent, new', log', addressed'⟩ := second
  refine ⟨consistent, new' ++ new, by rw [log', log, List.append_assoc], ?_⟩
  intro e member
  cases List.mem_append.mp member with
  | inl later => exact addressed' e later
  | inr earlier => exact addressed e earlier

/-- Computations one after the other. -/
theorem talks_bind {α β : Type} {x : BridgeM α} {f : α → BridgeM β}
    (first : b.Talks (result x b).2)
    (second : ∀ a (t : Bridge), t.Consistent → t.Talks (result (f a) t).2) :
    b.Talks (result (x >>= f) b).2 := by
  rw [result_bind]
  cases ran : result x b with
  | mk outcome t =>
      rw [ran] at first
      cases outcome with
      | error e => exact first
      | ok a => exact first.trans (second a t first.1)

/-- A call that uses the fields. -/
theorem talks_http (consistent : b.Consistent) (verb : HttpVerb) (uri : String) (body : Json)
    (under : (verb = .post ∧ uri = "/api") ∨ ∃ rest, uri = "/api/" ++ b.username ++ rest ∧
      (rest = "" ∨ rest.toList.head? = some '/')) :
    b.Talks (result (http b.httpHandler verb uri body b.ip b.port) b).2 := by
  refine ⟨consistent.frame rfl rfl rfl,
    [b.call b.httpHandler verb uri body b.ip b.port], rfl, ?_⟩
  intro e member
  rw [List.mem_singleton.mp member]
  exact ⟨rfl, rfl, under⟩

theorem consistent_rebuilt (b : Bridge) (handler : IHttpHandler) :
    (b.rebuilt handler).Consistent := ⟨fun _ => rfl, rfl, rfl⟩

/-- New caches are refreshed under the address in force, whatever the copies were. -/
theorem talks_setHttpHandler (b : Bridge) (handler : IHttpHandler) :
    b.Talks (result (setHttpHandler clock handler) b).2 := by
  obtain ⟨new, caches, -, through, ran⟩ := b.result_setHttpHandler clock handler
  rw [ran]
  have consistent := consistent_rebuilt b handler
  refine ⟨consistent.frame rfl rfl rfl, new, rfl, ?_⟩
  intro e member
  exact (addressed_iff consistent (through e member)).mpr ⟨rfl, rfl⟩

theorem talks_storeCredentials (b : Bridge) (username : String) (jsonKey : Json) :
    b.Talks (result (storeCredentials clock username jsonKey) b).2 := by
  have ran : result (storeCredentials clock username jsonKey) b =
      result (setHttpHandler clock b.httpHandler >>= fun _ => do
        if jsonKey ≠ .null then
          let clientkey ← Effect.ofExcept jsonKey.getString
          modify fun b => { b with clientkey }) { b with username } := rfl
  rw [ran]
  apply talks_bind (b := { b with username })
  · exact talks_setHttpHandler clock { b with username } b.httpHandler
  · intro _ t consistent
    cases jsonKey with
    | str key => exact talks_silent (consistent.frame rfl rfl rfl) rfl
    | _ => exact talks_refl consistent

theorem talks_usernameRound (consistent : b.Consistent) :
    b.Talks (result (usernameRound clock) b).2 := by
  rw [usernameRound, result_bind, result_get]
  apply talks_bind (talks_http consistent .post "/api" usernameRequest (.inl ⟨rfl, rfl⟩))
  intro answer t consistent
  simp only
  rw [result_ite]
  split
  · apply talks_bind (talks_refl consistent)
    intro username t consistent
    apply talks_bind (talks_storeCredentials clock t username _)
    intro _ t consistent
    exact talks_refl consistent
  · apply talks_bind (talks_refl consistent)
    intro _ t consistent
    exact talks_refl consistent

theorem talks_requestUsername (rounds : ℕ) (consistent : b.Consistent) :
    b.Talks (result (requestUsername clock rounds) b).2 := by
  induction rounds generalizing b with
  | zero =>
      apply talks_bind (talks_usernameRound clock consistent)
      intro _ t consistent
      exact talks_refl consistent
  | succ rounds ih =>
      apply talks_bind (talks_usernameRound clock consistent)
      intro ended t consistent
      cases ended with
      | true => exact talks_refl consistent
      | false => exact ih consistent

/-- The requests to start and to stop streaming. -/
theorem talks_group (consistent : b.Consistent) (group : String) (body : Json) :
    b.Talks (result (http b.httpHandler .put ("/api/" ++ b.username ++ "/groups/" ++ group) body
      b.ip b.port) b).2 := by
  apply talks_http consistent
  right
  refine ⟨"/groups/" ++ group, ?_, .inr (by simp)⟩
  rw [String.append_assoc]

theorem talks_startStreaming (group : String) (consistent : b.Consistent) :
    b.Talks (result (startStreaming group) b).2 := by
  rw [startStreaming, result_bind, result_get]
  simp only
  rw [result_ite]
  split
  · exact talks_refl consistent
  · apply talks_bind (talks_group consistent group _)
    intro answer t consistent
    exact talks_refl consistent

theorem talks_stopStreaming (group : String) (consistent : b.Consistent) :
    b.Talks (result (stopStreaming group) b).2 := by
  rw [stopStreaming, result_bind, result_get]
  apply talks_bind (talks_group consistent group _)
  intro answer t consistent
  apply talks_bind (talks_refl consistent)
  intro first t consistent
  split <;> exact talks_refl consistent

theorem Asked.consistent {commands : HueCommandAPI} {new : List Exchange} {final : Bridge}
    (asked : b.Asked commands new final) (consistent : b.Consistent) : final.Consistent := by
  obtain ⟨⟨caches, rfl⟩, -⟩ := asked
  exact consistent.frame rfl rfl rfl

/-- Calls through the copies go to the address in force if that is theirs, or there are none. -/
theorem Asked.addressed_iff {new : List Exchange} {final : Bridge}
    (asked : b.Asked (b.commands []) new final) (consistent : b.Consistent) :
    (∀ e ∈ new, e.Addressed) ↔ (new ≠ [] → b.InStep) := by
  constructor
  · intro addressed made
    obtain ⟨e, member⟩ := List.exists_mem_of_ne_nil new made
    obtain ⟨verb, through⟩ := asked.2 e member
    exact (Bridge.addressed_iff consistent through).mp (addressed e member)
  · intro inStep e member
    obtain ⟨verb, through⟩ := asked.2 e member
    exact (Bridge.addressed_iff consistent through).mpr (inStep (List.ne_nil_of_mem member))

/-- The calls since `b` are addressed exactly under this condition, and the copies are the same
again. -/
def Recorded (b final : Bridge) (condition : Prop) : Prop :=
  final.Consistent ∧ ∃ new, final.exchanges = new ++ b.exchanges ∧
    ((∀ e ∈ new, e.Addressed) ↔ condition)

theorem Talks.recorded {final : Bridge} (talks : b.Talks final) : b.Recorded final True := by
  obtain ⟨consistent, new, log, addressed⟩ := talks
  exact ⟨consistent, new, log, iff_of_true addressed trivial⟩

theorem Asked.recorded {new : List Exchange} {final : Bridge} {condition : Prop}
    (asked : b.Asked (b.commands []) new final) (consistent : b.Consistent)
    (fits : (new ≠ [] → b.InStep) ↔ condition) : b.Recorded final condition := by
  refine ⟨asked.consistent consistent, new, ?_, (asked.addressed_iff consistent).trans fits⟩
  obtain ⟨⟨caches, rfl⟩, -⟩ := asked
  rfl

/-- What a step adds to the record of calls. -/
theorem step_recorded (consistent : b.Consistent) (step : Step) :
    b.Recorded (step.run clock b) (b.Fits clock step) := by
  cases step with
  | setIP ip =>
      have kept : ((Step.setIP ip).run clock b).Consistent := consistent.frame rfl rfl rfl
      exact (talks_silent kept rfl).recorded
  | setPort port =>
      have kept : ((Step.setPort port).run clock b).Consistent := consistent.frame rfl rfl rfl
      exact (talks_silent kept rfl).recorded
  | setHttpHandler handler => exact (talks_setHttpHandler clock b handler).recorded
  | requestUsername rounds => exact (talks_requestUsername clock rounds consistent).recorded
  | startStreaming group => exact (talks_startStreaming group consistent).recorded
  | stopStreaming group => exact (talks_stopStreaming group consistent).recorded
  | refresh id =>
      obtain ⟨new, made, asked⟩ := asked_refresh clock consistent.uniform id
      exact asked.recorded consistent (forall_prop_of_true made)
  | getValue id =>
      obtain ⟨new, made, asked⟩ := asked_getValue clock consistent.uniform id
      apply asked.recorded consistent
      rw [ne_eq, made, Bool.not_eq_false]
      rfl
  | resourceState part key state =>
      obtain ⟨new, made, asked⟩ := asked_resourceState clock consistent part key state
      apply asked.recorded consistent
      rw [ne_eq, made, Bool.not_eq_false]
      rfl
  | listRequest part verb path body =>
      obtain ⟨new, made, asked⟩ := asked_listRequest consistent.uniform part verb path body
      exact asked.recorded consistent (forall_prop_of_true made)

theorem consistent_new (ip : String) (port : ℤ) (username : String) (handler : IHttpHandler)
    (clientkey : String) (refreshDuration : ℤ) (sharedState : Bool) :
    (Bridge.new ip port username handler clientkey refreshDuration sharedState).Consistent :=
  ⟨fun _ => rfl, rfl, rfl⟩

/-- A run adds calls to the address in force only, exactly if each of its steps fits. -/
theorem run_addressed_iff (consistent : b.Consistent) (steps : List Step) :
    (∀ e ∈ ((system clock).run b steps).exchanges, e.Addressed) ↔
      (∀ e ∈ b.exchanges, e.Addressed) ∧
        (system clock).Each (fun b step _ => b.Fits clock step) b steps := by
  have keeps (b : Bridge) (step : Step) (consistent : b.Consistent) :
      (step.run clock b).Consistent := (step_recorded clock consistent step).1
  have one (b : Bridge) (step : Step) (consistent : b.Consistent) :
      (∀ e ∈ (step.run clock b).exchanges, e.Addressed) ↔
        (∀ e ∈ b.exchanges, e.Addressed) ∧ b.Fits clock step := by
    obtain ⟨-, new, log, addressed⟩ := step_recorded clock consistent step
    rw [log, List.forall_mem_append, addressed, and_comm]
  exact System.run_iff (M := system clock)
    (P := fun b => ∀ e ∈ b.exchanges, e.Addressed) (C := fun b step => b.Fits clock step)
    keeps one steps consistent

theorem consistent_run (consistent : b.Consistent) (steps : List Step) :
    ((system clock).run b steps).Consistent := by
  induction steps generalizing b with
  | nil => exact consistent
  | cons step steps ih => exact ih (step_recorded clock consistent step).1

/-- The step has made the copies anew. -/
def Step.Renews (b : Bridge) (final : Bridge) : Step → Prop
  | .setHttpHandler _ => True
  | .requestUsername _ =>
    ∃ new, final.exchanges = new ++ b.exchanges ∧ ∃ e ∈ new, ∃ u, e.GrantsUsername u
  | _ => False

/-- The copies are left as they are. -/
def KeepsCopies (b final : Bridge) : Prop := final.commands = b.commands

instance : IsPreorder Bridge KeepsCopies where
  refl _ := rfl
  trans _ _ _ first second := Eq.trans second first

theorem Asked.keepsCopies {commands : HueCommandAPI} {new : List Exchange} {final : Bridge}
    (asked : b.Asked commands new final) : b.KeepsCopies final := by
  obtain ⟨⟨caches, rfl⟩, -⟩ := asked
  rfl

theorem keepsCopies_http (handler : IHttpHandler) (verb : HttpVerb) (uri : String) (body : Json)
    (ip : String) (port : ℤ) : Within KeepsCopies (http handler verb uri body ip port) :=
  fun _ => rfl

theorem keepsCopies_startStreaming (group : String) :
    Within KeepsCopies (startStreaming group) := by
  refine Within.bind within_get fun b => ?_
  refine within_ite (Within.bind (within_throw _) fun _ => ?_) ?_
  all_goals exact Within.bind (keepsCopies_http _ _ _ _ _ _) fun _ => within_pure _

theorem keepsCopies_stopStreaming (group : String) : Within KeepsCopies (stopStreaming group) := by
  refine Within.bind within_get fun b => ?_
  refine Within.bind (keepsCopies_http _ _ _ _ _ _) fun answer => ?_
  refine Within.bind (within_ofExcept _) fun first => ?_
  split
  · exact within_pure _
  · exact within_pure _

theorem inStep_setHttpHandler (b : Bridge) (handler : IHttpHandler) :
    (result (setHttpHandler clock handler) b).2.InStep := by
  obtain ⟨new, caches, -, -, ran⟩ := b.result_setHttpHandler clock handler
  rw [ran]
  exact ⟨rfl, rfl⟩

theorem inStep_of_stores {username : String} {final : Bridge}
    (stores : b.Stores clock username final) : final.InStep := by
  obtain ⟨answer, -, -, rfl⟩ := stores
  obtain ⟨clientkey, stored⟩ := storeCredentials_refreshes clock
    { b with exchanges := b.usernameCall :: b.exchanges } username
    (Utils.safeGetMember answer 0 ["success", "clientkey"])
  obtain ⟨new, -, ⟨caches, refreshed⟩, -⟩ := asked_refresh clock (uniform_rebuilt
    { b with username, exchanges := b.usernameCall :: b.exchanges } b.httpHandler) []
  rw [stored]
  change InStep { (result (refreshCache clock []) (Bridge.rebuilt
    { b with username, exchanges := b.usernameCall :: b.exchanges } b.httpHandler)).2 with
      clientkey }
  rw [refreshed]
  exact ⟨rfl, rfl⟩

/-- After a step that makes the copies, they hold the address in force. Every other step leaves
them as they are. -/
theorem step_copies (consistent : b.Consistent) (step : Step) :
    (step.Renews b (step.run clock b) ∧ (step.run clock b).InStep) ∨
      (¬ step.Renews b (step.run clock b) ∧ b.KeepsCopies (step.run clock b)) := by
  cases step with
  | setIP ip => exact .inr ⟨id, rfl⟩
  | setPort port => exact .inr ⟨id, rfl⟩
  | setHttpHandler handler => exact .inl ⟨trivial, inStep_setHttpHandler clock b handler⟩
  | requestUsername rounds =>
      obtain ⟨posts, refused, same | ⟨u, stores⟩⟩ := storesLast_requestUsername clock b rounds
      · right
        rw [Step.run, same]
        refine ⟨?_, rfl⟩
        rintro ⟨new, log, e, member, u, granted⟩
        rw [← List.append_cancel_right log] at member
        exact refused e member u granted
      · left
        obtain ⟨new, log, -⟩ := stores.kept
        refine ⟨⟨new ++ usernameCall { b with exchanges := posts ++ b.exchanges } :: posts, ?_, _,
          List.mem_append_right _ List.mem_cons_self, u, stores.granted⟩,
          inStep_of_stores clock stores⟩
        rw [Step.run, log, List.append_assoc, List.cons_append]
  | startStreaming group => exact .inr ⟨id, keepsCopies_startStreaming group b⟩
  | stopStreaming group => exact .inr ⟨id, keepsCopies_stopStreaming group b⟩
  | refresh id =>
      obtain ⟨new, -, asked⟩ := asked_refresh clock consistent.uniform id
      exact .inr ⟨fun renews => renews, asked.keepsCopies⟩
  | getValue id =>
      obtain ⟨new, -, asked⟩ := asked_getValue clock consistent.uniform id
      exact .inr ⟨fun renews => renews, asked.keepsCopies⟩
  | resourceState part key state =>
      obtain ⟨new, -, asked⟩ := asked_resourceState clock consistent part key state
      exact .inr ⟨id, asked.keepsCopies⟩
  | listRequest part verb path body =>
      obtain ⟨new, -, asked⟩ := asked_listRequest consistent.uniform part verb path body
      exact .inr ⟨id, asked.keepsCopies⟩

/-- The copies after a run were made by the last step of its first part, or are those of the
start. -/
structure LastMade (b : Bridge) (first second : List Step) : Prop where
  made : first = [] ∨ ∃ earlier step, first = earlier ++ [step] ∧
    step.Renews ((system clock).run b earlier) ((system clock).run b first)
  kept : (system clock).Each (fun b step final => ¬ step.Renews b final)
    ((system clock).run b first) second

theorem exists_lastMade (b : Bridge) (steps : List Step) :
    ∃ first second, steps = first ++ second ∧ b.LastMade clock first second := by
  induction steps using List.reverseRecOn with
  | nil => exact ⟨[], [], rfl, .inl rfl, trivial⟩
  | append_singleton steps step ih =>
      by_cases renews : step.Renews ((system clock).run b steps)
        ((system clock).run b (steps ++ [step]))
      · exact ⟨steps ++ [step], [], (List.append_nil _).symm,
          .inr ⟨steps, step, rfl, renews⟩, trivial⟩
      · obtain ⟨first, second, rfl, made, kept⟩ := ih
        refine ⟨first, second ++ [step], List.append_assoc .., made, ?_⟩
        rw [System.each_append]
        refine ⟨kept, ?_, trivial⟩
        rw [System.run_append _ (first ++ second)] at renews
        rw [← System.run_append]
        exact renews

theorem run_keepsCopies (consistent : b.Consistent) (steps : List Step)
    (kept : (system clock).Each (fun b step final => ¬ step.Renews b final) b steps) :
    b.KeepsCopies ((system clock).run b steps) := by
  induction steps generalizing b with
  | nil => rfl
  | cons step steps ih =>
      obtain ⟨first, rest⟩ := kept
      have keeps : b.KeepsCopies (step.run clock b) :=
        ((step_copies clock consistent step).resolve_left fun renewed => first renewed.1).2
      exact trans_of KeepsCopies keeps (ih (step_recorded clock consistent step).1 rest)

/-- So the copies hold the address in force exactly if it is the one that they were made with. -/
theorem LastMade.inStep_iff {first second : List Step} (last : b.LastMade clock first second)
    (consistent : b.Consistent) (start : b.InStep) :
    let made := (system clock).run b first
    let final := (system clock).run b (first ++ second)
    final.InStep ↔ final.ip = made.ip ∧ final.port = made.port := by
  intro made final
  have inStep : made.InStep := by
    rcases last.made with rfl | ⟨earlier, step, rfl, renews⟩
    · exact start
    · have copies := step_copies clock (consistent_run clock consistent earlier) step
      change ((system clock).run b (earlier ++ [step])).InStep
      rw [System.run_append] at renews ⊢
      exact (copies.resolve_right fun kept => kept.1 renews).2
  have same : final.commands = made.commands := by
    change ((system clock).run b (first ++ second)).commands = _
    rw [System.run_append]
    exact run_keepsCopies clock (consistent_run clock consistent first) second last.kept
  rw [InStep, same, inStep.1, inStep.2, eq_comm, eq_comm (a := made.port)]

/-- In every run from a new bridge, all calls go to the address in force at that moment, under
the current username, exactly if no step makes a request through copies that are behind; the
operations consist of such steps; and the copies are behind exactly if the address is no longer
the one that they were last made with. -/
theorem addressed_iff_fits (ip : String) (port : ℤ) (username : String) (handler : IHttpHandler)
    (clientkey : String) (refreshDuration : ℤ) (sharedState : Bool) (steps : List Step) :
    let b := Bridge.new ip port username handler clientkey refreshDuration sharedState
    ((∀ e ∈ ((system clock).run b steps).exchanges, e.Addressed) ↔
        (system clock).Each (fun b step _ => b.Fits clock step) b steps) ∧
      (∀ operations, ∃ steps,
        (operationSystem clock).run b operations = (system clock).run b steps) ∧
      ∃ first second, steps = first ++ second ∧ b.LastMade clock first second ∧
        (((system clock).run b steps).InStep ↔
          ((system clock).run b steps).ip = ((system clock).run b first).ip ∧
            ((system clock).run b steps).port = ((system clock).run b first).port) := by
  intro b
  have start : ∀ e ∈ b.exchanges, e.Addressed := by simp [b, Bridge.new]
  have consistent : b.Consistent :=
    consistent_new ip port username handler clientkey refreshDuration sharedState
  refine ⟨?_, fun operations => operations_steps clock operations b, ?_⟩
  · rw [run_addressed_iff clock consistent steps, and_iff_right start]
  · obtain ⟨first, second, rfl, last⟩ := exists_lastMade clock b steps
    exact ⟨first, second, rfl, last, last.inStep_iff clock consistent ⟨rfl, rfl⟩⟩

/-- After `setIP` a refresh still goes to the old address. -/
theorem refresh_at_old_address :
    let handler : IHttpHandler :=
      { getJson := fun _ _ _ _ _ => .ok (.obj [])
        putJson := fun _ _ _ _ _ => .ok .null
        postJson := fun _ _ _ _ _ => .ok .null
        deleteJson := fun _ _ _ _ _ => .ok .null }
    let b := Bridge.new "192.168.2.1" 80 "user" handler "" 10000000000 true
    let final := (system fun _ => 1).run b [.setIP "192.168.2.7", .refresh []]
    ∃ e ∈ final.exchanges, e.bridgeIP = "192.168.2.7" ∧ e.ip = "192.168.2.1" ∧ ¬ e.Addressed := by
  intro handler b final
  let behind : Bridge := { b with ip := "192.168.2.7" }
  obtain ⟨new, made, ⟨caches, refreshed⟩, through⟩ :=
    asked_refresh (fun _ => 1) (b := behind) (fun _ => rfl) []
  obtain ⟨e, member⟩ := List.exists_mem_of_ne_nil new made
  obtain ⟨_, -, -, ip, -, bridgeIP, -⟩ := through e member
  have log : final.exchanges = new ++ [] := congrArg Bridge.exchanges refreshed
  refine ⟨e, by rw [log, List.append_nil]; exact member, bridgeIP, ip, ?_⟩
  intro addressed
  have same := (ip.symm.trans addressed.ip).trans bridgeIP
  exact absurd same (by decide)

end Bridge

end Hueplusplus
