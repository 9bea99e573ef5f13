import Hueplusplus.APICache.Basic
import Mathlib.Logic.Relation

/-!
# What a call can do to the caches

The result of each member function is an equation: the check of `needsRefresh` never
throws, and a refresh either fails at its request or stores what arrived. Every call is
a sequence of such moves, so an invariant of the moves is an invariant of all runs.
-/

namespace Hueplusplus

namespace Caches

@[simp] theorem update_cache_self (s : Caches) (id : CacheId) (f : APICache → APICache) :
    (s.update id f).cache id = f (s.cache id) := by
  simp [update]

@[simp] theorem update_cache_ne (s : Caches) {id other : CacheId} (f : APICache → APICache)
    (h : other ≠ id) : (s.update id f).cache other = s.cache other := by
  simp [update, h]

/-- The time of the last refresh that a check of the cache goes by. -/
def lastRefresh (s : Caches) : CacheId → ℤ
  | [] => (s.cache []).lastRefresh
  | i :: base => max (s.cache (i :: base)).lastRefresh (s.cache base).lastRefresh

/-- The cache needs a refresh when the clock shows `t`. -/
def staleAt (s : Caches) (id : CacheId) (t : ℤ) : Bool :=
  s.lastRefresh id = 0 || (s.cache id).refreshDuration < 0 ||
    (durationMax - (s.cache id).refreshDuration > s.lastRefresh id &&
      t ≥ s.lastRefresh id + (s.cache id).refreshDuration)

/-- A check of the cache reads the clock. -/
def readsClock (s : Caches) (id : CacheId) : Bool :=
  !(s.lastRefresh id = 0 || (s.cache id).refreshDuration < 0) &&
    durationMax - (s.cache id).refreshDuration > s.lastRefresh id

/-- After the cache has taken over a later time of its base. -/
def touched (s : Caches) (id : CacheId) : Caches :=
  { s.update id fun c => { c with lastRefresh := s.lastRefresh id } with
    history := .checked id :: s.history }

/-- After a check of the cache. -/
def checked (s : Caches) (id : CacheId) : Caches :=
  { s.touched id with readings := if s.readsClock id then s.readings + 1 else s.readings }

/-- After a failed request. -/
def failed (s : Caches) : Caches := { s with requests := s.requests + 1 }

/-- After a request of the cache has returned, before the result is stored. -/
def arrived (env : CacheEnv) (s : Caches) (id : CacheId) (json : Json) : Caches :=
  { s with
    readings := s.readings + 1
    requests := s.requests + 1
    fetched := ⟨id, env.clock s.readings, json⟩ :: s.fetched
    history := .refreshed id (env.clock s.readings) :: s.history }.update id
      fun c => { c with lastRefresh := env.clock s.readings }

/-- After a value has been stored in a cache. -/
def store (s : Caches) (id : CacheId) (value : Json) : Caches :=
  s.update id fun c => { c with value }

end Caches

namespace APICache

open Effect Caches

variable (env : CacheEnv)

/-- The reply to the next request, if it is made for this cache. -/
def reply (s : Caches) (id : CacheId) : Except Exception Json :=
  (env.commands s.requests).getRequest (getRequestPath env id) (.obj [])

@[simp] theorem result_now (s : Caches) :
    result (now env) s = (.ok (env.clock s.readings), { s with readings := s.readings + 1 }) := rfl

@[simp] theorem result_GETRequest (s : Caches) (id : CacheId) :
    result (GETRequest env id) s = (reply env s id, s.failed) := rfl

theorem result_outdated (s : Caches) (id : CacheId) (last : s.lastRefresh id =
    (s.cache id).lastRefresh) :
    result (outdated env id) s = (.ok (s.staleAt id (env.clock s.readings)),
      { s with readings := if s.readsClock id then s.readings + 1 else s.readings }) := by
  simp only [outdated, result_bind, result_get, result_ite, result_pure, result_now, staleAt,
    readsClock, last]
  by_cases unset : (s.cache id).lastRefresh = 0 ∨ (s.cache id).refreshDuration < 0
  · rcases unset with h | h <;> simp [h]
  · obtain ⟨h, h'⟩ := not_or.mp unset
    by_cases overflow : durationMax - (s.cache id).refreshDuration > (s.cache id).lastRefresh
    · simp [h, h', overflow]
    · simp [h, h', overflow]

@[simp] theorem result_needsRefresh (s : Caches) (id : CacheId) :
    result (needsRefresh env id) s =
      (.ok (s.staleAt id (env.clock s.readings)), s.checked id) := by
  cases id with
  | nil =>
      have same : s.touched [] = { s with history := .checked [] :: s.history } := by
        simp [touched, Caches.update, Caches.lastRefresh]
      rw [checked, same, needsRefresh, result_bind]
      exact result_outdated env { s with history := .checked [] :: s.history } [] rfl
  | cons i base =>
      have other : base ≠ i :: base := fun h => by simpa using congrArg List.length h
      have last : (s.touched (i :: base)).lastRefresh (i :: base) = s.lastRefresh (i :: base) := by
        simp [touched, Caches.lastRefresh]
      have own : (s.touched (i :: base)).lastRefresh (i :: base) =
          ((s.touched (i :: base)).cache (i :: base)).lastRefresh := by
        rw [last]
        simp [touched]
      have duration : ((s.touched (i :: base)).cache (i :: base)).refreshDuration =
          (s.cache (i :: base)).refreshDuration := by
        simp [touched]
      simp only [needsRefresh, result_bind, result_modify]
      change result (outdated env (i :: base)) (s.touched (i :: base)) = _
      rw [result_outdated env _ _ own]
      simp only [staleAt, readsClock, checked, last, duration]
      rfl

/-- A refresh of the root fails at its request or stores what arrived. -/
theorem result_refresh_root (s : Caches) :
    result (refresh env []) s =
      match reply env s [] with
      | .ok json => (.ok (), (s.arrived env [] json).store [] json)
      | .error e => (.error e, s.failed) := by
  simp only [refresh, result_bind, result_GETRequest]
  cases reply env s [] <;> rfl

theorem result_storeMember (s : Caches) (i : ℕ) (base : CacheId) (json : Json) :
    result (storeMember env i base json) s =
      match (s.cache base).value.setMember (env.path (i :: base)) json with
      | .ok value => (.ok (), s.store base value)
      | .error e => (.error e, s) := by
  simp only [storeMember, result_bind, result_get, result_ofExcept]
  cases (s.cache base).value.setMember (env.path (i :: base)) json <;> rfl

/-- A refresh below the root goes to the base if that needs one. Otherwise it fails at its
request, or at storing what arrived as a member of the base's value, or stores it. -/
theorem result_refresh_child (s : Caches) (i : ℕ) (base : CacheId) :
    result (refresh env (i :: base)) s =
      if s.staleAt base (env.clock s.readings) then result (refresh env base) (s.checked base)
      else
        match reply env (s.checked base) (i :: base) with
        | .error e => (.error e, (s.checked base).failed)
        | .ok json =>
          match (s.cache base).value.setMember (env.path (i :: base)) json with
          | .ok value =>
            (.ok (), ((s.checked base).arrived env (i :: base) json).store base value)
          | .error e => (.error e, (s.checked base).arrived env (i :: base) json) := by
  have other : base ≠ i :: base := fun h => by simpa using congrArg List.length h
  have value : ∀ json, (((s.checked base).arrived env (i :: base) json).cache base).value =
      (s.cache base).value := by
    intro json
    simp [arrived, Caches.update, checked, touched, other]
  simp only [refresh, result_bind, result_needsRefresh, result_ite]
  by_cases stale : s.staleAt base (env.clock s.readings) = true
  · rw [if_pos stale, if_pos stale]
  · rw [if_neg stale, if_neg stale]
    simp only [result_GETRequest]
    cases reply env (s.checked base) (i :: base) with
    | error e => rfl
    | ok json =>
        simp only [← value json]
        exact result_storeMember env ((s.checked base).arrived env (i :: base) json) i base json

theorem result_cachedValue (s : Caches) (id : CacheId) :
    result (cachedValue env id) s =
      match id with
      | [] => (.ok (s.cache []).value, s)
      | i :: base =>
        match (s.cache base).value.find? (env.path (i :: base)) with
        | some value => (.ok value, s)
        | none => (.error (.hueException "Child path not present in base cache"), s) := by
  cases id with
  | nil => rfl
  | cons i base =>
      simp only [cachedValue, result_bind, result_get]
      cases (s.cache base).value.find? (env.path (i :: base)) <;> rfl

theorem result_getValue (s : Caches) (id : CacheId) :
    result (getValue env id) s =
      if s.staleAt id (env.clock s.readings) then
        match result (refresh env id) (s.checked id) with
        | (.ok _, t) => result (cachedValue env id) t
        | (.error e, t) => (.error e, t)
      else result (cachedValue env id) (s.checked id) := by
  simp only [getValue, result_bind, result_needsRefresh]
  by_cases stale : s.staleAt id (env.clock s.readings) = true
  · simp only [stale, if_true, result_bind]
    rcases result (refresh env id) (s.checked id) with ⟨_ | _, _⟩ <;> rfl
  · simp only [stale, Bool.false_eq_true, if_false]

end APICache

namespace Caches

variable {s : Caches} {id other : CacheId}

theorem checked_cache : (s.checked id).cache other =
    if other = id then { s.cache id with lastRefresh := s.lastRefresh id } else s.cache other := by
  by_cases same : other = id
  · subst same
    simp [checked, touched]
  · simp [checked, touched, same]

@[simp] theorem checked_value : ((s.checked id).cache other).value = (s.cache other).value := by
  rw [checked_cache]
  split
  · rename_i same
    rw [same]
  · rfl

@[simp] theorem checked_refreshDuration :
    ((s.checked id).cache other).refreshDuration = (s.cache other).refreshDuration := by
  rw [checked_cache]
  split
  · rename_i same
    rw [same]
  · rfl

theorem checked_lastRefresh : ((s.checked id).cache other).lastRefresh =
    if other = id then s.lastRefresh id else (s.cache other).lastRefresh := by
  rw [checked_cache]
  split <;> rfl

@[simp] theorem checked_root_lastRefresh :
    ((s.checked id).cache []).lastRefresh = (s.cache []).lastRefresh := by
  rw [checked_lastRefresh]
  split
  · rename_i same
    rw [← same]
    rfl
  · rfl

@[simp] theorem checked_fetched : (s.checked id).fetched = s.fetched := rfl

theorem arrived_cache (env : CacheEnv) (json : Json) : (s.arrived env id json).cache other =
    if other = id then { s.cache id with lastRefresh := env.clock s.readings }
    else s.cache other := by
  by_cases same : other = id
  · subst same
    simp [arrived]
  · simp [arrived, same]

@[simp] theorem arrived_value (env : CacheEnv) (json : Json) :
    ((s.arrived env id json).cache other).value = (s.cache other).value := by
  rw [arrived_cache]
  split
  · rename_i same
    rw [same]
  · rfl

@[simp] theorem arrived_refreshDuration (env : CacheEnv) (json : Json) :
    ((s.arrived env id json).cache other).refreshDuration = (s.cache other).refreshDuration := by
  rw [arrived_cache]
  split
  · rename_i same
    rw [same]
  · rfl

/-- A request below the root leaves the root alone until the reply is stored. -/
@[simp] theorem arrived_root (env : CacheEnv) {i : ℕ} {base : CacheId} (json : Json) :
    (s.arrived env (i :: base) json).cache [] = s.cache [] := by
  rw [arrived_cache, if_neg (by simp)]

theorem store_cache (value : Json) : (s.store id value).cache other =
    if other = id then { s.cache id with value } else s.cache other := by
  by_cases same : other = id
  · subst same
    simp [store]
  · simp [store, same]

@[simp] theorem store_lastRefresh (value : Json) :
    ((s.store id value).cache other).lastRefresh = (s.cache other).lastRefresh := by
  rw [store_cache]
  split
  · rename_i same
    rw [same]
  · rfl

@[simp] theorem store_refreshDuration (value : Json) :
    ((s.store id value).cache other).refreshDuration = (s.cache other).refreshDuration := by
  rw [store_cache]
  split
  · rename_i same
    rw [same]
  · rfl

theorem duration_cache (d : ℤ) :
    (s.update id fun c => { c with refreshDuration := d }).cache other =
      if other = id then { s.cache id with refreshDuration := d } else s.cache other := by
  by_cases same : other = id
  · subst same
    simp
  · simp [same]

theorem duration_lastRefresh (d : ℤ) :
    ((s.update id fun c => { c with refreshDuration := d }).cache other).lastRefresh =
      (s.cache other).lastRefresh := by
  rw [duration_cache]
  split
  · rename_i same
    rw [same]
  · rfl

theorem duration_value (d : ℤ) :
    ((s.update id fun c => { c with refreshDuration := d }).cache other).value =
      (s.cache other).value := by
  rw [duration_cache]
  split
  · rename_i same
    rw [same]
  · rfl

theorem lastRefresh_ne_zero {t : ℤ} (fresh : s.staleAt id t = false) : s.lastRefresh id ≠ 0 := by
  simp only [staleAt, Bool.or_eq_false_iff, decide_eq_false_iff_not] at fresh
  exact fresh.1.1

end Caches

/-- The elementary changes a call is made of. -/
inductive Move (env : CacheEnv) : Caches → Caches → Prop where
  | checked (s : Caches) (id : CacheId) : Move env s (s.checked id)
  | failed (s : Caches) : Move env s s.failed
  | root (s : Caches) (json : Json) : Move env s ((s.arrived env [] json).store [] json)
  | stored {s : Caches} {i : ℕ} {base : CacheId} {json value : Json} :
    (s.cache base).lastRefresh ≠ 0 →
    (s.cache base).value.setMember (env.path (i :: base)) json = .ok value →
    Move env s ((s.arrived env (i :: base) json).store base value)
  | dropped {s : Caches} {i : ℕ} {base : CacheId} {json : Json} {e : Exception} :
    (s.cache base).lastRefresh ≠ 0 →
    (s.cache base).value.setMember (env.path (i :: base)) json = .error e →
    Move env s (s.arrived env (i :: base) json)
  | duration (s : Caches) (id : CacheId) (refreshDuration : ℤ) :
    Move env s (s.update id fun c => { c with refreshDuration })

abbrev Moves (env : CacheEnv) : Caches → Caches → Prop := Relation.ReflTransGen (Move env)

section Moves

open Effect APICache Caches

variable (env : CacheEnv)

theorem moves_refresh (id : CacheId) (s : Caches) :
    Moves env s (result (refresh env id) s).2 := by
  induction id generalizing s with
  | nil =>
      rw [result_refresh_root]
      cases reply env s [] with
      | ok json => exact .single (.root s json)
      | error e => exact .single (.failed s)
  | cons i base ih =>
      rw [result_refresh_child]
      refine .head (.checked s base) ?_
      split
      · exact ih (s.checked base)
      · rename_i fresh
        have known : ((s.checked base).cache base).lastRefresh ≠ 0 := by
          rw [checked_lastRefresh, if_pos rfl]
          exact lastRefresh_ne_zero (Bool.not_eq_true _ ▸ fresh)
        cases reply env (s.checked base) (i :: base) with
        | error e => exact .single (.failed _)
        | ok json =>
            simp only
            rw [← @checked_value s base base]
            cases stored : ((s.checked base).cache base).value.setMember (env.path (i :: base))
                json with
            | ok value => exact .single (.stored known stored)
            | error e => exact .single (.dropped known stored)

@[simp] theorem cachedValue_state (id : CacheId) (s : Caches) :
    (result (cachedValue env id) s).2 = s := by
  rw [result_cachedValue]
  split
  · rfl
  · split <;> rfl

theorem moves_getValue (id : CacheId) (s : Caches) :
    Moves env s (result (getValue env id) s).2 := by
  rw [result_getValue]
  refine .head (.checked s id) ?_
  split
  · have moves := moves_refresh env id (s.checked id)
    split
    · rename_i t refreshed
      rw [cachedValue_state]
      rwa [refreshed] at moves
    · rename_i e t refreshed
      rwa [refreshed] at moves
  · rw [cachedValue_state]

/-- The refresh durations are set by `setRefreshDuration` only. -/
@[simp] theorem refresh_refreshDuration (id other : CacheId) (s : Caches) :
    ((result (refresh env id) s).2.cache other).refreshDuration =
      (s.cache other).refreshDuration := by
  induction id generalizing s with
  | nil =>
      rw [result_refresh_root]
      cases reply env s [] with
      | ok json => simp
      | error e => rfl
  | cons i base ih =>
      rw [result_refresh_child]
      split
      · rw [ih, checked_refreshDuration]
      · cases reply env (s.checked base) (i :: base) with
        | error e => exact checked_refreshDuration
        | ok json =>
            simp only
            cases (s.cache base).value.setMember (env.path (i :: base)) json <;> simp

@[simp] theorem getValue_refreshDuration (id other : CacheId) (s : Caches) :
    ((result (getValue env id) s).2.cache other).refreshDuration =
      (s.cache other).refreshDuration := by
  have refreshed := refresh_refreshDuration env id other (s.checked id)
  rw [checked_refreshDuration] at refreshed
  rw [result_getValue]
  split
  · split
    · rename_i ran
      rw [ran] at refreshed
      rw [cachedValue_state, refreshed]
    · rename_i ran
      rw [ran] at refreshed
      exact refreshed
  · rw [cachedValue_state, checked_refreshDuration]

theorem moves_run (s : Caches) (call : CacheCall) : Moves env s (call.run env s) := by
  cases call with
  | refresh id => exact moves_refresh env id s
  | getValue id => exact moves_getValue env id s
  | setRefreshDuration id d => exact .single (.duration s id d)

theorem holds_of_moves {P : Caches → Prop} (move : ∀ {s t}, P s → Move env s t → P t)
    {s t : Caches} (holds : P s) (moves : Moves env s t) : P t := by
  induction moves with
  | refl => exact holds
  | tail _ last ih => exact move ih last

/-- What holds after the construction and is kept by every move holds in every run. -/
theorem invariant_of_moves {P : Caches → Prop} (start : ∀ s, Constructed env s → P s)
    (move : ∀ {s t}, P s → Move env s t → P t) : (cacheSystem env).Invariant P where
  init := start
  step s call holds _ := by
    exact holds_of_moves env move holds (moves_run env s call)

end Moves

end Hueplusplus
