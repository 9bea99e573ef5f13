import Hueplusplus.APICache.Views

/-!
# Which requests a call makes

What a call asks the bridge is read off its dependence on the bridge: the outcome is a
function of the replies it gets. A refresh goes up the chain as long as the next base is
stale. The checks on the way bring times of refresh up to date, but not those that decide
about the caches further up, so the topmost stale cache is known from the start.
-/

namespace Hueplusplus

namespace Caches

/-- `top` ends the unbroken run of stale caches directly above `id`: everything between is
stale, and the base of `top` is not, or there is none. -/
structure TopmostStale (s : Caches) (time : ℤ) (id top : CacheId) : Prop where
  above : top <:+ id
  stale : ∀ cache, top <:+ cache → cache <:+ id → cache ≠ id → s.staleAt cache time = true
  fresh : ∀ i base, top = i :: base → s.staleAt base time = false

end Caches

namespace APICache

open Effect Caches

/-- The only request of a computation started in `s` is the GET of the cache `id`: what it
returns or throws and the state it leaves are a function of the reply, one request is
counted, and if the request throws, so does the computation. -/
def AsksOnce {α : Type} (env : CacheEnv) (x : CacheEnv → CacheM α) (id : CacheId) (s : Caches) :
    Prop :=
  ∃ outcome : Except Exception Json → Except Exception α × Caches,
    (∀ reply, (outcome reply).2.requests = s.requests + 1) ∧
    (∀ e, (outcome (.error e)).1 = .error e) ∧
    ∀ commands, result (x { env with commands }) s =
      outcome ((commands s.requests).getRequest (getRequestPath env id) (.obj []))

/-- A computation started in `s` makes no request: no bridge makes a difference to it. -/
def AsksNothing {α : Type} (env : CacheEnv) (x : CacheEnv → CacheM α) (s : Caches) : Prop :=
  ∃ outcome : Except Exception α × Caches, outcome.2.requests = s.requests ∧
    ∀ commands, result (x { env with commands }) s = outcome

variable (env : CacheEnv)

theorem getRequestPath_commands (commands : ℕ → HueCommandAPI) (id : CacheId) :
    getRequestPath { env with commands } id = getRequestPath env id := by
  induction id with
  | nil => rfl
  | cons i base ih => rw [getRequestPath, getRequestPath, ih]

theorem constGetValue_commands (commands : ℕ → HueCommandAPI) (s : Caches) (id : CacheId) :
    constGetValue { env with commands } s id = constGetValue env s id := by
  induction id with
  | nil => rfl
  | cons i base ih => rw [constGetValue, constGetValue, ih]

theorem reply_commands (commands : ℕ → HueCommandAPI) (s : Caches) (id : CacheId) :
    reply { env with commands } s id =
      (commands s.requests).getRequest (getRequestPath env id) (.obj []) := by
  rw [reply, getRequestPath_commands]

theorem result_cachedValue_commands (commands : ℕ → HueCommandAPI) (s : Caches) (id : CacheId) :
    result (cachedValue { env with commands } id) s = result (cachedValue env id) s := by
  cases id <;> rw [result_cachedValue, result_cachedValue]

end APICache

namespace Caches

variable {s : Caches} {id other : CacheId}

/-- A check brings the time of its cache up to date, and so changes nothing for that cache and
those that are not below it. -/
theorem checked_lastRefresh_of_le (level : other.length ≤ id.length) :
    (s.checked id).lastRefresh other = s.lastRefresh other := by
  cases other with
  | nil => exact checked_root_lastRefresh
  | cons i base =>
      have apart : base ≠ id := by
        intro same
        rw [← same] at level
        exact absurd level (by simp)
      simp only [lastRefresh, checked_lastRefresh, if_neg apart]
      split
      · rename_i same
        rw [← same]
        simp only [max_assoc, max_self]
      · rfl

theorem checked_staleAt (level : other.length ≤ id.length) (time : ℤ) :
    (s.checked id).staleAt other time = s.staleAt other time := by
  simp [staleAt, checked_lastRefresh_of_le level]

/-- The cache a refresh of `id` asks for when the clock shows `time`. -/
def topmost (s : Caches) (time : ℤ) : CacheId → CacheId
  | [] => []
  | i :: base => if s.staleAt base time then s.topmost time base else i :: base

theorem topmost_checked (time : ℤ) (level : other.length ≤ id.length) :
    (s.checked id).topmost time other = s.topmost time other := by
  induction other with
  | nil => rfl
  | cons i base ih =>
      have above : base.length ≤ id.length := (Nat.le_succ _).trans level
      rw [topmost, topmost, checked_staleAt above, ih above]

/-- That is the topmost one of the unbroken run of stale caches above it. -/
theorem topmost_spec (s : Caches) (time : ℤ) (id : CacheId) :
    s.TopmostStale time id (s.topmost time id) := by
  induction id with
  | nil =>
      constructor
      · exact List.suffix_rfl
      · intro cache _ down apart
        exact absurd (List.suffix_nil.mp down) apart
      · intro i base split
        exact absurd split (by simp [topmost])
  | cons i base ih =>
      rw [topmost]
      cases stale : s.staleAt base time with
      | true =>
          rw [if_pos rfl]
          constructor
          · exact ih.above.trans (List.suffix_cons i base)
          · intro cache up down apart
            have down := (List.suffix_cons_iff.mp down).resolve_left apart
            by_cases same : cache = base
            · rw [same]
              exact stale
            · exact ih.stale cache up down same
          · exact ih.fresh
      | false =>
          rw [if_neg Bool.false_ne_true]
          constructor
          · exact List.suffix_rfl
          · intro cache up down apart
            exact absurd (down.eq_of_length_le up.length_le) apart
          · intro j base' split
            obtain ⟨-, rfl⟩ := List.cons.inj split
            exact stale

end Caches

namespace APICache

open Effect Caches

variable {env : CacheEnv}

variable (env) in
/-- What a refresh of the root makes of the reply. -/
def refreshedRoot (s : Caches) : Except Exception Json → Except Exception Unit × Caches
  | .ok json => (.ok (), (s.arrived env [] json).store [] json)
  | .error e => (.error e, s.failed)

variable (env) in
/-- What the refresh of a cache whose base is not stale makes of the reply. -/
def refreshedMember (s : Caches) (i : ℕ) (base : CacheId) :
    Except Exception Json → Except Exception Unit × Caches
  | .error e => (.error e, (s.checked base).failed)
  | .ok json =>
    match (s.cache base).value.setMember (env.path (i :: base)) json with
    | .ok value => (.ok (), ((s.checked base).arrived env (i :: base) json).store base value)
    | .error e => (.error e, (s.checked base).arrived env (i :: base) json)

theorem refresh_asksOnce {time : ℤ} (fixed : ∀ n, env.clock n = time) (id : CacheId)
    (s : Caches) : AsksOnce env (fun env => refresh env id) (s.topmost time id) s := by
  induction id generalizing s with
  | nil =>
      refine ⟨refreshedRoot env s, ?_, ?_, ?_⟩
      · rintro (e | json) <;> rfl
      · intro e
        rfl
      · intro commands
        rw [result_refresh_root, reply_commands, topmost]
        cases (commands s.requests).getRequest (getRequestPath env []) (.obj []) <;> rfl
  | cons i base ih =>
      rw [topmost]
      cases stale : s.staleAt base time with
      | true =>
          obtain ⟨outcome, counts, throws, asks⟩ := ih (s.checked base)
          rw [topmost_checked time le_rfl] at asks
          refine ⟨outcome, counts, throws, ?_⟩
          intro commands
          have passed : s.staleAt base (env.clock s.readings) = true := by
            rw [fixed]
            exact stale
          rw [result_refresh_child, if_pos passed]
          exact asks commands
      | false =>
          have kept : ¬ s.staleAt base (env.clock s.readings) = true := by
            rw [fixed, stale]
            exact Bool.false_ne_true
          refine ⟨refreshedMember env s i base, ?_, ?_, ?_⟩
          · rintro (e | json)
            · rfl
            · rw [refreshedMember]
              split <;> rfl
          · intro e
            rfl
          · intro commands
            rw [result_refresh_child, if_neg kept, reply_commands]
            rfl

variable (env) in
/-- What `getValue` makes of the outcome of the refresh. -/
def thenCached (id : CacheId) : Except Exception Unit × Caches → Except Exception Json × Caches
  | (.ok _, t) => result (cachedValue env id) t
  | (.error e, t) => (.error e, t)

@[simp] theorem thenCached_requests (id : CacheId) (refreshed : Except Exception Unit × Caches) :
    (thenCached env id refreshed).2.requests = refreshed.2.requests := by
  rcases refreshed with ⟨_ | _, t⟩
  · rfl
  · rw [thenCached, cachedValue_state]

theorem thenCached_error (id : CacheId) {refreshed : Except Exception Unit × Caches}
    {e : Exception} (thrown : refreshed.1 = .error e) :
    (thenCached env id refreshed).1 = .error e := by
  rcases refreshed with ⟨_ | _, t⟩
  · exact congrArg Except.error (Except.error.inj thrown)
  · exact absurd thrown (by simp)

theorem thenCached_commands (commands : ℕ → HueCommandAPI) (id : CacheId)
    (refreshed : Except Exception Unit × Caches) :
    thenCached { env with commands } id refreshed = thenCached env id refreshed := by
  rcases refreshed with ⟨_ | _, t⟩
  · rfl
  · exact result_cachedValue_commands env commands t id

theorem result_getValue_of_stale {s : Caches} {id : CacheId}
    (stale : s.staleAt id (env.clock s.readings) = true) :
    result (getValue env id) s = thenCached env id (result (refresh env id) (s.checked id)) := by
  rw [result_getValue, if_pos stale]
  rcases result (refresh env id) (s.checked id) with ⟨_ | _, t⟩ <;> rfl

theorem getValue_asksOnce {time : ℤ} (fixed : ∀ n, env.clock n = time) {id : CacheId}
    {s : Caches} (stale : s.staleAt id time = true) :
    AsksOnce env (fun env => getValue env id) (s.topmost time id) s := by
  obtain ⟨outcome, counts, throws, asks⟩ := refresh_asksOnce fixed id (s.checked id)
  rw [topmost_checked time le_rfl] at asks
  refine ⟨fun reply => thenCached env id (outcome reply), ?_, ?_, ?_⟩
  · intro reply
    rw [thenCached_requests]
    exact counts reply
  · intro e
    exact thenCached_error id (throws e)
  · intro commands
    have asked : s.staleAt id (env.clock s.readings) = true := by
      rw [fixed]
      exact stale
    have got : result (getValue { env with commands } id) s =
        thenCached { env with commands } id _ := result_getValue_of_stale asked
    rw [thenCached_commands] at got
    exact got.trans (congrArg (thenCached env id) (asks commands))

theorem getValue_asksNothing {time : ℤ} (fixed : ∀ n, env.clock n = time) {id : CacheId}
    {s : Caches} (fresh : s.staleAt id time = false) :
    AsksNothing env (fun env => getValue env id) s := by
  refine ⟨result (cachedValue env id) (s.checked id), ?_, ?_⟩
  · rw [cachedValue_state]
    rfl
  · intro commands
    have kept : ¬ s.staleAt id (env.clock s.readings) = true := by
      rw [fixed, fresh]
      exact Bool.false_ne_true
    rw [result_getValue, if_neg kept]
    exact result_cachedValue_commands env commands _ id

/-- At a fixed time, for every cache of every chain and in every state: a refresh asks for the
topmost stale cache and nothing else, `getValue` does the same if the cache is stale and asks
nothing otherwise, and the constant `getValue` never asks. -/
theorem asks_at_most_once (env : CacheEnv) {time : ℤ} (fixed : ∀ n, env.clock n = time)
    (s : Caches) (id : CacheId) : ∃ top, s.TopmostStale time id top ∧
      AsksOnce env (fun env => refresh env id) top s ∧
      (s.staleAt id time = true → AsksOnce env (fun env => getValue env id) top s) ∧
      (s.staleAt id time = false → AsksNothing env (fun env => getValue env id) s) ∧
      ∀ commands, constGetValue { env with commands } s id = constGetValue env s id :=
  ⟨s.topmost time id, topmost_spec s time id, refresh_asksOnce fixed id s,
    getValue_asksOnce fixed, getValue_asksNothing fixed,
    fun commands => constGetValue_commands env commands s id⟩

/-- The caches of a bridge and its lights at time 5, none of which was refreshed. -/
theorem asks_at_most_once_lights :
    let env := { lightCaches with clock := fun _ => 5 }
    ∃ top, newCaches.TopmostStale 5 [0, 0] top ∧
      AsksOnce env (fun env => refresh env [0, 0]) top newCaches ∧
      (newCaches.staleAt [0, 0] 5 = true →
        AsksOnce env (fun env => getValue env [0, 0]) top newCaches) ∧
      (newCaches.staleAt [0, 0] 5 = false →
        AsksNothing env (fun env => getValue env [0, 0]) newCaches) ∧
      ∀ commands, constGetValue { env with commands } newCaches [0, 0] =
        constGetValue env newCaches [0, 0] :=
  asks_at_most_once { lightCaches with clock := fun _ => 5 } (fun _ => rfl) newCaches [0, 0]

end APICache

end Hueplusplus
