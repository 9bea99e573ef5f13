import Hueplusplus.APICache.Views

/-!
# How old the returned JSON can be

The root's value is a reply to a request of the root, patched with later replies to
requests of the caches on it. `Fetched` follows these patches. The invariant bounds the
age of the root's value by the root's time of refresh, and that of a member by the later
of the root's and its cache's.
-/

namespace Hueplusplus

/-- The clock does not go back. -/
def CacheEnv.Nondecreasing (env : CacheEnv) : Prop :=
  ∀ m n, m ≤ n → env.clock m ≤ env.clock n

/-- JSON under the given keys that was fetched by requests in `source`: the reply to a
request of a cache with these keys, a member of a reply to the root, or the root's value
patched with a reply to a cache on the root. -/
inductive Fetched (env : CacheEnv) (source : Fetch → Prop) : List String → Json → Prop where
  | whole {f : Fetch} : source f → Fetched env source (env.keys f.id) f.json
  | member {f : Fetch} {key : String} {json : Json} : source f → f.id = [] →
    f.json.find? key = some json → Fetched env source [key] json
  | patched {f : Fetch} {i : ℕ} {json value : Json} : Fetched env source [] json → source f →
    f.id = [i] → json.setMember (env.path [i]) f.json = .ok value → Fetched env source [] value

theorem Fetched.imp {env : CacheEnv} {source source' : Fetch → Prop}
    (h : ∀ f, source f → source' f) {keys : List String} {json : Json}
    (fetched : Fetched env source keys json) : Fetched env source' keys json := by
  induction fetched with
  | whole source => exact .whole (h _ source)
  | member source root found => exact .member (h _ source) root found
  | patched _ source level stores ih => exact .patched ih (h _ source) level stores

namespace Caches

variable {env : CacheEnv}

/-- The JSON was fetched after the clock showed `t`. -/
def FetchedAfter (env : CacheEnv) (s : Caches) (t : ℤ) : List String → Json → Prop :=
  Fetched env fun f => f ∈ s.fetched ∧ t < f.time

/-- The JSON was fetched by the latest request, which was made since `s`. -/
def FetchedSince (env : CacheEnv) (s t : Caches) (keys : List String) (json : Json) : Prop :=
  ∃ f, t.fetched = f :: s.fetched ∧ Fetched env (fun g => g = f) keys json

/-- Every cached value is kept, and the root and the caches on it need a refresh when they
needed one before. -/
structure Unchanged (s t : Caches) : Prop where
  value : ∀ id, (t.cache id).value = (s.cache id).value
  stale : ∀ id, id.length ≤ 1 → ∀ time, t.staleAt id time = s.staleAt id time

theorem Unchanged.trans {s t u : Caches} (h : s.Unchanged t) (h' : t.Unchanged u) :
    s.Unchanged u where
  value id := (h'.value id).trans (h.value id)
  stale id level time := (h'.stale id level time).trans (h.stale id level time)

theorem FetchedAfter.mono {s u : Caches} {t : ℤ} (subset : ∀ f ∈ s.fetched, f ∈ u.fetched)
    {keys : List String} {json : Json} (h : s.FetchedAfter env t keys json) :
    u.FetchedAfter env t keys json :=
  h.imp fun f source => ⟨subset f source.1, source.2⟩

end Caches

namespace APICache

open Effect Caches

variable {env : CacheEnv}

/-- The times of refresh are past, and the values at the root are not older. -/
structure Dated (env : CacheEnv) (s : Caches) : Prop where
  past : ∀ id n, s.readings ≤ n → (s.cache id).lastRefresh ≤ env.clock n
  root : (s.cache []).lastRefresh ≠ 0 → ∀ t < (s.cache []).lastRefresh,
    s.FetchedAfter env t [] (s.cache []).value
  child : ∀ i member, (s.cache []).value.find? (env.path [i]) = some member →
    ∀ t < s.lastRefresh [i], s.FetchedAfter env t [env.path [i]] member

theorem dated_constructed {s : Caches} (monotone : env.Nondecreasing)
    (positive : ∀ n, 0 < env.clock n) (h : Constructed env s) : Dated env s := by
  have last : ∀ id, (s.cache id).lastRefresh = (s.cache []).lastRefresh := by
    intro id
    induction id with
    | nil => rfl
    | cons i base ih => rw [(h.below i base).2, ih]
  rcases h.root with ⟨null, unset, nothing⟩ | ⟨_, time, readings, initial⟩
  · refine ⟨fun id n _ => ?_, fun set => absurd unset set, fun i member found => ?_⟩
    · rw [last, unset]
      exact (positive n).le
    · rw [null] at found
      exact absurd found (by simp [Json.find?])
  · have source : ∀ t < (s.cache []).lastRefresh,
        (⟨[], env.clock 0, (s.cache []).value⟩ : Fetch) ∈ s.fetched ∧ t < env.clock 0 := by
      intro t before
      rw [initial, ← time]
      exact ⟨List.mem_singleton_self _, before⟩
    refine ⟨fun id n _ => ?_, fun _ t before => ?_, fun i member found t before => ?_⟩
    · rw [last, time]
      exact monotone 0 n (Nat.zero_le n)
    · exact Fetched.whole (f := ⟨[], env.clock 0, (s.cache []).value⟩) (source t before)
    · have same : s.lastRefresh [i] = (s.cache []).lastRefresh := by
        simp [Caches.lastRefresh, last [i]]
      exact Fetched.member (f := ⟨[], env.clock 0, (s.cache []).value⟩) (source t (same ▸ before))
        rfl found

/-- Nothing changes for the root's value and the caches that find a member in it. -/
theorem Dated.frame {s t : Caches} (h : Dated env s)
    (past : ∀ id n, t.readings ≤ n → (t.cache id).lastRefresh ≤ env.clock n)
    (root : (t.cache []).lastRefresh = (s.cache []).lastRefresh)
    (value : (t.cache []).value = (s.cache []).value)
    (child : ∀ i member, (s.cache []).value.find? (env.path [i]) = some member →
      t.lastRefresh [i] = s.lastRefresh [i])
    (fetched : ∀ f ∈ s.fetched, f ∈ t.fetched) : Dated env t := by
  refine ⟨past, fun set time before => ?_, fun i member found time before => ?_⟩
  · rw [root] at set before
    rw [value]
    exact (h.root set time before).mono fetched
  · rw [value] at found
    rw [child i member found] at before
    exact (h.child i member found time before).mono fetched

theorem Dated.lastRefresh_le {s : Caches} (h : Dated env s) (id : CacheId) {n : ℕ}
    (later : s.readings ≤ n) : s.lastRefresh id ≤ env.clock n := by
  cases id with
  | nil => exact h.past [] n later
  | cons i base => exact max_le (h.past (i :: base) n later) (h.past base n later)

theorem checked_lastRefresh_of_length_le {s : Caches} (id : CacheId) {other : CacheId}
    (level : other.length ≤ 1) : (s.checked id).lastRefresh other = s.lastRefresh other := by
  match other with
  | [] => exact checked_root_lastRefresh
  | [i] =>
      rw [Caches.lastRefresh, checked_root_lastRefresh, checked_lastRefresh, Caches.lastRefresh]
      split
      · rename_i same
        rw [← same, Caches.lastRefresh, max_assoc, max_self]
      · rfl

theorem readings_le_checked (s : Caches) (id : CacheId) : s.readings ≤ (s.checked id).readings := by
  simp only [checked]
  split
  · exact Nat.le_succ _
  · exact le_rfl

theorem dated_checked {s : Caches} (h : Dated env s) (id : CacheId) :
    Dated env (s.checked id) := by
  refine h.frame (fun other n later => ?_) ?_ checked_value
    (fun i _ _ => checked_lastRefresh_of_length_le id (by simp)) (fun _ listed => listed)
  · have before := (readings_le_checked s id).trans later
    rw [checked_lastRefresh]
    split
    · exact h.lastRefresh_le id before
    · exact h.past other n before
  · exact checked_root_lastRefresh

/-- After a request has returned, the times of refresh are past. -/
theorem past_arrived {s : Caches} (monotone : env.Nondecreasing) (h : Dated env s) (id : CacheId)
    (json : Json) (other : CacheId) {n : ℕ} (later : s.readings ≤ n) :
    ((s.arrived env id json).cache other).lastRefresh ≤ env.clock n := by
  rw [arrived_cache]
  split
  · exact monotone _ n later
  · exact h.past other n later

/-- A reply to a request of a cache is in the record, with the reading of the clock. -/
theorem fetchedAfter_reply {s : Caches} (id : CacheId) (json : Json) {time : ℤ}
    (before : time < env.clock s.readings) :
    (s.arrived env id json).FetchedAfter env time (env.keys id) json :=
  Fetched.whole (f := ⟨id, env.clock s.readings, json⟩) ⟨List.mem_cons_self, before⟩

theorem dated_root {s : Caches} (monotone : env.Nondecreasing) (h : Dated env s) (json : Json) :
    Dated env ((s.arrived env [] json).store [] json) := by
  have past : ∀ id n, s.readings ≤ n →
      (((s.arrived env [] json).store [] json).cache id).lastRefresh ≤ env.clock n := by
    intro id n later
    rw [store_lastRefresh]
    exact past_arrived monotone h [] json id later
  have value : (((s.arrived env [] json).store [] json).cache []).value = json := by
    rw [store_cache, if_pos rfl]
  refine ⟨fun id n later => past id n (Nat.le_of_succ_le later), fun _ time before => ?_,
    fun i member found time before => ?_⟩
  · rw [value]
    exact fetchedAfter_reply [] json (before.trans_le (past [] s.readings le_rfl))
  · rw [value] at found
    have recent := max_le (past [i] s.readings le_rfl) (past [] s.readings le_rfl)
    exact Fetched.member (f := ⟨[], env.clock s.readings, json⟩)
      ⟨List.mem_cons_self, before.trans_le recent⟩ rfl found

/-- A request of a cache on the root returns and patches the root's value. -/
theorem dated_patched {s : Caches} (monotone : env.Nondecreasing) (h : Dated env s) {i : ℕ}
    {json value : Json} (stores : (s.cache []).value.setMember (env.path [i]) json = .ok value) :
    Dated env ((s.arrived env [i] json).store [] value) := by
  have past : ∀ id n, s.readings ≤ n →
      (((s.arrived env [i] json).store [] value).cache id).lastRefresh ≤ env.clock n := by
    intro id n later
    rw [store_lastRefresh]
    exact past_arrived monotone h [i] json id later
  have root : (((s.arrived env [i] json).store [] value).cache []).lastRefresh =
      (s.cache []).lastRefresh := by
    rw [store_lastRefresh, arrived_root]
  have patched : (((s.arrived env [i] json).store [] value).cache []).value = value := by
    rw [store_cache, if_pos rfl]
  have kept : ∀ f ∈ s.fetched, f ∈ ((s.arrived env [i] json).store [] value).fetched :=
    fun _ listed => List.mem_cons_of_mem _ listed
  refine ⟨fun id n later => past id n (Nat.le_of_succ_le later), fun set time before => ?_,
    fun k member found time before => ?_⟩
  · rw [root] at set before
    rw [patched]
    have recent := before.trans_le (h.past [] s.readings le_rfl)
    exact Fetched.patched (f := ⟨[i], env.clock s.readings, json⟩)
      ((h.root set time before).mono kept) ⟨List.mem_cons_self, recent⟩ rfl stores
  · rw [patched, Json.find?_setMember stores] at found
    split at found
    · rename_i here
      have recent := max_le (past [k] s.readings le_rfl) (past [] s.readings le_rfl)
      rw [← here, ← Option.some.inj found]
      exact fetchedAfter_reply [i] json (before.trans_le recent)
    · rename_i elsewhere
      have other : [k] ≠ [i] := fun same => elsewhere (by rw [same])
      have times : ((s.arrived env [i] json).store [] value).lastRefresh [k] =
          s.lastRefresh [k] := by
        simp only [Caches.lastRefresh, root]
        rw [store_lastRefresh, arrived_cache, if_neg other]
      rw [times] at before
      exact (h.child k member found time before).mono kept

/-- A request further below returns, or a request whose reply cannot be stored: the root's
value stays, and what has a new time of refresh finds no member in it. -/
theorem dated_arrived {s : Caches} (monotone : env.Nondecreasing) (h : Dated env s) {i : ℕ}
    {base : CacheId} (json : Json)
    (apart : base ≠ [] ∨ ∀ key, (s.cache []).value.find? key = none) :
    Dated env (s.arrived env (i :: base) json) := by
  refine h.frame (fun id n later =>
    past_arrived monotone h (i :: base) json id (Nat.le_of_succ_le later)) (by rw [arrived_root])
    (by rw [arrived_root]) (fun k member found => ?_) fun _ listed => List.mem_cons_of_mem _ listed
  · rcases apart with below | none
    · have other : [k] ≠ i :: base := fun same => below (List.cons.inj same).2.symm
      simp only [Caches.lastRefresh, arrived_root]
      rw [arrived_cache, if_neg other]
    · rw [none] at found
      exact absurd found (by simp)

theorem find?_of_setMember_error {j member : Json} {key : String} {e : Exception}
    (h : j.setMember key member = .error e) (other : String) : j.find? other = none := by
  cases j <;> simp_all [Json.setMember, Json.find?]

theorem dated_move {s t : Caches} (monotone : env.Nondecreasing) (h : Dated env s)
    (move : Move env s t) : Dated env t := by
  cases move with
  | checked id => exact dated_checked h id
  | failed => exact ⟨h.past, h.root, h.child⟩
  | root json => exact dated_root monotone h json
  | @stored i base json value _ stores =>
      by_cases level : base = []
      · subst level
        exact dated_patched monotone h stores
      · refine (dated_arrived monotone h json (.inl level)).frame (fun id n later => ?_)
          (store_lastRefresh _) ?_ (fun k _ _ => ?_) fun _ listed => listed
        · rw [store_lastRefresh]
          exact past_arrived monotone h _ json id (Nat.le_of_succ_le later)
        · rw [store_cache, if_neg (Ne.symm level)]
        · simp [Caches.lastRefresh]
  | @dropped i base json e _ stores =>
      refine dated_arrived monotone h json ?_
      by_cases level : base = []
      · subst level
        exact .inr (find?_of_setMember_error stores)
      · exact .inl level
  | duration id d =>
      refine h.frame (fun other n later => ?_) (duration_lastRefresh d) (duration_value d)
        (fun i _ _ => ?_) fun _ listed => listed
      · rw [duration_lastRefresh]
        exact h.past other n later
      · simp only [Caches.lastRefresh, duration_lastRefresh]

theorem dated_invariant (monotone : env.Nondecreasing) (positive : ∀ n, 0 < env.clock n) :
    (cacheSystem env).Invariant (Dated env) :=
  invariant_of_moves env (fun _ => dated_constructed monotone positive) (dated_move monotone)

theorem unchanged_checked (s : Caches) (id : CacheId) : s.Unchanged (s.checked id) where
  value _ := checked_value
  stale other level time := by
    simp [staleAt, checked_lastRefresh_of_length_le id level]

variable (env) in
/-- A refresh changes what is cached only if its request returns. -/
theorem refresh_unchanged_or_fetched (id : CacheId) (s : Caches) :
    s.Unchanged (result (refresh env id) s).2 ∨
      ∃ f, (result (refresh env id) s).2.fetched = f :: s.fetched := by
  induction id generalizing s with
  | nil =>
      rw [result_refresh_root]
      cases reply env s [] with
      | ok json => exact .inr ⟨_, rfl⟩
      | error e => exact .inl ⟨fun _ => rfl, fun _ _ _ => rfl⟩
  | cons i base ih =>
      have checks := unchanged_checked s base
      rw [result_refresh_child]
      split
      · exact (ih (s.checked base)).imp_left checks.trans
      · cases reply env (s.checked base) (i :: base) with
        | error e => exact .inl (checks.trans ⟨fun _ => rfl, fun _ _ _ => rfl⟩)
        | ok json =>
            simp only
            split <;> exact .inr ⟨_, rfl⟩

theorem run_unchanged_of_failed (s : Caches) (call : CacheCall)
    (request : (call.run env s).requests ≠ s.requests)
    (failed : (call.run env s).fetched = s.fetched) : s.Unchanged (call.run env s) := by
  have refreshed : ∀ id u, s.Unchanged u → u.fetched = s.fetched →
      (result (refresh env id) u).2.fetched = s.fetched →
      s.Unchanged (result (refresh env id) u).2 := by
    intro id u before same failed
    rcases refresh_unchanged_or_fetched env id u with kept | ⟨f, fetched⟩
    · exact before.trans kept
    · rw [fetched, same] at failed
      exact absurd (congrArg List.length failed) (by simp)
  cases call with
  | refresh id => exact refreshed id s ⟨fun _ => rfl, fun _ _ _ => rfl⟩ rfl failed
  | getValue id =>
      have checks := unchanged_checked s id
      simp only [CacheCall.run, result_getValue] at request failed ⊢
      split
      · rename_i stale
        rw [if_pos stale] at failed
        have refresh := refreshed id (s.checked id) checks rfl
        split
        · rename_i u ok
          rw [ok, cachedValue_state] at failed
          rw [ok] at refresh
          rw [cachedValue_state]
          exact refresh failed
        · rename_i e u error
          rw [error] at failed refresh
          exact refresh failed
      · rw [cachedValue_state]
        exact checks
  | setRefreshDuration id d => exact absurd rfl request

/-- What is cached for the root, or a cache on it, after its refresh was fetched in it. -/
theorem fetchedSince_refresh {id : CacheId} (level : id.length ≤ 1) {s t : Caches} {value : Json}
    (refreshed : Returns (refresh env id) s () t)
    (cached : Returns (cachedValue env id) t value t) :
    FetchedSince env s t (env.keys id) value := by
  unfold Returns at refreshed
  match id with
  | [] =>
      rw [result_refresh_root] at refreshed
      cases replied : reply env s [] with
      | error e => simp [replied] at refreshed
      | ok json =>
          simp only [replied, Prod.mk.injEq, true_and] at refreshed
          rw [Returns, result_cachedValue, Prod.mk.injEq, Except.ok.injEq, ← refreshed, store_cache,
            if_pos rfl] at cached
          refine ⟨⟨[], env.clock s.readings, json⟩, by rw [← refreshed]; rfl, ?_⟩
          rw [← cached.1]
          exact Fetched.whole (f := ⟨[], env.clock s.readings, json⟩) rfl
  | [i] =>
      have found := returns_cachedValue_child cached
      rw [result_refresh_child] at refreshed
      split at refreshed
      · rw [result_refresh_root] at refreshed
        cases replied : reply env (s.checked []) [] with
        | error e => simp [replied] at refreshed
        | ok json =>
            simp only [replied, Prod.mk.injEq, true_and] at refreshed
            rw [← refreshed, store_cache, if_pos rfl] at found
            exact ⟨_, by rw [← refreshed]; rfl, Fetched.member rfl rfl found⟩
      · cases replied : reply env (s.checked []) [i] with
        | error e => simp [replied] at refreshed
        | ok json =>
            simp only [replied] at refreshed
            split at refreshed
            · rename_i stored stores
              simp only [Prod.mk.injEq, true_and] at refreshed
              rw [← refreshed, store_cache, if_pos rfl] at found
              simp only [Json.find?_setMember stores, if_true, Option.some.injEq] at found
              refine ⟨⟨[i], env.clock (s.checked []).readings, json⟩,
                by rw [← refreshed]; rfl, ?_⟩
              rw [← found]
              exact Fetched.whole (f := ⟨[i], _, json⟩) rfl
            · simp at refreshed

theorem Dated.cached {s : Caches} (h : Dated env s) {id : CacheId} (level : id.length ≤ 1)
    (known : s.lastRefresh id ≠ 0) {value : Json} (cached : Returns (cachedValue env id) s value s)
    {time : ℤ} (before : time < s.lastRefresh id) :
    s.FetchedAfter env time (env.keys id) value := by
  match id with
  | [] =>
      rw [Returns, result_cachedValue, Prod.mk.injEq, Except.ok.injEq] at cached
      rw [← cached.1]
      exact h.root known time before
  | [i] => exact h.child i value (returns_cachedValue_child cached) time before

/-- A call of `getValue` that makes no request only checks the cache. -/
theorem getValue_fresh {s t : Caches} {id : CacheId} {value : Json}
    (fresh : s.staleAt id (env.clock s.readings) = false)
    (returned : Returns (getValue env id) s value t) : t = s.checked id := by
  unfold Returns at returned
  rw [result_getValue, fresh, if_neg Bool.false_ne_true] at returned
  rw [← cachedValue_state env id (s.checked id), returned]

theorem getValue_stale {s t : Caches} {id : CacheId} {value : Json}
    (stale : s.staleAt id (env.clock s.readings) = true)
    (returned : Returns (getValue env id) s value t) :
    Returns (refresh env id) (s.checked id) () t := by
  unfold Returns at returned ⊢
  rw [result_getValue, if_pos stale] at returned
  cases refreshed : result (refresh env id) (s.checked id) with
  | mk outcome u =>
      cases outcome with
      | error e => simp [refreshed] at returned
      | ok _ =>
          simp only [refreshed] at returned
          rw [← cachedValue_state env id u, returned]

/-- A cache that is not stale was refreshed later than its refresh duration ago. -/
theorem lastRefresh_of_fresh {s : Caches} {id : CacheId} {time : ℤ}
    (fresh : s.staleAt id time = false) :
    s.lastRefresh id ≠ 0 ∧
      if s.readsClock id then time - (s.cache id).refreshDuration < s.lastRefresh id
      else durationMax - (s.cache id).refreshDuration ≤ s.lastRefresh id := by
  refine ⟨lastRefresh_ne_zero fresh, ?_⟩
  simp only [staleAt, Bool.or_eq_false_iff, Bool.and_eq_false_iff,
    decide_eq_false_iff_not] at fresh
  obtain ⟨⟨set, positive⟩, late⟩ := fresh
  split
  · rename_i reads
    simp only [readsClock, Bool.and_eq_true, decide_eq_true_eq] at reads
    rcases late with overflow | late
    · exact absurd reads.2 overflow
    · omega
  · rename_i overflow
    simpa [readsClock, set, positive] using overflow

/-- In every run on a root and the caches of its tree, `getValue` of the root or a cache on it
returns what this very call fetched or what was fetched later than the refresh duration
before its reading of the clock, and a call whose request fails changes no cached value and
no cache's need of a refresh. -/
theorem never_staler (env : CacheEnv) (monotone : env.Nondecreasing)
    (positive : ∀ n, 0 < env.clock n) {s : Caches}
    (reachable : (cacheSystem env).Reachable s) :
    (∀ (id : CacheId) (value : Json) (t : Caches), id.length ≤ 1 →
      Returns (getValue env id) s value t →
      FetchedSince env s t (env.keys id) value ∨
        (∀ n, s.readings ≤ n → n < t.readings →
          t.FetchedAfter env (env.clock n - (s.cache id).refreshDuration) (env.keys id) value) ∧
        (t.readings = s.readings →
          t.FetchedAfter env (durationMax - (s.cache id).refreshDuration - 1) (env.keys id)
            value)) ∧
    ∀ call : CacheCall, (call.run env s).requests ≠ s.requests →
      (call.run env s).fetched = s.fetched → s.Unchanged (call.run env s) := by
  have dated := (dated_invariant monotone positive).holds reachable
  refine ⟨fun id value t level returned => ?_, fun call => run_unchanged_of_failed s call⟩
  have cached := cachedValue_of_getValue returned
  cases stale : s.staleAt id (env.clock s.readings) with
  | true =>
      -- The check before the refresh adds nothing to what was fetched.
      have fetched := fetchedSince_refresh level (getValue_stale stale returned) cached
      exact .inl fetched
  | false =>
      obtain rfl := getValue_fresh stale returned
      obtain ⟨known, recent⟩ := lastRefresh_of_fresh stale
      rw [← checked_lastRefresh_of_length_le id level] at known recent
      have after : ∀ time < (s.checked id).lastRefresh id,
          (s.checked id).FetchedAfter env time (env.keys id) value :=
        fun _ before => (dated_checked dated id).cached level known cached before
      refine .inr ⟨fun n first last => ?_, fun none => ?_⟩
      · cases reads : s.readsClock id with
        | false => simp only [checked, reads, Bool.false_eq_true, if_false] at last; omega
        | true =>
            simp only [checked, reads, if_true] at last
            obtain rfl : n = s.readings := by omega
            rw [reads, if_pos rfl] at recent
            exact after _ recent
      · cases reads : s.readsClock id with
        | true => simp [checked, reads] at none
        | false =>
            rw [reads, if_neg Bool.false_ne_true] at recent
            exact after _ (by omega)

/-- The paths of `lightCaches`, with a bridge that answers the first request only. -/
def failingCaches : CacheEnv :=
  { lightCaches with
    commands := fun n =>
      { lightCaches.commands n with
        httpHandler :=
          { (lightCaches.commands n).httpHandler with
            getJson := fun _ _ _ _ _ =>
              if n = 0 then .ok (.obj [("lights", .obj [("1", .obj [])])])
              else .error (.hueException "No answer") } } }

/-- The list of lights is fetched with the root and returned again a tick later; then a
refresh of it fails. -/
theorem never_staler_lights :
    let s := (CacheCall.refresh []).run failingCaches newCaches
    let t := (result (getValue failingCaches [0]) s).2
    (FetchedSince failingCaches s t ["lights"] (.obj [("1", .obj [])]) ∨
      (∀ n, s.readings ≤ n → n < t.readings →
        t.FetchedAfter failingCaches (failingCaches.clock n - 1000) ["lights"]
          (.obj [("1", .obj [])])) ∧
      (t.readings = s.readings →
        t.FetchedAfter failingCaches (durationMax - 1000 - 1) ["lights"]
          (.obj [("1", .obj [])]))) ∧
    s.Unchanged ((CacheCall.refresh [0]).run failingCaches s) := by
  intro s t
  have monotone : failingCaches.Nondecreasing := by
    intro m n le
    simp only [failingCaches, lightCaches]
    omega
  have reachable : (cacheSystem failingCaches).Reachable s :=
    .step (M := cacheSystem failingCaches) (.refresh [])
      (.init (newCaches_constructed _)) trivial
  obtain ⟨fresh, failed⟩ := never_staler failingCaches monotone lightCaches_positive reachable
  exact ⟨fresh [0] _ t (by decide) (Prod.ext rfl rfl), failed (.refresh [0]) (by decide) rfl⟩

end APICache

end Hueplusplus
