import Hueplusplus.APICache.Moves

/-!
# The two views of a cache

The constant `getValue` descends from the root's value along the paths of the caches. The
other one looks into the value of its base, and a base that is not the root fills its value
with what the caches on it have fetched themselves. So two levels below the root the views
come from different requests.
-/

namespace Hueplusplus

/-- The value under a sequence of keys. -/
def Json.follow (j : Json) : List String → Option Json
  | [] => some j
  | key :: keys => (j.find? key).bind fun member => member.follow keys

namespace Json

@[simp] theorem follow_singleton (j : Json) (key : String) : j.follow [key] = j.find? key := by
  simp [follow]

theorem follow_append_singleton (j : Json) (keys : List String) (key : String) :
    j.follow (keys ++ [key]) = (j.follow keys).bind fun member => member.find? key := by
  induction keys generalizing j with
  | nil => cases h : j.find? key <;> simp [follow, h]
  | cons first rest ih =>
      cases h : j.find? first <;> simp [follow, h, ih]

@[simp] theorem at'_eq_ok_iff {j member : Json} {key : String} :
    j.at' key = .ok member ↔ j.find? key = some member := by
  cases j with
  | obj members =>
      simp only [at', find?]
      cases AssocList.find? members key <;> simp
  | null | bool b | num q | str s | arr elems => simp [at', find?]

theorem find?_setMember {j stored member : Json} {key : String}
    (h : j.setMember key member = .ok stored) (other : String) :
    stored.find? other = if key = other then some member else j.find? other := by
  cases j with
  | null =>
      simp only [setMember, Except.ok.injEq] at h
      subst h
      simp [find?, AssocList.find?_cons]
  | obj members =>
      simp only [setMember, Except.ok.injEq] at h
      subst h
      exact AssocList.find?_insert key other member members
  | bool b | num q | str s | arr elems => simp [setMember] at h

end Json

namespace APICache

open Effect Caches

variable {env : CacheEnv}

@[simp] theorem follow_keys_singleton (j : Json) (i : ℕ) :
    j.follow (env.keys [i]) = j.find? (env.path [i]) := by
  simp [CacheEnv.keys]

/-- The constant view is the root's value at the keys of the cache, once there is one. -/
theorem constGetValue_eq_ok_iff {s : Caches} {id : CacheId} {value : Json} :
    constGetValue env s id = .ok value ↔
      (s.cache []).lastRefresh ≠ 0 ∧ (s.cache []).value.follow (env.keys id) = some value := by
  induction id generalizing value with
  | nil =>
      unfold constGetValue CacheEnv.keys
      split <;> simp_all [Json.follow]
  | cons i base ih =>
      simp only [constGetValue, Except.bind_eq_ok_iff, ih, CacheEnv.keys,
        Json.follow_append_singleton, Json.at'_eq_ok_iff, Option.bind_eq_some_iff]
      tauto

/-- What the root holds after these fetches, the latest first: its last reply, patched with
the later replies to the caches on it. -/
def rootValue (env : CacheEnv) : List Fetch → Json
  | [] => .null
  | f :: older =>
    match f.id with
    | [] => f.json
    | [i] =>
      match (rootValue env older).setMember (env.path [i]) f.json with
      | .ok value => value
      | .error _ => rootValue env older
    | _ => rootValue env older

/-- The latest reply for this path to a request of a cache on `base`. -/
def latestReply (env : CacheEnv) (base : CacheId) (path : String) : List Fetch → Option Json
  | [] => none
  | f :: older =>
    match f.id with
    | [] => latestReply env base path older
    | i :: b =>
      if b = base ∧ env.path (i :: b) = path then some f.json
      else latestReply env base path older

/-- Where the values of the caches come from. -/
structure Sources (env : CacheEnv) (s : Caches) : Prop where
  /-- As long as the root was never refreshed, nothing is known. -/
  unset : (s.cache []).lastRefresh = 0 → s.fetched = [] ∧ ∀ id, (s.cache id).lastRefresh = 0
  root : (s.cache []).value = rootValue env s.fetched
  storable : ∀ i base key json, ∃ value, (s.cache (i :: base)).value.setMember key json = .ok value
  below : ∀ i base key,
    (s.cache (i :: base)).value.find? key = latestReply env (i :: base) key s.fetched

theorem sources_constructed {s : Caches} (positive : ∀ n, 0 < env.clock n)
    (h : Constructed env s) : Sources env s := by
  have last : ∀ id, (s.cache id).lastRefresh = (s.cache []).lastRefresh := by
    intro id
    induction id with
    | nil => rfl
    | cons i base ih => rw [(h.below i base).2, ih]
  have storable : ∀ i base key json,
      ∃ value, (s.cache (i :: base)).value.setMember key json = .ok value := by
    intro i base key json
    rw [(h.below i base).1]
    exact ⟨_, rfl⟩
  rcases h.root with ⟨null, _, nothing⟩ | ⟨_, time, _, initial⟩
  · refine ⟨fun unset => ⟨nothing, fun id => (last id).trans unset⟩, ?_, storable, ?_⟩
    · rw [null, nothing]
      rfl
    · intro i base key
      rw [(h.below i base).1, nothing]
      rfl
  · refine ⟨fun unset => absurd (time.symm.trans unset) (positive 0).ne', ?_, storable, ?_⟩
    · rw [initial]
      rfl
    · intro i base key
      rw [(h.below i base).1, initial]
      rfl

/-- Once a cache has a time of refresh, the root has one. -/
theorem Sources.root_set {s : Caches} (h : Sources env s) {id : CacheId}
    (known : (s.cache id).lastRefresh ≠ 0) : (s.cache []).lastRefresh ≠ 0 :=
  fun unset => known ((h.unset unset).2 id)

theorem sources_checked {s : Caches} (h : Sources env s) (id : CacheId) :
    Sources env (s.checked id) := by
  refine ⟨fun unset => ?_, by simpa using h.root, by simpa using h.storable,
    by simpa using h.below⟩
  rw [checked_root_lastRefresh] at unset
  obtain ⟨nothing, zero⟩ := h.unset unset
  refine ⟨nothing, fun other => ?_⟩
  rw [checked_lastRefresh]
  split
  · cases id <;> simp [Caches.lastRefresh, zero]
  · exact zero other

theorem setMember_of_stored {j stored member : Json} {key : String}
    (h : j.setMember key member = .ok stored) (other : String) (json : Json) :
    ∃ value, stored.setMember other json = .ok value := by
  cases j <;> simp_all [Json.setMember] <;> subst h <;> simp

theorem sources_stored {s : Caches} (h : Sources env s) {i : ℕ} {base : CacheId}
    {json value : Json} (known : (s.cache base).lastRefresh ≠ 0)
    (stores : (s.cache base).value.setMember (env.path (i :: base)) json = .ok value) :
    Sources env ((s.arrived env (i :: base) json).store base value) := by
  have values : ∀ id, (((s.arrived env (i :: base) json).store base value).cache id).value =
      if id = base then value else (s.cache id).value := by
    intro id
    rw [store_cache, apply_ite APICache.value, arrived_value]
  refine ⟨fun unset => ?_, ?_, fun j other key json' => ?_, fun j other key => ?_⟩
  · rw [store_lastRefresh, arrived_root] at unset
    exact absurd unset (h.root_set known)
  · rw [values]
    cases base with
    | nil =>
        rw [h.root] at stores
        simp only [if_true]
        change value = match (rootValue env s.fetched).setMember (env.path [i]) json with
          | .ok value => value
          | .error _ => rootValue env s.fetched
        rw [stores]
    | cons k b => exact h.root
  · rw [values]
    split
    · exact setMember_of_stored stores key json'
    · exact h.storable j other key json'
  · rw [values]
    change _ = if base = j :: other ∧ env.path (i :: base) = key then some json
      else latestReply env (j :: other) key s.fetched
    by_cases same : j :: other = base
    · rw [if_pos same, Json.find?_setMember stores, ← h.below, same]
      simp only [true_and]
    · rw [if_neg same, if_neg fun both => same both.1.symm, h.below]

/-- A reply of which nothing is stored, since the root's value has no members. -/
theorem sources_dropped {s : Caches} (h : Sources env s) {i : ℕ} {base : CacheId} {json : Json}
    {e : Exception} (known : (s.cache base).lastRefresh ≠ 0)
    (stores : (s.cache base).value.setMember (env.path (i :: base)) json = .error e) :
    Sources env (s.arrived env (i :: base) json) := by
  cases base with
  | cons k b =>
      obtain ⟨value, ok⟩ := h.storable k b (env.path (i :: k :: b)) json
      rw [ok] at stores
      exact absurd stores (by simp)
  | nil =>
      refine ⟨fun unset => ?_, ?_, fun j other key json' => ?_, fun j other key => ?_⟩
      · rw [arrived_root] at unset
        exact absurd unset (h.root_set known)
      · rw [arrived_value]
        change _ = match (rootValue env s.fetched).setMember (env.path [i]) json with
          | .ok value => value
          | .error _ => rootValue env s.fetched
        rw [← h.root, stores]
      · rw [arrived_value]
        exact h.storable j other key json'
      · rw [arrived_value]
        exact h.below j other key

theorem sources_move {s t : Caches} (positive : ∀ n, 0 < env.clock n) (h : Sources env s)
    (move : Move env s t) : Sources env t := by
  cases move with
  | checked id => exact sources_checked h id
  | failed => exact ⟨h.unset, h.root, h.storable, h.below⟩
  | root json =>
      have other : ∀ i base, (((s.arrived env [] json).store [] json).cache (i :: base)).value =
          (s.cache (i :: base)).value := by
        intro i base
        rw [store_cache, if_neg (by simp), arrived_value]
      refine ⟨fun unset => ?_, ?_, fun i base => ?_, fun i base => ?_⟩
      · rw [store_lastRefresh, arrived_cache, if_pos rfl] at unset
        exact absurd unset (positive _).ne'
      · rw [store_cache, if_pos rfl]
        rfl
      · rw [other]
        exact h.storable i base
      · rw [other]
        exact h.below i base
  | stored known stores => exact sources_stored h known stores
  | dropped known stores => exact sources_dropped h known stores
  | duration id d =>
      refine ⟨fun unset => ?_, ?_, fun i base => ?_, fun i base => ?_⟩
      · rw [duration_lastRefresh] at unset
        obtain ⟨nothing, zero⟩ := h.unset unset
        exact ⟨nothing, fun other => (duration_lastRefresh d).trans (zero other)⟩
      · rw [duration_value]
        exact h.root
      · rw [duration_value]
        exact h.storable i base
      · rw [duration_value]
        exact h.below i base

theorem sources_invariant (positive : ∀ n, 0 < env.clock n) :
    (cacheSystem env).Invariant (Sources env) :=
  invariant_of_moves env (fun _ => sources_constructed positive) (sources_move positive)

/-- A cache that is neither the root nor on the root agrees if the replies to the root and
the caches on it add up to a value that has its own latest reply under its keys. -/
def Agreeing (env : CacheEnv) (s : Caches) : CacheId → Prop
  | [] | [_] => True
  | i :: j :: base =>
    (rootValue env s.fetched).follow (env.keys (i :: j :: base)) =
      latestReply env (j :: base) (env.path (i :: j :: base)) s.fetched

/-- What `getValue` returns is what `cachedValue` finds in the state it leaves. -/
theorem cachedValue_of_getValue {s t : Caches} {id : CacheId} {value : Json}
    (returned : Returns (getValue env id) s value t) : Returns (cachedValue env id) t value t := by
  have found : ∃ u, result (cachedValue env id) u = (.ok value, t) := by
    rw [Returns] at returned
    rw [result_getValue] at returned
    split at returned
    · split at returned
      · exact ⟨_, returned⟩
      · simp at returned
    · exact ⟨_, returned⟩
  obtain ⟨u, found⟩ := found
  have same := cachedValue_state env id u
  rw [found] at same
  subst same
  exact found

theorem returns_cachedValue_child {s t : Caches} {i : ℕ} {base : CacheId} {value : Json}
    (returned : Returns (cachedValue env (i :: base)) s value t) :
    (s.cache base).value.find? (env.path (i :: base)) = some value := by
  rw [Returns] at returned
  rw [result_cachedValue] at returned
  cases found : (s.cache base).value.find? (env.path (i :: base)) with
  | none => simp [found] at returned
  | some member =>
      simp only [found, Prod.mk.injEq, Except.ok.injEq] at returned
      rw [returned.1]

theorem root_set_of_getValue (positive : ∀ n, 0 < env.clock n) {s t : Caches} {value : Json}
    (returned : Returns (getValue env []) s value t) : (t.cache []).lastRefresh ≠ 0 := by
  rw [Returns] at returned
  rw [result_getValue] at returned
  split at returned
  · rw [result_refresh_root] at returned
    cases found : reply env (s.checked []) [] with
    | error e => simp [found] at returned
    | ok json =>
        simp only [found, result_cachedValue, Prod.mk.injEq] at returned
        rw [← returned.2, store_cache, if_pos rfl, arrived_cache, if_pos rfl]
        exact (positive _).ne'
  · rename_i fresh
    simp only [result_cachedValue, Prod.mk.injEq] at returned
    rw [← returned.2, checked_lastRefresh, if_pos rfl]
    exact lastRefresh_ne_zero (Bool.not_eq_true _ ▸ fresh)

/-- In every run, a value that `getValue` returns is the constant view right afterwards
exactly if the cache agrees: always for the root and the caches on it, and further below if
what was fetched above the cache last is what was fetched for the cache itself. -/
theorem views_agree_iff (env : CacheEnv) (positive : ∀ n, 0 < env.clock n) {s t : Caches}
    (reachable : (cacheSystem env).Reachable s) {id : CacheId} {value : Json}
    (returned : Returns (getValue env id) s value t) :
    constGetValue env t id = .ok value ↔ Agreeing env t id := by
  have sources : Sources env t := by
    have moves := moves_getValue env id s
    rw [returned] at moves
    exact holds_of_moves env (sources_move positive)
      ((sources_invariant positive).holds reachable) moves
  have cached := cachedValue_of_getValue returned
  rw [constGetValue_eq_ok_iff]
  match id with
  | [] =>
      rw [Returns, result_cachedValue, Prod.mk.injEq, Except.ok.injEq] at cached
      have set := root_set_of_getValue positive returned
      simpa [Agreeing, CacheEnv.keys, Json.follow, set] using cached.1
  | [i] =>
      have found := returns_cachedValue_child cached
      have set : (t.cache []).lastRefresh ≠ 0 := by
        intro unset
        rw [sources.root, (sources.unset unset).1] at found
        exact absurd found (by simp [rootValue, Json.find?])
      simp [Agreeing, CacheEnv.keys, set, found]
  | i :: j :: base =>
      have found := returns_cachedValue_child cached
      rw [sources.below] at found
      have set : (t.cache []).lastRefresh ≠ 0 := by
        intro unset
        rw [(sources.unset unset).1] at found
        exact absurd found (by simp [latestReply])
      rw [Agreeing, found, ← sources.root]
      exact and_iff_right set

/-- Paths of a bridge's root, its list of lights and one light, with a clock that ticks at
each reading, and a bridge on which the light is turned on after the first request. -/
def lightCaches : CacheEnv where
  path
    | [] => ""
    | [_] => "lights"
    | _ => "1"
  clock n := n + 1
  commands n :=
    { ip := "192.168.2.1", port := 80, username := "username"
      httpHandler :=
        { getJson := fun _ _ _ _ _ =>
            if n = 0 then .ok (.obj [("lights", .obj [("1", .obj [("on", .bool false)])])])
            else .ok (.obj [("on", .bool true)])
          putJson := fun _ _ _ _ _ => .ok .null
          postJson := fun _ _ _ _ _ => .ok .null
          deleteJson := fun _ _ _ _ _ => .ok .null } }

/-- The caches as they are constructed, with a refresh duration of 1000 ticks. -/
def newCaches : Caches := ⟨fun _ => ⟨1000, 0, .null⟩, 0, 0, [], []⟩

theorem newCaches_constructed (env : CacheEnv) : Constructed env newCaches :=
  ⟨rfl, fun _ _ => ⟨rfl, rfl⟩, .inl ⟨rfl, rfl, rfl⟩, rfl⟩

theorem lightCaches_positive (n : ℕ) : 0 < lightCaches.clock n := by
  simp only [lightCaches]
  omega

/-- The root is refreshed, then the light by itself. -/
def lightRefreshed : Caches :=
  (CacheCall.refresh [0, 0]).run lightCaches ((CacheCall.refresh []).run lightCaches newCaches)

theorem lightRefreshed_reachable : (cacheSystem lightCaches).Reachable lightRefreshed :=
  .step (M := cacheSystem lightCaches) (.refresh [0, 0])
    (.step (M := cacheSystem lightCaches) (.refresh []) (.init (newCaches_constructed _)) trivial)
    trivial

theorem views_agree_iff_lights :
    let t := (result (getValue lightCaches [0, 0]) lightRefreshed).2
    constGetValue lightCaches t [0, 0] = .ok (.obj [("on", .bool true)]) ↔
      Agreeing lightCaches t [0, 0] :=
  views_agree_iff lightCaches lightCaches_positive lightRefreshed_reachable (Prod.ext rfl rfl)

/-- Then `getValue` of the light has the new state, its constant view the old one. -/
theorem views_differ_light :
    ¬ ∀ (env : CacheEnv) (s t : Caches) (id : CacheId) (value : Json), (∀ n, 0 < env.clock n) →
      (cacheSystem env).Reachable s → Returns (getValue env id) s value t →
      constGetValue env t id = .ok value := by
  intro always
  let t := (result (getValue lightCaches [0, 0]) lightRefreshed).2
  have same := always lightCaches lightRefreshed t [0, 0] (.obj [("on", .bool true)])
    lightCaches_positive lightRefreshed_reachable (Prod.ext rfl rfl)
  have old : constGetValue lightCaches t [0, 0] = .ok (.obj [("on", .bool false)]) := rfl
  exact absurd (Except.ok.inj (old.symm.trans same)) (by decide)

end APICache

end Hueplusplus
