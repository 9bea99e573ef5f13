import Hueplusplus.Bridge.Address
import Hueplusplus.Resources.List

/-!
# Whether every group that exists can be used

A group is constructed from its entry in the list, and requests its state at once if that is
empty. Group 0 has no entry. What its construction is given instead is not the empty state
but an array, so the new cache takes it for the state of the group until it is outdated.
-/

namespace Hueplusplus

open Effect

/-- The path of a group. -/
def groupPath (id : ℤ) : String := "/" ++ Bridge.Part.groups.entry ++ "/" ++ maybeToString id

/-- The list has the group as an object, unless it is group 0, which is in no list. -/
def HasGroup (id : ℤ) (list : Json) : Prop :=
  id ≠ 0 → ∃ members, list.find? (maybeToString id) = some (.obj members)

/-- Every GET is answered with the group, by itself, in the list or in the whole state. -/
structure HueCommandAPI.AnswersGroup (commands : HueCommandAPI) (id : ℤ) : Prop where
  group : ∀ n, ∃ members,
    (commands.after n).getRequest (groupPath id) (.obj []) = .ok (.obj members)
  list : ∀ n, ∃ list, (commands.after n).getRequest "/groups" (.obj []) = .ok list ∧
    HasGroup id list
  state : ∀ n, ∃ state list, (commands.after n).getRequest "" (.obj []) = .ok state ∧
    state.find? Bridge.Part.groups.entry = some list ∧ HasGroup id list

namespace Bridge

variable (clock : ℕ → ℤ) {b : Bridge}

/-- The last call fetched this from a path of the bridge. -/
def Fetched (commands : HueCommandAPI) (path : String) (json : Json) (b final : Bridge) : Prop :=
  ∃ e new, final.exchanges = e :: (new ++ b.exchanges) ∧ e.verb = .get ∧
    e.uri = commands.combinedPath path ∧ e.reply = .ok json

/-- `get(id)` succeeds, and the state of the group is an object, either that in the list or one
fetched from the path of the group. -/
def Usable (b : Bridge) (id : ℤ) : Prop :=
  ∃ cache members final,
    Returns (getGroup clock id) b ⟨id, .own (b.commands []) (groupPath id) cache⟩ final ∧
      cache.value = .obj members ∧
      ((∃ list t, Returns (getCacheValue clock Part.groups.stateCache) b list t ∧
          list.find? (maybeToString id) = some (.obj members)) ∨
        Fetched (b.commands []) (groupPath id) (.obj members) b final)

/-- A request that returns has made a call whose reply is the result. -/
theorem fetched_of_request {commands : HueCommandAPI} {path : String} {body json : Json}
    {t : Bridge} (returned : Returns (request commands .get path body) b json t) :
    Fetched commands path json b t := by
  rw [request, returns_bind] at returned
  obtain ⟨response, t', called, handled⟩ := returned
  obtain ⟨accepted, rfl⟩ := returns_ofExcept.mp handled
  obtain rfl := HueCommandAPI.handleError_eq_ok accepted
  let first := b.call commands.httpHandler .get (commands.combinedPath path) body commands.ip
    commands.port
  let between : Bridge := { b with exchanges := first :: b.exchanges }
  let second := between.call commands.httpHandler .get (commands.combinedPath path) body
    commands.ip commands.port
  have once : result (http commands.httpHandler .get (commands.combinedPath path) body commands.ip
      commands.port) b = (first.reply, between) := rfl
  have again : result (http commands.httpHandler .get (commands.combinedPath path) body
      commands.ip commands.port) between =
      (second.reply, { between with exchanges := second :: between.exchanges }) := rfl
  rw [Returns, runWithTimeout, result_tryCatch, once] at called
  cases replied : first.reply with
  | ok value =>
      simp only [replied, Prod.mk.injEq, Except.ok.injEq] at called
      obtain ⟨rfl, rfl⟩ := called
      exact ⟨first, [], rfl, rfl, rfl, replied⟩
  | error e =>
      cases e with
      | systemError code =>
          simp only [replied, result_ite, again] at called
          split at called
          · obtain ⟨accepted, rfl⟩ := Prod.mk.inj called
            exact ⟨second, [first], rfl, rfl, rfl, accepted⟩
          · simp at called
      | _ => simp [replied] at called

open APICache Caches in
/-- A refresh of the list of groups returns, and stores one that has the group. -/
theorem refresh_groups (env : CacheEnv) (s : Caches) {id : ℤ} {members : List (String × Json)}
    (entry : env.path Part.groups.stateCache = Part.groups.entry)
    (value : (s.cache []).value = .obj members)
    (root : ∃ state list, reply env s [] = .ok state ∧
      state.find? Part.groups.entry = some list ∧ HasGroup id list)
    (child : ∃ list, reply env s Part.groups.stateCache = .ok list ∧ HasGroup id list) :
    ∃ t list, result (APICache.refresh env Part.groups.stateCache) s = (.ok (), t) ∧
      (t.cache []).value.find? Part.groups.entry = some list ∧ HasGroup id list := by
  have ran := result_refresh_child env s 1 []
  by_cases stale : s.staleAt [] (env.clock s.readings) = true
  · obtain ⟨state, list, replied, found, has⟩ := root
    have same : reply env (s.checked []) [] = reply env s [] := rfl
    have whole := result_refresh_root env (s.checked [])
    rw [same, replied] at whole
    refine ⟨_, list, (ran.trans (if_pos stale)).trans whole, ?_, has⟩
    rw [store_cache, if_pos rfl]
    exact found
  · obtain ⟨list, replied, has⟩ := child
    have same : reply env (s.checked []) [1] = reply env s [1] := rfl
    rw [if_neg stale, same, show reply env s [1] = .ok list from replied, value] at ran
    refine ⟨_, list, ran, ?_, has⟩
    have stores : (Json.obj members).setMember (env.path [1]) list =
        .ok (.obj (AssocList.insert (env.path [1]) list members)) := rfl
    rw [store_cache, if_pos rfl, Json.find?_setMember stores]
    exact if_pos entry

open APICache Caches in
/-- A query of the cached list returns, with a list that has the group, if the cached one has it
or is refreshed. -/
theorem returns_groups (uniform : b.Uniform) {id : ℤ} (answers : (b.commands []).AnswersGroup id)
    {list : Json}
    (has : b.caches.staleAt Part.groups.stateCache (clock b.caches.readings) = false →
      HasGroup id list)
    (cached : constGetValue (b.cacheEnv clock) b.caches Part.groups.stateCache = .ok list) :
    ∃ list' caches new, Returns (getCacheValue clock Part.groups.stateCache) b list'
        { b with caches, exchanges := new ++ b.exchanges } ∧ HasGroup id list' ∧
      (caches.cache Part.groups.stateCache).refreshDuration =
        (b.caches.cache Part.groups.stateCache).refreshDuration := by
  let env := b.cacheEnv clock
  obtain ⟨-, follows⟩ := constGetValue_eq_ok_iff.mp cached
  have member : (b.caches.cache []).value.follow (env.keys [1]) =
      (b.caches.cache []).value.find? (env.path [1]) := follow_keys_singleton _ 1
  have found : (b.caches.cache []).value.find? Part.groups.entry = some list :=
    member.symm.trans follows
  obtain ⟨members, value⟩ : ∃ members, (b.caches.cache []).value = .obj members := by
    cases object : (b.caches.cache []).value with
    | obj members => exact ⟨members, rfl⟩
    | null | bool | num | str | arr => simp [object, Json.find?] at found
  have ends {t : Caches} {list : Json}
      (found : (t.cache []).value.find? Part.groups.entry = some list) :
      result (cachedValue env Part.groups.stateCache) t = (.ok list, t) := by
    have ran := result_cachedValue env t Part.groups.stateCache
    rw [ran]
    simp only [Part.stateCache]
    rw [show (t.cache []).value.find? (env.path [1]) = some list from found]
  obtain ⟨list', t, ran, has'⟩ : ∃ list' t,
      result (getValue env Part.groups.stateCache) b.caches = (.ok list', t) ∧
        HasGroup id list' := by
    rw [result_getValue]
    split
    · obtain ⟨t, list', refreshed, stored, has'⟩ := refresh_groups env
        (b.caches.checked Part.groups.stateCache) rfl (checked_value.trans value)
        (answers.state _) (answers.list _)
      rw [refreshed]
      exact ⟨list', t, ends stored, has'⟩
    · rename_i fresh
      refine ⟨list, _, ends ?_, has (Bool.eq_false_iff.mpr fresh)⟩
      rw [checked_value]
      exact found
  obtain ⟨new, -, -, mirrors⟩ := mirrors_getCacheValue clock uniform Part.groups.stateCache
  have durations := getValue_refreshDuration env Part.groups.stateCache Part.groups.stateCache
    b.caches
  rw [ran] at durations
  rw [show result (getValue (b.cacheEnv clock) Part.groups.stateCache) b.caches = (.ok list', t)
    from ran] at mirrors
  exact ⟨list', t, new, mirrors, has', durations⟩

/-- A cache of its own requests its value if it is outdated, and keeps it otherwise. -/
theorem returns_getOwnValue {commands : HueCommandAPI} {path : String}
    (answers : ∃ members,
      (commands.after b.exchanges.length).getRequest path (.obj []) = .ok (.obj members))
    (cache : APICache) :
    ∃ lastRefresh value final, Returns (getOwnValue clock commands path cache) b
        ⟨cache.refreshDuration, lastRefresh, value⟩ final ∧
      if outdatedOwn cache (clock b.caches.readings) then
        ∃ members, value = .obj members ∧ Fetched commands path (.obj members) b final
      else value = cache.value := by
  obtain ⟨caches, checked⟩ := result_needsRefreshOwn clock cache (b := b)
  unfold Returns
  rw [getOwnValue, result_bind, checked]
  cases outdatedOwn cache (clock b.caches.readings) with
  | false => exact ⟨cache.lastRefresh, cache.value, { b with caches }, rfl, rfl⟩
  | true =>
      obtain ⟨members, answer⟩ := answers
      obtain ⟨new, -, -, ran⟩ := result_request commands .get path (.obj []) { b with caches }
      let asked : Bridge := { b with caches, exchanges := new ++ b.exchanges }
      let final : Bridge :=
        { asked with caches := { caches with readings := caches.readings + 1 } }
      have requested : Returns (request commands .get path (.obj [])) { b with caches }
          (.obj members) asked := ran.trans (congrArg (·, asked) answer)
      refine ⟨clock caches.readings, .obj members, final, ?_, members, rfl, ?_⟩
      · change result (refreshOwn clock commands path cache) { b with caches } = _
        rw [refreshOwn, result_bind, requested]
        rfl
      · obtain ⟨e, earlier, log, call⟩ := fetched_of_request requested
        exact ⟨e, earlier, log, call⟩

/-- A new group has the state it is constructed with, unless that is outdated at once. -/
theorem returns_construct (uniform : b.Uniform) (own : b.sharedState = false) {id : ℤ}
    (answers : (b.commands []).AnswersGroup id) {state : Json} (known : state ≠ .null) :
    ∃ cache final, Returns (construct clock .groups id state) b
        ⟨id, .own (b.commands []) (groupPath id) cache⟩ final ∧
      if b.fetches clock .groups state then
        ∃ members, cache.value = .obj members ∧
          Fetched (b.commands []) (groupPath id) (.obj members) b final
      else cache.value = state := by
  obtain ⟨caches, later, dated⟩ := result_initialRefresh clock state (b := b)
  let cache := b.newCache clock .groups state
  have fetches : b.fetches clock .groups state = outdatedOwn cache (clock caches.readings) := by
    simp [fetches, own, later known, cache]
  have commands : b.resourceCommands .groups = b.commands [] := uniform _
  obtain ⟨lastRefresh, value, final, returned, fetched⟩ :=
    returns_getOwnValue clock (b := { b with caches }) (answers.group _) cache
  refine ⟨⟨cache.refreshDuration, lastRefresh, value⟩, final, ?_, by rw [fetches]; exact fetched⟩
  simp only [construct]
  refine returns_bind.mpr ⟨_, final, ?_, returns_pure.mpr ⟨rfl, rfl⟩⟩
  rw [resourceState, returns_bind]
  refine ⟨b, b, returns_get.mpr ⟨rfl, rfl⟩, ?_⟩
  simp only
  rw [if_neg (by simp [own]), returns_bind, commands]
  refine ⟨_, _, dated, ?_⟩
  exact returns_bind.mpr ⟨_, _, returned, returns_pure.mpr ⟨rfl, rfl⟩⟩

/-- A new cache with a non-null value is outdated at once, when the clock shows these times. -/
def OutdatedAtOnce (refreshDuration first second : ℤ) : Prop :=
  first = 0 ∨ refreshDuration < 0 ∨
    (durationMax - refreshDuration > first ∧ second ≥ first + refreshDuration)

theorem fetches_groups_iff (own : b.sharedState = false) {state : Json} (known : state ≠ .null) :
    b.fetches clock .groups state = true ↔
      OutdatedAtOnce (b.caches.cache Part.groups.stateCache).refreshDuration
        (clock b.caches.readings) (clock (b.caches.readings + 1)) := by
  simp [fetches, own, outdatedOwn, newCache, known, OutdatedAtOnce, resourceDuration, or_assoc]

/-- What exists by a query that does not refresh is in the cached list. -/
theorem hasGroup_of_exists {env : CacheEnv} {s : Caches} {id : ℤ} {list : Json}
    (cached : APICache.constGetValue env s Part.groups.stateCache = .ok list)
    (entries : ∀ key value, list.find? key = some value → ∃ members, value = .obj members)
    (existing : (result (GroupResourceList.existsGroup env Part.groups.stateCache id) s).1 =
      .ok true)
    (fresh : s.staleAt Part.groups.stateCache (env.clock s.readings) = false) :
    HasGroup id list := by
  intro other
  have found : (s.cache []).value.find? (env.path Part.groups.stateCache) = some list :=
    (APICache.follow_keys_singleton _ 1).symm.trans (APICache.constGetValue_eq_ok_iff.mp cached).2
  have query : result (APICache.getValue env Part.groups.stateCache) s =
      (.ok list, s.checked Part.groups.stateCache) := by
    have value := APICache.result_cachedValue env (s.checked Part.groups.stateCache)
      Part.groups.stateCache
    simp only [Part.stateCache] at value found fresh ⊢
    rw [Caches.checked_value, found] at value
    rw [APICache.result_getValue, show s.staleAt [1] (env.clock s.readings) = false from fresh,
      if_neg Bool.false_ne_true]
    exact value
  have counted : list.count (maybeToString id) = true := by
    rw [GroupResourceList.existsGroup_eq, if_neg (show id ≠ default from other),
      ResourceList.existsResource_eq, result_bind, query] at existing
    exact Except.ok.inj existing
  obtain ⟨value, found⟩ := Option.isSome_iff_exists.mp counted
  obtain ⟨members, rfl⟩ := entries _ value found
  exact ⟨members, found⟩

/-- What `get` constructs the group with: its entry in the list, or an array for group 0. -/
theorem returns_getGroup {id : ℤ} {list state : Json} {queried final : Bridge}
    {resource : Resource ℤ}
    (query : Returns (getCacheValue clock Part.groups.stateCache) b list queried)
    (given : if id = 0 then state = .arr [.null] else list.find? (maybeToString id) = some state)
    (made : Returns (construct clock .groups id state) queried resource final) :
    Returns (getGroup clock id) b resource final := by
  rw [getGroup_eq, returns_bind]
  refine ⟨list, queried, query, ?_⟩
  by_cases all : id = 0
  · rw [if_pos all] at given
    rw [if_pos all, ← given]
    exact made
  · rw [if_neg all] at given
    rw [if_neg all, given]
    exact made

theorem Fetched.since {commands : HueCommandAPI} {path : String} {json : Json}
    {between final : Bridge} {new : List Exchange} (log : between.exchanges = new ++ b.exchanges)
    (fetched : Fetched commands path json between final) : Fetched commands path json b final := by
  obtain ⟨e, later, log', call⟩ := fetched
  exact ⟨e, later ++ new, by rw [log', log, List.append_assoc], call⟩

/-- Every group in the cached list, and group 0, can be used after `get`, exactly if it is not
group 0, or if the clock shows times at its construction that outdate the new cache at once. -/
theorem group_usable_iff (uniform : b.Uniform) (own : b.sharedState = false) {id : ℤ}
    (answers : (b.commands []).AnswersGroup id) {list : Json}
    (cached : APICache.constGetValue (b.cacheEnv clock) b.caches Part.groups.stateCache = .ok list)
    (entries : ∀ key value, list.find? key = some value → ∃ members, value = .obj members)
    (existing : (result (GroupResourceList.existsGroup (b.cacheEnv clock) Part.groups.stateCache
      id) b.caches).1 = .ok true) :
    let n := (result (getCacheValue clock Part.groups.stateCache) b).2.caches.readings
    b.Usable clock id ↔ id ≠ 0 ∨
      OutdatedAtOnce (b.caches.cache Part.groups.stateCache).refreshDuration (clock n)
        (clock (n + 1)) := by
  intro n
  have has := hasGroup_of_exists cached entries existing
  obtain ⟨list', caches, new, query, has', duration⟩ :=
    returns_groups clock uniform answers has cached
  let queried : Bridge := { b with caches, exchanges := new ++ b.exchanges }
  have readings : n = queried.caches.readings := by
    change (result (getCacheValue clock Part.groups.stateCache) b).2.caches.readings = _
    rw [query]
  rw [readings, ← duration]
  by_cases all : id = 0
  · have known : Json.arr [.null] ≠ .null := by simp
    obtain ⟨cache, final, made, value⟩ :=
      returns_construct clock (b := queried) uniform own answers known
    have returned := returns_getGroup clock query (by rw [if_pos all]) made
    rw [or_iff_right (not_not_intro all), ← fetches_groups_iff clock (b := queried) own known]
    split at value
    · rename_i outdated
      obtain ⟨members, object, fetched⟩ := value
      exact iff_of_true
        ⟨cache, members, final, returned, object, .inr (fetched.since rfl)⟩ outdated
    · rename_i fresh
      refine iff_of_false ?_ fresh
      rintro ⟨cache', members, final', returned', object, -⟩
      have same := (Prod.mk.inj (returned.symm.trans returned')).1
      simp only [Except.ok.injEq, Resource.mk.injEq, ResourceState.own.injEq, true_and] at same
      rw [← same.2, value] at object
      exact absurd object (by simp)
  · obtain ⟨members, found⟩ := has' all
    have known : Json.obj members ≠ .null := by simp
    obtain ⟨cache, final, made, value⟩ :=
      returns_construct clock (b := queried) uniform own answers known
    have returned := returns_getGroup clock query (by rw [if_neg all]; exact found) made
    refine iff_of_true ?_ (.inl all)
    split at value
    · obtain ⟨members, object, fetched⟩ := value
      exact ⟨cache, members, final, returned, object, .inr (fetched.since rfl)⟩
    · exact ⟨cache, members, final, returned, value, .inl ⟨list', queried, query, found⟩⟩

/-- Every GET is answered with a list of one group, which also stands for the whole state. -/
def groupHandler : IHttpHandler where
  getJson _ _ _ _ _ :=
    .ok (.obj [("1", .obj [("name", .str "Kitchen")]),
      ("groups", .obj [("1", .obj [("name", .str "Kitchen")])])])
  putJson _ _ _ _ _ := .ok .null
  postJson _ _ _ _ _ := .ok .null
  deleteJson _ _ _ _ _ := .ok .null

/-- A bridge that does not share state, with groups that are outdated after 10 s, after a query
of its list of groups. -/
def groupBridge : Bridge :=
  (result (getCacheValue (fun n => n + 1) Part.groups.stateCache)
    (Bridge.new "192.168.2.1" 80 "user" groupHandler "" 10000000000 false)).2

theorem groupBridge_uniform : groupBridge.Uniform := fun _ => rfl

theorem groupBridge_answers : (groupBridge.commands []).AnswersGroup 0 where
  group _ := ⟨_, rfl⟩
  list _ := ⟨_, rfl, fun other => absurd rfl other⟩
  state _ := ⟨_, _, rfl, rfl, fun other => absurd rfl other⟩

theorem groupBridge_cached :
    APICache.constGetValue (groupBridge.cacheEnv fun n => n + 1) groupBridge.caches
      Part.groups.stateCache = .ok (.obj [("1", .obj [("name", .str "Kitchen")])]) := rfl

theorem groupBridge_entries (key : String) (value : Json)
    (found : (Json.obj [("1", .obj [("name", .str "Kitchen")])]).find? key = some value) :
    ∃ members, value = .obj members := by
  simp only [Json.find?, AssocList.find?_cons] at found
  split at found
  · exact ⟨_, (Option.some.inj found).symm⟩
  · simp at found

theorem group_usable_iff_zero :
    groupBridge.Usable (fun n => n + 1) 0 ↔ (0 : ℤ) ≠ 0 ∨
      OutdatedAtOnce (groupBridge.caches.cache Part.groups.stateCache).refreshDuration 3 4 :=
  group_usable_iff (fun n => n + 1) groupBridge_uniform rfl groupBridge_answers
    groupBridge_cached groupBridge_entries rfl

/-- Group 0 exists, and the bridge would answer, but the state of the group is the array that
stands for the missing entry. -/
theorem group_zero_placeholder :
    (result (GroupResourceList.existsGroup (groupBridge.cacheEnv fun n => n + 1)
        Part.groups.stateCache (0 : ℤ)) groupBridge.caches).1 = .ok true ∧
      (groupBridge.commands []).AnswersGroup 0 ∧ groupBridge.sharedState = false ∧
      (∃ cache final, Returns (getGroup (fun n => n + 1) 0) groupBridge
        ⟨0, .own (groupBridge.commands []) (groupPath 0) cache⟩ final ∧
          cache.value = .arr [.null]) ∧
      ¬ groupBridge.Usable (fun n => n + 1) 0 := by
  have made : ∃ final, Returns (getGroup (fun n => n + 1) 0) groupBridge
      ⟨0, .own (groupBridge.commands []) (groupPath 0) ⟨10000000000, 3, .arr [.null]⟩⟩ final :=
    ⟨_, Prod.ext rfl rfl⟩
  obtain ⟨final, made⟩ := made
  refine ⟨rfl, groupBridge_answers, rfl, ⟨_, final, made, rfl⟩, ?_⟩
  rintro ⟨cache, members, final', made', object, -⟩
  have same := (Prod.mk.inj (made.symm.trans made')).1
  simp only [Except.ok.injEq, Resource.mk.injEq, ResourceState.own.injEq, true_and] at same
  rw [← same] at object
  exact absurd object (by simp)

end Bridge

end Hueplusplus
