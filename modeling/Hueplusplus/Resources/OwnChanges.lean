import Hueplusplus.Resources.ListRuns

/-!
# Whether a list shows its own changes

`create` refreshes the cache of the list, `remove` leaves it as it is. So a created resource
exists in all runs that follow, and a removed one is gone exactly if the list has been
fetched in between, or has to be for the query.
-/

namespace Hueplusplus

open Effect APICache Caches

namespace ResourceList

section

variable (env : CacheEnv) (list : CacheId)

/-- What was fetched between two states. -/
def fetchedSince (s t : Caches) : List Fetch :=
  t.fetched.take (t.fetched.length - s.fetched.length)

/-- The caches after a query of the list. -/
def queried (s : Caches) : Caches := (result (getValue env list) s).2

/-- A query has to refresh the cache of the list, or of its base. -/
def Outdated (s : Caches) : Prop := s.staleAt list (env.clock s.readings) = true

/-- A query has to refresh the cache, and throws since that fails. -/
def RefreshFails (s : Caches) : Prop :=
  Outdated env list s ∧ ∃ e, (result (refresh env list) (s.checked list)).1 = .error e

/-- All replies with the list between two states agree on whether it has this key. -/
def Replies (key : String) (shown : Bool) (s t : Caches) : Prop :=
  ∀ f ∈ fetchedSince s t, Concerns list f → lists key (fetchedList env list f) = shown

variable {α ρ : Type} [IdType α] [Inhabited α] [DecidableEq α]

/-- `exists(id)` is true. -/
def Exists (reference : ListReference) (id : α) (s : Caches) : Prop :=
  (result (reference.existsResource env list id) s).1 = .ok true

/-- `exists(id)` is not true, and `get(id)` throws. -/
def Gone (factory : ResourceFactory α ρ) (reference : ListReference) (id : α) (s : Caches) :
    Prop :=
  ¬ Exists env list reference id s ∧
    ∃ e, (result (reference.getResource env list factory id) s).1 = .error e

end

theorem fetchedSince_eq {s t : Caches} {new : List Fetch} (log : t.fetched = new ++ s.fetched) :
    fetchedSince s t = new := by
  simp [fetchedSince, log]

section Queries

variable {env : CacheEnv} {list : CacheId}

/-- A query that throws at a refresh. -/
theorem result_getValue_fails {s : Caches} (fails : RefreshFails env list s) :
    ∃ e, (result (getValue env list) s).1 = .error e := by
  obtain ⟨outdated, e, refreshed⟩ := fails
  refine ⟨e, ?_⟩
  rw [(result_getValue env s list).trans (if_pos outdated)]
  cases ran : result (refresh env list) (s.checked list) with
  | mk outcome t =>
      rw [ran] at refreshed
      rw [show outcome = .error e from refreshed]

variable (placed : Placed env list)

include placed

/-- A refresh that returns has fetched the list or everything, and stored it. -/
theorem fetched_of_refresh {s t : Caches} (returned : Returns (refresh env list) s () t) :
    ∃ f, Concerns list f ∧ t.fetched = f :: s.fetched ∧
      cached env list t = fetchedList env list f := by
  have root {s : Caches} (returned : Returns (refresh env []) s () t) :
      ∃ f, Concerns list f ∧ t.fetched = f :: s.fetched ∧
        cached env list t = fetchedList env list f := by
    rw [Returns, result_refresh_root] at returned
    cases replied : reply env s [] with
    | error e => simp [replied] at returned
    | ok json =>
        obtain rfl : (s.arrived env [] json).store [] json = t := by simpa [replied] using returned
        exact ⟨⟨[], env.clock s.readings, json⟩, .inr rfl, rfl, cached_store_root _ _ json⟩
  cases placed with
  | alone => exact root returned
  | @onBase i =>
      rw [Returns, result_refresh_child] at returned
      split at returned
      · exact root (s := s.checked []) returned
      · cases replied : reply env (s.checked []) [i] with
        | error e => simp [replied] at returned
        | ok json =>
            cases stores : (s.cache []).value.setMember (env.path [i]) json with
            | error e => simp [replied, stores] at returned
            | ok value =>
                obtain rfl : ((s.checked []).arrived env [i] json).store [] value = t := by
                  simpa [replied, stores] using returned
                exact ⟨⟨[i], env.clock (s.checked []).readings, json⟩, .inl rfl, rfl,
                  cached_store_child stores _ _⟩

/-- The end of a query. -/
theorem result_cachedValue_cached (s : Caches) :
    result (cachedValue env list) s =
      match cached env list s with
      | some value => (.ok value, s)
      | none => (.error (.hueException "Child path not present in base cache"), s) := by
  rw [result_cachedValue]
  cases placed with
  | alone => rfl
  | @onBase i =>
      have same : (s.cache []).value.find? (env.path [i]) = cached env [i] s :=
        (follow_keys_singleton _ i).symm
      cases found : cached env [i] s with
      | none => simp only [same.trans found]
      | some value => simp only [same.trans found]

/-- The result of a query, if it does not throw at a refresh. -/
theorem result_getValue_cached {s : Caches} (answered : ¬ RefreshFails env list s) :
    result (getValue env list) s = result (cachedValue env list) (queried env list s) ∧
      (Outdated env list s → ∃ f, Concerns list f ∧ (queried env list s).fetched = f :: s.fetched) ∧
      (¬ Outdated env list s →
        cached env list (queried env list s) = cached env list s) := by
  by_cases outdated : Outdated env list s
  · have ran := (result_getValue env s list).trans (if_pos outdated)
    cases refreshed : result (refresh env list) (s.checked list) with
    | mk outcome t =>
        cases outcome with
        | error e =>
            refine absurd ⟨outdated, e, ?_⟩ answered
            rw [refreshed]
        | ok =>
            simp only [refreshed] at ran
            have same : queried env list s = t := by
              rw [queried, ran, cachedValue_state]
            obtain ⟨f, concerns, log, -⟩ := fetched_of_refresh placed refreshed
            rw [same]
            exact ⟨ran, fun _ => ⟨f, concerns, log⟩, absurd outdated⟩
  · have ran := (result_getValue env s list).trans (if_neg outdated)
    have same : queried env list s = s.checked list := by
      rw [queried, ran, cachedValue_state]
    rw [same]
    refine ⟨ran, fun h => absurd h outdated, fun _ => ?_⟩
    rw [cached, checked_value, cached]

variable {α ρ : Type} [IdType α]

theorem existsResource_iff (id : α) (s : Caches) :
    (result (existsResource env list id) s).1 = .ok true ↔ ¬ RefreshFails env list s ∧
      lists (maybeToString id) (cached env list (queried env list s)) = true := by
  rw [existsResource_eq, result_bind]
  by_cases fails : RefreshFails env list s
  · obtain ⟨e, failed⟩ := result_getValue_fails fails
    refine iff_of_false ?_ fun both => both.1 fails
    cases ran : result (getValue env list) s with
    | mk outcome t =>
        rw [ran] at failed
        rw [show outcome = .error e from failed]
        simp
  · rw [(result_getValue_cached placed fails).1, result_cachedValue_cached placed]
    cases cached env list (queried env list s) with
    | none => simp [lists]
    | some value => simp [lists, fails]

/-- If a query does not find the id, `get` throws. -/
theorem getResource_throws (factory : ResourceFactory α ρ) (id : α) (s : Caches)
    (hidden : ¬ (¬ RefreshFails env list s ∧
      lists (maybeToString id) (cached env list (queried env list s)) = true)) :
    ∃ e, (result (getResource env list factory id) s).1 = .error e := by
  rw [getResource_eq, result_bind]
  by_cases fails : RefreshFails env list s
  · obtain ⟨e, failed⟩ := result_getValue_fails fails
    refine ⟨e, ?_⟩
    cases ran : result (getValue env list) s with
    | mk outcome t =>
        rw [ran] at failed
        rw [show outcome = .error e from failed]
  · rw [(result_getValue_cached placed fails).1, result_cachedValue_cached placed]
    cases found : cached env list (queried env list s) with
    | none => exact ⟨_, rfl⟩
    | some value =>
        have absent : value.find? (maybeToString id) = none := by
          simpa [fails, found, lists, Json.count] using hidden
        simp only [absent]
        exact ⟨_, rfl⟩

end Queries

section Changes

variable {env : CacheEnv} {list : CacheId} {α ρ : Type} [IdType α]

/-- A query finds a key that is not in the replies exactly if it has nothing to refresh, and the
key is in the cached list. -/
theorem query_hides_iff (placed : Placed env list) {u : Caches} {key : String} {new : List Fetch}
    (tracks : Tracks env list u new (queried env list u))
    (replies : ∀ f ∈ new, Concerns list f → lists key (fetchedList env list f) = false) :
    ¬ (¬ RefreshFails env list u ∧ lists key (cached env list (queried env list u)) = true) ↔
      Outdated env list u ∨ lists key (cached env list u) = false := by
  by_cases fails : RefreshFails env list u
  · exact iff_of_true (fun found => found.1 fails) (.inl fails.1)
  · obtain ⟨-, fetches, keeps⟩ := result_getValue_cached placed fails
    rw [and_iff_right fails, Bool.not_eq_true]
    by_cases outdated : Outdated env list u
    · obtain ⟨f, concerns, log⟩ := fetches outdated
      have fetched : f ∈ new := by
        have same : new ++ u.fetched = [f] ++ u.fetched := tracks.log.symm.trans log
        rw [List.append_cancel_right same]
        exact List.mem_singleton_self f
      exact iff_of_true ((tracks.hidden_iff replies).mpr (.inl ⟨f, fetched, concerns⟩))
        (.inl outdated)
    · rw [keeps outdated, or_iff_right outdated]

/-- `remove` leaves the cache of the list as it is. -/
theorem seen_of_remove {s t : Caches} {id : α} {success : Bool}
    (removed : Returns (removeResource env list id) s success t) :
    t.fetched = s.fetched ∧ cached env list t = cached env list s := by
  obtain ⟨response, requested, called, returned⟩ := returns_bind.mp removed
  obtain ⟨-, rfl⟩ : _ ∧ s.failed = requested := Prod.mk.inj called
  obtain ⟨-, rfl⟩ := returns_pure.mp returned
  exact ⟨rfl, rfl⟩

variable [Inhabited α]

/-- A created resource is in the list that `create` has fetched. -/
theorem fetched_of_create (placed : Placed env list) {s t : Caches} {params : Json} {id : α}
    (created : Returns (create env list params) s id t) (other : id ≠ default) :
    ∃ f, Concerns list f ∧ t.fetched = f :: s.fetched ∧
      cached env list t = fetchedList env list f := by
  rw [create, ListCache.create, returns_bind] at created
  obtain ⟨response, posted, requested, created⟩ := created
  have log : posted.fetched = s.fetched := by
    obtain ⟨-, rfl⟩ : _ ∧ s.failed = posted := Prod.mk.inj requested
    rfl
  split at created
  · obtain ⟨_, refreshed, returned, converted⟩ := returns_bind.mp created
    obtain ⟨-, rfl⟩ := returns_ofExcept.mp converted
    rw [← log]
    exact fetched_of_refresh placed returned
  · obtain ⟨same, -⟩ := returns_pure.mp created
    exact absurd same.symm other

variable [DecidableEq α]

/-- All overloads of `exists` query the list, except for group 0. -/
theorem exists_iff (placed : Placed env list) (reference : ListReference) (id : α) (s : Caches) :
    Exists env list reference id s ↔ (reference = .groups ∧ id = default) ∨
      (¬ RefreshFails env list s ∧
        lists (maybeToString id) (cached env list (queried env list s)) = true) := by
  have queries := existsResource_iff placed id s
  cases reference with
  | list => rw [Exists, ListReference.existsResource, queries]; simp
  | constList =>
      rw [Exists, ListReference.existsResource, constExistsResource_eq, queries]
      simp
  | groups =>
      rw [Exists, ListReference.existsResource, GroupResourceList.existsGroup_eq, result_ite]
      by_cases all : id = default
      · simp [all]
      · rw [if_neg all, queries]
        simp [all]

theorem get_throws (placed : Placed env list) (factory : ResourceFactory α ρ)
    (reference : ListReference) {id : α} (other : reference = .groups → id ≠ default) {s : Caches}
    (hidden : ¬ (¬ RefreshFails env list s ∧
      lists (maybeToString id) (cached env list (queried env list s)) = true)) :
    ∃ e, (result (reference.getResource env list factory id) s).1 = .error e := by
  have throws := getResource_throws placed factory id s hidden
  cases reference with
  | list => exact throws
  | constList => exact throws
  | groups =>
      rw [ListReference.getResource, GroupResourceList.getGroup_of_ne env list factory (other rfl)]
      exact throws

/-- Given replies that do not have the id, it is gone exactly if the query refreshes the list, or
if it is not in the cached one. -/
theorem gone_iff (placed : Placed env list) (factory : ResourceFactory α ρ) {u : Caches}
    (reference : ListReference) (id : α) {new : List Fetch}
    (tracks : Tracks env list u new (queried env list u))
    (replies : ∀ f ∈ new, Concerns list f →
      lists (maybeToString id) (fetchedList env list f) = false) :
    Gone env list factory reference id u ↔ (reference = .groups → id ≠ default) ∧
      (Outdated env list u ∨ lists (maybeToString id) (cached env list u) = false) := by
  have hides := query_hides_iff placed tracks replies
  rw [Gone, exists_iff placed, not_or, not_and, hides]
  refine and_iff_left_of_imp fun ⟨other, hidden⟩ => ?_
  exact get_throws placed factory reference other (hides.mpr hidden)

/-- Calls after `create` leave the resource in the cached list, if all replies have it. -/
theorem exists_of_create (ticks : ∀ n, env.clock n ≠ 0) (placed : Placed env list)
    (factory : ResourceFactory α ρ) {s t : Caches} (reference : ListReference) {id : α}
    {calls : List (ListCall α)}
    (fits : ∀ call ∈ calls, call.Fits list) {params : Json}
    (created : Returns (create env list params) s id t) (other : id ≠ default)
    (replies : Replies env list (maybeToString id) true s
      (queried env list ((listSystem env list factory).run t calls))) :
    Exists env list reference id ((listSystem env list factory).run t calls) ∨
      RefreshFails env list ((listSystem env list factory).run t calls) := by
  obtain ⟨f, concerns, log, value⟩ := fetched_of_create placed created other
  obtain ⟨between, tracks⟩ := reaches_run factory ticks placed calls fits t
  generalize (listSystem env list factory).run t calls = u at replies tracks ⊢
  obtain ⟨new, query⟩ : Reaches env list u (queried env list u) := within_getValue ticks placed u
  have all : fetchedSince s (queried env list u) = (new ++ between) ++ [f] := by
    apply fetchedSince_eq
    rw [(tracks.trans query).log, log, List.append_assoc (new ++ between)]
    rfl
  rw [Replies, all, List.forall_mem_append, List.forall_mem_append] at replies
  obtain ⟨⟨queryReplies, betweenReplies⟩, ownReply⟩ := replies
  have listed : lists (maybeToString id) (cached env list t) = true := by
    rw [value]
    exact ownReply f (by simp) concerns
  have kept := tracks.shown betweenReplies listed
  by_cases fails : RefreshFails env list u
  · exact .inr fails
  · exact .inl ((exists_iff placed reference id u).mpr
      (.inr ⟨fails, query.shown queryReplies kept⟩))

/-- Calls after `remove` hide the resource by a fetch, if no reply has it. -/
theorem gone_of_remove_iff (ticks : ∀ n, env.clock n ≠ 0) (placed : Placed env list)
    (factory : ResourceFactory α ρ) {s t : Caches} (reference : ListReference) {id : α}
    {calls : List (ListCall α)} (fits : ∀ call ∈ calls, call.Fits list)
    (removed : Returns (removeResource env list id) s true t)
    (replies : Replies env list (maybeToString id) false t
      (queried env list ((listSystem env list factory).run t calls))) :
    Gone env list factory reference id ((listSystem env list factory).run t calls) ↔
      (reference = .groups → id ≠ default) ∧
        (Outdated env list ((listSystem env list factory).run t calls) ∨
          (∃ f ∈ fetchedSince s ((listSystem env list factory).run t calls), Concerns list f) ∨
          lists (maybeToString id) (cached env list s) = false) := by
  obtain ⟨log, same⟩ := seen_of_remove removed
  obtain ⟨between, tracks⟩ := reaches_run factory ticks placed calls fits t
  generalize (listSystem env list factory).run t calls = u at replies tracks ⊢
  obtain ⟨new, query⟩ : Reaches env list u (queried env list u) := within_getValue ticks placed u
  rw [Replies, fetchedSince_eq (tracks.trans query).log, List.forall_mem_append] at replies
  rw [gone_iff placed factory reference id query replies.1,
    fetchedSince_eq (tracks.log.trans (by rw [log])), ← same, tracks.hidden_iff replies.2]

/-- In every run, a resource that `create` returned exists from then on, unless a query throws at
its refresh. One that `remove` removed is gone exactly if a query has to refresh the list, or if
the list has been fetched since, or did not have the resource when it was removed. Group 0 is
never gone. -/
theorem own_changes_iff (ticks : ∀ n, env.clock n ≠ 0) (placed : Placed env list)
    (factory : ResourceFactory α ρ) (s t : Caches) (reference : ListReference) (id : α)
    (calls : List (ListCall α)) (fits : ∀ call ∈ calls, call.Fits list) :
    let u := (listSystem env list factory).run t calls
    let key := maybeToString id
    (∀ params, Returns (create env list params) s id t → id ≠ default →
      Replies env list key true s (queried env list u) →
        Exists env list reference id u ∨ RefreshFails env list u) ∧
      (Returns (removeResource env list id) s true t →
        Replies env list key false t (queried env list u) →
          (Gone env list factory reference id u ↔ (reference = .groups → id ≠ default) ∧
            (Outdated env list u ∨ (∃ f ∈ fetchedSince s u, Concerns list f) ∨
              lists key (cached env list s) = false))) := by
  intro u key
  constructor
  · intro params created other replies
    exact exists_of_create ticks placed factory reference fits created other replies
  · intro removed replies
    exact gone_of_remove_iff ticks placed factory reference fits removed replies

end Changes

/-- The scenes of a bridge that deletes the scene it has. -/
def sceneCaches : CacheEnv where
  path id := if id = [3] then "scenes" else ""
  clock n := n + 1
  commands _ :=
    { ip := "192.168.2.1", port := 80, username := "username"
      httpHandler :=
        { getJson := fun _ _ _ _ _ =>
            .ok (.obj [("scenes", .obj [("ab", .obj [("name", .str "Sunset")])])])
          putJson := fun _ _ _ _ _ => .ok .null
          postJson := fun _ _ _ _ _ => .ok .null
          deleteJson := fun _ _ _ _ _ =>
            .ok (.arr [.obj [("success", .str "/scenes/ab deleted")]]) } }

def sceneFactory : ResourceFactory String Json where
  construct _ state := pure state
  keeps _ _ _ := ⟨rfl, rfl⟩

theorem sceneCaches_placed : Placed sceneCaches [3] := placed_of_path rfl (by decide)

/-- After the list has been fetched, and the scene removed. -/
def listed : Caches :=
  (ListCall.existsResource .list "ab").run sceneCaches [3] sceneFactory newCaches

def removed : Caches := (ListCall.removeResource "ab").run sceneCaches [3] sceneFactory listed

theorem listed_reachable : (listSystem sceneCaches [3] sceneFactory).Reachable listed :=
  .step (M := listSystem sceneCaches [3] sceneFactory) (.existsResource .list "ab")
    (.init (newCaches_constructed _)) trivial

theorem removed_acknowledged : Returns (removeResource sceneCaches [3] "ab") listed true removed :=
  Prod.ext rfl rfl

/-- The query after the removal makes no request. -/
theorem removed_replies :
    Replies sceneCaches [3] "ab" false removed (queried sceneCaches [3] removed) := by
  have nothing : fetchedSince removed (queried sceneCaches [3] removed) = [] := by rfl
  rw [Replies, nothing]
  simp

theorem own_changes_iff_scenes :
    Gone sceneCaches [3] sceneFactory .list "ab" removed ↔
      (ListReference.list = .groups → "ab" ≠ default) ∧
        (Outdated sceneCaches [3] removed ∨
          (∃ f ∈ fetchedSince listed removed, Concerns [3] f) ∨
          lists "ab" (cached sceneCaches [3] listed) = false) :=
  (own_changes_iff (fun n => by simp only [sceneCaches]; omega) sceneCaches_placed sceneFactory
    listed removed .list "ab" [] (by simp)).2 removed_acknowledged removed_replies

/-- The list is fetched, and the scene is removed, which the bridge acknowledges: it still
exists. -/
theorem removed_still_listed :
    (listSystem sceneCaches [3] sceneFactory).Reachable listed ∧
      Returns (removeResource sceneCaches [3] "ab") listed true removed ∧
      Replies sceneCaches [3] "ab" false removed (queried sceneCaches [3] removed) ∧
      Exists sceneCaches [3] .list "ab" removed ∧
      ¬ Gone sceneCaches [3] sceneFactory .list "ab" removed := by
  have still : Exists sceneCaches [3] .list "ab" removed := by rfl
  exact ⟨listed_reachable, removed_acknowledged, removed_replies, still,
    fun gone => gone.1 still⟩

end ResourceList

end Hueplusplus
