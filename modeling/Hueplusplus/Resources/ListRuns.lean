import Hueplusplus.APICache.Views
import Hueplusplus.Resources.List

/-!
# Runs of the operations of a list

Of the caches, only the value of the root and its time of refresh matter to a list. A step
either stores a reply with the list there, or leaves the cached list alone. So what the list
contains after a run is decided by the replies that were fetched in it.
-/

namespace Hueplusplus

open Effect APICache Caches

namespace ResourceList

/-- The cache of a list is by itself, or on that of a bridge under a path of its own. -/
inductive Placed (env : CacheEnv) : CacheId → Prop where
  | alone : Placed env []
  | onBase {i : ℕ} (path : ∀ j, env.path [j] = env.path [i] → j = i) : Placed env [i]

/-- One path of a tree has a name. -/
theorem placed_of_path {env : CacheEnv} {i : ℕ} {name : String}
    (path : env.path = fun id => if id = [i] then name else "") (nonempty : name ≠ "") :
    Placed env [i] := by
  refine .onBase fun j same => ?_
  rw [path] at same
  by_contra other
  simp only [if_true, List.cons.injEq, other, false_and, if_false] at same
  exact nonempty same.symm

section

variable (env : CacheEnv) (list : CacheId)

/-- The list as it is cached. -/
def cached (s : Caches) : Option Json := (s.cache []).value.follow (env.keys list)

/-- The list, or everything, was requested. -/
def Concerns (f : Fetch) : Prop := f.id = list ∨ f.id = []

instance (f : Fetch) : Decidable (Concerns list f) := inferInstanceAs (Decidable (_ ∨ _))

/-- The list in the reply to such a request. -/
def fetchedList (f : Fetch) : Option Json :=
  if f.id = list then some f.json else f.json.follow (env.keys list)

/-- There is a list, with this key. -/
def lists (key : String) (value : Option Json) : Bool := value.any fun json => json.count key

/-- A step as it is seen from the list, with what was fetched. -/
inductive Seen (s : Caches) : List Fetch → Caches → Prop where
  | unchanged {new : List Fetch} {t : Caches} (log : t.fetched = new ++ s.fetched)
    (value : cached env list t = cached env list s)
    (time : (t.cache []).lastRefresh = (s.cache []).lastRefresh)
    -- a reply is not stored if the value of the base cannot have members
    (missed : ∀ f ∈ new, Concerns list f → cached env list s = none) : Seen s new t
  | fetched {f : Fetch} {t : Caches} (log : t.fetched = f :: s.fetched)
    (concerns : Concerns list f) (value : cached env list t = fetchedList env list f)
    (time : (t.cache []).lastRefresh ≠ 0) : Seen s [f] t

/-- Steps one after the other. -/
inductive Tracks (s : Caches) : List Fetch → Caches → Prop where
  | refl : Tracks s [] s
  | tail {new new' : List Fetch} {t u : Caches} : Tracks s new t → Seen env list t new' u →
    Tracks s (new' ++ new) u

/-- Some steps, whatever was fetched. -/
def Reaches (s t : Caches) : Prop := ∃ new, Tracks env list s new t

end

section Runs

variable {env : CacheEnv} {list : CacheId} {s t u : Caches} {new : List Fetch} {key : String}

theorem Tracks.log (tracks : Tracks env list s new t) : t.fetched = new ++ s.fetched := by
  induction tracks with
  | refl => rfl
  | tail _ last ih =>
      cases last with
      | unchanged log => rw [log, ih, List.append_assoc]
      | fetched log => rw [log, ih]; rfl

theorem Tracks.trans {new' : List Fetch} (first : Tracks env list s new t)
    (second : Tracks env list t new' u) : Tracks env list s (new' ++ new) u := by
  induction second with
  | refl => exact first
  | tail _ last ih =>
      rw [List.append_assoc]
      exact .tail ih last

theorem Reaches.refl (s : Caches) : Reaches env list s s := ⟨[], .refl⟩

theorem Reaches.trans (first : Reaches env list s t) (second : Reaches env list t u) :
    Reaches env list s u := by
  obtain ⟨new, first⟩ := first
  obtain ⟨new', second⟩ := second
  exact ⟨new' ++ new, first.trans second⟩

instance : IsPreorder Caches (Reaches env list) where
  refl := .refl
  trans _ _ _ := .trans

theorem Seen.reaches (seen : Seen env list s new t) : Reaches env list s t :=
  ⟨new ++ [], .tail .refl seen⟩

theorem Seen.same (log : t.fetched = s.fetched) (value : (t.cache []).value = (s.cache []).value)
    (time : (t.cache []).lastRefresh = (s.cache []).lastRefresh) : Seen env list s [] t := by
  refine .unchanged log ?_ time (by simp)
  rw [cached, cached, value]

/-- A reply of which nothing is stored in the list. -/
theorem Seen.aside (f : Fetch) (log : t.fetched = f :: s.fetched)
    (value : cached env list t = cached env list s)
    (time : (t.cache []).lastRefresh = (s.cache []).lastRefresh)
    (missed : Concerns list f → cached env list s = none) : Seen env list s [f] t :=
  .unchanged log value time (List.forall_mem_singleton.mpr missed)

/-- A key that all replies have stays in the list. -/
theorem Tracks.shown (tracks : Tracks env list s new t)
    (replies : ∀ f ∈ new, Concerns list f → lists key (fetchedList env list f) = true)
    (start : lists key (cached env list s) = true) : lists key (cached env list t) = true := by
  induction tracks with
  | refl => exact start
  | tail _ last ih =>
      rw [List.forall_mem_append] at replies
      cases last with
      | unchanged _ value => rw [value, ih replies.2]
      | fetched _ concerns value => rw [value, replies.1 _ (by simp) concerns]

/-- A key that no reply has is not in the list exactly if there was a reply, or if it was not in
the list before. -/
theorem Tracks.hidden_iff (tracks : Tracks env list s new t)
    (replies : ∀ f ∈ new, Concerns list f → lists key (fetchedList env list f) = false) :
    lists key (cached env list t) = false ↔
      (∃ f ∈ new, Concerns list f) ∨ lists key (cached env list s) = false := by
  induction tracks with
  | refl => simp
  | @tail new new' _ _ _ last ih =>
      rw [List.forall_mem_append] at replies
      cases last with
      | unchanged _ value _ missed =>
          rw [value, ih replies.2]
          constructor
          · rintro (⟨f, member, concerns⟩ | hidden)
            · exact .inl ⟨f, List.mem_append_right _ member, concerns⟩
            · exact .inr hidden
          · rintro (⟨f, member, concerns⟩ | hidden)
            · cases List.mem_append.mp member with
              | inl recent =>
                  refine (ih replies.2).mp ?_
                  rw [missed f recent concerns]
                  rfl
              | inr earlier => exact .inl ⟨f, earlier, concerns⟩
            · exact .inr hidden
      | @fetched f _ _ concerns value =>
          have hidden := replies.1 f (by simp) concerns
          rw [value]
          exact iff_of_true hidden (.inl ⟨f, by simp, concerns⟩)

/-- Before the root has a time of refresh, no list is cached. -/
def Filled (env : CacheEnv) (list : CacheId) (s : Caches) : Prop :=
  ∀ key, lists key (cached env list s) = true → (s.cache []).lastRefresh ≠ 0

theorem Tracks.filled (tracks : Tracks env list s new t) (start : Filled env list s) :
    Filled env list t := by
  induction tracks with
  | refl => exact start
  | tail _ last ih =>
      cases last with
      | unchanged _ value time =>
          intro key listed
          rw [time]
          rw [value] at listed
          exact ih key listed
      | fetched _ _ _ time => exact fun _ _ => time

end Runs

section Moves

variable {env : CacheEnv} {list : CacheId} {s t : Caches}

theorem setMember_error {j member : Json} {key : String} {e : Exception}
    (h : j.setMember key member = .error e) (other : String) : j.find? other = none := by
  cases j with
  | null => simp [Json.setMember] at h
  | obj members => simp [Json.setMember] at h
  | bool b | num q | str s | arr elems => rfl

theorem seen_checked (s : Caches) (id : CacheId) : Seen env list s [] (s.checked id) :=
  .same rfl checked_value checked_root_lastRefresh

theorem seen_failed (s : Caches) : Seen env list s [] s.failed := .same rfl rfl rfl

theorem seen_duration (s : Caches) (id : CacheId) (refreshDuration : ℤ) :
    Seen env list s [] (s.update id fun c => { c with refreshDuration }) :=
  .same rfl (duration_value refreshDuration) (duration_lastRefresh refreshDuration)

@[simp] theorem cached_store (s : Caches) (value : Json) :
    cached env list (s.store [] value) = value.follow (env.keys list) := by
  rw [cached, store_cache, if_pos rfl]

/-- A reply of the root is stored with the list in it. -/
theorem cached_store_root (s : Caches) (time : ℤ) (json : Json) :
    cached env list (s.store [] json) = fetchedList env list ⟨[], time, json⟩ := by
  rw [cached_store, fetchedList]
  cases list <;> rfl

/-- A reply of the list is stored as a member of the root's value. -/
theorem cached_store_child {i : ℕ} {j json value : Json}
    (stores : j.setMember (env.path [i]) json = .ok value) (s : Caches) (time : ℤ) :
    cached env [i] (s.store [] value) = fetchedList env [i] ⟨[i], time, json⟩ := by
  rw [cached_store, follow_keys_singleton, Json.find?_setMember stores, if_pos rfl]
  simp [fetchedList]

/-- A refresh of the root that arrives. -/
theorem seen_root (ticks : ∀ n, env.clock n ≠ 0) (list : CacheId) (s : Caches) (json : Json) :
    Seen env list s [⟨[], env.clock s.readings, json⟩] ((s.arrived env [] json).store [] json) := by
  refine .fetched rfl (.inr rfl) (cached_store_root _ _ json) ?_
  rw [store_lastRefresh, arrived_cache, if_pos rfl]
  exact ticks _

/-- A change of the caches is a step for the lists of a bridge. -/
theorem seen_move (ticks : ∀ n, env.clock n ≠ 0) {i : ℕ}
    (path : ∀ j, env.path [j] = env.path [i] → j = i) (move : Move env s t) :
    Reaches env [i] s t := by
  cases move with
  | checked id => exact (seen_checked s id).reaches
  | failed => exact (seen_failed s).reaches
  | duration id d => exact (seen_duration s id d).reaches
  | root json => exact (seen_root ticks [i] s json).reaches
  | @stored j base json value known stores =>
      have time : (((s.arrived env (j :: base) json).store base value).cache []).lastRefresh =
          (s.cache []).lastRefresh := by rw [store_lastRefresh, arrived_root]
      cases base with
      | cons k base =>
          have value : cached env [i] ((s.arrived env (j :: k :: base) json).store (k :: base)
              value) = cached env [i] s := by
            rw [cached, store_cache, if_neg (by simp), arrived_root, cached]
          exact (Seen.aside ⟨j :: k :: base, env.clock s.readings, json⟩ rfl value time
            fun concerns => absurd concerns (by simp [Concerns])).reaches
      | nil =>
          by_cases same : j = i
          · subst same
            exact (Seen.fetched rfl (.inl rfl) (cached_store_child stores _ _)
              (time.trans_ne known)).reaches
          · have value : cached env [i] ((s.arrived env [j] json).store [] value) =
                cached env [i] s := by
              rw [cached_store, follow_keys_singleton, Json.find?_setMember stores,
                if_neg fun equal => same (path j equal), cached, follow_keys_singleton]
            exact (Seen.aside ⟨[j], env.clock s.readings, json⟩ rfl value time
              fun concerns => absurd concerns (by simp [Concerns, same])).reaches
  | @dropped j base json e known stores =>
      have value : cached env [i] (s.arrived env (j :: base) json) = cached env [i] s := by
        rw [cached, arrived_value, cached]
      refine (Seen.aside ⟨j :: base, env.clock s.readings, json⟩ rfl value (by rw [arrived_root])
        fun concerns => ?_).reaches
      cases base with
      | cons k base => exact absurd concerns (by simp [Concerns])
      | nil => rw [cached, follow_keys_singleton, setMember_error stores]

theorem reaches_moves (ticks : ∀ n, env.clock n ≠ 0) {i : ℕ}
    (path : ∀ j, env.path [j] = env.path [i] → j = i) (moves : Moves env s t) :
    Reaches env [i] s t := by
  induction moves with
  | refl => exact .refl s
  | tail _ last ih => exact ih.trans (seen_move ticks path last)

/-- A refresh of the cache of a list that has it by itself. -/
theorem within_refresh_root (ticks : ∀ n, env.clock n ≠ 0) :
    Within (Reaches env []) (refresh env []) := by
  intro s
  rw [result_refresh_root]
  cases reply env s [] with
  | ok json => exact (seen_root ticks [] s json).reaches
  | error e => exact (seen_failed s).reaches

theorem within_call (ticks : ∀ n, env.clock n ≠ 0) (placed : Placed env list) (call : CacheCall)
    (fits : list = [] → call.id = []) (s : Caches) : Reaches env list s (call.run env s) := by
  cases placed with
  | onBase path => exact reaches_moves ticks path (moves_run env s call)
  | alone =>
      cases call with
      | refresh id =>
          obtain rfl : id = [] := fits rfl
          exact within_refresh_root ticks s
      | setRefreshDuration id d => exact (seen_duration s id d).reaches
      | getValue id =>
          obtain rfl : id = [] := fits rfl
          have checks : Within (Reaches env []) (needsRefresh env []) := fun s => by
            rw [result_needsRefresh]
            exact (seen_checked s []).reaches
          have ends : Within (Reaches env []) (cachedValue env []) := fun s => .refl s
          refine checks.bind ?_ s
          intro stale
          cases stale with
          | true => exact (within_refresh_root ticks).bind fun _ => ends
          | false => exact ends

end Moves

section Operations

variable {env : CacheEnv} {list : CacheId} {α ρ : Type} (factory : ResourceFactory α ρ)

theorem within_request (verb : HttpVerb) (path : String) (body : Json) :
    Within (Reaches env list) (request env verb path body) := fun s => (seen_failed s).reaches

theorem within_construct (id : α) (state : Json) :
    Within (Reaches env list) (factory.construct id state) := by
  intro s
  obtain ⟨cache, fetched⟩ := factory.keeps id state s
  exact (Seen.same fetched (by rw [cache]) (by rw [cache])).reaches

variable [IdType α]

theorem within_constructAll (items : List (Option String × Json)) :
    Within (Reaches env list) (constructAll factory items) := by
  induction items with
  | nil => exact within_pure _
  | cons item rest ih =>
      match item with
      | (none, _) => exact within_throw _
      | (some key, state) =>
          rw [constructAll_cons]
          refine Within.bind (within_ofExcept _) fun id => ?_
          refine (within_construct factory id state).bind fun resource => ?_
          exact ih.bind fun _ => within_pure _

variable (ticks : ∀ n, env.clock n ≠ 0) (placed : Placed env list)

include ticks placed

theorem within_refresh : Within (Reaches env list) (refresh env list) :=
  within_call ticks placed (.refresh list) id

theorem within_getValue : Within (Reaches env list) (getValue env list) :=
  within_call ticks placed (.getValue list) id

theorem within_getResource (id : α) :
    Within (Reaches env list) (getResource env list factory id) := by
  rw [getResource_eq]
  apply (within_getValue ticks placed).bind
  intro state
  split
  · exact within_construct factory id _
  · exact within_throw _

theorem within_create [Inhabited α] (params : Json) :
    Within (Reaches env list) (create env list params : CacheM α) := by
  rw [create, ListCache.create]
  apply (within_request _ _ _).bind
  intro response
  split
  · exact (within_refresh ticks placed).bind fun _ => within_ofExcept _
  · exact within_pure _

variable [Inhabited α] [DecidableEq α]

theorem within_listReference (reference : ListReference) (id : α) :
    Within (Reaches env list) (reference.existsResource env list id) ∧
      Within (Reaches env list) (reference.getResource env list factory id) := by
  have values := within_getValue ticks placed
  have queries : Within (Reaches env list) (existsResource env list id) := by
    rw [existsResource_eq]
    exact values.bind fun _ => within_pure _
  have gets := within_getResource factory ticks placed id
  cases reference with
  | list => exact ⟨queries, gets⟩
  | constList => exact ⟨queries, gets⟩
  | groups =>
      constructor
      · intro s
        simp only [ListReference.existsResource, GroupResourceList.existsGroup_eq, result_ite]
        split
        · exact .refl s
        · exact queries s
      · rw [ListReference.getResource, GroupResourceList.getGroup_eq]
        apply values.bind
        intro state
        split
        · exact within_construct factory id _
        · split
          · exact within_construct factory id _
          · exact within_throw _

theorem reaches_call (call : ListCall α) (fits : call.Fits list) (s : Caches) :
    Reaches env list s (call.run env list factory s) := by
  cases call with
  | create params => exact within_create ticks placed params s
  | removeResource id => exact (within_request _ _ _).bind (fun _ => within_pure _) s
  | existsResource reference id =>
      exact (within_listReference factory ticks placed reference id).1 s
  | getResource reference id =>
      exact (within_listReference factory ticks placed reference id).2 s
  | getAll =>
      rw [ListCall.run, getAll_eq]
      exact (within_getValue ticks placed).bind (fun state => within_constructAll factory _) s
  | cache call => exact within_call ticks placed call fits s

theorem reaches_run (calls : List (ListCall α)) (fits : ∀ call ∈ calls, call.Fits list)
    (s : Caches) : Reaches env list s ((listSystem env list factory).run s calls) := by
  induction calls generalizing s with
  | nil => exact .refl s
  | cons call calls ih =>
      rw [List.forall_mem_cons] at fits
      exact (reaches_call factory ticks placed call fits.1 s).trans (ih fits.2 _)

theorem filled_reachable {s : Caches} (reachable : (listSystem env list factory).Reachable s) :
    Filled env list s := by
  induction reachable with
  | @init s constructed =>
      intro key listed
      obtain ⟨null, -⟩ | ⟨-, time, -⟩ := constructed.root
      · rw [cached, null] at listed
        cases placed <;> exact absurd listed (by simp [CacheEnv.keys, Json.follow, lists,
          Json.count, Json.find?])
      · rw [time]
        exact ticks 0
  | step call _ fits ih =>
      obtain ⟨new, tracks⟩ := reaches_call factory ticks placed call fits _
      exact tracks.filled ih

end Operations

end ResourceList

end Hueplusplus
