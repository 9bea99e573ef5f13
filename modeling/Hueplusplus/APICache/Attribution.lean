import Hueplusplus.APICache.Views

/-!
# Where the values of the caches come from

A tree of caches puts what it shows together from replies to different requests. No step makes
a value up or moves it: what is shown at some place, and is not itself an object, the bridge
has sent for that place.
-/

namespace Hueplusplus

@[simp] theorem Json.follow_append (j : Json) (keys more : List String) :
    j.follow (keys ++ more) = (j.follow keys).bind fun member => member.follow more := by
  induction keys generalizing j with
  | nil => rfl
  | cons key keys ih => cases found : j.find? key <;> simp [follow, found, ih]

theorem Json.isObject_setMember {j stored member : Json} {key : String}
    (h : j.setMember key member = .ok stored) : ∃ members, stored = .obj members := by
  cases j with
  | null | obj members => exact ⟨_, (Except.ok.inj h).symm⟩
  | bool b | num q | str s | arr elems => simp [setMember] at h

namespace APICache

open Effect Caches

section

variable (env : CacheEnv) (fetched : List Fetch)

/-- A reply has the value at this place of the whole. -/
def CameIn (place : List String) (value : Json) : Prop :=
  ∃ f ∈ fetched, ∃ below, place = env.keys f.id ++ below ∧ f.json.follow below = some value

/-- What is in the JSON of this place, down to the values that are not objects, came in. -/
def Attributed (place : List String) (json : Json) : Prop :=
  ∀ below value, json.follow below = some value → (∀ members, value ≠ .obj members) →
    CameIn env fetched (place ++ below) value

end

variable {env : CacheEnv} {fetched : List Fetch} {place : List String} {json : Json}

theorem Attributed.cons (h : Attributed env fetched place json) (f : Fetch) :
    Attributed env (f :: fetched) place json := by
  intro below value found leaf
  obtain ⟨g, member, rest⟩ := h below value found leaf
  exact ⟨g, List.mem_cons_of_mem f member, rest⟩

theorem attributed_reply {f : Fetch} (member : f ∈ fetched) :
    Attributed env fetched (env.keys f.id) f.json :=
  fun below _ found _ => ⟨f, member, below, rfl, found⟩

theorem Attributed.follow (h : Attributed env fetched place json) {keys : List String}
    {part : Json} (found : json.follow keys = some part) :
    Attributed env fetched (place ++ keys) part := by
  intro below value inside leaf
  rw [List.append_assoc]
  refine h (keys ++ below) value ?_ leaf
  rw [Json.follow_append, found, Option.bind_some, inside]

/-- An assignment to a member keeps the attribution of the others. -/
theorem Attributed.setMember {key : String} {member stored : Json}
    (h : ∀ other value, json.find? other = some value →
      Attributed env fetched (place ++ [other]) value)
    (new : Attributed env fetched (place ++ [key]) member)
    (stores : json.setMember key member = .ok stored) (other : String) (value : Json)
    (found : stored.find? other = some value) :
    Attributed env fetched (place ++ [other]) value := by
  rw [Json.find?_setMember stores] at found
  split at found
  · rename_i same
    obtain rfl := Option.some.inj found
    exact same ▸ new
  · exact h other value found

theorem Attributed.member (h : Attributed env fetched place json) (key : String) (value : Json)
    (found : json.find? key = some value) : Attributed env fetched (place ++ [key]) value :=
  h.follow (by rw [Json.follow, found]; rfl)

theorem attributed_of_members {members : List (String × Json)}
    (h : ∀ key value, (Json.obj members).find? key = some value →
      Attributed env fetched (place ++ [key]) value) :
    Attributed env fetched place (.obj members) := by
  intro below value found leaf
  cases below with
  | nil => exact absurd (Option.some.inj found).symm (leaf members)
  | cons key below =>
      obtain ⟨part, there, inside⟩ := Option.bind_eq_some_iff.mp found
      have came := h key part there below value inside leaf
      rwa [List.append_assoc] at came

/-- Everything that is stored in the caches came in. -/
structure Sourced (env : CacheEnv) (s : Caches) : Prop where
  root : (s.cache []).lastRefresh ≠ 0 → Attributed env s.fetched [] (s.cache []).value
  null : (s.cache []).lastRefresh = 0 → (s.cache []).value = .null
  below : ∀ i base key value, (s.cache (i :: base)).value.find? key = some value →
    Attributed env s.fetched (env.keys (i :: base) ++ [key]) value

theorem sourced_constructed {s : Caches} (positive : ∀ n, 0 < env.clock n)
    (h : Constructed env s) :
    Sourced env s := by
  refine ⟨fun known => ?_, fun unset => ?_, fun i base key value found => ?_⟩
  · rcases h.root with ⟨-, unset, -⟩ | ⟨-, -, -, fetched⟩
    · exact absurd unset known
    · rw [fetched]
      exact attributed_reply (List.mem_singleton_self (⟨[], env.clock 0, _⟩ : Fetch))
  · rcases h.root with ⟨null, -⟩ | ⟨-, time, -⟩
    · exact null
    · exact absurd (time.symm.trans unset) (positive 0).ne'
  · rw [(h.below i base).1] at found
    cases found

/-- Steps that fetch nothing and store nothing. -/
theorem Sourced.same {s t : Caches} (h : Sourced env s) (log : t.fetched = s.fetched)
    (value : ∀ id, (t.cache id).value = (s.cache id).value)
    (time : (t.cache []).lastRefresh = (s.cache []).lastRefresh) : Sourced env t where
  root known := by
    rw [log, value]
    exact h.root (time ▸ known)
  null unset := by
    rw [value]
    exact h.null (time ▸ unset)
  below i base key member found := by
    rw [value] at found
    rw [log]
    exact h.below i base key member found

/-- A reply that came in and of which nothing is stored yet. -/
theorem Sourced.arrived {s : Caches} (h : Sourced env s) (i : ℕ) (base : CacheId) (json : Json) :
    Sourced env (s.arrived env (i :: base) json) where
  root known := by
    rw [arrived_root] at known ⊢
    exact (h.root known).cons _
  null unset := by
    rw [arrived_root] at unset ⊢
    exact h.null unset
  below j other key member found := by
    rw [arrived_value] at found
    exact (h.below j other key member found).cons _

/-- A member of a value that is stored has come in before, or just now. -/
theorem sourced_stored {s : Caches} (h : Sourced env s) {i : ℕ} {base : CacheId}
    {json value : Json} (known : (s.cache base).lastRefresh ≠ 0)
    (stores : (s.cache base).value.setMember (env.path (i :: base)) json = .ok value) :
    Sourced env ((s.arrived env (i :: base) json).store base value) := by
  have new : Attributed env (s.arrived env (i :: base) json).fetched
      (env.keys base ++ [env.path (i :: base)]) json :=
    attributed_reply (List.mem_cons_self (a := (⟨i :: base, _, json⟩ : Fetch)))
  have came := h.arrived i base json
  cases base with
  | nil =>
      refine ⟨fun _ => ?_, fun unset => ?_, fun j other key member found => ?_⟩
      · rw [store_cache, if_pos rfl]
        obtain ⟨members, rfl⟩ := Json.isObject_setMember stores
        refine attributed_of_members (Attributed.setMember ?_ new stores)
        have before := came.root (by rwa [arrived_root])
        rw [arrived_root] at before
        exact before.member
      · rw [store_lastRefresh, arrived_root] at unset
        exact absurd unset known
      · rw [store_cache, if_neg (by simp)] at found
        exact came.below j other key member found
  | cons k base =>
      refine ⟨fun known => ?_, fun unset => ?_, fun j other key member found => ?_⟩
      · rw [store_cache, if_neg (by simp)] at known ⊢
        exact came.root known
      · rw [store_cache, if_neg (by simp)] at unset ⊢
        exact came.null unset
      · rw [store_cache] at found
        split at found
        · rename_i same
          rw [same]
          refine Attributed.setMember (fun key member there => ?_) new stores key member found
          exact came.below k base key member (by rwa [arrived_value])
        · exact came.below j other key member found

theorem sourced_move (positive : ∀ n, 0 < env.clock n) {s t : Caches} (h : Sourced env s)
    (move : Move env s t) : Sourced env t := by
  cases move with
  | checked id => exact h.same rfl (fun _ => checked_value) checked_root_lastRefresh
  | failed => exact h.same rfl (fun _ => rfl) rfl
  | duration id d =>
      exact h.same rfl (fun _ => duration_value d) (duration_lastRefresh d)
  | root json =>
      refine ⟨fun _ => ?_, fun unset => ?_, fun i base key member found => ?_⟩
      · rw [store_cache, if_pos rfl]
        exact attributed_reply (List.mem_cons_self (a := (⟨[], _, json⟩ : Fetch)))
      · rw [store_lastRefresh, arrived_cache, if_pos rfl] at unset
        exact absurd unset (positive _).ne'
      · rw [store_cache, if_neg (by simp), arrived_value] at found
        exact (h.below i base key member found).cons _
  | stored known stores => exact sourced_stored h known stores
  | @dropped i base json e known stores => exact h.arrived i base json

theorem sourced_invariant (positive : ∀ n, 0 < env.clock n) :
    (cacheSystem env).Invariant (Sourced env) :=
  invariant_of_moves env (fun _ => sourced_constructed positive) (sourced_move positive)

theorem Sourced.root_attributed {s : Caches} (h : Sourced env s) :
    (s.cache []).value = .null ∨ Attributed env s.fetched [] (s.cache []).value := by
  by_cases unset : (s.cache []).lastRefresh = 0
  · exact .inl (h.null unset)
  · exact .inr (h.root unset)

/-- What a cache finds in its base came in at its own place. -/
theorem Sourced.child {s : Caches} (h : Sourced env s) {i : ℕ} {base : CacheId} {value : Json}
    (found : (s.cache base).value.find? (env.path (i :: base)) = some value) :
    Attributed env s.fetched (env.keys (i :: base)) value := by
  cases base with
  | cons k base => exact h.below k base _ value found
  | nil =>
      rcases h.root_attributed with null | root
      · rw [null] at found
        cases found
      · exact root.member _ value found

/-- In every run, both views of a cache are made of what came in: a value inside them that is
not an object is in a reply, which need not be a reply to this cache, at exactly the same
place of the whole. -/
theorem shown_is_attributed (env : CacheEnv) (positive : ∀ n, 0 < env.clock n) {s : Caches}
    (reachable : (cacheSystem env).Reachable s) (id : CacheId) (value : Json) :
    (constGetValue env s id = .ok value → Attributed env s.fetched (env.keys id) value) ∧
    ∀ t, Returns (getValue env id) s value t → Attributed env t.fetched (env.keys id) value := by
  have sourced := (sourced_invariant positive).holds reachable
  refine ⟨fun shown => ?_, fun t returned => ?_⟩
  · obtain ⟨known, found⟩ := constGetValue_eq_ok_iff.mp shown
    exact (sourced.root known).follow found
  · have after : Sourced env t := by
      have moves := moves_getValue env id s
      rw [returned] at moves
      exact holds_of_moves env (sourced_move positive) sourced moves
    have cached := cachedValue_of_getValue returned
    cases id with
    | cons i base => exact after.child (returns_cachedValue_child cached)
    | nil =>
        have root := after.root (root_set_of_getValue positive returned)
        rw [Returns, result_cachedValue, Prod.mk.injEq, Except.ok.injEq] at cached
        rwa [cached.1] at root

theorem shown_is_attributed_light :
    constGetValue lightCaches (result (getValue lightCaches [0]) newCaches).2 [0, 0] =
        .ok (.obj [("on", .bool false)]) ∧
      Attributed lightCaches (result (getValue lightCaches [0]) newCaches).2.fetched
        ["lights", "1"] (.obj [("on", .bool false)]) := by
  have reachable : (cacheSystem lightCaches).Reachable
      (result (getValue lightCaches [0]) newCaches).2 :=
    .step (M := cacheSystem lightCaches) (.getValue [0]) (.init (newCaches_constructed _)) trivial
  exact ⟨rfl, (shown_is_attributed lightCaches lightCaches_positive reachable [0, 0] _).1 rfl⟩

end APICache

end Hueplusplus
