import Hueplusplus.APICache.Attribution

/-!
# Showing what the bridge has

The bridge is a parameter here: what it has when each request has been carried out. It is
assumed that a GET request that succeeds returns what the bridge has at the place of the cache.
Then a refresh that returns makes the cache show that, and the cache shows it as long as the
bridge has it, whatever else is done with the tree of caches and however that ends. This holds
of the root and of the caches on it; below them the constant `getValue` does not see what the
caches fetch.
-/

namespace Hueplusplus.APICache

open Effect Caches

/-- A GET request that succeeds returns what the bridge has at the place of the cache. -/
def Answers (env : CacheEnv) (has : ℕ → Json) : Prop :=
  ∀ n id json, (env.commands n).getRequest (getRequestPath env id) (.obj []) = .ok json →
    (has n).follow (env.keys id) = some json

/-- The bridge has the value at the place, from one request until before another. -/
def Lasts (has : ℕ → Json) (place : List String) (value : Json) (first last : ℕ) : Prop :=
  ∀ n, first ≤ n → n < last → (has n).follow place = some value

/-- The constant views have the value at the place. -/
structure Shows (place : List String) (value : Json) (s : Caches) : Prop where
  refreshed : (s.cache []).lastRefresh ≠ 0
  found : (s.cache []).value.follow place = some value

/-- As long as the bridge has the value, the caches do not cease to show it. -/
structure Keeps (has : ℕ → Json) (place : List String) (value : Json) (s t : Caches) : Prop where
  requests : s.requests ≤ t.requests
  shows : Lasts has place value s.requests t.requests → Shows place value s →
    Shows place value t

section

variable {has : ℕ → Json} {place : List String} {value : Json} {s t : Caches}

theorem Lasts.sub {first last first' last' : ℕ} (lasts : Lasts has place value first last)
    (lower : first ≤ first') (upper : last' ≤ last) : Lasts has place value first' last' :=
  fun n after before => lasts n (lower.trans after) (before.trans_le upper)

instance : IsPreorder Caches (Keeps has place value) where
  refl _ := ⟨le_rfl, fun _ shows => shows⟩
  trans _ _ _ first second :=
    ⟨first.requests.trans second.requests, fun lasts shows =>
      second.shows (lasts.sub first.requests le_rfl)
        (first.shows (lasts.sub le_rfl second.requests) shows)⟩

/-- Steps that leave the root's value alone. -/
theorem keeps_of_same (requests : s.requests ≤ t.requests)
    (same : (t.cache []).value = (s.cache []).value)
    (last : (t.cache []).lastRefresh = (s.cache []).lastRefresh) : Keeps has place value s t :=
  ⟨requests, fun _ shows => ⟨last ▸ shows.refreshed, same ▸ shows.found⟩⟩

theorem keeps_checked (id : CacheId) : Keeps has place value s (s.checked id) :=
  keeps_of_same le_rfl checked_value checked_root_lastRefresh

theorem keeps_failed : Keeps has place value s s.failed :=
  keeps_of_same (Nat.le_succ _) rfl rfl

/-- What arrives for a cache on the root is stored as the member that the bridge has. -/
theorem follow_setMember {key : String} {whole member stored json : Json}
    (stores : json.setMember key member = .ok stored) (has : whole.find? key = some member)
    (nonempty : place ≠ []) (lasts : whole.follow place = some value)
    (found : json.follow place = some value ∨ ∃ more, place = key :: more) :
    stored.follow place = some value := by
  obtain ⟨first, rest, rfl⟩ := List.exists_cons_of_ne_nil nonempty
  rw [Json.follow, Json.find?_setMember stores]
  split
  · rename_i same
    rw [Json.follow, ← same, has] at lasts
    exact lasts
  · rename_i different
    rcases found with found | ⟨more, same⟩
    · exact found
    · exact absurd (List.cons.inj same).1.symm different

end

section Calls

variable {env : CacheEnv} {has : ℕ → Json} {place : List String} {value : Json}

/-- The reply to the next request is what the bridge has then. -/
theorem Answers.follow_reply (answers : Answers env has) {s : Caches} {id : CacheId} {json : Json}
    (replied : reply env s id = .ok json) : (has s.requests).follow (env.keys id) = some json :=
  answers s.requests id json replied

/-- A cache on the root has been fetched while the bridge has the value, which is in this cache or
was shown before. -/
theorem shows_member (answers : Answers env has) {s : Caches} {i : ℕ} {json stored : Json}
    (replied : reply env s [i] = .ok json)
    (stores : (s.cache []).value.setMember (env.path [i]) json = .ok stored)
    (known : (s.cache []).lastRefresh ≠ 0) (nonempty : place ≠ [])
    (found : (s.cache []).value.follow place = some value ∨
      ∃ more, place = env.path [i] :: more)
    (lasts : Lasts has place value s.requests (s.requests + 1)) :
    Shows place value ((s.arrived env [i] json).store [] stored) := by
  have member := answers.follow_reply replied
  rw [follow_keys_singleton] at member
  constructor
  · rw [store_lastRefresh, arrived_root]
    exact known
  · rw [store_cache, if_pos rfl]
    exact follow_setMember stores member nonempty
      (lasts s.requests le_rfl (Nat.lt_succ_self _)) found

/-- A value that is shown is in what the constant `getValue` of the cache returns. -/
theorem Shows.constGetValue {id : CacheId} {more : List String} {s : Caches}
    (shows : Shows (env.keys id ++ more) value s) :
    ∃ json, constGetValue env s id = .ok json ∧ json.follow more = some value := by
  obtain ⟨json, found, inside⟩ := Option.bind_eq_some_iff.mp
    ((Json.follow_append _ _ _).symm.trans shows.found)
  exact ⟨json, constGetValue_eq_ok_iff.mpr ⟨shows.refreshed, found⟩, inside⟩

variable (answers : Answers env has) (ticks : ∀ n, env.clock n ≠ 0)
include answers ticks

/-- The root has been fetched while the bridge has the value. -/
theorem shows_root {s : Caches} {json : Json} (replied : reply env s [] = .ok json)
    (lasts : Lasts has place value s.requests (s.requests + 1)) :
    Shows place value ((s.arrived env [] json).store [] json) := by
  obtain rfl := Option.some.inj (answers.follow_reply replied)
  constructor
  · rw [store_lastRefresh, arrived_cache, if_pos rfl]
    exact ticks s.readings
  · rw [store_cache, if_pos rfl]
    exact lasts s.requests le_rfl (Nat.lt_succ_self _)

theorem keeps_refresh (nonempty : place ≠ []) (id : CacheId) :
    Within (Keeps has place value) (refresh env id) := by
  induction id with
  | nil =>
      intro s
      rw [result_refresh_root]
      cases replied : reply env s [] with
      | error e => exact keeps_failed
      | ok json => exact ⟨Nat.le_succ _, fun lasts _ => shows_root answers ticks replied lasts⟩
  | cons i base ih =>
      intro s
      rw [result_refresh_child]
      refine trans_of (Keeps has place value) (keeps_checked (s := s) base) ?_
      split
      · exact ih (s.checked base)
      · cases replied : reply env (s.checked base) (i :: base) with
        | error e => exact keeps_failed
        | ok json =>
            simp only
            rw [← @checked_value s base base]
            cases stores : ((s.checked base).cache base).value.setMember (env.path (i :: base))
                json with
            | error e =>
                exact keeps_of_same (Nat.le_succ _) (arrived_value _ _)
                  (congrArg APICache.lastRefresh (arrived_root _ _))
            | ok stored =>
                refine ⟨Nat.le_succ _, fun lasts shows => ?_⟩
                cases base with
                | nil =>
                    exact shows_member answers replied stores shows.refreshed nonempty
                      (.inl shows.found) lasts
                | cons j base =>
                    have root : ((((s.checked (j :: base)).arrived env (i :: j :: base) json).store
                        (j :: base) stored).cache []) = (s.checked (j :: base)).cache [] := by
                      rw [store_cache, if_neg (by simp), arrived_root]
                    exact ⟨root ▸ shows.refreshed, root ▸ shows.found⟩

theorem keeps_getValue (nonempty : place ≠ []) (id : CacheId) :
    Within (Keeps has place value) (getValue env id) := by
  intro s
  have refreshed : Keeps has place value (s.checked id) _ :=
    keeps_refresh answers ticks nonempty id (s.checked id)
  rw [result_getValue]
  refine trans_of (Keeps has place value) (keeps_checked (s := s) id) ?_
  split
  · split
    · rename_i ran
      rw [ran] at refreshed
      rw [cachedValue_state]
      exact refreshed
    · rename_i ran
      rw [ran] at refreshed
      exact refreshed
  · rw [cachedValue_state]
    exact refl_of (Keeps has place value) _

theorem keeps_run (nonempty : place ≠ []) (s : Caches) (call : CacheCall) :
    Keeps has place value s (call.run env s) := by
  cases call with
  | refresh id => exact keeps_refresh answers ticks nonempty id s
  | getValue id => exact keeps_getValue answers ticks nonempty id s
  | setRefreshDuration id d =>
      exact keeps_of_same le_rfl (duration_value d) (duration_lastRefresh d)

/-- After a refresh that returns, a cache that is the root or on the root shows what the bridge
has in it. -/
theorem shows_of_refresh {id : CacheId} (level : id.length ≤ 1) {more : List String}
    {s t : Caches} (returned : Returns (refresh env id) s ⟨⟩ t)
    (lasts : Lasts has (env.keys id ++ more) value s.requests t.requests) :
    Shows (env.keys id ++ more) value t := by
  have root {place : List String} {s : Caches} (returned : Returns (refresh env []) s ⟨⟩ t)
      (lasts : Lasts has place value s.requests t.requests) : Shows place value t := by
    rw [Returns, result_refresh_root] at returned
    cases replied : reply env s [] with
    | error e => simp [replied] at returned
    | ok json =>
        rw [replied] at returned
        obtain rfl := (Prod.mk.inj returned).2
        exact shows_root answers ticks replied lasts
  cases id with
  | nil => exact root returned lasts
  | cons i base =>
      obtain rfl : base = [] := List.eq_nil_of_length_eq_zero (Nat.le_zero.mp
        (Nat.le_of_succ_le_succ level))
      rw [Returns, result_refresh_child] at returned
      split at returned
      · exact root returned lasts
      · rename_i fresh
        have known : ((s.checked []).cache []).lastRefresh ≠ 0 := by
          rw [checked_root_lastRefresh]
          exact @lastRefresh_ne_zero s [] _ (Bool.not_eq_true _ ▸ fresh)
        cases replied : reply env (s.checked []) [i] with
        | error e => simp [replied] at returned
        | ok json =>
            simp only [replied] at returned
            cases stores : (s.cache []).value.setMember (env.path [i]) json with
            | error e => simp [stores] at returned
            | ok stored =>
                simp only [stores] at returned
                obtain rfl := (Prod.mk.inj returned).2
                rw [← @checked_value s [] []] at stores
                exact shows_member answers replied stores known (by simp [CacheEnv.keys])
                  (.inr ⟨more, rfl⟩) lasts

end Calls

section Served

variable (name key : String) (whole : Json) (put : String → Json → Except Exception Json)

/-- The reply to a GET request. There is nothing below the members of the JSON. -/
def servedJson (uri : String) : Except Exception Json :=
  if uri = "/api/username/" ++ name then .ok whole
  else if uri = "/api/username/" ++ name ++ "/" ++ key then
    match whole.find? key with
    | some member => .ok member
    | none => .error (.hueException "not available")
  else .error (.hueException "not available")

/-- The root cache is that of the JSON, and the caches on it are those of a member. -/
def servedCaches : CacheEnv where
  path
    | [] => "/" ++ name
    | _ :: _ => key
  clock n := n + 1
  commands _ :=
    { ip := "192.168.2.1", port := 80, username := "username"
      httpHandler :=
        { getJson := fun _ uri _ _ _ => servedJson name key whole uri
          putJson := fun _ uri body _ _ => put uri body
          postJson := fun _ _ _ _ _ => .ok .null
          deleteJson := fun _ _ _ _ _ => .ok .null } }

theorem servedCaches_ticks (n : ℕ) : (servedCaches name key whole put).clock n ≠ 0 := by
  change (n : ℤ) + 1 ≠ 0
  omega

theorem servedCaches_answers :
    Answers (servedCaches name key whole put) fun _ => whole := by
  intro n id json replied
  let env := servedCaches name key whole put
  have start : ∀ id, ∃ rest, getRequestPath env id = "/" ++ rest ∧
      rest.length = name.length + id.length * (1 + key.length) := by
    intro id
    induction id with
    | nil => exact ⟨name, rfl, by simp⟩
    | cons i base ih =>
        obtain ⟨rest, same, length⟩ := ih
        refine ⟨rest ++ "/" ++ key, ?_, ?_⟩
        · rw [getRequestPath, same]
          simp [env, servedCaches, String.append_assoc]
        · simp only [String.length_append, length, List.length_cons]
          change _ + 1 + _ = _
          ring
  obtain ⟨rest, path, length⟩ := start id
  have uri : (env.commands n).combinedPath ("/" ++ rest) = "/api/username/" ++ rest := by
    simp [HueCommandAPI.combinedPath, env, servedCaches, ← String.append_assoc]
  have ran : (runWithTimeout fun _ => servedJson name key whole ("/api/username/" ++ rest)) >>=
      HueCommandAPI.handleError = .ok json := by
    rw [← uri, ← path]
    exact replied
  unfold servedJson at ran
  split at ran
  · rename_i same
    have none : id.length * (1 + key.length) = 0 := by
      have := congrArg String.length same
      simp only [String.length_append, length] at this
      omega
    obtain rfl : id = [] := by simpa using none
    exact congrArg some (HueCommandAPI.handleError_eq_ok ran)
  split at ran
  · rename_i same
    have one : id.length * (1 + key.length) = 1 * (1 + key.length) := by
      have := congrArg String.length same
      simp only [String.length_append, length] at this
      change _ = _ + 1 + _ at this
      omega
    obtain ⟨i, rfl⟩ := List.length_eq_one_iff.mp (Nat.eq_of_mul_eq_mul_right (by omega) one)
    rw [follow_keys_singleton]
    change whole.find? key = some json
    split at ran
    · rename_i member found
      rw [found]
      exact congrArg some (HueCommandAPI.handleError_eq_ok ran)
    · cases ran
  · cases ran

variable {name key whole put} in
theorem servedCaches_put {n : ℕ} {path : String} {body reply : Json}
    (acknowledged : ((servedCaches name key whole put).commands n).putRequest path body =
      .ok reply) :
    ∃ first, put (((servedCaches name key whole put).commands n).combinedPath path) body =
      .ok first := by
  change (runWithTimeout fun _ => put _ body) >>= HueCommandAPI.handleError = _ at acknowledged
  cases served : put (((servedCaches name key whole put).commands n).combinedPath path) body with
  | ok first => exact ⟨first, rfl⟩
  | error e =>
      rw [served] at acknowledged
      have same : (runWithTimeout fun _ => .error e) = .error e := by
        unfold runWithTimeout
        split
        · rename_i code thrown
          rw [← thrown]
          exact ite_self _
        · rfl
      rw [same] at acknowledged
      cases acknowledged

end Served

end Hueplusplus.APICache
