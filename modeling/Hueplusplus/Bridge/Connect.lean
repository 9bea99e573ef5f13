import Hueplusplus.Bridge.Twins

/-!
# Two ways to a connected bridge

A bridge is constructed with its username and refreshed, or it is constructed without, and
`requestUsername` obtains the username, constructs the caches anew and refreshes them. The
cache of the whole state has no limit of age after the first, and the refresh duration of the
bridge after the second. So the same queries at the same times make the same requests exactly
as long as no list has to be refreshed once the whole state has been fetched.
-/

namespace Hueplusplus

open Effect

namespace Bridge

/-- Queries at their times, which the clock shows as long as each takes. -/
def querySystem : System Bridge (ℕ × Query) where
  init _ := True
  admissible _ _ := True
  step b query := query.2.run (fun _ => query.1) b

/-- If the query finds its list outdated, or is to refresh it while the whole state is outdated,
then the whole state has not been fetched yet. -/
def Query.Fits (time : ℤ) (b : Bridge) : Query → Prop
  | .refresh | .getNewDevices _ => True
  | .refreshList _ | .refreshConfig true =>
    b.caches.staleAt [] time = true → (b.caches.cache []).lastRefresh = 0
  | .refreshConfig false =>
    b.caches.staleAt Part.config.stateCache time = true → (b.caches.cache []).lastRefresh = 0
  | @Query.existsResource _ _ part _ _ | @Query.getResource _ _ part _ _ |
    @Query.getAll _ _ part =>
    b.caches.staleAt part.stateCache time = true → (b.caches.cache []).lastRefresh = 0
  | .existsGroup id =>
    id ≠ 0 → b.caches.staleAt Part.groups.stateCache time = true →
      (b.caches.cache []).lastRefresh = 0
  | .getGroup _ =>
    b.caches.staleAt Part.groups.stateCache time = true → (b.caches.cache []).lastRefresh = 0

end Bridge

namespace Connection

open Bridge

variable {c : Connection} {a b : Bridge} {time : ℤ}

theorem stateCache_eq (part : Part) : ∃ i, part.stateCache = [i] := by
  cases part <;> exact ⟨_, rfl⟩

/-- The checks of the root differ exactly if the second finds it outdated after a refresh. -/
theorem checks_iff (time : ℤ) (twin : c.Twin a b) :
    a.caches.staleAt [] time = b.caches.staleAt [] time ↔
      (b.caches.staleAt [] time = true → (b.caches.cache []).lastRefresh = 0) := by
  have first := twin.caches.staleAt_root time
  rw [← twin.caches.last] at first
  cases stale : b.caches.staleAt [] time with
  | true => simpa using first
  | false =>
      have set : (b.caches.cache []).lastRefresh ≠ 0 := Caches.lastRefresh_ne_zero stale
      have fresh : a.caches.staleAt [] time = false := by
        rw [← Bool.not_eq_true, first]
        exact set
      simp [fresh]

/-- A query asks for everything or beside the caches, it refreshes a list, or it looks at one
and goes on with what that contains. -/
inductive Shape (time : ℤ) (query : Query) : Prop where
  | whole (fits : ∀ b, query.Fits time b)
    (alike : ∀ (c : Connection) {a b : Bridge}, c.Twin a b →
      c.Twin (query.run (fun _ => time) a) (query.run (fun _ => time) b)) : Shape time query
  | refreshes (part : Part)
    (fits : ∀ b, query.Fits time b ↔
      (b.caches.staleAt [] time = true → (b.caches.cache []).lastRefresh = 0))
    (ran : ∀ b, query.run (fun _ => time) b =
      (result (refreshCache (fun _ => time) part.stateCache) b).2) : Shape time query
  | looks (part : Part) {β : Type} (next : Json → BridgeM β)
    (composes : ∀ value, (system fun _ => time).Composes (next value))
    (alike : ∀ (c : Connection) value, Alike c.Twin (fun _ _ => True) (next value) (next value))
    (fits : ∀ b, query.Fits time b ↔
      (b.caches.staleAt part.stateCache time = true → (b.caches.cache []).lastRefresh = 0))
    (ran : ∀ b, query.run (fun _ => time) b =
      (result (getCacheValue (fun _ => time) part.stateCache >>= next) b).2) : Shape time query

theorem query_shape (nonneg : 0 ≤ time) (query : Query) : Shape time query := by
  cases query with
  | refresh =>
      refine .whole (fun _ => trivial) fun c a b twin => ?_
      exact (alike_refresh_root nonneg a b twin).state
  | getNewDevices part =>
      refine .whole (fun _ => trivial) fun c a b twin => ?_
      have alike : Alike c.Twin Eq (Bridge.getNewDevices (fun _ => time) part)
          (Bridge.getNewDevices (fun _ => time) part) := by
        refine alike_get.bind fun a b twin => ?_
        rw [twin.commands, twin.commands']
        exact alike_request _ _
      exact (alike a b twin).state
  | refreshList part => exact .refreshes part (fun _ => Iff.rfl) fun _ => rfl
  | refreshConfig force =>
      cases force with
      | true => exact .refreshes .config (fun _ => Iff.rfl) fun _ => rfl
      | false =>
          exact .looks .config (fun _ => pure ()) (fun _ => System.composes_pure _)
            (fun _ _ => alike_pure trivial) (fun _ => Iff.rfl) fun _ => rfl
  | existsResource part other id =>
      refine .looks part (fun state => pure (state.count (maybeToString id)))
        (fun _ => System.composes_pure _) (fun _ _ => alike_pure trivial) (fun _ => Iff.rfl) ?_
      intro b
      rw [Query.run, existsResource_eq]
  | existsGroup id =>
      by_cases all : id = 0
      · have ran (b : Bridge) : (Query.existsGroup id).run (fun _ => time) b = b := by
          rw [Query.run, existsGroup_eq, if_pos all, result_pure]
        refine .whole (fun _ other => absurd all other) fun c a b twin => ?_
        rwa [ran, ran]
      · refine .looks .groups (fun state => pure (state.count (maybeToString id)))
          (fun _ => System.composes_pure _) (fun _ _ => alike_pure trivial)
          (fun b => forall_prop_of_true all) ?_
        intro b
        rw [Query.run, existsGroup_eq, if_neg all, existsResource_eq]
  | getResource part other id =>
      refine .looks part _ ?_ ?_ (fun _ => Iff.rfl) fun b =>
        congrArg (fun x => (result x b).2) (getResource_eq (fun _ => time) part id)
      · intro state
        split
        · exact composes_construct part id _
        · exact System.composes_throw _
      · intro c state
        split
        · exact alike_construct time part id _
        · exact alike_throw _
  | getGroup id =>
      refine .looks .groups _ ?_ ?_ (fun _ => Iff.rfl) fun b =>
        congrArg (fun x => (result x b).2) (getGroup_eq (fun _ => time) id)
      · intro state
        split
        · exact composes_construct .groups id _
        · split
          · exact composes_construct .groups id _
          · exact System.composes_throw _
      · intro c state
        split
        · exact alike_construct time .groups id _
        · split
          · exact alike_construct time .groups id _
          · exact alike_throw _
  | getAll α part =>
      refine .looks part (fun state => (constructAll (fun _ => time) part state.items :
        BridgeM (List (Resource α)))) (fun state => composes_constructAll part state.items)
        (fun _ state => alike_constructAll time part state.items) (fun _ => Iff.rfl) ?_
      intro b
      rw [Query.run, getAll_eq]

/-- A query that fits makes the same requests on both sides. -/
theorem twin_query (nonneg : 0 ≤ time) (twin : c.Twin a b) {query : Query}
    (fits : query.Fits time b) :
    c.Twin (query.run (fun _ => time) a) (query.run (fun _ => time) b) := by
  cases query_shape nonneg query with
  | whole _ alike => exact alike c twin
  | refreshes part condition ran =>
      obtain ⟨i, child⟩ := stateCache_eq part
      rw [ran, ran, child]
      have checks := (checks_iff time twin).mpr ((condition b).mp fits)
      exact (agree_refresh_child nonneg i twin checks).state
  | looks part next _ alike condition ran =>
      obtain ⟨i, child⟩ := stateCache_eq part
      have fits := (condition b).mp fits
      rw [child] at fits
      have checks : a.caches.staleAt [] time = b.caches.staleAt [] time ∨
          b.caches.staleAt [i] time = false := by
        cases stale : b.caches.staleAt [i] time with
        | true => exact .inl ((checks_iff time twin).mpr fun _ => fits stale)
        | false => exact .inr rfl
      rw [ran, ran, child]
      have goesOn (value value' : Json) (same : value = value') :
          Alike c.Twin (fun _ _ => True) (next value) (next value') := by
        rw [← same]
        exact alike c value
      exact (agree_bind (agree_getValue nonneg i twin checks) goesOn).state

/-- The first call that `final` has more than `b` is for this path. -/
def AsksFirst (b final : Bridge) (commands : HueCommandAPI) (path : String) : Prop :=
  ∃ later e, final.exchanges = later ++ e :: b.exchanges ∧ e.uri = commands.combinedPath path

theorem asksFirst_request (commands : HueCommandAPI) (path : String) (b : Bridge) :
    ∃ later e, e.uri = commands.combinedPath path ∧
      (result (Bridge.request commands .get path (.obj [])) b).2 =
        { b with exchanges := later ++ e :: b.exchanges } := by
  obtain ⟨new, made, calls, ran⟩ := result_runWithTimeout commands.httpHandler .get
    (commands.combinedPath path) (.obj []) commands.ip commands.port b
  obtain ⟨later, e, rfl⟩ := List.eq_nil_or_concat new |>.resolve_left made
  refine ⟨later, e, (calls e (by simp)).1, ?_⟩
  rw [Bridge.request, result_bind, ran]
  cases Hueplusplus.runWithTimeout fun attempt => commands.httpHandler.json .get
    (b.exchanges.length + attempt) (commands.combinedPath path) (.obj []) commands.ip
    commands.port <;> simp

/-- What the caches do afterwards makes no calls. -/
theorem exchanges_bind_atCaches {α β : Type} (clock : ℕ → ℤ) (x : BridgeM α)
    (f : α → CacheEnv → CacheM β) (b : Bridge) :
    (result (x >>= fun value => Bridge.atCaches clock (f value)) b).2.exchanges =
      (result x b).2.exchanges := by
  rw [result_bind]
  rcases result x b with ⟨e | value, t⟩ <;> rfl

theorem asksFirst_fetch (clock : ℕ → ℤ) (id : CacheId) (b : Bridge) :
    AsksFirst b (result (do
      let result ← Bridge.GETRequest clock id
      Bridge.atCaches clock fun env => APICache.takeOver env id result) b).2 (b.commands id)
      (APICache.getRequestPath (b.cacheEnv clock) id) := by
  let counted : Bridge :=
    { b with caches := { b.caches with requests := b.caches.requests + 1 } }
  obtain ⟨later, e, asked, ran⟩ := asksFirst_request (b.commands id)
    (APICache.getRequestPath (b.cacheEnv clock) id) counted
  refine ⟨later, e, ?_, asked⟩
  rw [exchanges_bind_atCaches]
  exact congrArg Bridge.exchanges ran

/-- A refresh of a list asks for the whole state if that is outdated, and for the list else. -/
theorem asksFirst_refresh (time : ℤ) (i : ℕ) (b : Bridge) :
    AsksFirst b (result (refreshCache (fun _ => time) [i]) b).2
      (b.commands (if b.caches.staleAt [] time then [] else [i]))
      (if b.caches.staleAt [] time then "" else "/" ++ cachePath [i]) := by
  let checked : Bridge := { b with caches := b.caches.checked [] }
  have found : result (atCaches (fun _ => time) fun env => APICache.needsRefresh env []) b =
      (.ok (b.caches.staleAt [] time), checked) := result_atCaches_needsRefresh _ [] b
  have ran : result (refreshCache (fun _ => time) [i]) b =
      result (if b.caches.staleAt [] time then refreshCache (fun _ => time) [] else do
        let result ← Bridge.GETRequest (fun _ => time) [i]
        Bridge.atCaches (fun _ => time) fun env => APICache.takeOver env [i] result) checked := by
    conv_lhs => rw [refreshCache, result_bind, found]
  rw [ran]
  cases b.caches.staleAt [] time with
  | true => exact asksFirst_fetch (fun _ => time) [] checked
  | false => exact asksFirst_fetch (fun _ => time) [i] checked

/-- So does a query that has to refresh the list. -/
theorem asksFirst_getValue (i : ℕ) (b : Bridge) (stale : b.caches.staleAt [i] time = true) :
    AsksFirst b (result (getCacheValue (fun _ => time) [i]) b).2
      (b.commands (if b.caches.staleAt [] time then [] else [i]))
      (if b.caches.staleAt [] time then "" else "/" ++ cachePath [i]) := by
  let checked : Bridge := { b with caches := b.caches.checked [i] }
  have ran : result (getCacheValue (fun _ => time) [i]) b =
      result (refreshCache (fun _ => time) [i] >>= fun _ =>
        atCaches (fun _ => time) fun env => APICache.cachedValue env [i]) checked := by
    rw [getCacheValue, result_bind, result_atCaches_needsRefresh, stale]
    rfl
  have same : checked.caches.staleAt [] time = b.caches.staleAt [] time :=
    Caches.checked_staleAt (by simp) time
  have asks := asksFirst_refresh time i checked
  rw [same] at asks
  obtain ⟨later, e, log, asked⟩ := asks
  refine ⟨later, e, ?_, asked⟩
  rw [ran, exchanges_bind_atCaches, log]

/-- The copies are the same again, and calls have been added at most. -/
def Continues (b final : Bridge) : Prop :=
  final.Consistent ∧ ∃ more, final.exchanges = more ++ b.exchanges

theorem Continues.trans {between final : Bridge} (first : Continues b between)
    (second : Continues between final) : Continues b final := by
  obtain ⟨-, more, log⟩ := first
  obtain ⟨consistent, more', log'⟩ := second
  exact ⟨consistent, more' ++ more, by rw [log', log, List.append_assoc]⟩

theorem continues_run (clock : ℕ → ℤ) (consistent : b.Consistent) (steps : List Step) :
    Continues b ((system clock).run b steps) := by
  induction steps generalizing b with
  | nil => exact ⟨consistent, [], rfl⟩
  | cons step steps ih =>
      obtain ⟨kept, more, log, -⟩ := step_recorded clock consistent step
      have first : Continues b (step.run clock b) := ⟨kept, more, log⟩
      exact first.trans (ih kept)

theorem continues_composes {α : Type} {clock : ℕ → ℤ} {x : BridgeM α}
    (composes : (system clock).Composes x) (consistent : b.Consistent) :
    Continues b (result x b).2 := by
  obtain ⟨steps, ran⟩ := composes b
  rw [ran]
  exact continues_run clock consistent steps

theorem continues_query (consistent : b.Consistent) (query : Query) :
    Continues b (query.run (fun _ => time) b) := by
  obtain ⟨α, x, composes, ran⟩ := composes_query (fun _ => time) query
  rw [ran]
  exact continues_composes composes consistent

theorem continues_queries (consistent : b.Consistent) (queries : List (ℕ × Query)) :
    Continues b (querySystem.run b queries) := by
  induction queries generalizing b with
  | nil => exact ⟨consistent, [], rfl⟩
  | cons query queries ih =>
      have first : Continues b (querySystem.step b query) := continues_query consistent query.2
      exact first.trans (ih first.1)

/-- After equally many calls, the two have asked for different things. -/
def Diverged (c : Connection) (a b : Bridge) : Prop :=
  ∃ later later' e e' new new', a.exchanges = later ++ e :: (new ++ c.before) ∧
    b.exchanges = later' ++ e' :: (new' ++ c.before') ∧ new.length = new'.length ∧
    e.uri ≠ e'.uri

theorem Diverged.continues {final final' : Bridge} (diverged : Diverged c a b)
    (first : Continues a final) (second : Continues b final') : Diverged c final final' := by
  obtain ⟨later, later', e, e', new, new', log, log', counted, differ⟩ := diverged
  obtain ⟨-, more, grown⟩ := first
  obtain ⟨-, more', grown'⟩ := second
  refine ⟨more ++ later, more' ++ later', e, e', new, new', ?_, ?_, counted, differ⟩
  · rw [grown, log, List.append_assoc]
  · rw [grown', log', List.append_assoc]

/-- What was called once cannot be undone. -/
theorem Diverged.not_same (diverged : Diverged c a b) :
    ¬ SameCalls c.before c.before' a b := by
  obtain ⟨later, later', e, e', new, new', log, log', counted, differ⟩ := diverged
  rintro ⟨all, all', called, called', same⟩
  have joined : all ++ c.before = later ++ e :: new ++ c.before := by
    rw [← called, log, List.append_assoc, List.cons_append]
  have joined' : all' ++ c.before' = later' ++ e' :: new' ++ c.before' := by
    rw [← called', log', List.append_assoc, List.cons_append]
  rw [List.append_cancel_right joined, List.append_cancel_right joined', List.map_append,
    List.map_append, List.map_cons, List.map_cons] at same
  obtain ⟨-, asked⟩ := List.append_inj' same (by simp [counted])
  have uri := congrArg (fun asked => asked.2.1) (List.cons.inj asked).1
  exact differ uri

theorem AsksFirst.continues {final final' : Bridge} {commands : HueCommandAPI} {path : String}
    (asks : AsksFirst b final commands path) (goesOn : Continues final final') :
    AsksFirst b final' commands path := by
  obtain ⟨later, e, log, asked⟩ := asks
  obtain ⟨-, more, grown⟩ := goesOn
  exact ⟨more ++ later, e, by rw [grown, log, List.append_assoc], asked⟩

theorem continues_bind {α β : Type} {x : BridgeM α} {f : α → BridgeM β}
    {clock : ℕ → ℤ} (consistent : (result x b).2.Consistent)
    (composes : ∀ value, (system clock).Composes (f value)) :
    Continues (result x b).2 (result (x >>= f) b).2 := by
  rw [result_bind]
  cases ran : result x b with
  | mk outcome t =>
      rw [ran] at consistent
      cases outcome with
      | error e => exact ⟨consistent, [], rfl⟩
      | ok value => exact continues_composes (composes value) consistent

theorem combinedPath_ne (commands commands' : HueCommandAPI)
    (same : commands.username = commands'.username) (path : String) :
    commands.combinedPath ("/" ++ path) ≠ commands'.combinedPath "" := by
  intro equal
  have list : commands.combinedPath ("/" ++ path) =
      "/api/" ++ commands.username ++ ("/" ++ path) := by
    simp [HueCommandAPI.combinedPath]
  have whole : commands'.combinedPath "" = "/api/" ++ commands'.username := rfl
  rw [list, whole, same] at equal
  have lengths := congrArg String.length equal
  simp at lengths

/-- If only the second bridge finds its whole state outdated, they part with the first call. -/
theorem diverged_of_asks (twin : c.Twin a b) (i : ℕ) {final final' : Bridge}
    (first : AsksFirst a final (a.commands [i]) ("/" ++ cachePath [i]))
    (second : AsksFirst b final' (b.commands []) "") : Diverged c final final' := by
  obtain ⟨later, e, log, asked⟩ := first
  obtain ⟨later', e', log', asked'⟩ := second
  obtain ⟨new, new', called, called', same⟩ := twin.calls
  refine ⟨later, later', e, e', new, new', by rw [log, called], by rw [log', called'], ?_, ?_⟩
  · simpa using congrArg List.length same
  · rw [asked, asked', twin.commands, twin.commands']
    exact combinedPath_ne c.commands c.commands' rfl (cachePath [i])

/-- An outdated list with the same refresh duration as the whole state means that this is
outdated too. -/
theorem staleAt_root_of_list (twin : c.Twin a b) {i : ℕ}
    (stale : b.caches.staleAt [i] time = true) : b.caches.staleAt [] time = true := by
  have set := twin.caches.set
  rw [← twin.caches.last] at set
  have older : b.caches.lastRefresh [] ≤ b.caches.lastRefresh [i] := le_max_right _ _
  have root : b.caches.lastRefresh [] = (b.caches.cache []).lastRefresh := rfl
  simp only [Caches.staleAt, twin.caches.duration, Bool.or_eq_true, Bool.and_eq_true,
    decide_eq_true_eq] at stale ⊢
  omega

theorem diverged_query (twin : c.Twin a b) (consistent : a.Consistent)
    (consistent' : b.Consistent) (nonneg : 0 ≤ time) {query : Query}
    (parts : ¬ query.Fits time b) :
    Diverged c (query.run (fun _ => time) a) (query.run (fun _ => time) b) := by
  have fresh (fetched : (b.caches.cache []).lastRefresh ≠ 0) :
      a.caches.staleAt [] time = false := by
    rw [← Bool.not_eq_true, twin.caches.staleAt_root, ← twin.caches.last]
    exact fetched
  cases query_shape nonneg query with
  | whole fits _ => exact absurd (fits b) parts
  | refreshes part condition ran =>
      obtain ⟨i, child⟩ := stateCache_eq part
      rw [condition, Classical.not_imp] at parts
      obtain ⟨outdated, fetched⟩ := parts
      have first := asksFirst_refresh time i a
      have second := asksFirst_refresh time i b
      rw [fresh fetched] at first
      rw [outdated] at second
      rw [ran, ran, child]
      exact diverged_of_asks twin i first second
  | looks part next composes _ condition ran =>
      obtain ⟨i, child⟩ := stateCache_eq part
      rw [condition, Classical.not_imp, child] at parts
      obtain ⟨stale, fetched⟩ := parts
      have first := asksFirst_getValue i a (by rwa [← twin.caches.staleAt_child])
      have second := asksFirst_getValue i b stale
      rw [fresh fetched] at first
      rw [staleAt_root_of_list twin stale] at second
      have goesOn {b : Bridge} (consistent : b.Consistent) :
          Continues (result (getCacheValue (fun _ => time) [i]) b).2
            (result (getCacheValue (fun _ => time) [i] >>= next) b).2 :=
        continues_bind (continues_composes (composes_getCacheValue [i]) consistent).1 composes
      rw [ran, ran, child]
      exact diverged_of_asks twin i (first.continues (goesOn consistent))
        (second.continues (goesOn consistent'))

/-- The runs make the same calls exactly as long as the queries fit. -/
theorem same_calls_iff (twin : c.Twin a b) (consistent : a.Consistent)
    (consistent' : b.Consistent) (queries : List (ℕ × Query)) :
    SameCalls c.before c.before' (querySystem.run a queries) (querySystem.run b queries) ↔
      querySystem.Each (fun b query _ => query.2.Fits query.1 b) b queries := by
  induction queries generalizing a b with
  | nil => exact iff_of_true twin.calls trivial
  | cons query queries ih =>
      have nonneg : (0 : ℤ) ≤ query.1 := Int.natCast_nonneg query.1
      have first : Continues a (querySystem.step a query) := continues_query consistent query.2
      have second : Continues b (querySystem.step b query) := continues_query consistent' query.2
      change SameCalls _ _ (querySystem.run (querySystem.step a query) queries)
        (querySystem.run (querySystem.step b query) queries) ↔ query.2.Fits query.1 b ∧
          querySystem.Each _ (querySystem.step b query) queries
      by_cases fits : query.2.Fits query.1 b
      · rw [and_iff_right fits]
        exact ih (twin_query nonneg twin fits) first.1 second.1
      · have parted : Diverged c (querySystem.step a query) (querySystem.step b query) :=
          diverged_query twin consistent consistent' nonneg fits
        have ended := parted.continues (continues_queries first.1 queries)
          (continues_queries second.1 queries)
        exact iff_of_false ended.not_same fun each => fits each.1

/-- The calls up to now do not matter for what comes. -/
theorem Twin.restart (twin : c.Twin a b) :
    ∃ c' : Connection, c'.before = a.exchanges ∧ c'.before' = b.exchanges ∧ c'.Twin a b := by
  obtain ⟨new, new', log, log', same⟩ := twin.calls
  have counted : new.length = new'.length := by simpa using congrArg List.length same
  have replies (i : ℕ) : c.handler.getJson (a.exchanges.length + i) =
      c.handler'.getJson (b.exchanges.length + i) := by
    have replied := c.replies (new.length + i)
    rw [log, log', List.length_append, List.length_append]
    convert replied using 2 <;> omega
  exact ⟨{ c with before := a.exchanges, before' := b.exchanges, replies }, rfl, rfl,
    twin.caches, twin.commands, twin.commands', twin.lightFactory, twin.lightFactory',
    twin.refreshDuration, twin.sharedState, [], [], rfl, rfl, rfl⟩

end Connection

namespace Bridge

open Connection

/-- The two ways, up to the refresh. -/
theorem twin_connect (ip : String) (port : ℤ) (username : String) (refreshDuration : ℤ)
    (sharedState : Bool) (handler handler' : IHttpHandler) (clientkey clientkey' : String)
    (calls : List Exchange)
    (replies : ∀ i, handler.getJson i = handler'.getJson (calls.length + i)) :
    let c : Connection := ⟨ip, port, username, refreshDuration, handler, handler', [], calls,
      fun i => by rw [← replies, List.length_nil, Nat.zero_add]⟩
    let obtained : Bridge := { Bridge.new ip port "" handler' clientkey' refreshDuration sharedState
      with username, exchanges := calls }
    c.Twin (Bridge.new ip port username handler clientkey refreshDuration sharedState)
      (obtained.rebuilt handler') := by
  intro c obtained
  refine ⟨⟨?_, ?_, ?_, rfl, fun _ _ => rfl, le_rfl⟩, fun _ => rfl, fun _ => rfl, rfl, rfl, rfl, rfl,
    ⟨[], [], rfl, rfl, rfl⟩⟩
  all_goals
    intro id
    cases id <;> rfl

/-- The bridge that is constructed without a username, once it has obtained one, differs from
the other in the refresh duration of the whole state. -/
theorem twin_connected (ip : String) (port : ℤ) (username clientkey clientkey' : String)
    (handler handler' : IHttpHandler) (refreshDuration : ℤ) (sharedState : Bool)
    (start rounds : ℕ) :
    let a := (result (Bridge.refresh fun _ => (start : ℤ))
      (Bridge.new ip port username handler clientkey refreshDuration sharedState)).2
    let b := (result (requestUsername (fun _ => (start : ℤ)) rounds)
      (Bridge.new ip port "" handler' clientkey' refreshDuration sharedState)).2
    ∀ e ∈ b.exchanges, e.GrantsUsername username →
      (∀ i, handler.getJson i = handler'.getJson (e.number + 1 + i)) →
        ∃ c : Connection, c.before = a.exchanges ∧ c.before' = b.exchanges ∧ c.Twin a b := by
  intro a b e member grants replies
  let empty := Bridge.new ip port "" handler' clientkey' refreshDuration sharedState
  obtain ⟨new, log, stores⟩ := requestUsername_granted (fun _ => (start : ℤ)) empty rounds
  have logged : b.exchanges = new := log.trans (List.append_nil new)
  rw [logged] at member
  obtain ⟨calls, rfl, answer, -, -, stored⟩ := stores e member username grants
  let call := usernameCall { empty with exchanges := calls }
  obtain ⟨key, refreshed⟩ := storeCredentials_refreshes (fun _ => (start : ℤ))
    { empty with exchanges := call :: calls } username
    (Utils.safeGetMember answer 0 ["success", "clientkey"])
  have twin := twin_connect ip port username refreshDuration sharedState handler handler'
    clientkey clientkey' (call :: calls) replies
  have after := (alike_refresh_root (Int.natCast_nonneg start) _ _ twin).state
  obtain ⟨c, before, before', linked⟩ := after.restart
  have final : b = { (result (refreshCache (fun _ => (start : ℤ)) []) _).2 with
      clientkey := key } := stored.trans refreshed
  rw [final]
  exact ⟨c, before, before', { linked with }⟩

/-- The bridge with the username from the start and the bridge that obtains it make the same
requests for the same queries at the same times exactly as long as, once the whole state has been
fetched, no query finds its list outdated or is to refresh it while the whole state is. -/
theorem same_requests_iff (ip : String) (port : ℤ) (username clientkey clientkey' : String)
    (handler handler' : IHttpHandler) (refreshDuration : ℤ) (sharedState : Bool)
    (start rounds : ℕ) (queries : List (ℕ × Query)) :
    let a := (result (Bridge.refresh fun _ => (start : ℤ))
      (Bridge.new ip port username handler clientkey refreshDuration sharedState)).2
    let b := (result (requestUsername (fun _ => (start : ℤ)) rounds)
      (Bridge.new ip port "" handler' clientkey' refreshDuration sharedState)).2
    ∀ e ∈ b.exchanges, e.GrantsUsername username →
      (∀ i, handler.getJson i = handler'.getJson (e.number + 1 + i)) →
        (SameCalls a.exchanges b.exchanges (querySystem.run a queries)
            (querySystem.run b queries) ↔
          querySystem.Each (fun b query _ => query.2.Fits query.1 b) b queries) := by
  intro a b e member grants replies
  obtain ⟨c, before, before', twin⟩ := twin_connected ip port username clientkey clientkey'
    handler handler' refreshDuration sharedState start rounds e member grants replies
  have first : a.Consistent := (continues_composes (composes_refreshCache [])
    (consistent_new ip port username handler clientkey refreshDuration sharedState)).1
  have second : b.Consistent := (talks_requestUsername _ rounds
    (consistent_new ip port "" handler' clientkey' refreshDuration sharedState)).1
  rw [← before, ← before']
  exact same_calls_iff twin first second queries

/-- Within ten seconds of the connection, the lists are looked at without requests on both. -/
theorem same_requests_iff_soon :
    let granting : IHttpHandler :=
      { getJson := fun _ _ _ _ _ => .ok (.obj [("lights", .obj [])])
        putJson := fun _ _ _ _ _ => .ok .null
        postJson := fun _ _ _ _ _ =>
          .ok (.arr [.obj [("success", .obj [("username", .str "user")])]])
        deleteJson := fun _ _ _ _ _ => .ok .null }
    let a := (result (Bridge.refresh fun _ => ((1000000000 : ℕ) : ℤ))
      (Bridge.new "192.168.2.1" 80 "user" granting "" 10000000000 false)).2
    let b := (result (requestUsername (fun _ => ((1000000000 : ℕ) : ℤ)) 35)
      (Bridge.new "192.168.2.1" 80 "" granting "" 10000000000 false)).2
    let queries : List (ℕ × Query) :=
      [(2000000000, .existsResource .lights (by decide) (1 : ℤ)), (15000000000, .refresh)]
    SameCalls a.exchanges b.exchanges (querySystem.run a queries) (querySystem.run b queries) := by
  intro granting a b queries
  let empty := Bridge.new "192.168.2.1" 80 "" granting "" 10000000000 false
  have log : b.exchanges.getLast? =
      some (empty.call granting .post "/api" usernameRequest empty.ip empty.port) := by rfl
  refine (same_requests_iff "192.168.2.1" 80 "user" "" "" granting granting 10000000000 false
    1000000000 35 queries _ (List.mem_of_getLast? log) ⟨rfl, _, rfl, by decide⟩
    fun _ => rfl).mpr ⟨?_, trivial, trivial⟩
  intro stale
  exact absurd stale (by decide)

/-- After twenty seconds, the first bridge asks for the lights. The second, which has obtained the
same username, asks for everything. -/
theorem everything_requested :
    let granting : IHttpHandler :=
      { getJson := fun _ _ _ _ _ => .ok (.obj [("lights", .obj [])])
        putJson := fun _ _ _ _ _ => .ok .null
        postJson := fun _ _ _ _ _ =>
          .ok (.arr [.obj [("success", .obj [("username", .str "user")])]])
        deleteJson := fun _ _ _ _ _ => .ok .null }
    let a := (result (Bridge.refresh fun _ => ((1000000000 : ℕ) : ℤ))
      (Bridge.new "192.168.2.1" 80 "user" granting "" 10000000000 false)).2
    let b := (result (requestUsername (fun _ => ((1000000000 : ℕ) : ℤ)) 35)
      (Bridge.new "192.168.2.1" 80 "" granting "" 10000000000 false)).2
    let queries : List (ℕ × Query) := [(20000000000, .existsResource .lights (by decide) (1 : ℤ))]
    (∃ e ∈ b.exchanges, e.GrantsUsername "user") ∧
      ¬ SameCalls a.exchanges b.exchanges (querySystem.run a queries)
        (querySystem.run b queries) := by
  intro granting a b queries
  let empty := Bridge.new "192.168.2.1" 80 "" granting "" 10000000000 false
  have log : b.exchanges.getLast? =
      some (empty.call granting .post "/api" usernameRequest empty.ip empty.port) := by rfl
  refine ⟨⟨_, List.mem_of_getLast? log, rfl, _, rfl, by decide⟩, ?_⟩
  rintro ⟨new, new', called, called', same⟩
  have first : (querySystem.run a queries).exchanges.map Exchange.uri =
      ["/api/user/lights"] ++ a.exchanges.map Exchange.uri := by decide +kernel
  have second : (querySystem.run b queries).exchanges.map Exchange.uri =
      ["/api/user"] ++ b.exchanges.map Exchange.uri := by rfl
  rw [called, List.map_append] at first
  rw [called', List.map_append] at second
  have uris : new.map Exchange.uri = new'.map Exchange.uri := by
    have asked := congrArg (List.map fun asked => asked.2.1) same
    rwa [List.map_map, List.map_map] at asked
  rw [List.append_cancel_right first, List.append_cancel_right second] at uris
  exact absurd uris (by decide)

end Bridge

end Hueplusplus
