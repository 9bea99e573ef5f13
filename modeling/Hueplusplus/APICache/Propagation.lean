import Hueplusplus.APICache.Freshness
import Hueplusplus.APICache.Requests

/-!
# How far down a refresh of the root is seen

A check brings the time of refresh of its cache up to date from the direct base only. So a
refresh of the root counts at once for the caches on it, but further below it counts only
where the levels between have been checked since, one after the other. The time noted in a
cache is that of the latest refresh which has come down to it in this way.
-/

namespace Hueplusplus

namespace APICache

open Effect Caches

variable {env : CacheEnv}

@[simp] theorem refresh_requests (id : CacheId) (s : Caches) :
    (result (refresh env id) s).2.requests = s.requests + 1 := by
  induction id generalizing s with
  | nil =>
      rw [result_refresh_root]
      cases reply env s [] <;> rfl
  | cons i base ih =>
      rw [result_refresh_child]
      split
      · exact ih (s.checked base)
      · cases reply env (s.checked base) (i :: base) with
        | error e => rfl
        | ok json =>
            simp only
            split <;> rfl

/-- `getValue` makes a request exactly if the cache is stale. -/
theorem getValue_requests_iff (id : CacheId) (s : Caches) :
    ((CacheCall.getValue id).run env s).requests = s.requests ↔
      s.staleAt id (env.clock s.readings) = false := by
  change (result (getValue env id) s).2.requests = s.requests ↔ _
  cases stale : s.staleAt id (env.clock s.readings) with
  | true =>
      rw [result_getValue_of_stale stale, thenCached_requests, refresh_requests]
      exact iff_of_false (Nat.succ_ne_self _) (by simp)
  | false =>
      rw [result_getValue, stale, if_neg Bool.false_ne_true, cachedValue_state]
      exact iff_of_true rfl rfl

theorem staleAt_eq_false_iff {s : Caches} {id : CacheId} {time : ℤ} :
    s.staleAt id time = false ↔ s.lastRefresh id ≠ 0 ∧ 0 ≤ (s.cache id).refreshDuration ∧
      (time < s.lastRefresh id + (s.cache id).refreshDuration ∨
        durationMax ≤ s.lastRefresh id + (s.cache id).refreshDuration) := by
  simp only [staleAt, Bool.or_eq_false_iff, Bool.and_eq_false_iff, decide_eq_false_iff_not]
  constructor
  · rintro ⟨⟨set, nonneg⟩, fresh⟩
    refine ⟨set, not_lt.mp nonneg, ?_⟩
    omega
  · rintro ⟨set, nonneg, fresh⟩
    refine ⟨⟨set, not_lt.mpr nonneg⟩, ?_⟩
    omega

end APICache

/-- The levels below `top` were checked one after the other, down to the cache. The latest event
comes first. -/
inductive CheckedDown : List CacheEvent → CacheId → CacheId → Prop where
  | here (events : List CacheEvent) (top : CacheId) : CheckedDown events top top
  | next (later : List CacheEvent) {earlier : List CacheEvent} {top base : CacheId} {i : ℕ} :
    CheckedDown earlier top base →
    CheckedDown (later ++ .checked (i :: base) :: earlier) top (i :: base)

namespace CacheEvent

/-- After the event, the cache has this time of refresh. -/
def Dates (id : CacheId) (time : ℤ) : CacheEvent → Prop
  | .constructed t => t = time
  | .checked _ => False
  | .refreshed top t => top = id ∧ t = time

end CacheEvent

/-- Among these events a cache was given this time of refresh, and the levels below it were
checked down to `id` after that. -/
def Heard (events : List CacheEvent) (id : CacheId) (time : ℤ) : Prop :=
  ∃ later event earlier top, events = later ++ event :: earlier ∧ event.Dates top time ∧
    CheckedDown later top id

section Heard

variable {events : List CacheEvent} {event : CacheEvent} {id top : CacheId} {time : ℤ}

@[simp] theorem checkedDown_nil_iff : CheckedDown [] top id ↔ top = id := by
  constructor
  · intro down
    generalize nothing : ([] : List CacheEvent) = events at down
    cases down with
    | here => rfl
    | next later => simp at nothing
  · rintro rfl
    exact .here [] _

/-- One more event is a check of the last level, or it does not matter. -/
theorem checkedDown_cons_iff : CheckedDown (event :: events) top id ↔ CheckedDown events top id ∨
    ∃ i base, id = i :: base ∧ event = .checked id ∧ CheckedDown events top base := by
  constructor
  · intro down
    generalize joined : event :: events = all at down
    cases down with
    | here => exact .inl (.here events _)
    | @next later earlier _ base i down =>
        cases later with
        | nil =>
            obtain ⟨rfl, rfl⟩ := List.cons.inj joined
            exact .inr ⟨i, base, rfl, rfl, down⟩
        | cons first later =>
            obtain ⟨rfl, rfl⟩ := List.cons.inj joined
            exact .inl (.next later down)
  · rintro (down | ⟨i, base, rfl, rfl, down⟩)
    · cases down with
      | here => exact .here _ _
      | next later down => exact .next (event :: later) down
    · exact .next [] down

/-- What is heard after one more event. -/
theorem heard_cons_iff : Heard (event :: events) id time ↔ event.Dates id time ∨
    Heard events id time ∨
      ∃ i base, id = i :: base ∧ event = .checked id ∧ Heard events base time := by
  constructor
  · rintro ⟨later, dating, earlier, top, joined, dates, down⟩
    cases later with
    | nil =>
        obtain ⟨rfl, rfl⟩ := List.cons.inj joined
        rw [checkedDown_nil_iff] at down
        exact .inl (down ▸ dates)
    | cons first later =>
        obtain ⟨rfl, rfl⟩ := List.cons.inj joined
        right
        rcases checkedDown_cons_iff.mp down with own | ⟨i, base, rfl, rfl, above⟩
        · exact .inl ⟨later, dating, earlier, top, rfl, dates, own⟩
        · exact .inr ⟨i, base, rfl, rfl, later, dating, earlier, top, rfl, dates, above⟩
  · rintro (dates | ⟨later, dating, earlier, top, rfl, dates, down⟩ |
      ⟨i, base, rfl, rfl, later, dating, earlier, top, rfl, dates, down⟩)
    · exact ⟨[], event, events, id, rfl, dates, .here [] id⟩
    · exact ⟨event :: later, dating, earlier, top, rfl, dates, checkedDown_cons_iff.mpr (.inl down)⟩
    · exact ⟨.checked (i :: base) :: later, dating, earlier, top, rfl, dates, .next [] down⟩

theorem heard_of_dates (member : event ∈ events) (dates : event.Dates id time) :
    Heard events id time := by
  obtain ⟨later, earlier, rfl⟩ := List.append_of_mem member
  exact ⟨later, event, earlier, id, rfl, dates, .here later id⟩

theorem Heard.append (heard : Heard events id time) (before : List CacheEvent) :
    Heard (events ++ before) id time := by
  obtain ⟨later, dating, earlier, top, rfl, dates, down⟩ := heard
  exact ⟨later, dating, earlier ++ before, top, by simp, dates, down⟩

/-- The root and the caches on it hear of a refresh of the root as soon as they are checked. -/
theorem heard_of_length_le (level : id.length ≤ 1) (since : List CacheEvent) :
    Heard (.checked id :: (since ++ [.refreshed [] time])) id time := by
  have root : Heard (since ++ [.refreshed [] time]) [] time :=
    ⟨since, .refreshed [] time, [], [], rfl, ⟨rfl, rfl⟩, .here since []⟩
  match id with
  | [] => exact heard_cons_iff.mpr (.inr (.inl root))
  | [i] => exact heard_cons_iff.mpr (.inr (.inr ⟨i, [], rfl, rfl, root⟩))

end Heard

namespace APICache

open Effect Caches

variable {env : CacheEnv}

/-- The time of refresh of every cache is the latest that it has heard of. -/
def Noted (s : Caches) : Prop :=
  ∀ id, ((s.cache id).lastRefresh ≠ 0 → Heard s.history id (s.cache id).lastRefresh) ∧
    ∀ time, Heard s.history id time → 0 < time ∧ time ≤ (s.cache id).lastRefresh

/-- The times of the events do not go back. -/
def Ordered (s : Caches) : Prop :=
  s.history.Pairwise fun later earlier => ∀ id time id' time', later.Dates id time →
    earlier.Dates id' time' → time' ≤ time

theorem lastRefresh_constructed {s : Caches} (h : Constructed env s) (id : CacheId) :
    (s.cache id).lastRefresh = (s.cache []).lastRefresh := by
  induction id with
  | nil => rfl
  | cons i base ih => rw [(h.below i base).2, ih]

theorem noted_constructed (positive : ∀ n, 0 < env.clock n) {s : Caches}
    (h : Constructed env s) : Noted s := by
  intro id
  rw [lastRefresh_constructed h id, h.history]
  rcases h.root with ⟨_, unset, nothing⟩ | ⟨_, time, _, initial⟩
  · rw [nothing]
    refine ⟨fun set => absurd unset set, ?_⟩
    rintro time ⟨later, dating, earlier, top, none, -⟩
    simp at none
  · rw [initial, time]
    refine ⟨fun _ => heard_of_dates (List.mem_singleton_self _) rfl, fun t heard => ?_⟩
    obtain ⟨later, dating, earlier, top, one, dates, -⟩ := heard
    have member : dating ∈ [CacheEvent.constructed (env.clock 0)] := by
      have all : [CacheEvent.constructed (env.clock 0)] = later ++ dating :: earlier := one
      rw [all]
      simp
    obtain rfl := List.mem_singleton.mp member
    obtain rfl : env.clock 0 = t := dates
    exact ⟨positive 0, le_rfl⟩

theorem ordered_constructed {s : Caches} (h : Constructed env s) : Ordered s := by
  rw [Ordered, h.history]
  rcases h.root with ⟨_, _, nothing⟩ | ⟨_, _, _, initial⟩
  · rw [nothing]
    exact List.Pairwise.nil
  · rw [initial]
    exact List.pairwise_singleton _ _

/-- A check of a cache. -/
theorem Noted.checked {s : Caches} (h : Noted s) (id : CacheId) : Noted (s.checked id) := by
  intro other
  have history : (s.checked id).history = .checked id :: s.history := rfl
  rw [history, checked_lastRefresh]
  obtain ⟨sound, complete⟩ := h other
  by_cases same : other = id
  · subst same
    rw [if_pos rfl]
    cases other with
    | nil =>
        refine ⟨fun set => heard_cons_iff.mpr (.inr (.inl (sound set))), fun time heard => ?_⟩
        rcases heard_cons_iff.mp heard with dates | earlier | ⟨i, base, impossible, -⟩
        · exact dates.elim
        · exact complete time earlier
        · cases impossible
    | cons i base =>
        obtain ⟨soundBase, completeBase⟩ := h base
        constructor
        · intro set
          rw [Caches.lastRefresh] at set ⊢
          rcases max_choice (s.cache (i :: base)).lastRefresh (s.cache base).lastRefresh with
            own | inherited
          · rw [own] at set ⊢
            exact heard_cons_iff.mpr (.inr (.inl (sound set)))
          · rw [inherited] at set ⊢
            exact heard_cons_iff.mpr (.inr (.inr ⟨i, base, rfl, rfl, soundBase set⟩))
        · intro time heard
          rw [Caches.lastRefresh]
          rcases heard_cons_iff.mp heard with dates | earlier | ⟨_, _, split, -, inherited⟩
          · exact dates.elim
          · exact (complete time earlier).imp_right fun le => le.trans (le_max_left _ _)
          · obtain ⟨rfl, rfl⟩ := List.cons.inj split
            exact (completeBase time inherited).imp_right fun le => le.trans (le_max_right _ _)
  · rw [if_neg same]
    refine ⟨fun set => heard_cons_iff.mpr (.inr (.inl (sound set))), fun time heard => ?_⟩
    rcases heard_cons_iff.mp heard with dates | earlier | ⟨_, _, -, checked, -⟩
    · exact dates.elim
    · exact complete time earlier
    · exact absurd (CacheEvent.checked.inj checked).symm same

/-- What is noted of an event is in the past. -/
theorem Noted.past {s : Caches} (h : Noted s) (dated : Dated env s) {event : CacheEvent}
    (member : event ∈ s.history) {id : CacheId} {time : ℤ} (dates : event.Dates id time) :
    time ≤ env.clock s.readings :=
  ((h id).2 time (heard_of_dates member dates)).2.trans (dated.past id s.readings le_rfl)

/-- A request of a cache that returns. -/
theorem Noted.refreshed {s t : Caches} (h : Noted s) (dated : Dated env s)
    (positive : ∀ n, 0 < env.clock n) {id : CacheId}
    (history : t.history = .refreshed id (env.clock s.readings) :: s.history)
    (times : ∀ other, (t.cache other).lastRefresh =
      if other = id then env.clock s.readings else (s.cache other).lastRefresh) : Noted t := by
  intro other
  obtain ⟨sound, complete⟩ := h other
  have earlier {time : ℤ} (heard : Heard (.refreshed id (env.clock s.readings) :: s.history) other
      time) : (id = other ∧ env.clock s.readings = time) ∨ Heard s.history other time := by
    rcases heard_cons_iff.mp heard with dates | heard | ⟨_, _, -, impossible, -⟩
    · exact .inl dates
    · exact .inr heard
    · cases impossible
  rw [history, times]
  by_cases same : other = id
  · subst same
    rw [if_pos rfl]
    refine ⟨fun _ => heard_of_dates List.mem_cons_self ⟨rfl, rfl⟩, fun time heard => ?_⟩
    rcases earlier heard with ⟨-, rfl⟩ | heard
    · exact ⟨positive _, le_rfl⟩
    · exact (complete time heard).imp_right fun le => le.trans (dated.past other _ le_rfl)
  · rw [if_neg same]
    refine ⟨fun set => heard_cons_iff.mpr (.inr (.inl (sound set))), fun time heard => ?_⟩
    rcases earlier heard with ⟨rfl, -⟩ | heard
    · exact absurd rfl same
    · exact complete time heard

theorem Ordered.refreshed {s t : Caches} (h : Ordered s) (noted : Noted s) (dated : Dated env s)
    {id : CacheId} (history : t.history = .refreshed id (env.clock s.readings) :: s.history) :
    Ordered t := by
  rw [Ordered, history]
  refine List.pairwise_cons.mpr ⟨?_, h⟩
  rintro event member _ _ id' time' ⟨-, rfl⟩ dates
  exact noted.past dated member dates

theorem Ordered.checked {s : Caches} (h : Ordered s) (id : CacheId) : Ordered (s.checked id) :=
  List.pairwise_cons.mpr ⟨fun _ _ _ _ _ _ dates => dates.elim, h⟩

theorem noted_move (positive : ∀ n, 0 < env.clock n) {s t : Caches} (dated : Dated env s)
    (h : Noted s ∧ Ordered s) (move : Move env s t) : Noted t ∧ Ordered t := by
  obtain ⟨noted, ordered⟩ := h
  have arrives (id : CacheId) (json : Json) (other : CacheId) :
      ((s.arrived env id json).cache other).lastRefresh =
        if other = id then env.clock s.readings else (s.cache other).lastRefresh := by
    rw [arrived_cache]
    split <;> rfl
  cases move with
  | checked id => exact ⟨noted.checked id, ordered.checked id⟩
  | failed => exact ⟨noted, ordered⟩
  | root json =>
      refine ⟨noted.refreshed dated positive rfl fun other => ?_, ordered.refreshed noted dated rfl⟩
      rw [store_lastRefresh, arrives]
  | stored =>
      refine ⟨noted.refreshed dated positive rfl fun other => ?_, ordered.refreshed noted dated rfl⟩
      rw [store_lastRefresh, arrives]
  | dropped => exact ⟨noted.refreshed dated positive rfl (arrives _ _),
      ordered.refreshed noted dated rfl⟩
  | duration id d =>
      refine ⟨fun other => ?_, ordered⟩
      rw [duration_lastRefresh]
      exact noted other

theorem noted_invariant (monotone : env.Nondecreasing) (positive : ∀ n, 0 < env.clock n) :
    (cacheSystem env).Invariant fun s => Dated env s ∧ Noted s ∧ Ordered s := by
  apply invariant_of_moves env
  · intro s start
    exact ⟨dated_constructed monotone positive start, noted_constructed positive start,
      ordered_constructed start⟩
  · intro s t h move
    exact ⟨dated_move monotone h.1 move, noted_move positive h.1 h.2 move⟩

/-- What is heard since a refresh is not older than that. -/
theorem Ordered.le_of_heard {s : Caches} (h : Ordered s) {since before : List CacheEvent} {t : ℤ}
    (history : s.history = (since ++ [.refreshed [] t]) ++ before) {id : CacheId} {time : ℤ}
    (heard : Heard (.checked id :: (since ++ [.refreshed [] t])) id time) : t ≤ time := by
  obtain ⟨later, event, earlier, top, joined, dates, -⟩ := heard
  have member : event ∈ .checked id :: (since ++ [.refreshed [] t]) := by
    rw [joined]
    simp
  rw [Ordered, history] at h
  rcases List.mem_cons.mp member with rfl | member
  · exact dates.elim
  rcases List.mem_append.mp member with inside | last
  · have pairs := (List.pairwise_append.mp (List.pairwise_append.mp h).1).2.2
    exact pairs event inside _ (List.mem_singleton_self _) _ _ [] t dates ⟨rfl, rfl⟩
  · obtain rfl := List.mem_singleton.mp last
    exact dates.2.le

section Reaches

variable {s : Caches} {since before : List CacheEvent} {t : ℤ} {id : CacheId}

/-- What a query goes by, once it has checked its cache. -/
theorem Noted.query (h : Noted s) :
    (s.lastRefresh id ≠ 0 → Heard (.checked id :: s.history) id (s.lastRefresh id)) ∧
      ∀ time, Heard (.checked id :: s.history) id time → 0 < time ∧ time ≤ s.lastRefresh id := by
  have noted := h.checked id id
  rwa [checked_lastRefresh, if_pos rfl] at noted

theorem silent_of_heard (noted : Noted s) (ordered : Ordered s)
    (refreshed : s.history = (since ++ [.refreshed [] t]) ++ before)
    (nonneg : 0 ≤ (s.cache id).refreshDuration)
    (early : env.clock s.readings < t + (s.cache id).refreshDuration) {time : ℤ}
    (heard : Heard (.checked id :: (since ++ [.refreshed [] t])) id time) :
    ((CacheCall.getValue id).run env s).requests = s.requests := by
  have later := ordered.le_of_heard refreshed heard
  have all : Heard (.checked id :: s.history) id time := by
    rw [refreshed]
    exact heard.append before
  obtain ⟨known, noted⟩ := noted.query.2 time all
  rw [getValue_requests_iff, staleAt_eq_false_iff]
  exact ⟨(known.trans_le noted).ne', nonneg, .inl (by omega)⟩

/-- In every run, after a refresh of the root and before the end of the cache's own refresh
duration, `getValue` makes no request exactly if the cache hears of a refresh since then: that of
the root, or one of a level between or of its own, after which the levels below were checked one
after the other. Or else it has heard of an older one that is still not too old. -/
theorem refresh_reaches_iff (env : CacheEnv) (monotone : env.Nondecreasing)
    (positive : ∀ n, 0 < env.clock n) (reachable : (cacheSystem env).Reachable s)
    (refreshed : s.history = (since ++ [.refreshed [] t]) ++ before)
    (nonneg : 0 ≤ (s.cache id).refreshDuration)
    (early : env.clock s.readings < t + (s.cache id).refreshDuration) :
    ((CacheCall.getValue id).run env s).requests = s.requests ↔
      (∃ time, Heard (.checked id :: (since ++ [.refreshed [] t])) id time) ∨
      ∃ time, Heard (.checked id :: s.history) id time ∧
        (env.clock s.readings < time + (s.cache id).refreshDuration ∨
          durationMax ≤ time + (s.cache id).refreshDuration) := by
  obtain ⟨-, noted, ordered⟩ := (noted_invariant monotone positive).holds reachable
  constructor
  · rw [getValue_requests_iff, staleAt_eq_false_iff]
    rintro ⟨set, -, fresh⟩
    exact .inr ⟨_, noted.query.1 set, fresh⟩
  · rintro (⟨time, heard⟩ | ⟨time, heard, fresh⟩)
    · exact silent_of_heard noted ordered refreshed nonneg early heard
    · obtain ⟨known, latest⟩ := noted.query.2 time heard
      rw [getValue_requests_iff, staleAt_eq_false_iff]
      exact ⟨(known.trans_le latest).ne', nonneg, by omega⟩

/-- So it never makes a request at the root and at the caches on it. -/
theorem refresh_reaches_near (env : CacheEnv) (monotone : env.Nondecreasing)
    (positive : ∀ n, 0 < env.clock n) (reachable : (cacheSystem env).Reachable s)
    (refreshed : s.history = (since ++ [.refreshed [] t]) ++ before)
    (nonneg : 0 ≤ (s.cache id).refreshDuration)
    (early : env.clock s.readings < t + (s.cache id).refreshDuration) (level : id.length ≤ 1) :
    ((CacheCall.getValue id).run env s).requests = s.requests := by
  obtain ⟨-, noted, ordered⟩ := (noted_invariant monotone positive).holds reachable
  exact silent_of_heard noted ordered refreshed nonneg early (heard_of_length_le level since)

end Reaches

theorem lightCaches_nondecreasing : lightCaches.Nondecreasing := by
  intro m n before
  simp only [lightCaches]
  omega

/-- After a refresh of the root and a query of the list of lights, which checks that, the state of
a light is read without a request. -/
theorem refresh_reaches_iff_lights :
    let s := (CacheCall.getValue [0]).run lightCaches
      ((CacheCall.refresh []).run lightCaches newCaches)
    ((CacheCall.getValue [0, 0]).run lightCaches s).requests = s.requests ↔
      (∃ time, Heard (.checked [0, 0] :: ([.checked [0]] ++ [.refreshed [] 1])) [0, 0] time) ∨
      ∃ time, Heard (.checked [0, 0] :: s.history) [0, 0] time ∧
        ((3 : ℤ) < time + 1000 ∨ durationMax ≤ time + 1000) :=
  @refresh_reaches_iff _ [.checked [0]] [] 1 [0, 0] lightCaches lightCaches_nondecreasing
    lightCaches_positive
    (.step (M := cacheSystem lightCaches) (.getValue [0])
      (.step (M := cacheSystem lightCaches) (.refresh []) (.init (newCaches_constructed _)) trivial)
      trivial)
    rfl (by decide) (by decide)

/-- The state of a light is asked for anew right after a refresh of the root. -/
theorem refresh_misses_light :
    ¬ ∀ (env : CacheEnv) (s : Caches) (f : Fetch) (id : CacheId), env.Nondecreasing →
      (∀ n, 0 < env.clock n) → (cacheSystem env).Reachable s → f ∈ s.fetched → f.id = [] →
      (∀ id, 0 ≤ (s.cache id).refreshDuration) →
      env.clock s.readings < f.time + (s.cache id).refreshDuration →
      ((CacheCall.getValue id).run env s).requests = s.requests := by
  intro always
  let s := (CacheCall.refresh []).run lightCaches newCaches
  let f : Fetch := ⟨[], 1, .obj [("lights", .obj [("1", .obj [("on", .bool false)])])]⟩
  have reachable : (cacheSystem lightCaches).Reachable s :=
    .step (M := cacheSystem lightCaches) (.refresh []) (.init (newCaches_constructed _)) trivial
  have durations : ∀ id, 0 ≤ (s.cache id).refreshDuration := by
    intro id
    cases id with
    | nil => exact (by decide : (0 : ℤ) ≤ 1000)
    | cons i base => exact (by decide : (0 : ℤ) ≤ 1000)
  have silent := always lightCaches s f [0, 0] lightCaches_nondecreasing lightCaches_positive
    reachable (List.mem_singleton_self f) rfl durations (by decide)
  exact absurd silent (by decide)

end APICache

end Hueplusplus
