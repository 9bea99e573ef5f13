import Hueplusplus.APICache.Views

/-!
# Overflow of ticks

Times and durations are counted in 64 bits. `needsRefresh` asks whether the next refresh would
be later than these can count, before it computes that; the question is a subtraction itself,
which is safe for durations that are not negative. So the check gives the answer of the
unbounded integers, as long as the clock has not reached its last value.
-/

namespace Hueplusplus

open Effect

/-- A value of the 64 bits that ticks are counted in. -/
def IsTicks (n : ℤ) : Prop := -2 ^ 63 ≤ n ∧ n < 2 ^ 63

instance (n : ℤ) : Decidable (IsTicks n) := inferInstanceAs (Decidable (_ ∧ _))

/-- The result of an operation on ticks. A signed overflow has no meaning. -/
def checkTicks (n : ℤ) : Except Exception ℤ :=
  if IsTicks n then .ok n else .error .undefinedBehaviour

theorem checkTicks_of_isTicks {n : ℤ} (h : IsTicks n) : checkTicks n = .ok n := if_pos h

namespace APICache

variable (env : CacheEnv)

namespace Checked

/-- `outdated` with its operations on ticks. -/
def outdated (id : CacheId) : CacheM Bool := do
  let c := (← get).cache id
  if c.lastRefresh = 0 ∨ c.refreshDuration < 0 then return true
  else
    let rest ← Effect.ofExcept (checkTicks (durationMax - c.refreshDuration))
    if rest > c.lastRefresh then
      let nextRefresh ← Effect.ofExcept (checkTicks (c.lastRefresh + c.refreshDuration))
      return decide ((← now env) ≥ nextRefresh)
    else return false

def needsRefresh : CacheId → CacheM Bool
  | [] => do
    recordCheck []
    outdated env []
  | i :: base => do
    -- Update lastRefresh in case base was refreshed
    modify fun s => s.update (i :: base) fun c =>
      { c with lastRefresh := max c.lastRefresh (s.cache base).lastRefresh }
    recordCheck (i :: base)
    outdated env (i :: base)

end Checked

section Overflow

variable {s : Caches} {id : CacheId}

/-- Neither operation overflows. -/
theorem result_checked_outdated (duration : IsTicks (s.cache id).refreshDuration)
    (nonneg : 0 ≤ (s.cache id).lastRefresh) :
    result (Checked.outdated env id) s = result (outdated env id) s := by
  simp only [Checked.outdated, outdated, result_bind, result_get, result_ite]
  by_cases unset : (s.cache id).lastRefresh = 0 ∨ (s.cache id).refreshDuration < 0
  · rw [if_pos unset, if_pos unset]
  · have positive := not_lt.mp (not_or.mp unset).2
    have upper := duration.2
    have rest : IsTicks (durationMax - (s.cache id).refreshDuration) := by
      simp only [IsTicks, durationMax]
      omega
    rw [if_neg unset, if_neg unset, checkTicks_of_isTicks rest]
    simp only [result_ofExcept]
    by_cases fits : durationMax - (s.cache id).refreshDuration > (s.cache id).lastRefresh
    · have next : IsTicks ((s.cache id).lastRefresh + (s.cache id).refreshDuration) := by
        simp only [IsTicks, durationMax] at fits ⊢
        omega
      rw [if_pos fits, if_pos fits, checkTicks_of_isTicks next]
    · rw [if_neg fits, if_neg fits]

theorem result_checked_needsRefresh (duration : IsTicks (s.cache id).refreshDuration)
    (nonneg : 0 ≤ (s.cache id).lastRefresh) :
    result (Checked.needsRefresh env id) s = result (needsRefresh env id) s := by
  cases id with
  | nil =>
      simp only [Checked.needsRefresh, needsRefresh, recordCheck, result_bind, result_modify]
      exact result_checked_outdated env duration nonneg
  | cons i base =>
      simp only [Checked.needsRefresh, needsRefresh, recordCheck, result_bind, result_modify]
      apply result_checked_outdated
      · rwa [Caches.update_cache_self]
      · rw [Caches.update_cache_self]
        exact nonneg.trans (le_max_left _ _)

/-- Before the last value of the clock, the guard makes no difference to the comparison. -/
theorem staleAt_iff_of_lt {time : ℤ} (below : time < durationMax) :
    s.staleAt id time = true ↔ s.lastRefresh id = 0 ∨ (s.cache id).refreshDuration < 0 ∨
      s.lastRefresh id + (s.cache id).refreshDuration ≤ time := by
  simp only [Caches.staleAt, Bool.or_eq_true, Bool.and_eq_true, decide_eq_true_eq, or_assoc]
  refine or_congr_right (or_congr_right ?_)
  omega

/-- The check overflows nowhere and gives the answer of the unbounded integers; then the cache
has the later time of its own and its base's. -/
theorem needsRefresh_exact (s : Caches) (id : CacheId)
    (duration : IsTicks (s.cache id).refreshDuration) (nonneg : 0 ≤ (s.cache id).lastRefresh)
    (below : env.clock s.readings < durationMax) :
    ∃ answer t, Returns (Checked.needsRefresh env id) s answer t ∧
      (answer = true ↔ s.lastRefresh id = 0 ∨ (s.cache id).refreshDuration < 0 ∨
        s.lastRefresh id + (s.cache id).refreshDuration ≤ env.clock s.readings) ∧
      (t.cache id).lastRefresh = s.lastRefresh id := by
  refine ⟨_, s.checked id, ?_, staleAt_iff_of_lt below, ?_⟩
  · rw [Returns, result_checked_needsRefresh env duration nonneg, result_needsRefresh]
  · rw [Caches.checked_lastRefresh, if_pos rfl]

end Overflow

/-- A root that was refreshed at time 5 and never needs it again, and a cache on it. -/
def lastingCaches : Caches :=
  ⟨fun id => ⟨durationMax, if id = [] then 5 else 3, .obj []⟩, 0, 0, [], []⟩

theorem needsRefresh_exact_never :
    ∃ answer t, Returns (Checked.needsRefresh lightCaches [0]) lastingCaches answer t ∧
      (answer = true ↔ lastingCaches.lastRefresh [0] = 0 ∨ durationMax < 0 ∨
        lastingCaches.lastRefresh [0] + durationMax ≤ lightCaches.clock 0) ∧
      (t.cache [0]).lastRefresh = lastingCaches.lastRefresh [0] :=
  needsRefresh_exact lightCaches lastingCaches [0] (by decide) (by decide) (by decide)

end APICache

end Hueplusplus
