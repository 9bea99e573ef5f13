import Hueplusplus.APICache.Answers
import Hueplusplus.Resources.Setters

/-!
# Attributes that several programs set

A setter PUTs one attribute of a resource and forces a refresh of the resource's cache. Other
programs and the bridge itself change attributes too, and every request may fail. What the bridge
has is a parameter. It is assumed that a PUT that is acknowledged is taken over and that a GET
that succeeds returns what the bridge has. Then an attribute that was set is shown from the next
refresh on that returns, which is the one that the setter ends with unless that fails, until the
attribute is changed at the bridge.
-/

namespace Hueplusplus

open Effect APICache Caches

/-- Setters of one class of resources. -/
structure AttributeSetters (γ : Type) where
  state : CacheId
  path : String
  /-- The attribute a call sets. -/
  key : γ → String
  /-- The JSON it is sent as, which can fail to be made. -/
  value : γ → Except Exception Json
  run : CacheEnv → γ → CacheM Unit
  spec : ∀ env call, run env call = ofExcept (value call) >>= fun value =>
    PUTRequest env path (.obj [(key call, value)]) >>= fun _ => APICache.refresh env state

/-- A call of a setter, or of a member function on any cache of the tree. -/
inductive AttributeEvent (γ : Type) where
  | call (call : γ)
  | cache (call : CacheCall)

namespace AttributeEvent

variable {γ : Type} (env : CacheEnv) (run : γ → CacheM Unit)

def step (s : Caches) : AttributeEvent γ → Caches
  | .call setter => (result (run setter) s).2
  | .cache cacheCall => cacheCall.run env s

/-- Calls in any order, which end in any way. -/
def system : System Caches (AttributeEvent γ) where
  init _ := True
  admissible _ _ := True
  step := step env run

variable {env run} {has : ℕ → Json} {place : List String} {value : Json}

theorem keeps_PUTRequest (path : String) (request : Json) :
    Within (Keeps has place value) (PUTRequest env path request) :=
  fun _ => keeps_failed

/-- If the setters do not cease to show a value, no run does. -/
theorem keeps_run (answers : Answers env has) (ticks : ∀ n, env.clock n ≠ 0) (nonempty : place ≠ [])
    (setters : ∀ setter, Within (Keeps has place value) (run setter)) (s : Caches)
    (events : List (AttributeEvent γ)) :
    Keeps has place value s ((system env run).run s events) := by
  induction events generalizing s with
  | nil => exact refl_of (Keeps has place value) s
  | cons event events ih =>
      have first : Keeps has place value s (step env run s event) := by
        cases event with
        | call setter => exact setters setter s
        | cache cacheCall => exact APICache.keeps_run answers ticks nonempty s cacheCall
      exact trans_of (Keeps has place value) first (ih (step env run s event))

end AttributeEvent

namespace AttributeSetters

variable {γ : Type} (setters : AttributeSetters γ) (env : CacheEnv)

/-- Where the bridge has the attribute of a call. -/
def place (call : γ) : List String := env.keys setters.state ++ [setters.key call]

/-- Runs of these setters and of the functions of the caches. -/
abbrev system : System Caches (AttributeEvent γ) := AttributeEvent.system env (setters.run env)

/-- The PUT request of the call is acknowledged. -/
def Acknowledged (s : Caches) (call : γ) : Prop :=
  ∃ value reply, setters.value call = .ok value ∧
    (env.commands s.requests).putRequest setters.path (.obj [(setters.key call, value)]) = .ok reply

/-- The setter has returned, or the refresh at its end has failed and a later one returned. -/
inductive Fetched (s : Caches) (call : γ) (t : Caches) : Prop where
  | returned : Returns (setters.run env call) s ⟨⟩ t → Fetched s call t
  | later (between : List (AttributeEvent γ)) : setters.Acknowledged env s call →
    Returns (APICache.refresh env setters.state)
      ((setters.system env).run s (.call call :: between)) ⟨⟩ t →
    Fetched s call t

/-- The assumptions about the bridge that has this after each request. The cache is a root or on
one, and no reading of the clock is its epoch. -/
structure Served (has : ℕ → Json) : Prop where
  level : setters.state.length ≤ 1
  ticks : ∀ n, env.clock n ≠ 0
  answers : Answers env has
  takes : ∀ n call value reply, setters.value call = .ok value →
    (env.commands n).putRequest setters.path (.obj [(setters.key call, value)]) = .ok reply →
    (has n).follow (setters.place env call) = some value

section Runs

variable {setters : AttributeSetters γ} {env : CacheEnv} {has : ℕ → Json}

theorem returns_run {call : γ} {s t : Caches} (returned : Returns (setters.run env call) s ⟨⟩ t) :
    setters.Acknowledged env s call ∧
      Returns (APICache.refresh env setters.state) s.failed ⟨⟩ t := by
  rw [setters.spec] at returned
  obtain ⟨value, u, first, sent⟩ := returns_bind.mp returned
  obtain ⟨made, rfl⟩ := returns_ofExcept.mp first
  obtain ⟨reply, v, put, refreshed⟩ := returns_bind.mp sent
  obtain ⟨acknowledged, rfl⟩ := Prod.mk.inj (show (_, s.failed) = _ from put)
  exact ⟨⟨value, reply, made, acknowledged⟩, refreshed⟩

theorem Served.keeps_run (served : setters.Served env has) {place : List String} {value : Json}
    (nonempty : place ≠ []) (s : Caches) (events : List (AttributeEvent γ)) :
    Keeps has place value s ((setters.system env).run s events) := by
  refine AttributeEvent.keeps_run served.answers served.ticks nonempty (fun call => ?_) s events
  rw [setters.spec]
  refine (within_ofExcept _).bind fun _ => (AttributeEvent.keeps_PUTRequest _ _).bind fun _ => ?_
  exact keeps_refresh served.answers served.ticks nonempty _

/-- The fetch begins after the PUT request. -/
theorem Served.refreshed (served : setters.Served env has) {call : γ} {s t : Caches}
    (fetched : setters.Fetched env s call t) :
    setters.Acknowledged env s call ∧ ∃ u, s.requests ≤ u.requests ∧
      Returns (APICache.refresh env setters.state) u ⟨⟩ t := by
  cases fetched with
  | returned ran =>
      obtain ⟨acknowledged, refreshed⟩ := returns_run ran
      exact ⟨acknowledged, s.failed, Nat.le_succ _, refreshed⟩
  | later between acknowledged refreshed =>
      refine ⟨acknowledged, _, ?_, refreshed⟩
      have nonempty : setters.place env call ≠ [] := by simp [place]
      have keeps : Keeps has (setters.place env call) .null s _ :=
        served.keeps_run nonempty s (.call call :: between)
      exact keeps.requests

/-- An attribute that was set is shown from the next refresh on that returns until it is changed
at the bridge. -/
theorem shown_until_changed (served : setters.Served env has) {call : γ} {s t : Caches}
    (fetched : setters.Fetched env s call t) {events : List (AttributeEvent γ)}
    (unchanged : ∀ n, s.requests < n → n < ((setters.system env).run t events).requests →
      (has n).follow (setters.place env call) = (has s.requests).follow (setters.place env call)) :
    ∃ value json, setters.value call = .ok value ∧
      constGetValue env ((setters.system env).run t events) setters.state = .ok json ∧
      json.find? (setters.key call) = some value := by
  obtain ⟨⟨value, reply, made, put⟩, u, begins, refreshed⟩ := served.refreshed fetched
  have taken := served.takes s.requests call value reply made put
  have lasts : Lasts has (setters.place env call) value s.requests
      ((setters.system env).run t events).requests := by
    intro n after before
    rcases Nat.eq_or_lt_of_le after with rfl | after
    · exact taken
    · exact (unchanged n after before).trans taken
  have nonempty : setters.place env call ≠ [] := by simp [place]
  have refreshes : Keeps has (setters.place env call) value u _ :=
    keeps_refresh served.answers served.ticks nonempty setters.state u
  rw [show result (APICache.refresh env setters.state) u = _ from refreshed] at refreshes
  have keeps : Keeps has (setters.place env call) value t _ := served.keeps_run nonempty t events
  have shows : Shows (setters.place env call) value t :=
    shows_of_refresh served.answers served.ticks served.level refreshed
      (lasts.sub begins keeps.requests)
  obtain ⟨json, cached, found⟩ :=
    (keeps.shows (lasts.sub (begins.trans refreshes.requests) le_rfl) shows).constGetValue
  exact ⟨value, json, made, cached, (Json.follow_singleton _ _).symm.trans found⟩

end Runs

end AttributeSetters

end Hueplusplus
