import Hueplusplus.Light.Bridge
import Hueplusplus.StateTransaction.Commit

/-!
# Implied switching

`commit` infers the `on` attribute from the rest of the request and the cached
flag, and trimming may drop it again. Both are right as long as the cache agrees
with the bridge: the flag is left out, or dropped, only if the light already has
the value.
-/

namespace Hueplusplus

/-- The bridge's light has every value that the cached state shows. -/
def Bridge.Agrees (state light : Object) : Prop :=
  ∀ key value, state.find? key = some value → light.find? key = some value

namespace StateTransaction

open Bridge

theorem find?_withImpliedOn {state : Option Object} {request : Object}
    (unset : request.find? "on" = none) :
    (withImpliedOn state request).find? "on" =
      (impliedFlag (state.getD .empty) request).map Json.bool := by
  rw [withImpliedOn]
  rw [if_neg (by simp [OrderedMap.contains, unset])]
  cases impliedFlag (state.getD .empty) request with
  | none => exact unset
  | some on => exact OrderedMap.find?_insert_self _ _ _

theorem onFlag_eq_not {state : Object} {default : Bool} (h : onFlag state default = !default) :
    state.find? "on" = some (.bool !default) := by
  rw [onFlag] at h
  split at h
  · rename_i found
    rw [found, h]
  · simp at h

theorem switches_of_zeroBrightness {request : Object} (h : zeroBrightness request = true) :
    switches request = true := by
  have requested : request.contains "bri" = true := by
    simp [OrderedMap.contains, of_decide_eq_true h]
  simp [switches, switchingKeys, requested]

/-- A request without switching attributes implies nothing. -/
theorem impliedFlag_eq_none {state request : Object} (h : switches request = false) :
    impliedFlag state request = none := by
  have nonzero : zeroBrightness request = false := by
    by_contra zero
    rw [Bool.not_eq_false] at zero
    rw [switches_of_zeroBrightness zero] at h
    exact absurd h (by simp)
  simp [impliedFlag, h, nonzero]

/-- With the implied flag, or else its old one, the light has the wanted flag. -/
theorem impliedFlag_or {state request light : Object} (agrees : Agrees state light)
    (h : switches request = true) :
    ((impliedFlag state request).map Json.bool).or (light.find? "on") =
      some (.bool !zeroBrightness request) := by
  rw [impliedFlag]
  cases zero : zeroBrightness request with
  | false =>
      cases wasOn : onFlag state false with
      | false => simp [h]
      | true => simpa [h] using agrees _ _ (onFlag_eq_not wasOn)
  | true =>
      cases wasOn : onFlag state true with
      | true => simp
      | false => simpa using agrees _ _ (onFlag_eq_not wasOn)

section

variable (t : StateTransaction) (trim : Bool)

/-- The body has entries of the request and the implied flag only. -/
theorem body_subset {key : String} {value : Json} (h : (t.body trim).find? key = some value) :
    (withImpliedOn t.state t.request).find? key = some value := by
  rw [body] at h
  split at h
  · split at h
    · rw [find?_trimmed, Option.filter_eq_some_iff] at h
      exact h.1
    · exact h
  · exact h

/-- Trimming `on` away makes no difference on a bridge that agrees with the cache. -/
theorem find?_body_or {light : Object}
    (agrees : ∀ state, t.state = some state → Agrees state light) :
    ((t.body trim).find? "on").or (light.find? "on") =
      ((withImpliedOn t.state t.request).find? "on").or (light.find? "on") := by
  rw [body]
  split
  · rename_i state cached
    split
    · rw [find?_trimmed]
      cases implied : (withImpliedOn t.state t.request).find? "on" with
      | none => rfl
      | some value =>
          cases shown : looksSet state "on" value with
          | false => simp [Option.filter, shown]
          | true =>
              have known : state.find? "on" = some value := by
                have unmoded : colormodes.lookup "on" = none := rfl
                simpa [looksSet, unmoded, otherRemove] using shown
              simp [Option.filter, shown, agrees state cached _ _ known]
    · rfl
  · rfl

/-- After a successful commit the light has the implied flag, or else its old one. -/
theorem find?_afterCommit_on {light : Object}
    (typed : ∀ state, t.state = some state → WellTyped state)
    (agrees : ∀ state, t.state = some state → Agrees state light)
    (success : (t.commit trim).outcome = .ok true) :
    (afterCommit light (t.commit trim)).find? "on" =
      ((withImpliedOn t.state t.request).find? "on").or (light.find? "on") := by
  rw [← find?_body_or t trim agrees]
  rcases commit_cases t trim typed with ⟨nothing, result⟩ | ⟨-, ⟨e, result⟩ | result | result⟩
  · have unsent : (t.body trim).find? "on" = none := by
      refine Option.eq_none_iff_forall_ne_some.mpr fun value found => ?_
      have worth := (worthSending_iff _).mpr ⟨"on", value, found, by decide⟩
      rw [nothing] at worth
      exact absurd worth (by simp)
    rw [result, unsent]
    rfl
  · rw [result] at success
    exact absurd success (by simp)
  · rw [result] at success
    exact absurd success (by simp)
  · rw [result]
    exact find?_apply_plain light (t.body trim) rfl rfl

end

/-- If `setOn` was not called and the cache, if there is one, agrees with the bridge:
after a successful commit of a switching attribute the light is on unless zero
brightness was requested, and without switching attributes the body has no `on`. -/
theorem commit_switches (t : StateTransaction) (trim : Bool) (light : Object)
    (typed : ∀ state, t.state = some state → WellTyped state)
    (agrees : ∀ state, t.state = some state → Agrees state light)
    (unset : t.request.find? "on" = none) :
    (switches t.request = true → (t.commit trim).outcome = .ok true →
      ((afterCommit light (t.commit trim)).find? "on" = some (.bool true) ↔
        t.request.find? "bri" ≠ some (.num 0)) ∧
      ((afterCommit light (t.commit trim)).find? "on" = some (.bool false) ↔
        t.request.find? "bri" = some (.num 0))) ∧
    (switches t.request = false → ∀ sent, (t.commit trim).sent = some sent →
      sent.find? "on" = none) := by
  have known : Agrees (t.state.getD .empty) light := by
    cases cached : t.state with
    | none => exact fun key value found => absurd found (by simp)
    | some state => exact agrees state cached
  constructor
  · intro switching success
    rw [find?_afterCommit_on t trim typed agrees success, find?_withImpliedOn unset,
      impliedFlag_or known switching]
    by_cases zero : t.request.find? "bri" = some (.num 0) <;> simp [zeroBrightness, zero]
  · intro still sent sending
    have body : sent = t.body trim := by
      rcases commit_cases t trim typed with ⟨-, result⟩ | ⟨-, ⟨e, result⟩ | result | result⟩ <;>
        simp [result] at sending
      all_goals exact sending.symm
    refine Option.eq_none_iff_forall_ne_some.mpr fun value found => ?_
    rw [body] at found
    have implied := body_subset t trim found
    rw [find?_withImpliedOn unset, impliedFlag_eq_none still] at implied
    exact absurd implied (by simp)

theorem commit_switches_temperatureLight :
    ((afterCommit temperatureLight
      ((new Utils.acknowledgingCommands "/lights/1/state" (some temperatureLight)).setBrightness 0
        |>.commit true)).find? "on" = some (.bool false)) := by
  have cached : ∀ state, some temperatureLight = some state → state = temperatureLight :=
    fun state known => (Option.some.inj known).symm
  refine ((commit_switches
    ((new Utils.acknowledgingCommands "/lights/1/state" (some temperatureLight)).setBrightness 0)
    true temperatureLight (fun state known => ?_) (fun state known => ?_) (by decide +kernel)).1
      (by decide +kernel) ?_).2.mpr (by decide +kernel)
  · rw [cached state known]
    decide +kernel
  · rw [cached state known]
    exact fun _ _ found => found
  · rfl

end StateTransaction

end Hueplusplus
