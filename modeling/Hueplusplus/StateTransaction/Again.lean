import Hueplusplus.StateTransaction.Sync

/-!
# Committing the same again

After an accepted commit the cached state shows what was requested. A transaction with the same
setter calls finds it there and sends it no second time. What the cache cannot show is sent
again: the transition, alerts, increments, and colours of a mode the cached state is not in.
-/

namespace Hueplusplus.StateTransaction

open Sync

/-- A commit leaves a cached state in which `trimRequest` finds this attribute. -/
def recordable (cache : Object) (key : String) : Bool :=
  otherRemove.contains key ||
    (colormodes.lookup key).any fun mode => cache.find? "colormode" = some (.str mode)

section Again

variable {u : Update} {cache after : Object}

/-- What the cached state shows after an accepted commit. -/
structure Follows (u : Update) (cache after : Object) : Prop where
  typed : WellTyped after
  value : ∀ key, key ≠ "transitiontime" →
    after.find? key = (((u.transaction cache).body true).find? key).or (cache.find? key)

theorem follows_of_accepted (typed : WellTyped cache)
    (accepted : ((u.transaction cache).commit true).outcome = .ok true) :
    ∃ after, ((u.transaction cache).commit true).state = some after ∧ Follows u cache after := by
  have cached := transaction_state u cache
  rcases commit_cases (u.transaction cache) true (wellTyped_transaction typed u) with
    ⟨nothing, result⟩ | ⟨-, ⟨e, result⟩ | result | result⟩
  · refine ⟨cache, by rw [result, cached], typed, fun key notTransition => ?_⟩
    have absent : ((u.transaction cache).body true).find? key = none := by
      rw [Option.eq_none_iff_forall_ne_some]
      intro value sent
      have worth := (worthSending_iff _).mpr ⟨key, value, sent, notTransition⟩
      rw [nothing] at worth
      exact absurd worth (by simp)
    rw [absent, Option.none_or]
  · rw [result] at accepted
    exact absurd accepted (by simp)
  · rw [result] at accepted
    exact absurd accepted (by simp)
  · refine ⟨cache.overlay (((u.transaction cache).body true).erase "transitiontime"),
      by rw [result, cached]; rfl,
      wellTyped_overlay typed ((wellTyped_body u cache).filter _), fun key notTransition => ?_⟩
    rw [OrderedMap.find?_overlay, OrderedMap.find?_erase, if_neg notTransition.symm]

variable (follows : Follows u cache after)
include follows

theorem Follows.colormode : after.find? "colormode" = cache.find? "colormode" := by
  rw [follows.value "colormode" (by decide), body_colormode, Option.none_or]

/-- A requested attribute is found if it was sent, and if it was there before. -/
theorem Follows.requested {key : String} (notTransition : key ≠ "transitiontime") {value : Json}
    (requested : (u.request cache).find? key = some value) :
    after.find? key = if looksSet cache key value then cache.find? key else some value := by
  rw [follows.value key notTransition, find?_body_of_requested requested]
  cases looksSet cache key value <;> simp

/-- What was requested is shown, `xy` to 4 decimal places. -/
theorem Follows.shown (typed : WellTyped cache) {key : String}
    (notTransition : key ≠ "transitiontime") {value : Json}
    (requested : (u.request cache).find? key = some value) :
    ∃ current, after.find? key = some current ∧
      if key = "xy" then Approx (some current) (some value) else current = value := by
  rw [follows.requested notTransition requested]
  split
  · rename_i set
    exact shown_of_looksSet typed set
  · refine ⟨value, rfl, ?_⟩
    split
    · exact .refl _
    · rfl

theorem Follows.looksSet_eq {key : String} {value : Json}
    (requested : (u.request cache).find? key = some value) :
    looksSet after key value = recordable cache key := by
  cases color : colormodes.lookup key with
  | none =>
      simp only [looksSet, recordable, color, Option.any_none, Bool.or_false]
      by_cases removable : key ∈ otherRemove
      · have notTransition : key ≠ "transitiontime" := by
          rintro rfl
          exact absurd removable (by decide)
        have found : after.find? key = some value := by
          rw [follows.requested notTransition requested]
          split
          · rename_i shown
            rw [looksSet, color, Bool.and_eq_true] at shown
            exact of_decide_eq_true shown.2
          · rfl
        simp [found]
      · simp [removable]
  | some mode =>
      have notTransition : key ≠ "transitiontime" := color_ne color rfl
      have notRemovable : otherRemove.contains key = false := by
        rcases colormodes_cases color with ⟨rfl, -⟩ | ⟨rfl, -⟩ | ⟨rfl, -⟩ | ⟨rfl, -⟩ <;> decide
      simp only [looksSet, recordable, color, notRemovable, Bool.false_or, Option.any_some,
        follows.colormode]
      by_cases inMode : cache.find? "colormode" = some (.str mode)
      · have found : ((after.find? key).any fun current => sameValue current value) = true := by
          rw [follows.requested notTransition requested]
          split
          · rename_i shown
            simp only [looksSet, color, Bool.and_eq_true] at shown
            exact shown.2
          · simp [sameValue_requested color requested]
        rw [found, Bool.and_true]
      · simp [inMode]

/-- The implied `on` is in the cached state then. -/
theorem Follows.implies_nothing (unset : (u.request cache).find? "on" = none) :
    impliedFlag after (u.request cache) = none := by
  have sent := find?_body u cache "on"
  rw [find?_withImpliedOn unset, Option.getD_some] at sent
  have shown := follows.value "on" (by decide)
  rw [sent] at shown
  cases flag : impliedFlag cache (u.request cache) with
  | none =>
      have same : ∀ default, onFlag after default = onFlag cache default := by
        intro default
        rw [flag] at shown
        rw [onFlag, onFlag, shown]
        rfl
      rw [impliedFlag, same, same, ← impliedFlag, flag]
  | some on =>
      have found : after.find? "on" = some (.bool on) := by
        rw [flag] at shown
        simp only [Option.map_some, Option.filter_some] at shown
        split at shown
        · exact shown
        · rename_i set
          have plain : colormodes.lookup "on" = none := rfl
          rw [Bool.not_eq_true, Bool.not_eq_false', looksSet, plain, Bool.and_eq_true] at set
          rw [shown, Option.none_or]
          exact of_decide_eq_true set.2
      have isOn : ∀ default, onFlag after default = on := by
        intro default
        rw [onFlag, found]
      rw [impliedFlag] at flag
      rw [impliedFlag, isOn, isOn]
      split_ifs at flag with switched zero
      · obtain rfl := Option.some.inj flag
        simp only [Bool.and_eq_true, Bool.not_eq_true'] at switched
        simp [switched.1.2]
      · obtain rfl := Option.some.inj flag
        rw [Bool.and_eq_true] at zero
        simp [zero.1]

end Again

theorem request_calls (commands commands' : HueCommandAPI) (path path' : String)
    (state state' : Option Object) (setters : List SetterCall) :
    ((new commands path state).calls setters).request =
      ((new commands' path' state').calls setters).request :=
  OrderedMap.ext_find? fun key => by rw [find?_calls, find?_calls]

/-- A commit that was accepted can be made again. What it set is not sent a second time, unless
the cached state cannot show it. If it shows everything, nothing is sent. -/
theorem commit_again {commands : HueCommandAPI} {path : String} {cache : Object}
    (typed : WellTyped cache) (setters : List SetterCall)
    (accepted : (((new commands path (some cache)).calls setters).commit true).outcome = .ok true) :
    ∃ after, (((new commands path (some cache)).calls setters).commit true).state = some after ∧
      ∀ commands' path',
        let again := (new commands' path' (some after)).calls setters
        again.prepare true = .ok (again.request.filter fun key _ => !recordable cache key) ∧
          ((∀ key, again.request.contains key = true →
              key = "transitiontime" ∨ recordable cache key = true) →
            (again.commit true).sent = none ∧ (again.commit true).outcome = .ok true ∧
              (again.commit true).state = some after) := by
  obtain ⟨after, stored, follows⟩ :=
    @follows_of_accepted ⟨commands, path, setters⟩ cache typed accepted
  refine ⟨after, stored, fun commands' path' => ?_⟩
  intro again
  have cached : again.state = some after := transaction_state ⟨commands', path', setters⟩ after
  have same : again.request = Update.request ⟨commands, path, setters⟩ cache :=
    request_calls commands' commands path' path (some after) (some cache) setters
  have nothing : withImpliedOn (some after) again.request = again.request := by
    rw [withImpliedOn]
    split
    · rfl
    · rename_i unset
      have absent := OrderedMap.contains_eq_false_iff.mp (Bool.not_eq_true _ ▸ unset)
      rw [same] at absent ⊢
      rw [Option.getD_some, follows.implies_nothing absent]
  have body : again.body true = again.request.filter fun key _ => !recordable cache key := by
    rw [StateTransaction.body, cached]
    refine OrderedMap.ext_find? fun key => ?_
    simp only [if_true, nothing, find?_trimmed, OrderedMap.find?_filter]
    cases requested : again.request.find? key with
    | none => rfl
    | some value =>
        rw [same] at requested
        simp only [Option.filter_some, follows.looksSet_eq requested]
  have known : ∀ state, again.state = some state → WellTyped state :=
    wellTyped_transaction follows.typed ⟨commands', path', setters⟩
  have prepared := body ▸ prepare_eq again true known
  refine ⟨prepared, fun all => ?_⟩
  have silent : worthSending (again.request.filter fun key _ => !recordable cache key) = false := by
    rw [← Bool.not_eq_true, worthSending_iff]
    rintro ⟨key, value, left, notTransition⟩
    rw [OrderedMap.find?_filter, Option.filter_eq_some_iff] at left
    rcases all key (OrderedMap.contains_iff.mpr ⟨value, left.1⟩) with transition | recorded
    · exact notTransition transition
    · rw [recorded] at left
      exact absurd left.2 (by simp)
  rw [commit_of_not_worthSending prepared silent]
  exact ⟨rfl, rfl, cached⟩

/-- A dimmed temperature is sent once. -/
theorem commit_again_temperatureLight :
    ∃ after, (((new Utils.acknowledgingCommands "/lights/1/state" (some temperatureLight)).calls
        [.setBrightness 10, .setColorTemperature 400]).commit true).state = some after ∧
      (((new Utils.acknowledgingCommands "/lights/1/state" (some after)).calls
        [.setBrightness 10, .setColorTemperature 400]).commit true).sent = none := by
  obtain ⟨after, stored, again⟩ := commit_again (by decide +kernel)
    [.setBrightness 10, .setColorTemperature 400]
    (show (((new Utils.acknowledgingCommands "/lights/1/state" (some temperatureLight)).calls
      [.setBrightness 10, .setColorTemperature 400]).commit true).outcome = .ok true from rfl)
  refine ⟨after, stored, ((again Utils.acknowledgingCommands "/lights/1/state").2 ?_).1⟩
  intro key requested
  rw [request_calls _ Utils.acknowledgingCommands _ "" _ none] at requested
  have recorded : ∀ entry ∈ ((new Utils.acknowledgingCommands "" none).calls
      [.setBrightness 10, .setColorTemperature 400]).request.entries,
      recordable temperatureLight entry.1 = true := by decide +kernel
  obtain ⟨value, found⟩ := OrderedMap.contains_iff.mp requested
  exact .inr (recorded _ (OrderedMap.find?_iff.mp found))

end Hueplusplus.StateTransaction
