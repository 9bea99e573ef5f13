import Hueplusplus.StateTransaction.Sync

/-!
# Commits with an outdated state

The cached state of a light is as old as its last refresh, and others may have changed the light
since. Trimming then drops what is not set any more: exactly the attributes that the cached state
still shows and the light does not. The same goes for the flag that a commit implies, and for the
colour mode if all colours are dropped.
-/

namespace Hueplusplus.StateTransaction

open Sync

/-- The value is shown, `xy` to 4 decimal places. -/
def ShownAs (key : String) (value : Json) (current : Option Json) : Prop :=
  if key = "xy" then Approx current (some value) else current = some value

/-- The cached state shows all colours of the request. -/
def ShowsColors (cache request : Object) : Prop :=
  ∀ key value, (colormodes.lookup key).isSome → request.find? key = some value →
    looksSet cache key value = true

/-- The flag that the request implies, if it gives none, is the light's. -/
def Switched (request light : Object) : Prop :=
  request.find? "on" = none → switches request = true →
    light.find? "on" = some (.bool !zeroBrightness request)

/-- What the cached state shows of the request, the light shows as well. -/
structure Current (cache light request : Object) : Prop where
  values : ∀ key ∈ setKeys, ∀ value, request.find? key = some value →
    looksSet cache key value = true → ShownAs key value (light.find? key)
  mode : ShowsColors cache request → ∀ key mode, colormodes.lookup key = some mode →
    request.contains key = true → light.find? "colormode" = some (.str mode)
  flag : cache.find? "on" = some (.bool !zeroBrightness request) → Switched request light

/-- No attribute is both set and incremented. -/
def Separate (request : Object) : Prop :=
  ∀ entry ∈ Bridge.increments, request.contains entry.1 = true → request.find? entry.2 = none

instance (request : Object) : Decidable (Separate request) := List.decidableBAll _ _

theorem ShownAs.refl (key : String) (value : Json) : ShownAs key value (some value) := by
  unfold ShownAs
  split
  · exact .refl _
  · rfl

/-- A flag is implied unless the cached state shows it. -/
theorem impliedFlag_eq {state request : Object} (switching : switches request = true) :
    impliedFlag state request =
      if state.find? "on" = some (.bool !zeroBrightness request) then none
      else some (!zeroBrightness request) := by
  have shown : ∀ default, onFlag state default = default ↔
      ¬ state.find? "on" = some (.bool !default) := by
    intro default
    constructor
    · intro same found
      rw [onFlag, found] at same
      exact absurd same (by simp)
    · intro other
      by_contra flag
      exact other (onFlag_eq_not (Bool.eq_not_iff.mpr flag))
  have := shown (zeroBrightness request)
  rw [impliedFlag]
  cases zero : zeroBrightness request <;> cases wasOn : onFlag state (zeroBrightness request) <;>
    simp_all

section Outdated

variable {u : Update} {cache light : Object} (typed : WellTyped cache)
  (accepted : ((u.transaction cache).commit true).outcome = .ok true)

theorem body_increment_eq_none (separate : Separate (u.request cache)) {key : String}
    (requested : (u.request cache).contains key = true) :
    (Bridge.increments.lookup key).bind ((u.transaction cache).body true).find? = none := by
  refine Option.bind_eq_none_iff.mpr fun incKey known => ?_
  have notOn : ∀ entry ∈ Bridge.increments, entry.2 ≠ "on" := by decide
  obtain ⟨before, after, split, -⟩ := List.lookup_eq_some_iff.mp known
  have member : (key, incKey) ∈ Bridge.increments := by
    rw [split]
    simp
  refine Option.eq_none_iff_forall_ne_some.mpr fun value sent => ?_
  have given := (requested_of_body (notOn _ member) sent).1
  rw [separate _ member requested] at given
  exact nomatch given

include typed accepted

/-- The body of an accepted commit is applied, whether or not it is worth sending. -/
theorem afterCommit_of_accepted :
    Bridge.afterCommit light ((u.transaction cache).commit true) =
        Bridge.apply light ((u.transaction cache).body true) ∨
      Bridge.afterCommit light ((u.transaction cache).commit true) = light ∧
        ∀ key, key ≠ "transitiontime" → ((u.transaction cache).body true).find? key = none := by
  rcases commit_cases (u.transaction cache) true (wellTyped_transaction typed u) with
    ⟨nothing, result⟩ | ⟨-, ⟨e, result⟩ | result | result⟩
  · refine .inr ⟨by rw [result]; rfl, fun key other => ?_⟩
    refine Option.eq_none_iff_forall_ne_some.mpr fun value sent => ?_
    rw [(worthSending_iff _).mpr ⟨key, value, sent, other⟩] at nothing
    exact nomatch nothing
  · rw [result] at accepted
    exact nomatch accepted
  · rw [result] at accepted
    exact nomatch accepted
  · exact .inl (by rw [result]; rfl)

theorem find?_afterCommit {key : String} (absolute : key ∈ Bridge.absoluteKeys)
    (plain : (Bridge.increments.lookup key).bind ((u.transaction cache).body true).find? = none) :
    (Bridge.afterCommit light ((u.transaction cache).commit true)).find? key =
      (((u.transaction cache).body true).find? key).or (light.find? key) := by
  rcases @afterCommit_of_accepted u cache light typed accepted with applied | ⟨unchanged, nothing⟩
  · rw [applied, Bridge.find?_apply_of_absolute light absolute plain]
  · rw [unchanged, nothing key (Bridge.absoluteKeys_ne absolute).2, Option.none_or]

/-- A requested attribute is sent, or dropped because the cached state shows it. -/
theorem find?_afterCommit_requested (separate : Separate (u.request cache)) {key : String}
    {value : Json} (absolute : key ∈ Bridge.absoluteKeys)
    (requested : (u.request cache).find? key = some value) :
    (Bridge.afterCommit light ((u.transaction cache).commit true)).find? key =
      if looksSet cache key value then light.find? key else some value := by
  have contained := OrderedMap.contains_iff.mpr ⟨value, requested⟩
  rw [find?_afterCommit typed accepted absolute (body_increment_eq_none separate contained),
    find?_body_of_requested requested]
  cases looksSet cache key value <;> rfl

/-- An attribute takes effect exactly if it is not dropped wrongly. -/
theorem shownAs_afterCommit_iff (separate : Separate (u.request cache)) {key : String}
    {value : Json} (absolute : key ∈ Bridge.absoluteKeys)
    (requested : (u.request cache).find? key = some value) :
    ShownAs key value ((Bridge.afterCommit light ((u.transaction cache).commit true)).find? key) ↔
      (looksSet cache key value = true → ShownAs key value (light.find? key)) := by
  rw [find?_afterCommit_requested typed accepted separate absolute requested]
  cases looksSet cache key value with
  | false => simp [ShownAs.refl]
  | true => simp

/-- The mode is that of the requested colours, unless they are all dropped. -/
theorem colormode_afterCommit_iff (one : OneMode (u.request cache)) {key mode : String}
    (known : colormodes.lookup key = some mode)
    (requested : (u.request cache).contains key = true) :
    (Bridge.afterCommit light ((u.transaction cache).commit true)).find? "colormode" =
        some (.str mode) ↔
      (ShowsColors cache (u.request cache) → light.find? "colormode" = some (.str mode)) := by
  by_cases all : ShowsColors cache (u.request cache)
  · have colorless : Bridge.colorMode? ((u.transaction cache).body true) = none := by
      refine colorMode?_eq_none fun other m color => ?_
      refine Option.eq_none_iff_forall_ne_some.mpr fun value sent => ?_
      obtain ⟨given, unshown⟩ := requested_of_body (color_ne color rfl) sent
      rw [all other value (by simp [color]) given] at unshown
      exact nomatch unshown
    have kept : (Bridge.afterCommit light ((u.transaction cache).commit true)).find? "colormode" =
        light.find? "colormode" := by
      rcases @afterCommit_of_accepted u cache light typed accepted with applied | ⟨unchanged, -⟩
      · rw [applied, Bridge.find?_apply_colormode, colorless, Option.map_none, Option.none_or]
      · rw [unchanged]
    rw [kept]
    exact ⟨fun right _ => right, fun right => right all⟩
  · refine iff_of_true ?_ fun shows => absurd shows all
    unfold ShowsColors at all
    push Not at all
    obtain ⟨other, value, isColor, given, unshown⟩ := all
    obtain ⟨m, color⟩ := Option.isSome_iff_exists.mp isColor
    have sent := find?_body_of_requested given
    rw [if_neg unshown] at sent
    have same : m = mode := one other key m mode color known
      (OrderedMap.contains_iff.mpr ⟨value, given⟩) requested
    have switched := colorMode?_eq_some (oneMode_body (s := ⟨cache, light, .empty⟩) one) color
      (OrderedMap.contains_iff.mpr ⟨value, sent⟩)
    rcases @afterCommit_of_accepted u cache light typed accepted with applied | ⟨-, nothing⟩
    · rw [applied, Bridge.find?_apply_colormode, switched, same]
      rfl
    · rw [nothing other (color_ne color rfl)] at sent
      exact nomatch sent

/-- A flag that is implied is the light's afterwards, unless the cached state shows it. -/
theorem on_afterCommit_iff (unset : (u.request cache).find? "on" = none)
    (switching : switches (u.request cache) = true) :
    (Bridge.afterCommit light ((u.transaction cache).commit true)).find? "on" =
        some (.bool !zeroBrightness (u.request cache)) ↔
      (cache.find? "on" = some (.bool !zeroBrightness (u.request cache)) →
        light.find? "on" = some (.bool !zeroBrightness (u.request cache))) := by
  have plain : colormodes.lookup "on" = none := rfl
  rw [find?_afterCommit typed accepted (by decide) rfl, find?_body, find?_withImpliedOn unset,
    Option.getD_some, impliedFlag_eq switching]
  by_cases shown : cache.find? "on" = some (.bool !zeroBrightness (u.request cache))
  · simp [shown]
  · simp [shown, looksSet, plain, Option.filter]

/-- A commit does all it was asked for if and only if the cached state is up to date in what it
shows of the request, whatever others have done to the light since the last refresh. -/
theorem outdated_state_drops_iff (separate : Separate (u.request cache))
    (one : OneMode (u.request cache)) :
    InEffect (u.request cache)
          (Bridge.afterCommit light ((u.transaction cache).commit true)) ∧
        Switched (u.request cache)
          (Bridge.afterCommit light ((u.transaction cache).commit true)) ↔
      Current cache light (u.request cache) := by
  have absolute : ∀ key ∈ setKeys, key ∈ Bridge.absoluteKeys := by decide
  constructor
  · rintro ⟨⟨values, modes⟩, switched⟩
    refine ⟨fun key settable value requested => ?_, fun shows key mode known requested => ?_,
      fun shown unset switching => ?_⟩
    · exact (shownAs_afterCommit_iff typed accepted separate (absolute key settable)
        requested).mp (values key value settable requested)
    · exact (colormode_afterCommit_iff typed accepted one known requested).mp
        (modes key mode known requested) shows
    · exact (on_afterCommit_iff typed accepted unset switching).mp (switched unset switching) shown
  · intro current
    refine ⟨⟨fun key value settable requested => ?_, fun key mode known requested => ?_⟩,
      fun unset switching => ?_⟩
    · exact (shownAs_afterCommit_iff typed accepted separate (absolute key settable)
        requested).mpr (current.values key settable value requested)
    · exact (colormode_afterCommit_iff typed accepted one known requested).mpr
        fun shows => current.mode shows key mode known requested
    · exact (on_afterCommit_iff typed accepted unset switching).mpr
        fun shown => current.flag shown unset switching

end Outdated

/-- A transaction that sets another colour temperature. -/
def warmer : Update :=
  ⟨Utils.acknowledgingCommands, "/lights/1/state", [.setColorTemperature 400]⟩

/-- Someone else has switched the light off. The colour temperature is sent then, but not the
flag that would switch the light on again. -/
theorem switched_off_by_others :
    ¬ (InEffect (warmer.request temperatureLight)
          (Bridge.afterCommit (temperatureLight.insert "on" (.bool false))
            ((warmer.transaction temperatureLight).commit true)) ∧
        Switched (warmer.request temperatureLight)
          (Bridge.afterCommit (temperatureLight.insert "on" (.bool false))
            ((warmer.transaction temperatureLight).commit true))) := by
  intro both
  have current := (outdated_state_drops_iff (by decide +kernel) rfl (by decide +kernel)
    (by decide +kernel)).mp both
  exact absurd (current.flag (by decide +kernel) (by decide +kernel) (by decide +kernel))
    (by decide +kernel)

end Hueplusplus.StateTransaction
