import Hueplusplus.Light.Basic
import Hueplusplus.StateTransaction.Sync

/-!
# The sequence of an alert

An alert is three commits in a row, with possible refreshes before each, so it is a
run of `Sync.system` without increments. The colour of the alert and the restoring
request are described by what they contain; the sequence restores the light exactly
if the restoring colour is not trimmed away while the bridge is in another mode.
-/

namespace Hueplusplus

open StateTransaction

namespace Sync

/-- No attribute is incremented. -/
def IncrementFree (request : Object) : Prop :=
  ∀ entry ∈ Bridge.increments, request.find? entry.2 = none

/-- The state after a read of the cache: refreshing it forgets the ledger. -/
def State.read (s : State) : Refresh → State
  | .refreshed => ⟨s.light, s.light, .empty⟩
  | _ => s

/-- A state in which cache and light differ in the colour mode at most. -/
structure Quiet (s : State) : Prop where
  inv : Inv s
  lightTyped : WellTyped s.light
  settled : ∀ key, s.ledger.pending key = []

theorem quiet_start {light : Object} (typed : WellTyped light) : Quiet ⟨light, light, .empty⟩ where
  inv := invariant.init _ ⟨rfl, typed, rfl⟩
  lightTyped := typed
  settled _ := rfl

theorem Quiet.read {s : State} (h : Quiet s) (r : Refresh) : Quiet (s.read r) := by
  cases r with
  | refreshed => exact quiet_start h.lightTyped
  | fresh | failed e => exact h

section Step

variable {s : State} {u : Update}

theorem body_find?_none {key : String} (other : key ≠ "on")
    (unrequested : (u.request s.cache).find? key = none) :
    ((u.transaction s.cache).body true).find? key = none := by
  refine Option.eq_none_iff_forall_ne_some.mpr fun value sent => ?_
  have requested := (requested_of_body other sent).1
  rw [unrequested] at requested
  exact absurd requested (by simp)

theorem incrementFree_body (free : IncrementFree (u.request s.cache)) (key : String) :
    (Bridge.increments.lookup key).bind ((u.transaction s.cache).body true).find? = none := by
  refine Option.bind_eq_none_iff.mpr fun incKey known => ?_
  have notOn : ∀ entry ∈ Bridge.increments, entry.2 ≠ "on" := by decide
  obtain ⟨before, after, split, -⟩ := List.lookup_eq_some_iff.mp known
  have member : (key, incKey) ∈ Bridge.increments := by
    rw [split]
    simp
  exact body_find?_none (notOn _ member) (free _ member)

theorem Quiet.step (h : Quiet s) (admissible : system.admissible s u)
    (free : IncrementFree (u.request s.cache)) : Quiet (system.step s u) := by
  refine ⟨inv_step h.inv admissible, ?_, fun key => ?_⟩ <;>
    rcases step_cases h.inv.typed admissible.1 with ⟨-, step⟩ | ⟨-, step⟩
  · rw [step]
    exact h.lightTyped
  · rw [step]
    exact Bridge.wellTyped_apply h.lightTyped (wellTyped_body u s.cache)
  · rw [step]
    exact h.settled key
  · rw [step]
    simp [Ledger.record, incrementFree_body free, h.settled key]

/-- On a quiet state a request without increments relies on the colour mode only. -/
theorem Quiet.recorded (h : Quiet s) {request : Object} (free : IncrementFree request)
    (mode : ∀ key mode lastMode, colormodes.lookup key = some mode →
      request.contains key = true → s.ledger.mode = some lastMode → lastMode = mode) :
    Recorded s request where
  separate key incKey d member _ found := by
    rw [free (key, incKey) member] at found
    exact absurd found (by simp)
  settled key value current _ _ _ := by rw [h.settled key]; rfl
  sameMode key m lastMode known requested _ := mode key m lastMode known requested

/-- A commit writes to the light what it sends. -/
theorem step_light (h : Quiet s) (admissible : system.admissible s u)
    (free : IncrementFree (u.request s.cache)) {key : String}
    (absolute : key ∈ Bridge.absoluteKeys) :
    (system.step s u).light.find? key =
      (((u.transaction s.cache).body true).find? key).or (s.light.find? key) := by
  rcases step_cases h.inv.typed admissible.1 with ⟨nothing, step⟩ | ⟨-, step⟩
  · have unsent : ((u.transaction s.cache).body true).find? key = none := by
      refine Option.eq_none_iff_forall_ne_some.mpr fun value sent => ?_
      rw [(worthSending_iff _).mpr ⟨key, value, sent, (Bridge.absoluteKeys_ne absolute).2⟩]
        at nothing
      exact nomatch nothing
    rw [step, unsent, Option.none_or]
  · rw [step, Bridge.find?_apply_of_absolute s.light absolute (incrementFree_body free key)]

/-- A commit leaves the light's attributes that it was not asked to set, `on` apart. -/
theorem step_light_of_none (h : Quiet s) (admissible : system.admissible s u)
    (free : IncrementFree (u.request s.cache)) {key : String} (other : key ≠ "on")
    (absolute : key ∈ Bridge.absoluteKeys) (unrequested : (u.request s.cache).find? key = none) :
    (system.step s u).light.find? key = s.light.find? key := by
  rw [step_light h admissible free absolute, body_find?_none other unrequested, Option.none_or]

/-- An attribute that was asked for is sent, or the cache shows it. -/
theorem step_light_of_some (h : Quiet s) (admissible : system.admissible s u)
    (free : IncrementFree (u.request s.cache)) {key : String} {value : Json}
    (absolute : key ∈ Bridge.absoluteKeys)
    (requested : (u.request s.cache).find? key = some value) :
    (system.step s u).light.find? key =
      if looksSet s.cache key value then s.light.find? key else some value := by
  rw [step_light h admissible free absolute, find?_body_of_requested requested]
  cases looksSet s.cache key value <;> rfl

/-- The same for the cache, where the colour mode is such an attribute. -/
theorem step_cache_of_none (h : Quiet s) (admissible : system.admissible s u) {key : String}
    (other : key ≠ "on") (unrequested : (u.request s.cache).find? key = none) :
    (system.step s u).cache.find? key = s.cache.find? key := by
  rcases step_cases h.inv.typed admissible.1 with ⟨-, step⟩ | ⟨-, step⟩
  · rw [step]
  · rw [step, OrderedMap.find?_overlay, OrderedMap.find?_erase,
      body_find?_none other unrequested]
    simp

/-- A commit that sends no colour leaves the light's mode and the ledger's. -/
theorem step_mode_of_none (h : Quiet s) (admissible : system.admissible s u)
    (colorless : ∀ key mode, colormodes.lookup key = some mode →
      ((u.transaction s.cache).body true).find? key = none) :
    (system.step s u).light.find? "colormode" = s.light.find? "colormode" ∧
      (system.step s u).ledger.mode = s.ledger.mode := by
  rcases step_cases h.inv.typed admissible.1 with ⟨-, step⟩ | ⟨-, step⟩
  · rw [step]
    exact ⟨rfl, rfl⟩
  · rw [step, Bridge.find?_apply_colormode]
    simp [Ledger.record, colorMode?_eq_none colorless]

/-- The ledger's mode after a commit is the old one or that of a requested colour. -/
theorem step_mode_cases (h : Quiet s) (admissible : system.admissible s u) {mode : String}
    (last : (system.step s u).ledger.mode = some mode) :
    s.ledger.mode = some mode ∨
      ∃ key, colormodes.lookup key = some mode ∧ (u.request s.cache).contains key = true := by
  rcases step_cases h.inv.typed admissible.1 with ⟨-, step⟩ | ⟨-, step⟩
  · rw [step] at last
    exact .inl last
  · rw [step] at last
    rcases Option.or_eq_some_iff.mp last with color | ⟨-, old⟩
    · obtain ⟨entry, member, hit⟩ := List.exists_of_findSome?_eq_some color
      split at hit
      · rename_i sent
        obtain ⟨value, found⟩ := OrderedMap.contains_iff.mp sent
        have known := lookup_colormodes_iff.mpr member
        rw [Option.some.inj hit] at known
        exact .inr ⟨entry.1, known, OrderedMap.contains_iff.mpr
          ⟨value, (requested_of_body (color_ne known rfl) found).1⟩⟩
      · simp at hit
    · exact .inl old

end Step

end Sync

open Sync

/-- A request for colours of one mode. -/
structure Colors (mode : String) (request : Object) : Prop where
  incrementFree : IncrementFree request
  only : ∀ key m, colormodes.lookup key = some m → request.contains key = true → m = mode
  present : ∃ key, colormodes.lookup key = some mode ∧ request.contains key = true

/-- A request that sets `on` and the colours of a mode, possibly the brightness too, to
the values of a state. -/
structure Restores (state : Object) (mode : String) (request : Object) : Prop
    extends Colors mode request where
  on : request.contains "on" = true ∧ request.find? "on" = state.find? "on"
  colors : ∀ key, colormodes.lookup key = some mode →
    request.contains key = true ∧ request.find? key = state.find? key
  bri : request.find? "bri" = none ∨ request.find? "bri" = state.find? "bri"

/-- The flag, the brightness, the colour mode and the colours of the mode are the same
after as before, `xy` to 4 decimal places. -/
structure Restored (before after : Object) : Prop where
  on : after.find? "on" = before.find? "on"
  bri : after.find? "bri" = before.find? "bri"
  colormode : after.find? "colormode" = before.find? "colormode"
  colors : ∀ key mode, before.find? "colormode" = some (.str mode) →
    colormodes.lookup key = some mode →
    if key = "xy" then Close (after.find? key) (before.find? key)
    else after.find? key = before.find? key

theorem Sync.OneMode.of_only {request : Object} {mode : String}
    (only : ∀ key m, colormodes.lookup key = some m → request.contains key = true → m = mode) :
    OneMode request :=
  fun key key' m m' known known' contained contained' =>
    (only key m known contained).trans (only key' m' known' contained').symm

/-- The states between the commits of an alert that finds cache and light equal. -/
def afterColor (light : Object) (color : Update) : State :=
  system.step ⟨light, light, .empty⟩ color

def beforeAlert (light : Object) (color : Update) (rAlert : Refresh) : State :=
  (afterColor light color).read rAlert

def beforeRestore (light : Object) (color alert : Update) (rAlert rRestore : Refresh) : State :=
  (system.step (beforeAlert light color rAlert) alert).read rRestore

def afterRestore (light : Object) (color alert restore : Update) (rAlert rRestore : Refresh) :
    State :=
  system.step (beforeRestore light color alert rAlert rRestore) restore

/-- Three successful commits that set a colour of `alertMode`, alert, and restore a light
that was in `mode`. -/
structure AlertRun (light : Object) (color alert restore : Update) (rAlert rRestore : Refresh)
    (alertMode mode : String) : Prop where
  typed : WellTyped light
  colormode : light.find? "colormode" = some (.str mode)
  colors : Colors alertMode (color.request light)
  alerts : ∀ key, key ≠ "alert" →
    (alert.request (beforeAlert light color rAlert).cache).find? key = none
  restores : Restores light mode
    (restore.request (beforeRestore light color alert rAlert rRestore).cache)
  bri : (restore.request (beforeRestore light color alert rAlert rRestore).cache).find? "bri" =
    none → (color.request light).find? "bri" = none
  colorSuccess : ((color.transaction light).commit true).outcome = .ok true
  alertSuccess :
    ((alert.transaction (beforeAlert light color rAlert).cache).commit true).outcome = .ok true
  restoreSuccess :
    ((restore.transaction (beforeRestore light color alert rAlert rRestore).cache).commit
      true).outcome = .ok true

namespace AlertRun

variable {light : Object} {color alert restore : Update} {rAlert rRestore : Refresh}
  {alertMode mode : String} (h : AlertRun light color alert restore rAlert rRestore alertMode mode)
include h

theorem admissibleColor : system.admissible ⟨light, light, .empty⟩ color :=
  ⟨h.colorSuccess, .of_only h.colors.only⟩

theorem alert_colorless (key m : String) (known : colormodes.lookup key = some m) :
    (alert.request (beforeAlert light color rAlert).cache).find? key = none :=
  h.alerts key (color_ne known rfl)

theorem admissibleAlert : system.admissible (beforeAlert light color rAlert) alert := by
  refine ⟨h.alertSuccess, fun key key' m m' known known' contained => ?_⟩
  rw [OrderedMap.contains, h.alert_colorless key m known] at contained
  exact absurd contained (by simp)

theorem admissibleRestore :
    system.admissible (beforeRestore light color alert rAlert rRestore) restore :=
  ⟨h.restoreSuccess, .of_only h.restores.only⟩

theorem alert_incrementFree :
    IncrementFree (alert.request (beforeAlert light color rAlert).cache) := by
  have other : ∀ entry ∈ Bridge.increments, entry.2 ≠ "alert" := by decide
  exact fun entry member => h.alerts entry.2 (other entry member)

theorem quietColor : Quiet (afterColor light color) :=
  (quiet_start h.typed).step h.admissibleColor h.colors.incrementFree

theorem quietAlert : Quiet (beforeAlert light color rAlert) := h.quietColor.read rAlert

theorem quietRestore : Quiet (beforeRestore light color alert rAlert rRestore) :=
  (h.quietAlert.step h.admissibleAlert h.alert_incrementFree).read rRestore

/-- The alert's own commit leaves the light's mode and the ledger's. -/
theorem alert_mode :
    (system.step (beforeAlert light color rAlert) alert).light.find? "colormode" =
        (beforeAlert light color rAlert).light.find? "colormode" ∧
      (system.step (beforeAlert light color rAlert) alert).ledger.mode =
        (beforeAlert light color rAlert).ledger.mode :=
  step_mode_of_none h.quietAlert h.admissibleAlert fun key m known =>
    body_find?_none (color_ne known rfl) (h.alert_colorless key m known)

/-- Before the restoring commit, the bridge was last sent a colour of the alert's mode,
or the cache knows the bridge's mode. -/
theorem ledger_mode {last : String}
    (lastMode : (beforeRestore light color alert rAlert rRestore).ledger.mode = some last) :
    last = alertMode ∧ rAlert ≠ .refreshed ∧ rRestore ≠ .refreshed := by
  have unread : rRestore ≠ .refreshed := by
    rintro rfl
    exact absurd lastMode (by simp [beforeRestore, State.read, Ledger.empty])
  have afterAlert : (beforeAlert light color rAlert).ledger.mode = some last := by
    rw [← h.alert_mode.2]
    cases rRestore with
    | refreshed => exact absurd rfl unread
    | fresh | failed e => exact lastMode
  have unreadAlert : rAlert ≠ .refreshed := by
    rintro rfl
    exact absurd afterAlert (by simp [beforeAlert, State.read, Ledger.empty])
  have afterColor : (afterColor light color).ledger.mode = some last := by
    cases rAlert with
    | refreshed => exact absurd rfl unreadAlert
    | fresh | failed e => exact afterAlert
  refine ⟨?_, unreadAlert, unread⟩
  rcases step_mode_cases (quiet_start h.typed) h.admissibleColor afterColor with
    old | ⟨key, known, contained⟩
  · exact absurd old (by simp [Ledger.empty])
  · exact h.colors.only key last known contained

/-- What the alert's colour does not set, the light shows until the restoring commit. -/
theorem kept_light {key : String} (absolute : key ∈ Bridge.absoluteKeys) (notOn : key ≠ "on")
    (notAlert : key ≠ "alert") :
    (beforeRestore light color alert rAlert rRestore).light.find? key =
      (afterColor light color).light.find? key := by
  have alerted : (system.step (beforeAlert light color rAlert) alert).light.find? key =
      (beforeAlert light color rAlert).light.find? key :=
    step_light_of_none h.quietAlert h.admissibleAlert h.alert_incrementFree notOn absolute
      (h.alerts key notAlert)
  cases rRestore <;> cases rAlert <;> exact alerted

/-- A pair that the alert has changed is not taken for the old one, so it is sent again. -/
theorem restored_xy {v : Json} (mode_xy : mode = "xy") (before : light.find? "xy" = some v)
    (requested : (restore.request
      (beforeRestore light color alert rAlert rRestore).cache).find? "xy" = some v) :
    (afterRestore light color alert restore rAlert rRestore).light.find? "xy" = some v := by
  have known : colormodes.lookup "xy" = some "xy" := rfl
  have colormode := h.colormode
  rw [mode_xy] at colormode
  have light_eq := h.kept_light (show "xy" ∈ Bridge.absoluteKeys by decide) (by decide) (by decide)
  have cache_eq : (beforeRestore light color alert rAlert rRestore).cache.find? "xy" =
      (beforeRestore light color alert rAlert rRestore).light.find? "xy" := by
    rw [h.quietRestore.inv.shown "xy" (by decide), h.quietRestore.settled "xy"]
    exact Option.map_id_fun.symm ▸ rfl
  rw [afterRestore, step_light_of_some h.quietRestore h.admissibleRestore
    h.restores.incrementFree (by decide) requested]
  split
  · rename_i shown
    rw [light_eq]
    cases colored : (color.request light).find? "xy" with
    | none =>
        exact (step_light_of_none (quiet_start h.typed) h.admissibleColor h.colors.incrementFree
          (by decide) (by decide) colored).trans before
    | some w =>
        have after := step_light_of_some (quiet_start h.typed) h.admissibleColor
          h.colors.incrementFree (by decide) colored
        rw [afterColor, after]
        split
        · exact before
        · rename_i unshown
          rw [light_eq, afterColor, after, if_neg unshown] at cache_eq
          obtain ⟨x, y, rfl⟩ := h.typed.pair before rfl
          obtain ⟨x', y', rfl⟩ := (color.transaction light).typed.pair colored rfl
          simp only [looksSet, known, cache_eq, Option.any_some, Bool.and_eq_true] at shown
          simp only [looksSet, known, colormode, before, Option.any_some, decide_true,
            Bool.true_and] at unshown
          have flipped : sameValue (.arr [.num x', .num y']) (.arr [.num x, .num y]) =
              sameValue (.arr [.num x, .num y]) (.arr [.num x', .num y']) := sameValue_comm rfl
          exact absurd (flipped ▸ shown.2) unshown
  · rfl

/-- If the alert's colour is of the old mode or the cache was refreshed in between, the
restoring commit takes effect, and what it does not set was never changed. -/
theorem restored (refreshed : alertMode = mode ∨ rAlert = .refreshed ∨ rRestore = .refreshed) :
    Restored light (afterRestore light color alert restore rAlert rRestore).light := by
  have recorded := h.quietRestore.recorded h.restores.incrementFree
    fun key m last known contained lastMode => by
      obtain ⟨rfl, unreadAlert, unread⟩ := h.ledger_mode lastMode
      rw [h.restores.only key m known contained]
      rcases refreshed with same | read | read
      · exact same
      · exact absurd read unreadAlert
      · exact absurd read unread
  have value := @inEffect_value _ _ h.quietRestore.inv h.admissibleRestore recorded
  refine ⟨?_, ?_, ?_, ?_⟩
  · obtain ⟨on, requested⟩ := OrderedMap.contains_iff.mp h.restores.on.1
    rw [← h.restores.on.2, requested]
    exact value (by decide) requested
  · cases requested : (restore.request
        (beforeRestore light color alert rAlert rRestore).cache).find? "bri" with
    | some bri =>
        have same := h.restores.bri.resolve_left (by simp [requested])
        rw [← same, requested]
        exact value (by decide) requested
    | none =>
        have kept : (system.step (beforeAlert light color rAlert) alert).light.find? "bri" =
            light.find? "bri" := by
          rw [step_light_of_none h.quietAlert h.admissibleAlert h.alert_incrementFree
            (by decide) (by decide) (h.alerts "bri" (by decide))]
          have colored := @step_light_of_none _ _ (quiet_start h.typed) h.admissibleColor
            h.colors.incrementFree "bri" (by decide) (by decide) (h.bri requested)
          cases rAlert <;> exact colored
        refine (step_light_of_none h.quietRestore h.admissibleRestore
          h.restores.incrementFree (by decide) (by decide) requested).trans ?_
        cases rRestore <;> exact kept
  · obtain ⟨key, known, contained⟩ := h.restores.present
    rw [h.colormode]
    exact inEffect_mode h.quietRestore.inv h.admissibleRestore recorded known contained
  · intro key m current known
    rw [h.colormode, Option.some.injEq, Json.str.injEq] at current
    subst current
    obtain ⟨contained, same⟩ := h.restores.colors key known
    obtain ⟨v, requested⟩ := OrderedMap.contains_iff.mp contained
    rw [← same, requested]
    split
    · rename_i isXY
      subst isXY
      have before := same ▸ requested
      rw [h.restored_xy (Option.some.inj known).symm before requested]
      exact .refl _
    · rename_i notXY
      have settable : key ∈ setKeys := by
        rcases colormodes_cases known with ⟨rfl, -⟩ | ⟨rfl, -⟩ | ⟨rfl, -⟩ | ⟨rfl, -⟩ <;> decide
      have effect := value settable requested
      rwa [if_neg notXY] at effect

/-- Otherwise the restoring colour looks set, and the light keeps the alert's mode. -/
theorem mode_of_unread (other : alertMode ≠ mode) (unreadAlert : rAlert ≠ .refreshed)
    (unread : rRestore ≠ .refreshed) :
    (afterRestore light color alert restore rAlert rRestore).light.find? "colormode" =
      some (.str alertMode) := by
  have alertState : beforeAlert light color rAlert = afterColor light color := by
    cases rAlert with
    | refreshed => exact absurd rfl unreadAlert
    | fresh | failed e => rfl
  have restoreState : beforeRestore light color alert rAlert rRestore =
      system.step (beforeAlert light color rAlert) alert := by
    cases rRestore with
    | refreshed => exact absurd rfl unread
    | fresh | failed e => rfl
  have colored : (afterColor light color).light.find? "colormode" = some (.str alertMode) := by
    obtain ⟨key, known, contained⟩ := h.colors.present
    refine inEffect_mode (quiet_start h.typed).inv h.admissibleColor ?_ known contained
    exact (quiet_start h.typed).recorded h.colors.incrementFree
      fun _ _ _ _ _ last => absurd last (by simp [Ledger.empty])
  -- The cache still has the old mode and its colours.
  have cached : ∀ key, key ≠ "on" → key ≠ "alert" → (color.request light).find? key = none →
      (beforeRestore light color alert rAlert rRestore).cache.find? key = light.find? key := by
    intro key notOn notAlert unrequested
    rw [restoreState, step_cache_of_none h.quietAlert h.admissibleAlert notOn
      (h.alerts key notAlert), alertState]
    exact step_cache_of_none (quiet_start h.typed) h.admissibleColor notOn unrequested
  have colorless : ∀ key m, colormodes.lookup key = some m →
      ((restore.transaction (beforeRestore light color alert rAlert rRestore).cache).body
        true).find? key = none := by
    intro key m known
    refine Option.eq_none_iff_forall_ne_some.mpr fun v sent => ?_
    obtain ⟨requested, unshown⟩ := requested_of_body (color_ne known rfl) sent
    have ofMode : m = mode :=
      h.restores.only key m known (OrderedMap.contains_iff.mpr ⟨v, requested⟩)
    subst ofMode
    have unrequested : (color.request light).find? key = none := by
      refine Option.eq_none_iff_forall_ne_some.mpr fun w found => other ?_
      exact (h.colors.only key m known (OrderedMap.contains_iff.mpr ⟨w, found⟩)).symm
    have current := cached key (color_ne known rfl) (color_ne known rfl) unrequested
    have currentMode := cached "colormode" (by decide) (by decide)
      (request_colormode color light)
    rw [← (h.restores.colors key known).2, requested] at current
    rw [h.colormode] at currentMode
    simp [looksSet, known, currentMode, current, sameValue_requested known requested] at unshown
  have kept := (step_mode_of_none h.quietRestore h.admissibleRestore colorless).1
  rw [afterRestore, kept, restoreState, h.alert_mode.1, alertState, colored]

theorem restored_iff :
    Restored light (afterRestore light color alert restore rAlert rRestore).light ↔
      alertMode = mode ∨ rAlert = .refreshed ∨ rRestore = .refreshed := by
  refine ⟨fun restored => ?_, h.restored⟩
  by_contra unrefreshed
  push Not at unrefreshed
  have mode := h.mode_of_unread unrefreshed.1 unrefreshed.2.1 unrefreshed.2.2
  rw [restored.colormode, h.colormode, Option.some.injEq, Json.str.injEq] at mode
  exact unrefreshed.1 mode.symm

end AlertRun

end Hueplusplus
