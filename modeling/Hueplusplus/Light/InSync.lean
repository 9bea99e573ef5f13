import Hueplusplus.Light.Commands

/-!
# A light and its cache

The cache is refreshed or not whenever it is read, and each PUT may fail. Commands write to the
cache what was accepted, so it shows the attributes of the light at the bridge all the time, also
after an alert that broke off halfway. A getter that refreshes the cache finds nothing new.

A PUT can change the light although the library sees no success, because the reply is lost or
confirms a part only. No commit tells the cache: the attributes changed that way are `unsure`, and
nothing is said about them until a refresh. The colour mode is left out as well, which no commit
writes to the cache.
-/

namespace Hueplusplus

open Effect StateTransaction Sync

/-- The attributes that no PUT without a success has changed. -/
def sureKeys (unsure : List String) : List String :=
  Bridge.absoluteKeys.filter fun key => !unsure.contains key

theorem mem_sureKeys {unsure : List String} {key : String} :
    key ∈ sureKeys unsure ↔ key ∈ Bridge.absoluteKeys ∧ key ∉ unsure := by
  simp [sureKeys]

/-- The cache shows the attributes of the light at the bridge, but for those in `unsure`. -/
structure InSync (l : Light) (unsure : List String) (w : World) : Prop where
  cacheTyped : WellTyped w.cache
  lightTyped : WellTyped w.light
  cacheControls : ∀ key ∈ l.controls, (w.cache.find? key).isSome
  lightControls : ∀ key ∈ l.controls, (w.light.find? key).isSome
  shown : SameAttributes (sureKeys unsure) w.cache w.light

/-- Wherever cache and light agree before, they agree after. -/
def KeepsSync (l : Light) (unsure : List String) (w w' : World) : Prop :=
  InSync l unsure w → InSync l unsure w'

instance (l : Light) (unsure : List String) : IsPreorder World (KeepsSync l unsure) where
  refl _ := id
  trans _ _ _ first second := second ∘ first

theorem SetterCall.mem_absoluteKeys {setter : SetterCall} (absolute : setter.isAbsolute)
    {entry : String × Json} (member : entry ∈ setter.sets) :
    entry.1 = "transitiontime" ∨ entry.1 ∈ Bridge.absoluteKeys := by
  cases setter with
  | incrementBrightness | incrementSaturation | incrementHue | incrementColorTemperature
  | incrementColorXY => exact nomatch absolute
  | setTransition =>
      obtain rfl := List.mem_singleton.mp member
      exact .inl rfl
  | setColorHueSaturation | setColorXYBrightness =>
      rcases List.mem_pair.mp member with rfl | rfl <;> exact .inr (List.contains_iff_mem.mp rfl)
  | _ =>
      obtain rfl := List.mem_singleton.mp member
      exact .inr (List.contains_iff_mem.mp rfl)

theorem request_eq_none {u : Update} {cache : Object} {key : String}
    (silent : ∀ setter ∈ u.setters, setter.value? key = none) :
    (u.request cache).find? key = none := by
  have given : given (writers u.setters) key = [] :=
    List.filterMap_eq_nil_iff.mpr fun setter written =>
      silent setter (List.mem_of_mem_filter written)
  rw [Update.request, Update.transaction, find?_calls, given]
  rfl

theorem incrementFree_request {u : Update} {cache : Object}
    (absolute : ∀ setter ∈ u.setters, setter.isAbsolute) : IncrementFree (u.request cache) := by
  have other : ∀ entry ∈ Bridge.increments,
      ¬(entry.2 = "transitiontime" ∨ entry.2 ∈ Bridge.absoluteKeys) := by decide
  intro entry member
  refine request_eq_none fun setter called => ?_
  refine Option.eq_none_iff_forall_ne_some.mpr fun value found => other entry member ?_
  exact SetterCall.mem_absoluteKeys (absolute setter called) (AssocList.mem_of_find? found)

namespace InSync

variable {l : Light} {unsure : List String} {w : World}

theorem controls_absolute {key : String} (control : key ∈ l.controls) :
    key ∈ Bridge.absoluteKeys := by
  have listed : key ∈ ["bri", "ct"] := by
    rw [Light.controls] at control
    split_ifs at control <;> simp_all
  have all : ∀ key ∈ ["bri", "ct"], key ∈ Bridge.absoluteKeys := by decide
  exact all key listed

theorem refreshed (h : InSync l unsure w) : InSync l unsure ⟨w.light, w.light⟩ where
  cacheTyped := h.lightTyped
  lightTyped := h.lightTyped
  cacheControls := h.lightControls
  lightControls := h.lightControls
  shown _ _ := rfl

variable {u : Update} {o : Occasion}

/-- A commit sends nothing and changes nothing, or it is accepted and written to the cache and to
the light, or what happens is up to the bridge and the cache stays. -/
theorem committed_cases (h : InSync l unsure w) (u : Update) (o : Occasion) :
    (∃ outcome, w.committed o ((u.transaction w.cache).commit true) = (outcome, w)) ∨
      (∃ outcome, w.committed o ((u.transaction w.cache).commit true) = (outcome,
        ⟨w.cache, o.unaccepted w.light ((u.transaction w.cache).body true)⟩)) ∨
      w.committed o ((u.transaction w.cache).commit true) = (.ok true,
        ⟨w.cache.overlay (((u.transaction w.cache).body true).erase "transitiontime"),
          Bridge.apply w.light ((u.transaction w.cache).body true)⟩) := by
  rcases commit_cases (u.transaction w.cache) true (wellTyped_transaction h.cacheTyped u) with
    ⟨-, result⟩ | ⟨-, ⟨e, result⟩ | result | result⟩ <;> rw [result, transaction_state]
  · exact .inl ⟨.ok true, rfl⟩
  · exact .inr (.inl ⟨.error e, rfl⟩)
  · exact .inr (.inl ⟨.ok false, rfl⟩)
  · exact .inr (.inr rfl)

/-- The bridge takes the attributes over as they were sent. -/
theorem find?_applied (absolute : ∀ setter ∈ u.setters, setter.isAbsolute) {key : String}
    (member : key ∈ Bridge.absoluteKeys) :
    (Bridge.apply w.light ((u.transaction w.cache).body true)).find? key =
      (((u.transaction w.cache).body true).find? key).or (w.light.find? key) :=
  Bridge.find?_apply_of_absolute w.light member <|
    incrementFree_body (s := ⟨w.cache, w.light, .empty⟩) (incrementFree_request absolute) key

theorem committed (h : InSync l unsure w) (confined : o.Confined unsure)
    (absolute : ∀ setter ∈ u.setters, setter.isAbsolute) :
    InSync l unsure (w.committed o ((u.transaction w.cache).commit true)).2 := by
  have typed := wellTyped_body u w.cache
  rcases h.committed_cases u o with ⟨outcome, result⟩ | ⟨outcome, result⟩ | result <;> rw [result]
  · exact h
  · refine ⟨h.cacheTyped, confined.typed _ _ h.lightTyped typed, h.cacheControls,
      fun key control => confined.kept _ _ key (h.lightControls key control), fun key sure => ?_⟩
    obtain ⟨member, unchanged⟩ := mem_sureKeys.mp sure
    exact (h.shown key sure).trans (confined.others _ _ key member unchanged).symm
  · refine ⟨wellTyped_overlay h.cacheTyped (typed.filter _),
      Bridge.wellTyped_apply h.lightTyped typed, fun key control => ?_, fun key control => ?_,
      fun key sure => ?_⟩
    · rw [OrderedMap.find?_overlay, Option.isSome_or, h.cacheControls key control, Bool.or_true]
    · rw [find?_applied absolute (controls_absolute control), Option.isSome_or,
        h.lightControls key control, Bool.or_true]
    · obtain ⟨member, -⟩ := mem_sureKeys.mp sure
      rw [find?_applied absolute member, OrderedMap.find?_overlay, OrderedMap.find?_erase,
        if_neg (Bridge.absoluteKeys_ne member).2.symm, h.shown key sure]

/-- A commit leaves what it does not set, `on` apart. -/
theorem committed_of_none (h : InSync l unsure w) (confined : o.Confined unsure)
    (absolute : ∀ setter ∈ u.setters, setter.isAbsolute) {key : String}
    (sure : key ∈ sureKeys unsure) (notOn : key ≠ "on")
    (unset : (u.request w.cache).find? key = none) :
    (w.committed o ((u.transaction w.cache).commit true)).2.light.find? key =
      w.light.find? key := by
  obtain ⟨member, unchanged⟩ := mem_sureKeys.mp sure
  rcases h.committed_cases u o with ⟨outcome, result⟩ | ⟨outcome, result⟩ | result
  · rw [result]
  · rw [result]
    exact confined.others _ _ key member unchanged
  · have unsent := body_find?_none (s := ⟨w.cache, w.light, .empty⟩) notOn unset
    rw [result, find?_applied absolute member, unsent, Option.none_or]

end InSync

section Within

variable {l : Light} {unsure : List String}

theorem Observes.within {α : Type} {x : LightM α} (observes : Observes Bridge.absoluteKeys x) :
    Within (KeepsSync l unsure) x := by
  intro w h
  rwa [observes.state w]

theorem within_getValue (read : Refresh) : Within (KeepsSync l unsure) (Light.getValue read) := by
  intro w h
  cases read with
  | fresh | failed => exact h
  | refreshed => exact h.refreshed

theorem result_commitTransaction (o : Occasion) (setters : List SetterCall) (w : World) :
    result (l.commitTransaction o setters) w =
      match o.refresh with
      | .failed e => (.error e, w)
      | .fresh => w.committed o (((l.update o setters).transaction w.cache).commit true)
      | .refreshed => (World.mk w.light w.light).committed o
        (((l.update o setters).transaction w.light).commit true) := by
  rw [Light.commitTransaction, result_bind]
  cases o.refresh <;> rfl

theorem within_commitTransaction {o : Occasion} (confined : o.Confined unsure)
    {setters : List SetterCall} (absolute : ∀ setter ∈ setters, setter.isAbsolute) :
    Within (KeepsSync l unsure) (l.commitTransaction o setters) := by
  intro w h
  rw [result_commitTransaction]
  cases o.refresh with
  | fresh => exact h.committed confined absolute
  | refreshed => exact h.refreshed.committed confined absolute
  | failed => exact h

/-- The first lines of every alert. -/
theorem within_prelude {read : Refresh} {rest : Object → String → Bool → LightM Bool}
    (within : ∀ state cType on, Within (KeepsSync l unsure) (rest state cType on)) :
    Within (KeepsSync l unsure) (do
      let state ← Light.getValue read
      let cType ← state.read "colormode" Json.getString
      let on ← state.read "on" Json.getBool
      rest state cType on) :=
  (within_getValue read).bind fun state =>
    (Observes.read state "colormode" _).within.bind fun cType =>
      (Observes.read state "on" _).within.bind fun on => within state cType on

/-- An alert that breaks off leaves its last accepted commit. -/
theorem within_alertSequence {env : Surroundings} (confined : env.Confined unsure)
    {setColor : Occasion → LightM Bool} {restore : List SetterCall}
    (colors : ∀ o, o.Confined unsure → Within (KeepsSync l unsure) (setColor o))
    (absolute : ∀ setter ∈ restore, setter.isAbsolute) :
    Within (KeepsSync l unsure) (l.alertSequence env setColor restore) := by
  refine (colors env.color confined.color).bind fun colored => within_ite (within_pure false) ?_
  refine Within.bind (within_commitTransaction confined.alert (by simp [SetterCall.isAbsolute]))
    fun alerted => within_ite (within_pure false) ?_
  exact within_commitTransaction confined.restore absolute

theorem within_setColorHueSaturation (hueSat : HueSaturation) (transition : UInt8)
    (o : Occasion) (confined : o.Confined unsure) :
    Within (KeepsSync l unsure) (l.setColorHueSaturation hueSat transition o) :=
  within_ite (within_commitTransaction confined (by simp [SetterCall.isAbsolute])) (within_pure _)

theorem within_setColorXY (xy : XYBrightness) (transition : UInt8) (o : Occasion)
    (confined : o.Confined unsure) : Within (KeepsSync l unsure) (l.setColorXY xy transition o) :=
  within_ite (within_commitTransaction confined (by simp [SetterCall.isAbsolute])) (within_pure _)

theorem within_setColorTemperature (mired : UInt32) (transition : UInt8) (o : Occasion)
    (confined : o.Confined unsure) :
    Within (KeepsSync l unsure) (l.setColorTemperature mired transition o) :=
  within_ite (within_commitTransaction confined (by simp [SetterCall.isAbsolute])) (within_pure _)

variable (l)

theorem within_getColorHueSaturation : Within (KeepsSync l unsure) l.getColorHueSaturation :=
  (Observes.getColorHueSaturation l (by decide) (by decide)).within

theorem within_getColorXY : Within (KeepsSync l unsure) l.getColorXY :=
  (Observes.getColorXY l (by decide) (by decide)).within

theorem within_getBrightness : Within (KeepsSync l unsure) l.getBrightness :=
  (Observes.getBrightness l (by decide)).within

section Alerts

variable {env : Surroundings} (confined : env.Confined unsure)

include confined

theorem within_simple_alertHueSaturation (hueSat : HueSaturation) (read : Refresh) :
    Within (KeepsSync l unsure) (SimpleColorHueStrategy.alertHueSaturation hueSat l env read) := by
  refine within_prelude fun state cType on => within_ite ?_ (within_ite ?_ (within_pure _))
  · exact (within_getColorHueSaturation l).bind fun oldHueSat => within_alertSequence
      confined (within_setColorHueSaturation hueSat 1) (by simp [SetterCall.isAbsolute])
  · exact (within_getColorXY l).bind fun oldXY => within_alertSequence
      confined (within_setColorHueSaturation hueSat 1) (by simp [SetterCall.isAbsolute])

theorem within_simple_alertXY (xy : XYBrightness) (read : Refresh) :
    Within (KeepsSync l unsure) (SimpleColorHueStrategy.alertXY xy l env read) := by
  refine within_prelude fun state cType on => within_ite ?_ (within_ite ?_ (within_pure _))
  · exact (within_getColorHueSaturation l).bind fun oldHueSat =>
      (within_getBrightness l).bind fun oldBrightness => within_alertSequence
        confined (within_setColorXY xy 1) (by simp [SetterCall.isAbsolute])
  · exact (within_getColorXY l).bind fun oldXY => within_alertSequence
      confined (within_setColorXY xy 1) (by simp [SetterCall.isAbsolute])

theorem within_alertHueSaturation (hueSat : HueSaturation) :
    Within (KeepsSync l unsure) (l.alertHueSaturation hueSat env) := by
  rw [Light.alertHueSaturation]
  split
  · exact within_simple_alertHueSaturation l confined hueSat env.read
  · refine within_prelude fun state cType on => within_ite ?_ ?_
    · exact within_simple_alertHueSaturation l confined hueSat env.readAgain
    · exact (Observes.read state "ct" _).within.bind fun oldCT => within_alertSequence
        confined (within_setColorHueSaturation hueSat 1) (by simp [SetterCall.isAbsolute])
  · exact within_pure _

theorem within_alertXY (xy : XYBrightness) : Within (KeepsSync l unsure) (l.alertXY xy env) := by
  rw [Light.alertXY]
  split
  · exact within_simple_alertXY l confined xy env.read
  · refine within_prelude fun state cType on => within_ite ?_ ?_
    · exact within_simple_alertXY l confined xy env.readAgain
    · exact (Observes.read state "ct" _).within.bind fun oldCT =>
        (within_getBrightness l).bind fun oldBrightness => within_alertSequence
          confined (within_setColorXY xy 1) (by simp [SetterCall.isAbsolute])
  · exact within_pure _

theorem within_simple_alertTemperature (mired : UInt32) (read : Refresh) :
    Within (KeepsSync l unsure)
      (SimpleColorTemperatureStrategy.alertTemperature mired l env read) := by
  refine within_prelude fun state cType on => within_ite ?_ (within_pure _)
  exact (Observes.read state "ct" _).within.bind fun oldCT => within_alertSequence
    confined (within_setColorTemperature mired 1) (by simp [SetterCall.isAbsolute])

theorem within_alertTemperature (mired : UInt32) :
    Within (KeepsSync l unsure) (l.alertTemperature mired env) := by
  rw [Light.alertTemperature]
  split
  · exact within_simple_alertTemperature l confined mired env.read
  · refine within_prelude fun state cType on => within_ite ?_ (within_ite ?_ (within_ite ?_ ?_))
    · exact within_simple_alertTemperature l confined mired env.readAgain
    · exact (within_getColorHueSaturation l).bind fun oldHueSat => within_alertSequence
        confined (within_setColorTemperature mired 1) (by simp [SetterCall.isAbsolute])
    · exact (within_getColorXY l).bind fun oldXy => within_alertSequence
        confined (within_setColorTemperature mired 1) (by simp [SetterCall.isAbsolute])
    · exact within_pure _
  · exact within_pure _

theorem within_alertWith (call : AlertCall) :
    Within (KeepsSync l unsure) (l.alertWith env call) := by
  cases call with
  | hueSaturation hueSat => exact within_alertHueSaturation l confined hueSat
  | xy xy => exact within_alertXY l confined xy
  | temperature mired => exact within_alertTemperature l confined mired

end Alerts

/-- A member that the light has is not added. -/
theorem within_stateMember (read : Refresh) {key : String} (control : key ∈ l.controls) :
    Within (KeepsSync l unsure) (Light.stateMember read key) := by
  intro w h
  have kept := within_getValue read w h
  rw [Light.stateMember, result_bind]
  cases ran : result (Light.getValue read) w with
  | mk outcome t =>
      rw [ran] at kept
      cases outcome with
      | error e => exact kept
      | ok state =>
          have cached : state = t.cache := by
            cases read with
            | fresh | refreshed =>
                obtain ⟨same, rfl⟩ := Prod.mk.inj ran
                exact (Except.ok.inj same).symm
            | failed e => exact nomatch (Prod.mk.inj ran).1
          obtain ⟨value, found⟩ := Option.isSome_iff_exists.mp (kept.cacheControls key control)
          rw [← cached] at found
          simp only [found, result_pure]
          exact kept

theorem within_ask (query : Light.Query) (read : Refresh) :
    Within (KeepsSync l unsure) (query.ask l read) := by
  cases query with
  | isOn =>
      refine Within.bind ?_ fun _ => within_pure _
      exact (within_getValue read).bind fun state => within_ofExcept _
  | brightness =>
      rw [Light.Query.ask]
      split
      · rename_i control
        refine Within.bind ?_ fun _ => within_pure _
        exact (within_stateMember l read (by simp [Light.controls, control])).bind fun bri =>
          (within_ofExcept _).bind fun _ => within_pure _
      · exact within_pure _
  | colorTemperature =>
      rw [Light.Query.ask]
      split
      · rename_i control
        refine Within.bind ?_ fun _ => within_pure _
        exact (within_stateMember l read (by simp [Light.controls, control])).bind fun ct =>
          (within_ofExcept _).bind fun _ => within_pure _
      · exact within_pure _
  | colorHueSaturation =>
      refine within_ite (Within.bind ?_ fun _ => within_pure _) (within_pure _)
      exact (within_getValue read).bind fun state =>
        (Observes.read state "hue" _).within.bind fun _ =>
          (Observes.read state "sat" _).within.bind fun _ => within_pure _
  | colorXY =>
      refine within_ite (Within.bind ?_ fun _ => within_pure _) (within_pure _)
      exact (within_getValue read).bind fun state => (Observes.readXY state).within

end Within

namespace TypedLight

variable {pow : ℚ → ℚ → ℚ} {l : TypedLight} {unsure : List String}

namespace Command

theorem absolute_cons {setter : SetterCall} {more : List SetterCall} (absolute : setter.isAbsolute)
    (transition : more = [] ∨ ∃ transition, more = [.setTransition transition]) :
    ∀ other ∈ setter :: more, other.isAbsolute := by
  have last : ∀ n, (SetterCall.setTransition n).isAbsolute := fun _ => rfl
  rcases transition with rfl | ⟨n, rfl⟩ <;> simp [absolute, last]

theorem within_run (pow : ℚ → ℚ → ℚ) (l : TypedLight) (command : Command) {o : Occasion}
    (confined : o.Confined unsure) :
    Within (KeepsSync l.toLight unsure) (command.run pow l o) := by
  cases runs pow l command with
  | unsupported run =>
      rw [run]
      exact within_pure false
  | failed e run =>
      rw [run]
      exact within_throw e
  | commits setter more run sets absolute plain transition =>
      rw [run]
      exact within_commitTransaction confined (absolute_cons absolute transition)

end Command

theorem invariant_inSync :
    (system pow l unsure).Invariant (InSync l.toLight unsure) where
  init w start := by
    obtain ⟨same, typed, controls⟩ := start
    exact ⟨same ▸ typed, typed, same ▸ controls, controls, fun _ _ => by rw [same]⟩
  step w event h confined := by
    cases event with
    | command command o => exact command.within_run pow l confined w h
    | alert call env => exact within_alertWith l.toLight confined call w h
    | query query read => exact within_ask l.toLight query read w h

section Queries

variable {l : Light} {w w' : World}

theorem result_stateMember {key : String} {value : Json} (found : w.cache.find? key = some value) :
    result (Light.stateMember .fresh key) w = (.ok value, w) := by
  have cached : result (Light.getValue .fresh) w = (.ok w.cache, w) := rfl
  rw [Light.stateMember, result_bind, cached]
  simp [found]

/-- If the cache is not refreshed, both getters return the same. -/
theorem ask_fresh (present : ∀ key ∈ l.controls, (w.cache.find? key).isSome)
    (query : Light.Query) :
    (result (query.ask l .fresh) w).1 = (result (query.constAsk l) w).1 := by
  cases query with
  | isOn => rfl
  | brightness =>
      cases control : l.brightnessStrategy.isSome with
      | false => simp [Light.Query.ask, Light.Query.constAsk, Light.getBrightness, control]
      | true =>
          obtain ⟨value, found⟩ := Option.isSome_iff_exists.mp
            (present "bri" (by simp [Light.controls, control]))
          simp only [Light.Query.ask, Light.Query.constAsk, Light.getBrightness, control, if_true,
            SimpleBrightnessStrategy.getBrightness, result_bind, result_stateMember found,
            result_get, Object.read, found]
  | colorTemperature =>
      cases control : l.colorTemperatureStrategy.isSome with
      | false => simp [Light.Query.ask, Light.Query.constAsk, Light.getColorTemperature, control]
      | true =>
          obtain ⟨value, found⟩ := Option.isSome_iff_exists.mp
            (present "ct" (by simp [Light.controls, control]))
          simp only [Light.Query.ask, Light.Query.constAsk, Light.getColorTemperature, control,
            if_true, SimpleColorTemperatureStrategy.getColorTemperature, result_bind,
            result_stateMember found, result_get, Object.read, found]
  | colorHueSaturation =>
      cases control : l.colorHueStrategy.isSome with
      | false => simp [Light.Query.ask, Light.Query.constAsk, Light.getColorHueSaturation, control]
      | true =>
          simp only [Light.Query.ask, Light.Query.constAsk, Light.getColorHueSaturation, control,
            if_true, SimpleColorHueStrategy.getColorHueSaturation, Light.getValue, Object.read,
            result_bind, result_get, result_pure]
          cases w.cache.find? "hue" with
          | none => rfl
          | some hue =>
              simp only [result_ofExcept]
              cases hue.getInt <;> rfl
  | colorXY =>
      cases control : l.colorHueStrategy.isSome with
      | false => simp [Light.Query.ask, Light.Query.constAsk, Light.getColorXY, control]
      | true =>
          simp only [Light.Query.ask, Light.Query.constAsk, Light.getColorXY_eq, control,
            if_true, SimpleColorHueStrategy.getColorXY]
          rfl

/-- A refresh comes before everything else. -/
theorem ask_refreshed (query : Light.Query) :
    (result (query.ask l .refreshed) w).1 =
      (result (query.ask l .fresh) ⟨w.light, w.light⟩).1 := by
  cases query with
  | isOn => rfl
  | brightness | colorTemperature | colorHueSaturation | colorXY =>
      rw [Light.Query.ask, Light.Query.ask]
      split <;> rfl

end Queries

section Commands

variable {w w' : World}

/-- What an accepted command set is what the cache and the light show, `xy` to 4 decimal places. -/
structure Shows (w : World) (key : String) (value : Json) : Prop where
  same : w.cache.find? key = w.light.find? key
  shown : ∃ current, w.cache.find? key = some current ∧
    if key = "xy" then Approx (some current) (some value) else current = value

theorem request_of_setter {u : Update} {cache : Object} {setter : SetterCall}
    {more : List SetterCall} (calls : u.setters = setter :: more)
    (plain : setter.transition? = none)
    (transition : more = [] ∨ ∃ transition, more = [.setTransition transition]) {key : String}
    {value : Json} (given : setter.value? key = some value) (other : key ≠ "transitiontime") :
    (u.request cache).find? key = some value := by
  have one : ∀ t : StateTransaction, (t.call setter).request.find? key = some value := by
    intro t
    rw [find?_call (by simp [plain]), given]
    rfl
  rw [Update.request, Update.transaction, calls]
  rcases transition with rfl | ⟨n, rfl⟩
  · exact one _
  · exact (find?_setTransition _ n other).trans (one _)

theorem shows_of_accepted (h : InSync l.toLight unsure w) {command : Command} {o : Occasion}
    (confined : o.Confined unsure) (success : Returns (command.run pow l o) w true w') :
    ∃ setter, command.setter pow l = .ok setter ∧
      ∀ key value, setter.value? key = some value → key ∉ unsure → Shows w' key value := by
  have after : InSync l.toLight unsure w' := by
    have kept := command.within_run pow l confined w h
    rwa [show result (command.run pow l o) w = _ from success] at kept
  cases command.runs pow l with
  | unsupported run =>
      rw [run] at success
      exact nomatch (returns_pure.mp success).1
  | failed e run =>
      rw [run] at success
      exact (returns_throw.mp success).elim
  | commits setter more run sets absolute plain transition =>
      rw [run] at success
      obtain ⟨accepted, rfl⟩ := returns_commitTransaction (s := ⟨w.cache, w.light, .empty⟩) success
      generalize before : State.read ⟨w.cache, w.light, .empty⟩ o.refresh = s at *
      have typed : WellTyped s.cache := by
        rw [← before]
        cases o.refresh with
        | fresh | failed => exact h.cacheTyped
        | refreshed => exact h.lightTyped
      obtain ⟨cache, stored, follows⟩ := follows_of_accepted typed accepted
      refine ⟨setter, sets, fun key value given sure => ?_⟩
      have other : key ≠ "transitiontime" := by
        rintro rfl
        rw [SetterCall.value?_transitiontime, plain] at given
        exact nomatch given
      have absolute : key ∈ Bridge.absoluteKeys := by
        have member := AssocList.mem_of_find? given
        exact (SetterCall.mem_absoluteKeys absolute member).resolve_left other
      refine ⟨after.shown key (mem_sureKeys.mpr ⟨absolute, sure⟩), ?_⟩
      have left : (Sync.system.step s (l.update o (setter :: more))).cache = cache := by
        simp only [Sync.system, stored, Option.getD_some]
      rw [left]
      exact follows.shown typed other
        (request_of_setter rfl plain transition given other)

theorem others_of_run (h : InSync l.toLight unsure w) (command : Command) {o : Occasion}
    (confined : o.Confined unsure) {key : String} (sure : key ∈ sureKeys unsure)
    (notOn : key ≠ "on")
    (unset : ∀ setter, command.setter pow l = .ok setter → setter.value? key = none) :
    (result (command.run pow l o) w).2.light.find? key = w.light.find? key := by
  cases command.runs pow l with
  | unsupported run => rw [run, result_pure]
  | failed e run => rw [run, result_throw]
  | commits setter more run sets absolute plain transition =>
      have silent : ∀ other ∈ setter :: more, other.value? key = none := by
        intro other called
        rcases List.mem_cons.mp called with rfl | later
        · exact unset _ sets
        · rcases transition with rfl | ⟨n, rfl⟩
          · exact nomatch later
          · rw [List.mem_singleton.mp later]
            exact SetterCall.value?_eq_none_of_transition rfl
              (Bridge.absoluteKeys_ne (mem_sureKeys.mp sure).1).2
      have all := Command.absolute_cons absolute transition
      rw [run, result_commitTransaction]
      cases o.refresh with
      | fresh => exact h.committed_of_none confined all sure notOn (request_eq_none silent)
      | refreshed =>
          exact h.refreshed.committed_of_none confined all sure notOn (request_eq_none silent)
      | failed => rfl

/-- What a program can rely on between two calls, where PUTs without a success have changed no
attributes but `unsure`. -/
structure InStep (pow : ℚ → ℚ → ℚ) (l : TypedLight) (unsure : List String) (w : World) :
    Prop where
  attributes : SameAttributes (sureKeys unsure) w.cache w.light
  /-- Every getter returns what it would return of the light's own state. -/
  readings : ∀ query : Light.Query, (∀ key ∈ query.reads, key ∉ unsure) →
    ∀ getter ∈ [query.constAsk l.toLight, query.ask l.toLight .fresh],
      (result getter w).1 = (result (query.constAsk l.toLight) ⟨w.light, w.light⟩).1
  /-- One that refreshes the cache does so in any case. -/
  refreshed : ∀ query : Light.Query, (result (query.ask l.toLight .refreshed) w).1 =
    (result (query.constAsk l.toLight) ⟨w.light, w.light⟩).1
  /-- From a refresh on, nothing is unsure that was before. -/
  restarts : ∀ unsure', (system pow l unsure').init (result (Light.getValue .refreshed) w).2
  /-- An accepted command is what the cache and the light show. -/
  commands : ∀ (command : Command) (o : Occasion) (w' : World), o.Confined unsure →
    Returns (command.run pow l o) w true w' →
      ∃ setter, command.setter pow l = .ok setter ∧
        ∀ key value, setter.value? key = some value → key ∉ unsure → Shows w' key value
  /-- Whether or not it is accepted, it leaves what it does not set, `on` apart. -/
  others : ∀ (command : Command) (o : Occasion), o.Confined unsure →
    ∀ key ∈ sureKeys unsure, key ≠ "on" →
      (∀ setter, command.setter pow l = .ok setter → setter.value? key = none) →
        (result (command.run pow l o) w).2.light.find? key = w.light.find? key

/-- In every run of commands, alerts and getters on a light, the cache keeps up with it. -/
theorem inStep_of_reachable {w : World} (reachable : (system pow l unsure).Reachable w) :
    InStep pow l unsure w := by
  have h := invariant_inSync.holds reachable
  refine ⟨h.shown, fun query sure getter member => ?_, fun query => ?_,
    fun _ => ⟨rfl, h.lightTyped, h.lightControls⟩,
    fun command o w' confined => shows_of_accepted h confined,
    fun command o confined key => others_of_run h command confined⟩
  · have listed : ∀ key ∈ query.reads, key ∈ Bridge.absoluteKeys := by
      cases query <;> decide
    have current := (Observes.constAsk l.toLight query).outcome w ⟨w.light, w.light⟩
      fun key read => h.shown key (mem_sureKeys.mpr ⟨listed key read, sure key read⟩)
    rcases List.mem_pair.mp member with rfl | rfl
    · exact current
    · exact (ask_fresh h.cacheControls query).trans current
  · rw [ask_refreshed]
    exact ask_fresh h.lightControls query

/-- A bridge that takes over the brightness, and whose reply is lost. -/
def brightnessLost (brightness : ℕ) : Occasion where
  refresh := .fresh
  commands :=
    { Utils.acknowledgingCommands with
      httpHandler :=
        { Utils.acknowledgingCommands.httpHandler with
          putJson := fun _ _ _ _ _ => .error (.systemError .connectionReset) } }
  unaccepted light _ := light.insert "bri" (.num brightness)

theorem confined_brightnessLost (brightness : ℕ) :
    (brightnessLost brightness).Confined ["bri"] where
  typed light _ typed _ := by
    have integral : Kind.integer.holds (.num brightness) = true :=
      Kind.holds_iff.mpr ⟨brightness, by simp⟩
    exact typed.insert integral
  kept light _ key present := by
    rw [brightnessLost, OrderedMap.find?_insert]
    split
    · rfl
    · exact present
  others light _ key _ unchanged := by
    rw [List.mem_singleton] at unchanged
    exact OrderedMap.find?_insert_ne _ _ (Ne.symm unchanged)

/-- After an alert in another mode, which leaves its colour on the light, and a brightness whose
reply was lost. -/
theorem inStep_of_reachable_alert :
    let l : TypedLight := { LightFactory.createLight 1 .extendedColor with colorType := .gamutC }
    InStep RGB.roughPow l ["bri"]
      ((system RGB.roughPow l ["bri"]).run ⟨temperatureLight, temperatureLight⟩
        [.alert (.hueSaturation ⟨20000, 254⟩) freshSurroundings,
          .command (.setBrightness 10 4) (brightnessLost 10),
          .command (.setColorHue 300 4) freshSurroundings.color]) := by
  intro l
  have controls : ∀ key ∈ l.controls, (temperatureLight.find? key).isSome := by decide +kernel
  have start : (system RGB.roughPow l ["bri"]).Reachable ⟨temperatureLight, temperatureLight⟩ :=
    .init ⟨rfl, by decide +kernel, controls⟩
  have unchanged : freshSurroundings.color.Confined ["bri"] :=
    ⟨fun _ _ typed _ => typed, fun _ _ _ => id, fun _ _ _ _ _ => rfl⟩
  have alerts : freshSurroundings.Confined ["bri"] := ⟨unchanged, unchanged, unchanged⟩
  have alerted := start.step (Event.alert (.hueSaturation ⟨20000, 254⟩) freshSurroundings) alerts
  have lost := alerted.step (Event.command (.setBrightness 10 4) (brightnessLost 10))
    (confined_brightnessLost 10)
  exact inStep_of_reachable
    (lost.step (Event.command (.setColorHue 300 4) freshSurroundings.color) unchanged)

end Commands

end TypedLight

end Hueplusplus
