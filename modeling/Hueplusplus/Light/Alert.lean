import Hueplusplus.Light.AlertSequence
import Mathlib.Tactic.FieldSimp

/-!
# When an alert restores the light

Each strategy method is an `AlertRun`: the colour it sets is of the alert's mode, and
the commands of its last transaction are the old values, read before. Since `commit`
does not write the colour mode to the cache, the last transaction is trimmed to nothing
when the alert is of another mode than the light was, unless the cache is refreshed
between.
-/

namespace Hueplusplus

open Effect Sync StateTransaction

/-- A light's state with values the setters can send. -/
structure LightState (light : Object) : Prop where
  typed : WellTyped light
  bri : ∀ n : ℤ, light.find? "bri" = some (.num n) → 0 ≤ n ∧ n ≤ 254
  hue : ∀ n : ℤ, light.find? "hue" = some (.num n) → 0 ≤ n ∧ n ≤ 65535
  sat : ∀ n : ℤ, light.find? "sat" = some (.num n) → 0 ≤ n ∧ n ≤ 254
  ct : ∀ n : ℤ, light.find? "ct" = some (.num n) → 153 ≤ n ∧ n ≤ 500
  xy : ∀ x y, light.find? "xy" = some (.arr [.num x, .num y]) →
    (0 ≤ x ∧ x ≤ 1) ∧ 0 ≤ y ∧ y ≤ 1

namespace LightState

variable {light : Object} (state : LightState light)
include state

theorem hue_sent {h : ℤ} (hue : light.find? "hue" = some (.num h)) :
    max 0 (min h 65535) = h := by
  have := state.hue h hue
  omega

theorem sat_sent {s : ℤ} (sat : light.find? "sat" = some (.num s)) : max 0 (min s 254) = s := by
  have := state.sat s sat
  omega

theorem bri_sent {b : ℤ} (bri : light.find? "bri" = some (.num b)) :
    ((min (UInt32.ofInt b).toUInt8.toNat 254 : ℕ) : ℤ) = b := by
  have := state.bri b bri
  simp [UInt32.ofInt]
  omega

theorem ct_sent {n : ℤ} (ct : light.find? "ct" = some (.num n)) :
    ((max 153 (min (UInt16.ofInt n).toUInt32.toNat 500) : ℕ) : ℤ) = n := by
  have := state.ct n ct
  simp [UInt16.ofInt]
  omega

end LightState

section Requests

variable {u : Update} {cache light : Object}

/-- A request whose colours are of one mode, by its keys. -/
theorem colors_of_keys {entries : List (String × Json)} {mode : String} (keys : List String)
    (named : entries.map Prod.fst = keys)
    (plain : ∀ key ∈ keys, key ∉ Bridge.increments.map Prod.snd ∧
      ∀ entry ∈ colormodes, entry.1 = key → entry.2 = mode)
    (present : ∃ key ∈ keys, colormodes.lookup key = some mode) :
    Colors mode (.ofList entries) where
  incrementFree entry member := by
    refine Option.eq_none_iff_forall_ne_some.mpr fun d found => ?_
    have listed := OrderedMap.contains_ofList_iff.mp (OrderedMap.contains_iff.mpr ⟨d, found⟩)
    exact (plain _ (named ▸ listed)).1 (List.mem_map_of_mem member)
  only key m known contained :=
    (plain key (named ▸ OrderedMap.contains_ofList_iff.mp contained)).2 (key, m)
      (lookup_colormodes_iff.mp known) rfl
  present := by
    obtain ⟨key, listed, known⟩ := present
    exact ⟨key, known, OrderedMap.contains_ofList_iff.mpr (named ▸ listed)⟩

/-- A request that restores a mode, by its keys and by its values being the state's. -/
theorem restores_of_keys {entries : List (String × Json)} {mode : String} (keys : List String)
    (named : entries.map Prod.fst = keys)
    (plain : ∀ key ∈ keys, key ∉ Bridge.increments.map Prod.snd ∧
      ∀ entry ∈ colormodes, entry.1 = key → entry.2 = mode)
    (complete : "on" ∈ keys ∧ (∀ entry ∈ colormodes, entry.2 = mode → entry.1 ∈ keys) ∧
      ∃ key ∈ keys, colormodes.lookup key = some mode)
    (values : ∀ entry ∈ entries, entry.1 ≠ "transitiontime" →
      light.find? entry.1 = some entry.2) :
    Restores light mode (.ofList entries) := by
  have same : ∀ key, key ∈ keys → key ≠ "transitiontime" →
      (OrderedMap.ofList entries).contains key = true ∧
        (OrderedMap.ofList entries).find? key = light.find? key := by
    intro key listed other
    have contained := OrderedMap.contains_ofList_iff.mpr (named ▸ listed)
    obtain ⟨v, found⟩ := OrderedMap.contains_iff.mp contained
    rw [found, values (key, v) (OrderedMap.mem_of_find?_ofList found) other]
    exact ⟨contained, rfl⟩
  refine ⟨colors_of_keys keys named plain complete.2.2, same "on" complete.1 (by decide), ?_, ?_⟩
  · intro key known
    exact same key (complete.2.1 (key, mode) (lookup_colormodes_iff.mp known) rfl)
      (color_ne known rfl)
  · by_cases listed : "bri" ∈ keys
    · exact .inr (same "bri" listed (by decide)).2
    · refine .inl (OrderedMap.contains_eq_false_iff.mp (Bool.eq_false_iff.mpr fun contained => ?_))
      exact listed (named ▸ OrderedMap.contains_ofList_iff.mp contained)

theorem find?_bri_of_keys {entries : List (String × Json)} (keys : List String)
    (named : entries.map Prod.fst = keys) :
    (OrderedMap.ofList entries).find? "bri" = none ↔ "bri" ∉ keys := by
  rw [← OrderedMap.contains_eq_false_iff, ← named, ← OrderedMap.contains_ofList_iff,
    Bool.not_eq_true]

theorem request_hueSaturation {hueSat : HueSaturation}
    (setters : u.setters = [.setColorHueSaturation hueSat, .setTransition 1]) :
    u.request cache = .ofList
      [("hue", .num (max 0 (min hueSat.hue 65535) : ℤ)),
        ("sat", .num (max 0 (min hueSat.saturation 254) : ℤ)), ("transitiontime", .num 1)] := by
  rw [Update.request, Update.transaction, setters]
  rfl

theorem request_xy {xy : XYBrightness}
    (setters : u.setters = [.setColorXYBrightness xy, .setTransition 1]) :
    u.request cache = .ofList
      [("bri", .num (max 0 (min (stdRound (xy.brightness * 254)) 254) : ℤ)),
        ("xy", .arr [.num (max 0 (min xy.xy.x 1)), .num (max 0 (min xy.xy.y 1))]),
        ("transitiontime", .num 1)] := by
  rw [Update.request, Update.transaction, setters]
  rfl

theorem request_temperature {mired : UInt32}
    (setters : u.setters = [.setColorTemperature mired, .setTransition 1]) :
    u.request cache = .ofList
      [("ct", .num (max 153 (min mired.toNat 500) : ℕ)), ("transitiontime", .num 1)] := by
  rw [Update.request, Update.transaction, setters]
  rfl

theorem colors_hueSaturation {hueSat : HueSaturation}
    (setters : u.setters = [.setColorHueSaturation hueSat, .setTransition 1]) :
    Colors "hs" (u.request cache) ∧ (u.request cache).find? "bri" = none := by
  rw [request_hueSaturation setters, find?_bri_of_keys ["hue", "sat", "transitiontime"] rfl]
  exact ⟨colors_of_keys ["hue", "sat", "transitiontime"] rfl (by decide) (by decide), by decide⟩

theorem colors_xy {xy : XYBrightness}
    (setters : u.setters = [.setColorXYBrightness xy, .setTransition 1]) :
    Colors "xy" (u.request cache) := by
  rw [request_xy setters]
  exact colors_of_keys ["bri", "xy", "transitiontime"] rfl (by decide) (by decide)

theorem colors_temperature {mired : UInt32}
    (setters : u.setters = [.setColorTemperature mired, .setTransition 1]) :
    Colors "ct" (u.request cache) ∧ (u.request cache).find? "bri" = none := by
  rw [request_temperature setters, find?_bri_of_keys ["ct", "transitiontime"] rfl]
  exact ⟨colors_of_keys ["ct", "transitiontime"] rfl (by decide) (by decide), by decide⟩

end Requests

section Restore

variable {u : Update} {cache light : Object} (state : LightState light) {on : Bool}
  (flag : light.find? "on" = some (.bool on))
include state flag

theorem restores_hueSaturation {h s : ℤ} (hue : light.find? "hue" = some (.num h))
    (sat : light.find? "sat" = some (.num s))
    (setters : u.setters = [.setColorHueSaturation ⟨h, s⟩, .setOn on, .setTransition 1]) :
    Restores light "hs" (u.request cache) := by
  have request : u.request cache = .ofList
      [("hue", .num (max 0 (min h 65535) : ℤ)), ("sat", .num (max 0 (min s 254) : ℤ)),
        ("on", .bool on), ("transitiontime", .num 1)] := by
    rw [Update.request, Update.transaction, setters]
    rfl
  rw [request, state.hue_sent hue, state.sat_sent sat]
  exact restores_of_keys ["hue", "sat", "on", "transitiontime"] rfl (by decide) (by decide)
    (by simp [hue, sat, flag])

theorem restores_hueSaturation_brightness {h s b : ℤ} (hue : light.find? "hue" = some (.num h))
    (sat : light.find? "sat" = some (.num s)) (bri : light.find? "bri" = some (.num b))
    (setters : u.setters = [.setColorHueSaturation ⟨h, s⟩,
      .setBrightness (UInt32.ofInt b).toUInt8, .setOn on, .setTransition 1]) :
    Restores light "hs" (u.request cache) ∧ (u.request cache).find? "bri" ≠ none := by
  have request : u.request cache = .ofList
      [("hue", .num (max 0 (min h 65535) : ℤ)), ("sat", .num (max 0 (min s 254) : ℤ)),
        ("bri", .num (min (UInt32.ofInt b).toUInt8.toNat 254 : ℕ)), ("on", .bool on),
        ("transitiontime", .num 1)] := by
    rw [Update.request, Update.transaction, setters]
    rfl
  rw [request, state.hue_sent hue, state.sat_sent sat, ← Int.cast_natCast, state.bri_sent bri, Ne,
    find?_bri_of_keys ["hue", "sat", "bri", "on", "transitiontime"] rfl]
  refine ⟨restores_of_keys ["hue", "sat", "bri", "on", "transitiontime"] rfl (by decide)
    (by decide) (by simp [hue, sat, bri, flag]), by decide⟩

theorem restores_xy {x y : ℚ} {b : ℤ} (xy : light.find? "xy" = some (.arr [.num x, .num y]))
    (bri : light.find? "bri" = some (.num b))
    (setters : u.setters = [.setColorXYBrightness ⟨⟨x, y⟩, b / 254⟩, .setOn on,
      .setTransition 1]) :
    Restores light "xy" (u.request cache) ∧ (u.request cache).find? "bri" ≠ none := by
  obtain ⟨hx, hy⟩ := state.xy x y xy
  have xClamp : max 0 (min x 1) = x := by rw [min_eq_left hx.2, max_eq_right hx.1]
  have yClamp : max 0 (min y 1) = y := by rw [min_eq_left hy.2, max_eq_right hy.1]
  have briClamp : max 0 (min (stdRound ((b / 254 : ℚ) * 254)) 254) = b := by
    have unscale : (b / 254 : ℚ) * 254 = b := by field_simp
    have := state.bri b bri
    rw [unscale, stdRound_intCast]
    omega
  have request : u.request cache = .ofList
      [("bri", .num (max 0 (min (stdRound ((b / 254 : ℚ) * 254)) 254) : ℤ)),
        ("xy", .arr [.num (max 0 (min x 1)), .num (max 0 (min y 1))]), ("on", .bool on),
        ("transitiontime", .num 1)] := by
    rw [Update.request, Update.transaction, setters]
    rfl
  rw [request, xClamp, yClamp, briClamp, Ne,
    find?_bri_of_keys ["bri", "xy", "on", "transitiontime"] rfl]
  refine ⟨restores_of_keys ["bri", "xy", "on", "transitiontime"] rfl (by decide) (by decide)
    (by simp [xy, bri, flag]), by decide⟩

theorem restores_temperature {n : ℤ} (ct : light.find? "ct" = some (.num n))
    (setters : u.setters = [.setColorTemperature (UInt16.ofInt n).toUInt32, .setOn on,
      .setTransition 1]) :
    Restores light "ct" (u.request cache) := by
  have request : u.request cache = .ofList
      [("ct", .num (max 153 (min (UInt16.ofInt n).toUInt32.toNat 500) : ℕ)), ("on", .bool on),
        ("transitiontime", .num 1)] := by
    rw [Update.request, Update.transaction, setters]
    rfl
  rw [request, ← Int.cast_natCast, state.ct_sent ct]
  exact restores_of_keys ["ct", "on", "transitiontime"] rfl (by decide) (by decide)
    (by simp [ct, flag])

theorem restores_temperature_brightness {n b : ℤ} (ct : light.find? "ct" = some (.num n))
    (bri : light.find? "bri" = some (.num b))
    (setters : u.setters = [.setColorTemperature (UInt16.ofInt n).toUInt32,
      .setBrightness (UInt32.ofInt b).toUInt8, .setOn on, .setTransition 1]) :
    Restores light "ct" (u.request cache) ∧ (u.request cache).find? "bri" ≠ none := by
  have request : u.request cache = .ofList
      [("ct", .num (max 153 (min (UInt16.ofInt n).toUInt32.toNat 500) : ℕ)),
        ("bri", .num (min (UInt32.ofInt b).toUInt8.toNat 254 : ℕ)), ("on", .bool on),
        ("transitiontime", .num 1)] := by
    rw [Update.request, Update.transaction, setters]
    rfl
  rw [request, ← Int.cast_natCast (max _ _), state.ct_sent ct, ← Int.cast_natCast (min _ _),
    state.bri_sent bri, Ne, find?_bri_of_keys ["ct", "bri", "on", "transitiontime"] rfl]
  refine ⟨restores_of_keys ["ct", "bri", "on", "transitiontime"] rfl (by decide) (by decide)
    (by simp [ct, bri, flag]), by decide⟩

end Restore

section Steps

variable {l : Light} {env : Surroundings} {light : Object} {w' : World}

theorem returns_getValue {s : State} {r : Refresh} {value : Object}
    (h : Returns (Light.getValue r) ⟨s.cache, s.light⟩ value w') :
    value = (s.read r).cache ∧ w' = ⟨(s.read r).cache, (s.read r).light⟩ := by
  cases r with
  | fresh =>
      simp only [Light.getValue, returns_bind, returns_get, returns_pure] at h
      obtain ⟨_, _, ⟨rfl, rfl⟩, rfl, rfl⟩ := h
      exact ⟨rfl, rfl⟩
  | refreshed =>
      simp only [Light.getValue, returns_bind, returns_modify, returns_get, returns_pure] at h
      obtain ⟨_, _, rfl, _, _, ⟨rfl, rfl⟩, rfl, rfl⟩ := h
      exact ⟨rfl, rfl⟩
  | failed e => simp [Light.getValue] at h

theorem returns_read {α : Type} {o : Object} {key : String} {get : Json → Except Exception α}
    {w : World} {a : α} :
    Returns (o.read key get) w a w' ↔ (∃ value, o.find? key = some value ∧ get value = .ok a) ∧
      w = w' := by
  rw [Object.read]
  cases o.find? key <;> simp

/-- A transaction of a light, as an update of its cache. -/
def Light.update (l : Light) (o : Occasion) (setters : List SetterCall) : Update :=
  ⟨o.commands, "/lights/" ++ toString l.id ++ "/state", setters⟩

theorem returns_commitTransaction {s : State} {o : Occasion} {setters : List SetterCall}
    (h : Returns (l.commitTransaction o setters) ⟨s.cache, s.light⟩ true w') :
    (((l.update o setters).transaction (s.read o.refresh).cache).commit true).outcome = .ok true ∧
      w' = ⟨(system.step (s.read o.refresh) (l.update o setters)).cache,
        (system.step (s.read o.refresh) (l.update o setters)).light⟩ := by
  simp only [Light.commitTransaction, returns_bind, returns_modify, returns_ofExcept] at h
  obtain ⟨state, w, read, _, _, rfl, success, rfl⟩ := h
  obtain ⟨rfl, rfl⟩ := returns_getValue read
  refine ⟨success, ?_⟩
  rw [Occasion.afterCommit_of_success success]
  rfl

/-- A successful sequence of an alert that finds cache and light equal is a run of its
three commits. -/
theorem returns_alertSequence {setColor : Occasion → LightM Bool}
    {color restore : List SetterCall}
    (colors : setColor env.color = l.commitTransaction env.color color)
    (h : Returns (l.alertSequence env setColor restore) ⟨light, light⟩ true w') :
    let uColor := l.update env.color color
    let uAlert := l.update env.alert [.alert]
    let uRestore := l.update env.restore restore
    let beforeAlert := beforeAlert light uColor env.alert.refresh
    let beforeRestore := beforeRestore light uColor uAlert env.alert.refresh env.restore.refresh
    ((uColor.transaction light).commit true).outcome = .ok true ∧
      ((uAlert.transaction beforeAlert.cache).commit true).outcome = .ok true ∧
      ((uRestore.transaction beforeRestore.cache).commit true).outcome = .ok true ∧
      w'.light = (afterRestore light uColor uAlert uRestore env.alert.refresh
        env.restore.refresh).light := by
  have start : (⟨light, light, .empty⟩ : State).read env.color.refresh =
      ⟨light, light, .empty⟩ := by
    cases env.color.refresh <;> rfl
  simp only [Light.alertSequence, colors, Light.alert, returns_bind, returns_ite,
    returns_pure] at h
  obtain ⟨colored, w₁, first, ⟨-, absurd, -⟩ | ⟨isColored, alerted, w₂, second,
    ⟨-, absurd, -⟩ | ⟨isAlerted, third⟩⟩⟩ := h
  · exact Bool.noConfusion absurd
  · exact Bool.noConfusion absurd
  · simp only [Bool.not_eq_true', Bool.not_eq_false] at isColored isAlerted
    subst isColored isAlerted
    obtain ⟨colorSuccess, rfl⟩ := returns_commitTransaction (s := ⟨light, light, .empty⟩) first
    rw [start] at colorSuccess second
    obtain ⟨alertSuccess, rfl⟩ := returns_commitTransaction second
    obtain ⟨restoreSuccess, rfl⟩ := returns_commitTransaction third
    exact ⟨colorSuccess, alertSuccess, restoreSuccess, rfl⟩

theorem request_alert {u : Update} {cache : Object} (setters : u.setters = [.alert]) {key : String}
    (other : key ≠ "alert") : (u.request cache).find? key = none := by
  have request : u.request cache = .ofList [("alert", .str "select")] := by
    rw [Update.request, Update.transaction, setters]
    rfl
  rw [request, OrderedMap.ofList, List.foldl_cons, List.foldl_nil,
    OrderedMap.find?_insert_ne _ _ other.symm, OrderedMap.find?_empty]

/-- A successful sequence restores the light exactly if its colour is of the old mode or
the cache is refreshed after it was set. -/
theorem alertSequence_restored_iff {setColor : Occasion → LightM Bool}
    {color restore : List SetterCall} {alertMode mode : String}
    (commits : setColor env.color = l.commitTransaction env.color color)
    (typed : WellTyped light) (colormode : light.find? "colormode" = some (.str mode))
    (colors : ∀ {u : Update} {cache : Object}, u.setters = color →
      Colors alertMode (u.request cache))
    (restores : ∀ {u : Update} {cache : Object}, u.setters = restore →
      Restores light mode (u.request cache))
    (bri : (∀ {u : Update} {cache : Object}, u.setters = color →
        (u.request cache).find? "bri" = none) ∨
      ∀ {u : Update} {cache : Object}, u.setters = restore →
        (u.request cache).find? "bri" ≠ none)
    (h : Returns (l.alertSequence env setColor restore) ⟨light, light⟩ true w') :
    Restored light w'.light ↔
      alertMode = mode ∨ env.alert.refresh = .refreshed ∨ env.restore.refresh = .refreshed := by
  obtain ⟨colorSuccess, alertSuccess, restoreSuccess, result⟩ := returns_alertSequence commits h
  rw [result]
  exact AlertRun.restored_iff
    { typed, colormode, colorSuccess, alertSuccess, restoreSuccess
      colors := colors rfl
      alerts := fun key other => request_alert rfl other
      restores := restores rfl
      bri := fun absent => bri.elim (fun free => free rfl) fun set => absurd absent (set rfl) }

/-- The first lines of every alert: the colour mode and the flag are read. -/
theorem returns_prelude (state : LightState light) {r : Refresh}
    {rest : Object → String → Bool → LightM Bool}
    (h : Returns (do
      let state ← Light.getValue r
      let cType ← state.read "colormode" Json.getString
      let on ← state.read "on" Json.getBool
      rest state cType on) ⟨light, light⟩ true w') :
    ∃ cType on, light.find? "colormode" = some (.str cType) ∧
      light.find? "on" = some (.bool on) ∧
      Returns (rest light cType on) ⟨light, light⟩ true w' := by
  simp only [returns_bind, returns_read] at h
  obtain ⟨value, w, read, cType, _, ⟨⟨mode, hasMode, isMode⟩, rfl⟩, on, _,
    ⟨⟨flag, hasFlag, isFlag⟩, rfl⟩, h⟩ := h
  obtain ⟨rfl, rfl⟩ := returns_getValue (s := ⟨light, light, .empty⟩) read
  have start : (⟨light, light, .empty⟩ : State).read r = ⟨light, light, .empty⟩ := by
    cases r <;> rfl
  rw [start] at hasMode hasFlag h
  obtain ⟨name, rfl⟩ := state.typed.string hasMode rfl
  obtain ⟨b, rfl⟩ := state.typed.bool hasFlag rfl
  simp only [Json.getString, Json.getBool, Except.ok.injEq] at isMode isFlag
  subst isMode isFlag
  exact ⟨name, b, hasMode, hasFlag, h⟩

theorem returns_read_int (state : LightState light) {key : String} {n : ℤ}
    (kind : attributeKinds.lookup key = some .integer)
    (h : Returns (light.read key Json.getInt) ⟨light, light⟩ n w') :
    light.find? key = some (.num n) ∧ w' = ⟨light, light⟩ := by
  obtain ⟨⟨value, found, get⟩, rfl⟩ := returns_read.mp h
  obtain ⟨m, rfl⟩ := state.typed.integer found kind
  rw [Json.getInt_int, Except.ok.injEq] at get
  exact ⟨get ▸ found, rfl⟩

theorem returns_getBrightness (state : LightState light) (control : l.brightnessStrategy.isSome)
    {bri : UInt32} (h : Returns l.getBrightness ⟨light, light⟩ bri w') :
    ∃ n : ℤ, light.find? "bri" = some (.num n) ∧ bri = UInt32.ofInt n ∧ w' = ⟨light, light⟩ := by
  simp only [Light.getBrightness, control, if_true, returns_bind, returns_get, returns_pure] at h
  obtain ⟨_, _, ⟨rfl, rfl⟩, n, _, read, rfl, rfl⟩ := h
  obtain ⟨found, rfl⟩ := returns_read_int state rfl read
  exact ⟨n, found, rfl, rfl⟩

theorem returns_getColorHueSaturation (state : LightState light)
    (control : l.colorHueStrategy.isSome) {hueSat : HueSaturation}
    (h : Returns l.getColorHueSaturation ⟨light, light⟩ hueSat w') :
    light.find? "hue" = some (.num hueSat.hue) ∧ light.find? "sat" = some (.num hueSat.saturation) ∧
      w' = ⟨light, light⟩ := by
  simp only [Light.getColorHueSaturation, control, if_true, returns_bind, returns_get,
    returns_pure] at h
  obtain ⟨_, _, ⟨rfl, rfl⟩, hue, _, readHue, _, _, ⟨rfl, rfl⟩, sat, _, readSat, rfl, rfl⟩ := h
  obtain ⟨foundHue, rfl⟩ := returns_read_int state rfl readHue
  obtain ⟨foundSat, rfl⟩ := returns_read_int state rfl readSat
  exact ⟨foundHue, foundSat, rfl⟩

theorem returns_getColorXY (state : LightState light) (control : l.colorHueStrategy.isSome)
    {xy : XYBrightness} (h : Returns l.getColorXY ⟨light, light⟩ xy w') :
    ∃ (x y : ℚ) (n : ℤ), light.find? "xy" = some (.arr [.num x, .num y]) ∧
      light.find? "bri" = some (.num n) ∧ xy = ⟨⟨x, y⟩, n / 254⟩ ∧ w' = ⟨light, light⟩ := by
  simp only [Light.getColorXY, control, if_true, returns_bind, returns_get, returns_read,
    returns_pure] at h
  obtain ⟨_, _, ⟨rfl, rfl⟩, x', _, ⟨⟨value, found, getX⟩, rfl⟩, y', _,
    ⟨⟨value', found', getY⟩, rfl⟩, n, _, ⟨⟨bri, foundBri, getBri⟩, rfl⟩, rfl, rfl⟩ := h
  obtain ⟨x, y, rfl⟩ := state.typed.pair found rfl
  obtain rfl : Json.arr [.num x, .num y] = value' := Option.some.inj (found.symm.trans found')
  obtain ⟨m, rfl⟩ := state.typed.integer foundBri rfl
  rw [Json.getInt_int, Except.ok.injEq] at getBri
  simp only [Json.elem, Json.getFloat, List.getElem?_cons_zero, List.getElem?_cons_succ,
    Except.ok_bind, Except.ok.injEq] at getX getY
  subst getX getY getBri
  exact ⟨x, y, m, found, foundBri, rfl, rfl⟩

end Steps

section Strategies

variable {l : Light} {env : Surroundings} {light : Object} {w' : World}
  (state : LightState light)

/-- The cache is refreshed between the alert's colour and the last transaction. -/
def Surroundings.refreshes (env : Surroundings) : Prop :=
  env.alert.refresh = .refreshed ∨ env.restore.refresh = .refreshed

/-- The alert of the given mode restores a light exactly if it was in that mode, or the
cache is refreshed meanwhile. -/
def RestoresIff (env : Surroundings) (alertMode : String) (light : Object) (w' : World) : Prop :=
  Restored light w'.light ↔ light.find? "colormode" = some (.str alertMode) ∨ env.refreshes

include state

section Sequences

variable {restore : List SetterCall} {mode : String}
  (colormode : light.find? "colormode" = some (.str mode))
include colormode

omit state in
theorem restoresIff_of_mode {alertMode : String}
    (h : Restored light w'.light ↔
      alertMode = mode ∨ env.alert.refresh = .refreshed ∨ env.restore.refresh = .refreshed) :
    RestoresIff env alertMode light w' := by
  rw [RestoresIff, h, colormode, Option.some.injEq, Json.str.injEq, eq_comm (a := mode)]
  rfl

theorem hueSaturation_sequence {hueSat : HueSaturation} (hue : l.colorHueStrategy.isSome)
    (restores : ∀ {u : Update} {cache : Object}, u.setters = restore →
      Restores light mode (u.request cache))
    (h : Returns (l.alertSequence env (l.setColorHueSaturation hueSat 1) restore) ⟨light, light⟩
      true w') : RestoresIff env "hs" light w' := by
  have commits : l.setColorHueSaturation hueSat 1 env.color = l.commitTransaction env.color
      [.setColorHueSaturation hueSat, .setTransition 1] := if_pos hue
  exact restoresIff_of_mode colormode (alertSequence_restored_iff commits state.typed colormode
    (fun setters => (colors_hueSaturation setters).1) restores
    (.inl fun setters => (colors_hueSaturation setters).2) h)

theorem xy_sequence {xy : XYBrightness} (hue : l.colorHueStrategy.isSome)
    (restores : ∀ {u : Update} {cache : Object}, u.setters = restore →
      Restores light mode (u.request cache) ∧ (u.request cache).find? "bri" ≠ none)
    (h : Returns (l.alertSequence env (l.setColorXY xy 1) restore) ⟨light, light⟩ true w') :
    RestoresIff env "xy" light w' := by
  have commits : l.setColorXY xy 1 env.color = l.commitTransaction env.color
      [.setColorXYBrightness xy, .setTransition 1] := if_pos hue
  exact restoresIff_of_mode colormode (alertSequence_restored_iff commits state.typed colormode
    colors_xy (fun setters => (restores setters).1) (.inr fun setters => (restores setters).2) h)

theorem temperature_sequence {mired : UInt32} (temperature : l.colorTemperatureStrategy.isSome)
    (restores : ∀ {u : Update} {cache : Object}, u.setters = restore →
      Restores light mode (u.request cache))
    (h : Returns (l.alertSequence env (l.setColorTemperature mired 1) restore) ⟨light, light⟩
      true w') : RestoresIff env "ct" light w' := by
  have commits : l.setColorTemperature mired 1 env.color = l.commitTransaction env.color
      [.setColorTemperature mired, .setTransition 1] := if_pos temperature
  exact restoresIff_of_mode colormode (alertSequence_restored_iff commits state.typed colormode
    (fun setters => (colors_temperature setters).1) restores
    (.inl fun setters => (colors_temperature setters).2) h)

end Sequences

theorem SimpleColorHueStrategy.alertHueSaturation_restores {hueSat : HueSaturation} {r : Refresh}
    (hue : l.colorHueStrategy.isSome)
    (h : Returns (SimpleColorHueStrategy.alertHueSaturation hueSat l env r) ⟨light, light⟩ true
      w') : RestoresIff env "hs" light w' := by
  obtain ⟨cType, on, colormode, flag, h⟩ := returns_prelude state h
  rcases returns_ite.mp h with ⟨rfl, h⟩ | ⟨-, h⟩
  · obtain ⟨old, _, read, h⟩ := returns_bind.mp h
    obtain ⟨foundHue, foundSat, rfl⟩ := returns_getColorHueSaturation state hue read
    exact hueSaturation_sequence state colormode hue
      (restores_hueSaturation state flag foundHue foundSat) h
  rcases returns_ite.mp h with ⟨rfl, h⟩ | ⟨-, h⟩
  · obtain ⟨old, _, read, h⟩ := returns_bind.mp h
    obtain ⟨x, y, n, foundXY, foundBri, rfl, rfl⟩ := returns_getColorXY state hue read
    exact hueSaturation_sequence state colormode hue
      (fun setters => (restores_xy state flag foundXY foundBri setters).1) h
  · exact Bool.noConfusion (returns_pure.mp h).1

theorem SimpleColorHueStrategy.alertXY_restores {xy : XYBrightness} {r : Refresh}
    (hue : l.colorHueStrategy.isSome) (brightness : l.brightnessStrategy.isSome)
    (h : Returns (SimpleColorHueStrategy.alertXY xy l env r) ⟨light, light⟩ true w') :
    RestoresIff env "xy" light w' := by
  obtain ⟨cType, on, colormode, flag, h⟩ := returns_prelude state h
  rcases returns_ite.mp h with ⟨rfl, h⟩ | ⟨-, h⟩
  · obtain ⟨old, _, read, h⟩ := returns_bind.mp h
    obtain ⟨foundHue, foundSat, rfl⟩ := returns_getColorHueSaturation state hue read
    obtain ⟨bri, _, read, h⟩ := returns_bind.mp h
    obtain ⟨n, foundBri, rfl, rfl⟩ := returns_getBrightness state brightness read
    exact xy_sequence state colormode hue
      (restores_hueSaturation_brightness state flag foundHue foundSat foundBri) h
  rcases returns_ite.mp h with ⟨rfl, h⟩ | ⟨-, h⟩
  · obtain ⟨old, _, read, h⟩ := returns_bind.mp h
    obtain ⟨x, y, n, foundXY, foundBri, rfl, rfl⟩ := returns_getColorXY state hue read
    exact xy_sequence state colormode hue (restores_xy state flag foundXY foundBri) h
  · exact Bool.noConfusion (returns_pure.mp h).1

theorem ExtendedColorHueStrategy.alertHueSaturation_restores {hueSat : HueSaturation}
    (hue : l.colorHueStrategy.isSome)
    (h : Returns (ExtendedColorHueStrategy.alertHueSaturation hueSat l env) ⟨light, light⟩ true
      w') : RestoresIff env "hs" light w' := by
  obtain ⟨cType, on, colormode, flag, h⟩ := returns_prelude state h
  rcases returns_ite.mp h with ⟨-, h⟩ | ⟨isCT, h⟩
  · exact SimpleColorHueStrategy.alertHueSaturation_restores state hue h
  · obtain rfl : cType = "ct" := not_not.mp isCT
    obtain ⟨n, _, read, h⟩ := returns_bind.mp h
    obtain ⟨foundCT, rfl⟩ := returns_read_int state rfl read
    exact hueSaturation_sequence state colormode hue (restores_temperature state flag foundCT) h

theorem ExtendedColorHueStrategy.alertXY_restores {xy : XYBrightness}
    (hue : l.colorHueStrategy.isSome) (brightness : l.brightnessStrategy.isSome)
    (h : Returns (ExtendedColorHueStrategy.alertXY xy l env) ⟨light, light⟩ true w') :
    RestoresIff env "xy" light w' := by
  obtain ⟨cType, on, colormode, flag, h⟩ := returns_prelude state h
  rcases returns_ite.mp h with ⟨-, h⟩ | ⟨isCT, h⟩
  · exact SimpleColorHueStrategy.alertXY_restores state hue brightness h
  · obtain rfl : cType = "ct" := not_not.mp isCT
    obtain ⟨n, _, read, h⟩ := returns_bind.mp h
    obtain ⟨foundCT, rfl⟩ := returns_read_int state rfl read
    obtain ⟨bri, _, read, h⟩ := returns_bind.mp h
    obtain ⟨b, foundBri, rfl, rfl⟩ := returns_getBrightness state brightness read
    exact xy_sequence state colormode hue
      (restores_temperature_brightness state flag foundCT foundBri) h

theorem SimpleColorTemperatureStrategy.alertTemperature_restores {mired : UInt32} {r : Refresh}
    (temperature : l.colorTemperatureStrategy.isSome)
    (h : Returns (SimpleColorTemperatureStrategy.alertTemperature mired l env r) ⟨light, light⟩
      true w') : RestoresIff env "ct" light w' := by
  obtain ⟨cType, on, colormode, flag, h⟩ := returns_prelude state h
  rcases returns_ite.mp h with ⟨rfl, h⟩ | ⟨-, h⟩
  · obtain ⟨n, _, read, h⟩ := returns_bind.mp h
    obtain ⟨foundCT, rfl⟩ := returns_read_int state rfl read
    exact temperature_sequence state colormode temperature
      (restores_temperature state flag foundCT) h
  · exact Bool.noConfusion (returns_pure.mp h).1

theorem ExtendedColorTemperatureStrategy.alertTemperature_restores {mired : UInt32}
    (temperature : l.colorTemperatureStrategy.isSome) (hue : l.colorHueStrategy.isSome)
    (h : Returns (ExtendedColorTemperatureStrategy.alertTemperature mired l env) ⟨light, light⟩
      true w') : RestoresIff env "ct" light w' := by
  obtain ⟨cType, on, colormode, flag, h⟩ := returns_prelude state h
  rcases returns_ite.mp h with ⟨-, h⟩ | ⟨-, h⟩
  · exact SimpleColorTemperatureStrategy.alertTemperature_restores state temperature h
  rcases returns_ite.mp h with ⟨rfl, h⟩ | ⟨-, h⟩
  · obtain ⟨old, _, read, h⟩ := returns_bind.mp h
    obtain ⟨foundHue, foundSat, rfl⟩ := returns_getColorHueSaturation state hue read
    exact temperature_sequence state colormode temperature
      (restores_hueSaturation state flag foundHue foundSat) h
  rcases returns_ite.mp h with ⟨rfl, h⟩ | ⟨-, h⟩
  · obtain ⟨old, _, read, h⟩ := returns_bind.mp h
    obtain ⟨x, y, n, foundXY, foundBri, rfl, rfl⟩ := returns_getColorXY state hue read
    exact temperature_sequence state colormode temperature
      (fun setters => (restores_xy state flag foundXY foundBri setters).1) h
  · exact Bool.noConfusion (returns_pure.mp h).1

end Strategies

/-- A successful alert of a light of any type, started while the cache shows the light:
the light is as before exactly if it was in the alert's colour mode or the cache is
refreshed between setting the alert's colour and the last transaction. -/
theorem alert_restores_iff (id : ℤ) (type : LightFactory.LightType) (call : AlertCall)
    (env : Surroundings) {light : Object} (state : LightState light) {w' : World}
    (success : Returns ((LightFactory.createLight id type).alertWith env call) ⟨light, light⟩ true
      w') :
    Restored light w'.light ↔
      light.find? "colormode" = some (.str call.mode) ∨ env.refreshes := by
  have unsupported : ¬Returns (pure false : LightM Bool) ⟨light, light⟩ true w' :=
    fun returned => Bool.noConfusion (returns_pure.mp returned).1
  cases call with
  | hueSaturation hueSat =>
      cases type with
      | onOff | dimmable | colorTemperature => exact absurd success unsupported
      | color => exact SimpleColorHueStrategy.alertHueSaturation_restores state rfl success
      | extendedColor =>
          exact ExtendedColorHueStrategy.alertHueSaturation_restores state rfl success
  | xy xy =>
      cases type with
      | onOff | dimmable | colorTemperature => exact absurd success unsupported
      | color => exact SimpleColorHueStrategy.alertXY_restores state rfl rfl success
      | extendedColor => exact ExtendedColorHueStrategy.alertXY_restores state rfl rfl success
  | temperature mired =>
      cases type with
      | onOff | dimmable | color => exact absurd success unsupported
      | colorTemperature =>
          exact SimpleColorTemperatureStrategy.alertTemperature_restores state rfl success
      | extendedColor =>
          exact ExtendedColorTemperatureStrategy.alertTemperature_restores state rfl rfl success

theorem temperatureLight_lightState : LightState temperatureLight := by
  have value : ∀ {key : String} {m n : ℤ}, temperatureLight.find? key = some (.num m) →
      temperatureLight.find? key = some (.num n) → n = m := by
    intro key m n known found
    rw [known, Option.some.injEq, Json.num.injEq, Int.cast_inj] at found
    exact found.symm
  refine ⟨by decide +kernel, fun n found => ?_, fun n found => ?_, fun n found => ?_,
    fun n found => ?_, fun x y found => ?_⟩
  · have := value (m := 200) (by decide +kernel) found
    omega
  · have := value (m := 100) (by decide +kernel) found
    omega
  · have := value (m := 254) (by decide +kernel) found
    omega
  · have := value (m := 300) (by decide +kernel) found
    omega
  · have known : temperatureLight.find? "xy" = some (.arr [.num (1 / 2), .num (1 / 4)]) := by
      decide +kernel
    rw [known] at found
    simp only [Option.some.injEq, Json.arr.injEq, List.cons.injEq, Json.num.injEq, and_true]
      at found
    obtain ⟨rfl, rfl⟩ := found
    norm_num

/-- Surroundings in which every PUT is confirmed and no read refreshes the cache. -/
def freshSurroundings : Surroundings where
  read := .fresh
  readAgain := .fresh
  color := ⟨.fresh, Utils.acknowledgingCommands, fun light _ => light⟩
  alert := ⟨.fresh, Utils.acknowledgingCommands, fun light _ => light⟩
  restore := ⟨.fresh, Utils.acknowledgingCommands, fun light _ => light⟩

theorem alert_restores_iff_temperatureLight :
    Restored temperatureLight
        (Effect.result ((LightFactory.createLight 1 .extendedColor).alertWith freshSurroundings
          (.temperature 400)) ⟨temperatureLight, temperatureLight⟩).2.light ↔
      temperatureLight.find? "colormode" = some (.str "ct") ∨ freshSurroundings.refreshes :=
  alert_restores_iff 1 .extendedColor (.temperature 400) freshSurroundings
    temperatureLight_lightState (Prod.ext rfl rfl)

/-- An alert in hue and saturation leaves a light that was in colour temperature mode in
the alert's colour. -/
theorem alert_leaves_color :
    ¬ ∀ (id : ℤ) (type : LightFactory.LightType) (call : AlertCall) (env : Surroundings)
      (light : Object) (w' : World), LightState light →
      Returns ((LightFactory.createLight id type).alertWith env call) ⟨light, light⟩ true w' →
      Restored light w'.light := by
  intro always
  have restored := always 1 .extendedColor (.hueSaturation ⟨20000, 254⟩) freshSurroundings
    temperatureLight (Effect.result ((LightFactory.createLight 1 .extendedColor).alertWith
      freshSurroundings (.hueSaturation ⟨20000, 254⟩)) ⟨temperatureLight, temperatureLight⟩).2
    temperatureLight_lightState (Prod.ext rfl rfl)
  exact absurd restored.colormode (by decide +kernel)

end Hueplusplus
