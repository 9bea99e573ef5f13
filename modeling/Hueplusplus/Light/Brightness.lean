import Hueplusplus.Light.Basic
import Hueplusplus.StateTransaction.Commit
import Hueplusplus.StateTransaction.LastCall

/-!
# The brightness of a light

`Light::setBrightness` takes an `unsigned int`, but the setter of the transaction takes a
`uint8_t` and clamps only then. So what is clamped is the argument modulo 256, and the
brightness is the one that was asked for only in some ranges of arguments.
-/

namespace Hueplusplus

open Effect

namespace StateTransaction

variable {t : StateTransaction} {state body : Object}

theorem find?_setTransition (t : StateTransaction) (transition : UInt16) {key : String}
    (other : key ≠ "transitiontime") :
    (t.setTransition transition).request.find? key = t.request.find? key := by
  unfold setTransition
  split
  · exact OrderedMap.find?_insert_ne _ _ other.symm
  · rfl

/-- What is sent of a request without colours. -/
theorem find?_sent_of_not_color (cached : t.state = some state)
    (plain : ∀ key value, t.request.find? key = some value → colormodes.lookup key = none)
    (sent : (t.commit true).sent = some body) {key : String} (other : key ≠ "on") :
    body.find? key = (t.request.find? key).filter fun value => !looksSet state key value := by
  have prepared := prepare_of_sent sent
  simp only [prepare, cached, if_true] at prepared
  obtain ⟨request, implied, trims⟩ := Except.bind_eq_ok_iff.mp prepared
  have trimmable : ∀ entry ∈ request.entries,
      trimEntry state entry.1 entry.2 = .ok (looksSet state entry.1 entry.2) := by
    intro entry member
    apply trimEntry_of_not_color
    by_cases on : entry.1 = "on"
    · rw [on]
      rfl
    · have found := OrderedMap.find?_iff.mpr member
      rw [find?_addImpliedOn implied on] at found
      exact plain _ _ found
  rw [trimRequest_of_entries trimmable] at trims
  rw [← Except.ok.inj trims, find?_trimmed, find?_addImpliedOn implied other]

/-- An attribute that is not a colour is trimmed only if the state has its value. -/
theorem or_find?_of_not_color {key : String} (plain : colormodes.lookup key = none)
    (value : Json) :
    ((some value).filter fun value => !looksSet state key value).or (state.find? key) =
      some value := by
  cases shown : looksSet state key value with
  | false => simp [Option.filter, shown]
  | true =>
      have current := shown
      simp only [looksSet, plain, Bool.and_eq_true, decide_eq_true_eq] at current
      simp [Option.filter, shown, current.2]

end StateTransaction

/-- `SimpleBrightnessStrategy::setBrightness`. The argument is converted to `uint8_t`. -/
def SimpleBrightnessStrategy.setBrightness (bri : UInt32) (transition : UInt8) (l : Light)
    (o : Occasion) : LightM Bool :=
  l.commitTransaction o [.setBrightness bri.toUInt8, .setTransition transition.toUInt16]

/-- The outcome of a commit, and what it makes of the cache and the light. -/
def World.committed (w : World) (o : Occasion) (result : CommitResult) :
    Except Exception Bool × World :=
  (result.outcome, ⟨result.state.getD w.cache, o.afterCommit w.light result⟩)

namespace Light

open StateTransaction

def setBrightness (l : Light) (bri : UInt32) (transition : UInt8) (o : Occasion) :
    LightM Bool :=
  match l.brightnessStrategy with
  | some .simple => SimpleBrightnessStrategy.setBrightness bri transition l o
  | none => return false

/-- The transaction that `setBrightness` commits for a cached state. -/
def brightnessTransaction (l : Light) (bri : UInt32) (transition : UInt8) (o : Occasion)
    (state : Object) : StateTransaction :=
  (new o.commands ("/lights/" ++ toString l.id ++ "/state") (some state)).calls
    [.setBrightness bri.toUInt8, .setTransition transition.toUInt16]

variable (l : Light) (bri : UInt32) (transition : UInt8) (o : Occasion) (state : Object)

theorem find?_brightnessTransaction_bri :
    (l.brightnessTransaction bri transition o state).request.find? "bri" =
      some (.num (min bri.toUInt8.toNat 254 : ℕ)) :=
  (find?_setTransition _ _ (by decide)).trans (OrderedMap.find?_insert_self _ _ _)

theorem brightnessTransaction_not_color (key : String) (value : Json)
    (found : (l.brightnessTransaction bri transition o state).request.find? key = some value) :
    colormodes.lookup key = none := by
  by_cases time : key = "transitiontime"
  · rw [time]
    rfl
  · by_cases brightness : key = "bri"
    · rw [brightness]
      rfl
    · have absent := (find?_setTransition _ _ time).symm.trans found
      exact nomatch (OrderedMap.find?_insert_ne _ _ (Ne.symm brightness)).symm.trans absent

/-- The transaction's request has this brightness, and so has the light's state after what is
sent: either it is sent, or the state has it. -/
structure Requests (t : StateTransaction) (state : Object) (brightness : ℕ) : Prop where
  request : t.request.find? "bri" = some (.num brightness)
  sent : ∀ body, (t.commit true).sent = some body →
    (body.find? "bri").or (state.find? "bri") = some (.num brightness)

theorem requests_brightnessTransaction :
    Requests (l.brightnessTransaction bri transition o state) state
      (min bri.toUInt8.toNat 254) where
  request := l.find?_brightnessTransaction_bri bri transition o state
  sent body sent := by
    have cached : (l.brightnessTransaction bri transition o state).state = some state :=
      (calls_frame _ _).2.2
    rw [find?_sent_of_not_color cached
      (l.brightnessTransaction_not_color bri transition o state) sent (by decide),
      l.find?_brightnessTransaction_bri bri transition o state]
    exact or_find?_of_not_color rfl _

theorem Requests.unique {t : StateTransaction} {a b : ℕ} (first : Requests t state a)
    (second : Requests t state b) : a = b := by
  have same := first.request.symm.trans second.request
  exact_mod_cast Json.num.inj (Option.some.inj same)

/-- Where the conversion to `uint8_t` keeps what the clamping keeps. -/
theorem min_toUInt8_eq_iff :
    min bri.toUInt8.toNat 254 = min bri.toNat 254 ↔
      bri.toNat < 256 ∨ 254 ≤ bri.toNat % 256 := by
  rw [UInt32.toNat_toUInt8]
  omega

theorem result_setBrightness (controlled : l.brightnessStrategy.isSome) {w w' : World}
    (read : Returns (getValue o.refresh) w state w') :
    result (l.setBrightness bri transition o) w =
      w'.committed o ((l.brightnessTransaction bri transition o state).commit true) := by
  obtain ⟨_, strategy⟩ := Option.isSome_iff_exists.mp controlled
  unfold Returns at read
  simp only [setBrightness, strategy, SimpleBrightnessStrategy.setBrightness, commitTransaction,
    result_bind, read]
  rfl

/-- For a light with control of its brightness, the transaction is committed, and it requests the
clamped argument exactly if that is below 256 or at least 254 modulo 256. -/
theorem setBrightness_clamps_iff (controlled : l.brightnessStrategy.isSome) {w w' : World}
    (read : Returns (getValue o.refresh) w state w') :
    result (l.setBrightness bri transition o) w =
      w'.committed o ((l.brightnessTransaction bri transition o state).commit true) ∧
    (Requests (l.brightnessTransaction bri transition o state) state (min bri.toNat 254) ↔
      bri.toNat < 256 ∨ 254 ≤ bri.toNat % 256) := by
  constructor
  · exact l.result_setBrightness bri transition o state controlled read
  · have requested := l.requests_brightnessTransaction bri transition o state
    rw [← min_toUInt8_eq_iff]
    constructor
    · exact fun clamped => requested.unique state clamped
    · intro same
      rwa [same] at requested

/-- The cache of a dimmable light that is on. -/
def dimmedWorld : World :=
  let state : Object := .ofList [("bri", .num 100), ("on", .bool true)]
  ⟨state, state⟩

theorem setBrightness_clamps_iff_300 :
    let l := LightFactory.createLight 1 .dimmable
    let o : Occasion := ⟨.fresh, Utils.acknowledgingCommands, fun light _ => light⟩
    result (l.setBrightness 300 4 o) dimmedWorld =
      dimmedWorld.committed o ((l.brightnessTransaction 300 4 o dimmedWorld.cache).commit true) ∧
    (Requests (l.brightnessTransaction 300 4 o dimmedWorld.cache) dimmedWorld.cache 254 ↔
      300 < 256 ∨ 254 ≤ 44) :=
  @setBrightness_clamps_iff (LightFactory.createLight 1 .dimmable) 300 4
    ⟨.fresh, Utils.acknowledgingCommands, fun light _ => light⟩ dimmedWorld.cache rfl dimmedWorld
    dimmedWorld rfl

/-- A brightness of 256 is sent as 0, which switches the light off. -/
theorem brightness_256_switches_off :
    ¬ ∀ (l : Light) (bri : UInt32) (transition : UInt8) (o : Occasion) (w w' : World)
      (state : Object), l.brightnessStrategy.isSome →
      Returns (getValue o.refresh) w state w' →
      Requests (l.brightnessTransaction bri transition o state) state (min bri.toNat 254) := by
  intro claim
  let l := LightFactory.createLight 1 .dimmable
  let o : Occasion := ⟨.fresh, Utils.acknowledgingCommands, fun light _ => light⟩
  have clamped := claim l 256 4 o dimmedWorld dimmedWorld dimmedWorld.cache rfl rfl
  have requested := l.requests_brightnessTransaction 256 4 o dimmedWorld.cache
  exact absurd (clamped.unique _ requested) (by decide)

end Light

end Hueplusplus
