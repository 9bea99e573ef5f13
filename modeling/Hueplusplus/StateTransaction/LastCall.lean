import Hueplusplus.StateTransaction.Basic
import Mathlib.Data.List.Induction

/-!
# The last setter call wins

A setter writes the clamped values of its attributes over earlier ones, so a request shows
the last value that was given to each attribute. Only `setTransition` can fail to write: the
bridge's default is encoded as an absent key, and a call with the default leaves the value
of an earlier call in place.
-/

namespace Hueplusplus

namespace SetterCall

/-- The attributes a call is about, with their clamped values. -/
def sets : SetterCall → List (String × Json)
  | .setOn on => [("on", .bool on)]
  | .setBrightness brightness => [("bri", .num (min brightness.toNat 254 : ℕ))]
  | .setColorSaturation saturation => [("sat", .num (min saturation.toNat 254 : ℕ))]
  | .setColorHue hue => [("hue", .num hue.toNat)]
  | .setColorHueSaturation hueSat =>
    [("hue", .num (max 0 (min hueSat.hue 65535) : ℤ)),
      ("sat", .num (max 0 (min hueSat.saturation 254) : ℤ))]
  | .setColorXY xy => [("xy", .arr [.num (max 0 (min xy.x 1)), .num (max 0 (min xy.y 1))])]
  | .setColorXYBrightness xy =>
    [("bri", .num (max 0 (min (stdRound (xy.brightness * 254)) 254) : ℤ)),
      ("xy", .arr [.num (max 0 (min xy.xy.x 1)), .num (max 0 (min xy.xy.y 1))])]
  | .setColorTemperature mired => [("ct", .num (max 153 (min mired.toNat 500) : ℕ))]
  | .setColorLoop on => [("effect", .str (if on then "colorloop" else "none"))]
  | .incrementBrightness increment =>
    [("bri_inc", .num (max (-254) (min increment 254) : ℤ))]
  | .incrementSaturation increment =>
    [("sat_inc", .num (max (-254) (min increment 254) : ℤ))]
  | .incrementHue increment => [("hue_inc", .num (max (-65534) (min increment 65534) : ℤ))]
  | .incrementColorTemperature increment =>
    [("ct_inc", .num (max (-65534) (min increment 65534) : ℤ))]
  | .incrementColorXY xInc yInc =>
    [("xy_inc",
      .arr [.num (max (-1 / 2) (min xInc (1 / 2))), .num (max (-1 / 2) (min yInc (1 / 2)))])]
  | .setTransition transition => [("transitiontime", .num transition.toNat)]
  | .alert => [("alert", .str "select")]
  | .longAlert => [("alert", .str "lselect")]
  | .stopAlert => [("alert", .str "none")]

def transition? : SetterCall → Option UInt16
  | .setTransition transition => some transition
  | _ => none

/-- The value a call gives to an attribute, if it is about it. -/
def value? (setter : SetterCall) (key : String) : Option Json :=
  AssocList.find? setter.sets key

theorem ordered_sets (setter : SetterCall) : AssocList.Ordered setter.sets := by
  cases setter with
  | setColorHueSaturation =>
      exact List.pairwise_pair.mpr (show "hue" < "sat" by decide)
  | setColorXYBrightness =>
      exact List.pairwise_pair.mpr (show "bri" < "xy" by decide)
  | _ => exact List.pairwise_singleton _ _

theorem value?_transitiontime (setter : SetterCall) :
    setter.value? "transitiontime" =
      setter.transition?.map fun transition => .num transition.toNat := by
  cases setter <;> rfl

/-- A transition call is about the transition time only. -/
theorem value?_eq_none_of_transition {setter : SetterCall} {n : UInt16}
    (h : setter.transition? = some n) {key : String} (other : key ≠ "transitiontime") :
    setter.value? key = none := by
  cases setter with
  | setTransition => exact if_neg other.symm
  | _ => cases h

end SetterCall

namespace StateTransaction

open SetterCall

/-- The values that the calls give to an attribute, in order. -/
def given (setters : List SetterCall) (key : String) : List Json :=
  setters.filterMap fun setter => setter.value? key

/-- The values that the calls give to the transition time, in order. -/
def transitions (setters : List SetterCall) : List UInt16 :=
  setters.filterMap transition?

/-- The bridge's value for an attribute that a request does not contain. -/
def absentValue (key : String) : Option Json :=
  if key = "transitiontime" then some (.num 4) else none

/-- The value with which an attribute of a request takes effect. -/
def effective (request : Object) (key : String) : Option Json :=
  (request.find? key).or (absentValue key)

/-- The default transition time is not the last one after a different one. -/
def TransitionStands (setters : List SetterCall) : Prop :=
  (transitions setters).getLast? = some 4 → ∀ n ∈ transitions setters, n = 4

theorem call_default_transition {t : StateTransaction} {setter : SetterCall}
    (h : setter.transition? = some 4) : t.call setter = t := by
  cases setter with
  | setTransition transition =>
      obtain rfl : transition = 4 := Option.some.inj h
      rfl
  | _ => cases h

/-- Any other call writes all its attributes and leaves the others as they were. -/
theorem find?_call {t : StateTransaction} {setter : SetterCall} (h : setter.transition? ≠ some 4)
    (key : String) :
    (t.call setter).request.find? key = (setter.value? key).or (t.request.find? key) := by
  have written : (t.call setter).request =
      setter.sets.foldl (fun acc entry => acc.insert entry.1 entry.2) t.request := by
    cases setter with
    | setTransition transition =>
        have set : transition ≠ 4 := fun same => h (congrArg some same)
        rw [call, setTransition, if_pos set]
        rfl
    | _ => rfl
  rw [written, OrderedMap.find?_foldl_insert setter.ordered_sets]
  rfl

/-- The setters change the request only. -/
theorem calls_frame (t : StateTransaction) (setters : List SetterCall) :
    (t.calls setters).commands = t.commands ∧ (t.calls setters).path = t.path ∧
      (t.calls setters).state = t.state := by
  induction setters generalizing t with
  | nil => exact ⟨rfl, rfl, rfl⟩
  | cons setter rest ih =>
      have one : (t.call setter).commands = t.commands ∧ (t.call setter).path = t.path ∧
          (t.call setter).state = t.state := by
        by_cases h : setter.transition? = some 4
        · rw [call_default_transition h]
          exact ⟨rfl, rfl, rfl⟩
        · cases setter with
          | setTransition transition =>
              rw [call, setTransition, if_pos fun same => h (congrArg some same)]
              exact ⟨rfl, rfl, rfl⟩
          | _ => exact ⟨rfl, rfl, rfl⟩
      obtain ⟨commands, path, state⟩ := ih (t.call setter)
      exact ⟨commands.trans one.1, path.trans one.2.1, state.trans one.2.2⟩

@[simp] theorem given_append (setters more : List SetterCall) (key : String) :
    given (setters ++ more) key = given setters key ++ given more key :=
  List.filterMap_append

@[simp] theorem given_singleton (setter : SetterCall) (key : String) :
    given [setter] key = (setter.value? key).toList := by
  rw [given, List.filterMap_cons, List.filterMap_nil]
  cases setter.value? key <;> rfl

/-- The calls that write. -/
def writers (setters : List SetterCall) : List SetterCall :=
  setters.filter fun setter => setter.transition? ≠ some 4

/-- The request shows the last value that was written. -/
theorem find?_calls (commands : HueCommandAPI) (path : String) (state : Option Object)
    (setters : List SetterCall) (key : String) :
    ((new commands path state).calls setters).request.find? key =
      (given (writers setters) key).getLast? := by
  induction setters using List.reverseRecOn with
  | nil => rfl
  | append_singleton setters setter ih =>
      have last : (new commands path state).calls (setters ++ [setter]) =
          ((new commands path state).calls setters).call setter := by
        rw [calls, List.foldl_append]
        rfl
      rw [last, writers, List.filter_append, ← writers]
      by_cases h : setter.transition? = some 4
      · have skip : [setter].filter (fun setter => setter.transition? ≠ some 4) = [] := by
          simp [h]
        rw [call_default_transition h, skip, List.append_nil, ih]
      · have keep : [setter].filter (fun setter => setter.transition? ≠ some 4) = [setter] := by
          simp [h]
        rw [find?_call h, keep, given_append, given_singleton, List.getLast?_append, ih]
        cases setter.value? key <;> rfl

theorem given_writers {key : String} (other : key ≠ "transitiontime")
    (setters : List SetterCall) : given (writers setters) key = given setters key := by
  rw [given, given, writers, List.filterMap_filter]
  refine List.filterMap_congr fun setter _ => ?_
  by_cases h : setter.transition? = some 4
  · simp [h, value?_eq_none_of_transition h other]
  · simp [h]

theorem given_transitiontime (setters : List SetterCall) :
    given setters "transitiontime" =
      (transitions setters).map fun transition => .num transition.toNat := by
  simp only [given, transitions, value?_transitiontime, List.map_filterMap]

theorem transitions_writers (setters : List SetterCall) :
    transitions (writers setters) = (transitions setters).filter (· ≠ 4) := by
  rw [transitions, transitions, writers, List.filterMap_filter, List.filter_filterMap]
  refine List.filterMap_congr fun setter _ => ?_
  cases h : setter.transition? with
  | none => simp
  | some n => by_cases default : n = 4 <;> simp [default, Option.filter]

/-- Dropping a default from a list keeps its last element, or the default for lack of one,
unless the default is last after something else. -/
theorem getLast?_filter_ne_iff {α : Type} [DecidableEq α] (l : List α) (d : α) :
    (l.filter (· ≠ d)).getLast?.getD d = l.getLast?.getD d ↔
      (l.getLast? = some d → ∀ n ∈ l, n = d) := by
  induction l using List.reverseRecOn with
  | nil => simp
  | append_singleton l last _ =>
      by_cases default : last = d
      · subst default
        have dropped : (l ++ [last]).filter (· ≠ last) = l.filter (· ≠ last) := by simp
        rw [dropped]
        cases kept : (l.filter (· ≠ last)).getLast? with
        | none =>
            have all := List.filter_eq_nil_iff.mp (List.getLast?_eq_none_iff.mp kept)
            simpa [or_imp, forall_and] using all
        | some n =>
            have member := List.mem_filter.mp (List.mem_of_getLast? kept)
            have different : n ≠ last := by simpa using member.2
            have ends : (l ++ [last]).getLast? = some last := List.getLast?_concat
            rw [ends, Option.getD_some, Option.getD_some]
            refine iff_of_false different fun all => different (all rfl n ?_)
            exact List.mem_append_left _ member.1
      · simp [default]

theorem or_absentValue_transitiontime (last : Option UInt16) :
    (last.map fun n => Json.num n.toNat).or (absentValue "transitiontime") =
      some (.num (last.getD 4).toNat) := by
  cases last with
  | none => rfl
  | some n => rfl

theorem effective_transitiontime_iff (commands : HueCommandAPI) (path : String)
    (state : Option Object) (setters : List SetterCall) :
    effective ((new commands path state).calls setters).request "transitiontime" =
        (given setters "transitiontime").getLast?.or (absentValue "transitiontime") ↔
      TransitionStands setters := by
  rw [effective, find?_calls, given_transitiontime, given_transitiontime, transitions_writers,
    List.getLast?_map, List.getLast?_map, or_absentValue_transitiontime,
    or_absentValue_transitiontime, TransitionStands, ← getLast?_filter_ne_iff]
  rw [Option.some_inj, Json.num.injEq, Nat.cast_inj, UInt16.toNat_inj]

/-- Every attribute takes effect with the last value given to it exactly if the transition
time does. -/
theorem effective_calls_iff (commands : HueCommandAPI) (path : String) (state : Option Object)
    (setters : List SetterCall) :
    (∀ key, effective ((new commands path state).calls setters).request key =
      (given setters key).getLast?.or (absentValue key)) ↔ TransitionStands setters := by
  rw [← effective_transitiontime_iff commands path state]
  refine ⟨fun h => h "transitiontime", fun h key => ?_⟩
  by_cases other : key = "transitiontime"
  · subst other
    exact h
  · rw [effective, find?_calls, given_writers other]

/-- A call with the default cannot take an earlier transition time back. -/
theorem transition_not_taken_back :
    let mute : HttpMethod := fun _ _ _ _ _ => .ok .null
    let commands : HueCommandAPI := ⟨"192.168.2.1", 80, "user", ⟨mute, mute, mute, mute⟩⟩
    let setters : List SetterCall := [.setBrightness 100, .setTransition 10, .setTransition 4]
    ¬ ∀ key, effective ((new commands "/groups/1/action" none).calls setters).request key =
      (given setters key).getLast?.or (absentValue key) := by
  intro mute commands setters all
  have transition := all "transitiontime"
  rw [show effective _ "transitiontime" = some (.num 10) by rfl,
    show ((given setters "transitiontime").getLast?.or _) = some (.num 4) by rfl] at transition
  exact absurd transition (by decide)

end StateTransaction

end Hueplusplus
