import Hueplusplus.StateTransaction.Commit
import Hueplusplus.StateTransaction.LastCall

/-!
# Ranges of the attributes

The API admits a range of values for each number, and one for both coordinates of each pair.
Every setter clamps what it writes, so a request has values in these ranges only, and a commit
takes nothing but `on` from elsewhere.
-/

namespace Hueplusplus.StateTransaction

def numberRanges : List (String × ℚ × ℚ) :=
  [("bri", 0, 254), ("sat", 0, 254), ("hue", 0, 65535), ("ct", 153, 500),
    ("bri_inc", -254, 254), ("sat_inc", -254, 254), ("hue_inc", -65534, 65534),
    ("ct_inc", -65534, 65534)]

def pairRanges : List (String × ℚ × ℚ) := [("xy", 0, 1), ("xy_inc", -1 / 2, 1 / 2)]

/-- A number or a pair under its key is in the range of that. -/
structure Fits (key : String) (value : Json) : Prop where
  number : ∀ range, numberRanges.lookup key = some range →
    ∃ q, value = .num q ∧ range.1 ≤ q ∧ q ≤ range.2
  pair : ∀ range, pairRanges.lookup key = some range →
    ∃ x y, value = .arr [.num x, .num y] ∧ (range.1 ≤ x ∧ x ≤ range.2) ∧
      (range.1 ≤ y ∧ y ≤ range.2)

def InRange (request : Object) : Prop :=
  ∀ key value, request.find? key = some value → Fits key value

section Fits

variable {key : String} {low high : ℚ}

theorem fits_number {q : ℚ} (range : numberRanges.lookup key = some (low, high))
    (single : pairRanges.lookup key = none) (bounds : low ≤ q ∧ q ≤ high) :
    Fits key (.num q) where
  number other same := by
    obtain rfl := Option.some.inj (range.symm.trans same)
    exact ⟨q, rfl, bounds⟩
  pair _ same := by
    rw [single] at same
    cases same

theorem fits_pair {x y : ℚ} (range : pairRanges.lookup key = some (low, high))
    (double : numberRanges.lookup key = none) (first : low ≤ x ∧ x ≤ high)
    (second : low ≤ y ∧ y ≤ high) : Fits key (.arr [.num x, .num y]) where
  number _ same := by
    rw [double] at same
    cases same
  pair other same := by
    obtain rfl := Option.some.inj (range.symm.trans same)
    exact ⟨x, y, rfl, first, second⟩

theorem fits_other {value : Json} (double : numberRanges.lookup key = none)
    (single : pairRanges.lookup key = none) : Fits key value where
  number _ same := by
    rw [double] at same
    cases same
  pair _ same := by
    rw [single] at same
    cases same

theorem clamp_bounds {α : Type*} [LinearOrder α] {low high : α} (h : low ≤ high) (a : α) :
    low ≤ max low (min a high) ∧ max low (min a high) ≤ high :=
  ⟨le_max_left _ _, max_le h (min_le_right _ _)⟩

theorem cast_clamp_bounds (low high : ℤ) (h : low ≤ high) (n : ℤ) :
    (low : ℚ) ≤ (max low (min n high) : ℤ) ∧ ((max low (min n high) : ℤ) : ℚ) ≤ high := by
  obtain ⟨lower, upper⟩ := clamp_bounds h n
  exact ⟨by exact_mod_cast lower, by exact_mod_cast upper⟩

theorem cast_nat_bounds {high n : ℕ} (h : n ≤ high) : (0 : ℚ) ≤ (n : ℚ) ∧ (n : ℚ) ≤ high :=
  ⟨n.cast_nonneg, by exact_mod_cast h⟩

end Fits

/-- Whatever a setter gives to an attribute is in its range. -/
theorem fits_of_mem_sets {setter : SetterCall} {entry : String × Json}
    (member : entry ∈ setter.sets) : Fits entry.1 entry.2 := by
  cases setter with
  | setOn | setColorLoop | setTransition | alert | longAlert | stopAlert =>
      obtain rfl := List.mem_singleton.mp member
      exact fits_other rfl rfl
  | setBrightness brightness | setColorSaturation saturation =>
      obtain rfl := List.mem_singleton.mp member
      exact fits_number rfl rfl (cast_nat_bounds (min_le_right _ 254))
  | setColorHue hue =>
      obtain rfl := List.mem_singleton.mp member
      exact fits_number rfl rfl (cast_nat_bounds (Nat.le_of_lt_succ hue.toNat_lt))
  | setColorHueSaturation hueSat =>
      rcases List.mem_pair.mp member with rfl | rfl
      · exact fits_number rfl rfl (by exact_mod_cast cast_clamp_bounds 0 65535 (by decide) _)
      · exact fits_number rfl rfl (by exact_mod_cast cast_clamp_bounds 0 254 (by decide) _)
  | setColorXY xy =>
      obtain rfl := List.mem_singleton.mp member
      exact fits_pair rfl rfl (clamp_bounds zero_le_one _) (clamp_bounds zero_le_one _)
  | setColorXYBrightness xy =>
      rcases List.mem_pair.mp member with rfl | rfl
      · exact fits_number rfl rfl (by exact_mod_cast cast_clamp_bounds 0 254 (by decide) _)
      · exact fits_pair rfl rfl (clamp_bounds zero_le_one _) (clamp_bounds zero_le_one _)
  | setColorTemperature mired =>
      obtain rfl := List.mem_singleton.mp member
      exact fits_number rfl rfl (by exact_mod_cast clamp_bounds (by decide : 153 ≤ 500) _)
  | incrementBrightness increment | incrementSaturation increment =>
      obtain rfl := List.mem_singleton.mp member
      exact fits_number rfl rfl (by exact_mod_cast cast_clamp_bounds (-254) 254 (by decide) _)
  | incrementHue increment | incrementColorTemperature increment =>
      obtain rfl := List.mem_singleton.mp member
      exact fits_number rfl rfl (by exact_mod_cast cast_clamp_bounds (-65534) 65534 (by decide) _)
  | incrementColorXY xInc yInc =>
      obtain rfl := List.mem_singleton.mp member
      exact fits_pair rfl rfl (clamp_bounds (by norm_num) _) (clamp_bounds (by norm_num) _)

theorem fits_of_value? {setter : SetterCall} {key : String} {value : Json}
    (found : setter.value? key = some value) : Fits key value :=
  fits_of_mem_sets (AssocList.mem_of_find? found)

/-- One more call writes values in their ranges over others in their ranges. -/
theorem InRange.call {t : StateTransaction} (h : InRange t.request) (setter : SetterCall) :
    InRange (t.call setter).request := by
  intro key value found
  by_cases default : setter.transition? = some 4
  · rw [call_default_transition default] at found
    exact h key value found
  · rw [find?_call default] at found
    cases given : setter.value? key with
    | none =>
        rw [given] at found
        exact h key value found
    | some other =>
        rw [given] at found
        obtain rfl := Option.some.inj found
        exact fits_of_value? given

theorem InRange.calls {t : StateTransaction} (h : InRange t.request)
    (setters : List SetterCall) : InRange (t.calls setters).request := by
  induction setters generalizing t with
  | nil => exact h
  | cons setter rest ih => exact ih (h.call setter)

/-- The loop of `trimRequest` only erases. -/
theorem find?_of_trimRequest {state request trimmed : Object}
    (trims : trimRequest state request = .ok trimmed) {key : String} {value : Json}
    (found : trimmed.find? key = some value) : request.find? key = some value := by
  unfold trimRequest at trims
  generalize request.entries = entries at trims
  induction entries generalizing request with
  | nil =>
      obtain rfl := Except.ok.inj trims
      exact found
  | cons entry rest ih =>
      rw [List.foldlM_cons] at trims
      obtain ⟨kept, first, later⟩ := Except.bind_eq_ok_iff.mp trims
      have before := ih later
      obtain ⟨drop, -, done⟩ := Except.bind_eq_ok_iff.mp first
      cases drop with
      | false =>
          obtain rfl := Except.ok.inj done
          exact before
      | true =>
          obtain rfl := Except.ok.inj done
          rw [OrderedMap.find?_erase] at before
          split at before
          · cases before
          · exact before

/-- A commit sends attributes of the request and `on`. -/
theorem InRange.sent {t : StateTransaction} (h : InRange t.request) {trim : Bool} {body : Object}
    (sent : (t.commit trim).sent = some body) : InRange body := by
  intro key value found
  by_cases on : key = "on"
  · subst on
    exact fits_other rfl rfl
  · obtain ⟨request, implied, trims⟩ := Except.bind_eq_ok_iff.mp (prepare_of_sent sent)
    apply h key value
    rw [← find?_addImpliedOn implied on]
    split at trims
    · split at trims
      · exact find?_of_trimRequest trims found
      · obtain rfl := Except.ok.inj trims
        exact found
    · obtain rfl := Except.ok.inj trims
      exact found

/-- After any setter calls, the request and the body that a commit sends have values in the
ranges of the API only. -/
theorem in_range_calls (commands : HueCommandAPI) (path : String) (state : Option Object)
    (setters : List SetterCall) :
    InRange ((new commands path state).calls setters).request ∧
      ∀ trim body, (((new commands path state).calls setters).commit trim).sent = some body →
        InRange body := by
  have empty : InRange (new commands path state).request := by
    intro key value found
    cases found
  have requested := empty.calls setters
  exact ⟨requested, fun _ _ sent => requested.sent sent⟩

end Hueplusplus.StateTransaction
