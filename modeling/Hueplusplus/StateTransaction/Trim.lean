import Hueplusplus.StateTransaction.Spec

/-!
# What trimming drops

The loop drops an entry only if the state shows its value, equal or, for `xy`, equal in single
precision. It never drops colours of another mode than the state's, nor the attributes that it
does not look at.
-/

namespace Hueplusplus

/-- Equal, or both pairs of numbers whose coordinates are near each other. -/
def Near (near : ℚ → ℚ → Prop) (a b : Option Json) : Prop :=
  a = b ∨ ∃ x y x' y', a = some (.arr [.num x, .num y]) ∧ b = some (.arr [.num x', .num y']) ∧
    near x x' ∧ near y y'

/-- Equal, or both pairs of numbers that agree to 4 decimal places. -/
def Close (a b : Option Json) : Prop := Near (fun x x' => |x - x'| ≤ 1 / 10000) a b

/-- Equal, or both pairs of numbers that the library takes for equal. -/
def Approx (a b : Option Json) : Prop := Near (fun x x' => Utils.floatEquals x x' = true) a b

theorem Near.refl (near : ℚ → ℚ → Prop) (a : Option Json) : Near near a a := .inl rfl

theorem Close.refl (a : Option Json) : Close a a := Near.refl _ a

theorem Approx.refl (a : Option Json) : Approx a a := Near.refl _ a

namespace StateTransaction

theorem pairClose_iff {a b : Json} :
    pairClose a b = true ↔ ∃ x y x' y', a = .arr [.num x, .num y] ∧ b = .arr [.num x', .num y'] ∧
      Utils.floatEquals x x' = true ∧ Utils.floatEquals y y' = true := by
  constructor
  · intro h
    unfold pairClose at h
    split at h
    · exact ⟨_, _, _, _, rfl, rfl, (Bool.and_eq_true _ _).mp h⟩
    · simp at h
  · rintro ⟨x, y, x', y', rfl, rfl, hx, hy⟩
    exact (Bool.and_eq_true _ _).mpr ⟨hx, hy⟩

theorem approx_of_sameValue {current value : Json} (h : sameValue current value = true) :
    Approx (some current) (some value) := by
  rw [sameValue, Bool.or_eq_true, Bool.and_eq_true] at h
  rcases h with ⟨-, same⟩ | close
  · exact .inl (congrArg some (of_decide_eq_true same))
  · obtain ⟨x, y, x', y', rfl, rfl, hx, hy⟩ := pairClose_iff.mp close
    exact .inr ⟨x, y, x', y', rfl, rfl, hx, hy⟩

theorem sameValue_comm {a b : Json} (kind : a.isArray = b.isArray) :
    sameValue a b = sameValue b a := by
  rw [Bool.eq_iff_iff]
  simp only [sameValue, Bool.or_eq_true, Bool.and_eq_true, decide_eq_true_eq, pairClose_iff, kind]
  refine or_congr (and_congr_right fun _ => eq_comm) ?_
  constructor <;>
    · rintro ⟨x, y, x', y', rfl, rfl, hx, hy⟩
      exact ⟨x', y', x, y, rfl, rfl, Utils.floatEquals_comm x x' ▸ hx,
        Utils.floatEquals_comm y y' ▸ hy⟩

@[simp] theorem find?_trimmed (state request : Object) (key : String) :
    (trimmed state request).find? key =
      (request.find? key).filter fun value => !looksSet state key value :=
  OrderedMap.find?_filter _ _ _

/-- An entry that looks set is shown by the state, `xy` up to rounding. -/
theorem shown_of_looksSet {state : Object} (hs : WellTyped state) {key : String} {value : Json}
    (h : looksSet state key value = true) :
    ∃ current, state.find? key = some current ∧
      if key = "xy" then Approx (some current) (some value) else current = value := by
  rw [looksSet] at h
  cases hmode : colormodes.lookup key with
  | none =>
      simp only [hmode, Bool.and_eq_true, decide_eq_true_eq] at h
      have notXY : key ≠ "xy" := by
        rintro rfl
        exact absurd hmode (by decide)
      exact ⟨value, h.2, by simp [notXY]⟩
  | some mode =>
      simp only [hmode, Bool.and_eq_true, decide_eq_true_eq, Option.any_eq_true] at h
      obtain ⟨-, current, found, same⟩ := h
      refine ⟨current, found, ?_⟩
      split
      · exact approx_of_sameValue same
      · rename_i notXY
        have integer : ∃ n : ℤ, current = .num n := by
          rcases colormodes_cases hmode with ⟨rfl, -⟩ | ⟨rfl, -⟩ | ⟨rfl, -⟩ | ⟨rfl, -⟩
          · exact hs.integer found rfl
          · exact hs.integer found rfl
          · exact absurd rfl notXY
          · exact hs.integer found rfl
        obtain ⟨n, rfl⟩ := integer
        simp only [sameValue, pairClose, Bool.or_false, Bool.and_eq_true,
          decide_eq_true_eq] at same
        exact same.2

/-- Entries the loop cannot drop, whatever the state shows for them. -/
theorem looksSet_eq_false {state : Object} {key : String} {value : Json}
    (mode : ∀ mode, colormodes.lookup key = some mode → state.find? "colormode" ≠ some (.str mode))
    (other : key ∉ otherRemove) : looksSet state key value = false := by
  rw [looksSet]
  cases hmode : colormodes.lookup key with
  | none => simp [other]
  | some m => simp [mode m hmode]

/-- Attributes that trimming never looks at. -/
def untrimmedKeys : List String :=
  ["transitiontime", "alert", "bri_inc", "sat_inc", "hue_inc", "ct_inc", "xy_inc"]

theorem looksSet_untrimmed (state : Object) {key : String} (untrimmed : key ∈ untrimmedKeys)
    (value : Json) : looksSet state key value = false := by
  have known : colormodes.lookup key = none ∧ key ∉ otherRemove := by
    revert key
    decide
  refine looksSet_eq_false (fun mode found => ?_) known.2
  rw [known.1] at found
  exact absurd found (by simp)

section Meaning

variable {state request : Object} (hs : WellTyped state)
include hs

theorem find?_overlay_trimmed {key : String} (notXY : key ≠ "xy") :
    (state.overlay (trimmed state request)).find? key = (state.overlay request).find? key := by
  rw [OrderedMap.find?_overlay, OrderedMap.find?_overlay, find?_trimmed]
  cases requested : request.find? key with
  | none => rfl
  | some value =>
      cases shown : looksSet state key value with
      | false => simp [shown]
      | true =>
          obtain ⟨current, found, same⟩ := shown_of_looksSet hs shown
          rw [if_neg notXY] at same
          simp [Option.filter, shown, found, same]

theorem approx_overlay_trimmed :
    Approx ((state.overlay (trimmed state request)).find? "xy")
      ((state.overlay request).find? "xy") := by
  rw [OrderedMap.find?_overlay, OrderedMap.find?_overlay, find?_trimmed]
  cases requested : request.find? "xy" with
  | none => exact .refl _
  | some value =>
      cases shown : looksSet state "xy" value with
      | false => simpa [Option.filter, shown] using Approx.refl _
      | true =>
          obtain ⟨current, found, same⟩ := shown_of_looksSet hs shown
          simpa [Option.filter, shown, found] using same

end Meaning

/-- A light in colour temperature mode. -/
def temperatureLight : Object :=
  .ofList [("on", .bool true), ("bri", .num 200), ("colormode", .str "ct"), ("ct", .num 300),
    ("hue", .num 100), ("sat", .num 254), ("xy", .arr [.num (1 / 2), .num (1 / 4)])]

end StateTransaction

end Hueplusplus
