import Hueplusplus.StateTransaction.Ranges

/-!
# Trimming keeps the meaning of a request

What a request means to a light state is the state with the request laid over it. Trimming drops
an entry only if the state already shows its value, so the meaning is the same with and without
it. The one exception is `xy`: the loop compares it in single precision, hence the trimmed request
keeps the old coordinates instead of writing close ones. Rounding adds a little to the tolerance.
-/

namespace Hueplusplus.StateTransaction

/-- What is left of a request means to the state what the request means, up to what is near for
`xy`. It has entries of the request only, with the colours of another mode and the attributes
that trimming does not look at. -/
structure KeepsMeaning (near : ℚ → ℚ → Prop) (state request left : Object) : Prop where
  same : ∀ key, key ≠ "xy" → (state.overlay left).find? key = (state.overlay request).find? key
  xy : Near near ((state.overlay left).find? "xy") ((state.overlay request).find? "xy")
  subset : ∀ key value, left.find? key = some value → request.find? key = some value
  colors : ∀ key value mode, request.find? key = some value →
    colormodes.lookup key = some mode → state.find? "colormode" ≠ some (.str mode) →
      left.find? key = some value
  untrimmed : ∀ key value, request.find? key = some value → key ∈ untrimmedKeys →
    left.find? key = some value

theorem keepsMeaning_trimmed {near : ℚ → ℚ → Prop} {state request : Object}
    (hs : WellTyped state)
    (xy : Near near ((state.overlay (trimmed state request)).find? "xy")
      ((state.overlay request).find? "xy")) :
    KeepsMeaning near state request (trimmed state request) where
  same _ notXY := find?_overlay_trimmed hs notXY
  xy := xy
  subset key value kept := by
    rw [find?_trimmed, Option.filter_eq_some_iff] at kept
    exact kept.1
  colors key value mode requested known otherMode := by
    have kept : looksSet state key value = false := by
      refine looksSet_eq_false (fun mode' known' => ?_) ?_
      · rw [known, Option.some.injEq] at known'
        exact known' ▸ otherMode
      · rcases colormodes_cases known with ⟨rfl, -⟩ | ⟨rfl, -⟩ | ⟨rfl, -⟩ | ⟨rfl, -⟩ <;> decide
    simp [find?_trimmed, requested, kept]
  untrimmed key value requested untrimmed := by
    simp [find?_trimmed, requested, looksSet_untrimmed state untrimmed]

/-- What single precision takes for equal is near, as a setter gives coordinates from 0 to 1. -/
theorem near_overlay_trimmed {state request : Object} (hs : WellTyped state)
    (range : InRange request) :
    Near (fun x x' => |x - x'| ≤ 501 / 5000000)
      ((state.overlay (trimmed state request)).find? "xy")
      ((state.overlay request).find? "xy") := by
  have approx : Approx ((state.overlay (trimmed state request)).find? "xy")
      ((state.overlay request).find? "xy") := approx_overlay_trimmed hs
  rcases approx with same | ⟨x, y, x', y', old, new, hx, hy⟩
  · exact .inl same
  · refine .inr ⟨x, y, x', y', old, new, ?_⟩
    rw [OrderedMap.find?_overlay] at new
    cases requested : request.find? "xy" with
    | none =>
        -- Without a request both are the pair of the state.
        rw [requested, Option.none_or] at new
        have nothing : (trimmed state request).find? "xy" = none := by
          rw [find?_trimmed, requested]
          rfl
        rw [OrderedMap.find?_overlay, nothing, Option.none_or, new] at old
        obtain ⟨rfl, rfl⟩ : x' = x ∧ y' = y := by simpa using old
        norm_num
    | some value =>
        rw [requested, Option.some_or] at new
        obtain ⟨a, b, rfl, ha, hb⟩ := (range "xy" value requested).pair _ rfl
        obtain ⟨rfl, rfl⟩ : a = x' ∧ b = y' := by simpa using new
        exact ⟨Utils.abs_sub_le_of_floatEquals hx ha.1 ha.2,
          Utils.abs_sub_le_of_floatEquals hy hb.1 hb.2⟩

/-- Trimming the request of any setter calls succeeds and keeps what it means to any state, where
`xy` can be kept that is less than 1.01 times the tolerance away. -/
theorem trimRequest_keeps_meaning (commands : HueCommandAPI) (path : String)
    (cached : Option Object) (setters : List SetterCall) {state : Object} (hs : WellTyped state) :
    ∃ left, trimRequest state ((new commands path cached).calls setters).request = .ok left ∧
      KeepsMeaning (fun x x' => |x - x'| ≤ 501 / 5000000) state
        ((new commands path cached).calls setters).request left := by
  have empty : InRange (new commands path cached).request := fun _ _ found => nomatch found
  exact ⟨_, trimRequest_eq hs ((new commands path cached).calls setters).typed,
    keepsMeaning_trimmed hs (near_overlay_trimmed hs (empty.calls setters))⟩

theorem trimRequest_keeps_meaning_temperatureLight :
    ∃ left, trimRequest temperatureLight
        ((new Utils.acknowledgingCommands "/lights/1/state" none).calls
          [.setColorTemperature 300, .setOn true, .setColorHue 100]).request = .ok left ∧
      left.find? "hue" = some (.num 100) := by
  obtain ⟨left, trims, keeps⟩ := trimRequest_keeps_meaning Utils.acknowledgingCommands
    "/lights/1/state" none [.setColorTemperature 300, .setOn true, .setColorHue 100]
    (show WellTyped temperatureLight by decide +kernel)
  exact ⟨left, trims, keeps.colors "hue" (.num 100) "hs" (by decide +kernel) rfl
    (by decide +kernel)⟩

/-- A light whose `xy` is rounded up in single precision. -/
def roundedLight : Object :=
  .ofList [("colormode", .str "xy"),
    ("xy", .arr [.num (25000007450580602 / 10 ^ 17), .num (1 / 4)])]

/-- The next float to 0.2501 is more than 0.0001 away from it, but less than that from its
rounded value. -/
theorem trimRequest_keeps_more_than_tolerance :
    ¬ ∀ (commands : HueCommandAPI) (path : String) (cached : Option Object)
        (setters : List SetterCall) (state : Object), WellTyped state →
      ∃ left, trimRequest state ((new commands path cached).calls setters).request = .ok left ∧
        KeepsMeaning (fun x x' => |x - x'| ≤ 1 / 10000) state
          ((new commands path cached).calls setters).request left := by
  intro always
  obtain ⟨left, trims, keeps⟩ := always Utils.acknowledgingCommands "/lights/1/state" none
    [.setColorXY ⟨4195983 / 16777216, 1 / 4⟩] roundedLight (by decide +kernel)
  have typed : WellTyped roundedLight := by decide +kernel
  rw [trimRequest_eq typed ((new _ _ _).calls _).typed, Except.ok.injEq] at trims
  have kept : (roundedLight.overlay left).find? "xy" =
      some (.arr [.num (25000007450580602 / 10 ^ 17), .num (1 / 4)]) := by
    rw [← trims]
    decide +kernel
  have meant : (roundedLight.overlay ((new Utils.acknowledgingCommands "/lights/1/state" none).calls
      [.setColorXY ⟨4195983 / 16777216, 1 / 4⟩]).request).find? "xy" =
      some (.arr [.num (4195983 / 16777216), .num (1 / 4)]) := by decide +kernel
  have near := keeps.xy
  rw [kept, meant] at near
  rcases near with same | ⟨x, y, x', y', old, new, far, -⟩
  · simp only [Option.some.injEq, Json.arr.injEq, List.cons.injEq, Json.num.injEq] at same
    norm_num at same
  · simp only [Option.some.injEq, Json.arr.injEq, List.cons.injEq, Json.num.injEq] at old new
    rw [← old.1, ← new.1, abs_le] at far
    norm_num at far

end Hueplusplus.StateTransaction
