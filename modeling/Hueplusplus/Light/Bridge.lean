import Hueplusplus.StateTransaction.Spec

/-!
# The bridge's side of a light

What the bridge is assumed to do with an acknowledged PUT on a light: it takes over
the attributes it was sent, adds the increments to their attributes, and switches
the colour mode to that of a colour attribute it was sent. Nothing else changes.

This is a statement about the bridge, not a translation of the library.
-/

namespace Hueplusplus.Bridge

/-- Attributes with an absolute value. -/
def absoluteKeys : List String := ["on", "bri", "hue", "sat", "xy", "ct", "effect", "alert"]

/-- Attributes with the key of their increment. -/
def increments : List (String × String) :=
  [("bri", "bri_inc"), ("sat", "sat_inc"), ("hue", "hue_inc"), ("ct", "ct_inc"),
    ("xy", "xy_inc")]

def addIncrement : Json → Json → Json
  | .num a, .num d => .num (a + d)
  | .arr [.num x, .num y], .arr [.num dx, .num dy] => .arr [.num (x + dx), .num (y + dy)]
  | value, _ => value

/-- Colour mode of the colour attributes in a body. -/
def colorMode? (body : Object) : Option String :=
  StateTransaction.colormodes.findSome? fun entry =>
    if body.contains entry.1 then some entry.2 else none

def applyIncrement (body light : Object) (entry : String × String) : Object :=
  match body.find? entry.2, light.find? entry.1 with
  | some d, some v => light.insert entry.1 (addIncrement v d)
  | _, _ => light

/-- The light after an acknowledged PUT with this body. -/
def apply (light body : Object) : Object :=
  let written := light.overlay (body.filter fun key _ => absoluteKeys.contains key)
  let incremented := increments.foldl (applyIncrement body) written
  match colorMode? body with
  | some mode => incremented.insert "colormode" (.str mode)
  | none => incremented

/-- The light after a commit that succeeded, which may have sent nothing. -/
def afterCommit (light : Object) (result : CommitResult) : Object :=
  match result.sent with
  | some body => apply light body
  | none => light

/-- The value of an attribute after the body's increment of it, if there is one. -/
def incremented (body : Object) (key : String) (value : Json) : Json :=
  match (increments.lookup key).bind body.find? with
  | some d => addIncrement value d
  | none => value

theorem incremented_eq_foldl (body : Object) (key : String) (value : Json) :
    incremented body key value =
      ((increments.lookup key).bind body.find?).toList.foldl addIncrement value := by
  rw [incremented]
  cases (increments.lookup key).bind body.find? <;> rfl

theorem find?_applyIncrement (body light : Object) (entry : String × String) (key : String) :
    (applyIncrement body light entry).find? key =
      if entry.1 = key then
        (light.find? key).map fun v =>
          match body.find? entry.2 with
          | some d => addIncrement v d
          | none => v
      else light.find? key := by
  rw [applyIncrement]
  by_cases hit : entry.1 = key
  · subst hit
    cases body.find? entry.2 <;> cases found : light.find? entry.1 <;> simp [found]
  · cases body.find? entry.2 <;> cases light.find? entry.1 <;>
      simp [hit, OrderedMap.find?_insert_ne]

theorem find?_foldl_applyIncrement (body : Object) (key : String) :
    ∀ (entries : List (String × String)) (light : Object), (entries.map Prod.fst).Nodup →
      (entries.foldl (applyIncrement body) light).find? key =
        (light.find? key).map fun v =>
          match (entries.lookup key).bind body.find? with
          | some d => addIncrement v d
          | none => v
  | [], light, _ => by simp
  | entry :: rest, light, distinct => by
      obtain ⟨fresh, distinct⟩ := List.nodup_cons.mp distinct
      rw [List.foldl_cons, find?_foldl_applyIncrement body key rest _ distinct,
        find?_applyIncrement, List.lookup_cons]
      by_cases hit : entry.1 = key
      · subst hit
        have absent : rest.lookup entry.1 = none := by
          refine List.lookup_eq_none_iff.mpr fun other member => ?_
          rw [bne_iff_ne]
          rintro same
          exact fresh (same ▸ List.mem_map_of_mem member)
        cases light.find? entry.1 <;> simp [absent]
      · have other : (key == entry.1) = false := by simpa using Ne.symm hit
        simp [hit, other]

/-- Every attribute but the colour mode: written if sent, then incremented. -/
theorem find?_apply (light body : Object) {key : String} (h : key ≠ "colormode") :
    (apply light body).find? key =
      ((if absoluteKeys.contains key then body.find? key else none).or (light.find? key)).map
        (incremented body key) := by
  have written : (light.overlay (body.filter fun key _ => absoluteKeys.contains key)).find? key =
      (if absoluteKeys.contains key then body.find? key else none).or (light.find? key) := by
    rw [OrderedMap.find?_overlay, OrderedMap.find?_filter]
    cases absoluteKeys.contains key <;> cases body.find? key <;> simp [Option.filter]
  have folded := find?_foldl_applyIncrement body key increments
    (light.overlay (body.filter fun key _ => absoluteKeys.contains key)) (by decide)
  rw [written] at folded
  rw [apply]
  cases colorMode? body with
  | none => exact folded
  | some mode => exact (OrderedMap.find?_insert_ne _ _ h.symm).trans folded

@[simp] theorem find?_apply_colormode (light body : Object) :
    (apply light body).find? "colormode" =
      ((colorMode? body).map Json.str).or (light.find? "colormode") := by
  rw [apply]
  cases colorMode? body with
  | some mode => exact OrderedMap.find?_insert_self _ _ _
  | none =>
      simp only [Option.map_none, Option.none_or]
      rw [find?_foldl_applyIncrement _ _ _ _ (by decide), OrderedMap.find?_overlay,
        OrderedMap.find?_filter]
      have known : increments.lookup "colormode" = none := rfl
      have unwritten : "colormode" ∉ absoluteKeys := by decide
      cases body.find? "colormode" <;> cases light.find? "colormode" <;>
        simp [known, unwritten, Option.filter]

/-- The attributes without an increment: written if sent. -/
theorem find?_apply_plain (light body : Object) {key : String}
    (absolute : absoluteKeys.contains key = true) (plain : increments.lookup key = none) :
    (apply light body).find? key = (body.find? key).or (light.find? key) := by
  have other : key ≠ "colormode" := by
    rintro rfl
    exact absurd absolute (by decide)
  rw [find?_apply light body other, if_pos absolute]
  unfold incremented
  simp [plain]

theorem absoluteKeys_ne {key : String} (absolute : key ∈ absoluteKeys) :
    key ≠ "colormode" ∧ key ≠ "transitiontime" := by
  constructor <;>
    · rintro rfl
      exact absurd absolute (by decide)

/-- What the body does not increment is written if sent. -/
theorem find?_apply_of_absolute (light : Object) {body : Object} {key : String}
    (absolute : key ∈ absoluteKeys) (alone : (increments.lookup key).bind body.find? = none) :
    (apply light body).find? key = (body.find? key).or (light.find? key) := by
  have same : incremented body key = id := by
    funext value
    rw [incremented, alone]
    rfl
  rw [find?_apply light body (absoluteKeys_ne absolute).1,
    if_pos (List.contains_iff_mem.mpr absolute), same, Option.map_id_fun, id]

/-- An attribute and its increment are of one type, integers or pairs. -/
theorem increments_kind {key incKey : String} (h : increments.lookup key = some incKey) :
    ∃ kind, (kind = .integer ∨ kind = .pair) ∧ attributeKinds.lookup key = some kind ∧
      attributeKinds.lookup incKey = some kind := by
  have kinds : ∀ entry ∈ increments, ∃ kind ∈ [Kind.integer, Kind.pair],
      attributeKinds.lookup entry.1 = some kind ∧ attributeKinds.lookup entry.2 = some kind := by
    decide
  obtain ⟨before, after, split, -⟩ := List.lookup_eq_some_iff.mp h
  obtain ⟨kind, listed, known⟩ := kinds (key, incKey) (by rw [split]; simp)
  exact ⟨kind, by simpa using listed, known⟩

theorem holds_addIncrement {kind : Kind} (h : kind = .integer ∨ kind = .pair) {v d : Json}
    (hv : kind.holds v = true) (hd : kind.holds d = true) :
    kind.holds (addIncrement v d) = true := by
  rcases h with rfl | rfl
  · obtain ⟨a, rfl⟩ := Kind.holds_iff.mp hv
    obtain ⟨b, rfl⟩ := Kind.holds_iff.mp hd
    exact Kind.holds_iff.mpr ⟨a + b, by simp [addIncrement]⟩
  · obtain ⟨x, y, rfl⟩ := Kind.holds_iff.mp hv
    obtain ⟨dx, dy, rfl⟩ := Kind.holds_iff.mp hd
    rfl

theorem typed_incremented {body : Object} (hb : WellTyped body) {key : String} {value : Json}
    (hv : Typed key value = true) : Typed key (incremented body key value) = true := by
  rw [incremented]
  cases found : (increments.lookup key).bind body.find? with
  | none => exact hv
  | some d =>
      obtain ⟨incKey, known, sent⟩ := Option.bind_eq_some_iff.mp found
      obtain ⟨kind, additive, keyKind, incKind⟩ := increments_kind known
      simp only [Typed, keyKind, Option.all_some] at hv ⊢
      exact holds_addIncrement additive hv (hb.kind incKind sent)

/-- The bridge keeps the types of the attributes. -/
theorem wellTyped_apply {light body : Object} (hl : WellTyped light) (hb : WellTyped body) :
    WellTyped (apply light body) := by
  refine wellTyped_iff.mpr fun key value found => ?_
  by_cases mode : key = "colormode"
  · subst mode
    rw [find?_apply_colormode, Option.or_eq_some_iff, Option.map_eq_some_iff] at found
    rcases found with ⟨name, -, rfl⟩ | ⟨-, found⟩
    · rfl
    · exact hl.typed found
  · rw [find?_apply light body mode, Option.map_eq_some_iff] at found
    obtain ⟨written, found, rfl⟩ := found
    refine typed_incremented hb ?_
    rw [Option.or_eq_some_iff] at found
    rcases found with found | ⟨-, found⟩
    · split at found
      · exact hb.typed found
      · simp at found
    · exact hl.typed found

end Hueplusplus.Bridge
