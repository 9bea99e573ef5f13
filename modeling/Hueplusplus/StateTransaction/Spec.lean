import Hueplusplus.StateTransaction.Basic

/-!
# What a commit does on well-typed states

On a well-typed state no accessor of `commit` throws, and each of its parts is a
pure function: the implied flag, the trimmed request, the updated state. The last
theorem lists the outcomes of a commit; later proofs use it instead of unfolding
`commit`.
-/

namespace Hueplusplus.StateTransaction

/-- Two pairs agree to 4 decimal places in both coordinates. -/
def pairClose : Json → Json → Bool
  | .arr [.num x, .num y], .arr [.num x', .num y'] =>
    Utils.floatEquals x x' && Utils.floatEquals y y'
  | _, _ => false

/-- Equal, to 4 decimal places in the case of pairs. -/
def sameValue (current value : Json) : Bool :=
  !value.isArray && decide (current = value) || pairClose current value

/-- The cached state already shows this entry of the request. -/
def looksSet (state : Object) (key : String) (value : Json) : Bool :=
  match colormodes.lookup key with
  | some mode =>
    decide (state.find? "colormode" = some (.str mode)) &&
      (state.find? key).any fun current => sameValue current value
  | none => otherRemove.contains key && decide (state.find? key = some value)

/-- The request without the entries that the state already shows. -/
def trimmed (state request : Object) : Object :=
  request.filter fun key value => !looksSet state key value

/-- The cached `on` flag, or a default. -/
def onFlag (state : Object) (default : Bool) : Bool :=
  match state.find? "on" with
  | some (.bool b) => b
  | _ => default

/-- The request sets the brightness to zero. -/
def zeroBrightness (request : Object) : Bool := decide (request.find? "bri" = some (.num 0))

/-- The request contains an attribute that turns the light on. -/
def switches (request : Object) : Bool := switchingKeys.any request.contains

/-- The implied value of `on`, from the cached state and the request. -/
def impliedFlag (state request : Object) : Option Bool :=
  if !onFlag state false && !zeroBrightness request && switches request then some true
  else if zeroBrightness request && onFlag state true then some false
  else none

/-- The request with the implied `on`, unless a setter gave one. -/
def withImpliedOn (state : Option Object) (request : Object) : Object :=
  if request.contains "on" then request
  else
    match impliedFlag (state.getD .empty) request with
    | some on => request.insert "on" (.bool on)
    | none => request

/-- The body that `commit` sends, unless nothing worth sending is left. -/
def body (t : StateTransaction) (trim : Bool) : Object :=
  match t.state with
  | some state =>
    if trim then trimmed state (withImpliedOn t.state t.request)
    else withImpliedOn t.state t.request
  | none => withImpliedOn t.state t.request

theorem colormodes_cases {key mode : String} (h : colormodes.lookup key = some mode) :
    (key = "sat" ∧ mode = "hs") ∨ (key = "hue" ∧ mode = "hs") ∨ (key = "xy" ∧ mode = "xy") ∨
      (key = "ct" ∧ mode = "ct") := by
  simp only [colormodes, List.lookup_cons, List.lookup_nil] at h
  split at h
  · simp_all
  split at h
  · simp_all
  split at h
  · simp_all
  split at h <;> simp_all

/-- The comparison of one entry throws nothing and is `sameValue`, for values of
the type of a colour attribute. -/
theorem compare_eq {kind : Kind} {current value : Json} (color : kind = .integer ∨ kind = .pair)
    (hc : kind.holds current = true) (hv : kind.holds value = true) :
    (if !value.isArray && decide (current = value) then .ok true
      else if current.isArray then Utils.pairEquals current.elemOrNull value.elemOrNull
      else .ok false : Except Exception Bool) = .ok (sameValue current value) := by
  rcases color with rfl | rfl
  · obtain ⟨a, rfl⟩ := Kind.holds_iff.mp hc
    obtain ⟨b, rfl⟩ := Kind.holds_iff.mp hv
    by_cases same : (a : ℚ) = b <;> simp [Json.isArray, sameValue, pairClose, same]
  · obtain ⟨x, y, rfl⟩ := Kind.holds_iff.mp hc
    obtain ⟨x', y', rfl⟩ := Kind.holds_iff.mp hv
    cases hx : Utils.floatEquals x x' <;>
      simp [Json.isArray, sameValue, pairClose, Utils.pairEquals, Json.elemOrNull, Json.getFloat,
        hx]

theorem trimEntry_eq {state : Object} (hs : WellTyped state) {key : String} {value : Json}
    (hv : Typed key value = true) : trimEntry state key value = .ok (looksSet state key value) := by
  unfold trimEntry looksSet
  cases hmode : colormodes.lookup key with
  | none => rfl
  | some mode =>
      cases hcurrent : state.find? key with
      | none => simp
      | some current =>
          have hc : Typed key current = true := hs.typed hcurrent
          obtain ⟨kind, known, color⟩ : ∃ kind, attributeKinds.lookup key = some kind ∧
              (kind = .integer ∨ kind = .pair) := by
            rcases colormodes_cases hmode with ⟨rfl, -⟩ | ⟨rfl, -⟩ | ⟨rfl, -⟩ | ⟨rfl, -⟩
            · exact ⟨.integer, rfl, .inl rfl⟩
            · exact ⟨.integer, rfl, .inl rfl⟩
            · exact ⟨.pair, rfl, .inr rfl⟩
            · exact ⟨.integer, rfl, .inl rfl⟩
          simp only [Typed, known, Option.all_some] at hc hv
          have nonempty : mode ≠ "" := by
            rcases colormodes_cases hmode with ⟨-, rfl⟩ | ⟨-, rfl⟩ | ⟨-, rfl⟩ | ⟨-, rfl⟩ <;> decide
          cases hcolormode : state.find? "colormode" with
          | none =>
              simp only [Object.value_of_none hcolormode]
              simp [nonempty.symm]
          | some found =>
              obtain ⟨name, rfl⟩ := hs.string hcolormode rfl
              simp only [Object.value_of_some hcolormode, Json.getString]
              by_cases same : name = mode
              · simpa [same] using compare_eq color hc hv
              · simp [same]

/-- An attribute that is not a colour can be trimmed whatever the state is. -/
theorem trimEntry_of_not_color {state : Object} {key : String} {value : Json}
    (plain : colormodes.lookup key = none) :
    trimEntry state key value = .ok (looksSet state key value) := by
  simp only [trimEntry, looksSet, plain]

theorem trimRequest_of_entries {state request : Object}
    (h : ∀ entry ∈ request.entries,
      trimEntry state entry.1 entry.2 = .ok (looksSet state entry.1 entry.2)) :
    trimRequest state request = .ok (trimmed state request) := by
  have loop : ∀ (entries : List (String × Json)) (acc : Object),
      (∀ entry ∈ entries,
        trimEntry state entry.1 entry.2 = .ok (looksSet state entry.1 entry.2)) →
      entries.foldlM (m := Except Exception) (fun acc entry => do
        if ← trimEntry state entry.1 entry.2 then return acc.erase entry.1 else return acc) acc =
      .ok (entries.foldl
        (fun acc entry => if looksSet state entry.1 entry.2 then acc.erase entry.1 else acc)
        acc) := by
    intro entries
    induction entries with
    | nil => intros; rfl
    | cons entry rest ih =>
        intro acc trims
        rw [List.foldlM_cons, List.foldl_cons, trims entry List.mem_cons_self]
        rw [← ih _ fun other member => trims other (List.mem_cons_of_mem _ member)]
        cases looksSet state entry.1 entry.2 <;> rfl
  rw [trimRequest, loop _ _ h]
  exact congrArg Except.ok (OrderedMap.foldl_erase_eq_filter request (looksSet state))

theorem trimRequest_eq {state request : Object} (hs : WellTyped state) (hr : WellTyped request) :
    trimRequest state request = .ok (trimmed state request) :=
  trimRequest_of_entries fun entry member => trimEntry_eq hs (List.all_eq_true.mp hr entry member)

theorem onFlag_eq {state : Object} (hs : WellTyped state) (default : Bool) :
    state.value "on" default Json.getBool = .ok (onFlag state default) := by
  rw [onFlag]
  cases found : state.find? "on" with
  | none => exact Object.value_of_none found _ _
  | some value =>
      obtain ⟨b, rfl⟩ := hs.bool found rfl
      exact Object.value_of_some found _ _

/-- The brightness `commit` reads is zero exactly when zero was requested. -/
theorem zeroBrightness_eq {request : Object} (hr : WellTyped request) :
    ∃ bri, request.value "bri" 254 Json.getInt = .ok bri ∧
      decide (bri = 0) = zeroBrightness request := by
  rw [zeroBrightness]
  cases found : request.find? "bri" with
  | none => exact ⟨254, Object.value_of_none found _ _, by decide⟩
  | some value =>
      obtain ⟨n, rfl⟩ := hr.integer found rfl
      exact ⟨n, by rw [Object.value_of_some found, Json.getInt_int], by simp⟩

theorem impliedOn_eq {state request : Object} (hs : WellTyped state) (hr : WellTyped request) :
    impliedOn state request = .ok (impliedFlag state request) := by
  obtain ⟨bri, read, zero⟩ := zeroBrightness_eq hr
  rw [impliedOn, impliedFlag]
  simp only [onFlag_eq hs, read, Except.ok_bind, ← zero, switches]
  by_cases bri_zero : bri = 0
  · cases onFlag state true <;> simp [bri_zero]
  · cases onFlag state false <;> cases switchingKeys.any request.contains <;> simp [bri_zero]

theorem wellTyped_withImpliedOn (t : StateTransaction) :
    WellTyped (withImpliedOn t.state t.request) := by
  rw [withImpliedOn]
  split
  · exact t.typed
  · split
    · exact t.typed.insert rfl
    · exact t.typed

section Commit

variable (t : StateTransaction) (trim : Bool)

theorem prepare_eq (hs : ∀ state, t.state = some state → WellTyped state) :
    t.prepare trim = .ok (t.body trim) := by
  have known : WellTyped (t.state.getD .empty) := by
    cases h : t.state with
    | none => exact wellTyped_empty
    | some state => exact hs state h
  have implied : t.addImpliedOn = .ok (withImpliedOn t.state t.request) := by
    rw [addImpliedOn, withImpliedOn]
    split
    · rfl
    · rw [impliedOn_eq known t.typed]
      cases impliedFlag (t.state.getD .empty) t.request <;> rfl
  rw [prepare, body]
  rw [implied]
  cases h : t.state with
  | none => rfl
  | some state =>
      cases trim with
      | false => rfl
      | true =>
          have typed := t.wellTyped_withImpliedOn
          rw [h] at typed
          exact trimRequest_eq (hs state h) typed

theorem worthSending_iff (request : Object) :
    worthSending request = true ↔
      ∃ key value, request.find? key = some value ∧ key ≠ "transitiontime" := by
  rw [OrderedMap.exists_ne_key_iff]
  simp [worthSending, imp_iff_not_or]

/-- An accepted body is laid over the state, without its transition time. -/
theorem applyToState_eq (state request : Object) :
    applyToState state request = state.overlay (request.erase "transitiontime") := by
  rw [applyToState, OrderedMap.overlay, OrderedMap.erase, OrderedMap.filter]
  rw [List.foldl_filter]
  refine congrArg (fun f => List.foldl f state request.entries) ?_
  funext acc entry
  by_cases h : entry.1 = "transitiontime" <;> simp [h]

/-- Outcomes of a commit on a well-typed state: nothing to send, an exception, a
rejected reply, or an accepted one. Only the last touches the state. -/
theorem commit_cases (hs : ∀ state, t.state = some state → WellTyped state) :
    (worthSending (t.body trim) = false ∧
      t.commit trim = ⟨none, .ok true, t.state, t.body trim⟩) ∨
    (worthSending (t.body trim) = true ∧
      ((∃ e, t.commit trim = ⟨some (t.body trim), .error e, t.state, t.body trim⟩) ∨
        t.commit trim = ⟨some (t.body trim), .ok false, t.state, t.body trim⟩ ∨
        t.commit trim = ⟨some (t.body trim), .ok true,
          t.state.map fun state => state.overlay ((t.body trim).erase "transitiontime"),
          t.body trim⟩)) := by
  rw [commit]
  rw [prepare_eq t trim hs]
  cases worth : worthSending (t.body trim) with
  | false => simp [worth]
  | true =>
      refine .inr ⟨rfl, ?_⟩
      simp only [worth, if_true]
      cases t.commands.putRequest t.path (t.body trim).toJson with
      | error e => exact .inl ⟨e, rfl⟩
      | ok reply =>
          simp only
          cases Utils.validatePUTReply t.path (t.body trim).toJson reply with
          | error e => exact .inl ⟨e, rfl⟩
          | ok accepted =>
              cases accepted with
              | false => exact .inr (.inl rfl)
              | true => simp only [applyToState_eq, or_true]

end Commit

end Hueplusplus.StateTransaction
