import Hueplusplus.Foundation.System
import Hueplusplus.StateTransaction.Ranges
import Hueplusplus.StateTransaction.Switching

/-!
# Commits in sequence

A light's cached state is written by its own commits only, as long as it is not
refreshed. An accepted commit records the attributes it sent, but neither the sum of
an attribute and its increment nor the colour mode the bridge switches to. Hence
trimming is sound in a run as long as no transaction relies on what the cache did
not record.

`Ledger` lists what the cache did not record. It is read by the condition and by
the invariant, not by the steps.
-/

namespace Hueplusplus.Sync

open StateTransaction

/-- The increments of each attribute that were sent since the attribute itself was,
and the mode of the last colour that was sent. -/
structure Ledger where
  pending : String → List Json
  mode : Option String

/-- Nothing sent yet. -/
def Ledger.empty : Ledger := ⟨fun _ => [], none⟩

def Ledger.record (ledger : Ledger) : Option Object → Ledger
  | none => ledger
  | some body =>
    { pending := fun key =>
        (if body.contains key then [] else ledger.pending key) ++
          ((Bridge.increments.lookup key).bind body.find?).toList
      mode := (Bridge.colorMode? body).or ledger.mode }

structure State where
  cache : Object
  light : Object
  ledger : Ledger

/-- A transaction to come: its setter calls, and where and how it is sent. -/
structure Update where
  commands : HueCommandAPI
  path : String
  setters : List SetterCall

def Update.transaction (u : Update) (cache : Object) : StateTransaction :=
  (new u.commands u.path (some cache)).calls u.setters

/-- The attributes set by the calls. -/
def Update.request (u : Update) (cache : Object) : Object := (u.transaction cache).request

theorem lookup_colormodes_iff {key mode : String} :
    colormodes.lookup key = some mode ↔ (key, mode) ∈ colormodes := by
  constructor
  · intro known
    rcases colormodes_cases known with ⟨rfl, rfl⟩ | ⟨rfl, rfl⟩ | ⟨rfl, rfl⟩ | ⟨rfl, rfl⟩ <;> decide
  · have all : ∀ entry ∈ colormodes, colormodes.lookup entry.1 = some entry.2 := by decide
    exact fun member => all _ member

/-- The colours in a request are of one mode. -/
def OneMode (request : Object) : Prop :=
  ∀ key key' mode mode', colormodes.lookup key = some mode → colormodes.lookup key' = some mode' →
    request.contains key = true → request.contains key' = true → mode = mode'

theorem oneMode_iff {request : Object} :
    OneMode request ↔ ∀ entry ∈ colormodes, ∀ entry' ∈ colormodes,
      request.contains entry.1 = true → request.contains entry'.1 = true → entry.2 = entry'.2 := by
  constructor
  · exact fun one entry member entry' member' => one entry.1 entry'.1 entry.2 entry'.2
      (lookup_colormodes_iff.mpr member) (lookup_colormodes_iff.mpr member')
  · exact fun all key key' mode mode' known known' => all (key, mode)
      (lookup_colormodes_iff.mp known) (key', mode') (lookup_colormodes_iff.mp known')

instance (request : Object) : Decidable (OneMode request) := decidable_of_iff _ oneMode_iff.symm

/-- Successful commits, one after the other, from a cache that equals the bridge's
light. -/
def system : System State Update where
  init s := s.cache = s.light ∧ WellTyped s.cache ∧ s.ledger = .empty
  admissible s u :=
    ((u.transaction s.cache).commit true).outcome = .ok true ∧ OneMode (u.request s.cache)
  step s u :=
    let result := (u.transaction s.cache).commit true
    { cache := result.state.getD s.cache
      light := Bridge.afterCommit s.light result
      ledger := s.ledger.record result.sent }

/-- Attributes with an absolute value that a setter can give. -/
def setKeys : List String := ["on", "bri", "hue", "sat", "xy", "ct", "effect"]

/-- Everything a request sets is in effect on the light, `xy` up to 4 decimal places. -/
def InEffect (request light : Object) : Prop :=
  (∀ key value, key ∈ setKeys → request.find? key = some value →
    if key = "xy" then Approx (light.find? key) (some value) else light.find? key = some value) ∧
  ∀ key mode, colormodes.lookup key = some mode → request.contains key = true →
    light.find? "colormode" = some (.str mode)

/-- An increment that changes nothing. -/
def isZero : Json → Bool
  | .num q => q == 0
  | .arr [.num x, .num y] => x == 0 && y == 0
  | _ => false

/-- A request that relies only on what the cache has recorded. -/
structure Recorded (s : State) (request : Object) : Prop where
  /-- No attribute is both set and incremented. -/
  separate : ∀ key incKey d, (key, incKey) ∈ Bridge.increments → request.contains key = true →
    request.find? incKey = some d → isZero d = true
  /-- The increments of an attribute that is set to its cached value have cancelled out. -/
  settled : ∀ key value current, request.find? key = some value →
    looksSet s.cache key value = true → s.cache.find? key = some current →
    (s.ledger.pending key).foldl Bridge.addIncrement current = current
  /-- If the cache shows all colours of the request, then the last colour sent was of
  their mode. -/
  sameMode : ∀ key mode lastMode, colormodes.lookup key = some mode →
    request.contains key = true →
    (∀ other value, (colormodes.lookup other).isSome → request.find? other = some value →
      looksSet s.cache other value = true) →
    s.ledger.mode = some lastMode → lastMode = mode

@[simp] theorem transaction_state (u : Update) (cache : Object) :
    (u.transaction cache).state = some cache :=
  (calls_frame (new u.commands u.path (some cache)) u.setters).2.2

theorem wellTyped_transaction {cache : Object} (typed : WellTyped cache) (u : Update) :
    ∀ state, (u.transaction cache).state = some state → WellTyped state := by
  intro state same
  rw [transaction_state, Option.some.injEq] at same
  exact same ▸ typed

/-- No setter writes the colour mode. -/
@[simp] theorem request_colormode (u : Update) (cache : Object) :
    (u.request cache).find? "colormode" = none := by
  have silent (setter : SetterCall) : setter.value? "colormode" = none := by cases setter <;> rfl
  have given : given (writers u.setters) "colormode" = [] :=
    List.filterMap_eq_nil_iff.mpr fun setter _ => silent setter
  rw [Update.request, Update.transaction, find?_calls, given]
  rfl

/-- A colour that a setter gives equals itself, also when it is a pair. -/
theorem sameValue_requested {u : Update} {cache : Object} {key mode : String} {value : Json}
    (known : colormodes.lookup key = some mode)
    (requested : (u.request cache).find? key = some value) : sameValue value value = true := by
  have empty : InRange (new u.commands u.path (some cache)).request :=
      fun _ _ found => nomatch found
  have fits := empty.calls u.setters key value requested
  rcases colormodes_cases known with ⟨rfl, -⟩ | ⟨rfl, -⟩ | ⟨rfl, -⟩ | ⟨rfl, -⟩
  · obtain ⟨q, rfl, -⟩ := fits.number _ rfl
    simp [sameValue, Json.isArray]
  · obtain ⟨q, rfl, -⟩ := fits.number _ rfl
    simp [sameValue, Json.isArray]
  · obtain ⟨x, y, rfl, hx, hy⟩ := fits.pair _ rfl
    simp [sameValue, pairClose, Utils.floatEquals_self hx.1 hx.2, Utils.floatEquals_self hy.1 hy.2]
  · obtain ⟨q, rfl, -⟩ := fits.number _ rfl
    simp [sameValue, Json.isArray]

theorem find?_withImpliedOn_ne (state : Option Object) (request : Object) {key : String}
    (other : key ≠ "on") : (withImpliedOn state request).find? key = request.find? key := by
  rw [withImpliedOn]
  split
  · rfl
  · split
    · exact OrderedMap.find?_insert_ne _ _ other.symm
    · rfl

theorem find?_withImpliedOn_of_some (state : Option Object) {request : Object} {key : String}
    {value : Json} (requested : request.find? key = some value) :
    (withImpliedOn state request).find? key = some value := by
  by_cases on : key = "on"
  · subst on
    rw [withImpliedOn, if_pos (by simp [OrderedMap.contains, requested])]
    exact requested
  · rw [find?_withImpliedOn_ne state request on, requested]

section Body

variable {u : Update} {cache : Object} {key : String} {value : Json}

theorem find?_body (u : Update) (cache : Object) (key : String) :
    ((u.transaction cache).body true).find? key =
      ((withImpliedOn (some cache) (u.request cache)).find? key).filter fun value =>
        !looksSet cache key value := by
  rw [body]
  rw [transaction_state]
  exact find?_trimmed _ _ _

/-- What is requested is sent, unless the cache shows it. -/
theorem find?_body_of_requested (requested : (u.request cache).find? key = some value) :
    ((u.transaction cache).body true).find? key =
      if looksSet cache key value then none else some value := by
  rw [find?_body, find?_withImpliedOn_of_some _ requested]
  cases shown : looksSet cache key value <;> simp [Option.filter, shown]

/-- What is sent was requested, the implied `on` apart, and the cache does not show it. -/
theorem requested_of_body (other : key ≠ "on")
    (sent : ((u.transaction cache).body true).find? key = some value) :
    (u.request cache).find? key = some value ∧ looksSet cache key value = false := by
  rw [find?_body, find?_withImpliedOn_ne _ _ other, Option.filter_eq_some_iff] at sent
  simpa using sent

@[simp] theorem body_colormode (u : Update) (cache : Object) :
    ((u.transaction cache).body true).find? "colormode" = none := by
  rw [find?_body, find?_withImpliedOn_ne _ _ (by decide), request_colormode]
  rfl

end Body

/-- What the ledger adds to the cache is what the light shows. -/
structure Inv (s : State) : Prop where
  typed : WellTyped s.cache
  shown : ∀ key ∈ Bridge.absoluteKeys, s.light.find? key =
    (s.cache.find? key).map fun value => (s.ledger.pending key).foldl Bridge.addIncrement value
  mode : s.light.find? "colormode" =
    (s.ledger.mode.map Json.str).or (s.cache.find? "colormode")

/-- A successful commit sends nothing and changes nothing, or its body is written to
the cache, applied to the light and recorded. -/
theorem step_cases {s : State} (typed : WellTyped s.cache) {u : Update}
    (success : ((u.transaction s.cache).commit true).outcome = .ok true) :
    (worthSending ((u.transaction s.cache).body true) = false ∧ system.step s u = s) ∨
    (worthSending ((u.transaction s.cache).body true) = true ∧ system.step s u =
      { cache := s.cache.overlay
          (((u.transaction s.cache).body true).erase "transitiontime")
        light := Bridge.apply s.light ((u.transaction s.cache).body true)
        ledger := s.ledger.record (some ((u.transaction s.cache).body true)) }) := by
  have cached := transaction_state u s.cache
  have known : ∀ state, (u.transaction s.cache).state = some state → WellTyped state := by
    intro state h
    rw [cached, Option.some.injEq] at h
    exact h ▸ typed
  simp only [system]
  rcases commit_cases (u.transaction s.cache) true known with
    ⟨nothing, result⟩ | ⟨worth, ⟨e, result⟩ | result | result⟩
  · rw [result, cached]
    exact .inl ⟨nothing, rfl⟩
  · rw [result] at success
    exact absurd success (by simp)
  · rw [result] at success
    exact absurd success (by simp)
  · rw [result, cached]
    exact .inr ⟨worth, rfl⟩

theorem wellTyped_overlay {state top : Object} (hs : WellTyped state) (ht : WellTyped top) :
    WellTyped (state.overlay top) := by
  refine wellTyped_iff.mpr fun key value found => ?_
  rw [OrderedMap.find?_overlay, Option.or_eq_some_iff] at found
  rcases found with found | ⟨-, found⟩
  · exact ht.typed found
  · exact hs.typed found

theorem wellTyped_body (u : Update) (cache : Object) :
    WellTyped ((u.transaction cache).body true) := by
  have typed := wellTyped_withImpliedOn (u.transaction cache)
  rw [body]
  rw [transaction_state] at typed ⊢
  change WellTyped (trimmed cache _)
  exact typed.filter _

theorem inv_sent {s : State} (h : Inv s) (u : Update) :
    Inv
      { cache := s.cache.overlay
          (((u.transaction s.cache).body true).erase "transitiontime")
        light := Bridge.apply s.light ((u.transaction s.cache).body true)
        ledger := s.ledger.record (some ((u.transaction s.cache).body true)) } := by
  have untouched := body_colormode u s.cache
  have bodyTyped := wellTyped_body u s.cache
  generalize (u.transaction s.cache).body true = body at untouched bodyTyped
  refine ⟨wellTyped_overlay h.typed (bodyTyped.filter _), fun key absolute => ?_, ?_⟩
  · have notMode : key ≠ "colormode" := by
      rintro rfl
      exact absurd absolute (by decide)
    have notTransition : "transitiontime" ≠ key := by
      rintro rfl
      exact absurd absolute (by decide)
    rw [Bridge.find?_apply _ _ notMode, if_pos (List.contains_iff_mem.mpr absolute),
      OrderedMap.find?_overlay, OrderedMap.find?_erase, if_neg notTransition, h.shown key absolute]
    cases found : body.find? key with
    | none =>
        simp [Ledger.record, OrderedMap.contains, found, Bridge.incremented_eq_foldl,
          Function.comp_def]
    | some value => simp [Ledger.record, OrderedMap.contains, found, Bridge.incremented_eq_foldl]
  · rw [Bridge.find?_apply_colormode, OrderedMap.find?_overlay, OrderedMap.find?_erase,
      if_neg (by decide), untouched, h.mode]
    simp only [Ledger.record]
    cases Bridge.colorMode? body <;> simp

theorem inv_step {s : State} (h : Inv s) {u : Update} (admissible : system.admissible s u) :
    Inv (system.step s u) := by
  rcases step_cases h.typed admissible.1 with ⟨-, same⟩ | ⟨-, sent⟩
  · rw [same]
    exact h
  · rw [sent]
    exact inv_sent h u

theorem invariant : system.Invariant Inv where
  init s start := by
    obtain ⟨same, typed, ledger⟩ := start
    refine ⟨typed, fun key _ => ?_, ?_⟩ <;> simp [ledger, Ledger.empty, same]
  step _ _ h admissible := inv_step h admissible

theorem color_ne {key mode other : String} (known : colormodes.lookup key = some mode)
    (plain : colormodes.lookup other = none) : key ≠ other := by
  rintro rfl
  rw [plain] at known
  exact absurd known (by simp)

/-- A body with colours of one mode switches the bridge to that mode. -/
theorem colorMode?_eq_some {body : Object} (one : OneMode body) {key mode : String}
    (known : colormodes.lookup key = some mode) (sent : body.contains key = true) :
    Bridge.colorMode? body = some mode := by
  rw [Bridge.colorMode?]
  cases first : colormodes.findSome? fun entry =>
      if body.contains entry.1 then some entry.2 else none with
  | none =>
      rw [List.findSome?_eq_none_iff] at first
      have absent := first (key, mode) (lookup_colormodes_iff.mp known)
      simp [sent] at absent
  | some other =>
      obtain ⟨entry, member, hit⟩ := List.exists_of_findSome?_eq_some first
      split at hit
      · rename_i contained
        rw [Option.some.injEq] at hit
        rw [← hit, one key entry.1 mode entry.2 known (lookup_colormodes_iff.mpr member) sent
          contained]
      · simp at hit

/-- A body without colours leaves the mode. -/
theorem colorMode?_eq_none {body : Object}
    (absent : ∀ key mode, colormodes.lookup key = some mode → body.find? key = none) :
    Bridge.colorMode? body = none := by
  refine List.findSome?_eq_none_iff.mpr fun entry member => ?_
  have none := absent entry.1 entry.2 (lookup_colormodes_iff.mpr member)
  simp [OrderedMap.contains, none]

theorem addIncrement_of_isZero (value : Json) {d : Json} (zero : isZero d = true) :
    Bridge.addIncrement value d = value := by
  unfold Bridge.addIncrement
  split <;> simp_all [isZero]

section Effect

variable {s : State} {u : Update}

theorem oneMode_body (one : OneMode (u.request s.cache)) :
    OneMode ((u.transaction s.cache).body true) := by
  have requested : ∀ key mode, colormodes.lookup key = some mode →
      ((u.transaction s.cache).body true).contains key = true →
      (u.request s.cache).contains key = true := by
    intro key mode known sent
    obtain ⟨value, found⟩ := OrderedMap.contains_iff.mp sent
    exact OrderedMap.contains_iff.mpr ⟨value, (requested_of_body (color_ne known rfl) found).1⟩
  exact fun key key' mode mode' known known' sent sent' =>
    one key key' mode mode' known known' (requested _ _ known sent) (requested _ _ known' sent')

/-- An increment that is sent along with its attribute changes nothing. -/
theorem incremented_body (recorded : Recorded s (u.request s.cache)) {key : String}
    (requested : (u.request s.cache).contains key = true) (value : Json) :
    Bridge.incremented ((u.transaction s.cache).body true) key value = value := by
  rw [Bridge.incremented]
  cases found : (Bridge.increments.lookup key).bind ((u.transaction s.cache).body true).find? with
  | none => rfl
  | some d =>
      obtain ⟨incKey, known, sent⟩ := Option.bind_eq_some_iff.mp found
      have member : (key, incKey) ∈ Bridge.increments := by
        obtain ⟨before, after, split, -⟩ := List.lookup_eq_some_iff.mp known
        rw [split]
        simp
      have notOn : ∀ entry ∈ Bridge.increments, entry.2 ≠ "on" := by decide
      have given := (requested_of_body (notOn _ member) sent).1
      exact addIncrement_of_isZero value (recorded.separate key incKey d member requested given)

/-- A value that the cache shows is the one on the light. -/
theorem light_of_looksSet (h : Inv s) (recorded : Recorded s (u.request s.cache))
    {key : String} {value : Json} (absolute : key ∈ Bridge.absoluteKeys)
    (requested : (u.request s.cache).find? key = some value)
    (shown : looksSet s.cache key value = true) :
    ∃ current, s.light.find? key = some current ∧
      if key = "xy" then Approx (some current) (some value) else current = value := by
  obtain ⟨current, found, same⟩ := shown_of_looksSet h.typed shown
  refine ⟨current, ?_, same⟩
  rw [h.shown key absolute, found, Option.map_some,
    recorded.settled key value current requested shown found]

theorem inEffect_value (h : Inv s) (admissible : system.admissible s u)
    (recorded : Recorded s (u.request s.cache)) {key : String} {value : Json}
    (settable : key ∈ setKeys) (requested : (u.request s.cache).find? key = some value) :
    if key = "xy" then Approx ((system.step s u).light.find? key) (some value)
    else (system.step s u).light.find? key = some value := by
  have subset : ∀ key ∈ setKeys, key ∈ Bridge.absoluteKeys := by decide
  have absolute : key ∈ Bridge.absoluteKeys := subset key settable
  have notMode : key ≠ "colormode" := by
    rintro rfl
    exact absurd absolute (by decide)
  have notTransition : key ≠ "transitiontime" := by
    rintro rfl
    exact absurd absolute (by decide)
  have contained : (u.request s.cache).contains key = true :=
    OrderedMap.contains_iff.mpr ⟨value, requested⟩
  have body := find?_body_of_requested requested
  cases shown : looksSet s.cache key value with
  | true =>
      obtain ⟨current, light, same⟩ := light_of_looksSet h recorded absolute requested shown
      have after : (system.step s u).light.find? key = some current := by
        rcases step_cases h.typed admissible.1 with ⟨-, step⟩ | ⟨-, step⟩
        · rw [step, light]
        · rw [step, Bridge.find?_apply _ _ notMode, body, if_pos shown, light]
          simp [incremented_body recorded contained]
      rw [after]
      split
      · rename_i xy
        simpa [xy] using same
      · rename_i notXY
        simpa [notXY] using same
  | false =>
      rw [shown, if_neg Bool.false_ne_true] at body
      have after : (system.step s u).light.find? key = some value := by
        rcases step_cases h.typed admissible.1 with ⟨nothing, -⟩ | ⟨-, step⟩
        · have worth := (worthSending_iff _).mpr ⟨key, value, body, notTransition⟩
          rw [nothing] at worth
          exact absurd worth (by simp)
        · rw [step, Bridge.find?_apply _ _ notMode, body,
            if_pos (List.contains_iff_mem.mpr absolute)]
          simp [incremented_body recorded contained]
      rw [after]
      split
      · exact .refl _
      · rfl

theorem inEffect_mode (h : Inv s) (admissible : system.admissible s u)
    (recorded : Recorded s (u.request s.cache)) {key mode : String}
    (known : colormodes.lookup key = some mode)
    (requested : (u.request s.cache).contains key = true) :
    (system.step s u).light.find? "colormode" = some (.str mode) := by
  by_cases allShown : ∀ other value, (colormodes.lookup other).isSome →
      (u.request s.cache).find? other = some value → looksSet s.cache other value = true
  · -- No colour is sent, so the mode must have been right before.
    have before : s.light.find? "colormode" = some (.str mode) := by
      obtain ⟨value, found⟩ := OrderedMap.contains_iff.mp requested
      have shown := allShown key value (by simp [known]) found
      simp only [looksSet, known, Bool.and_eq_true, decide_eq_true_eq] at shown
      rw [h.mode]
      cases last : s.ledger.mode with
      | none => simpa using shown.1
      | some lastMode => simp [recorded.sameMode key mode lastMode known requested allShown last]
    rcases step_cases h.typed admissible.1 with ⟨-, step⟩ | ⟨-, step⟩
    · rw [step, before]
    · have colorless : Bridge.colorMode? ((u.transaction s.cache).body true) = none := by
        refine colorMode?_eq_none fun other m hm => ?_
        refine Option.eq_none_iff_forall_ne_some.mpr fun value found => ?_
        obtain ⟨given, unshown⟩ := requested_of_body (color_ne hm rfl) found
        rw [allShown other value (by simp [hm]) given] at unshown
        exact absurd unshown (by simp)
      rw [step, Bridge.find?_apply_colormode, colorless, before]
      rfl
  · -- Some colour is sent, and it is of the same mode.
    push Not at allShown
    obtain ⟨other, value, isColor, given, unshown⟩ := allShown
    obtain ⟨m, hm⟩ := Option.isSome_iff_exists.mp isColor
    have body := find?_body_of_requested given
    rw [if_neg unshown] at body
    have contained : ((u.transaction s.cache).body true).contains other = true :=
      OrderedMap.contains_iff.mpr ⟨value, body⟩
    have same : m = mode := admissible.2 other key m mode hm known
      (OrderedMap.contains_iff.mpr ⟨value, given⟩) requested
    rcases step_cases h.typed admissible.1 with ⟨nothing, -⟩ | ⟨-, step⟩
    · have worth := (worthSending_iff _).mpr ⟨other, value, body, color_ne hm rfl⟩
      rw [nothing] at worth
      exact absurd worth (by simp)
    · rw [step, Bridge.find?_apply_colormode,
        colorMode?_eq_some (oneMode_body admissible.2) hm contained, same]
      rfl

end Effect

/-- In every run, whatever a transaction sets is in effect after its commit, provided
its request relies only on what the cache has recorded. -/
theorem request_in_effect {s : State} (reachable : system.Reachable s) {u : Update}
    (admissible : system.admissible s u) (recorded : Recorded s (u.request s.cache)) :
    InEffect (u.request s.cache) (system.step s u).light := by
  have h := invariant.holds reachable
  exact ⟨fun key value settable requested =>
      inEffect_value h admissible recorded settable requested,
    fun key mode known requested => inEffect_mode h admissible recorded known requested⟩

theorem request_in_effect_temperatureLight :
    InEffect
      (Update.request ⟨Utils.acknowledgingCommands, "/lights/1/state", [.setColorTemperature 200]⟩
        temperatureLight)
      (system.step ⟨temperatureLight, temperatureLight, .empty⟩
        ⟨Utils.acknowledgingCommands, "/lights/1/state", [.setColorTemperature 200]⟩).light := by
  refine request_in_effect (s := ⟨temperatureLight, temperatureLight, .empty⟩)
    (u := ⟨Utils.acknowledgingCommands, "/lights/1/state", [.setColorTemperature 200]⟩)
    (.init ⟨rfl, by decide +kernel, rfl⟩) ⟨rfl, by decide +kernel⟩ ⟨?_, ?_, ?_⟩
  · have absent : ∀ entry ∈ Bridge.increments,
        (Update.request ⟨Utils.acknowledgingCommands, "/lights/1/state",
          [.setColorTemperature 200]⟩ temperatureLight).find? entry.2 = none := by decide +kernel
    intro key incKey d member _ found
    rw [absent (key, incKey) member] at found
    exact absurd found (by simp)
  · exact fun _ _ _ _ _ _ => rfl
  · exact fun _ _ _ _ _ _ last => absurd last (by simp [Ledger.empty])

/-- A hue and then the old colour temperature: the second transaction sends nothing. -/
theorem old_temperature_not_in_effect :
    ¬ ∀ s u, system.Reachable s → system.admissible s u →
      InEffect (u.request s.cache) (system.step s u).light := by
  intro always
  have start : system.Reachable ⟨temperatureLight, temperatureLight, .empty⟩ :=
    .init ⟨rfl, by decide +kernel, rfl⟩
  have colored := start.step
    ⟨Utils.acknowledgingCommands, "/lights/1/state", [.setColorHueSaturation ⟨20000, 254⟩]⟩
    ⟨rfl, by decide +kernel⟩
  have effect := always _
    ⟨Utils.acknowledgingCommands, "/lights/1/state", [.setColorTemperature 300]⟩ colored
    ⟨rfl, by decide +kernel⟩
  exact absurd (effect.2 "ct" "ct" rfl (by decide +kernel)) (by decide +kernel)

end Hueplusplus.Sync
