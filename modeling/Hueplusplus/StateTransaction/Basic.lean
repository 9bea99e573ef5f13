import Hueplusplus.ColorUnits
import Hueplusplus.Utils

/-!
# State transactions

A `StateTransaction` collects a request by setter calls and sends it with one
PUT. The request is written by the setters only, so every value in it has the JSON
type of its key; the structure carries that fact. The cached state comes from the
caller and can be any object.

`commit` returns what it leaves behind: the body of the PUT if it made one, its
return value or exception, the cached state and the request.
-/

namespace Hueplusplus

/-- JSON types of the values of the light attributes. -/
inductive Kind where
  | bool
  | integer
  | string
  | pair
deriving DecidableEq

def Kind.holds : Kind → Json → Bool
  | .bool, .bool _ => true
  | .integer, .num q => q.den == 1
  | .string, .str _ => true
  | .pair, .arr [.num _, .num _] => true
  | _, _ => false

def attributeKinds : List (String × Kind) :=
  [("on", .bool), ("bri", .integer), ("hue", .integer), ("sat", .integer), ("xy", .pair),
    ("ct", .integer), ("effect", .string), ("alert", .string), ("colormode", .string),
    ("transitiontime", .integer), ("bri_inc", .integer), ("sat_inc", .integer),
    ("hue_inc", .integer), ("ct_inc", .integer), ("xy_inc", .pair)]

/-- A value under a key that names an attribute has the attribute's type. -/
def Typed (key : String) (value : Json) : Bool :=
  (attributeKinds.lookup key).all fun kind => kind.holds value

/-- All attributes of an object have their types; other keys are free. -/
def WellTyped (o : Object) : Prop :=
  (o.entries.all fun entry => Typed entry.1 entry.2) = true

instance (o : Object) : Decidable (WellTyped o) := inferInstanceAs (Decidable (_ = true))

theorem WellTyped.typed {o : Object} (h : WellTyped o) {key : String} {value : Json}
    (found : o.find? key = some value) : Typed key value = true :=
  List.all_eq_true.mp h (key, value) (OrderedMap.find?_iff.mp found)

theorem wellTyped_iff {o : Object} :
    WellTyped o ↔ ∀ key value, o.find? key = some value → Typed key value = true := by
  refine ⟨fun h _ _ => h.typed, fun h => List.all_eq_true.mpr ?_⟩
  rintro ⟨key, value⟩ member
  exact h key value (OrderedMap.find?_iff.mpr member)

@[simp] theorem wellTyped_empty : WellTyped OrderedMap.empty := rfl

theorem WellTyped.insert {o : Object} (h : WellTyped o) {key : String} {value : Json}
    (typed : Typed key value = true) : WellTyped (o.insert key value) := by
  refine wellTyped_iff.mpr fun other found => ?_
  rw [OrderedMap.find?_insert]
  split
  · rintro hit
    rename_i same
    rwa [← same, ← Option.some.inj hit]
  · exact h.typed

theorem WellTyped.filter {o : Object} (h : WellTyped o) (p : String → Json → Bool) :
    WellTyped (o.filter p) := by
  refine wellTyped_iff.mpr fun key value found => ?_
  rw [OrderedMap.find?_filter, Option.filter_eq_some_iff] at found
  exact h.typed found.1

/-- Each attribute type has one shape of value. -/
theorem Kind.holds_iff {kind : Kind} {value : Json} :
    kind.holds value = true ↔
      match kind with
      | .bool => ∃ b, value = .bool b
      | .integer => ∃ n : ℤ, value = .num n
      | .string => ∃ s, value = .str s
      | .pair => ∃ x y, value = .arr [.num x, .num y] := by
  constructor
  · intro h
    unfold Kind.holds at h
    split at h <;> first | exact ⟨_, rfl⟩ | skip
    · rename_i q
      exact ⟨q.num, by rw [Rat.coe_int_num_of_den_eq_one (beq_iff_eq.mp h)]⟩
    · exact ⟨_, _, rfl⟩
    · simp at h
  · cases kind with
    | bool | integer | string =>
        rintro ⟨_, rfl⟩
        rfl
    | pair =>
        rintro ⟨_, _, rfl⟩
        rfl

namespace WellTyped

variable {o : Object}

theorem kind (h : WellTyped o) {key : String} {kind : Kind} {value : Json}
    (known : attributeKinds.lookup key = some kind) (found : o.find? key = some value) :
    kind.holds value = true := by
  have typed := h.typed found
  simpa [Typed, known] using typed

theorem bool (h : WellTyped o) {key : String} {value : Json}
    (found : o.find? key = some value) (known : attributeKinds.lookup key = some .bool) :
    ∃ b, value = .bool b :=
  Kind.holds_iff.mp (h.kind known found)

theorem integer (h : WellTyped o) {key : String} {value : Json}
    (found : o.find? key = some value) (known : attributeKinds.lookup key = some .integer) :
    ∃ n : ℤ, value = .num n :=
  Kind.holds_iff.mp (h.kind known found)

theorem string (h : WellTyped o) {key : String} {value : Json}
    (found : o.find? key = some value) (known : attributeKinds.lookup key = some .string) :
    ∃ s, value = .str s :=
  Kind.holds_iff.mp (h.kind known found)

theorem pair (h : WellTyped o) {key : String} {value : Json}
    (found : o.find? key = some value) (known : attributeKinds.lookup key = some .pair) :
    ∃ x y, value = .arr [.num x, .num y] :=
  Kind.holds_iff.mp (h.kind known found)

end WellTyped

structure StateTransaction where
  commands : HueCommandAPI
  path : String
  /-- `*state`, or nothing for a null pointer (groups). -/
  state : Option Object
  request : Object
  typed : WellTyped request

namespace StateTransaction

/-- A transaction as the constructor leaves it. -/
def new (commands : HueCommandAPI) (path : String) (currentState : Option Object) :
    StateTransaction :=
  ⟨commands, path, currentState, .empty, wellTyped_empty⟩

/-- `request[key] = value`. -/
def set (t : StateTransaction) (key : String) (value : Json) (typed : Typed key value = true) :
    StateTransaction :=
  { t with request := t.request.insert key value, typed := t.typed.insert typed }

def setOn (t : StateTransaction) (on : Bool) : StateTransaction :=
  t.set "on" (.bool on) rfl

def setBrightness (t : StateTransaction) (brightness : UInt8) : StateTransaction :=
  t.set "bri" (.num (min brightness.toNat 254 : ℕ)) rfl

def setColorSaturation (t : StateTransaction) (saturation : UInt8) : StateTransaction :=
  t.set "sat" (.num (min saturation.toNat 254 : ℕ)) rfl

def setColorHue (t : StateTransaction) (hue : UInt16) : StateTransaction :=
  t.set "hue" (.num hue.toNat) rfl

def setColorHueSaturation (t : StateTransaction) (hueSat : HueSaturation) : StateTransaction :=
  (t.set "hue" (.num (max 0 (min hueSat.hue 65535) : ℤ)) rfl).set "sat"
    (.num (max 0 (min hueSat.saturation 254) : ℤ)) rfl

def setColorXY (t : StateTransaction) (xy : XY) : StateTransaction :=
  t.set "xy" (.arr [.num (max 0 (min xy.x 1)), .num (max 0 (min xy.y 1))]) rfl

def setColorXYBrightness (t : StateTransaction) (xy : XYBrightness) : StateTransaction :=
  (t.set "bri" (.num (max 0 (min (stdRound (xy.brightness * 254)) 254) : ℤ)) rfl).setColorXY
    xy.xy

def setColorTemperature (t : StateTransaction) (mired : UInt32) : StateTransaction :=
  t.set "ct" (.num (max 153 (min mired.toNat 500) : ℕ)) rfl

def setColorLoop (t : StateTransaction) (on : Bool) : StateTransaction :=
  t.set "effect" (.str (if on then "colorloop" else "none")) rfl

def incrementBrightness (t : StateTransaction) (increment : ℤ) : StateTransaction :=
  t.set "bri_inc" (.num (max (-254) (min increment 254) : ℤ)) rfl

def incrementSaturation (t : StateTransaction) (increment : ℤ) : StateTransaction :=
  t.set "sat_inc" (.num (max (-254) (min increment 254) : ℤ)) rfl

def incrementHue (t : StateTransaction) (increment : ℤ) : StateTransaction :=
  t.set "hue_inc" (.num (max (-65534) (min increment 65534) : ℤ)) rfl

def incrementColorTemperature (t : StateTransaction) (increment : ℤ) : StateTransaction :=
  t.set "ct_inc" (.num (max (-65534) (min increment 65534) : ℤ)) rfl

def incrementColorXY (t : StateTransaction) (xInc yInc : ℚ) : StateTransaction :=
  t.set "xy_inc"
    (.arr [.num (max (-1 / 2) (min xInc (1 / 2))), .num (max (-1 / 2) (min yInc (1 / 2)))]) rfl

def setTransition (t : StateTransaction) (transition : UInt16) : StateTransaction :=
  if transition ≠ 4 then t.set "transitiontime" (.num transition.toNat) rfl else t

def alert (t : StateTransaction) : StateTransaction :=
  t.set "alert" (.str "select") rfl

def longAlert (t : StateTransaction) : StateTransaction :=
  t.set "alert" (.str "lselect") rfl

def stopAlert (t : StateTransaction) : StateTransaction :=
  t.set "alert" (.str "none") rfl

end StateTransaction

/-- A call of a setter with its arguments. -/
inductive SetterCall where
  | setOn (on : Bool)
  | setBrightness (brightness : UInt8)
  | setColorSaturation (saturation : UInt8)
  | setColorHue (hue : UInt16)
  | setColorHueSaturation (hueSat : HueSaturation)
  | setColorXY (xy : XY)
  | setColorXYBrightness (xy : XYBrightness)
  | setColorTemperature (mired : UInt32)
  | setColorLoop (on : Bool)
  | incrementBrightness (increment : ℤ)
  | incrementSaturation (increment : ℤ)
  | incrementHue (increment : ℤ)
  | incrementColorTemperature (increment : ℤ)
  | incrementColorXY (xInc yInc : ℚ)
  | setTransition (transition : UInt16)
  | alert
  | longAlert
  | stopAlert

namespace StateTransaction

def call (t : StateTransaction) : SetterCall → StateTransaction
  | .setOn on => t.setOn on
  | .setBrightness brightness => t.setBrightness brightness
  | .setColorSaturation saturation => t.setColorSaturation saturation
  | .setColorHue hue => t.setColorHue hue
  | .setColorHueSaturation hueSat => t.setColorHueSaturation hueSat
  | .setColorXY xy => t.setColorXY xy
  | .setColorXYBrightness xy => t.setColorXYBrightness xy
  | .setColorTemperature mired => t.setColorTemperature mired
  | .setColorLoop on => t.setColorLoop on
  | .incrementBrightness increment => t.incrementBrightness increment
  | .incrementSaturation increment => t.incrementSaturation increment
  | .incrementHue increment => t.incrementHue increment
  | .incrementColorTemperature increment => t.incrementColorTemperature increment
  | .incrementColorXY xInc yInc => t.incrementColorXY xInc yInc
  | .setTransition transition => t.setTransition transition
  | .alert => t.alert
  | .longAlert => t.longAlert
  | .stopAlert => t.stopAlert

/-- The transaction after a sequence of chained setter calls. -/
def calls (t : StateTransaction) (setters : List SetterCall) : StateTransaction :=
  setters.foldl call t

def colormodes : List (String × String) :=
  [("sat", "hs"), ("hue", "hs"), ("xy", "xy"), ("ct", "ct")]

def otherRemove : List String := ["on", "bri", "effect"]

/-- Whether the loop of `trimRequest` erases this entry of the request. -/
def trimEntry (state : Object) (key : String) (value : Json) : Except Exception Bool :=
  match colormodes.lookup key with
  | some mode =>
    match state.find? key with
    | some current => do
      -- Only erase color commands if colormode and value matches
      if (← state.value "colormode" "" Json.getString) = mode then
        if !value.isArray && decide (current = value) then return true
        else if current.isArray then Utils.pairEquals current.elemOrNull value.elemOrNull
        else return false
      else return false
    | none => .ok false
  | none => .ok (otherRemove.contains key && decide (state.find? key = some value))

/-- The loop of `trimRequest`, for a transaction with a state. -/
def trimRequest (state request : Object) : Except Exception Object :=
  request.entries.foldlM
    (fun acc entry => do
      if ← trimEntry state entry.1 entry.2 then return acc.erase entry.1 else return acc)
    request

/-- The attributes that turn a light on. -/
def switchingKeys : List String := ["bri", "effect", "hue", "sat", "xy", "ct"]

/-- The value `commit` gives to `on` when no setter did, if any. -/
def impliedOn (stateJson request : Object) : Except Exception (Option Bool) := do
  let wasOn ← stateJson.value "on" false Json.getBool
  let bri ← request.value "bri" 254 Json.getInt
  if !wasOn && bri ≠ 0 && switchingKeys.any request.contains then
    -- Turn on if it was turned off
    return some true
  else if bri = 0 then
    -- Turn off if brightness is 0
    if ← stateJson.value "on" true Json.getBool then return some false else return none
  else return none

/-- The request with the implied `on`. -/
def addImpliedOn (t : StateTransaction) : Except Exception Object :=
  if t.request.contains "on" then .ok t.request
  else do
    match ← impliedOn (t.state.getD .empty) t.request with
    | some on => return t.request.insert "on" (.bool on)
    | none => return t.request

/-- The request that `commit` tests for emptiness and sends. -/
def prepare (t : StateTransaction) (trim : Bool) : Except Exception Object := do
  let request ← t.addImpliedOn
  match t.state with
  | some state => if trim then trimRequest state request else return request
  | none => return request

/-- Neither empty nor only a transition time. -/
def worthSending (request : Object) : Bool :=
  !(request.size == 0) && !(request.size == 1 && request.contains "transitiontime")

/-- The loop that applies the changes to the state. -/
def applyToState (state request : Object) : Object :=
  request.entries.foldl
    (fun acc entry => if entry.1 = "transitiontime" then acc else acc.insert entry.1 entry.2)
    state

end StateTransaction

/-- What `commit` leaves behind. -/
structure CommitResult where
  /-- Body of the PUT. -/
  sent : Option Object
  outcome : Except Exception Bool
  state : Option Object
  request : Object

namespace StateTransaction

def commit (t : StateTransaction) (trim : Bool) : CommitResult :=
  match t.prepare trim with
  | .error e => ⟨none, .error e, t.state, t.request⟩
  | .ok request =>
    if worthSending request then
      match t.commands.putRequest t.path request.toJson with
      | .error e => ⟨some request, .error e, t.state, request⟩
      | .ok reply =>
        match Utils.validatePUTReply t.path request.toJson reply with
        | .error e => ⟨some request, .error e, t.state, request⟩
        | .ok false => ⟨some request, .ok false, t.state, request⟩
        | .ok true =>
          ⟨some request, .ok true, t.state.map fun state => applyToState state request, request⟩
    else ⟨none, .ok true, t.state, request⟩

end StateTransaction

end Hueplusplus
