import Hueplusplus.APICache.Propagation
import Hueplusplus.Resources.Ids

/-!
# Sensors of one type

`getAllByType` goes through a copy of the cached list and gets the sensors with the right type
one after the other, each from the cache again. The type is read in the copy, and then asked of
the sensor. A sensor shares the cache of the list or has one by itself, whose first value is the
entry of the list.
-/

namespace Hueplusplus

open Effect APICache Caches

/-- The classes of the namespace `sensors`. -/
inductive SensorClass where
  | daylightSensor
  | zgpSwitch
  | zllSwitch
  | zllPresence
  | zllTemperature
  | zllLightLevel
  | clipSwitch
  | clipOpenClose
  | clipPresence
  | clipTemperature
  | clipHumidity
  | clipLightLevel
  | clipGenericFlag
  | clipGenericStatus

def SensorClass.typeStr : SensorClass → String
  | .daylightSensor => "Daylight"
  | .zgpSwitch => "ZGPSwitch"
  | .zllSwitch => "ZLLSwitch"
  | .zllPresence => "ZLLPresence"
  | .zllTemperature => "ZLLTemperature"
  | .zllLightLevel => "ZLLLightLevel"
  | .clipSwitch => "CLIPSwitch"
  | .clipOpenClose => "CLIPOpenClose"
  | .clipPresence => "CLIPPresence"
  | .clipTemperature => "CLIPTemperature"
  | .clipHumidity => "CLIPHumidity"
  | .clipLightLevel => "CLIPLightLevel"
  | .clipGenericFlag => "CLIPGenericFlag"
  | .clipGenericStatus => "CLIPGenericStatus"

theorem SensorClass.typeStr_ne_empty (T : SensorClass) : T.typeStr ≠ "" := by
  cases T <;> decide

/-- A sensor as an object of the class, which is constructed from it. -/
structure TypedSensor (T : SensorClass) where
  device : Resource ℤ

namespace Sensor

variable (env : CacheEnv) (list : CacheId)

/-- A query of a cache by itself, as the root of another tree. -/
def queryOwn (path : String) (cache : APICache) (s : Caches) : Except Exception Json × Caches :=
  result (getValue { env with path := fun _ => path } []) { s with cache := fun _ => cache }

/-- `getValue` of a cache by itself. -/
def getOwnValue (path : String) (cache : APICache) : CacheM APICache := do
  let s ← get
  let own := queryOwn env path cache s
  modify fun s => { s with readings := own.2.readings, requests := own.2.requests }
  let _ ← Effect.ofExcept own.1
  return own.2.cache []

/-- The time of refresh of a new cache by itself. -/
def initialRefresh (initial : Json) : CacheM ℤ :=
  if initial = .null then return 0 else now env

/-- The constructors of a sensor, with a cache on that of the list or by itself. -/
def construct (sharedState : Bool) (id : ℤ) (currentState : Json) : CacheM (Resource ℤ) := do
  if sharedState then return ⟨id, .shared list⟩
  else
    let s ← get
    let path := "/sensors/" ++ maybeToString id
    let lastRefresh ← initialRefresh env currentState
    -- Initialize value if not null
    let cache ← getOwnValue env path ⟨(s.cache list).refreshDuration, lastRefresh, currentState⟩
    return ⟨id, .own (env.commands s.requests) path cache⟩

/-- `state.getValue()` of a constant sensor. -/
def constValue (s : Caches) (sensor : Resource ℤ) : Except Exception Json :=
  match sensor.state with
  | .shared base => do (← constGetValue env s base).at' (maybeToString sensor.id)
  | .own _ _ cache => constGetValue env { s with cache := fun _ => cache } []

def getType (s : Caches) (sensor : Resource ℤ) : Except Exception String := do
  let json ← constValue env s sensor
  (← json.at' "type").getString

def asSensorType (T : SensorClass) (sensor : Resource ℤ) : CacheM (TypedSensor T) := do
  let type ← Effect.ofExcept (getType env (← get) sensor)
  if type = T.typeStr then return ⟨sensor⟩
  else throw (.hueException ("Sensor type does not match: " ++ type))

end Sensor

namespace SensorList

open Sensor

variable (env : CacheEnv) (list : CacheId) (factory : ResourceFactory ℤ (Resource ℤ))

/-- `it.key()`. -/
def iteratorKey : Option String → Except Exception String
  | some key => .ok key
  | none => .error (.jsonException 207)

/-- The loop of `getAllByType`. -/
def getByType (T : SensorClass) : List (Option String × Json) → CacheM (List (TypedSensor T))
  | [] => return []
  | (key?, state) :: rest => do
    let type ← Effect.ofExcept (state.valueString "type" "")
    -- Only parse the sensors with the correct type
    if type = T.typeStr then
      let key ← Effect.ofExcept (iteratorKey key?)
      let id ← Effect.ofExcept (maybeStoi key)
      let sensor ← asSensorType env T (← ResourceList.getResource env list factory id)
      return sensor :: (← getByType T rest)
    else getByType T rest

def getAllByType (T : SensorClass) : CacheM (List (TypedSensor T)) := do
  let state ← getValue env list
  getByType env list factory T state.items

end SensorList

section Requests

variable {env : CacheEnv} {list : CacheId}

theorem grows_getValue (id : CacheId) : Within (Grows requests) (getValue env id) := by
  intro s
  by_cases stale : s.staleAt id (env.clock s.readings) = true
  · rw [result_getValue_of_stale stale, Grows, thenCached_requests, refresh_requests]
    exact Nat.le_succ _
  · exact ((getValue_requests_iff id s).mpr (Bool.not_eq_true _ ▸ stale)).ge

/-- A query that makes no request returns what is cached. -/
theorem result_getValue_still {id : CacheId} {s : Caches}
    (still : Still requests (getValue env id) s) :
    s.staleAt id (env.clock s.readings) = false ∧
      result (getValue env id) s = result (cachedValue env id) (s.checked id) := by
  have fresh := (getValue_requests_iff id s).mp still
  refine ⟨fresh, ?_⟩
  rw [result_getValue, fresh, if_neg Bool.false_ne_true]

end Requests

namespace Sensor

variable (env : CacheEnv) (list : CacheId)

theorem result_getOwnValue (path : String) (cache : APICache) (s : Caches) :
    result (getOwnValue env path cache) s =
      ((fun _ => (queryOwn env path cache s).2.cache []) <$> (queryOwn env path cache s).1,
        { s with
          readings := (queryOwn env path cache s).2.readings
          requests := (queryOwn env path cache s).2.requests }) := by
  simp only [getOwnValue, result_bind, result_get, result_modify, result_ofExcept]
  cases (queryOwn env path cache s).1 <;> rfl

/-- A sensor of the list that holds this entry. -/
inductive Holds (list : CacheId) (entry : ℤ × Json) : Resource ℤ → Prop where
  | shared : Holds list entry ⟨entry.1, .shared list⟩
  | own {commands : HueCommandAPI} {path : String} {cache : APICache}
    (set : cache.lastRefresh ≠ 0) (value : cache.value = entry.2) :
    Holds list entry ⟨entry.1, .own commands path cache⟩

/-- A new cache that makes no request keeps its initial value. -/
theorem returns_getOwnValue {path : String} {cache : APICache} {s : Caches}
    (still : Still requests (getOwnValue env path cache) s) :
    cache.lastRefresh ≠ 0 ∧ ∃ t, Returns (getOwnValue env path cache) s cache t := by
  rw [Still, result_getOwnValue] at still
  obtain ⟨fresh, same⟩ := @result_getValue_still _ [] _ still
  have value : queryOwn env path cache s =
      (.ok cache.value, Caches.checked { s with cache := fun _ => cache } []) := by
    rw [queryOwn, same, result_cachedValue, checked_value]
  refine ⟨lastRefresh_ne_zero fresh, (result (getOwnValue env path cache) s).2, Prod.ext ?_ rfl⟩
  rw [result_getOwnValue, value, checked_cache]
  rfl

/-- What a construction does to the caches of the list. -/
def Beside (s t : Caches) : Prop :=
  t.cache = s.cache ∧ t.fetched = s.fetched ∧ s.requests ≤ t.requests

instance : IsPreorder Caches Beside where
  refl _ := ⟨rfl, rfl, le_rfl⟩
  trans _ _ _ h h' := ⟨h'.1.trans h.1, h'.2.1.trans h.2.1, h.2.2.trans h'.2.2⟩

theorem beside_getOwnValue (path : String) (cache : APICache) :
    Within Beside (getOwnValue env path cache) := by
  intro s
  rw [result_getOwnValue]
  exact ⟨rfl, rfl, grows_getValue [] { s with cache := fun _ => cache }⟩

theorem initialRefresh_returns (initial : Json) (s : Caches) :
    ∃ lastRefresh t, Returns (initialRefresh env initial) s lastRefresh t ∧
      t.cache = s.cache ∧ t.fetched = s.fetched ∧ t.requests = s.requests := by
  by_cases null : initial = .null
  · refine ⟨0, s, ?_, rfl, rfl, rfl⟩
    rw [initialRefresh, if_pos null, returns_pure]
    exact ⟨rfl, rfl⟩
  · rw [initialRefresh, if_neg null]
    exact ⟨_, _, result_now env s, rfl, rfl, rfl⟩

theorem beside_initialRefresh (initial : Json) : Within Beside (initialRefresh env initial) := by
  intro s
  obtain ⟨lastRefresh, t, returned, cache, fetched, requests⟩ :=
    initialRefresh_returns env initial s
  rw [show result (initialRefresh env initial) s = _ from returned]
  exact ⟨cache, fetched, requests.ge⟩

theorem beside_construct (sharedState : Bool) (id : ℤ) (currentState : Json) :
    Within Beside (construct env list sharedState id currentState) := by
  cases sharedState with
  | true => exact within_pure _
  | false =>
      refine within_get.bind fun s => ?_
      refine (beside_initialRefresh env currentState).bind fun lastRefresh => ?_
      exact (beside_getOwnValue env _ _).bind fun _ => within_pure _

theorem Beside.grows {s t : Caches} (beside : Beside s t) : Grows requests s t := beside.2.2

/-- A sensor that is constructed without a request holds the entry. -/
theorem returns_construct {sharedState : Bool} {id : ℤ} {currentState : Json} {s : Caches}
    (still : Still requests (construct env list sharedState id currentState) s) :
    ∃ sensor t, Returns (construct env list sharedState id currentState) s sensor t ∧
      Holds list (id, currentState) sensor := by
  cases sharedState with
  | true => exact ⟨_, s, rfl, .shared⟩
  | false =>
      obtain ⟨lastRefresh, t, started, -, -, same⟩ := initialRefresh_returns env currentState s
      have gets : Returns (get : CacheM Caches) s s s := rfl
      have queries := (still.second gets rfl).second started same
      have query := queries.first ((beside_getOwnValue env _ _).imp fun _ _ => Beside.grows)
        fun _ => within_pure _
      obtain ⟨set, u, queried⟩ := returns_getOwnValue env query
      refine ⟨⟨id, .own (env.commands s.requests) ("/sensors/" ++ maybeToString id)
        ⟨(s.cache list).refreshDuration, lastRefresh, currentState⟩⟩, u, ?_, .own set rfl⟩
      refine returns_bind.mpr ⟨s, s, gets, ?_⟩
      refine returns_bind.mpr ⟨lastRefresh, t, started, ?_⟩
      exact returns_bind.mpr ⟨_, u, queried, rfl⟩

/-- How a list constructs its sensors. -/
def factory (sharedState : Bool) : ResourceFactory ℤ (Resource ℤ) where
  construct := construct env list sharedState
  keeps id state s :=
    have beside := beside_construct env list sharedState id state s
    ⟨beside.1, beside.2.1⟩

end Sensor

namespace ResourceList

variable {env : CacheEnv} {list : CacheId} {content : IdList} {s t : Caches}

/-- The list is cached with this content, also for functions that are constant. -/
structure Listed (env : CacheEnv) (list : CacheId) (content : IdList) (s : Caches) : Prop where
  cached : cached env list s = some content.json
  filled : Filled env list s

theorem Listed.seen (h : Listed env list content s) (seen : Seen env list s [] t) :
    Listed env list content t where
  cached := by
    cases seen with
    | unchanged _ value => exact value.trans h.cached
  filled := (Tracks.refl.tail seen).filled h.filled

theorem Listed.beside (h : Listed env list content s) (beside : Sensor.Beside s t) :
    Listed env list content t :=
  h.seen (.same beside.2.1 (by rw [beside.1]) (by rw [beside.1]))

/-- A query that makes no request. -/
theorem Listed.getValue (placed : Placed env list) (h : Listed env list content s)
    (still : Still requests (getValue env list) s) :
    ∃ t, Returns (APICache.getValue env list) s content.json t ∧ Listed env list content t ∧
      t.requests = s.requests := by
  obtain ⟨fresh, same⟩ := result_getValue_still still
  have outdated : ¬ Outdated env list s := by
    rw [Outdated, fresh]
    exact Bool.false_ne_true
  have value := result_getValue_listed placed h.cached outdated
  have checked : queried env list s = s.checked list := by
    rw [queried, same, cachedValue_state]
  rw [checked] at value
  exact ⟨_, value, h.seen (seen_checked s list), rfl⟩

end ResourceList

namespace Sensor

open ResourceList

variable {env : CacheEnv} {list : CacheId} {content : IdList} {s : Caches} {entry : ℤ × Json}
  {sensor : Resource ℤ}

/-- A sensor of the cached list shows the entry. -/
theorem Holds.constValue (holds : Holds list entry sensor) (listed : Listed env list content s)
    (member : entry ∈ content.entries) : constValue env s sensor = .ok entry.2 := by
  cases holds with
  | shared =>
      have found : content.json.find? (maybeToString entry.1) = some entry.2 :=
        content.find?_json_iff.mpr member
      have counted : lists (maybeToString entry.1) (cached env list s) = true := by
        rw [listed.cached, lists, Option.any_some, Json.count, found]
        rfl
      have value : constGetValue env s list = .ok content.json :=
        constGetValue_eq_ok_iff.mpr ⟨listed.filled _ counted, listed.cached⟩
      simp only [Sensor.constValue, value, Except.ok_bind]
      exact Json.at'_of_find? found
  | own set value => exact constGetValue_eq_ok_iff.mpr ⟨set, congrArg some value⟩

theorem Holds.getType (holds : Holds list entry sensor) (listed : Listed env list content s)
    (member : entry ∈ content.entries) :
    getType env s sensor = Json.at' entry.2 "type" >>= Json.getString := by
  rw [Sensor.getType, holds.constValue listed member]
  rfl

end Sensor

/-- A JSON object whose type, if it has one, is a text. -/
def IsSensor (json : Json) : Prop :=
  ∃ members, json = .obj members ∧
    ∀ value, json.find? "type" = some value → value.isString = true

theorem getString_returns_iff {value : Json} :
    (∃ text, value.getString = .ok text) ↔ value.isString = true := by
  cases value with
  | str text => exact iff_of_true ⟨text, rfl⟩ rfl
  | _ =>
      refine iff_of_false ?_ Bool.false_ne_true
      rintro ⟨_, ⟨⟩⟩

theorem valueString_returns_iff {json : Json} :
    (∃ type, json.valueString "type" "" = .ok type) ↔ IsSensor json := by
  cases json with
  | obj members =>
      rw [Json.valueString, IsSensor, Json.find?]
      cases AssocList.find? members "type" with
      | none =>
          refine iff_of_true ⟨"", rfl⟩ ⟨members, rfl, ?_⟩
          rintro _ ⟨⟩
      | some value =>
          refine getString_returns_iff.trans ⟨fun text => ⟨members, rfl, ?_⟩, ?_⟩
          · rintro _ ⟨⟩
            exact text
          · rintro ⟨_, _, texts⟩
            exact texts value rfl
  | _ =>
      refine iff_of_false ?_ ?_
      · rintro ⟨_, ⟨⟩⟩
      · rintro ⟨_, ⟨⟩, _⟩

/-- The type in the JSON is that of the class, as it is read in the list and in the sensor. -/
theorem valueString_eq_typeStr_iff {json : Json} (T : SensorClass) :
    json.valueString "type" "" = .ok T.typeStr ↔
      json.at' "type" >>= Json.getString = .ok T.typeStr := by
  cases json with
  | obj members =>
      rw [Json.valueString, Json.at']
      cases AssocList.find? members "type" with
      | none =>
          refine iff_of_false (fun same => T.typeStr_ne_empty ?_) ?_
          · exact (Except.ok.inj same).symm
          · rintro ⟨⟩
      | some value => exact Iff.rfl
  | _ =>
      refine iff_of_false ?_ ?_
      · rintro ⟨⟩
      · rintro ⟨⟩

namespace SensorList

open ResourceList

section Loops

variable {env : CacheEnv} {list : CacheId} {content : IdList} {sharedState : Bool}

theorem grows_construct (id : ℤ) (state : Json) :
    Within (Grows requests) ((Sensor.factory env list sharedState).construct id state) :=
  (Sensor.beside_construct env list sharedState id state).imp fun _ _ => Sensor.Beside.grows

theorem grows_constructAll (items : List (Option String × Json)) :
    Within (Grows requests) (constructAll (Sensor.factory env list sharedState) items) := by
  induction items with
  | nil => exact within_pure _
  | cons item rest ih =>
      obtain ⟨_ | key, state⟩ := item
      · exact within_throw _
      · refine (within_ofExcept _).bind fun id => (grows_construct id state).bind fun sensor => ?_
        exact ih.bind fun _ => within_pure _

theorem grows_constructEach (entries : List (ℤ × Json)) :
    Within (Grows requests) (constructEach (Sensor.factory env list sharedState) entries) := by
  induction entries with
  | nil => exact within_pure _
  | cons entry rest ih =>
      refine (grows_construct entry.1 entry.2).bind fun sensor => ?_
      exact ih.bind fun _ => within_pure _

theorem grows_getResource (id : ℤ) :
    Within (Grows requests) (getResource env list (Sensor.factory env list sharedState) id) := by
  refine (grows_getValue list).bind fun state => ?_
  split
  · exact grows_construct id _
  · exact within_throw _

theorem grows_asSensorType (T : SensorClass) (sensor : Resource ℤ) :
    Within (Grows requests) (Sensor.asSensorType env T sensor) := by
  refine within_get.bind fun s => (within_ofExcept _).bind fun type => ?_
  split
  · exact within_pure _
  · exact within_throw _

theorem grows_getByType (T : SensorClass) (items : List (Option String × Json)) :
    Within (Grows requests)
      (getByType env list (Sensor.factory env list sharedState) T items) := by
  induction items with
  | nil => exact within_pure _
  | cons item rest ih =>
      refine (within_ofExcept _).bind fun type => ?_
      split
      · refine (within_ofExcept _).bind fun key => (within_ofExcept _).bind fun id => ?_
        refine (grows_getResource id).bind fun sensor => ?_
        refine (grows_asSensorType T sensor).bind fun typed => ?_
        exact ih.bind fun _ => within_pure _
      · exact ih

variable {s : Caches}

/-- Every entry is constructed, if nothing is requested. -/
theorem returns_constructEach {entries : List (ℤ × Json)} (listed : Listed env list content s)
    (still : Still requests (constructEach (Sensor.factory env list sharedState) entries) s) :
    ∃ sensors t, Returns (constructEach (Sensor.factory env list sharedState) entries) s sensors t ∧
      Listed env list content t ∧ List.Forall₂ (Sensor.Holds list) entries sensors := by
  induction entries generalizing s with
  | nil => exact ⟨[], s, rfl, listed, .nil⟩
  | cons entry rest ih =>
      have first := still.first (grows_construct entry.1 entry.2) fun _ =>
        (grows_constructEach rest).bind fun _ => within_pure _
      obtain ⟨sensor, middle, made, holds⟩ := Sensor.returns_construct env list first
      have beside := Sensor.beside_construct env list sharedState entry.1 entry.2 s
      rw [show result _ s = _ from made] at beside
      have later := still.second made (first.same made)
      obtain ⟨sensors, t, others, listed, all⟩ :=
        ih (listed.beside beside) (later.first (grows_constructEach rest) fun _ => within_pure _)
      refine ⟨sensor :: sensors, t, returns_bind.mpr ⟨sensor, middle, made, ?_⟩, listed,
        .cons holds all⟩
      exact returns_bind.mpr ⟨sensors, t, others, rfl⟩

/-- The entry is got from the cached list, if nothing is requested. -/
theorem returns_getResource (placed : Placed env list) (listed : Listed env list content s)
    {entry : ℤ × Json} (member : entry ∈ content.entries)
    (still : Still requests
      (getResource env list (Sensor.factory env list sharedState) entry.1) s) :
    ∃ sensor t,
      Returns (getResource env list (Sensor.factory env list sharedState) entry.1) s sensor t ∧
      Listed env list content t ∧ Sensor.Holds list entry sensor := by
  have query := still.first (grows_getValue list) fun state => by
    split
    · exact grows_construct entry.1 _
    · exact within_throw _
  obtain ⟨middle, value, listed, same⟩ := listed.getValue placed query
  have found : content.json.find? (maybeToString entry.1) = some entry.2 :=
    content.find?_json_iff.mpr member
  have construction := still.second value same
  simp only [found] at construction
  obtain ⟨sensor, t, made, holds⟩ := Sensor.returns_construct env list construction
  have beside := Sensor.beside_construct env list sharedState entry.1 entry.2 middle
  rw [show result _ middle = _ from made] at beside
  refine ⟨sensor, t, returns_bind.mpr ⟨_, middle, value, ?_⟩, listed.beside beside, holds⟩
  simp only [found]
  exact made

theorem returns_asSensorType (T : SensorClass) (listed : Listed env list content s)
    {entry : ℤ × Json} (member : entry ∈ content.entries) {sensor : Resource ℤ}
    (holds : Sensor.Holds list entry sensor)
    (type : entry.2.valueString "type" "" = .ok T.typeStr) :
    Returns (Sensor.asSensorType env T sensor) s ⟨sensor⟩ s := by
  have asked := (holds.getType listed member).trans ((valueString_eq_typeStr_iff T).mp type)
  rw [Returns, Sensor.asSensorType, result_bind, result_get]
  simp only [result_bind, result_ofExcept, asked, if_true, result_pure]

/-- The entry of the list has the type of the class. -/
def HasType (T : SensorClass) (entry : ℤ × Json) : Prop :=
  entry.2.valueString "type" "" = .ok T.typeStr

instance (T : SensorClass) (entry : ℤ × Json) : Decidable (HasType T entry) :=
  inferInstanceAs (Decidable (_ = _))

/-- The items of a list with these entries. -/
def items (entries : List (ℤ × Json)) : List (Option String × Json) :=
  entries.map fun entry => (some (maybeToString entry.1), entry.2)

section Steps

variable (T : SensorClass) (factory : ResourceFactory ℤ (Resource ℤ)) {entry : ℤ × Json}
  (rest : List (ℤ × Json))

theorem getByType_malformed {e : Exception} (type : entry.2.valueString "type" "" = .error e) :
    result (getByType env list factory T (items (entry :: rest))) s = (.error e, s) := by
  rw [items, List.map_cons, getByType, result_bind, result_ofExcept, type]

theorem getByType_other {type : String} (read : entry.2.valueString "type" "" = .ok type)
    (other : type ≠ T.typeStr) :
    result (getByType env list factory T (items (entry :: rest))) s =
      result (getByType env list factory T (items rest)) s := by
  rw [items, List.map_cons, getByType, result_bind, result_ofExcept, read]
  simp only [if_neg other]
  rfl

/-- An entry with the right type is got, and its type is asked for again. -/
theorem getByType_same (type : HasType T entry) (isInt : Text.IsInt entry.1) :
    result (getByType env list factory T (items (entry :: rest))) s =
      result (do
        let sensor ← getResource env list factory entry.1
        let typed ← Sensor.asSensorType env T sensor
        return typed :: (← getByType env list factory T (items rest))) s := by
  have id := maybeStoi_maybeToString isInt
  rw [items, List.map_cons, getByType, result_bind, result_ofExcept, show _ = _ from type]
  simp only [if_true, result_bind, result_ofExcept, iteratorKey, id]
  rfl

end Steps

/-- What an entry with the right type adds, if nothing is requested. -/
theorem getByType_got (placed : Placed env list) (T : SensorClass) {entry : ℤ × Json}
    (rest : List (ℤ × Json)) (listed : Listed env list content s)
    (member : entry ∈ content.entries) (type : HasType T entry)
    (still : Still requests
      (getByType env list (Sensor.factory env list sharedState) T (items (entry :: rest))) s) :
    ∃ sensor t, Sensor.Holds list entry sensor ∧ Listed env list content t ∧
      Still requests (getByType env list (Sensor.factory env list sharedState) T (items rest)) t ∧
      result (getByType env list (Sensor.factory env list sharedState) T (items (entry :: rest)))
        s = result (do return (⟨sensor⟩ : TypedSensor T) ::
          (← getByType env list (Sensor.factory env list sharedState) T (items rest))) t := by
  have ran := @getByType_same env list s T (Sensor.factory env list sharedState) entry rest type
    (content.ints _ member)
  have ends (typed : TypedSensor T) : Within (Grows requests) (do return typed ::
      (← getByType env list (Sensor.factory env list sharedState) T (items rest))) :=
    (grows_getByType T (items rest)).bind fun _ => within_pure _
  rw [Still, ran] at still
  have gets := Still.first still (grows_getResource entry.1) fun sensor =>
    (grows_asSensorType T sensor).bind ends
  obtain ⟨sensor, t, got, listed, holds⟩ := returns_getResource placed listed member gets
  have typed := returns_asSensorType T listed member holds type
  have later := (Still.second still got (gets.same got)).second typed rfl
  refine ⟨sensor, t, holds, listed, later.first (grows_getByType T _) fun _ => within_pure _, ?_⟩
  rw [ran, got.result_bind, typed.result_bind]

/-- The loop ends with a sensor for each entry of the type, or throws for an entry that is no
sensor. -/
inductive Outcome (env : CacheEnv) (list : CacheId) (content : IdList) (T : SensorClass)
    (entries : List (ℤ × Json)) : Except Exception (List (TypedSensor T)) × Caches → Prop where
  | returned {sensors : List (TypedSensor T)} {t : Caches}
    (isSensor : ∀ entry ∈ entries, IsSensor entry.2) (listed : Listed env list content t)
    (holds : List.Forall₂ (fun entry typed => Sensor.Holds list entry typed.device)
      (entries.filter (HasType T)) sensors) :
    Outcome env list content T entries (.ok sensors, t)
  | threw {e : Exception} {t : Caches} (malformed : ∃ entry ∈ entries, ¬ IsSensor entry.2) :
    Outcome env list content T entries (.error e, t)

section Outcome

variable {T : SensorClass} {entry : ℤ × Json} {rest : List (ℤ × Json)}

/-- An entry of another type adds nothing. -/
theorem Outcome.skip {outcome : Except Exception (List (TypedSensor T)) × Caches}
    (isSensor : IsSensor entry.2) (other : ¬ HasType T entry)
    (later : Outcome env list content T rest outcome) :
    Outcome env list content T (entry :: rest) outcome := by
  cases later with
  | returned all listed holds =>
      refine .returned (List.forall_mem_cons.mpr ⟨isSensor, all⟩) listed ?_
      rwa [List.filter_cons, if_neg (by simpa using other)]
  | threw malformed => exact .threw (List.exists_mem_cons_of_exists malformed)

/-- An entry of the type adds its sensor. -/
theorem Outcome.add {sensor : Resource ℤ} {loop : CacheM (List (TypedSensor T))} {t : Caches}
    (isSensor : IsSensor entry.2) (type : HasType T entry)
    (holds : Sensor.Holds list entry sensor)
    (later : Outcome env list content T rest (result loop t)) :
    Outcome env list content T (entry :: rest)
      (result (do return (⟨sensor⟩ : TypedSensor T) :: (← loop)) t) := by
  rw [result_bind]
  generalize result loop t = outcome at later
  cases later with
  | returned all listed others =>
      refine .returned (List.forall_mem_cons.mpr ⟨isSensor, all⟩) listed ?_
      rw [List.filter_cons, if_pos (decide_eq_true type)]
      exact .cons holds others
  | threw malformed => exact .threw (List.exists_mem_cons_of_exists malformed)

end Outcome

/-- If nothing is requested, the entries of the type are got one after the other. -/
theorem outcome_getByType (placed : Placed env list) (T : SensorClass)
    {entries : List (ℤ × Json)} (subset : entries ⊆ content.entries)
    (listed : Listed env list content s)
    (still : Still requests
      (getByType env list (Sensor.factory env list sharedState) T (items entries)) s) :
    Outcome env list content T entries
      (result (getByType env list (Sensor.factory env list sharedState) T (items entries)) s) := by
  induction entries generalizing s with
  | nil => exact .returned nofun listed .nil
  | cons entry rest ih =>
      obtain ⟨member, subset⟩ := List.cons_subset.mp subset
      cases read : entry.2.valueString "type" "" with
      | error e =>
          rw [getByType_malformed T _ rest read]
          refine .threw ⟨entry, List.mem_cons_self, fun isSensor => ?_⟩
          obtain ⟨type, returned⟩ := valueString_returns_iff.mpr isSensor
          cases read.symm.trans returned
      | ok type =>
          have isSensor : IsSensor entry.2 := valueString_returns_iff.mp ⟨type, read⟩
          by_cases same : type = T.typeStr
          · have hasType : HasType T entry := by rw [HasType, read, same]
            obtain ⟨sensor, middle, holds, listed, later, ran⟩ :=
              getByType_got placed T rest listed member hasType still
            rw [ran]
            exact .add isSensor hasType holds (ih subset listed later)
          · have different : ¬ HasType T entry := fun hasType =>
              same (Except.ok.inj (read.symm.trans hasType))
            have ran := @getByType_other env list s T (Sensor.factory env list sharedState) entry
              rest type read same
            rw [Still, ran] at still
            rw [ran]
            exact .skip isSensor different (ih subset listed still)

end Loops

/-- What a sensor shows. -/
def view (env : CacheEnv) (s : Caches) (sensor : Resource ℤ) : ℤ × Except Exception Json :=
  (sensor.id, Sensor.constValue env s sensor)

section Queries

variable {env : CacheEnv} {list : CacheId} {content : IdList} {sharedState : Bool} {s t t' : Caches}

theorem Holds.view {entry : ℤ × Json} {sensor : Resource ℤ} (holds : Sensor.Holds list entry sensor)
    (listed : Listed env list content s) (member : entry ∈ content.entries) :
    view env s sensor = (entry.1, .ok entry.2) := by
  have id : sensor.id = entry.1 := by cases holds <;> rfl
  rw [SensorList.view, id, holds.constValue listed member]

/-- A sensor has the type that its entry has. -/
theorem getType_iff {entry : ℤ × Json} {sensor : Resource ℤ} (T : SensorClass)
    (holds : Sensor.Holds list entry sensor) (listed : Listed env list content s)
    (member : entry ∈ content.entries) :
    Sensor.getType env s sensor = .ok T.typeStr ↔ HasType T entry := by
  rw [holds.getType listed member, HasType, valueString_eq_typeStr_iff]

theorem views_of_typed {T : SensorClass} {entries : List (ℤ × Json)}
    {typed : List (TypedSensor T)} (listed : Listed env list content s)
    (subset : entries ⊆ content.entries)
    (holds : List.Forall₂ (fun entry sensor => Sensor.Holds list entry sensor.device) entries
      typed) :
    (typed.map fun sensor => view env s sensor.device) =
      entries.map fun entry => (entry.1, .ok entry.2) := by
  induction holds with
  | nil => rfl
  | cons first _ ih =>
      obtain ⟨member, subset⟩ := List.cons_subset.mp subset
      rw [List.map_cons, List.map_cons, ih subset, Holds.view first listed member]

theorem views_of_filter (T : SensorClass) {entries : List (ℤ × Json)}
    {sensors : List (Resource ℤ)} (listed : Listed env list content s)
    (subset : entries ⊆ content.entries)
    (holds : List.Forall₂ (Sensor.Holds list) entries sensors) :
    (sensors.filter fun sensor => Sensor.getType env s sensor = .ok T.typeStr).map (view env s) =
      (entries.filter (HasType T)).map fun entry => (entry.1, .ok entry.2) := by
  induction holds with
  | nil => rfl
  | @cons entry _ _ _ first _ ih =>
      obtain ⟨member, subset⟩ := List.cons_subset.mp subset
      have same := getType_iff T first listed member
      by_cases type : HasType T entry
      · rw [List.filter_cons, if_pos (decide_eq_true (same.mpr type)), List.filter_cons,
          if_pos (decide_eq_true type), List.map_cons, List.map_cons, ih subset,
          Holds.view first listed member]
      · rw [List.filter_cons, if_neg (by simpa using mt same.mp type), List.filter_cons,
          if_neg (by simpa using type), ih subset]

theorem returns_getAll (placed : Placed env list) (listed : Listed env list content s)
    (still : Still requests (getAll env list (Sensor.factory env list sharedState)) s) :
    ∃ sensors t, Returns (getAll env list (Sensor.factory env list sharedState)) s sensors t ∧
      Listed env list content t ∧
      List.Forall₂ (Sensor.Holds list) content.entries sensors := by
  rw [getAll_eq] at still ⊢
  have query := still.first (grows_getValue list) fun state => grows_constructAll state.items
  obtain ⟨middle, value, listed, same⟩ := listed.getValue placed query
  have later := still.second value same
  rw [constructAll_items] at later
  obtain ⟨sensors, t, returned, listed, holds⟩ := returns_constructEach listed later
  refine ⟨sensors, t, returns_bind.mpr ⟨_, middle, value, ?_⟩, listed, holds⟩
  rwa [constructAll_items]

theorem Listed.of_kept (ticks : ∀ n, env.clock n ≠ 0) (placed : Placed env list)
    {factory : ResourceFactory ℤ (Resource ℤ)}
    (reachable : (listSystem env list factory).Reachable s)
    (cached : cached env list s = some content.json) (kept : Kept env list factory s t) :
    Listed env list content t where
  cached := kept.listed ticks placed cached
  filled := by
    obtain ⟨calls, fits, rfl, -⟩ := kept
    obtain ⟨new, tracks⟩ := reaches_run factory ticks placed calls fits s
    exact tracks.filled (filled_reachable factory ticks placed reachable)

/-- The typed query returns the sensors of `getAll` with the type, in the same order and over the
same ids and JSON, if all entries are sensors; else it throws. -/
theorem getAllByType_filters (ticks : ∀ n, env.clock n ≠ 0) (placed : Placed env list)
    (reachable : (listSystem env list (Sensor.factory env list sharedState)).Reachable s)
    (cached : cached env list s = some content.json)
    (kept : Kept env list (Sensor.factory env list sharedState) s t)
    (kept' : Kept env list (Sensor.factory env list sharedState) s t') (T : SensorClass)
    (still : Still requests (getAll env list (Sensor.factory env list sharedState)) t)
    (still' : Still requests
      (getAllByType env list (Sensor.factory env list sharedState) T) t') :
    ((∃ typed u', Returns (getAllByType env list (Sensor.factory env list sharedState) T) t'
        typed u') ↔ ∀ entry ∈ content.entries, IsSensor entry.2) ∧
    ∃ sensors u, Returns (getAll env list (Sensor.factory env list sharedState)) t sensors u ∧
      ∀ typed u', Returns (getAllByType env list (Sensor.factory env list sharedState) T) t'
          typed u' →
        (typed.map fun sensor => view env u' sensor.device) =
          (sensors.filter fun sensor => Sensor.getType env u sensor = .ok T.typeStr).map
            (view env u) := by
  have listed := Listed.of_kept ticks placed reachable cached kept
  have cached' := Listed.of_kept ticks placed reachable cached kept'
  obtain ⟨sensors, u, all, shown, holds⟩ := returns_getAll placed listed still
  have query := still'.first (grows_getValue list) fun state => grows_getByType T state.items
  obtain ⟨middle, value, listed', same⟩ := cached'.getValue placed query
  have later := still'.second value same
  rw [content.items_json] at later
  have ran : result (getAllByType env list (Sensor.factory env list sharedState) T) t' =
      result (getByType env list (Sensor.factory env list sharedState) T (items content.entries))
        middle := by
    rw [getAllByType, value.result_bind, content.items_json, items]
  have outcome := outcome_getByType placed T (List.Subset.refl _) listed' later
  rw [← ran] at outcome
  generalize ended : result _ t' = ending at outcome
  cases outcome with
  | @returned typed u' isSensor shown' holds' =>
      refine ⟨iff_of_true ⟨typed, u', ended⟩ isSensor, sensors, u, all, ?_⟩
      intro typed' v returned'
      obtain ⟨same, rfl⟩ := Prod.mk.inj (ended.symm.trans returned')
      obtain rfl := Except.ok.inj same
      rw [views_of_typed shown' List.filter_sublist.subset holds',
        views_of_filter T shown (List.Subset.refl _) holds]
  | @threw e u' malformed =>
      obtain ⟨entry, member, malformed⟩ := malformed
      have throws : ∀ typed v, ¬ Returns
          (getAllByType env list (Sensor.factory env list sharedState) T) t' typed v := by
        intro typed v returned
        cases ended.symm.trans returned
      refine ⟨iff_of_false ?_ ?_, sensors, u, all, ?_⟩
      · rintro ⟨typed, v, returned⟩
        exact throws typed v returned
      · exact fun isSensor => malformed (isSensor entry member)
      · exact fun typed v returned => absurd returned (throws typed v)

end Queries

/-- The sensors of a bridge. -/
def twoSensors : IdList where
  entries := [(1, .obj [("type", .str "ZGPSwitch")]), (2, .obj [("type", .str "ZLLPresence")])]
  ordered := List.pairwise_pair.mpr (by decide)
  ints := by simp [Text.IsInt]

def sensorCaches : CacheEnv where
  path id := if id = [1] then "sensors" else ""
  clock n := n + 1
  commands _ :=
    { ip := "192.168.2.1", port := 80, username := "username"
      httpHandler :=
        { getJson := fun _ _ _ _ _ => .ok (.obj [("sensors", twoSensors.json)])
          putJson := fun _ _ _ _ _ => .ok .null
          postJson := fun _ _ _ _ _ => .ok .null
          deleteJson := fun _ _ _ _ _ => .ok .null } }

theorem sensorCaches_placed : Placed sensorCaches [1] := placed_of_path rfl (by decide)

/-- After the sensors have been fetched. -/
def sensorsCached : Caches :=
  (ListCall.existsResource .list 1).run sensorCaches [1]
    (Sensor.factory sensorCaches [1] false) newCaches

theorem sensorsCached_reachable :
    (listSystem sensorCaches [1] (Sensor.factory sensorCaches [1] false)).Reachable
      sensorsCached :=
  .step (M := listSystem sensorCaches [1] (Sensor.factory sensorCaches [1] false))
    (.existsResource .list 1) (.init (newCaches_constructed _)) trivial

theorem sensorsCached_kept :
    Kept sensorCaches [1] (Sensor.factory sensorCaches [1] false) sensorsCached sensorsCached :=
  ⟨[], nofun, rfl, by simp [fetchedSince]⟩

theorem getAllByType_filters_switch :
    ((∃ typed u', Returns (getAllByType sensorCaches [1] (Sensor.factory sensorCaches [1] false)
        .zgpSwitch) sensorsCached typed u') ↔ ∀ entry ∈ twoSensors.entries, IsSensor entry.2) ∧
    ∃ sensors u, Returns (getAll sensorCaches [1] (Sensor.factory sensorCaches [1] false))
        sensorsCached sensors u ∧
      ∀ typed u', Returns (getAllByType sensorCaches [1] (Sensor.factory sensorCaches [1] false)
          .zgpSwitch) sensorsCached typed u' →
        (typed.map fun sensor => view sensorCaches u' sensor.device) =
          (sensors.filter fun sensor =>
            Sensor.getType sensorCaches u sensor = .ok SensorClass.zgpSwitch.typeStr).map
            (view sensorCaches u) :=
  getAllByType_filters (fun n => by simp only [sensorCaches]; omega) sensorCaches_placed
    sensorsCached_reachable rfl sensorsCached_kept sensorsCached_kept .zgpSwitch rfl rfl

end SensorList

end Hueplusplus
