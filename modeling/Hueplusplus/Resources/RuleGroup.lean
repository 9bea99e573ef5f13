import Hueplusplus.Resources.Attributes
import Hueplusplus.Resources.Conditions
import Hueplusplus.Resources.LightIds

/-!
# Attributes of rules and groups

The setters of rules and groups force a refresh like those of schedules. The conditions and
actions of a rule and the lights of a group are lists, and are shown as they were set.
-/

namespace Hueplusplus

open Effect APICache AttributeSetters

namespace Rule

section Getters

variable (env : CacheEnv) (rule : Rule) (s : Caches)

def getName : Except Exception String := do
  let value ← constGetValue env s rule.state
  (← value.at' "name").getString

def isEnabled : Except Exception Bool := do
  let value ← constGetValue env s rule.state
  let status ← (← value.at' "status").getString
  return decide (status = "enabled")

def getActions : Except Exception (List Action) := do
  let value ← constGetValue env s rule.state
  let actions ← value.at' "actions"
  return actions.elements.map Action.mk

end Getters

inductive Call where
  | setName (name : String)
  | setEnabled (enabled : Bool)
  | setConditions (conditions : List Condition)
  | setActions (actions : List Action)

namespace Call

def run (env : CacheEnv) (rule : Rule) : Call → CacheM Unit
  | setName name => rule.setName env name
  | setEnabled enabled => rule.setEnabled env enabled
  | setConditions conditions => rule.setConditions env conditions
  | setActions actions => rule.setActions env actions

/-- The attribute a call is about. -/
def key : Call → String
  | setName _ => "name"
  | setEnabled _ => "status"
  | setConditions _ => "conditions"
  | setActions _ => "actions"

/-- The JSON of the attribute. -/
def value : Call → Json
  | setName name => .str name
  | setEnabled enabled => .str (if enabled then "enabled" else "disabled")
  | setConditions conditions => Json.pushBackAll (conditions.map Condition.toJson)
  | setActions actions => Json.pushBackAll (actions.map Action.toJson)

/-- The getter of the attribute returns what the call was given. -/
def Shown (env : CacheEnv) (rule : Rule) (s : Caches) : Call → Prop
  | setName name => rule.getName env s = .ok name
  | setEnabled enabled => rule.isEnabled env s = .ok enabled
  | setConditions conditions => Rule.getConditions env rule s = .ok conditions
  | setActions actions => rule.getActions env s = .ok actions

theorem shown_of_find? {env : CacheEnv} {rule : Rule} {s : Caches} {json : Json} {call : Call}
    (cached : constGetValue env s rule.state = .ok json)
    (found : json.find? call.key = some call.value) : call.Shown env rule s := by
  have read := Json.at'_of_find? found
  cases call with
  | setName name =>
      simp only [key, value] at read
      simp [Shown, getName, cached, read, Json.getString]
  | setEnabled enabled =>
      simp only [key, value] at read
      simp only [Shown, isEnabled, cached, read, Except.ok_bind, Json.getString]
      cases enabled <;> rfl
  | setConditions conditions =>
      simp only [key, value] at read
      simp [Shown, getConditions, cached, read]
  | setActions actions =>
      simp only [key, value] at read
      simp only [Shown, getActions, cached, read, Except.ok_bind, Json.elements_pushBackAll,
        List.map_map]
      exact congrArg Except.ok (List.map_id actions)

end Call

/-- The setters of a rule. -/
def setters (rule : Rule) : AttributeSetters Call where
  state := rule.state
  path := "/rules/" ++ toString rule.id
  key := Call.key
  value call := .ok call.value
  run env call := call.run env rule
  spec env call := by cases call <;> rfl

/-- What a setter of a rule was given is shown from the next refresh on that returns until the
attribute is changed at the bridge. -/
theorem rule_shows_set {rule : Rule} {env : CacheEnv} {has : ℕ → Json}
    (served : (setters rule).Served env has) {call : Call} {s t : Caches}
    (fetched : (setters rule).Fetched env s call t) {events : List (AttributeEvent Call)}
    (unchanged : ∀ n, s.requests < n → n < (((setters rule).system env).run t events).requests →
      (has n).follow ((setters rule).place env call) =
        (has s.requests).follow ((setters rule).place env call)) :
    call.Shown env rule (((setters rule).system env).run t events) := by
  obtain ⟨value, json, made, cached, found⟩ := shown_until_changed served fetched unchanged
  obtain rfl := Except.ok.inj made
  exact Call.shown_of_find? cached found

/-- A bridge with one rule, which can be given the name that it has. -/
def ruleCaches : CacheEnv :=
  servedCaches "rules" "1" (.obj [("1", .obj [("name", .str "dusk")])]) fun _ body =>
    if body.find? "name" = some (.str "dusk") then .ok (.arr []) else .error (.hueException "")

/-- A rule of a list is renamed. It cannot be disabled then, and the list is fetched again. -/
theorem rule_shows_set_renamed :
    let rule : Rule := ⟨1, [0]⟩
    let s : Caches := ⟨fun _ => ⟨0, 0, .null⟩, 0, 0, [], []⟩
    let t := (result ((setters rule).run ruleCaches (.setName "dusk")) s).2
    rule.getName ruleCaches (((setters rule).system ruleCaches).run t
      [.call (.setEnabled false), .cache (.getValue [])]) = .ok "dusk" := by
  intro rule s t
  have served : (setters rule).Served ruleCaches fun _ =>
      .obj [("1", .obj [("name", .str "dusk")])] := by
    refine ⟨le_rfl, servedCaches_ticks _ _ _ _, servedCaches_answers _ _ _ _, ?_⟩
    intro n call value reply made put
    obtain rfl := Except.ok.inj made
    obtain ⟨first, accepted⟩ := servedCaches_put put
    cases call with
    | setName name =>
        change (if some (Json.str name) = some (.str "dusk") then _ else _) = _ at accepted
        split at accepted
        · rename_i same
          obtain rfl := Json.str.inj (Option.some.inj same)
          rfl
        · cases accepted
    | _ => cases accepted
  have returned : Returns ((setters rule).run ruleCaches (.setName "dusk")) s ⟨⟩ t :=
    Prod.ext (by decide +kernel) rfl
  clear_value t
  exact @rule_shows_set rule ruleCaches _ served (.setName "dusk") s t (.returned returned)
    [.call (.setEnabled false), .cache (.getValue [])] fun _ _ _ => rfl

end Rule

namespace Group

section Getters

variable (env : CacheEnv) (group : Group) (s : Caches)

def getName : Except Exception String := do
  let value ← constGetValue env s group.state
  (← value.at' "name").getString

def getRoomType : Except Exception String := do
  let value ← constGetValue env s group.state
  (← value.at' "class").getString

end Getters

inductive Call where
  | setName (name : String)
  | setLights (ids : List ℤ)
  | setRoomType (type : String)

namespace Call

def run (env : CacheEnv) (group : Group) : Call → CacheM Unit
  | setName name => group.setName env name
  | setLights ids => group.setLights env ids
  | setRoomType type => group.setRoomType env type

/-- The attribute a call is about. -/
def key : Call → String
  | setName _ => "name"
  | setLights _ => "lights"
  | setRoomType _ => "class"

/-- The JSON of the attribute. -/
def value : Call → Json
  | setName name => .str name
  | setLights ids => .arr (ids.map fun id => .str (toString id))
  | setRoomType type => .str type

/-- The getter of the attribute returns what the call was given, if ids are of type `int`. -/
def Shown (env : CacheEnv) (group : Group) (s : Caches) : Call → Prop
  | setName name => group.getName env s = .ok name
  | setLights ids => (∀ id ∈ ids, Text.IsInt id) →
    (constGetValue env s group.state >>= Group.getLightIds) = .ok ids
  | setRoomType type => group.getRoomType env s = .ok type

theorem shown_of_find? {env : CacheEnv} {group : Group} {s : Caches} {json : Json} {call : Call}
    (cached : constGetValue env s group.state = .ok json)
    (found : json.find? call.key = some call.value) : call.Shown env group s := by
  have read := Json.at'_of_find? found
  cases call with
  | setName name =>
      simp only [key, value] at read
      simp [Shown, getName, cached, read, Json.getString]
  | setRoomType type =>
      simp only [key, value] at read
      simp [Shown, getRoomType, cached, read, Json.getString]
  | setLights ids =>
      intro ints
      rw [cached]
      exact (LightIds.getLightIds_of_elements ints found (Json.elements_arr _)).2

end Call

/-- The setters of a group. -/
def setters (group : Group) : AttributeSetters Call where
  state := group.state
  path := "/groups/" ++ toString group.id ++ ""
  key := Call.key
  value call := .ok call.value
  run env call := call.run env group
  spec env call := by cases call <;> rfl

/-- What a setter of a group was given is shown from the next refresh on that returns until the
attribute is changed at the bridge. -/
theorem group_shows_set {group : Group} {env : CacheEnv} {has : ℕ → Json}
    (served : (setters group).Served env has) {call : Call} {s t : Caches}
    (fetched : (setters group).Fetched env s call t) {events : List (AttributeEvent Call)}
    (unchanged : ∀ n, s.requests < n → n < (((setters group).system env).run t events).requests →
      (has n).follow ((setters group).place env call) =
        (has s.requests).follow ((setters group).place env call)) :
    call.Shown env group (((setters group).system env).run t events) := by
  obtain ⟨value, json, made, cached, found⟩ := shown_until_changed served fetched unchanged
  obtain rfl := Except.ok.inj made
  exact Call.shown_of_find? cached found

/-- A bridge with one group, which can be given the lights that it has. -/
def groupJson : Json := .obj [("2", .obj [("lights", .arr [.str "3", .str "12"])])]

def groupCaches : CacheEnv :=
  servedCaches "groups" "2" groupJson fun _ body =>
    if body.find? "lights" = some (.arr [.str "3", .str "12"]) then .ok (.arr [])
    else .error (.hueException "")

/-- A group of a list is given lights. Its class cannot be set then. -/
theorem group_shows_set_lights :
    let group : Group := ⟨2, [0]⟩
    let s : Caches := ⟨fun _ => ⟨0, 0, .null⟩, 0, 0, [], []⟩
    let t := (result ((setters group).run groupCaches (.setLights [3, 12])) s).2
    (constGetValue groupCaches (((setters group).system groupCaches).run t
      [.call (.setRoomType "Office")]) [0] >>= Group.getLightIds) = .ok [3, 12] := by
  intro group s t
  have served : (setters group).Served groupCaches fun _ => groupJson := by
    refine ⟨le_rfl, servedCaches_ticks _ _ _ _, servedCaches_answers _ _ _ _, ?_⟩
    intro n call value reply made put
    obtain rfl := Except.ok.inj made
    obtain ⟨first, accepted⟩ := servedCaches_put put
    cases call with
    | setLights ids =>
        change (if some (Call.setLights ids).value = some (.arr [.str "3", .str "12"])
          then _ else _) = _ at accepted
        split at accepted
        · rename_i same
          rw [Option.some.inj same]
          rfl
        · cases accepted
    | _ => cases accepted
  have returned : Returns ((setters group).run groupCaches (.setLights [3, 12])) s ⟨⟩ t :=
    Prod.ext (by decide +kernel) rfl
  clear_value t
  have shown := @group_shows_set group groupCaches _ served (.setLights [3, 12]) s t
    (.returned returned) [.call (.setRoomType "Office")] fun _ _ _ => rfl
  exact shown (by simp [Text.IsInt])

end Group

end Hueplusplus
