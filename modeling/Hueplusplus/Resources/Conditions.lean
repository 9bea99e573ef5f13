import Hueplusplus.Resources.Setters
import Hueplusplus.TimePattern.Basic

/-!
# Conditions of rules

A condition is written and read by two tables of operators, and its value is left out of the
JSON when it is empty. The list of an empty rule is null instead of an array, which is read
as no conditions either.

The helpers build conditions on one attribute of the bridge by methods that are named after
the operators.
-/

namespace Hueplusplus

namespace Condition

def parseOperator (opStr : String) : Except Exception Operator :=
  if opStr = "gt" then .ok .gt
  else if opStr = "lt" then .ok .lt
  else if opStr = "dx" then .ok .dx
  else if opStr = "ddx" then .ok .ddx
  else if opStr = "stable" then .ok .stable
  else if opStr = "not stable" then .ok .notStable
  else if opStr = "in" then .ok Operator.in
  else if opStr = "not in" then .ok .notIn
  else if opStr ≠ "eq" then .error (.hueException ("Unknown condition operator: " ++ opStr))
  else .ok .eq

def parse (json : Json) : Except Exception Condition := do
  let address ← (← json.at' "address").getString
  let value ← json.valueString "value" ""
  let opStr ← (← json.at' "operator").getString
  let op ← parseOperator opStr
  return ⟨address, op, value⟩

@[simp] theorem parseOperator_opStr (op : Operator) : parseOperator op.opStr = .ok op := by
  cases op <;> rfl

@[simp] theorem valueString_toJson (c : Condition) :
    c.toJson.valueString "value" "" = .ok c.value := by
  unfold toJson
  split
  · rename_i empty
    rw [String.isEmpty_iff.mp empty]
    rfl
  · rfl

@[simp] theorem parse_toJson (c : Condition) : parse c.toJson = .ok c := by
  have address : c.toJson.at' "address" = .ok (.str c.address) := by
    unfold toJson
    split <;> rfl
  have operator : c.toJson.at' "operator" = .ok (.str c.op.opStr) := by
    unfold toJson
    split <;> rfl
  simp [parse, address, operator, Json.getString]

/-- The list of conditions in a rule's JSON. -/
def parseAll (json : Json) : Except Exception (List Condition) := json.elements.mapM parse

@[simp] theorem parseAll_pushBackAll (conditions : List Condition) :
    parseAll (Json.pushBackAll (conditions.map toJson)) = .ok conditions := by
  rw [parseAll, Json.elements_pushBackAll]
  exact Except.mapM_map_eq_ok fun c _ => parse_toJson c

end Condition

def Rule.getConditions (env : CacheEnv) (rule : Rule) (s : Caches) :
    Except Exception (List Condition) := do
  let json ← APICache.constGetValue env s rule.state
  let conditions ← json.at' "conditions"
  Condition.parseAll conditions

/-- The request of a `CreateRule`, which is an object from its constructor on. -/
structure CreateRule where
  request : Object

namespace CreateRule

def new (conditions : List Condition) (actions : List Action) : CreateRule :=
  let conditionsJson := Json.pushBackAll (conditions.map Condition.toJson)
  let actionsJson := Json.pushBackAll (actions.map Action.toJson)
  ⟨(OrderedMap.empty.insert "conditions" conditionsJson).insert "actions" actionsJson⟩

def setName (params : CreateRule) (name : String) : CreateRule :=
  ⟨params.request.insert "name" (.str name)⟩

def setStatus (params : CreateRule) (enabled : Bool) : CreateRule :=
  ⟨params.request.insert "status" (.str (if enabled then "enabled" else "disabled"))⟩

def getRequest (params : CreateRule) : Json := params.request.toJson

/-- A call of a setter. -/
inductive Call where
  | setName (name : String)
  | setStatus (enabled : Bool)

def Call.run (params : CreateRule) : Call → CreateRule
  | .setName name => params.setName name
  | .setStatus enabled => params.setStatus enabled

/-- The setters leave the conditions alone. -/
@[simp] theorem find?_run_conditions (params : CreateRule) (call : Call) :
    (call.run params).request.find? "conditions" = params.request.find? "conditions" := by
  cases call with
  | setName name => exact OrderedMap.find?_insert_ne _ _ (by decide)
  | setStatus enabled => exact OrderedMap.find?_insert_ne _ _ (by decide)

@[simp] theorem find?_foldl_conditions (params : CreateRule) (calls : List Call) :
    (calls.foldl Call.run params).getRequest.find? "conditions" =
      params.request.find? "conditions" := by
  induction calls generalizing params with
  | nil => rfl
  | cons call rest ih => exact (ih (call.run params)).trans (find?_run_conditions params call)

theorem find?_new_conditions (conditions : List Condition) (actions : List Action) :
    (new conditions actions).request.find? "conditions" =
      some (Json.pushBackAll (conditions.map Condition.toJson)) :=
  (OrderedMap.find?_insert_ne _ _ (by decide)).trans (OrderedMap.find?_insert_self _ _ _)

end CreateRule

namespace Rule

theorem getConditions_of_find? {env : CacheEnv} {rule : Rule} {s : Caches} {state sent : Json}
    (cached : APICache.constGetValue env s rule.state = .ok state)
    (found : state.find? "conditions" = some sent) :
    rule.getConditions env s = Condition.parseAll sent := by
  have member : state.at' "conditions" = .ok sent := Json.at'_of_find? found
  simp [getConditions, cached, member]

/-- The list of conditions that is sent for a rule, new or not, is read as the same vector. -/
theorem conditions_round_trip (conditions : List Condition) :
    ∃ sent, Condition.parseAll sent = .ok conditions ∧
      (∀ rule : Rule, APICache.Puts (rule.setConditions · conditions)
        ("/rules/" ++ toString rule.id) (.obj [("conditions", sent)])) ∧
      (∀ (actions : List Action) (calls : List CreateRule.Call),
        ((calls.foldl CreateRule.Call.run (CreateRule.new conditions actions)).getRequest.find?
          "conditions") = some sent) ∧
      ∀ (env : CacheEnv) (rule : Rule) (s : Caches) (state : Json),
        APICache.constGetValue env s rule.state = .ok state →
        state.find? "conditions" = some sent → rule.getConditions env s = .ok conditions := by
  have read := Condition.parseAll_pushBackAll conditions
  refine ⟨Json.pushBackAll (conditions.map Condition.toJson), read, ?_, ?_, ?_⟩
  · intro rule env
    exact ⟨_, rfl⟩
  · intro actions calls
    rw [CreateRule.find?_foldl_conditions, CreateRule.find?_new_conditions]
  · intro env rule s state cached found
    rw [getConditions_of_find? cached found, read]

end Rule

/-- The types of attributes that have a helper. -/
inductive AttributeType where
  | int
  | bool
  | timestamp

structure ConditionHelper (type : AttributeType) where
  address : String

namespace ConditionHelper

section General

variable {type : AttributeType} (helper : ConditionHelper type)

def dx : Condition := ⟨helper.address, .dx, ""⟩

def ddx : Condition := ⟨helper.address, .ddx, ""⟩

def stable (value : String) : Condition := ⟨helper.address, .dx, value⟩

end General

section Int

variable (helper : ConditionHelper .int)

def createInt (op : Condition.Operator) (value : ℤ) : Condition :=
  ⟨helper.address, op, toString value⟩

def eqInt (value : ℤ) : Condition := helper.createInt .eq value

def gt (value : ℤ) : Condition := helper.createInt .gt value

def lt (value : ℤ) : Condition := helper.createInt .eq value

end Int

section Bool

variable (helper : ConditionHelper .bool)

def createBool (op : Condition.Operator) (value : Bool) : Condition :=
  ⟨helper.address, op, if value then "true" else "false"⟩

def eqBool (value : Bool) : Condition := helper.createBool .eq value

end Bool

section Timestamp

variable (helper : ConditionHelper .timestamp)

def createInterval (op : Condition.Operator) (interval : Time.TimeInterval) :
    Except Exception Condition := do
  return ⟨helper.address, op, String.ofList (← interval.toString)⟩

def inInterval (interval : Time.TimeInterval) : Except Exception Condition :=
  helper.createInterval Condition.Operator.in interval

def notIn (interval : Time.TimeInterval) : Except Exception Condition :=
  helper.createInterval .notIn interval

end Timestamp

/-- A call of an operator method of a helper. -/
inductive Call where
  | dx (type : AttributeType)
  | ddx (type : AttributeType)
  | stable (type : AttributeType) (value : String)
  | eqInt (value : ℤ)
  | gt (value : ℤ)
  | lt (value : ℤ)
  | eqBool (value : Bool)
  | inInterval (interval : Time.TimeInterval)
  | notIn (interval : Time.TimeInterval)

namespace Call

/-- What the method builds for an attribute. An interval that cannot be printed throws. -/
def build (address : String) : Call → Except Exception Condition
  | dx type => .ok (ConditionHelper.mk address : ConditionHelper type).dx
  | ddx type => .ok (ConditionHelper.mk address : ConditionHelper type).ddx
  | stable type value => .ok ((ConditionHelper.mk address : ConditionHelper type).stable value)
  | eqInt value => .ok ((ConditionHelper.mk address).eqInt value)
  | gt value => .ok ((ConditionHelper.mk address).gt value)
  | lt value => .ok ((ConditionHelper.mk address).lt value)
  | eqBool value => .ok ((ConditionHelper.mk address).eqBool value)
  | inInterval interval => (ConditionHelper.mk address).inInterval interval
  | notIn interval => (ConditionHelper.mk address).notIn interval

/-- The operator that the method is named after. -/
def operator : Call → Condition.Operator
  | dx _ => .dx
  | ddx _ => .ddx
  | stable _ _ => .stable
  | eqInt _ | eqBool _ => .eq
  | gt _ => .gt
  | lt _ => .lt
  | inInterval _ => Condition.Operator.in
  | notIn _ => .notIn

/-- The text of the argument. -/
def argument : Call → Except Exception String
  | dx _ | ddx _ => .ok ""
  | stable _ value => .ok value
  | eqInt value | gt value | lt value => .ok (toString value)
  | eqBool value => .ok (if value then "true" else "false")
  | inInterval interval | notIn interval => String.ofList <$> interval.toString

/-- The condition that the method's name and its argument stand for. -/
def meant (address : String) (call : Call) : Except Exception Condition := do
  return ⟨address, call.operator, ← call.argument⟩

/-- What the bridge receives and a reader of the rule gets back. -/
def readBack (address : String) (call : Call) : Except Exception Condition := do
  Condition.parse (← call.build address).toJson

/-- The encoding loses nothing, so only the builder decides. -/
theorem readBack_eq_build (address : String) (call : Call) :
    call.readBack address = call.build address := by
  unfold readBack
  cases call.build address with
  | error e => rfl
  | ok c => exact Condition.parse_toJson c

theorem createInterval_eq (address : String) (op : Condition.Operator)
    (interval : Time.TimeInterval) :
    (ConditionHelper.mk address).createInterval op interval =
      (do return ⟨address, op, ← String.ofList <$> interval.toString⟩) := by
  unfold createInterval
  cases interval.toString <;> rfl

/-- A method builds what it is named after unless it is `stable`, of any helper, or the `lt` of
the helper for numbers. -/
theorem readBack_eq_meant_iff (address : String) (call : Call) :
    call.readBack address = call.meant address ↔
      (∀ type value, call ≠ .stable type value) ∧ ∀ value, call ≠ .lt value := by
  rw [readBack_eq_build]
  cases call with
  | stable type value =>
      -- `stable` builds the operator `dx`
      constructor
      · intro same
        exact nomatch congrArg (Except.map Condition.op) same
      · intro ⟨other, _⟩
        exact absurd rfl (other type value)
  | lt value =>
      -- `lt` builds the operator `eq`
      constructor
      · intro same
        exact nomatch congrArg (Except.map Condition.op) same
      · intro ⟨_, other⟩
        exact absurd rfl (other value)
  | inInterval interval | notIn interval =>
      exact iff_of_true (createInterval_eq address _ interval) ⟨nofun, nofun⟩
  | dx | ddx | eqInt | gt | eqBool => exact iff_of_true rfl ⟨nofun, nofun⟩

/-- The condition for less than 26 degrees is read as that for exactly 26 degrees. -/
theorem lt_read_as_eq :
    ¬ ∀ (address : String) (call : Call), call.readBack address = call.meant address := by
  intro claim
  have same := claim "/sensors/2/state/temperature" (.lt 2600)
  rw [readBack_eq_build] at same
  exact nomatch congrArg (Except.map Condition.op) same

end Call

end ConditionHelper

end Hueplusplus
