import Hueplusplus.Action
import Hueplusplus.StateTransaction.Commit
import Hueplusplus.StateTransaction.LastCall

/-!
# Actions of transactions

`toAction` takes the request as the
setters left it, while `commit` first adds an `on` that they imply.
-/

namespace Hueplusplus

namespace StateTransaction

def toAction (t : StateTransaction) : Action :=
  ⟨.obj [("address", .str (t.commands.combinedPath t.path)), ("body", t.request.toJson),
    ("method", .str "PUT")]⟩

/-- The URI and the body of the PUT that `commit` makes. -/
def put? (t : StateTransaction) (trim : Bool) : Option (String × Json) :=
  (t.commit trim).sent.map fun body => (t.commands.combinedPath t.path, body.toJson)

theorem put?_of_worthSending {t : StateTransaction} {trim : Bool} {request : Object}
    (prepared : t.prepare trim = .ok request) (worth : worthSending request = true) :
    t.put? trim = some (t.commands.combinedPath t.path, request.toJson) := by
  rw [put?, commit_of_worthSending prepared worth]
  rfl

/-- The action is the given PUT. -/
def IsPut (action : Action) (put : String × Json) : Prop :=
  action.getMethod = .ok .put ∧ action.getAddress = .ok put.1 ∧ action.getBody = .ok put.2

/-- The calls set `on`, or nothing that turns a light on or off. -/
def SetsOnItself (setters : List SetterCall) : Prop :=
  (∃ setter ∈ setters, (setter.value? "on").isSome) ∨
    ∀ setter ∈ setters, ∀ key ∈ switchingKeys, setter.value? key = none

theorem contains_calls (commands : HueCommandAPI) (path : String) (state : Option Object)
    (setters : List SetterCall) {key : String} (other : key ≠ "transitiontime") :
    ((new commands path state).calls setters).request.contains key = true ↔
      ∃ setter ∈ setters, (setter.value? key).isSome := by
  rw [OrderedMap.contains, find?_calls, given_writers other]
  constructor
  · intro h
    obtain ⟨value, last⟩ := Option.isSome_iff_exists.mp h
    obtain ⟨setter, member, found⟩ := List.mem_filterMap.mp (List.mem_of_getLast? last)
    exact ⟨setter, member, by rw [found]; rfl⟩
  · rintro ⟨setter, member, h⟩
    obtain ⟨value, found⟩ := Option.isSome_iff_exists.mp h
    have given : value ∈ given setters key := List.mem_filterMap.mpr ⟨setter, member, found⟩
    rw [List.getLast?_eq_some_getLast (List.ne_nil_of_mem given)]
    rfl

/-- Without a cached state every request about the light itself implies `on`. -/
theorem impliedFlag_empty_eq_none_iff (request : Object) :
    impliedFlag .empty request = none ↔ switches request = false := by
  have zero_switches : zeroBrightness request = true → switches request = true := by
    intro zero
    have found : request.find? "bri" = some (.num 0) := of_decide_eq_true zero
    have contained : request.contains "bri" = true := by rw [OrderedMap.contains, found]; rfl
    exact List.any_eq_true.mpr ⟨"bri", by decide, contained⟩
  have off : onFlag .empty false = false := rfl
  have on : onFlag .empty true = true := rfl
  rw [impliedFlag, off, on]
  cases zero : zeroBrightness request with
  | false => cases switches request <;> simp
  | true => simp [zero_switches zero]

theorem isPut_toAction_iff (t : StateTransaction) (body : Object) :
    IsPut t.toAction (t.commands.combinedPath t.path, body.toJson) ↔ t.request = body := by
  have address : t.toAction.getAddress = .ok (t.commands.combinedPath t.path) := rfl
  have method : t.toAction.getMethod = .ok .put := rfl
  have bodyJson : t.toAction.getBody = .ok t.request.toJson := rfl
  rw [IsPut, address, method, bodyJson]
  simp [Object.toJson, OrderedMap.ext_iff]

theorem prepare_stateless {t : StateTransaction} (stateless : t.state = none) (trim : Bool) :
    t.prepare trim = .ok (withImpliedOn none t.request) := by
  rw [prepare_eq t trim (by rw [stateless]; exact nofun), body, stateless]

/-- What a commit without a cached state sends, with or without trimming. -/
theorem put?_stateless {t : StateTransaction} (stateless : t.state = none) (trim : Bool) :
    t.put? trim =
      if worthSending (withImpliedOn none t.request) then
        some (t.commands.combinedPath t.path, (withImpliedOn none t.request).toJson)
      else none := by
  have prepared := prepare_stateless stateless trim
  cases worth : worthSending (withImpliedOn none t.request) with
  | true => rw [if_pos rfl, put?_of_worthSending prepared worth]
  | false =>
      rw [if_neg Bool.false_ne_true, put?, commit_of_not_worthSending prepared worth]
      rfl

/-- The body has an `on` that the request has not if the request implies one. -/
theorem withImpliedOn_eq_self_iff (request : Object) :
    withImpliedOn none request = request ↔
      request.contains "on" = true ∨ switches request = false := by
  rw [withImpliedOn, Option.getD_none, ← impliedFlag_empty_eq_none_iff]
  cases on : request.contains "on" with
  | true => simp
  | false =>
      cases implied : impliedFlag .empty request with
      | none => simp
      | some flag =>
          simp only [Bool.false_eq_true, if_false, false_or, reduceCtorEq, iff_false]
          intro same
          have contained := congrArg (OrderedMap.contains · "on") same
          simp [OrderedMap.contains_insert, on] at contained

/-- An `on` that was added makes the body worth sending. -/
theorem worthSending_withImpliedOn {request : Object}
    (added : withImpliedOn none request ≠ request) :
    worthSending (withImpliedOn none request) = true := by
  rw [withImpliedOn] at added ⊢
  split at added
  · exact absurd rfl added
  · split at added
    · rename_i absent _ flag _
      rw [if_neg absent]
      exact (worthSending_iff _).mpr
        ⟨"on", .bool flag, OrderedMap.find?_insert_self _ _ _, by decide⟩
    · exact absurd rfl added

theorem worthSending_withImpliedOn_of_contains {request : Object} {key : String}
    (other : key ≠ "transitiontime") (contained : request.contains key = true) :
    worthSending (withImpliedOn none request) = true := by
  by_cases added : withImpliedOn none request = request
  · obtain ⟨value, found⟩ := OrderedMap.contains_iff.mp contained
    rw [added]
    exact (worthSending_iff _).mpr ⟨key, value, found, other⟩
  · exact worthSending_withImpliedOn added

/-- The action of a stateless transaction is what committing would send exactly if the calls
set `on` or imply no `on`. -/
theorem toAction_iff (commands : HueCommandAPI) (path : String) (setters : List SetterCall)
    (trim : Bool) :
    (∀ put, ((new commands path none).calls setters).put? trim = some put →
      IsPut ((new commands path none).calls setters).toAction put) ↔ SetsOnItself setters := by
  have contained : ∀ {key}, key ≠ "transitiontime" → _ :=
    contains_calls commands path none setters
  have switching : switches ((new commands path none).calls setters).request = false ↔
      ∀ setter ∈ setters, ∀ key ∈ switchingKeys, setter.value? key = none := by
    rw [switches, List.any_eq_false]
    have plain : ∀ key ∈ switchingKeys, key ≠ "transitiontime" := by decide
    constructor
    · intro absent setter member key switching
      have without := absent key switching
      rw [contained (plain key switching)] at without
      exact Option.not_isSome_iff_eq_none.mp fun some => without ⟨setter, member, some⟩
    · intro absent key switching
      rw [contained (plain key switching)]
      rintro ⟨setter, member, some⟩
      rw [absent setter member key switching] at some
      cases some
  rw [SetsOnItself, ← contained (by decide : "on" ≠ "transitiontime"), ← switching,
    ← withImpliedOn_eq_self_iff]
  have stateless : ((new commands path none).calls setters).state = none :=
    (calls_frame _ _).2.2
  generalize (new commands path none).calls setters = t at stateless
  rw [put?_stateless stateless]
  constructor
  · intro same
    by_contra added
    have put := same _ (if_pos (worthSending_withImpliedOn added))
    exact added ((isPut_toAction_iff t _).mp put).symm
  · intro same put sent
    rw [same] at sent
    split at sent
    · exact Option.some.inj sent ▸ (isPut_toAction_iff t _).mpr rfl
    · cases sent

/-- A group's action with a brightness does not turn the lights on, as committing does. -/
theorem brightness_action_without_on :
    let mute : HttpMethod := fun _ _ _ _ _ => .ok .null
    let commands : HueCommandAPI := ⟨"192.168.2.1", 80, "user", ⟨mute, mute, mute, mute⟩⟩
    let t := (new commands "/groups/1/action" none).calls [.setBrightness 100]
    ¬ ∀ put, t.put? true = some put → IsPut t.toAction put := by
  intro mute commands t same
  have added : withImpliedOn none t.request ≠ t.request := by decide
  have put := same _ ((put?_stateless rfl true).trans (if_pos (worthSending_withImpliedOn added)))
  exact added ((isPut_toAction_iff t _).mp put).symm

end StateTransaction

end Hueplusplus
