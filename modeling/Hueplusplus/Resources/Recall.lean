import Hueplusplus.Resources.LightStates

/-!
# Recalling a scene

A scene with a group is recalled in that group, any other scene in group 0, which has all
lights. Which group that is was decided by the calls of the builder: the first call of
`setGroupId` or `setLightIds` says whether there is one, since calls of the other kind throw from
then on, and the last call of `setGroupId` says which.
-/

namespace Hueplusplus

open Effect

namespace Scene

/-- `Scene::Type`. -/
inductive Kind where
  | lightScene
  | groupScene
deriving DecidableEq

def getType (value : Json) : Except Exception Kind := do
  let type ← value.valueString "type" "LightScene"
  if type = "LightScene" then return .lightScene
  else if type = "GroupScene" then return .groupScene
  else throw (.hueException ("Unknown scene type: " ++ type))

def getGroupId (value : Json) : Except Exception ℤ := do
  Text.stoi (← value.valueString "group" "0").toList

/-- The group in which a scene is recalled. -/
def recallGroup (value : Json) : Except Exception ℤ := do
  if (← getType value) = .groupScene then getGroupId value
  else return 0

/-- `recall`. -/
def recallScene (env : CacheEnv) (scene : Scene) : CacheM Unit := do
  let value ← Effect.ofExcept (APICache.constGetValue env (← get) scene.state)
  let groupId ← Effect.ofExcept (recallGroup value)
  let _ ← APICache.PUTRequest env ("/groups/" ++ toString groupId ++ "/action")
    (.obj [("scene", .str scene.id)])

end Scene

namespace Group

def setScene (env : CacheEnv) (group : Group) (scene : String) : CacheM Unit := do
  let _ ← group.sendPutRequest env "/action" (.obj [("scene", .str scene)])

def createSceneAction (commands : HueCommandAPI) (group : Group) (scene : String) : Action :=
  ⟨.obj [("address", .str (commands.combinedPath ("/groups/" ++ toString group.id ++ "/action"))),
    ("body", .obj [("scene", .str scene)]), ("method", .str "PUT")]⟩

end Group

namespace CreateScene

/-- What a call says about the group of the scene: its id, or that there is none. -/
def BuilderCall.scope? : BuilderCall → Option (Option ℤ)
  | .setGroupId id => some (some id)
  | .setLightIds _ => some none
  | _ => none

/-- The group after these calls. -/
def group? (calls : List BuilderCall) : Option ℤ :=
  match calls.filterMap BuilderCall.scope? with
  | some first :: scopes => (scopes.filterMap id).getLast?.getD first
  | _ => none

/-- Whether the calls have given the scene its lights. -/
def hasLights (calls : List BuilderCall) : Bool :=
  (calls.filterMap BuilderCall.scope?).head? = some none

/-- A request to which members can be assigned. -/
def Assignable (request : Json) : Prop := request = .null ∨ ∃ members, request = .obj members

/-- The group and the type in a request, and whether it has lights. -/
structure Scoped (calls : List BuilderCall) (request : Json) : Prop where
  assignable : Assignable request
  lights : request.count "lights" = hasLights calls
  group : request.find? "group" = (group? calls).map fun id => .str (toString id)
  type : request.find? "type" =
    if (group? calls).isSome then some (.str "GroupScene")
    else if hasLights calls then some (.str "LightScene")
    else none

section Scopes

variable (calls : List BuilderCall)

@[simp] theorem scopes_concat (call : BuilderCall) :
    (calls ++ [call]).filterMap BuilderCall.scope? =
      calls.filterMap BuilderCall.scope? ++ call.scope?.toList := by
  rw [List.filterMap_append, List.filterMap_cons, List.filterMap_nil]
  cases call.scope? <;> rfl

/-- A call about something else changes neither. -/
theorem scopes_of_none {call : BuilderCall} (other : call.scope? = none) :
    group? (calls ++ [call]) = group? calls ∧ hasLights (calls ++ [call]) = hasLights calls := by
  rw [group?, hasLights, scopes_concat, other, Option.toList_none, List.append_nil]
  exact ⟨rfl, rfl⟩

theorem scopes_of_group (id : ℤ) :
    group? (calls ++ [.setGroupId id]) = (if hasLights calls then none else some id) ∧
      hasLights (calls ++ [.setGroupId id]) = hasLights calls := by
  rw [group?, hasLights, hasLights, scopes_concat]
  cases calls.filterMap BuilderCall.scope? with
  | nil => exact ⟨rfl, rfl⟩
  | cons first scopes =>
      cases first with
      | none => exact ⟨rfl, rfl⟩
      | some first =>
          refine ⟨?_, rfl⟩
          simp [BuilderCall.scope?, List.filterMap_append]

theorem scopes_of_lights (ids : List ℤ) :
    group? (calls ++ [.setLightIds ids]) = group? calls ∧
      hasLights (calls ++ [.setLightIds ids]) = (group? calls).isNone := by
  rw [group?, hasLights, group?, scopes_concat]
  cases calls.filterMap BuilderCall.scope? with
  | nil => exact ⟨rfl, rfl⟩
  | cons first scopes =>
      cases first with
      | none => exact ⟨rfl, rfl⟩
      | some first => simp [BuilderCall.scope?, List.filterMap_append]

variable {calls} in
theorem group?_of_hasLights (lights : hasLights calls = true) : group? calls = none := by
  rw [hasLights, decide_eq_true_iff] at lights
  rw [group?]
  cases scopes : calls.filterMap BuilderCall.scope? with
  | nil => rfl
  | cons first rest =>
      rw [scopes, List.head?_cons, Option.some.injEq] at lights
      rw [lights]

end Scopes

section Requests

variable {params : CreateScene} {calls : List BuilderCall}

theorem exists_assign (h : Assignable params.request) (key : String) (value : Json) :
    ∃ changed, params.assign key value = .ok changed ∧ Assignable changed.request := by
  rw [assign]
  rcases h with null | ⟨members, object⟩
  · rw [null]
    exact ⟨_, rfl, .inr ⟨_, rfl⟩⟩
  · rw [object]
    exact ⟨_, rfl, .inr ⟨_, rfl⟩⟩

theorem step_of_ok {call : BuilderCall} {changed : CreateScene}
    (ran : call.run params = .ok changed) : builderSystem.step params call = changed := by
  change (result (Stepwise.call call) params).2 = _
  rw [result_call, ran]
  rfl

theorem step_of_error {call : BuilderCall} {e : Exception} (ran : call.run params = .error e) :
    builderSystem.step params call = params := by
  change (result (Stepwise.call call) params).2 = _
  rw [result_call, ran]
  rfl

/-- An assignment to any other member. -/
theorem Scoped.assign (h : Scoped calls params.request) {call : BuilderCall}
    (silent : call.scope? = none) {key : String} {value : Json}
    (ran : call.run params = params.assign key value) (other : key ∉ ["group", "lights", "type"]) :
    Scoped (calls ++ [call]) (builderSystem.step params call).request := by
  simp only [List.mem_cons, List.not_mem_nil, or_false, not_or] at other
  obtain ⟨changed, assigned, assignable⟩ := exists_assign h.assignable key value
  obtain ⟨group, lights⟩ := scopes_of_none calls silent
  have found := find?_assign assigned
  rw [step_of_ok (ran.trans assigned)]
  constructor
  · exact assignable
  · rw [lights, Json.count, found, if_neg other.2.1]
    exact h.lights
  · rw [group, found, if_neg other.1]
    exact h.group
  · rw [group, lights, found, if_neg other.2.2]
    exact h.type

theorem Scoped.setGroupId (h : Scoped calls params.request) (id : ℤ) :
    Scoped (calls ++ [.setGroupId id]) (builderSystem.step params (.setGroupId id)).request := by
  obtain ⟨group, lights⟩ := scopes_of_group calls id
  cases has : hasLights calls with
  | true =>
      have threw : BuilderCall.run params (.setGroupId id) =
          .error (.hueException "Can only set either group or lights") := by
        rw [BuilderCall.run, CreateScene.setGroupId, h.lights, has]
        rfl
      have none := group?_of_hasLights has
      rw [has, if_pos rfl, ← none] at group
      rw [step_of_error threw]
      exact ⟨h.assignable, lights ▸ h.lights, group ▸ h.group, by rw [group, lights]; exact h.type⟩
  | false =>
      obtain ⟨middle, first, assignable⟩ :=
        exists_assign h.assignable "group" (.str (toString id))
      obtain ⟨changed, second, assignable'⟩ := exists_assign assignable "type" (.str "GroupScene")
      have returned : BuilderCall.run params (.setGroupId id) = .ok changed := by
        rw [BuilderCall.run, CreateScene.setGroupId, h.lights, has, first]
        exact second
      rw [has, if_neg Bool.false_ne_true] at group
      rw [step_of_ok returned]
      constructor
      · exact assignable'
      · rw [lights, Json.count, find?_assign second, find?_assign first]
        exact h.lights
      · rw [group, find?_assign second, find?_assign first]
        rfl
      · rw [group, find?_assign second]
        rfl

theorem Scoped.setLightIds (h : Scoped calls params.request) (ids : List ℤ) :
    Scoped (calls ++ [.setLightIds ids])
      (builderSystem.step params (.setLightIds ids)).request := by
  obtain ⟨group, lights⟩ := scopes_of_lights calls ids
  have counted : params.request.count "group" = (group? calls).isSome := by
    rw [Json.count, h.group, Option.isSome_map]
  cases has : group? calls with
  | some id =>
      have threw : BuilderCall.run params (.setLightIds ids) =
          .error (.hueException "Can only set either group or lights") := by
        rw [BuilderCall.run, CreateScene.setLightIds, counted, has]
        rfl
      have none : hasLights calls = false := by
        by_contra some
        rw [group?_of_hasLights (Bool.not_eq_false _ ▸ some)] at has
        cases has
      rw [has, Option.isNone_some, ← none] at lights
      rw [step_of_error threw]
      exact ⟨h.assignable, lights ▸ h.lights, group ▸ h.group, by rw [group, lights]; exact h.type⟩
  | none =>
      obtain ⟨middle, first, assignable⟩ := exists_assign h.assignable "lights"
        (Json.pushBackAll (ids.map fun id => .str (toString id)))
      obtain ⟨changed, second, assignable'⟩ := exists_assign assignable "type" (.str "LightScene")
      have returned : BuilderCall.run params (.setLightIds ids) = .ok changed := by
        rw [BuilderCall.run, CreateScene.setLightIds, counted, has, Option.isSome_none,
          if_neg Bool.false_ne_true]
        simp only [Except.ok_bind, first]
        exact second
      rw [has, Option.isNone_none] at lights
      rw [has] at group
      rw [step_of_ok returned]
      constructor
      · exact assignable'
      · rw [lights, Json.count, find?_assign second, find?_assign first]
        rfl
      · have absent := h.group
        rw [has] at absent
        rw [group, find?_assign second, find?_assign first]
        exact absent
      · rw [group, lights, find?_assign second]
        rfl

theorem Scoped.step (h : Scoped calls params.request) (call : BuilderCall) :
    Scoped (calls ++ [call]) (builderSystem.step params call).request := by
  cases call with
  | setName | setRecycle | setAppdata => exact h.assign rfl rfl (by decide)
  | setLightStates states =>
      have made : BuilderCall.run params (.setLightStates states) =
          (Scene.lightStatesJson states >>= params.assign "lightstates") := rfl
      rw [Scene.lightStatesJson_eq] at made
      exact h.assign rfl made (by decide)
  | setGroupId id => exact h.setGroupId id
  | setLightIds ids => exact h.setLightIds ids

theorem scoped_run (calls : List BuilderCall) :
    Scoped calls (builderSystem.run new calls).request := by
  induction calls using List.reverseRecOn with
  | nil => exact ⟨.inl rfl, rfl, rfl, rfl⟩
  | append_singleton calls call ih =>
      rw [System.run_append]
      exact ih.step call

end Requests

/-- The scene was created by a request and has its group and its type. -/
structure Created (request value : Json) : Prop where
  object : ∃ members, value = .obj members
  group : value.find? "group" = request.find? "group"
  type : value.find? "type" = request.find? "type"

theorem valueString_eq {value : Json} (object : ∃ members, value = .obj members)
    (key default : String) :
    value.valueString key default = (value.find? key).elim (.ok default) Json.getString := by
  obtain ⟨members, rfl⟩ := object
  rfl

theorem recallGroup_of_created {calls : List BuilderCall} {value : Json}
    (created : Created (builderSystem.run new calls).getRequest value)
    (ints : ∀ id, group? calls = some id → Text.IsInt id) :
    Scene.recallGroup value = .ok ((group? calls).getD 0) := by
  have ran := scoped_run calls
  have type := created.type.trans ran.type
  have group := created.group.trans ran.group
  rw [Scene.recallGroup, Scene.getType, Scene.getGroupId, valueString_eq created.object,
    valueString_eq created.object, type, group]
  cases scope : group? calls with
  | none => cases hasLights calls <;> rfl
  | some id =>
      have read : Text.stoi (toString id).toList = (.ok id : Except Exception ℤ) := by
        rw [Text.toList_toString, Text.stoi_ofInt (ints id scope)]
      exact read

end CreateScene

/-- A scene that was created by any calls is recalled in the group of its request, or in group 0.
This is the PUT that the group itself makes for the scene, and that its action describes. -/
theorem Scene.recall_created {calls : List CreateScene.BuilderCall} {value : Json}
    (created : CreateScene.Created (CreateScene.builderSystem.run .new calls).getRequest value)
    (ints : ∀ id, CreateScene.group? calls = some id → Text.IsInt id) (env : CacheEnv)
    (scene : Scene) (s : Caches) (cached : APICache.constGetValue env s scene.state = .ok value)
    (group : Group) (here : group.id = (CreateScene.group? calls).getD 0) :
    result (scene.recallScene env) s = result (group.setScene env scene.id) s ∧
      ∀ commands : HueCommandAPI,
        let action := group.createSceneAction commands scene.id
        ∃ path body, APICache.Puts (group.setScene · scene.id) path body ∧
          action.getMethod = .ok .put ∧ action.getAddress = .ok (commands.combinedPath path) ∧
          action.getBody = .ok body := by
  constructor
  · have recalled : result (scene.recallScene env) s = result (do
        let _ ← APICache.PUTRequest env ("/groups/" ++ toString group.id ++ "/action")
          (.obj [("scene", .str scene.id)])) s := by
      simp [Scene.recallScene, cached, CreateScene.recallGroup_of_created created ints, here]
    rw [recalled]
    rfl
  · intro commands action
    exact ⟨_, _, fun env => ⟨fun _ => pure (), rfl⟩, rfl, rfl, rfl⟩

/-- A request that was given a group, then in vain its lights, and then another group. -/
def groupFour : List CreateScene.BuilderCall :=
  [.setName "evening", .setGroupId 3, .setLightIds [1, 2], .setGroupId 4]

/-- The cached state of the scene that was created with it. -/
def eveningCached : Caches :=
  let value := (CreateScene.builderSystem.run .new groupFour).getRequest
  ⟨fun _ => ⟨0, 1, value⟩, 1, 1, [⟨[], 1, value⟩], [.refreshed [] 1]⟩

theorem Scene.recall_created_in_group_four :
    let env : CacheEnv := ⟨fun _ => "/scenes/ab", fun n => n, fun _ => APICache.throwingCommands⟩
    let scene : Scene := ⟨"ab", []⟩
    let group : Group := ⟨4, []⟩
    result (scene.recallScene env) eveningCached =
        result (group.setScene env scene.id) eveningCached ∧
      ∀ commands : HueCommandAPI,
        let action := group.createSceneAction commands scene.id
        ∃ path body, APICache.Puts (group.setScene · scene.id) path body ∧
          action.getMethod = .ok .put ∧ action.getAddress = .ok (commands.combinedPath path) ∧
          action.getBody = .ok body := by
  intro env scene group
  have ints (id : ℤ) (here : CreateScene.group? groupFour = some id) : Text.IsInt id := by
    obtain rfl : 4 = id := Option.some.inj here
    exact ⟨by decide, by decide⟩
  exact Scene.recall_created ⟨⟨_, rfl⟩, rfl, rfl⟩ ints env scene eveningCached rfl group rfl

end Hueplusplus
