import Hueplusplus.EntertainmentMode.Message
import Hueplusplus.Resources.Setters

/-!
# Lists of light ids

Scenes and groups, and the requests that create them, write the ids of their lights as a list
of decimal strings, and scenes and groups read them back. The lists are built one by one, and
differ when there are no lights.
-/

namespace Hueplusplus

/-- `Scene::getLightIds`, by the JSON its constant `getValue` returns. -/
def Scene.getLightIds (value : Json) : Except Exception (List ℤ) := do
  let lights ← value.at' "lights"
  lights.elements.mapM fun id => do Text.stoi (← id.getString).toList

structure CreateScene where
  request : Json

namespace CreateScene

def new : CreateScene := ⟨.null⟩

/-- An assignment to a member of the request. -/
def assign (params : CreateScene) (key : String) (value : Json) :
    Except Exception CreateScene := do
  return ⟨← params.request.setMember key value⟩

def setName (params : CreateScene) (name : String) : Except Exception CreateScene :=
  params.assign "name" (.str name)

def setGroupId (params : CreateScene) (id : ℤ) : Except Exception CreateScene := do
  if params.request.count "lights" then
    throw (.hueException "Can only set either group or lights")
  let params ← params.assign "group" (.str (toString id))
  params.assign "type" (.str "GroupScene")

def setLightIds (params : CreateScene) (ids : List ℤ) : Except Exception CreateScene := do
  if params.request.count "group" then
    throw (.hueException "Can only set either group or lights")
  let lights := Json.pushBackAll (ids.map fun id => .str (toString id))
  let params ← params.assign "lights" lights
  params.assign "type" (.str "LightScene")

def setRecycle (params : CreateScene) (recycle : Bool) : Except Exception CreateScene :=
  params.assign "recycle" (.bool recycle)

def setAppdata (params : CreateScene) (data : String) (version : ℤ) :
    Except Exception CreateScene :=
  params.assign "appdata" (.obj [("data", .str data), ("version", .num version)])

def setLightStates (params : CreateScene) (states : OrderedMap ℤ Scene.LightState) :
    Except Exception CreateScene := do
  let statesJson ← states.entries.foldlM
    (fun json entry => json.setMember (toString entry.1) entry.2.toJson) Json.null
  params.assign "lightstates" statesJson

def getRequest (params : CreateScene) : Json := params.request

/-- A call of a setter other than `setLightIds`. -/
inductive Call where
  | setName (name : String)
  | setGroupId (id : ℤ)
  | setRecycle (recycle : Bool)
  | setAppdata (data : String) (version : ℤ)
  | setLightStates (states : OrderedMap ℤ Scene.LightState)

def Call.run (params : CreateScene) : Call → Except Exception CreateScene
  | .setName name => params.setName name
  | .setGroupId id => params.setGroupId id
  | .setRecycle recycle => params.setRecycle recycle
  | .setAppdata data version => params.setAppdata data version
  | .setLightStates states => params.setLightStates states

section Requests

variable {params params' : CreateScene}

theorem find?_assign {key : String} {value : Json} (h : params.assign key value = .ok params')
    (other : String) : params'.request.find? other =
      if key = other then some value else params.request.find? other := by
  obtain ⟨request, set, done⟩ := Except.bind_eq_ok_iff.mp h
  obtain rfl := Except.ok.inj done
  cases same : params.request with
  | null =>
      rw [same] at set
      obtain rfl := Except.ok.inj set
      rfl
  | obj members =>
      rw [same] at set
      obtain rfl := Except.ok.inj set
      exact AssocList.find?_insert key other value members
  | _ => rw [same] at set; exact nomatch set

/-- Either the lights or the group of a scene is set, and its type with them. -/
theorem find?_setLightIds {ids : List ℤ} (h : params.setLightIds ids = .ok params') :
    params'.request.find? "lights" =
      some (Json.pushBackAll (ids.map fun id => .str (toString id))) := by
  unfold setLightIds at h
  split at h
  · exact nomatch h
  · obtain ⟨middle, lights, type⟩ := Except.bind_eq_ok_iff.mp h
    rw [find?_assign type, find?_assign lights]
    rfl

theorem find?_run_lights {call : Call} (h : call.run params = .ok params') :
    params'.request.find? "lights" = params.request.find? "lights" := by
  cases call with
  | setName | setRecycle | setAppdata => exact find?_assign h _
  | setLightStates states =>
      obtain ⟨_, _, stored⟩ := Except.bind_eq_ok_iff.mp h
      exact find?_assign stored _
  | setGroupId id =>
      change params.setGroupId id = .ok params' at h
      unfold setGroupId at h
      split at h
      · exact nomatch h
      · obtain ⟨middle, group, type⟩ := Except.bind_eq_ok_iff.mp h
        rw [find?_assign type, find?_assign group]
        rfl

theorem find?_foldlM_lights {calls : List Call} {final : CreateScene}
    (h : calls.foldlM Call.run params = .ok final) :
    final.request.find? "lights" = params.request.find? "lights" := by
  induction calls generalizing params with
  | nil =>
      obtain rfl := Except.ok.inj h
      rfl
  | cons call rest ih =>
      rw [List.foldlM_cons] at h
      obtain ⟨middle, first, later⟩ := Except.bind_eq_ok_iff.mp h
      exact (ih later).trans (find?_run_lights first)

end Requests

end CreateScene

structure CreateGroup where
  lights : List ℤ
  name : String
  type : String
  roomType : String

namespace CreateGroup

def getRequest (params : CreateGroup) : Json :=
  let lightStrings := Json.arr (params.lights.map fun id => .str (toString id))
  let result : Object :=
    (OrderedMap.empty.insert "lights" lightStrings).insert "type" (.str params.type)
  let result := if params.name.isEmpty then result else result.insert "name" (.str params.name)
  let roomClass := if params.roomType.isEmpty then "Other" else params.roomType
  Object.toJson (result.insert "class" (.str roomClass))

theorem find?_getRequest_lights (params : CreateGroup) :
    params.getRequest.find? "lights" =
      some (.arr (params.lights.map fun id => .str (toString id))) := by
  have set (name : String) (value : Json) (other : name ≠ "lights") (result : Object) :
      (result.insert name value).find? "lights" = result.find? "lights" :=
    OrderedMap.find?_insert_ne _ _ other
  simp only [getRequest]
  refine (set _ _ (by decide) _).trans ?_
  split
  · exact (set _ _ (by decide) _).trans (OrderedMap.find?_insert_self _ _ _)
  · exact (set _ _ (by decide) _).trans
      ((set _ _ (by decide) _).trans (OrderedMap.find?_insert_self _ _ _))

end CreateGroup

namespace LightIds

/-- The list as an array of decimal strings. -/
def idArray (ids : List ℤ) : Json := .arr (ids.map fun id => .str (toString id))

/-- What is sent under `lights` for a list of ids: by scenes, by requests for scenes, by groups
and by requests for groups. -/
structure Sent (ids : List ℤ) (scene createScene group createGroup : Json) : Prop where
  setLightIds : ∀ resource : Scene, APICache.Puts (resource.setLightIds · ids)
    ("/scenes/" ++ resource.id ++ "") (.obj [("lights", scene)])
  returns : ∃ params, CreateScene.new.setLightIds ids = .ok params
  request : ∀ (params params' final : CreateScene) (calls : List CreateScene.Call),
    params.setLightIds ids = .ok params' → calls.foldlM CreateScene.Call.run params' = .ok final →
    final.getRequest.find? "lights" = some createScene
  setLights : ∀ resource : Group, APICache.Puts (resource.setLights · ids)
    ("/groups/" ++ toString resource.id ++ "") (.obj [("lights", group)])
  getRequest : ∀ name type roomType,
    (CreateGroup.mk ids name type roomType).getRequest.find? "lights" = some createGroup

theorem sent (ids : List ℤ) :
    Sent ids (Json.pushBackAll (ids.map fun id => .str (toString id)))
      (Json.pushBackAll (ids.map fun id => .str (toString id))) (idArray ids) (idArray ids) where
  setLightIds resource env := ⟨fun _ => resource.refresh env false, bind_assoc _ _ _⟩
  returns := ⟨_, rfl⟩
  request _ _ _ _ set later :=
    (CreateScene.find?_foldlM_lights later).trans (CreateScene.find?_setLightIds set)
  setLights resource env := ⟨fun _ => resource.refresh env true, rfl⟩
  getRequest name type roomType :=
    CreateGroup.find?_getRequest_lights ⟨ids, name, type, roomType⟩

/-- All that is sent is the array of decimal strings, and is read as the ids. -/
structure OneFormat (ids : List ℤ) (scene createScene group createGroup : Json) : Prop where
  ofScene : scene = idArray ids
  ofCreateScene : createScene = idArray ids
  ofGroup : group = idArray ids
  ofCreateGroup : createGroup = idArray ids
  sceneReads : ∀ state : Json, state.find? "lights" = some scene →
    Scene.getLightIds state = .ok ids
  groupReads : ∀ state : Json, state.find? "lights" = some group →
    Group.getLightIds state = .ok ids

theorem isInt_toInt (value : Int32) : Text.IsInt value.toInt :=
  ⟨Int32.le_toInt value, Int32.toInt_lt value⟩

theorem readIds_eq_ok {ids : List ℤ} (ints : ∀ id ∈ ids, Text.IsInt id) :
    (ids.map fun id => Json.str (toString id)).mapM
      (fun id => do Text.stoi (← id.getString).toList) = (.ok ids : Except Exception _) := by
  apply Except.mapM_map_eq_ok
  intro id member
  simp only [Json.getString, Except.ok_bind, Text.toList_toString]
  exact Text.stoi_ofInt (ints id member)

/-- Both forms of the list are read by scenes and by groups, also the empty ones. -/
theorem getLightIds_of_elements {ids : List ℤ} (ints : ∀ id ∈ ids, Text.IsInt id)
    {state lights : Json} (found : state.find? "lights" = some lights)
    (elements : lights.elements = ids.map fun id => .str (toString id)) :
    Scene.getLightIds state = .ok ids ∧ Group.getLightIds state = .ok ids := by
  have member := Json.at'_of_find? found
  have read := readIds_eq_ok ints
  constructor
  · simp only [Scene.getLightIds, member, Except.ok_bind, elements]
    exact read
  · have strings : (lights.items.map Prod.snd).filter (· ≠ .null) =
        ids.map fun id => .str (toString id) := by
      change lights.elements.filter (· ≠ .null) = _
      rw [elements, List.filter_eq_self]
      intro entry written
      obtain ⟨id, _, rfl⟩ := List.mem_map.mp written
      exact decide_eq_true nofun
    simp only [Group.getLightIds, member, Except.ok_bind, strings]
    exact read

theorem pushBackAll_eq_idArray_iff (ids : List ℤ) :
    Json.pushBackAll (ids.map fun id => .str (toString id)) = idArray ids ↔ ids ≠ [] := by
  cases ids with
  | nil => exact iff_of_false nofun fun nonempty => nonempty rfl
  | cons id rest => exact iff_of_true rfl nofun

/-- The four lists have one format exactly if there are ids in them. -/
theorem light_ids_one_format_iff (values : List Int32) :
    ∃ scene createScene group createGroup,
      Sent (values.map Int32.toInt) scene createScene group createGroup ∧
      (OneFormat (values.map Int32.toInt) scene createScene group createGroup ↔ values ≠ []) := by
  refine ⟨_, _, _, _, sent _, ?_⟩
  have ints : ∀ id ∈ values.map Int32.toInt, Text.IsInt id := by
    intro id member
    obtain ⟨value, _, rfl⟩ := List.mem_map.mp member
    exact isInt_toInt value
  have form := pushBackAll_eq_idArray_iff (values.map Int32.toInt)
  rw [ne_eq, List.map_eq_nil_iff] at form
  constructor
  · exact fun same => form.mp same.ofScene
  · intro nonempty
    have same := form.mpr nonempty
    constructor
    · exact same
    · exact same
    · rfl
    · rfl
    · intro state found
      exact (getLightIds_of_elements ints found (Json.elements_pushBackAll _)).1
    · intro state found
      exact (getLightIds_of_elements ints found (Json.elements_arr _)).2

/-- Without ids scenes send null. -/
theorem no_light_ids_sent_as_null :
    ¬ ∀ values : List Int32, ∃ scene createScene group createGroup,
      Sent (values.map Int32.toInt) scene createScene group createGroup ∧
      OneFormat (values.map Int32.toInt) scene createScene group createGroup := by
  intro claim
  obtain ⟨scene, _, _, _, given, same⟩ := claim []
  have null := (given.setLightIds ⟨"1", []⟩).unique ((sent []).setLightIds ⟨"1", []⟩)
  rw [same.ofScene] at null
  exact nomatch null

end LightIds

end Hueplusplus
