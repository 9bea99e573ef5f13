import Hueplusplus.APICache.Freshness
import Hueplusplus.Resources.Setters

/-!
# Whether a setter's change is read back

Every setter is a PUT followed by `refreshState`. A forced refresh of a root cache fetches
its JSON anew; the other one does so only if the cache is stale at that moment, and the PUT
does not make it so.
-/

namespace Hueplusplus

/-- A call of a setter that PUTs and then refreshes. -/
inductive Setter where
  | sceneSetName (scene : Scene) (name : String)
  | sceneSetLightIds (scene : Scene) (ids : List ℤ)
  | sceneSetAppdata (scene : Scene) (data : String) (version : ℤ)
  | sceneSetLightStates (scene : Scene) (states : OrderedMap ℤ Scene.LightState)
  | sceneStoreCurrentLightState (scene : Scene)
  | sceneStoreCurrentLightStateWith (scene : Scene) (transition : ℤ)
  | ruleSetName (rule : Rule) (name : String)
  | ruleSetEnabled (rule : Rule) (enabled : Bool)
  | ruleSetConditions (rule : Rule) (conditions : List Condition)
  | ruleSetActions (rule : Rule) (actions : List Action)
  | groupSetName (group : Group) (name : String)
  | groupSetLights (group : Group) (ids : List ℤ)
  | groupSetRoomType (group : Group) (type : String)

namespace Setter

open Effect Caches APICache

variable (env : CacheEnv)

def run : Setter → CacheM Unit
  | sceneSetName scene name => scene.setName env name
  | sceneSetLightIds scene ids => scene.setLightIds env ids
  | sceneSetAppdata scene data version => scene.setAppdata env data version
  | sceneSetLightStates scene states => scene.setLightStates env states
  | sceneStoreCurrentLightState scene => scene.storeCurrentLightState env
  | sceneStoreCurrentLightStateWith scene transition =>
    scene.storeCurrentLightStateWith env transition
  | ruleSetName rule name => rule.setName env name
  | ruleSetEnabled rule enabled => rule.setEnabled env enabled
  | ruleSetConditions rule conditions => rule.setConditions env conditions
  | ruleSetActions rule actions => rule.setActions env actions
  | groupSetName group name => group.setName env name
  | groupSetLights group ids => group.setLights env ids
  | groupSetRoomType group type => group.setRoomType env type

/-- The cache of the resource. -/
def state : Setter → CacheId
  | sceneSetName scene _ | sceneSetLightIds scene _ | sceneSetAppdata scene _ _
  | sceneSetLightStates scene _ | sceneStoreCurrentLightState scene
  | sceneStoreCurrentLightStateWith scene _ => scene.state
  | ruleSetName rule _ | ruleSetEnabled rule _ | ruleSetConditions rule _
  | ruleSetActions rule _ => rule.state
  | groupSetName group _ | groupSetLights group _ | groupSetRoomType group _ => group.state

/-- The path of the resource, which the setter PUTs to. -/
def path : Setter → String
  | sceneSetName scene _ | sceneSetLightIds scene _ | sceneSetAppdata scene _ _
  | sceneSetLightStates scene _ | sceneStoreCurrentLightState scene
  | sceneStoreCurrentLightStateWith scene _ => "/scenes/" ++ scene.id ++ ""
  | ruleSetName rule _ | ruleSetEnabled rule _ | ruleSetConditions rule _
  | ruleSetActions rule _ => "/rules/" ++ toString rule.id
  | groupSetName group _ | groupSetLights group _ | groupSetRoomType group _ =>
    "/groups/" ++ toString group.id ++ ""

/-- Rules and groups force the refresh, scenes do not. -/
def force : Setter → Bool
  | sceneSetName .. | sceneSetLightIds .. | sceneSetAppdata .. | sceneSetLightStates ..
  | sceneStoreCurrentLightState .. | sceneStoreCurrentLightStateWith .. => false
  | ruleSetName .. | ruleSetEnabled .. | ruleSetConditions .. | ruleSetActions ..
  | groupSetName .. | groupSetLights .. | groupSetRoomType .. => true

variable {env} {s t u : Caches}

/-- What the constant getters of the resource read in `t` was fetched after `u`. -/
def ReadBack (env : CacheEnv) (u t : Caches) : Prop :=
  ∃ f, t.fetched = f :: u.fetched ∧ ∀ value, constGetValue env t [] = .ok value → value = f.json

theorem returns_PUTRequest {path : String} {request reply : Json}
    (returned : Returns (PUTRequest env path request) s reply u) : u = s.failed := by
  have state : (result (PUTRequest env path request) s).2 = s.failed := rfl
  rw [returned] at state
  exact state

/-- A PUT, and what is made of it. -/
theorem returns_PUTRequest_bind {path : String} {request : Json} {next : Json → CacheM Unit}
    (returned : Returns (PUTRequest env path request >>= next) s () t) :
    ∃ reply, Returns (PUTRequest env path request) s reply s.failed ∧
      Returns (next reply) s.failed () t := by
  obtain ⟨reply, u, put, later⟩ := returns_bind.mp returned
  obtain rfl := returns_PUTRequest put
  exact ⟨reply, put, later⟩

theorem returns_sendPutRequest_bind {scene : Scene} {request : Json} {next : CacheM Unit}
    (returned : Returns (do scene.sendPutRequest env "" request; next) s () t) :
    ∃ reply, Returns (PUTRequest env ("/scenes/" ++ scene.id ++ "") request) s reply s.failed ∧
      Returns next s.failed () t := by
  obtain ⟨⟨⟩, u, sent, later⟩ := returns_bind.mp returned
  obtain ⟨reply, put, done⟩ := returns_PUTRequest_bind sent
  obtain ⟨-, rfl⟩ := returns_pure.mp done
  exact ⟨reply, put, later⟩

/-- Every setter that returns has made one PUT before the refresh. -/
theorem returns_run {setter : Setter} (returned : Returns (setter.run env) s () t) :
    ∃ request reply, Returns (PUTRequest env setter.path request) s reply s.failed ∧
      Returns (refreshState env setter.state setter.force) s.failed () t := by
  cases setter with
  | sceneSetLightStates scene states =>
      obtain ⟨lightStates, u, stored, later⟩ := returns_bind.mp returned
      obtain ⟨-, rfl⟩ := returns_ofExcept.mp stored
      exact ⟨_, returns_sendPutRequest_bind later⟩
  | sceneSetName | sceneSetLightIds | sceneSetAppdata | sceneStoreCurrentLightState
  | sceneStoreCurrentLightStateWith => exact ⟨_, returns_sendPutRequest_bind returned⟩
  | ruleSetName | ruleSetEnabled | ruleSetConditions | ruleSetActions | groupSetName
  | groupSetLights | groupSetRoomType => exact ⟨_, returns_PUTRequest_bind returned⟩

/-- A refresh of a root cache that returns leaves what it has fetched as the value. -/
theorem readBack_of_refresh (returned : Returns (refresh env []) s () t) : ReadBack env s t := by
  unfold Returns at returned
  rw [result_refresh_root] at returned
  cases replied : reply env s [] with
  | error e => simp [replied] at returned
  | ok json =>
      simp only [replied, Prod.mk.injEq] at returned
      obtain ⟨-, rfl⟩ := returned
      refine ⟨⟨[], env.clock s.readings, json⟩, rfl, ?_⟩
      intro value read
      obtain ⟨-, found⟩ := constGetValue_eq_ok_iff.mp read
      rw [store_cache, if_pos rfl] at found
      exact (Option.some.inj found).symm

/-- `getValue` of a root cache fetches its JSON exactly if the cache is stale. -/
theorem readBack_of_getValue_iff {value : Json} (returned : Returns (getValue env []) s value t) :
    ReadBack env s t ↔ s.staleAt [] (env.clock s.readings) := by
  unfold Returns at returned
  rw [result_getValue] at returned
  by_cases stale : s.staleAt [] (env.clock s.readings) = true
  · rw [if_pos stale] at returned
    constructor
    · exact fun _ => stale
    · intro _
      cases refreshed : result (refresh env []) (s.checked []) with
      | mk outcome u =>
          rw [refreshed] at returned
          cases outcome with
          | error e => simp at returned
          | ok _ =>
              simp only [result_cachedValue, Prod.mk.injEq] at returned
              obtain ⟨-, rfl⟩ := returned
              exact readBack_of_refresh (s := s.checked []) refreshed
  · rw [if_neg stale, result_cachedValue] at returned
    simp only [Prod.mk.injEq] at returned
    obtain ⟨-, rfl⟩ := returned
    constructor
    · intro ⟨f, fetched, _⟩
      rw [checked_fetched] at fetched
      exact absurd fetched (by simp)
    · exact fun claimed => absurd claimed stale

/-- What a setter of a resource with a root cache has changed is read back exactly if it forces
the refresh or the cache is stale by then. -/
theorem read_back_iff (env : CacheEnv) (setter : Setter) (root : setter.state = [])
    {s t : Caches} (returned : Returns (setter.run env) s () t) :
    ∃ u request reply, Returns (PUTRequest env setter.path request) s reply u ∧
      (ReadBack env u t ↔
        setter.force = true ∨ s.staleAt [] (env.clock s.readings) = true) := by
  obtain ⟨request, reply, put, refreshed⟩ := returns_run returned
  refine ⟨s.failed, request, reply, put, ?_⟩
  rw [root, refreshState] at refreshed
  cases forced : setter.force with
  | true =>
      rw [forced, if_pos rfl] at refreshed
      exact ⟨fun _ => .inl rfl, fun _ => readBack_of_refresh refreshed⟩
  | false =>
      rw [forced, if_neg Bool.false_ne_true] at refreshed
      obtain ⟨value, u, got, done⟩ := returns_bind.mp refreshed
      obtain ⟨-, rfl⟩ := returns_pure.mp done
      rw [readBack_of_getValue_iff got]
      -- the PUT changes neither the cache nor the clock
      constructor
      · exact .inr
      · rintro (never | stale)
        · exact absurd never Bool.false_ne_true
        · exact stale

/-- A scene and a bridge that renames it. -/
def sceneCaches : CacheEnv where
  path _ := "/scenes/1"
  clock n := n + 1
  commands _ :=
    { ip := "192.168.2.1", port := 80, username := "username"
      httpHandler :=
        { getJson := fun _ _ _ _ _ => .ok (.obj [("name", .str "new")])
          putJson := fun _ _ _ _ _ => .ok .null
          postJson := fun _ _ _ _ _ => .ok .null
          deleteJson := fun _ _ _ _ _ => .ok .null } }

/-- The cache of a scene with this refresh duration, one tick after it was refreshed. -/
def oldScene (refreshDuration : ℤ) : Caches :=
  let fetched : Json := .obj [("name", .str "old")]
  ⟨fun _ => ⟨refreshDuration, 1, fetched⟩, 1, 1, [⟨[], 1, fetched⟩], [.refreshed [] 1]⟩

/-- With a refresh duration of 0 the new name is read back. -/
theorem read_back_iff_always :
    ∃ u request reply,
      Returns (PUTRequest sceneCaches "/scenes/1" request) (oldScene 0) reply u ∧
      (ReadBack sceneCaches u
          (result ((sceneSetName ⟨"1", []⟩ "new").run sceneCaches) (oldScene 0)).2 ↔
        false = true ∨ (oldScene 0).staleAt [] 2 = true) :=
  read_back_iff sceneCaches (sceneSetName ⟨"1", []⟩ "new") rfl (Prod.ext rfl rfl)

/-- With a refresh duration of 1000 ticks the scene keeps its old name in the cache. -/
theorem renamed_scene_not_read_back :
    ¬ ∀ (env : CacheEnv) (setter : Setter) (s t : Caches), setter.state = [] →
      Returns (setter.run env) s () t →
      ∃ u request reply, Returns (PUTRequest env setter.path request) s reply u ∧
        ReadBack env u t := by
  intro always
  let t := (result ((sceneSetName ⟨"1", []⟩ "new").run sceneCaches) (oldScene 1000)).2
  obtain ⟨u, request, reply, put, f, fetched, -⟩ := always sceneCaches
    (sceneSetName ⟨"1", []⟩ "new") (oldScene 1000) t rfl (Prod.ext rfl rfl)
  obtain rfl := returns_PUTRequest put
  have unread : t.fetched = (oldScene 1000).failed.fetched := rfl
  rw [unread] at fetched
  exact absurd fetched (by simp)

end Setter

end Hueplusplus
