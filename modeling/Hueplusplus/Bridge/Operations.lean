import Hueplusplus.Bridge.Lists
import Hueplusplus.Foundation.System

/-!
# Runs of a bridge

The operations of the lists and of the configuration consist of steps: a refresh or a query of
a cache, the construction of a resource, and a request through the commands of a list. So what
holds in every run of steps holds in every run of operations.
-/

namespace Hueplusplus

open Effect

namespace Bridge

/-- Steps that the operations of a bridge, its lists and its configuration consist of. -/
inductive Step where
  | setIP (ip : String)
  | setPort (port : ℤ)
  | setHttpHandler (handler : IHttpHandler)
  | requestUsername (rounds : ℕ)
  | startStreaming (groupIdentifier : String)
  | stopStreaming (groupIdentifier : String)
  | refresh (id : CacheId)
  | getValue (id : CacheId)
  | resourceState (part : Part) (key : String) (state : Json)
  | listRequest (part : Part) (verb : HttpVerb) (path : String) (body : Json)

variable (clock : ℕ → ℤ)

/-- The bridge after a step, whether it returned or threw. -/
def Step.run (b : Bridge) : Step → Bridge
  | .setIP ip => (result (Bridge.setIP ip) b).2
  | .setPort port => (result (Bridge.setPort port) b).2
  | .setHttpHandler handler => (result (Bridge.setHttpHandler clock handler) b).2
  | .requestUsername rounds => (result (Bridge.requestUsername clock rounds) b).2
  | .startStreaming group => (result (Bridge.startStreaming group) b).2
  | .stopStreaming group => (result (Bridge.stopStreaming group) b).2
  | .refresh id => (result (refreshCache clock id) b).2
  | .getValue id => (result (getCacheValue clock id) b).2
  | .resourceState part key state => (result (Bridge.resourceState clock part key state) b).2
  | .listRequest part verb path body => (result (Bridge.listRequest part verb path body) b).2

/-- Steps in any order, from a new bridge. -/
def system : System Bridge Step where
  init b := ∃ ip port username handler clientkey refreshDuration sharedState,
    b = Bridge.new ip port username handler clientkey refreshDuration sharedState
  admissible _ _ := True
  step b step := step.run clock b

variable {clock}

theorem composes_refreshCache (id : CacheId) : (system clock).Composes (refreshCache clock id) :=
  System.composes_step (.refresh id) fun _ => rfl

theorem composes_getCacheValue (id : CacheId) :
    (system clock).Composes (getCacheValue clock id) :=
  System.composes_step (.getValue id) fun _ => rfl

theorem composes_listRequest (part : Part) (verb : HttpVerb) (path : String) (body : Json) :
    (system clock).Composes (listRequest part verb path body) :=
  System.composes_step (.listRequest part verb path body) fun _ => rfl

theorem composes_resourceState (part : Part) (key : String) (state : Json) :
    (system clock).Composes (resourceState clock part key state) :=
  System.composes_step (.resourceState part key state) fun _ => rfl

section Lists

variable {α : Type} [IdType α]

theorem composes_construct (part : Part) (id : α) (state : Json) :
    (system clock).Composes (construct clock part id state) := by
  have made : (system clock).Composes (resourceState clock part (maybeToString id) state) :=
    composes_resourceState part (maybeToString id) state
  cases part with
  | lights =>
      apply (System.composes_ofExcept _).bind
      intro type
      apply made.bind
      intro cache
      apply (System.composes_ofExcept _).bind
      intro _
      exact System.composes_pure _
  | _ => exact made.bind fun _ => System.composes_pure _

theorem composes_constructAll (part : Part) (items : List (Option String × Json)) :
    (system clock).Composes (constructAll clock part items : BridgeM (List (Resource α))) := by
  induction items with
  | nil => exact System.composes_pure _
  | cons item rest ih =>
      match item with
      | (none, _) => exact System.composes_throw _
      | (some key, state) =>
          apply (System.composes_ofExcept _).bind
          intro id
          apply (composes_construct part id state).bind
          intro resource
          exact ih.bind fun _ => System.composes_pure _

theorem composes_getAll (part : Part) :
    (system clock).Composes (getAll clock part : BridgeM (List (Resource α))) :=
  (composes_getCacheValue _).bind fun state => composes_constructAll part state.items

theorem composes_getResource (part : Part) (id : α) :
    (system clock).Composes (getResource clock part id) := by
  apply (composes_getCacheValue _).bind
  intro state
  split
  · exact composes_construct part id _
  · exact System.composes_throw _

theorem composes_getGroup (id : ℤ) : (system clock).Composes (getGroup clock id) := by
  apply (composes_getCacheValue _).bind
  intro state
  split
  · exact composes_construct .groups id _
  · split
    · exact composes_construct .groups id _
    · exact System.composes_throw _

theorem composes_existsResource (part : Part) (id : α) :
    (system clock).Composes (existsResource clock part id) :=
  (composes_getCacheValue _).bind fun _ => System.composes_pure _

theorem composes_existsGroup (id : ℤ) : (system clock).Composes (existsGroup clock id) := by
  rw [existsGroup_eq]
  split
  · exact System.composes_pure _
  · exact composes_existsResource .groups id

theorem composes_removeResource (part : Part) (id : α) :
    (system clock).Composes (removeResource clock part id) :=
  (composes_listRequest _ _ _ _).bind fun _ => System.composes_pure _

theorem composes_search (part : Part) (deviceIds : List String) :
    (system clock).Composes (search clock part deviceIds) :=
  (composes_listRequest _ _ _ _).bind fun _ => System.composes_pure _

theorem composes_getNewDevices (part : Part) :
    (system clock).Composes (getNewDevices clock part) := composes_listRequest _ _ _ _

theorem composes_create [Inhabited α] (part : Part) (params : Json) :
    (system clock).Composes (create clock part params : BridgeM α) := by
  apply (composes_listRequest _ _ _ _).bind
  intro response
  split
  · exact (composes_refreshCache _).bind fun _ => System.composes_ofExcept _
  · exact System.composes_pure _

end Lists

theorem composes_refreshConfig (force : Bool) :
    (system clock).Composes (refreshConfig clock force) := by
  cases force with
  | true => exact composes_refreshCache _
  | false => exact (composes_getCacheValue _).bind fun _ => System.composes_pure _

theorem composes_removeUser (userKey : String) :
    (system clock).Composes (removeUser userKey) :=
  (composes_listRequest _ _ _ _).bind fun _ => System.composes_pure _

theorem composes_pressLinkButton : (system clock).Composes pressLinkButton :=
  (composes_listRequest _ _ _ _).bind fun _ => System.composes_pure _

theorem composes_touchLink : (system clock).Composes touchLink :=
  (composes_listRequest _ _ _ _).bind fun _ => System.composes_pure _

/-- A query of a list, the configuration or the whole state. -/
inductive Query : Type 1 where
  | refresh
  | refreshList (part : Part)
  | refreshConfig (force : Bool)
  -- a list of groups has functions of its own
  | existsResource {α : Type} [IdType α] (part : Part) (other : part ≠ .groups) (id : α)
  | existsGroup (id : ℤ)
  | getResource {α : Type} [IdType α] (part : Part) (other : part ≠ .groups) (id : α)
  | getGroup (id : ℤ)
  | getAll (α : Type) [IdType α] (part : Part)
  | getNewDevices (part : Part)

/-- An operation of the bridge, of its lists or of its configuration. -/
inductive Operation : Type 1 where
  | own (step : Step)
  | query (asked : Query)
  | create (α : Type) [IdType α] [Inhabited α] (part : Part) (params : Json)
  | removeResource {α : Type} [IdType α] (part : Part) (id : α)
  | search (part : Part) (deviceIds : List String)
  | removeUser (userKey : String)
  | pressLinkButton
  | touchLink

variable (clock)

/-- The bridge after a query, whether it returned or threw. -/
def Query.run (b : Bridge) : Query → Bridge
  | .refresh => (result (Bridge.refresh clock) b).2
  | .refreshList part => (result (refreshCache clock part.stateCache) b).2
  | .refreshConfig force => (result (Bridge.refreshConfig clock force) b).2
  | @Query.existsResource _ _ part _ id => (result (Bridge.existsResource clock part id) b).2
  | .existsGroup id => (result (Bridge.existsGroup clock id) b).2
  | @Query.getResource _ _ part _ id => (result (Bridge.getResource clock part id) b).2
  | .getGroup id => (result (Bridge.getGroup clock id) b).2
  | @Query.getAll α _ part => (result (Bridge.getAll clock part : BridgeM (List (Resource α))) b).2
  | .getNewDevices part => (result (Bridge.getNewDevices clock part) b).2

/-- Likewise after an operation. -/
def Operation.run (b : Bridge) : Operation → Bridge
  | .own step => step.run clock b
  | .query asked => asked.run clock b
  | @Operation.create α _ _ part params =>
    (result (Bridge.create clock part params : BridgeM α) b).2
  | @Operation.removeResource _ _ part id => (result (Bridge.removeResource clock part id) b).2
  | .search part deviceIds => (result (Bridge.search clock part deviceIds) b).2
  | .removeUser userKey => (result (Bridge.removeUser userKey) b).2
  | .pressLinkButton => (result Bridge.pressLinkButton b).2
  | .touchLink => (result Bridge.touchLink b).2

/-- Operations in any order, from a new bridge. -/
def operationSystem : System Bridge Operation where
  init := (system clock).init
  admissible _ _ := True
  step b operation := operation.run clock b

theorem composes_query (query : Query) :
    ∃ α, ∃ x : BridgeM α, (system clock).Composes x ∧ ∀ b, query.run clock b = (result x b).2 := by
  cases query with
  | refresh => exact ⟨_, _, composes_refreshCache [], fun _ => rfl⟩
  | refreshList part => exact ⟨_, _, composes_refreshCache part.stateCache, fun _ => rfl⟩
  | refreshConfig force => exact ⟨_, _, composes_refreshConfig force, fun _ => rfl⟩
  | existsResource part _ id => exact ⟨_, _, composes_existsResource part id, fun _ => rfl⟩
  | existsGroup id => exact ⟨_, _, composes_existsGroup id, fun _ => rfl⟩
  | getResource part _ id => exact ⟨_, _, composes_getResource part id, fun _ => rfl⟩
  | getGroup id => exact ⟨_, _, composes_getGroup id, fun _ => rfl⟩
  | getAll α part => exact ⟨_, _, composes_getAll part, fun _ => rfl⟩
  | getNewDevices part => exact ⟨_, _, composes_getNewDevices part, fun _ => rfl⟩

theorem operation_steps (operation : Operation) (b : Bridge) :
    ∃ steps, operation.run clock b = (system clock).run b steps := by
  cases operation with
  | own step => exact ⟨[step], rfl⟩
  | query asked =>
      obtain ⟨α, x, composes, ran⟩ := composes_query clock asked
      rw [Operation.run, ran]
      exact composes b
  | create α part params => exact (composes_create (α := α) part params) b
  | removeResource part id => exact (composes_removeResource part id) b
  | search part deviceIds => exact (composes_search part deviceIds) b
  | removeUser userKey => exact (composes_removeUser userKey) b
  | pressLinkButton => exact composes_pressLinkButton b
  | touchLink => exact composes_touchLink b

/-- Every run of operations is one of steps. -/
theorem operations_steps (operations : List Operation) (b : Bridge) :
    ∃ steps, (operationSystem clock).run b operations = (system clock).run b steps := by
  induction operations generalizing b with
  | nil => exact ⟨[], rfl⟩
  | cons operation operations ih =>
      obtain ⟨first, ran⟩ := operation_steps clock operation b
      obtain ⟨rest, ended⟩ := ih (operation.run clock b)
      refine ⟨first ++ rest, ?_⟩
      rw [System.run_append, ← ran]
      exact ended

end Bridge

end Hueplusplus
