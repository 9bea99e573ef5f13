import Hueplusplus.Bridge.Lists
import Hueplusplus.Foundation.System

/-!
# Lists of resources

A `ResourceList` has its cache on that of a bridge or by itself, and constructs its resources
from what is cached. The operations are those of all lists of created resources, on the tree
of caches that the list belongs to. `GroupResourceList` replaces two of them, since group 0
always exists.
-/

namespace Hueplusplus

open Effect

/-- How a list constructs its resources: with caches of their own, or on the cache of the list,
which is not touched. -/
structure ResourceFactory (α ρ : Type) where
  construct : α → Json → CacheM ρ
  keeps : ∀ id state s, (result (construct id state) s).2.cache = s.cache ∧
    (result (construct id state) s).2.fetched = s.fetched

namespace ResourceList

variable (env : CacheEnv) (list : CacheId)

/-- A request through `stateCache->getCommandAPI()`. -/
def request (verb : HttpVerb) (requestPath : String) (body : Json) : CacheM Json := do
  let s ← get
  modify fun s => { s with requests := s.requests + 1 }
  Effect.ofExcept ((env.commands s.requests).request (fun h => h.json verb) requestPath body)

/-- The cache of a list in its tree of caches. -/
def listCache : ListCache Caches where
  getRequestPath := APICache.getRequestPath env list
  getValue := APICache.getValue env list
  refresh := APICache.refresh env list
  request := request env

variable {α ρ : Type} [IdType α]

def removeResource (id : α) : CacheM Bool := (listCache env list).removeResource id

def create [Inhabited α] (params : Json) : CacheM α := (listCache env list).create params

def existsResource (id : α) : CacheM Bool := (listCache env list).existsResource id

def constExistsResource (id : α) : CacheM Bool := (listCache env list).constExistsResource id

variable (factory : ResourceFactory α ρ)

def getResource (id : α) : CacheM ρ := (listCache env list).getResource factory.construct id

def constructAll : List (Option String × Json) → CacheM (List ρ) :=
  ListCache.constructAll factory.construct

def getAll : CacheM (List ρ) := (listCache env list).getAll factory.construct

theorem existsResource_eq (id : α) : existsResource env list id = (do
    let state ← APICache.getValue env list
    return state.count (maybeToString id)) := rfl

theorem constExistsResource_eq (id : α) :
    constExistsResource env list id = existsResource env list id := rfl

theorem getResource_eq (id : α) : getResource env list factory id = (do
    let state ← APICache.getValue env list
    match state.find? (maybeToString id) with
    | some value => factory.construct id value
    | none => throw (.hueException "Resource id is not valid")) := rfl

theorem constructAll_cons (key : String) (state : Json) (rest : List (Option String × Json)) :
    constructAll factory ((some key, state) :: rest) = (do
      let id ← Effect.ofExcept (maybeStoi key)
      let resource ← factory.construct id state
      return resource :: (← constructAll factory rest)) := rfl

theorem getAll_eq : getAll env list factory = (do
    let state ← APICache.getValue env list
    constructAll factory state.items) := rfl

end ResourceList

namespace GroupResourceList

variable (env : CacheEnv) (list : CacheId) {α ρ : Type} [IdType α] [Inhabited α] [DecidableEq α]
  (factory : ResourceFactory α ρ)

def existsGroup (id : α) : CacheM Bool := (ResourceList.listCache env list).existsGroup id

def getGroup (id : α) : CacheM ρ :=
  (ResourceList.listCache env list).getGroup factory.construct id

theorem existsGroup_eq (id : α) : existsGroup env list id =
    if id = default then pure true else ResourceList.existsResource env list id := rfl

theorem getGroup_eq (id : α) : getGroup env list factory id = (do
    let state ← APICache.getValue env list
    if id = default then factory.construct id (.arr [.null])
    else
      match state.find? (maybeToString id) with
      | some value => factory.construct id value
      | none => throw (.hueException "Resource id is not valid")) := rfl

/-- For other groups than group 0, `get` is that of all lists. -/
theorem getGroup_of_ne {id : α} (other : id ≠ default) :
    getGroup env list factory id = ResourceList.getResource env list factory id := by
  simp only [getGroup_eq, ResourceList.getResource_eq, if_neg other]

end GroupResourceList

/-- The ways to refer to a list, which select the overloads. A `const` list has no `get`. -/
inductive ListReference where
  | list
  | constList
  | groups

namespace ListReference

variable (env : CacheEnv) (list : CacheId) {α ρ : Type} [IdType α] [Inhabited α] [DecidableEq α]
  (factory : ResourceFactory α ρ)

def existsResource : ListReference → α → CacheM Bool
  | .list => ResourceList.existsResource env list
  | .constList => ResourceList.constExistsResource env list
  | .groups => GroupResourceList.existsGroup env list

def getResource : ListReference → α → CacheM ρ
  | .list | .constList => ResourceList.getResource env list factory
  | .groups => GroupResourceList.getGroup env list factory

end ListReference

/-- An operation of a list, or a call on a cache of its tree. -/
inductive ListCall (α : Type) where
  | create (params : Json)
  | removeResource (id : α)
  | existsResource (reference : ListReference) (id : α)
  | getResource (reference : ListReference) (id : α)
  | getAll
  | cache (call : CacheCall)

namespace ListCall

variable (env : CacheEnv) (list : CacheId) {α ρ : Type} [IdType α] [Inhabited α] [DecidableEq α]
  (factory : ResourceFactory α ρ)

/-- The caches after an operation, whether it returned or threw. -/
def run (s : Caches) : ListCall α → Caches
  | .create params => (result (ResourceList.create env list params : CacheM α) s).2
  | .removeResource id => (result (ResourceList.removeResource env list id) s).2
  | .existsResource reference id => (result (reference.existsResource env list id) s).2
  | .getResource reference id => (result (reference.getResource env list factory id) s).2
  | .getAll => (result (ResourceList.getAll env list factory) s).2
  | .cache call => call.run env s

/-- A list that has its cache by itself does not share it. -/
def Fits (list : CacheId) : ListCall α → Prop
  | .cache call => list = [] → call.id = []
  | _ => True

end ListCall

/-- Operations in any order, on the tree of caches as it is constructed. -/
def listSystem (env : CacheEnv) (list : CacheId) {α ρ : Type} [IdType α] [Inhabited α]
    [DecidableEq α] (factory : ResourceFactory α ρ) : System Caches (ListCall α) where
  init := Constructed env
  admissible _ call := call.Fits list
  step s call := call.run env list factory s

end Hueplusplus
