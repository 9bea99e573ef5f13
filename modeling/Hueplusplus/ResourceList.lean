import Hueplusplus.Bridge.Basic

/-!
# The operations of a list of resources

`ResourceList` and its derived classes are templates. Their operations only use the cache of the
list, through the functions below, and a way to construct a resource from its entry. So they are
defined here once, and again serve a bridge with all its calls as well as a tree of caches.
-/

namespace Hueplusplus

/-- The types of resource ids. -/
class IdType (α : Type) where
  maybeStoi : String → Except Exception α
  maybeToString : α → String

export IdType (maybeStoi maybeToString)

instance : IdType ℤ where
  maybeStoi key := Text.stoi key.toList
  maybeToString := toString

instance : IdType String where
  maybeStoi := .ok
  maybeToString := id

/-- What is used of the `stateCache` of a list. -/
structure ListCache (σ : Type) where
  getRequestPath : String
  getValue : Effect Exception σ Json
  refresh : Effect Exception σ Unit
  /-- A request through `getCommandAPI()`. -/
  request : HttpVerb → String → Json → Effect Exception σ Json

namespace ListCache

variable {σ : Type} (list : ListCache σ)

/-- The member `path` of the list. -/
def path : String := list.getRequestPath ++ "/"

variable {α ρ : Type} [IdType α] (construct : α → Json → Effect Exception σ ρ)

/-- The loop of `getAll`. Only the iterators of objects have a key. -/
def constructAll : List (Option String × Json) → Effect Exception σ (List ρ)
  | [] => return []
  | (none, _) :: _ => throw (.jsonException 207)
  | (some key, state) :: rest => do
    let id ← Effect.ofExcept (maybeStoi key)
    let resource ← construct id state
    return resource :: (← constructAll rest)

def getAll : Effect Exception σ (List ρ) := do
  let state ← list.getValue
  constructAll construct state.items

def getResource (id : α) : Effect Exception σ ρ := do
  let state ← list.getValue
  match state.find? (maybeToString id) with
  | some value => construct id value
  | none => throw (.hueException "Resource id is not valid")

def existsResource (id : α) : Effect Exception σ Bool := do
  let state ← list.getValue
  return state.count (maybeToString id)

/-- `exists` of a constant list. Its pointer is not one to a constant cache, so this updates the
cache as well. -/
def constExistsResource (id : α) : Effect Exception σ Bool := list.existsResource id

def removeResource (id : α) : Effect Exception σ Bool := do
  let requestPath := list.path ++ maybeToString id
  let result ← list.request .delete requestPath (.obj [])
  return decide (Utils.safeGetMember result 0 ["success"] = .str (requestPath ++ " deleted"))

def search (deviceIds : List String) : Effect Exception σ Unit := do
  let body := if deviceIds.isEmpty then Json.obj []
    else .obj [("deviceid", .arr (deviceIds.map .str))]
  let _ ← list.request .post list.getRequestPath body

/-- The response that `getNewDevices` parses. -/
def getNewDevices : Effect Exception σ Json := list.request .get (list.path ++ "new") (.obj [])

variable [Inhabited α]

/-- `CreateableResourceList::create`. The path of its request has no slash at the end. -/
def create (params : Json) : Effect Exception σ α := do
  let response ← list.request .post list.getRequestPath params
  match Utils.safeGetMember response 0 ["success", "id"] with
  | .str idStr =>
    list.refresh
    Effect.ofExcept (maybeStoi ((Utils.dropStart? list.path idStr).getD idStr))
  | _ => return default

variable [DecidableEq α]

/-- `GroupResourceList::get`. The default id is that of group 0. -/
def getGroup (id : α) : Effect Exception σ ρ := do
  let state ← list.getValue
  -- the list form of `json {nullptr}` is an array
  if id = default then construct id (.arr [.null])
  else
    match state.find? (maybeToString id) with
    | some value => construct id value
    | none => throw (.hueException "Resource id is not valid")

/-- `GroupResourceList::exists`, which is constant. -/
def existsGroup (id : α) : Effect Exception σ Bool :=
  if id = default then return true else list.constExistsResource id

end ListCache

end Hueplusplus
