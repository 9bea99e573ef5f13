import Hueplusplus.Resources.OwnChanges

/-!
# The views of a list by its ids

`getAll` converts the keys of the cached list to ids, `exists` and `get` convert an id to a key.
For ids in decimal the two conversions are inverse. So until the list is fetched again, the
three functions show the same ids with the same JSON.
-/

namespace Hueplusplus

open Effect APICache Caches

theorem maybeToString_injective : Function.Injective (maybeToString : ℤ → String) := by
  intro m n same
  apply Text.ofInt_injective
  rw [← Text.toList_toString, ← Text.toList_toString]
  exact congrArg String.toList same

theorem maybeStoi_maybeToString {n : ℤ} (h : Text.IsInt n) :
    maybeStoi (maybeToString n) = (.ok n : Except Exception ℤ) := by
  change Text.stoi (toString n).toList = _
  rw [Text.toList_toString, Text.stoi_ofInt h]

/-- A list of resources whose keys are the decimals of values of type `int`. -/
structure IdList where
  entries : List (ℤ × Json)
  ordered : AssocList.Ordered (entries.map fun entry => (maybeToString entry.1, entry.2))
  ints : ∀ entry ∈ entries, Text.IsInt entry.1

namespace IdList

def json (list : IdList) : Json :=
  .obj (list.entries.map fun entry => (maybeToString entry.1, entry.2))

def ids (list : IdList) : List ℤ := list.entries.map Prod.fst

variable (list : IdList)

@[simp] theorem items_json :
    list.json.items = list.entries.map fun entry => (some (maybeToString entry.1), entry.2) :=
  List.map_map

theorem nodup_ids : list.ids.Nodup := by
  refine List.Pairwise.map Prod.fst ?_ (List.pairwise_map.mp list.ordered)
  exact fun a b below same => ne_of_lt below (congrArg maybeToString same)

theorem find?_json_iff {n : ℤ} {value : Json} :
    list.json.find? (maybeToString n) = some value ↔ (n, value) ∈ list.entries := by
  change AssocList.find? _ _ = _ ↔ _
  rw [list.ordered.find?_iff, List.mem_map]
  constructor
  · rintro ⟨⟨m, json⟩, member, same⟩
    obtain ⟨key, rfl⟩ := Prod.mk.inj same
    rwa [← maybeToString_injective key]
  · exact fun member => ⟨(n, value), member, rfl⟩

@[simp] theorem count_json (n : ℤ) : list.json.count (maybeToString n) = true ↔ n ∈ list.ids := by
  rw [Json.count, Option.isSome_iff_exists, ids, List.mem_map]
  constructor
  · rintro ⟨value, found⟩
    exact ⟨(n, value), list.find?_json_iff.mp found, rfl⟩
  · rintro ⟨⟨_, value⟩, member, rfl⟩
    exact ⟨value, list.find?_json_iff.mpr member⟩

end IdList

/-- A factory whose resources have the ids that they are constructed with. -/
structure IdFactory (ρ : Type) extends ResourceFactory ℤ ρ where
  getId : ρ → ℤ
  identified : ∀ {id state s resource t}, Returns (construct id state) s resource t →
    getId resource = id

namespace ResourceList

variable {env : CacheEnv} {list : CacheId} {ρ : Type}

section Loop

variable (factory : ResourceFactory ℤ ρ)

/-- Construct a resource from each entry. -/
def constructEach : List (ℤ × Json) → CacheM (List ρ)
  | [] => return []
  | (id, state) :: rest => do
    let resource ← factory.construct id state
    return resource :: (← constructEach rest)

/-- The keys are converted to the ids. -/
theorem constructAll_items (content : IdList) :
    constructAll factory content.json.items = constructEach factory content.entries := by
  rw [content.items_json]
  have ints := content.ints
  generalize content.entries = entries at ints ⊢
  induction entries with
  | nil => rfl
  | cons entry rest ih =>
      have converted := maybeStoi_maybeToString (ints entry List.mem_cons_self)
      simp only [List.map_cons, constructAll_cons, constructEach, converted,
        ih fun other member => ints other (List.mem_cons_of_mem _ member)]
      rfl

/-- The resource is constructed from this entry, in some state of the caches. -/
def Made (entry : ℤ × Json) (resource : ρ) : Prop :=
  ∃ s t, Returns (factory.construct entry.1 entry.2) s resource t

theorem made_of_constructEach {entries : List (ℤ × Json)} {s t : Caches} {resources : List ρ}
    (returned : Returns (constructEach factory entries) s resources t) :
    List.Forall₂ (Made factory) entries resources := by
  induction entries generalizing s resources with
  | nil =>
      obtain ⟨rfl, -⟩ := returns_pure.mp returned
      exact .nil
  | cons entry rest ih =>
      obtain ⟨resource, middle, made, returned⟩ := returns_bind.mp returned
      obtain ⟨others, last, later, returned⟩ := returns_bind.mp returned
      obtain ⟨rfl, rfl⟩ := returns_pure.mp returned
      exact .cons ⟨s, middle, made⟩ (ih later)

/-- The construction from this entry does not throw. -/
def Constructible (entry : ℤ × Json) : Prop :=
  ∀ s, ∃ resource t, Returns (factory.construct entry.1 entry.2) s resource t

theorem constructEach_returns {entries : List (ℤ × Json)}
    (all : ∀ entry ∈ entries, Constructible factory entry) (s : Caches) :
    ∃ resources t, Returns (constructEach factory entries) s resources t := by
  induction entries generalizing s with
  | nil => exact ⟨[], s, rfl⟩
  | cons entry rest ih =>
      rw [List.forall_mem_cons] at all
      obtain ⟨resource, middle, made⟩ := all.1 s
      obtain ⟨others, t, later⟩ := ih all.2 middle
      refine ⟨resource :: others, t, returns_bind.mpr ⟨resource, middle, made, ?_⟩⟩
      exact returns_bind.mpr ⟨others, t, later, rfl⟩

end Loop

/-- A list that was not fetched is cached as before. -/
theorem Tracks.unfetched {s t : Caches} {new : List Fetch} (tracks : Tracks env list s new t)
    (nothing : ∀ f ∈ new, ¬ Concerns list f) : cached env list t = cached env list s := by
  induction tracks with
  | refl => rfl
  | tail _ last ih =>
      rw [List.forall_mem_append] at nothing
      cases last with
      | unchanged _ value => exact value.trans (ih nothing.2)
      | fetched _ concerns => exact absurd concerns (nothing.1 _ (List.mem_singleton_self _))

/-- The constructions by `getAll` and `get`, and what exists, are those of the entries. -/
structure Views (env : CacheEnv) (list : CacheId) (factory : IdFactory ρ) (content : IdList)
    (t : Caches) : Prop where
  /-- The elements have the ids of the entries and are made from them, one after the other. -/
  elements : ∀ {resources u}, Returns (getAll env list factory.toResourceFactory) t resources u →
    resources.map factory.getId = content.ids ∧
      List.Forall₂ (Made factory.toResourceFactory) content.entries resources
  returns : (∀ entry ∈ content.entries, Constructible factory.toResourceFactory entry) →
    ∃ resources u, Returns (getAll env list factory.toResourceFactory) t resources u
  exists_iff : ∀ reference, reference ≠ .groups → ∀ n,
    Exists env list reference n t ↔ n ∈ content.ids
  get_of_mem : ∀ {n json}, (n, json) ∈ content.entries →
    result (getResource env list factory.toResourceFactory n) t =
      result (factory.construct n json) (queried env list t)
  get_of_notMem : ∀ {n}, n ∉ content.ids →
    (result (getResource env list factory.toResourceFactory n) t).1 =
      .error (.hueException "Resource id is not valid")

theorem map_getId {factory : IdFactory ρ} {entries : List (ℤ × Json)} {resources : List ρ}
    (made : List.Forall₂ (Made factory.toResourceFactory) entries resources) :
    resources.map factory.getId = entries.map Prod.fst := by
  induction made with
  | nil => rfl
  | cons first _ ih =>
      obtain ⟨s, t, returned⟩ := first
      rw [List.map_cons, List.map_cons, ih, factory.identified returned]

section Queries

variable {content : IdList} {t : Caches} (placed : Placed env list)
  (listed : cached env list t = some content.json) (fresh : ¬ Outdated env list t)
include placed listed fresh

theorem result_getValue_listed :
    result (getValue env list) t = (.ok content.json, queried env list t) := by
  obtain ⟨ran, -, keeps⟩ := result_getValue_cached placed fun fails => fresh fails.1
  rw [ran, result_cachedValue_cached placed, keeps fresh, listed]

theorem views_of_listed (factory : IdFactory ρ) :
    Views env list factory content t := by
  have value := result_getValue_listed placed listed fresh
  have all : result (getAll env list factory.toResourceFactory) t =
      result (constructEach factory.toResourceFactory content.entries) (queried env list t) := by
    rw [getAll_eq, result_bind, value]
    exact congrArg (result · _) (constructAll_items _ content)
  refine ⟨fun returned => ?_, fun every => ?_, fun reference own n => ?_, fun member => ?_,
    fun absent => ?_⟩
  · have made := made_of_constructEach _ (all.symm.trans returned)
    exact ⟨map_getId made, made⟩
  · obtain ⟨resources, u, returned⟩ :=
      constructEach_returns _ every (queried env list t)
    exact ⟨resources, u, all.trans returned⟩
  · obtain ⟨-, -, keeps⟩ := result_getValue_cached placed fun fails => fresh fails.1
    rw [← content.count_json, exists_iff placed, keeps fresh, listed, lists, Option.any_some,
      and_iff_right fun fails => fresh fails.1, or_iff_right fun all => own all.1]
  · rw [getResource_eq, result_bind, value]
    simp only [content.find?_json_iff.mpr member]
  · have none : content.json.find? (maybeToString _) = none :=
      Option.eq_none_iff_forall_ne_some.mpr fun json found =>
        absent (List.mem_map.mpr ⟨_, content.find?_json_iff.mp found, rfl⟩)
    rw [getResource_eq, result_bind, value]
    simp [none]

end Queries

/-- Operations and calls in any order lead from one state to the other, without a fetch of the
list. -/
def Kept (env : CacheEnv) (list : CacheId) (factory : ResourceFactory ℤ ρ) (s t : Caches) : Prop :=
  ∃ calls : List (ListCall ℤ), (∀ call ∈ calls, call.Fits list) ∧
    t = (listSystem env list factory).run s calls ∧ ∀ f ∈ fetchedSince s t, ¬ Concerns list f

section Runs

variable (ticks : ∀ n, env.clock n ≠ 0) (placed : Placed env list)
include ticks placed

theorem Kept.listed {factory : ResourceFactory ℤ ρ} {s t : Caches}
    (kept : Kept env list factory s t) {content : IdList}
    (listed : cached env list s = some content.json) :
    cached env list t = some content.json := by
  obtain ⟨calls, fits, rfl, unfetched⟩ := kept
  obtain ⟨new, tracks⟩ := reaches_run factory ticks placed calls fits s
  rw [fetchedSince_eq tracks.log] at unfetched
  exact (tracks.unfetched unfetched).trans listed

/-- While the list is not fetched, its ids are distinct, those of `getAll` are those that exist,
and `get` constructs them and no others from the same JSON. -/
theorem views_agree (factory : IdFactory ρ) {s : Caches} {content : IdList}
    (listed : cached env list s = some content.json) :
    content.ids.Nodup ∧ ∀ t, Kept env list factory.toResourceFactory s t →
      ¬ Outdated env list t → Views env list factory content t := by
  refine ⟨content.nodup_ids, fun t kept fresh => ?_⟩
  have still := kept.listed ticks placed listed
  exact views_of_listed placed still fresh factory

end Runs

/-- `createLight` of a factory whose lights share the cache of their list. -/
def createLight (list : CacheId) (id : ℤ) (lightState : Json) : CacheM (Resource ℤ) := do
  let type ← Effect.ofExcept (LightFactory.typeName lightState)
  let _ ← Effect.ofExcept (LightFactory.checkLightType type lightState)
  return ⟨id, .shared list⟩

theorem within_createLight (list : CacheId) (id : ℤ) (lightState : Json) :
    Within Eq (createLight list id lightState) :=
  (within_ofExcept _).bind fun _ => (within_ofExcept _).bind fun _ => within_pure _

def lightFactory (list : CacheId) : IdFactory (Resource ℤ) where
  construct := createLight list
  keeps id state s := by
    rw [← within_createLight list id state s]
    exact ⟨rfl, rfl⟩
  getId := Resource.id
  identified returned := by
    obtain ⟨_, _, _, returned⟩ := returns_bind.mp returned
    obtain ⟨_, _, _, returned⟩ := returns_bind.mp returned
    obtain ⟨rfl, -⟩ := returns_pure.mp returned
    rfl

/-- The lights of a bridge with one light of this type. -/
def oneLight (type : String) : IdList where
  entries := [(1, .obj [("type", .str type)])]
  ordered := List.pairwise_singleton _ _
  ints := by simp [Text.IsInt]

def oneLightCaches (type : String) : CacheEnv where
  path id := if id = [0] then "lights" else ""
  clock n := n + 1
  commands _ :=
    { ip := "192.168.2.1", port := 80, username := "username"
      httpHandler :=
        { getJson := fun _ _ _ _ _ => .ok (.obj [("lights", (oneLight type).json)])
          putJson := fun _ _ _ _ _ => .ok .null
          postJson := fun _ _ _ _ _ => .ok .null
          deleteJson := fun _ _ _ _ _ => .ok .null } }

theorem oneLightCaches_ticks (type : String) (n : ℕ) : (oneLightCaches type).clock n ≠ 0 := by
  simp only [oneLightCaches]
  omega

theorem oneLightCaches_placed (type : String) : Placed (oneLightCaches type) [0] :=
  placed_of_path rfl (by decide)

/-- After the lights have been fetched. -/
def lightsCached (type : String) : Caches :=
  (ListCall.existsResource .list 1).run (oneLightCaches type) [0]
    (lightFactory [0]).toResourceFactory newCaches

theorem lightsCached_reachable (type : String) :
    (listSystem (oneLightCaches type) [0] (lightFactory [0]).toResourceFactory).Reachable
      (lightsCached type) :=
  .step (M := listSystem (oneLightCaches type) [0] (lightFactory [0]).toResourceFactory)
    (.existsResource .list 1) (.init (newCaches_constructed _)) trivial

theorem lightsCached_listed (type : String) :
    cached (oneLightCaches type) [0] (lightsCached type) = some (oneLight type).json := rfl

theorem lightsCached_fresh (type : String) :
    ¬ Outdated (oneLightCaches type) [0] (lightsCached type) :=
  Bool.false_ne_true

theorem views_agree_dimmable :
    Views (oneLightCaches "Dimmable light") [0] (lightFactory [0]) (oneLight "Dimmable light")
      (lightsCached "Dimmable light") :=
  (views_agree (oneLightCaches_ticks _) (oneLightCaches_placed _) (lightFactory [0])
    (lightsCached_listed _)).2 _
      ⟨[], nofun, rfl, by simp [fetchedSince]⟩ (lightsCached_fresh _)

theorem lightType?_unknown : LightFactory.lightType? "Unknown" = none := by
  have lower : "Unknown".map Char.toLower = "unknown" := by
    rw [← String.toList_inj]
    simp
  rw [LightFactory.lightType?, lower]
  rfl

theorem createLight_unknown (list : CacheId) (id : ℤ) (s : Caches) :
    result (createLight list id (.obj [("type", .str "Unknown")])) s =
      (.error (.hueException "Could not determine Light type!"), s) := by
  have type : LightFactory.typeName (.obj [("type", .str "Unknown")]) = .ok "Unknown" := rfl
  simp [createLight, type, LightFactory.checkLightType, lightType?_unknown]

/-- A light whose type is not known exists, but `get` throws. -/
theorem exists_without_get :
    ¬ ∀ (env : CacheEnv) (list : CacheId) (factory : IdFactory (Resource ℤ)) (content : IdList)
      (s : Caches), (∀ n, env.clock n ≠ 0) → Placed env list →
      (listSystem env list factory.toResourceFactory).Reachable s →
      cached env list s = some content.json → ¬ Outdated env list s →
      ∀ n, Exists env list .list n s →
        ∃ resource t, Returns (getResource env list factory.toResourceFactory n) s resource t := by
  intro claim
  have placed := oneLightCaches_placed "Unknown"
  have listed := lightsCached_listed "Unknown"
  have fresh := lightsCached_fresh "Unknown"
  have exist : Exists (oneLightCaches "Unknown") [0] .list (1 : ℤ) (lightsCached "Unknown") := rfl
  obtain ⟨resource, t, returned⟩ := claim _ [0] (lightFactory [0]) _ _
    (oneLightCaches_ticks "Unknown") placed (lightsCached_reachable _) listed fresh 1 exist
  have found : (oneLight "Unknown").json.find? (maybeToString (1 : ℤ)) =
      some (.obj [("type", .str "Unknown")]) := rfl
  rw [Returns, getResource_eq, result_bind, result_getValue_listed placed listed fresh] at returned
  simp only [found] at returned
  cases (Prod.mk.inj ((createLight_unknown _ _ _).symm.trans returned)).1

end ResourceList

end Hueplusplus
