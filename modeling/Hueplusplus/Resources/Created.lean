import Hueplusplus.Resources.OwnChanges
import Hueplusplus.Resources.Schedule

/-!
# What a list gets of a created resource

A builder collects a request, `create` sends it, and `get` constructs the resource from the list
that was fetched last. What the builder was given is shown by the resource then, whatever else
is done with the list in between.
-/

namespace Hueplusplus

open Effect APICache Caches

namespace ResourceList

/-- The entry of a list under this key. -/
def entry? (key : String) (value : Option Json) : Option Json := value.bind (·.find? key)

/-- There is an entry, and it is of this kind. -/
def HasEntry (key : String) (kind : Json → Prop) (value : Option Json) : Prop :=
  ∃ entry, entry? key value = some entry ∧ kind entry

section Entries

variable {env : CacheEnv} {list : CacheId} {s t : Caches} {new : List Fetch} {key : String}
  {kind : Json → Prop}

/-- An entry stays of its kind if all replies agree about that. -/
theorem Tracks.hasEntry (tracks : Tracks env list s new t)
    (replies : ∀ f ∈ new, Concerns list f → HasEntry key kind (fetchedList env list f))
    (start : HasEntry key kind (cached env list s)) : HasEntry key kind (cached env list t) := by
  induction tracks with
  | refl => exact start
  | tail _ last ih =>
      rw [List.forall_mem_append] at replies
      cases last with
      | unchanged _ value => exact value ▸ ih replies.2
      | fetched _ concerns value => exact value ▸ replies.1 _ (by simp) concerns

variable {α ρ : Type} [IdType α]

/-- `get` constructs the entry of the list, as it is after the query. -/
theorem result_getResource_of_entry (placed : Placed env list) (factory : ResourceFactory α ρ)
    {id : α} {entry : Json} (answered : ¬ RefreshFails env list s)
    (found : entry? (maybeToString id) (cached env list (queried env list s)) = some entry) :
    result (getResource env list factory id) s =
      result (factory.construct id entry) (queried env list s) := by
  obtain ⟨value, there, member⟩ := Option.bind_eq_some_iff.mp found
  rw [getResource_eq, result_bind, (result_getValue_cached placed answered).1,
    result_cachedValue_cached placed, there]
  simp only [member]

variable [Inhabited α] [DecidableEq α]

/-- In every run after `create`, `get` constructs the resource from an entry of the kind that all
replies have, unless it throws at a refresh. -/
theorem getResource_of_create (ticks : ∀ n, env.clock n ≠ 0) (placed : Placed env list)
    (factory : ResourceFactory α ρ) {id : α} {params : Json}
    (created : Returns (create env list params) s id t) (other : id ≠ default)
    {calls : List (ListCall α)} (fits : ∀ call ∈ calls, call.Fits list)
    (replies : ∀ f ∈ fetchedSince s (queried env list ((listSystem env list factory).run t calls)),
      Concerns list f → HasEntry (maybeToString id) kind (fetchedList env list f)) :
    RefreshFails env list ((listSystem env list factory).run t calls) ∨
      ∃ entry, kind entry ∧
        result (getResource env list factory id) ((listSystem env list factory).run t calls) =
          result (factory.construct id entry)
            (queried env list ((listSystem env list factory).run t calls)) := by
  obtain ⟨f, concerns, log, value⟩ := fetched_of_create placed created other
  obtain ⟨between, tracks⟩ := reaches_run factory ticks placed calls fits t
  generalize (listSystem env list factory).run t calls = u at replies tracks ⊢
  obtain ⟨new, query⟩ : Reaches env list u (queried env list u) := within_getValue ticks placed u
  have all : fetchedSince s (queried env list u) = (new ++ between) ++ [f] := by
    apply fetchedSince_eq
    rw [(tracks.trans query).log, log, List.append_assoc (new ++ between)]
    rfl
  rw [all, List.forall_mem_append] at replies
  have start : HasEntry (maybeToString id) kind (cached env list t) :=
    value ▸ replies.2 f (List.mem_singleton_self f) concerns
  obtain ⟨entry, found, good⟩ := (tracks.trans query).hasEntry replies.1 start
  by_cases fails : RefreshFails env list u
  · exact .inl fails
  · exact .inr ⟨entry, good, result_getResource_of_entry placed factory fails found⟩

end Entries

end ResourceList

namespace CreateSchedule

open ResourceList Time

/-- A resource has every member of the request. -/
def Keeps (request value : Json) : Prop :=
  ∀ key, value.find? key = request.find? key ∨ request.find? key = none

/-- A schedule is built, created and got from its list after any run of operations. What it is
constructed from shows for each attribute what the last call about that was given, if the
bridge keeps what it was sent. Else `get` throws at a refresh. -/
theorem created_schedule_is_got {zone : TimeZone} {params : CreateSchedule}
    {call : Schedule.Call} {before after : List Call}
    (ran : (before ++ .schedule call :: after).foldlM (Call.run zone) new = .ok params)
    (untouched : ∀ later ∈ after, later.key ≠ call.key)
    {env : CacheEnv} (ticks : ∀ n, env.clock n ≠ 0) {list : CacheId} (placed : Placed env list)
    {ρ : Type} (factory : ResourceFactory ℤ ρ) {s t : Caches} {id : ℤ}
    (created : Returns (create env list params.getRequest) s id t) (other : id ≠ 0)
    {calls : List (ListCall ℤ)} (fits : ∀ call ∈ calls, call.Fits list)
    (kept : ∀ f ∈ fetchedSince s (queried env list ((listSystem env list factory).run t calls)),
      Concerns list f →
        HasEntry (maybeToString id) (Keeps params.getRequest) (fetchedList env list f)) :
    RefreshFails env list ((listSystem env list factory).run t calls) ∨
      ∃ json, call.Shown zone json ∧
        result (getResource env list factory id) ((listSystem env list factory).run t calls) =
          result (factory.construct id json)
            (queried env list ((listSystem env list factory).run t calls)) := by
  rcases getResource_of_create ticks placed factory created other fits kept with
    fails | ⟨json, keeps, got⟩
  · exact .inl fails
  · exact .inr ⟨json, created_schedule_shows ran untouched keeps, got⟩

def createdSchedule : Json :=
  .obj [("name", .str "schedule"), ("recycle", .bool true), ("status", .str "enabled")]

/-- A bridge that has created this schedule as number 1. -/
def createdCaches : CacheEnv where
  path _ := "/schedules"
  clock n := n + 1
  commands _ :=
    { ip := "192.168.2.1", port := 80, username := "username"
      httpHandler :=
        { getJson := fun _ _ _ _ _ => .ok (.obj [("1", createdSchedule)])
          putJson := fun _ _ _ _ _ => .ok .null
          postJson := fun _ _ _ _ _ => .ok (.arr [.obj [("success", .obj [("id", .str "1")])]])
          deleteJson := fun _ _ _ _ _ => .ok .null } }

def valueFactory : ResourceFactory ℤ Json where
  construct _ state := pure state
  keeps _ _ _ := ⟨rfl, rfl⟩

/-- Before and after the schedule is created. -/
def emptyCaches : Caches := ⟨fun _ => ⟨0, 0, .null⟩, 0, 0, [], []⟩

def scheduleCreated : Caches :=
  (ListCall.create (.obj [("recycle", .bool true), ("status", .str "enabled")])).run
    createdCaches []
    valueFactory emptyCaches

/-- The schedule is got after the list has been queried. -/
theorem created_schedule_is_got_enabled :
    ∃ json, Schedule.isEnabled json = .ok true ∧
      (result (getResource createdCaches [] valueFactory 1)
        ((listSystem createdCaches [] valueFactory).run scheduleCreated [.getAll])).1 =
          .ok json := by
  have kept : ∀ f ∈ fetchedSince emptyCaches (queried createdCaches []
      ((listSystem createdCaches [] valueFactory).run scheduleCreated [.getAll])),
      Concerns [] f → HasEntry (maybeToString (1 : ℤ))
        (Keeps (.obj [("recycle", .bool true), ("status", .str "enabled")]))
        (fetchedList createdCaches [] f) := by
    have keeps : Keeps (.obj [("recycle", .bool true), ("status", .str "enabled")])
        createdSchedule := by
      intro key
      by_cases recycle : key = "recycle"
      · subst recycle
        exact .inl rfl
      · by_cases status : key = "status"
        · subst status
          exact .inl rfl
        · refine .inr ?_
          simp [Json.find?, AssocList.find?_cons, Ne.symm recycle, Ne.symm status]
    obtain ⟨first, second, third, fetched⟩ : ∃ first second third, fetchedSince emptyCaches
        (queried createdCaches [] ((listSystem createdCaches [] valueFactory).run scheduleCreated
          [.getAll])) = [first, second, third].map fun time =>
            ⟨[], time, .obj [("1", createdSchedule)]⟩ := ⟨_, _, _, rfl⟩
    rw [fetched]
    intro f member _
    obtain ⟨time, -, rfl⟩ := List.mem_map.mp member
    exact ⟨createdSchedule, rfl, keeps⟩
  rcases @created_schedule_is_got utc
    ⟨.obj [("recycle", .bool true), ("status", .str "enabled")]⟩ (.setEnabled true)
    [.schedule (.setEnabled false)] [.setRecycle true] rfl (by simp [Call.key, Schedule.Call.key])
    createdCaches (fun n => by simp only [createdCaches]; omega) [] .alone Json valueFactory
    emptyCaches scheduleCreated 1 rfl (by decide) [.getAll] (by simp [ListCall.Fits]) kept with
    ⟨-, e, failed⟩ | ⟨json, shown, got⟩
  · cases failed
  · exact ⟨json, shown, congrArg Prod.fst got⟩

end CreateSchedule

end Hueplusplus
