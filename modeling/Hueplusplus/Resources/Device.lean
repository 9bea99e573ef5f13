import Hueplusplus.Resources.Setters
import Hueplusplus.Utils

/-!
# Renaming a device

A light or a sensor has its JSON in a cache, by itself or on the cache of its list. The PUT
of `setName` goes to the path of that cache, but its reply is searched for the path of a
light with the device's id.
-/

namespace Hueplusplus

open Effect

structure BaseDevice where
  id : ℤ
  state : CacheId

namespace BaseDevice

variable (env : CacheEnv) (device : BaseDevice)

def sendPutRequest (subPath : String) (request : Json) : CacheM Json :=
  APICache.PUTRequest env (APICache.getRequestPath env device.state ++ subPath) request

def setName (name : String) : CacheM Bool := do
  let reply ← device.sendPutRequest env "/name" (.obj [("name", .str name)])
  -- the returned name is not necessarily the name that was set
  let name := Utils.safeGetMember reply 0 ["success", "/lights/" ++ toString device.id ++ "/name"]
  return name.isString

end BaseDevice

/-- The devices that a bridge has lists of. -/
inductive DeviceKind where
  | light
  | sensor
deriving DecidableEq

namespace DeviceKind

/-- The path of the list. -/
def listPath : DeviceKind → String
  | light => "/lights"
  | sensor => "/sensors"

/-- How the constructors place the cache of a device: by itself, or on the cache of its list. -/
inductive Placed (env : CacheEnv) (kind : DeviceKind) (device : BaseDevice) : Prop where
  | own (root : device.state = [])
    (path : env.path [] = kind.listPath ++ "/" ++ toString device.id)
  | shared (i : ℕ) (list : CacheId) (below : device.state = i :: list)
    (path : env.path (i :: list) = toString device.id)
    (listed : APICache.getRequestPath env list = kind.listPath)

/-- The path of the name of a device. -/
def namePath (kind : DeviceKind) (id : ℤ) : String :=
  kind.listPath ++ "/" ++ toString id ++ "/name"

variable {env : CacheEnv} {kind : DeviceKind} {device : BaseDevice}

theorem Placed.requestPath (placed : Placed env kind device) :
    APICache.getRequestPath env device.state ++ "/name" = kind.namePath device.id := by
  cases placed with
  | own root path => rw [root, APICache.getRequestPath, path, namePath]
  | shared i list below path listed =>
      rw [below, APICache.getRequestPath, path, listed, namePath]

/-- The first entry of a reply has a success object with a text under the path. -/
def Confirms (reply : Json) (path : String) : Prop :=
  ∃ first rest success text, reply = .arr (first :: rest) ∧
    first.find? "success" = some success ∧ success.find? path = some (.str text)

theorem isString_safeGetMember_iff {reply : Json} {path : String} :
    (Utils.safeGetMember reply 0 ["success", path]).isString = true ↔ Confirms reply path := by
  constructor
  · intro h
    obtain ⟨text, found⟩ := Json.isString_iff.mp h
    cases reply with
    | arr entries =>
        cases entries with
        | nil => exact nomatch found
        | cons first rest =>
            cases entry : first.find? "success" with
            | none =>
                simp only [Utils.safeGetMember, List.getElem?_cons_zero, Option.getD_some,
                  List.foldl_cons, List.foldl_nil, entry, Option.getD_none] at found
                exact nomatch found
            | some success =>
                simp only [Utils.safeGetMember, List.getElem?_cons_zero, Option.getD_some,
                  List.foldl_cons, List.foldl_nil, entry] at found
                cases member : success.find? path with
                | none =>
                    rw [member] at found
                    exact nomatch found
                | some value =>
                    rw [member] at found
                    exact ⟨first, rest, success, text, rfl, entry,
                      member.trans (congrArg some found)⟩
    | _ => exact nomatch found
  · rintro ⟨first, rest, success, text, rfl, entry, member⟩
    simp [Utils.safeGetMember, entry, member, Json.isString]

/-- The PUT of `setName`. -/
def putName (env : CacheEnv) (device : BaseDevice) (name : String) : CacheM Json :=
  APICache.PUTRequest env (APICache.getRequestPath env device.state ++ "/name")
    (.obj [("name", .str name)])

/-- `setName` returns true exactly if the bridge has confirmed the name under the device's path. -/
def Reports (env : CacheEnv) (device : BaseDevice) (name : String) (s : Caches) : Prop :=
  ∀ t, Returns (device.setName env name) s true t ↔
    ∃ reply, Returns (putName env device name) s reply t ∧
      Confirms reply (APICache.getRequestPath env device.state ++ "/name")

theorem returns_setName_iff (env : CacheEnv) (device : BaseDevice) (name : String)
    (s t : Caches) :
    Returns (device.setName env name) s true t ↔
      ∃ reply, Returns (putName env device name) s reply t ∧
        Confirms reply (namePath .light device.id) := by
  have lightPath : "/lights/" ++ toString device.id ++ "/name" = namePath .light device.id := rfl
  unfold BaseDevice.setName
  rw [returns_bind]
  constructor
  · rintro ⟨reply, u, put, done⟩
    obtain ⟨confirmed, rfl⟩ := returns_pure.mp done
    rw [lightPath, isString_safeGetMember_iff] at confirmed
    exact ⟨reply, put, confirmed⟩
  · rintro ⟨reply, put, confirmed⟩
    refine ⟨reply, t, put, returns_pure.mpr ⟨?_, rfl⟩⟩
    rw [lightPath, isString_safeGetMember_iff]
    exact confirmed

/-- Success is reported as it should be for lights, and for other devices where the bridge's reply
confirms the name of the light with the same id just if it confirms that of the device. -/
theorem setName_reports_iff (placed : Placed env kind device) (name : String) (s : Caches) :
    Reports env device name s ↔
      kind = .light ∨ ∀ reply t, Returns (putName env device name) s reply t →
        (Confirms reply (namePath .light device.id) ↔
          Confirms reply (namePath kind device.id)) := by
  unfold Reports
  simp only [returns_setName_iff, placed.requestPath]
  constructor
  · intro same
    right
    intro reply t put
    -- the PUT returns one reply only
    have only : ∀ {path : String}, (∃ reply, Returns (putName env device name) s reply t ∧
        Confirms reply path) ↔ Confirms reply path := by
      intro path
      constructor
      · rintro ⟨other, put', confirmed⟩
        have one := put.symm.trans put'
        simp only [Prod.mk.injEq, Except.ok.injEq, and_true] at one
        rwa [one]
      · exact fun confirmed => ⟨reply, put, confirmed⟩
    rw [← only, ← only]
    exact same t
  · rintro (rfl | alike) t
    · exact Iff.rfl
    · exact exists_congr fun reply => and_congr_right (alike reply t)

/-- A bridge with one sensor, which has a cache by itself, and that renames it. -/
def sensorCaches : CacheEnv where
  path _ := "/sensors/1"
  clock n := n + 1
  commands _ :=
    { ip := "192.168.2.1", port := 80, username := "username"
      httpHandler :=
        { getJson := fun _ _ _ _ _ => .ok .null
          putJson := fun _ _ _ _ _ =>
            .ok (.arr [.obj [("success", .obj [("/sensors/1/name", .str "Hall")])]])
          postJson := fun _ _ _ _ _ => .ok .null
          deleteJson := fun _ _ _ _ _ => .ok .null } }

def hallSensor : BaseDevice := ⟨1, []⟩

def newCaches : Caches := ⟨fun _ => ⟨0, 0, .null⟩, 0, 0, [], []⟩

theorem setName_reports_iff_hall :
    Reports sensorCaches hallSensor "Hall" newCaches ↔
      DeviceKind.sensor = .light ∨ ∀ reply t,
        Returns (putName sensorCaches hallSensor "Hall") newCaches reply t →
        (Confirms reply (namePath .light 1) ↔ Confirms reply (namePath .sensor 1)) :=
  setName_reports_iff (.own rfl rfl) "Hall" newCaches

/-- The renamed sensor's `setName` returns false. -/
theorem hallSensor_not_reported : ¬ Reports sensorCaches hallSensor "Hall" newCaches := by
  intro reports
  obtain ⟨t, put⟩ : ∃ t, Returns (putName sensorCaches hallSensor "Hall") newCaches
      (.arr [.obj [("success", .obj [("/sensors/1/name", .str "Hall")])]]) t := ⟨_, rfl⟩
  have returned := (reports t).mpr ⟨_, put, _, _, _, _, rfl, rfl, rfl⟩
  have result : (Effect.result (hallSensor.setName sensorCaches "Hall") newCaches).1 =
      .ok false := rfl
  rw [returned] at result
  exact absurd (Except.ok.inj result) (by decide)

theorem renamed_sensor_not_reported :
    ¬ ∀ (env : CacheEnv) (kind : DeviceKind) (device : BaseDevice) (name : String) (s : Caches),
      Placed env kind device → Reports env device name s := fun claim =>
  hallSensor_not_reported (claim sensorCaches .sensor hallSensor "Hall" newCaches (.own rfl rfl))

end DeviceKind

end Hueplusplus
