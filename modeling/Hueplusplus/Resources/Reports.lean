import Hueplusplus.Resources.LightStates
import Hueplusplus.TimePattern.UTC

/-!
# Reports of the bridge

The bridge reports the devices that its last scan has found and the users that it knows. Devices
are under their decimal ids, next to a member that is not a device, the time of the scan. Each
user comes with two times. All of these times are in UTC, so a report about many users changes
the time zone of the process back and forth.
-/

namespace Hueplusplus

open Calendar Effect Time

structure NewDeviceList where
  lastScan : String
  devices : OrderedMap ℤ String

namespace NewDeviceList

def hasLastScanTime (list : NewDeviceList) : Bool :=
  !(list.lastScan.isEmpty) && list.lastScan != "none" && list.lastScan != "active"

def isScanActive (list : NewDeviceList) : Bool := list.lastScan == "active"

def getLastScanTime (zones : Option Text → TimeZone) (list : NewDeviceList) :
    Process AbsoluteTime :=
  AbsoluteTime.parseUTC zones list.lastScan.toList

/-- One step of the loop of `parse`. -/
def parseItem (list : NewDeviceList) (item : Option String × Json) :
    Except Exception NewDeviceList := do
  let key ← Json.iteratorKey item.1
  if key = "lastscan" then return { list with lastScan := ← item.2.getString }
  else
    let id ← Text.stoi key.toList
    return { list with devices := list.devices.emplace id (← (← Json.at' item.2 "name").getString) }

def parse (json : Json) : Except Exception NewDeviceList :=
  json.items.foldlM parseItem ⟨"", .empty⟩

/-- The JSON reports the devices under their decimal ids, each with its name and maybe more. -/
def Reports (list : NewDeviceList) (json : Json) : Prop :=
  ∃ info : String → Json, (∀ name, (info name).find? "name" = some (.str name)) ∧
    json = .obj (AssocList.insert "lastscan" (.str list.lastScan)
      (AssocList.mapValues info (list.devices.respell toString)))

theorem foldlM_parseItem {info : String → Json}
    (named : ∀ name, (info name).find? "name" = some (.str name))
    {entries : List (String × String)} (devices : ∀ entry ∈ entries, entry.1 ≠ "lastscan")
    (list : NewDeviceList) :
    (Json.obj (AssocList.mapValues info entries)).items.foldlM parseItem list =
      (fun devices => ⟨list.lastScan, devices⟩) <$>
        entries.foldlM (m := Except Exception) (fun devices entry => do
          return devices.emplace (← Text.stoi entry.1.toList) entry.2) list.devices := by
  induction entries generalizing list with
  | nil => rfl
  | cons entry entries ih =>
      have name := Json.at'_of_find? (named entry.2)
      have later := fun other member => devices other (List.mem_cons_of_mem entry member)
      rw [Json.items, AssocList.mapValues, List.map_cons, List.map_cons, List.foldlM_cons,
        List.foldlM_cons, parseItem, Json.iteratorKey, Except.ok_bind,
        if_neg (devices entry List.mem_cons_self)]
      cases (Text.stoi entry.1.toList : Except Exception ℤ) with
      | error e => rfl
      | ok id =>
        simp only [name, Except.ok_bind, Json.getString, Except.pure_eq_ok]
        exact ih later _

/-- A report is parsed as the list that it is about. -/
theorem parse_of_reports {list : NewDeviceList} {json : Json}
    (ints : ∀ id name, (id, name) ∈ list.devices.entries → Text.IsInt id)
    (reports : list.Reports json) : parse json = .ok list := by
  obtain ⟨info, named, rfl⟩ := reports
  have reads (id : ℤ) (name : String) (member : (id, name) ∈ list.devices.entries) :
      Text.stoi (toString id).toList = (.ok id : Except Exception ℤ) := by
    rw [Text.toList_toString, Text.stoi_ofInt (ints id name member)]
  have ran := @OrderedMap.readKeys_respell ℤ String String Exception _
    (fun key => Text.stoi key.toList) _ toString list.devices reads
  have devices : ∀ entry ∈ list.devices.respell toString, entry.1 ≠ "lastscan" := by
    rintro ⟨key, name⟩ member rfl
    obtain ⟨id, spelled, inside⟩ := OrderedMap.mem_of_mem_respell member
    have read := reads id name inside
    have unread : Text.stoi "lastscan".toList =
        (.error (.invalidArgument "stoi") : Except Exception ℤ) := by decide
    rw [spelled, unread] at read
    cases read
  have fresh : ∀ member ∈ AssocList.mapValues info (list.devices.respell toString),
      member.1 ≠ "lastscan" := by
    intro member inside
    obtain ⟨entry, listed, rfl⟩ := List.mem_map.mp inside
    exact devices entry listed
  obtain ⟨before, after, split, inserted⟩ :=
    AssocList.insert_of_fresh fresh (.str list.lastScan)
  obtain ⟨first, rest, whole, rfl, rfl⟩ := List.map_eq_append_iff.mp split
  rw [whole] at devices
  rw [OrderedMap.readKeys, whole, List.foldlM_append] at ran
  obtain ⟨found, firstRan, restRan⟩ := Except.bind_eq_ok_iff.mp ran
  have firstParsed := foldlM_parseItem named
    (fun entry member => devices entry (List.mem_append_left rest member)) ⟨"", .empty⟩
  have restParsed := foldlM_parseItem named
    (fun entry member => devices entry (List.mem_append_right first member))
    ⟨list.lastScan, found⟩
  rw [firstRan] at firstParsed
  rw [restRan] at restParsed
  rw [inserted, parse, Json.items, List.map_append, List.map_cons, List.foldlM_append]
  change (Json.obj (AssocList.mapValues info first)).items.foldlM parseItem _ >>= _ = _
  rw [firstParsed]
  exact restParsed

/-- The time of a scan that is over is not taken for a scan that is active. -/
theorem hasLastScanTime_utcTimestamp {time : DateTime} (inClock : InClock time.instant)
    (devices : OrderedMap ℤ String) :
    hasLastScanTime ⟨String.ofList (utcTimestamp time), devices⟩ = true ∧
      isScanActive ⟨String.ofList (utcTimestamp time), devices⟩ = false := by
  have other : ∀ {s : String}, s.toList.length ≠ 19 → String.ofList (utcTimestamp time) ≠ s := by
    rintro s length rfl
    rw [String.toList_ofList] at length
    exact length (length_utcTimestamp inClock)
  have some : String.ofList (utcTimestamp time) ≠ "" := other (by decide)
  have none : String.ofList (utcTimestamp time) ≠ "none" := other (by decide)
  have active : String.ofList (utcTimestamp time) ≠ "active" := other (by decide)
  simp [hasLastScanTime, isScanActive, some, none, active]

end NewDeviceList

/-- A member that is a time in UTC. -/
def utcMember (zones : Option Text → TimeZone) (json : Json) (key : String) :
    Process AbsoluteTime := do
  let text ← Effect.ofExcept (do (← json.at' key).getString)
  AbsoluteTime.parseUTC zones text.toList

structure WhitelistedUser where
  key : String
  name : String
  lastUsed : AbsoluteTime
  created : AbsoluteTime

namespace BridgeConfig

variable (zones : Option Text → TimeZone)

def readUser (item : Option String × Json) : Process WhitelistedUser := do
  let key ← Effect.ofExcept (Json.iteratorKey item.1)
  let name ← Effect.ofExcept (do (← Json.at' item.2 "name").getString)
  let lastUsed ← utcMember zones item.2 "last use date"
  let created ← utcMember zones item.2 "create date"
  return ⟨key, name, lastUsed, created⟩

/-- The loop of `getWhitelistedUsers`. -/
def readUsers : List (Option String × Json) → Process (List WhitelistedUser)
  | [] => return []
  | item :: items => do
    let user ← readUser zones item
    return user :: (← readUsers items)

/-- `getWhitelistedUsers`, by the JSON that the constant `getValue` returns. -/
def getWhitelistedUsers (config : Json) : Process (List WhitelistedUser) := do
  let whitelist ← Effect.ofExcept <| config.at' "whitelist"
  readUsers zones whitelist.items

end BridgeConfig

/-- A time that can be read from a report. The clock has to have a time point for it, and the
second before the epoch is taken for an error. -/
structure Reportable (time : DateTime) : Prop where
  inClock : InClock time.instant
  later : time.instant ≠ -1

def utcString (time : DateTime) : String := String.ofList (utcTimestamp time)

section Times

variable {zones : Option Text → TimeZone} (empty : (zones (some [])).mktime = utc.mktime)
include empty

theorem result_parseUTC {time : DateTime} (reportable : Reportable time) (env : Environment) :
    result (AbsoluteTime.parseUTC zones (utcString time).toList) env =
      (.ok ⟨seconds time.instant⟩, { env with zone := env.tz }) := by
  have parsed := parseUTC_utcTimestamp empty reportable.inClock [] env
  rwa [List.append_nil, if_neg reportable.later, ← String.toList_ofList (l := utcTimestamp time)]
    at parsed

theorem result_utcMember {json : Json} {key : String} {time : DateTime}
    (reportable : Reportable time) (found : json.find? key = some (.str (utcString time)))
    (env : Environment) :
    result (utcMember zones json key) env =
      (.ok ⟨seconds time.instant⟩, { env with zone := env.tz }) := by
  have text : (json.at' key >>= Json.getString) = .ok (utcString time) := by
    rw [Json.at'_of_find? found]
    rfl
  rw [utcMember, result_bind, result_ofExcept, text]
  exact result_parseUTC empty reportable env

end Times

/-- A user with the times that the bridge has for it. -/
structure ReportedUser where
  key : String
  name : String
  lastUsed : DateTime
  created : DateTime

namespace ReportedUser

/-- The member of the whitelist that reports the user. -/
structure Reports (user : ReportedUser) (member : String × Json) : Prop where
  key : member.1 = user.key
  name : member.2.find? "name" = some (.str user.name)
  lastUsed : member.2.find? "last use date" = some (.str (utcString user.lastUsed))
  created : member.2.find? "create date" = some (.str (utcString user.created))
  reportable : Reportable user.lastUsed ∧ Reportable user.created

def shown (user : ReportedUser) : WhitelistedUser :=
  ⟨user.key, user.name, ⟨seconds user.lastUsed.instant⟩, ⟨seconds user.created.instant⟩⟩

end ReportedUser

namespace BridgeConfig

section Reported

variable {zones : Option Text → TimeZone} (empty : (zones (some [])).mktime = utc.mktime)
include empty

theorem result_readUser {user : ReportedUser} {member : String × Json}
    (reports : user.Reports member) (env : Environment) :
    result (readUser zones (some member.1, member.2)) env =
      (.ok user.shown, { env with zone := env.tz }) := by
  have name : Json.at' member.2 "name" >>= Json.getString = .ok user.name := by
    rw [Json.at'_of_find? reports.name]
    rfl
  have lastUsed := result_utcMember empty reports.reportable.1 reports.lastUsed
  have created := result_utcMember empty reports.reportable.2 reports.created
  simp [readUser, Json.iteratorKey, name, lastUsed, created, reports.key, ReportedUser.shown]

theorem result_readUsers {users : List ReportedUser} {members : List (String × Json)}
    (reports : List.Forall₂ ReportedUser.Reports users members) (env : Environment) :
    result (readUsers zones (Json.obj members).items) env =
      (.ok (users.map ReportedUser.shown),
        if users = [] then env else { env with zone := env.tz }) := by
  induction reports generalizing env with
  | nil => rfl
  | @cons user member users members first later ih =>
      rw [Json.items] at ih ⊢
      rw [List.map_cons, readUsers]
      simp [result_readUser empty first, ih]

end Reported

/-- `TZ` is what it was, whatever the JSON is and however the call ends. -/
def SameTz (env after : Environment) : Prop := after.tz = env.tz

instance : IsPreorder Environment SameTz where
  refl _ := rfl
  trans _ _ _ first second := Eq.trans second first

section Any

variable (zones : Option Text → TimeZone)

theorem sameTz_utcMember (json : Json) (key : String) :
    Within SameTz (utcMember zones json key) := by
  refine (within_ofExcept _).bind fun text => ?_
  refine Within.bind (fun env => ?_) fun _ => within_pure _
  exact (Process.parseUTCTimestamp_behaves zones env text.toList).2

theorem sameTz_readUser (item : Option String × Json) : Within SameTz (readUser zones item) := by
  refine (within_ofExcept _).bind fun _ => (within_ofExcept _).bind fun _ => ?_
  refine (sameTz_utcMember zones _ _).bind fun _ => ?_
  exact (sameTz_utcMember zones _ _).bind fun _ => within_pure _

theorem sameTz_readUsers (items : List (Option String × Json)) :
    Within SameTz (readUsers zones items) := by
  induction items with
  | nil => exact within_pure _
  | cons item items ih =>
      exact (sameTz_readUser zones item).bind fun _ => ih.bind fun _ => within_pure _

theorem sameTz_getWhitelistedUsers (config : Json) :
    Within SameTz (getWhitelistedUsers zones config) :=
  (within_ofExcept _).bind fun _ => sameTz_readUsers zones _

end Any

/-- All users of a report are returned with the instants of their times, in the order of their
keys, whatever zone the process is in. The two changes of the zone for every user are undone,
also if one of the times cannot be read. -/
theorem users_read_back {zones : Option Text → TimeZone}
    (empty : (zones (some [])).mktime = utc.mktime) {users : List ReportedUser}
    {members : List (String × Json)} (reports : List.Forall₂ ReportedUser.Reports users members)
    {config : Json} (listed : config.find? "whitelist" = some (.obj members)) (env : Environment) :
    result (getWhitelistedUsers zones config) env =
        (.ok (users.map ReportedUser.shown),
          if users = [] then env else { env with zone := env.tz }) ∧
      ∀ other, (result (getWhitelistedUsers zones other) env).2.tz = env.tz := by
  refine ⟨?_, fun other => sameTz_getWhitelistedUsers zones other env⟩
  rw [getWhitelistedUsers, result_bind, result_ofExcept, Json.at'_of_find? listed]
  exact result_readUsers empty reports env

/-- Central European time, and UTC for an empty `TZ`. -/
def cet (tz : Option Text) : TimeZone := ahead (if tz = some [] then 0 else 3600)

theorem cet_empty : (cet (some [])).mktime = utc.mktime :=
  funext fun _ => Int.sub_zero _

theorem reportable_noon : Reportable noon := ⟨noon_inClock, by decide +kernel⟩

theorem users_read_back_one :
    let times : List (String × Json) :=
      [("create date", .str (utcString noon)), ("last use date", .str (utcString noon)),
        ("name", .str "Hueplusplus")]
    let config : Json := .obj [("whitelist", .obj [("abc", .obj times)])]
    result (getWhitelistedUsers cet config) ⟨some "CET-1".toList, none⟩ =
        (.ok [⟨"abc", "Hueplusplus", ⟨seconds noon.instant⟩, ⟨seconds noon.instant⟩⟩],
          ⟨some "CET-1".toList, some "CET-1".toList⟩) ∧
      ∀ other, (result (getWhitelistedUsers cet other) ⟨some "CET-1".toList, none⟩).2.tz =
        some "CET-1".toList := by
  intro times config
  have reported : ReportedUser.Reports ⟨"abc", "Hueplusplus", noon, noon⟩ ("abc", .obj times) :=
    ⟨rfl, rfl, rfl, rfl, reportable_noon, reportable_noon⟩
  exact @users_read_back cet cet_empty _ _ (.cons reported .nil) config rfl _

end BridgeConfig

/-- A report of new devices is read back, with the time of the scan if it is over. -/
theorem NewDeviceList.report_read_back {list : NewDeviceList}
    (ints : ∀ id name, (id, name) ∈ list.devices.entries → Text.IsInt id) {json : Json}
    (reports : list.Reports json) :
    parse json = .ok list ∧
      ∀ (zones : Option Text → TimeZone) (time : DateTime),
        (zones (some [])).mktime = utc.mktime → Reportable time →
        list.lastScan = utcString time →
        list.hasLastScanTime = true ∧ list.isScanActive = false ∧
          ∀ env, result (list.getLastScanTime zones) env =
            (.ok ⟨seconds time.instant⟩, { env with zone := env.tz }) := by
  refine ⟨parse_of_reports ints reports, fun zones time empty reportable scanned => ?_⟩
  obtain ⟨lastScan, devices⟩ := list
  obtain rfl : lastScan = utcString time := scanned
  obtain ⟨has, inactive⟩ := hasLastScanTime_utcTimestamp reportable.inClock devices
  exact ⟨has, inactive, result_parseUTC empty reportable⟩

/-- Two devices, whose ids are in the other order as texts. -/
theorem NewDeviceList.report_read_back_two :
    let list : NewDeviceList :=
      ⟨utcString noon, ⟨[(7, "Lamp"), (10, "Strip")],
        List.pairwise_pair.mpr (show (7 : ℤ) < 10 by decide)⟩⟩
    let info (name : String) : Json := .obj [("name", .str name)]
    let json : Json := .obj [("10", info "Strip"), ("7", info "Lamp"),
      ("lastscan", .str (utcString noon))]
    parse json = .ok list ∧
      result (list.getLastScanTime BridgeConfig.cet) ⟨some "CET-1".toList, none⟩ =
        (.ok ⟨seconds noon.instant⟩,
          ⟨some "CET-1".toList, some "CET-1".toList⟩) := by
  intro list info json
  have ints : ∀ id name, (id, name) ∈ list.devices.entries → Text.IsInt id := by
    intro id name member
    simp only [list, List.mem_cons, Prod.mk.injEq, List.not_mem_nil, or_false] at member
    rcases member with ⟨rfl, -⟩ | ⟨rfl, -⟩
    · exact ⟨by decide, by decide⟩
    · exact ⟨by decide, by decide⟩
  have reports : list.Reports json := ⟨info, fun _ => rfl, by decide +kernel⟩
  obtain ⟨parsed, scanned⟩ := report_read_back ints reports
  obtain ⟨-, -, read⟩ := scanned BridgeConfig.cet noon BridgeConfig.cet_empty
    BridgeConfig.reportable_noon rfl
  exact ⟨parsed, read _⟩

end Hueplusplus
