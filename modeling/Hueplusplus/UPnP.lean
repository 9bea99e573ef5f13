import Hueplusplus.Foundation.FirstWins
import Hueplusplus.Foundation.Search
import Hueplusplus.Json

/-!
# Devices that answer a multicast

`UPnP::getDevices` asks the network for devices and cuts two headers out of each reply. It
steps over the name of a header and one character more before it cuts, which the end of a
truncated reply does not allow. Of the replies with one location the first counts.
-/

namespace Hueplusplus

open Text

/-- `IHttpHandler::sendMulticast`: the replies to a message, by address, port and timeout. -/
abbrev Multicast : Type := Text → String → ℤ → ℤ → Except Exception (List Text)

namespace LinHttpHandler

/-- The end of `sendMulticast`: what was received is cut behind each empty line, and what
follows the last of them is dropped. -/
def splitReplies (response : Text) : List Text :=
  match _found : response.dropInfix? (crlf ++ crlf) with
  | some (reply, rest) => reply :: splitReplies rest
  | none => []
termination_by response.length
decreasing_by
  have split := (dropInfix?_eq_some_iff.mp _found).split
  rw [split, List.length_append, List.length_append]
  exact Nat.lt_add_left _ (Nat.lt_add_of_pos_left (by decide))

theorem splitReplies_of_firstAt {response reply rest : Text}
    (h : FirstAt (crlf ++ crlf) response reply rest) :
    splitReplies response = reply :: splitReplies rest := by
  have found := dropInfix?_eq_some_iff.mpr h
  rw [splitReplies]
  split
  · rename_i same
    rw [found] at same
    obtain ⟨rfl, rfl⟩ := Prod.mk.inj (Option.some.inj same)
    rfl
  · rename_i none
    rw [found] at none
    exact nomatch none

theorem splitReplies_of_absent {response : Text} (absent : ¬ crlf ++ crlf <:+: response) :
    splitReplies response = [] := by
  have none := dropInfix?_eq_none_iff.mpr absent
  rw [splitReplies]
  split
  · rename_i found
    rw [none] at found
    exact nomatch found
  · rfl

end LinHttpHandler

namespace UPnP

def locationName : Text := "LOCATION:".toList

def serverName : Text := "SERVER:".toList

/-- The value of a header, which `skip` characters precede from the start of its name on. -/
def header (s name : Text) (skip : ℕ) : Except Exception (Option Text) :=
  match s.search name 0 with
  | none => .ok none
  | some start => do
    let start := start + skip
    return some (← s.upTo start crlf)

/-- The loop body of `getDevices`. -/
def addDevice (devices : List (Text × Text)) (s : Text) :
    Except Exception (List (Text × Text)) := do
  match ← header s locationName 10 with
  | none => return devices
  | some location =>
    match ← header s serverName 8 with
    | none => return devices
    | some server => return insertNew devices (location, server)

/-- The UPnP M-Search request. -/
def searchRequest : Text :=
  ("M-SEARCH * HTTP/1.1\r\nHOST: 239.255.255.250:1900\r\nMAN: " ++
    "\"ssdp:discover\"\r\nMX: 5\r\nST: ssdp:all\r\n\r\n").toList

/-- Locations and servers of the devices. The timeout is that of the configuration. -/
def getDevices (sendMulticast : Multicast) (timeout : ℤ) :
    Except Exception (List (Text × Text)) := do
  let foundDevices ← sendMulticast searchRequest "239.255.255.250" 1900 timeout
  foundDevices.foldlM addDevice []

/-- The header's first occurrence is followed by a separator, the value and a line end. -/
def HasHeader (name s value : Text) : Prop :=
  ∃ before separator rest after, FirstAt name s before (separator :: rest) ∧
    FirstAt crlf rest value after

/-- Each of the two headers has a separator, a value and a line end, if it is there. -/
def WellFormed (s : Text) : Prop :=
  ∀ name ∈ [locationName, serverName], name <:+: s → ∃ value, HasHeader name s value

/-- The text ends right behind the first occurrence of the name. -/
def EndsWithName (name s : Text) : Prop := ∃ before, FirstAt name s before []

/-- The location and the server that a reply announces. -/
def Announces (s location server : Text) : Prop :=
  HasHeader locationName s location ∧ HasHeader serverName s server

section Header

variable {s name : Text}

theorem HasHeader.occurs {value : Text} (h : HasHeader name s value) : name <:+: s := by
  obtain ⟨_, _, _, _, first, _⟩ := h
  exact first.occurs

theorem HasHeader.unique {value value' : Text} (h : HasHeader name s value)
    (h' : HasHeader name s value') : value = value' := by
  obtain ⟨before, separator, rest, after, first, line⟩ := h
  obtain ⟨before', separator', rest', after', first', line'⟩ := h'
  obtain ⟨-, same⟩ := first.unique first'
  rw [(List.cons.inj same).2] at line
  exact (line.unique line').1

theorem header_of_absent (absent : ¬ name <:+: s) (skip : ℕ) :
    header s name skip = .ok none := by
  simp only [header, search_zero_eq_none_iff.mpr absent]

theorem header_of_firstAt {before after : Text} (h : FirstAt name s before after) (skip : ℕ) :
    header s name skip = do return some (← s.upTo (before.length + skip) crlf) := by
  simp only [header, search_zero_of_firstAt h]

/-- A truncated header throws. -/
theorem header_of_endsWithName (h : EndsWithName name s) :
    header s name (name.length + 1) = .error (.outOfRange "basic_string::substr") := by
  obtain ⟨before, first⟩ := h
  have outside : s.length < before.length + (name.length + 1) := by
    rw [first.split]
    simp
  rw [header_of_firstAt first, upTo_of_length_lt outside]
  rfl

/-- With one more character behind the name, the value is cut out. -/
theorem header_of_separator {before rest : Text} {separator : Char}
    (h : FirstAt name s before (separator :: rest)) :
    ∃ value, header s name (name.length + 1) = .ok (some value) ∧
      ∀ line after, FirstAt crlf rest line after → value = line := by
  have inside : before.length + (name.length + 1) ≤ s.length := by
    rw [h.split]
    simp
  have behind : s.drop (before.length + (name.length + 1)) = rest := by
    rw [← Nat.add_assoc, ← List.drop_drop, h.drop_length]
    rfl
  obtain ⟨value, cut⟩ := exists_upTo (ε := Exception) inside crlf
  refine ⟨value, ?_, ?_⟩
  · rw [header_of_firstAt h, cut]
    rfl
  · intro line after first
    rw [upTo_of_firstAt inside (behind ▸ first)] at cut
    exact (Except.ok.inj cut).symm

/-- Every reply has the header not at all, truncated, or in full. -/
theorem header_cases (s : Text) {skip : ℕ} (width : name.length + 1 = skip) :
    (¬ name <:+: s ∧ header s name skip = .ok none) ∨
    (EndsWithName name s ∧
      header s name skip = .error (.outOfRange "basic_string::substr")) ∨
    (name <:+: s ∧ ¬ EndsWithName name s ∧ ∃ value, header s name skip = .ok (some value)) := by
  subst width
  by_cases occurs : name <:+: s
  · obtain ⟨before, after, first⟩ := exists_firstAt occurs
    cases after with
    | nil => exact .inr (.inl ⟨⟨before, first⟩, header_of_endsWithName ⟨before, first⟩⟩)
    | cons separator rest =>
        obtain ⟨value, cut, _⟩ := header_of_separator first
        refine .inr (.inr ⟨occurs, ?_, value, cut⟩)
        rintro ⟨before', truncated⟩
        exact nomatch (first.unique truncated).2
  · exact .inl ⟨occurs, header_of_absent occurs _⟩

/-- A well-formed header is read as it is. -/
theorem header_of_hasHeader {value : Text} (h : HasHeader name s value) {skip : ℕ}
    (width : name.length + 1 = skip) : header s name skip = .ok (some value) := by
  subst width
  obtain ⟨before, separator, rest, after, first, line⟩ := h
  obtain ⟨piece, cut, same⟩ := header_of_separator first
  rw [cut, same value after line]

end Header

/-- What a reply is found to announce, where the cuts succeed. -/
def announced? (s : Text) : Option (Text × Text) :=
  match header s locationName 10, header s serverName 8 with
  | .ok (some location), .ok (some server) => some (location, server)
  | _, _ => none

/-- No cut begins behind the end of the reply: its first location header is not truncated, and
with a location its first server header is not either. -/
def Complete (s : Text) : Prop :=
  ¬ EndsWithName locationName s ∧ (locationName <:+: s → ¬ EndsWithName serverName s)

theorem addDevice_cases (devices : List (Text × Text)) (s : Text) :
    (Complete s ∧ addDevice devices s = .ok (keepNew devices (announced? s))) ∨
    (¬ Complete s ∧ addDevice devices s = .error (.outOfRange "basic_string::substr")) := by
  have locations := @header_cases locationName s 10 rfl
  have servers := @header_cases serverName s 8 rfl
  rcases locations with ⟨absent, first⟩ | ⟨truncated, first⟩ | ⟨occurs, full, location, first⟩
  · left
    refine ⟨⟨?_, fun occurs => absurd occurs absent⟩, ?_⟩
    · rintro ⟨before, first⟩
      exact absent first.occurs
    · simp [addDevice, announced?, first, keepNew]
  · right
    refine ⟨fun complete => complete.1 truncated, ?_⟩
    simp [addDevice, first]
  · rcases servers with ⟨absent, second⟩ | ⟨truncated, second⟩ | ⟨_, full', server, second⟩
    · left
      refine ⟨⟨full, ?_⟩, ?_⟩
      · rintro _ ⟨before, first⟩
        exact absent first.occurs
      · simp [addDevice, announced?, first, second, keepNew]
    · right
      refine ⟨fun complete => complete.2 occurs truncated, ?_⟩
      simp [addDevice, first, second]
    · left
      refine ⟨⟨full, fun _ => full'⟩, ?_⟩
      simp [addDevice, announced?, first, second, keepNew]

/-- The loop returns unless it comes to a truncated reply. -/
theorem foldlM_addDevice_cases (devices : List (Text × Text)) (replies : List Text) :
    ((∀ s ∈ replies, Complete s) ∧
      replies.foldlM addDevice devices = .ok ((replies.map announced?).foldl keepNew devices)) ∨
    ((∃ s ∈ replies, ¬ Complete s) ∧
      replies.foldlM addDevice devices = .error (.outOfRange "basic_string::substr")) := by
  induction replies generalizing devices with
  | nil => exact .inl ⟨nofun, rfl⟩
  | cons s rest ih =>
      rw [List.foldlM_cons]
      rcases addDevice_cases devices s with ⟨complete, added⟩ | ⟨truncated, failed⟩
      · rw [added, Except.ok_bind]
        rcases ih (keepNew devices (announced? s)) with ⟨all, returned⟩ | ⟨some, failed⟩
        · left
          refine ⟨List.forall_mem_cons.mpr ⟨complete, all⟩, ?_⟩
          rw [returned, List.map_cons, List.foldl_cons]
        · obtain ⟨other, member, truncated⟩ := some
          exact .inr ⟨⟨other, List.mem_cons_of_mem _ member, truncated⟩, failed⟩
      · rw [failed]
        exact .inr ⟨⟨s, List.mem_cons_self, truncated⟩, rfl⟩

section GetDevices

variable {sendMulticast : Multicast} {timeout : ℤ} {replies : List Text}
  (received : sendMulticast searchRequest "239.255.255.250" 1900 timeout = .ok replies)
include received

theorem getDevices_eq : getDevices sendMulticast timeout = replies.foldlM addDevice [] := by
  rw [getDevices, received]
  rfl

/-- The devices are returned exactly if no reply is truncated behind the name of a header that is
looked for; else a cut throws. -/
theorem getDevices_returns_iff :
    ((∃ devices, getDevices sendMulticast timeout = .ok devices) ↔ ∀ s ∈ replies, Complete s) ∧
    ((∃ s ∈ replies, ¬ Complete s) →
      getDevices sendMulticast timeout = .error (.outOfRange "basic_string::substr")) := by
  rw [getDevices_eq received]
  rcases foldlM_addDevice_cases [] replies with ⟨all, returned⟩ | ⟨some, failed⟩
  · refine ⟨iff_of_true ⟨_, returned⟩ all, ?_⟩
    rintro ⟨s, member, truncated⟩
    exact absurd (all s member) truncated
  · refine ⟨iff_of_false ?_ ?_, fun _ => failed⟩
    · rintro ⟨devices, returned⟩
      rw [failed] at returned
      exact nomatch returned
    · obtain ⟨s, member, truncated⟩ := some
      exact fun all => truncated (all s member)

end GetDevices

/-- The network as it is received in these replies. -/
def receiving (replies : List Text) : Multicast := fun _ _ _ _ => .ok replies

/-- A reply with both headers. -/
def bothHeaders : Text :=
  "LOCATION: http://192.168.2.1:80/description.xml\r\nSERVER: IpBridge/1.26.0\r\n".toList

theorem getDevices_returns_iff_truncated :
    ((∃ devices, getDevices (receiving [bothHeaders]) 5 = .ok devices) ↔
      ∀ s ∈ [bothHeaders], Complete s) ∧
    getDevices (receiving [bothHeaders, locationName]) 5 =
      .error (.outOfRange "basic_string::substr") := by
  have truncated : EndsWithName locationName locationName :=
    ⟨[], dropInfix?_eq_some_iff.mp rfl⟩
  exact ⟨(getDevices_returns_iff rfl).1, (getDevices_returns_iff rfl).2
    ⟨locationName, by simp, fun complete => complete.1 truncated⟩⟩

/-- A device that sends nothing but the name of the header makes the discovery throw. -/
theorem truncated_reply_throws :
    ¬ ∀ (response : Text) (timeout : ℤ), ∃ devices,
      getDevices (receiving (LinHttpHandler.splitReplies response)) timeout = .ok devices := by
  intro claim
  obtain ⟨devices, returned⟩ := claim (locationName ++ (crlf ++ crlf)) 5
  have first : FirstAt (crlf ++ crlf) (locationName ++ (crlf ++ crlf)) locationName [] :=
    dropInfix?_eq_some_iff.mp rfl
  have last : ¬ crlf ++ crlf <:+: [] := fun occurs => nomatch List.infix_nil.mp occurs
  rw [LinHttpHandler.splitReplies_of_firstAt first,
    LinHttpHandler.splitReplies_of_absent last] at returned
  have thrown : getDevices (receiving [locationName]) 5 =
      .error (.outOfRange "basic_string::substr") := rfl
  rw [thrown] at returned
  exact nomatch returned

/-- A well-formed header is there exactly if it is read. -/
theorem header_of_wellFormed {s name : Text}
    (formed : name <:+: s → ∃ value, HasHeader name s value) {skip : ℕ}
    (width : name.length + 1 = skip) :
    ∃ value?, header s name skip = .ok value? ∧
      ∀ value, value? = some value ↔ HasHeader name s value := by
  by_cases occurs : name <:+: s
  · obtain ⟨value, h⟩ := formed occurs
    refine ⟨some value, header_of_hasHeader h width, fun other => ?_⟩
    rw [Option.some_inj]
    constructor
    · rintro rfl
      exact h
    · exact h.unique
  · refine ⟨none, header_of_absent occurs skip, fun other => ?_⟩
    exact iff_of_false nofun fun h => occurs h.occurs

theorem announced?_eq_some_iff {s : Text} (formed : WellFormed s) {location server : Text} :
    announced? s = some (location, server) ↔ Announces s location server := by
  obtain ⟨location?, first, isLocation⟩ := @header_of_wellFormed s locationName
    (formed locationName List.mem_cons_self) 10 rfl
  obtain ⟨server?, second, isServer⟩ := @header_of_wellFormed s serverName
    (formed serverName (List.mem_cons_of_mem _ List.mem_cons_self)) 8 rfl
  rw [Announces, ← isLocation, ← isServer]
  simp only [announced?, first, second]
  cases location? <;> cases server? <;> simp

theorem complete_of_wellFormed {s : Text} (formed : WellFormed s) : Complete s := by
  have whole : ∀ name ∈ [locationName, serverName], ¬ EndsWithName name s := by
    rintro name member ⟨before, truncated⟩
    obtain ⟨value, _, _, _, _, first, _⟩ := formed name member truncated.occurs
    exact nomatch (truncated.unique first).2
  exact ⟨whole _ List.mem_cons_self, fun _ => whole _ (List.mem_cons_of_mem _ List.mem_cons_self)⟩

/-- The reply at this position announces the device, and none before it the location. -/
def FirstReply (replies : List Text) (i : ℕ) (device : Text × Text) : Prop :=
  (∃ s, replies[i]? = some s ∧ Announces s device.1 device.2) ∧
    ∀ j < i, ∀ s, replies[j]? = some s → ∀ server, ¬ Announces s device.1 server

theorem firstReply_of_firstItem {replies : List Text} (formed : ∀ s ∈ replies, WellFormed s)
    {i : ℕ} {device : Text × Text} (h : FirstItem (replies.map announced?) i device) :
    FirstReply replies i device := by
  obtain ⟨here, first⟩ := h
  have formedAt : ∀ {j : ℕ} {s : Text}, replies[j]? = some s → WellFormed s := fun found =>
    formed _ (List.mem_of_getElem? found)
  rw [List.getElem?_map, Option.map_eq_some_iff] at here
  obtain ⟨s, found, announced⟩ := here
  refine ⟨⟨s, found, (announced?_eq_some_iff (formedAt found)).mp announced⟩, ?_⟩
  intro j before other found' server announces
  apply first j before server
  rw [List.getElem?_map, found', Option.map_some]
  exact congrArg some ((announced?_eq_some_iff (formedAt found')).mpr announces)

/-- Every announced location is found once, in the order of the first replies that announce them
and with their servers. -/
theorem getDevices_first_replies {sendMulticast : Multicast} {timeout : ℤ} {replies : List Text}
    (received : sendMulticast searchRequest "239.255.255.250" 1900 timeout = .ok replies)
    (formed : ∀ s ∈ replies, WellFormed s) :
    ∃ devices, getDevices sendMulticast timeout = .ok devices ∧
      (devices.map Prod.fst).Nodup ∧
      (∀ location, location ∈ devices.map Prod.fst ↔
        ∃ s ∈ replies, ∃ server, Announces s location server) ∧
      ∃ positions : List ℕ, positions.Pairwise (· < ·) ∧
        List.Forall₂ (FirstReply replies) positions devices := by
  have complete : ∀ s ∈ replies, Complete s := fun s member =>
    complete_of_wellFormed (formed s member)
  have wins := firstWins_foldl (replies.map announced?)
  refine ⟨(replies.map announced?).foldl keepNew [], ?_, wins.nodup, ?_, ?_⟩
  · rw [getDevices_eq received]
    rcases foldlM_addDevice_cases [] replies with ⟨_, returned⟩ | ⟨⟨s, member, truncated⟩, _⟩
    · exact returned
    · exact absurd (complete s member) truncated
  · intro location
    rw [wins.mem_iff]
    constructor
    · rintro ⟨server, member⟩
      obtain ⟨s, inside, announced⟩ := List.mem_map.mp member
      exact ⟨s, inside, server, (announced?_eq_some_iff (formed s inside)).mp announced⟩
    · rintro ⟨s, inside, server, announces⟩
      refine ⟨server, List.mem_map.mpr ⟨s, inside, ?_⟩⟩
      exact (announced?_eq_some_iff (formed s inside)).mpr announces
  · obtain ⟨positions, increasing, firsts⟩ := wins.ordered
    exact ⟨positions, increasing, firsts.imp fun _ _ first => firstReply_of_firstItem formed first⟩

/-- A reply with both headers. -/
def bridgeReply : Text := "LOCATION: http://10.0.0.5/\r\nSERVER: IpBridge\r\n".toList

theorem wellFormed_bridgeReply : WellFormed bridgeReply := by
  intro name member _
  rcases List.mem_cons.mp member with rfl | member
  · exact ⟨"http://10.0.0.5/".toList, _, _, _, _, dropInfix?_eq_some_iff.mp rfl,
      dropInfix?_eq_some_iff.mp rfl⟩
  · rw [List.mem_singleton.mp member]
    exact ⟨"IpBridge".toList, _, _, _, _, dropInfix?_eq_some_iff.mp rfl,
      dropInfix?_eq_some_iff.mp rfl⟩

theorem getDevices_first_replies_twice :
    ∃ devices, getDevices (receiving [bridgeReply, bridgeReply]) 5 = .ok devices ∧
      (devices.map Prod.fst).Nodup ∧
      (∀ location, location ∈ devices.map Prod.fst ↔
        ∃ s ∈ [bridgeReply, bridgeReply], ∃ server, Announces s location server) ∧
      ∃ positions : List ℕ, positions.Pairwise (· < ·) ∧
        List.Forall₂ (FirstReply [bridgeReply, bridgeReply]) positions devices :=
  getDevices_first_replies rfl fun s member => by
    simp only [List.mem_cons, List.not_mem_nil, or_false, or_self] at member
    rw [member]
    exact wellFormed_bridgeReply

end UPnP

end Hueplusplus
