import Hueplusplus.Bridge.Finder
import Hueplusplus.UPnP

/-!
# Finding the bridges in the network

`BridgeFinder::findBridges` looks at the devices that have answered a multicast. It cuts the
address of a bridge out of the location up to the next colon, requests the description of the
bridge from there, and takes the serial number out of that. The requests so far are the state;
their number selects the reply of the handler.
-/

namespace Hueplusplus

open Effect Text

/-- The arguments of `GETString`. -/
structure TextRequest where
  uri : String
  contentType : String
  body : String
  adr : String
  port : ℤ

/-- The calls of `IHttpHandler` that a discovery makes. -/
structure DiscoveryHandler where
  sendMulticast : Multicast
  /-- The reply to a request, after so many others. -/
  getString : ℕ → TextRequest → Except Exception Text

/-- The requests so far. -/
abbrev DiscoveryM := Effect Exception (List TextRequest)

namespace BridgeFinder

def modelName : Text := "<modelName>Philips hue bridge".toList

def serialBegin : Text := "<serialNumber>".toList

def serialEnd : Text := "</serialNumber>".toList

def parseDescription (description : Text) : Except Exception Text :=
  match description.search modelName 0, description.search serialBegin 0 with
  | some _, some start =>
    match description.search serialEnd start with
    | some finish =>
      let start := start + serialBegin.length
      if start < description.length then description.substr start (finish - start) else .ok []
    | none => .ok []
  | _, _ => .ok []

variable (handler : DiscoveryHandler)

def getString (request : TextRequest) : DiscoveryM Text := do
  let sent ← get
  modify fun sent => sent ++ [request]
  Effect.ofExcept (handler.getString sent.length request)

def descriptionRequest (ip : Text) : TextRequest where
  uri := "/description.xml"
  contentType := "application/xml"
  body := ""
  adr := String.ofList ip
  port := 80

/-- What the description from an address identifies. -/
def identify (ip : Text) : DiscoveryM (Option BridgeIdentification) := do
  let desc ← getString handler (descriptionRequest ip)
  let mac ← Effect.ofExcept (parseDescription desc)
  if mac.isEmpty then return none
  else return some ⟨String.ofList ip, 80, normalizeMac (String.ofList mac)⟩

def ipBridge : Text := "IpBridge".toList

/-- The loop body of `findBridges`. -/
def findBridge (device : Text × Text) : DiscoveryM (Option BridgeIdentification) :=
  if (device.2.search ipBridge 0).isSome then do
    -- two behind `npos` is 1
    let start := (device.1.search ['/', '/'] 0).elim 1 (· + 2)
    let ip ← Effect.ofExcept (device.1.upTo start [':'])
    tryCatch (identify handler ip) fun e =>
      match e with
      -- No body found in response, skip this device
      | .hueException _ | .hueAPIResponseException _ => return none
      | e => throw e
  else return none

def findAll : List (Text × Text) → DiscoveryM (List BridgeIdentification)
  | [] => return []
  | device :: rest => do
    let bridge ← findBridge handler device
    let bridges ← findAll rest
    return bridge.toList ++ bridges

def findBridges (timeout : ℤ) : DiscoveryM (List BridgeIdentification) := do
  let foundDevices ← Effect.ofExcept (UPnP.getDevices handler.sendMulticast timeout)
  findAll handler foundDevices

/-- The serial number of a bridge, between its tags in the description. -/
def HasSerial (description serial : Text) : Prop :=
  modelName <:+: description ∧ ∃ before rest after,
    FirstAt serialBegin description before rest ∧ FirstAt serialEnd rest serial after

/-- The end tag is not found within the start tag. -/
theorem firstAt_serialEnd {rest piece after : Text}
    (h : FirstAt serialEnd (serialBegin ++ rest) piece after) :
    ∃ serial, piece = serialBegin ++ serial ∧ FirstAt serialEnd rest serial after := by
  have inside : (serialBegin ++ rest).dropInfix? serialEnd =
      List.dropInfix?.go serialEnd rest serialBegin.reverse := rfl
  have behind := dropInfix?_eq_some_iff.mpr h
  rw [inside] at behind
  obtain ⟨serial, pieces, infixed, first⟩ := List.dropInfix?_go_eq_some_iff.mp behind
  rw [List.reverse_reverse] at pieces
  exact ⟨serial, pieces, dropInfix?_eq_some_iff.mp
    (List.dropInfix?_eq_some_iff.mpr ⟨infixed, first⟩)⟩

/-- The serial number is cut out between its tags. -/
theorem parseDescription_of_tags {description before rest serial after : Text}
    (model : modelName <:+: description) (opened : FirstAt serialBegin description before rest)
    (closed : FirstAt serialEnd (serialBegin ++ rest) (serialBegin ++ serial) after)
    (ends : FirstAt serialEnd rest serial after) :
    parseDescription description = .ok serial := by
  obtain ⟨_, _, named⟩ := exists_firstAt model
  have behind : description.drop before.length = serialBegin ++ rest := by
    rw [opened.split, List.drop_left]
  have finish := search_of_firstAt (behind ▸ closed)
  have split : description = (before ++ serialBegin) ++ (serial ++ (serialEnd ++ after)) := by
    rw [opened.split, ends.split, List.append_assoc]
  have inside : before.length + serialBegin.length < description.length := by
    have nonempty : 0 < serialEnd.length := by decide
    rw [split]
    simp only [List.length_append]
    omega
  have width : before.length + (serialBegin ++ serial).length -
      (before.length + serialBegin.length) = serial.length := by
    rw [List.length_append]
    omega
  simp only [parseDescription, search_zero_of_firstAt named, search_zero_of_firstAt opened, finish,
    if_pos inside, width]
  exact substr_eq _ _ split (by simp) rfl

/-- A description is parsed without an exception, and what is found in it is its serial number. -/
theorem parseDescription_returns (description : Text) :
    ∃ mac, parseDescription description = .ok mac ∧
      (mac ≠ [] → HasSerial description mac) := by
  have missing : ∃ mac, (.ok [] : Except Exception Text) = .ok mac ∧
      (mac ≠ [] → HasSerial description mac) := ⟨[], rfl, fun nonempty => absurd rfl nonempty⟩
  by_cases model : modelName <:+: description
  · obtain ⟨_, _, named⟩ := exists_firstAt model
    by_cases opens : serialBegin <:+: description
    · obtain ⟨before, rest, opened⟩ := exists_firstAt opens
      have behind : description.drop before.length = serialBegin ++ rest := by
        rw [opened.split, List.drop_left]
      by_cases closes : serialEnd <:+: serialBegin ++ rest
      · obtain ⟨piece, after, closed⟩ := exists_firstAt closes
        obtain ⟨serial, rfl, ends⟩ := firstAt_serialEnd closed
        exact ⟨serial, parseDescription_of_tags model opened closed ends,
          fun _ => ⟨model, before, rest, after, opened, ends⟩⟩
      · have none := search_eq_none_iff.mpr (behind ▸ closes)
        simp only [parseDescription, search_zero_of_firstAt named, search_zero_of_firstAt opened,
          none]
        exact missing
    · have none := search_zero_eq_none_iff.mpr opens
      simp only [parseDescription, search_zero_of_firstAt named, none]
      exact missing
  · have none := search_zero_eq_none_iff.mpr model
    simp only [parseDescription, none]
    exact missing

end BridgeFinder

/-- A location `http://host[:port]/path`. -/
structure HttpUrl where
  host : Text
  port : Option Text
  path : Text
  noColon : ':' ∉ host
  noSlash : '/' ∉ host

namespace HttpUrl

variable (url : HttpUrl)

def scheme : Text := ['h', 't', 't', 'p', ':', '/', '/']

/-- What follows the slashes. -/
def behindScheme : Text :=
  url.host ++ (url.port.elim [] (':' :: ·) ++ '/' :: url.path)

def text : Text := scheme ++ url.behindScheme

/-- What `findBridges` takes for the host. -/
def address : Text := url.behindScheme.takeWhile (· ≠ ':')

@[simp] theorem search_slashes : url.text.search ['/', '/'] 0 = some 5 := by
  have found : url.text.dropInfix? ['/', '/'] =
      some (['h', 't', 't', 'p', ':'], url.behindScheme) := by
    simp [text, scheme, List.dropInfix?, List.dropInfix?.go, List.dropPrefix?]
  exact search_zero_of_firstAt (dropInfix?_eq_some_iff.mp found)

@[simp] theorem upTo_colon : url.text.upTo 7 [':'] = (.ok url.address : Except Exception Text) := by
  have inside : 7 ≤ url.text.length := by
    simp [text, scheme]
  have behind : url.text.drop 7 = url.behindScheme := rfl
  rw [upTo_singleton inside, behind]
  rfl

theorem takeWhile_host (rest : Text) :
    (url.host ++ rest).takeWhile (· ≠ ':') = url.host ++ rest.takeWhile (· ≠ ':') :=
  List.takeWhile_append_of_pos fun _ member =>
    decide_eq_true fun same => url.noColon (same ▸ member)

/-- The host is followed by a colon only if there is a port. -/
theorem address_eq_host_iff : url.address = url.host ↔ url.port.isSome = true := by
  rw [address, behindScheme, takeWhile_host]
  cases url.port with
  | some port => exact iff_of_true (by simp) rfl
  | none => exact iff_of_false (by simp) nofun

end HttpUrl

namespace BridgeFinder

/-- The bridges among the devices have these locations. -/
inductive Located : List (Text × Text) → List HttpUrl → Prop
  | nil : Located [] []
  | other {location server : Text} {rest : List (Text × Text)} {urls : List HttpUrl}
      (different : ¬ ipBridge <:+: server) (later : Located rest urls) :
      Located ((location, server) :: rest) urls
  | bridge {server : Text} {rest : List (Text × Text)} {urls : List HttpUrl} (url : HttpUrl)
      (named : ipBridge <:+: server) (later : Located rest urls) :
      Located ((url.text, server) :: rest) (url :: urls)

/-- The reply does not end the discovery. -/
def Proceeds : Except Exception Text → Prop
  | .ok _ | .error (.hueException _) | .error (.hueAPIResponseException _) => True
  | .error _ => False

/-- The bridge at this address and with the serial number in the reply. -/
def Identifies (ip : Text) (reply : Except Exception Text) (bridge : BridgeIdentification) : Prop :=
  ∃ description serial, reply = .ok description ∧ HasSerial description serial ∧
    bridge.ip = String.ofList ip ∧ bridge.mac = normalizeMac (String.ofList serial)

/-- The request for the description of a bridge at its host. -/
def hostRequest (url : HttpUrl) : TextRequest := descriptionRequest url.host

section Run

variable (handler : DiscoveryHandler) {devices rest : List (Text × Text)} {urls : List HttpUrl}
  {sent sent' : List TextRequest}

theorem result_identify (ip : Text) (sent : List TextRequest) :
    ∃ outcome,
      result (identify handler ip) sent = (outcome, sent ++ [descriptionRequest ip]) ∧
      ((∃ e, outcome = .error e ∧
        handler.getString sent.length (descriptionRequest ip) = .error e) ∨
      ∃ bridge?, outcome = .ok bridge? ∧
        (∃ description,
          handler.getString sent.length (descriptionRequest ip) = .ok description) ∧
        ∀ bridge ∈ bridge?,
          Identifies ip (handler.getString sent.length (descriptionRequest ip)) bridge) := by
  cases replied : handler.getString sent.length (descriptionRequest ip) with
  | error e =>
      refine ⟨.error e, ?_, .inl ⟨e, rfl, rfl⟩⟩
      simp [identify, getString, replied]
  | ok description =>
      obtain ⟨mac, parsed, serial⟩ := parseDescription_returns description
      have ran : result (identify handler ip) sent =
          result (if mac.isEmpty then pure none
            else pure (some ⟨String.ofList ip, 80, normalizeMac (String.ofList mac)⟩))
            (sent ++ [descriptionRequest ip]) := by
        simp [identify, getString, replied, parsed]
      rw [ran]
      cases empty : mac.isEmpty with
      | true => exact ⟨.ok none, rfl, .inr ⟨none, rfl, ⟨description, rfl⟩, nofun⟩⟩
      | false =>
          refine ⟨.ok (some _), rfl, .inr ⟨_, rfl, ⟨description, rfl⟩, ?_⟩⟩
          rintro bridge ⟨⟩
          have nonempty : mac ≠ [] := by
            rintro rfl
            exact nomatch empty
          exact ⟨description, mac, rfl, serial nonempty, rfl, rfl⟩

theorem findBridge_other {location server : Text} (different : ¬ ipBridge <:+: server) :
    result (findBridge handler (location, server)) sent = (.ok none, sent) := by
  simp only [findBridge, search_zero_eq_none_iff.mpr different]
  rfl

/-- The request goes to the address that is cut out of the location. The device is skipped or
identified, unless the reply ends the discovery. -/
theorem findBridge_bridge (url : HttpUrl) {server : Text} (named : ipBridge <:+: server)
    (sent : List TextRequest) :
    ∃ outcome,
      result (findBridge handler (url.text, server)) sent =
        (outcome, sent ++ [descriptionRequest url.address]) ∧
      ((∃ e, outcome = .error e ∧
        ¬ Proceeds (handler.getString sent.length (descriptionRequest url.address))) ∨
      ∃ bridge?, outcome = .ok bridge? ∧
        Proceeds (handler.getString sent.length (descriptionRequest url.address)) ∧
        ∀ bridge ∈ bridge?, Identifies url.address
          (handler.getString sent.length (descriptionRequest url.address)) bridge) := by
  obtain ⟨before, after, first⟩ := exists_firstAt named
  obtain ⟨outcome, ran, outcomes⟩ := result_identify handler url.address sent
  simp only [findBridge, search_zero_of_firstAt first, Option.isSome_some, if_true,
    url.search_slashes, Option.elim_some, Nat.reduceAdd, result_bind, url.upTo_colon,
    result_ofExcept, result_tryCatch, ran]
  rcases outcomes with ⟨e, rfl, replied⟩ | ⟨bridge?, rfl, ⟨description, replied⟩, identified⟩
  · rw [replied]
    cases e with
    | hueException | hueAPIResponseException => exact ⟨_, rfl, .inr ⟨none, rfl, trivial, nofun⟩⟩
    | systemError | jsonException | invalidArgument | outOfRange | undefinedBehaviour =>
        exact ⟨_, rfl, .inl ⟨_, rfl, id⟩⟩
  · refine ⟨_, rfl, .inr ⟨bridge?, rfl, ?_, identified⟩⟩
    rw [replied]
    trivial

theorem findAll_cons_error {device : Text × Text} {e : Exception}
    (first : result (findBridge handler device) sent = (.error e, sent')) :
    result (findAll handler (device :: rest)) sent = (.error e, sent') := by
  rw [findAll, result_bind, first]

theorem findAll_cons_ok {device : Text × Text} {bridge? : Option BridgeIdentification}
    (first : result (findBridge handler device) sent = (.ok bridge?, sent')) :
    result (findAll handler (device :: rest)) sent =
      ((bridge?.toList ++ ·) <$> (result (findAll handler rest) sent').1,
        (result (findAll handler rest) sent').2) := by
  rw [findAll, result_bind, first]
  change result (findAll handler rest >>= _) sent' = _
  rw [result_bind]
  rcases result (findAll handler rest) sent' with ⟨_ | _, _⟩ <;> rfl

/-- Each bridge is at the host of some location and has the serial number in the reply from there.
So many requests have been made before. -/
def Identified (n : ℕ) (urls : List HttpUrl) (bridges : List BridgeIdentification) : Prop :=
  ∀ bridge ∈ bridges, ∃ k url, urls[k]? = some url ∧
    Identifies url.host (handler.getString (n + k) (hostRequest url)) bridge

variable {handler} in
theorem Identified.cons {n : ℕ} {url : HttpUrl} {bridge? : Option BridgeIdentification}
    {bridges : List BridgeIdentification} (first : ∀ bridge ∈ bridge?,
      Identifies url.host (handler.getString n (hostRequest url)) bridge)
    (later : Identified handler (n + 1) urls bridges) :
    Identified handler n (url :: urls) (bridge?.toList ++ bridges) := by
  intro bridge member
  rcases List.mem_append.mp member with here | there
  · exact ⟨0, url, rfl, first bridge (Option.mem_toList.mp here)⟩
  · obtain ⟨k, other, inside, identifies⟩ := later bridge there
    refine ⟨k + 1, other, inside, ?_⟩
    rwa [Nat.add_right_comm] at identifies

/-- Every location of a bridge has a port, until the reply from a host ends the discovery. So
many requests have been made before. -/
def Ported : ℕ → List HttpUrl → Prop
  | _, [] => True
  | n, url :: rest => url.port.isSome = true ∧
    (Proceeds (handler.getString n (hostRequest url)) → Ported (n + 1) rest)

/-- The requests only go to the hosts if the locations have ports. -/
theorem ported_of_requests (located : Located devices urls) (sent : List TextRequest) :
    ∃ asked, (result (findAll handler devices) sent).2 = sent ++ asked ∧
      (asked <+: urls.map hostRequest → Ported handler sent.length urls) := by
  induction located generalizing sent with
  | nil => exact ⟨[], by simp [findAll], fun _ => trivial⟩
  | other different later ih =>
      rw [findAll_cons_ok handler (findBridge_other handler different)]
      exact ih sent
  | bridge url named later ih =>
      -- the first request is to the host, and the later ones if they follow
      have port_of_request : ∀ {asked : List TextRequest} {others : List HttpUrl},
          descriptionRequest url.address :: asked <+: (url :: others).map hostRequest →
          url.address = url.host ∧ asked <+: others.map hostRequest := by
        intro asked others asks
        obtain ⟨same, later⟩ := List.cons_prefix_cons.mp asks
        exact ⟨String.ofList_injective (congrArg TextRequest.adr same), later⟩
      obtain ⟨outcome, ran, ⟨e, rfl, ends⟩ | ⟨bridge?, rfl, proceeds, -⟩⟩ :=
        findBridge_bridge handler url named sent
      · rw [findAll_cons_error handler ran]
        refine ⟨[descriptionRequest url.address], rfl, fun asks => ?_⟩
        obtain ⟨same, -⟩ := port_of_request asks
        refine ⟨url.address_eq_host_iff.mp same, fun proceeds => absurd ?_ ends⟩
        rwa [same]
      · rw [findAll_cons_ok handler ran]
        obtain ⟨asked, left, ported⟩ := ih (sent ++ [descriptionRequest url.address])
        refine ⟨descriptionRequest url.address :: asked, ?_, fun asks => ?_⟩
        · rw [left, List.append_assoc, List.singleton_append]
        · obtain ⟨same, later⟩ := port_of_request asks
          refine ⟨url.address_eq_host_iff.mp same, fun _ => ?_⟩
          simpa using ported later

/-- With ports the requests go to the hosts, and the identifications are those of hosts. -/
theorem findAll_of_ported (located : Located devices urls) (sent : List TextRequest)
    (ported : Ported handler sent.length urls) :
    ∃ asked, (result (findAll handler devices) sent).2 = sent ++ asked ∧
      asked <+: urls.map hostRequest ∧
      ∀ bridges, (result (findAll handler devices) sent).1 = .ok bridges →
        asked = urls.map hostRequest ∧ Identified handler sent.length urls bridges := by
  induction located generalizing sent with
  | nil =>
      refine ⟨[], by simp [findAll], List.nil_prefix, ?_⟩
      rintro bridges ⟨⟩
      exact ⟨rfl, nofun⟩
  | other different later ih =>
      obtain ⟨asked, left, asks, returns⟩ := ih sent ported
      rw [findAll_cons_ok handler (findBridge_other handler different)]
      refine ⟨asked, left, asks, fun bridges returned => ?_⟩
      obtain ⟨later, rest, rfl⟩ := Except.map_eq_ok_iff.mp returned
      exact returns later rest
  | bridge url named later ih =>
      obtain ⟨port, ported⟩ := ported
      have same := url.address_eq_host_iff.mpr port
      have found := findBridge_bridge handler url named sent
      rw [same] at found
      obtain ⟨outcome, ran, ⟨e, rfl, ends⟩ | ⟨bridge?, rfl, proceeds, identified⟩⟩ := found
      · rw [findAll_cons_error handler ran]
        refine ⟨[descriptionRequest url.host], rfl, ?_, nofun⟩
        exact List.cons_prefix_cons.mpr ⟨rfl, List.nil_prefix⟩
      · obtain ⟨asked, left, asks, returns⟩ :=
          ih (sent ++ [descriptionRequest url.host]) (by simpa using ported proceeds)
        rw [findAll_cons_ok handler ran]
        refine ⟨hostRequest url :: asked, ?_, List.cons_prefix_cons.mpr ⟨rfl, asks⟩, ?_⟩
        · rw [left, List.append_assoc]
          rfl
        · intro bridges returned
          obtain ⟨others, rest, rfl⟩ := Except.map_eq_ok_iff.mp returned
          obtain ⟨rfl, identifies⟩ := returns others rest
          rw [List.length_append] at identifies
          exact ⟨rfl, .cons identified identifies⟩

/-- The requests of a discovery go to the hosts of the locations, to all of them if it returns,
and what it returns are the hosts and the serial numbers that they describe. -/
def Faithful (urls : List HttpUrl)
    (run : Except Exception (List BridgeIdentification) × List TextRequest) : Prop :=
  run.2 <+: urls.map hostRequest ∧ ∀ bridges, run.1 = .ok bridges →
    run.2 = urls.map hostRequest ∧ Identified handler 0 urls bridges

theorem result_findBridges {timeout : ℤ}
    (discovered : UPnP.getDevices handler.sendMulticast timeout = .ok devices) :
    result (findBridges handler timeout) sent = result (findAll handler devices) sent := by
  rw [findBridges, result_bind, result_ofExcept, discovered]

/-- The real addresses are used exactly if the locations have ports. -/
theorem findBridges_faithful_iff {timeout : ℤ}
    (discovered : UPnP.getDevices handler.sendMulticast timeout = .ok devices)
    (located : Located devices urls) :
    Faithful handler urls (result (findBridges handler timeout) []) ↔ Ported handler 0 urls := by
  rw [result_findBridges handler discovered]
  constructor
  · rintro ⟨asks, -⟩
    obtain ⟨asked, left, ported⟩ := ported_of_requests handler located []
    rw [left] at asks
    exact ported asks
  · intro ported
    obtain ⟨asked, left, asks, returns⟩ := findAll_of_ported handler located [] ported
    rw [Faithful, left]
    exact ⟨asks, returns⟩

end Run

/-- The network with one bridge at this location. -/
def discoveryOf (location : Text) : DiscoveryHandler where
  sendMulticast := UPnP.receiving
    [UPnP.locationName ++ ' ' :: location ++ crlf ++ UPnP.serverName ++ ' ' :: ipBridge ++ crlf]
  getString := fun _ _ =>
    .ok (modelName ++ "</modelName>".toList ++ serialBegin ++ "00AB".toList ++ serialEnd)

/-- The location of a bridge, with or without a port. -/
def descriptionUrl (port : Option Text) : HttpUrl where
  host := "10.0.0.5".toList
  port := port
  path := "description.xml".toList
  noColon := by decide
  noSlash := by decide

theorem located_discoveryOf (url : HttpUrl) : Located [(url.text, ipBridge)] [url] :=
  .bridge url (List.infix_refl _) .nil

theorem findBridges_faithful_iff_port :
    Faithful (discoveryOf (descriptionUrl (some ['8', '0'])).text)
        [descriptionUrl (some ['8', '0'])]
        (result (findBridges (discoveryOf (descriptionUrl (some ['8', '0'])).text) 5) []) ↔
      Ported (discoveryOf (descriptionUrl (some ['8', '0'])).text) 0
        [descriptionUrl (some ['8', '0'])] :=
  have discovered :
      UPnP.getDevices (discoveryOf (descriptionUrl (some ['8', '0'])).text).sendMulticast 5 =
        .ok [((descriptionUrl (some ['8', '0'])).text, ipBridge)] := rfl
  findBridges_faithful_iff _ discovered (located_discoveryOf _)

/-- Without a port, the path is taken for a part of the address. -/
theorem path_in_address :
    ¬ ∀ (handler : DiscoveryHandler) (timeout : ℤ) (devices : List (Text × Text))
      (urls : List HttpUrl), UPnP.getDevices handler.sendMulticast timeout = .ok devices →
      Located devices urls →
      Faithful handler urls (result (findBridges handler timeout) []) := by
  intro claim
  have discovered :
      UPnP.getDevices (discoveryOf (descriptionUrl none).text).sendMulticast 5 =
        .ok [((descriptionUrl none).text, ipBridge)] := rfl
  have located := located_discoveryOf (descriptionUrl none)
  obtain ⟨asks, -⟩ := claim _ 5 _ _ discovered located
  obtain ⟨asked, left, ported⟩ :=
    ported_of_requests (discoveryOf (descriptionUrl none).text) located []
  rw [result_findBridges _ discovered, left] at asks
  exact nomatch (ported asks).1

end BridgeFinder

end Hueplusplus
