import Hueplusplus.Bridge.Discovery
import Hueplusplus.HttpHandler.Client
import Hueplusplus.HttpHandler.Datagrams

/-!
# A discovery over sockets

The replies to a multicast come in datagrams, and the description of each bridge over a
connection of its own. Here a discovery runs over the Linux back end: which bridges it finds is
a matter of what the replies and descriptions say, and not of the pieces they come in.
-/

namespace Hueplusplus

open Effect Text

/-- The discovery calls over sockets. Each description is requested over a connection of its
own. -/
def LinHttpHandler.discoveryHandler (multicast : String → ℤ → DatagramSocket)
    (sockets : ℕ → String → ℤ → Socket) : DiscoveryHandler where
  sendMulticast := LinHttpHandler.sendMulticast multicast
  getString n request :=
    BaseHttpHandler.GETString (LinHttpHandler.sendOver (sockets n)) request.uri.toList
      request.contentType.toList request.body.toList request.adr request.port

namespace UPnP

/-- The location and the server that the lines of a reply announce. -/
def announcement (lines : List Text) : Option (Text × Text) :=
  (field? locationName lines).bind fun location =>
    (field? serverName lines).map fun server => (location, server)

/-- The lines of a reply, in which the names of the two headers stand for the headers only. -/
structure IsReply (lines : List Text) : Prop where
  isLine : ∀ line ∈ lines, IsMessageLine line
  location : Names locationName lines
  server : Names serverName lines

theorem header_joinLines {lines : List Text} (isLine : ∀ line ∈ lines, IsMessageLine line)
    {name : Text} (names : Names name lines) (nonempty : name ≠ []) (noReturn : '\r' ∉ name)
    (noLineFeed : '\n' ∉ name) :
    header (joinLines lines) name (name.length + 1) = .ok (field? name lines) := by
  rcases field?_cases nonempty noReturn noLineFeed isLine names with ⟨none, absent⟩ |
    ⟨before, separator, value, after, found, plain, first, ends⟩
  · rw [none, header_of_absent absent]
  · rw [header_of_firstAt first, upTo_field first plain ends, found]
    rfl

theorem addDevice_joinLines {lines : List Text} (reply : IsReply lines)
    (devices : List (Text × Text)) :
    addDevice devices (joinLines lines) = .ok (keepNew devices (announcement lines)) := by
  have location : header (joinLines lines) locationName 10 = .ok (field? locationName lines) :=
    header_joinLines reply.isLine reply.location (by decide) (by decide) (by decide)
  have server : header (joinLines lines) serverName 8 = .ok (field? serverName lines) :=
    header_joinLines reply.isLine reply.server (by decide) (by decide) (by decide)
  rw [addDevice, location, Except.ok_bind, announcement]
  cases field? locationName lines with
  | none => rfl
  | some location =>
      dsimp only
      rw [server, Except.ok_bind]
      cases field? serverName lines <;> rfl

theorem foldlM_addDevice_replies {replies : List (List Text)}
    (isReply : ∀ lines ∈ replies, IsReply lines) (devices : List (Text × Text)) :
    (replies.map joinLines).foldlM addDevice devices =
      .ok ((replies.map announcement).foldl keepNew devices) := by
  induction replies generalizing devices with
  | nil => rfl
  | cons lines replies ih =>
      obtain ⟨reply, later⟩ := List.forall_mem_cons.mp isReply
      rw [List.map_cons, List.foldlM_cons, addDevice_joinLines reply, Except.ok_bind, ih later]
      rfl

end UPnP

namespace BridgeFinder

theorem parseDescription_of_hasSerial {description serial : Text}
    (h : HasSerial description serial) : parseDescription description = .ok serial := by
  obtain ⟨model, before, rest, after, opened, ends⟩ := h
  have occurs : serialEnd <:+: serialBegin ++ rest :=
    ends.occurs.trans (List.suffix_append _ _).isInfix
  obtain ⟨piece, later, closed⟩ := exists_firstAt occurs
  obtain ⟨serial', rfl, ends'⟩ := firstAt_serialEnd closed
  obtain ⟨rfl, rfl⟩ := ends.unique ends'
  exact parseDescription_of_tags model opened closed ends

theorem hasSerial_iff {description mac : Text} (nonempty : mac ≠ []) :
    HasSerial description mac ↔ parseDescription description = .ok mac := by
  refine ⟨parseDescription_of_hasSerial, fun parsed => ?_⟩
  obtain ⟨mac', parsed', has⟩ := parseDescription_returns description
  rw [parsed] at parsed'
  obtain rfl := Except.ok.inj parsed'
  exact has nonempty

/-- The reply is a description with this serial number, or no description of a bridge. Or the
connection has failed. -/
def Describes : Except Exception Text → Except ErrorCode (Option Text) → Prop
  | .ok description, .ok serial => ∀ mac, serial = some mac ↔ mac ≠ [] ∧ HasSerial description mac
  | .error (.hueException _), .ok serial => serial = none
  | .error (.systemError code), .error code' => code = code'
  | _, _ => False

/-- The bridge with this serial number at the address of a location. -/
def identification (url : HttpUrl) (serial : Text) : BridgeIdentification :=
  ⟨String.ofList url.address, 80, normalizeMac (String.ofList serial)⟩

section Discovered

variable (served : Text → Except ErrorCode (Option Text))

/-- The bridge at a location, by what is served at the address that this is cut to. -/
def bridgeAt (url : HttpUrl) : Except Exception (Option BridgeIdentification) :=
  match served url.address with
  | .error code => .error (.systemError code)
  | .ok serial => .ok (serial.map (identification url))

/-- What a discovery returns and which requests it makes. The addresses are asked one by one, until
a connection fails. -/
def discovered : List HttpUrl → Except Exception (List BridgeIdentification) × List TextRequest
  | [] => (.ok [], [])
  | url :: later =>
    match bridgeAt served url with
    | .error e => (.error e, [descriptionRequest url.address])
    | .ok bridge? =>
      ((bridge?.toList ++ ·) <$> (discovered later).1,
        descriptionRequest url.address :: (discovered later).2)

/-- Where the locations have ports and no connection fails, each bridge is asked at its host. -/
theorem discovered_of_ports {serials : Text → Option Text} {urls : List HttpUrl}
    (ports : ∀ url ∈ urls, url.port.isSome = true)
    (connected : ∀ url ∈ urls, served url.host = .ok (serials url.host)) :
    discovered served urls =
      (.ok (urls.filterMap fun url => (serials url.host).map (identification url)),
        urls.map hostRequest) := by
  induction urls with
  | nil => rfl
  | cons url urls ih =>
      obtain ⟨port, ports⟩ := List.forall_mem_cons.mp ports
      obtain ⟨here, connected⟩ := List.forall_mem_cons.mp connected
      have address := url.address_eq_host_iff.mpr port
      have first : bridgeAt served url = .ok ((serials url.host).map (identification url)) := by
        rw [bridgeAt, address, here]
      rw [discovered, first, ih ports connected, address]
      cases found : serials url.host with
      | none => rw [List.filterMap_cons_none (by rw [found]; rfl)]; rfl
      | some serial => rw [List.filterMap_cons_some (by rw [found]; rfl)]; rfl

end Discovered

section Run

variable {handler : DiscoveryHandler} {served : Text → Except ErrorCode (Option Text)}

theorem result_identify_of_describes {ip description : Text} {sent : List TextRequest}
    {serial : Option Text}
    (replied : handler.getString sent.length (descriptionRequest ip) = .ok description)
    (describes : ∀ mac, serial = some mac ↔ mac ≠ [] ∧ HasSerial description mac) :
    result (identify handler ip) sent =
      (.ok (serial.map fun serial => ⟨String.ofList ip, 80, normalizeMac (String.ofList serial)⟩),
        sent ++ [descriptionRequest ip]) := by
  obtain ⟨mac, parsed, -⟩ := parseDescription_returns description
  have ran : result (identify handler ip) sent =
      result (if mac.isEmpty then pure none
        else pure (some ⟨String.ofList ip, 80, normalizeMac (String.ofList mac)⟩))
        (sent ++ [descriptionRequest ip]) := by
    simp [identify, getString, replied, parsed]
  rw [ran]
  rcases eq_or_ne mac [] with rfl | nonempty
  · -- a serial number would have been found
    have absent : serial = none := by
      refine Option.eq_none_iff_forall_ne_some.mpr fun other same => ?_
      obtain ⟨nonempty, has⟩ := (describes other).mp same
      rw [parseDescription_of_hasSerial has] at parsed
      exact nonempty (Except.ok.inj parsed)
    rw [absent]
    rfl
  · rw [if_neg (by simpa using nonempty),
      (describes mac).mpr ⟨nonempty, (hasSerial_iff nonempty).mpr parsed⟩]
    rfl

/-- A request that fails ends the identification. -/
theorem result_identify_of_error {ip : Text} {sent : List TextRequest} {e : Exception}
    (replied : handler.getString sent.length (descriptionRequest ip) = .error e) :
    result (identify handler ip) sent = (.error e, sent ++ [descriptionRequest ip]) := by
  simp [identify, getString, replied]

/-- A bridge is identified by what is served at the address that its location is cut to. -/
theorem result_findBridge_of_describes {url : HttpUrl} {server : Text}
    (named : ipBridge <:+: server) {sent : List TextRequest}
    (describes : Describes (handler.getString sent.length (descriptionRequest url.address))
      (served url.address)) :
    result (findBridge handler (url.text, server)) sent =
      (bridgeAt served url, sent ++ [descriptionRequest url.address]) := by
  obtain ⟨before, after, first⟩ := exists_firstAt named
  simp only [findBridge, search_zero_of_firstAt first, Option.isSome_some, if_true,
    url.search_slashes, Option.elim_some, Nat.reduceAdd, result_bind, url.upTo_colon,
    result_ofExcept, result_tryCatch, bridgeAt]
  cases replied : handler.getString sent.length (descriptionRequest url.address) with
  | ok description =>
      rw [replied] at describes
      cases serves : served url.address with
      | ok serial =>
          rw [serves] at describes
          rw [result_identify_of_describes replied describes]
          rfl
      | error code =>
          rw [serves] at describes
          exact describes.elim
  | error e =>
      rw [replied] at describes
      rw [result_identify_of_error replied]
      cases serves : served url.address with
      | ok serial =>
          rw [serves] at describes
          cases e with
          | hueException message =>
              obtain rfl : serial = none := describes
              rfl
          | _ => exact describes.elim
      | error code =>
          rw [serves] at describes
          cases e with
          | systemError code' =>
              obtain rfl : code' = code := describes
              rfl
          | _ => exact describes.elim

/-- Each bridge among the devices is asked at its address, in their order, until a connection
fails. -/
theorem result_findAll_of_describes {devices : List (Text × Text)} {urls : List HttpUrl}
    (located : Located devices urls) (sent : List TextRequest)
    (describes : ∀ url ∈ urls, ∀ n,
      Describes (handler.getString n (descriptionRequest url.address)) (served url.address)) :
    result (findAll handler devices) sent =
      ((discovered served urls).1, sent ++ (discovered served urls).2) := by
  induction located generalizing sent with
  | nil => rw [discovered, List.append_nil]; rfl
  | other different later ih =>
      rw [findAll_cons_ok handler (findBridge_other handler different), ih sent describes]
      cases (discovered served _).1 <;> rfl
  | @bridge server rest urls url named later ih =>
      obtain ⟨here, describes⟩ := List.forall_mem_cons.mp describes
      have first := result_findBridge_of_describes named (here sent.length)
      rw [discovered]
      cases found : bridgeAt served url with
      | error e =>
          rw [found] at first
          rw [findAll_cons_error handler first]
      | ok bridge? =>
          rw [found] at first
          rw [findAll_cons_ok handler first, ih _ describes, List.append_assoc]
          rfl

end Run

/-- A connection serves the description of a bridge with this serial number, or something else, or
it fails. -/
def Serves (socket : Socket) : Except ErrorCode (Option Text) → Prop
  | .ok serial => socket.Accepting ∧ ∃ response, socket.response = .ok response ∧
    ∀ mac, serial = some mac ↔
      mac ≠ [] ∧ ∃ head body, FirstAt (crlf ++ crlf) response head body ∧ HasSerial body mac
  | .error code =>
    ∀ msg, (result (LinHttpHandler.send socket msg) .start).1 = .error (.systemError code)

theorem Serves.describes {socket : Socket} {serial : Except ErrorCode (Option Text)}
    (serves : Serves socket serial)
    {request : TextRequest} {sockets : String → ℤ → Socket}
    (connected : sockets request.adr request.port = socket) :
    Describes (BaseHttpHandler.GETString (LinHttpHandler.sendOver sockets) request.uri.toList
      request.contentType.toList request.body.toList request.adr request.port) serial := by
  rw [BaseHttpHandler.GETString, BaseHttpHandler.sendHTTPRequest,
    BaseHttpHandler.sendGetHTTPBody_eq, LinHttpHandler.sendOver, connected]
  cases serial with
  | error code =>
      rw [serves]
      exact rfl
  | ok serial =>
      obtain ⟨accepting, response, received, serial⟩ := serves
      rw [LinHttpHandler.send_response accepting, received, Except.ok_bind,
        BaseHttpHandler.bodyOf]
      by_cases occurs : crlf ++ crlf <:+: response
      · obtain ⟨head, body, first⟩ := exists_firstAt occurs
        have behind : response.drop (head.length + 4) = body := first.drop_length
        rw [search_zero_of_firstAt first]
        dsimp only
        rw [behind]
        intro mac
        rw [serial]
        refine and_congr_right fun _ => ⟨?_, fun has => ⟨head, body, first, has⟩⟩
        rintro ⟨head', body', first', has⟩
        obtain ⟨rfl, rfl⟩ := first.unique first'
        exact has
      · rw [search_zero_eq_none_iff.mpr occurs]
        refine Option.eq_none_iff_forall_ne_some.mpr fun mac same => ?_
        obtain ⟨-, head, body, first, -⟩ := (serial mac).mp same
        exact occurs first.occurs

/-- What a discovery relies on at the address that a location is cut to. -/
def Ready (sockets : ℕ → String → ℤ → Socket)
    (served : Text → Except ErrorCode (Option Text)) (url : HttpUrl) : Prop :=
  ∀ n, Serves (sockets n (String.ofList url.address) 80) (served url.address)

theorem exists_located {devices : List (Text × Text)} {good : HttpUrl → Prop}
    (bridges : ∀ device ∈ devices, ipBridge <:+: device.2 → ∃ url, good url ∧ url.text = device.1) :
    ∃ urls, Located devices urls ∧ ∀ url ∈ urls, good url := by
  induction devices with
  | nil => exact ⟨[], .nil, nofun⟩
  | cons device devices ih =>
      obtain ⟨location, server⟩ := device
      obtain ⟨here, later⟩ := List.forall_mem_cons.mp bridges
      obtain ⟨urls, located, all⟩ := ih later
      by_cases named : ipBridge <:+: server
      · obtain ⟨url, isGood, rfl⟩ := here named
        exact ⟨url :: urls, .bridge url named located, List.forall_mem_cons.mpr ⟨isGood, all⟩⟩
      · exact ⟨urls, .other named located, all⟩

variable {multicast : String → ℤ → DatagramSocket} {sockets : ℕ → String → ℤ → Socket}

/-- The replies may be repeated and come in any order, with pauses, and each connection may take
and give bytes in any pieces. For each location the first reply counts. Every bridge is asked at
the address that its location is cut to, which is the host if there is a port, until a connection
fails. -/
theorem findBridges_over_sockets {timeout : ℤ} {replies : List (List Text)}
    {served : Text → Except ErrorCode (Option Text)}
    (delivered : (multicast "239.255.255.250" 1900).Delivers timeout replies)
    (isReply : ∀ lines ∈ replies, UPnP.IsReply lines)
    (bridges : ∀ lines ∈ replies, ∀ location server,
      UPnP.announcement lines = some (location, server) → ipBridge <:+: server →
        ∃ url, Ready sockets served url ∧ url.text = location) :
    ∃ devices urls, FirstWins (replies.map UPnP.announcement) devices ∧ Located devices urls ∧
      result (findBridges (LinHttpHandler.discoveryHandler multicast sockets) timeout) [] =
        discovered served urls ∧
      (∀ url ∈ urls, url.address = url.host ↔ url.port.isSome = true) ∧
      ∀ serials : Text → Option Text, (∀ url ∈ urls, url.port.isSome = true) →
        (∀ url ∈ urls, served url.host = .ok (serials url.host)) →
        discovered served urls =
          (.ok (urls.filterMap fun url => (serials url.host).map (identification url)),
            urls.map hostRequest) := by
  have wins := firstWins_foldl (replies.map UPnP.announcement)
  have places : ∀ device ∈ (replies.map UPnP.announcement).foldl keepNew [],
      ipBridge <:+: device.2 → ∃ url, Ready sockets served url ∧ url.text = device.1 := by
    intro device kept
    obtain ⟨lines, member, announced⟩ := List.mem_map.mp (wins.mem_items kept)
    exact bridges lines member device.1 device.2 announced
  obtain ⟨urls, located, ready⟩ := exists_located places
  have received : (LinHttpHandler.discoveryHandler multicast sockets).sendMulticast
      UPnP.searchRequest "239.255.255.250" 1900 timeout = .ok (replies.map joinLines) :=
    LinHttpHandler.sendMulticast_of_delivers delivered
      (fun lines member => (isReply lines member).isLine) UPnP.searchRequest
  have devices : UPnP.getDevices
      (LinHttpHandler.discoveryHandler multicast sockets).sendMulticast timeout =
        .ok ((replies.map UPnP.announcement).foldl keepNew []) := by
    rw [UPnP.getDevices_eq received, UPnP.foldlM_addDevice_replies isReply]
  refine ⟨_, urls, wins, located, ?_, fun url _ => url.address_eq_host_iff,
    fun serials ports connected => discovered_of_ports served ports connected⟩
  rw [result_findBridges _ devices]
  exact result_findAll_of_describes located []
    fun url member n => (ready url member n).describes rfl

/-- The reply of a bridge. -/
def bridgeLines : List Text :=
  ["HTTP/1.1 200 OK".toList, "LOCATION: http://10.0.0.5:80/description.xml".toList,
    "SERVER: Linux/3.14.0 IpBridge/1.20.0".toList]

/-- Two replies of the bridge, with pauses. -/
def bridgeDatagrams : DatagramSocket where
  opened := .ok ()
  sendTo _ := .ok ()
  rounds := [(0, .again), (1, .datagram (LinHttpHandler.datagram bridgeLines)), (2, .again),
    (3, .datagram (LinHttpHandler.datagram bridgeLines)), (5, .failed (.other 0))]

theorem delivers_bridgeDatagrams : bridgeDatagrams.Delivers 5 [bridgeLines, bridgeLines] where
  opened := rfl
  sent _ := rfl
  received := rfl
  fits := by decide +kernel
  noError code := by simp [DatagramSocket.inTime, bridgeDatagrams]

/-- Takes a byte at a time, and gives the description in pieces. -/
def slowDescription : Socket :=
  { slowSocket with
    received := ["HTTP/1.0 200 OK\r\n\r".toList, "\n".toList ++ modelName ++ serialBegin,
      "00A".toList, "B".toList ++ serialEnd] }

theorem isReply_bridgeLines : UPnP.IsReply bridgeLines where
  isLine line member := by
    have plain : ∀ line ∈ bridgeLines, line ≠ [] ∧ '\r' ∉ line := by decide +kernel
    exact ⟨(plain line member).1, (plain line member).2⟩
  location line member occurs := by
    simp only [bridgeLines, List.mem_cons, List.not_mem_nil, or_false] at member
    rcases member with rfl | rfl | rfl
    · exact absurd occurs (by decide +kernel)
    · exact ⟨' ', "http://10.0.0.5:80/description.xml".toList, by decide +kernel⟩
    · exact absurd occurs (by decide +kernel)
  server line member occurs := by
    simp only [bridgeLines, List.mem_cons, List.not_mem_nil, or_false] at member
    rcases member with rfl | rfl | rfl
    · exact absurd occurs (by decide +kernel)
    · exact absurd occurs (by decide +kernel)
    · exact ⟨' ', "Linux/3.14.0 IpBridge/1.20.0".toList, by decide +kernel⟩

theorem serves_slowDescription : Serves slowDescription (.ok (some "00AB".toList)) := by
  have accepting : slowDescription.Accepting := ⟨rfl, slowSocket_accepting.nonneg,
    slowSocket_accepting.positive, slowSocket_accepting.le_count⟩
  have absent : '\r' ∉ "HTTP/1.0 200 OK".toList := by decide +kernel
  have first : FirstAt (crlf ++ crlf) slowDescription.received.flatten
      "HTTP/1.0 200 OK".toList (modelName ++ serialBegin ++ "00AB".toList ++ serialEnd) :=
    firstAt_of_notMem absent
  have parsed : parseDescription (modelName ++ serialBegin ++ "00AB".toList ++ serialEnd) =
      .ok "00AB".toList := by decide +kernel
  refine ⟨accepting, _, rfl, fun mac => ⟨?_, ?_⟩⟩
  · rintro ⟨⟩
    exact ⟨by decide, _, _, first, (hasSerial_iff (by decide)).mpr parsed⟩
  · rintro ⟨nonempty, head, body, first', has⟩
    obtain ⟨-, rfl⟩ := first.unique first'
    rw [hasSerial_iff nonempty, parsed] at has
    exact congrArg some (Except.ok.inj has)

theorem findBridges_over_sockets_slow :
    ∃ devices urls, FirstWins ([bridgeLines, bridgeLines].map UPnP.announcement) devices ∧
      Located devices urls ∧
      result (findBridges (LinHttpHandler.discoveryHandler (fun _ _ => bridgeDatagrams)
        fun _ _ _ => slowDescription) 5) [] =
        discovered (fun _ => .ok (some "00AB".toList)) urls := by
  obtain ⟨devices, urls, wins, located, found, -⟩ := @findBridges_over_sockets
    (fun _ _ => bridgeDatagrams) (fun _ _ _ => slowDescription) 5 [bridgeLines, bridgeLines]
    (fun _ => .ok (some "00AB".toList)) delivers_bridgeDatagrams
    (by simpa using isReply_bridgeLines) fun lines member location server announced _ => by
      obtain rfl : lines = bridgeLines := by simpa using member
      have expected : UPnP.announcement bridgeLines = some
          ((descriptionUrl (some ['8', '0'])).text, "Linux/3.14.0 IpBridge/1.20.0".toList) := by
        decide +kernel
      rw [expected] at announced
      obtain ⟨rfl, -⟩ := Prod.mk.inj (Option.some.inj announced)
      exact ⟨descriptionUrl (some ['8', '0']), fun _ => serves_slowDescription, rfl⟩
  exact ⟨devices, urls, wins, located, found⟩

end BridgeFinder

end Hueplusplus
