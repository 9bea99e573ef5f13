import Hueplusplus.Bridge.Network

/-!
# The Windows back end

On Windows a request is handed over in a single call, and an error while datagrams are received
is not looked at. A datagram that is longer than the buffer is such an error, where Linux cuts
it. The address that a multicast is sent to is made from the bytes of a socket address as if they
were its text, and so it is always that of a broadcast. Where this does not matter the back ends
can be exchanged: over connections with the same responses, commands and discoveries end in the
same way, whatever pieces and pauses there are on either side. The codes of the errors of the two
systems differ.
-/

namespace Hueplusplus

open Effect Text

/-- What the operating system returns on Windows. -/
structure WinDatagramSocket where
  /-- Of the calls up to `setsockopt`. -/
  opened : Except Exception Unit
  /-- The bytes of the address that `getaddrinfo` has found. -/
  resolved : Text
  /-- Of the call that sends these bytes to an address. -/
  sendTo : ℕ → Text → Except ErrorCode Unit
  /-- Of `shutdown`, after the message is sent. -/
  shut : Except ErrorCode Unit
  /-- Of the calls to receive, each with the time since the start. -/
  rounds : List (ℤ × Reception)

/-- The rounds before the time is over. -/
def WinDatagramSocket.inTime (socket : WinDatagramSocket) (timeout : ℤ) : List Reception :=
  (socket.rounds.takeWhile (·.1 < timeout)).map Prod.snd

namespace WinHttpHandler

/-- The loop of `sendMulticast` that receives. -/
def receiveLoop (timeout : ℤ) (response : Text) : List (ℤ × Reception) → Text
  | [] => response
  | (elapsed, reception) :: later =>
    if elapsed < timeout then
      match reception with
      | .datagram bytes =>
        if bytes.length ≤ LinHttpHandler.bufferSize then
          receiveLoop timeout (response ++ bytes) later
        else receiveLoop timeout response later
      -- No exception here due to non blocking socket
      | .again | .failed _ => receiveLoop timeout response later
    else response

/-- `INADDR_NONE`, which is the broadcast address 255.255.255.255. -/
def inaddrNone : ℕ := 0xFFFFFFFF

/-- The bytes of a `sockaddr_in`: the family `AF_INET`, which is 2, with its lowest byte first, the
port, the address and padding. -/
def sockaddrIn (port : ℤ) (address : Text) : Text :=
  Char.ofNat 2 :: nul :: Char.ofNat (port / 256 % 256).toNat :: Char.ofNat (port % 256).toNat ::
    (address ++ List.replicate 8 nul)

/-- `sendMulticast` over the sockets that are opened for an address and a port. The function
`inet_addr` reads an address from a text. -/
def sendMulticast (inetAddr : Text → ℕ) (sockets : String → ℤ → WinDatagramSocket) : Multicast :=
  fun msg adr port timeout => do
    let socket := sockets adr port
    socket.opened
    match socket.sendTo (inetAddr (sockaddrIn port socket.resolved).cStr) msg with
    | .error code => throw (.systemError code)
    | .ok () =>
      match socket.shut with
      | .error code => throw (.systemError code)
      | .ok () => returnVector (receiveLoop timeout [] socket.rounds)

/-- `send` over the sockets that connections to an address and a port get. -/
def sendOver (sockets : String → ℤ → Socket) : Send := fun msg adr port =>
  (result (send (sockets adr port) msg) .start).1

/-- The handler that opens a connection for each attempt. -/
def handler (json : JsonText) (sockets : ℕ → String → ℤ → Socket) : IHttpHandler :=
  BaseHttpHandler.handler json fun attempt => sendOver (sockets attempt)

@[inherit_doc LinHttpHandler.discoveryHandler]
def discoveryHandler (inetAddr : Text → ℕ) (multicast : String → ℤ → WinDatagramSocket)
    (sockets : ℕ → String → ℤ → Socket) : DiscoveryHandler where
  sendMulticast := sendMulticast inetAddr multicast
  getString n request :=
    BaseHttpHandler.GETString (sendOver (sockets n)) request.uri.toList
      request.contentType.toList request.body.toList request.adr request.port

end WinHttpHandler

/-- Errors of the two systems, which a command is repeated after or not. -/
def SameCode (code code' : ErrorCode) : Prop := code.retried = code'.retried

/-- The same exception, or errors of the two systems. -/
inductive SameError : Exception → Exception → Prop where
  | same (e : Exception) : SameError e e
  | system {code code' : ErrorCode} (same : SameCode code code') :
    SameError (.systemError code) (.systemError code')

/-- Two connections to the same place. They take and give bytes in their own pieces, but on
Windows the only call to send has to take all of them. -/
inductive Socket.Counterpart (linux windows : Socket) : Prop where
  | refused {e e' : Exception} (same : SameError e e') (linuxOpened : linux.opened = .error e)
    (windowsOpened : windows.opened = .error e')
  | connected (linuxAccepting : linux.Accepting) (windowsAccepting : windows.Accepting)
    (whole : ∀ count, 0 ≤ count → windows.accept 0 count = count)
    (response : linux.response.UpTo SameError windows.response) (shut : windows.shut = .ok ())

namespace WinHttpHandler

theorem toInt_of_lt {n : ℕ} (short : n < 2 ^ 31) : toInt n = n :=
  Int.bmod_eq_of_le (by omega) (by omega)

/-- The call to send and `shutdown` do not decide about the result. -/
theorem send_response {socket : Socket} (accepting : socket.Accepting)
    (shut : socket.shut = .ok ()) {msg : Text} (short : msg.length < 2 ^ 31) :
    (result (send socket msg) .start).1 = socket.response := by
  have written := @Socket.returns_write socket msg (toInt msg.length) .start
  have accepted : ¬ socket.accept 0 (toInt msg.length) = -1 := by
    have nonneg := accepting.nonneg 0 msg.length (Int.natCast_nonneg _)
    rw [toInt_of_lt short]
    omega
  rw [send, (accepting.returns_opened _).result_bind, written.result_bind]
  split_ifs with failed
  · exact absurd failed accepted
  · simp only [shut, bind_pure]
    rw [Socket.receive_eq, List.nil_append]
    rfl

end WinHttpHandler

namespace Socket.Counterpart

variable {linux windows : Socket}

/-- What is received does not depend on the back end. -/
theorem response_upTo (counterpart : linux.Counterpart windows) {msg : Text}
    (short : msg.length < 2 ^ 31) :
    (result (LinHttpHandler.send linux msg) .start).1.UpTo SameError
      (result (WinHttpHandler.send windows msg) .start).1 := by
  cases counterpart with
  | refused same linuxOpened windowsOpened =>
      rw [LinHttpHandler.send, WinHttpHandler.send, linuxOpened, windowsOpened]
      exact .error same
  | connected linuxAccepting windowsAccepting whole response shut =>
      rw [LinHttpHandler.send_response linuxAccepting,
        WinHttpHandler.send_response windowsAccepting shut short]
      exact response

/-- Once connected, both back ends send the message as a whole. -/
theorem sends_whole (counterpart : linux.Counterpart windows) (opened : linux.opened = .ok ())
    {msg : Text} (short : msg.length < 2 ^ 31) :
    SendsWhole (LinHttpHandler.send linux msg) msg ∧
      SendsWhole (WinHttpHandler.send windows msg) msg := by
  cases counterpart with
  | refused same linuxOpened =>
      rw [opened] at linuxOpened
      exact nomatch linuxOpened
  | connected linuxAccepting windowsAccepting whole =>
      refine ⟨LinHttpHandler.send_sendsWhole linuxAccepting msg, ?_⟩
      rw [WinHttpHandler.send_sendsWhole_iff windowsAccepting, WinHttpHandler.toInt_of_lt short]
      exact whole _ (Int.natCast_nonneg _)

end Socket.Counterpart

section Requests

variable {linux windows : String → ℤ → Socket}

open BaseHttpHandler in
theorem sendHTTPRequest_counterpart {adr : String} {port : ℤ}
    (counterpart : (linux adr port).Counterpart (windows adr port))
    {method uri contentType body : Text}
    (short : (request method uri contentType body).length < 2 ^ 31) :
    (sendHTTPRequest (LinHttpHandler.sendOver linux) method uri contentType body adr port).UpTo
      SameError
      (sendHTTPRequest (WinHttpHandler.sendOver windows) method uri contentType body adr port) := by
  have shorter : (request method uri contentType body).cStr.length < 2 ^ 31 :=
    (List.takeWhile_prefix _).length_le.trans_lt short
  simp only [sendHTTPRequest, sendGetHTTPBody_eq]
  exact (counterpart.response_upTo shorter).bind_same .same bodyOf

/-- A command is repeated on both systems or on neither. -/
theorem runWithTimeout_upTo {fn fn' : ℕ → Except Exception Json}
    (same : ∀ attempt, (fn attempt).UpTo SameError (fn' attempt)) :
    (runWithTimeout fn).UpTo SameError (runWithTimeout fn') := by
  have first := same 0
  unfold runWithTimeout
  generalize fn 0 = x, fn' 0 = y at first
  cases first with
  | ok json => exact .ok json
  | @error e e' related =>
      cases related with
      | same =>
          cases e with
          | systemError code =>
              dsimp only
              split
              · exact same 1
              · exact .error (SameError.same _)
          | _ => exact .error (SameError.same _)
      | @system code code' agree =>
          have agrees : code.retried = code'.retried := agree
          dsimp only
          rw [agrees]
          split
          · exact same 1
          · exact .error (.system agree)

end Requests

open BaseHttpHandler in
/-- A command ends in the same way over both back ends. -/
theorem request_counterpart {json : JsonText} {linux windows : ℕ → String → ℤ → Socket}
    {commands : HueCommandAPI} (handled : commands.httpHandler = LinHttpHandler.handler json linux)
    (counterparts : ∀ attempt, (linux attempt commands.ip commands.port).Counterpart
      (windows attempt commands.ip commands.port))
    {verb : HttpVerb} {path : String} {body : Json}
    (short : (request verb.text (commands.combinedPath path).toList jsonType
      (json.dump body)).length < 2 ^ 31) :
    (commands.request (fun handler => handler.json verb) path body).UpTo SameError
      ({ commands with httpHandler := WinHttpHandler.handler json windows }.request
        (fun handler => handler.json verb) path body) := by
  have same (attempt : ℕ) :
      (commands.httpHandler.json verb attempt (commands.combinedPath path) body commands.ip
        commands.port).UpTo SameError
        ((WinHttpHandler.handler json windows).json verb attempt (commands.combinedPath path) body
          commands.ip commands.port) := by
    rw [handled, LinHttpHandler.handler, WinHttpHandler.handler, json_handler, json_handler]
    exact (sendHTTPRequest_counterpart (counterparts attempt) short).bind_same .same json.parse
  exact (runWithTimeout_upTo same).bind_same .same HueCommandAPI.handleError

namespace WinHttpHandler

/-- The loop appends the datagrams that are received in time and fit into the buffer. -/
theorem receiveLoop_eq (timeout : ℤ) (response : Text) (rounds : List (ℤ × Reception)) :
    receiveLoop timeout response rounds = response ++
      ((((rounds.takeWhile (·.1 < timeout)).map Prod.snd).filterMap Reception.datagram?).filter
        (·.length ≤ LinHttpHandler.bufferSize)).flatten := by
  induction rounds generalizing response with
  | nil => simp [receiveLoop]
  | cons round later ih =>
      obtain ⟨elapsed, reception⟩ := round
      by_cases early : elapsed < timeout
      · have taken : ((elapsed, reception) :: later).takeWhile (·.1 < timeout) =
            (elapsed, reception) :: later.takeWhile (·.1 < timeout) :=
          List.takeWhile_cons_of_pos (decide_eq_true early)
        rw [taken, List.map_cons]
        cases reception with
        | datagram bytes =>
            have kept : Reception.datagram? (.datagram bytes) = some bytes := rfl
            rw [List.filterMap_cons_some kept, List.filter_cons, receiveLoop, if_pos early]
            by_cases short : bytes.length ≤ LinHttpHandler.bufferSize
            · rw [if_pos short, if_pos (decide_eq_true short), ih, List.flatten_cons,
                List.append_assoc]
            · rw [if_neg short, if_neg (by simpa using short), ih]
        | again | failed _ =>
            rw [receiveLoop, if_pos early, ih]
            rfl
      · have ended : ((elapsed, reception) :: later).takeWhile (·.1 < timeout) = [] :=
          List.takeWhile_cons_of_neg (by simpa using early)
        have stops : receiveLoop timeout response ((elapsed, reception) :: later) = response := by
          cases reception <;> exact if_neg early
        rw [ended, stops]
        simp

end WinHttpHandler

/-- Whatever address was found, the bytes of the socket address are not the text of one. -/
theorem WinHttpHandler.inetAddr_sockaddrIn {inetAddr : Text → ℕ}
    (illegal : ∀ c rest, c.isDigit = false → c ≠ ' ' → inetAddr (c :: rest) = inaddrNone) (port : ℤ)
    (address : Text) : inetAddr (sockaddrIn port address).cStr = inaddrNone :=
  illegal (Char.ofNat 2) _ (by decide) (by decide)

/-- Two sockets that receive the same datagrams in time. Linux sends to the group, Windows to all.
On Windows errors may come between the datagrams. -/
structure DatagramSocket.Counterpart (linux : DatagramSocket) (windows : WinDatagramSocket)
    (timeout : ℤ) : Prop where
  opened : linux.opened.UpTo SameError windows.opened
  sent : ∀ bytes, (linux.sendTo bytes).UpTo SameCode
    (windows.sendTo WinHttpHandler.inaddrNone bytes)
  shut : windows.shut = .ok ()
  received : (linux.inTime timeout).filterMap Reception.datagram? =
    (windows.inTime timeout).filterMap Reception.datagram?
  fits : ∀ bytes ∈ (linux.inTime timeout).filterMap Reception.datagram?,
    bytes.length ≤ LinHttpHandler.bufferSize
  noError : ∀ code, .failed code ∉ linux.inTime timeout

theorem DatagramSocket.Counterpart.sendMulticast_upTo {inetAddr : Text → ℕ}
    (illegal : ∀ c rest, c.isDigit = false → c ≠ ' ' →
      inetAddr (c :: rest) = WinHttpHandler.inaddrNone)
    {linux : String → ℤ → DatagramSocket}
    {windows : String → ℤ → WinDatagramSocket} {adr : String} {port timeout : ℤ}
    (counterpart : (linux adr port).Counterpart (windows adr port) timeout) {msg : Text}
    (plain : nul ∉ msg) :
    (LinHttpHandler.sendMulticast linux msg adr port timeout).UpTo SameError
      (WinHttpHandler.sendMulticast inetAddr windows msg adr port timeout) := by
  have all : ((linux adr port).inTime timeout).filterMap Reception.datagram? =
      (((windows adr port).inTime timeout).filterMap Reception.datagram?).filter
        (·.length ≤ LinHttpHandler.bufferSize) := by
    rw [← counterpart.received]
    exact (List.filter_eq_self.mpr fun bytes member =>
      decide_eq_true (counterpart.fits bytes member)).symm
  have loop := LinHttpHandler.receiveLoop_eq all (all ▸ counterpart.fits) counterpart.noError []
  have loop' := WinHttpHandler.receiveLoop_eq timeout [] (windows adr port).rounds
  simp only [LinHttpHandler.sendMulticast, WinHttpHandler.sendMulticast, cStr_of_notMem plain,
    counterpart.shut, WinHttpHandler.inetAddr_sockaddrIn illegal]
  refine counterpart.opened.bind fun _ => ?_
  have sent := counterpart.sent msg
  generalize (linux adr port).sendTo msg = x,
    (windows adr port).sendTo WinHttpHandler.inaddrNone msg = y at sent
  cases sent with
  | error same => exact .error (.system same)
  | ok _ =>
      dsimp only
      rw [loop, loop']
      exact .refl .same _

namespace BridgeFinder

/-- Two results of discoveries that have made the same requests. -/
structure Matches {α : Type} (x y : Except Exception α × List TextRequest) : Prop where
  value : x.1.UpTo SameError y.1
  requests : x.2 = y.2

theorem matches_bind {α β : Type} {x y : DiscoveryM α} {f g : α → DiscoveryM β}
    {s : List TextRequest} (first : Matches (result x s) (result y s))
    (second : ∀ a t, Matches (result (f a) t) (result (g a) t)) :
    Matches (result (x >>= f) s) (result (y >>= g) s) := by
  rw [result_bind, result_bind]
  generalize result x s = left, result y s = right at first
  obtain ⟨outcome, requests⟩ := left
  obtain ⟨outcome', requests'⟩ := right
  obtain ⟨value, rfl⟩ := first
  cases value with
  | ok a => exact second a requests
  | error related => exact ⟨.error related, rfl⟩

theorem matches_refl {α : Type} (x : DiscoveryM α) (s : List TextRequest) :
    Matches (result x s) (result x s) :=
  ⟨.refl .same _, rfl⟩

section Handlers

variable {handler handler' : DiscoveryHandler}
  (descriptions : ∀ n ip, (handler.getString n (descriptionRequest ip)).UpTo SameError
    (handler'.getString n (descriptionRequest ip)))
include descriptions

theorem matches_identify (ip : Text) (s : List TextRequest) :
    Matches (result (identify handler ip) s) (result (identify handler' ip) s) := by
  refine matches_bind ?_ fun description t => matches_refl _ t
  simp only [getString, result_bind, result_get, result_modify, result_ofExcept]
  exact ⟨descriptions s.length ip, rfl⟩

/-- The errors that are not caught are those of the systems. -/
theorem matches_findBridge (device : Text × Text) (s : List TextRequest) :
    Matches (result (findBridge handler device) s) (result (findBridge handler' device) s) := by
  unfold findBridge
  split
  · refine matches_bind (matches_refl _ s) fun ip t => ?_
    rw [result_tryCatch, result_tryCatch]
    have identified := matches_identify descriptions ip t
    generalize result (identify handler ip) t = left,
      result (identify handler' ip) t = right at identified
    obtain ⟨outcome, requests⟩ := left
    obtain ⟨outcome', requests'⟩ := right
    obtain ⟨value, rfl⟩ := identified
    cases value with
    | ok bridge? => exact ⟨.ok bridge?, rfl⟩
    | error related =>
        cases related with
        | same e => exact matches_refl _ requests
        | system same => exact ⟨.error (.system same), rfl⟩
  · exact matches_refl _ s

theorem matches_findAll (devices : List (Text × Text)) (s : List TextRequest) :
    Matches (result (findAll handler devices) s) (result (findAll handler' devices) s) := by
  induction devices generalizing s with
  | nil => exact matches_refl _ s
  | cons device rest ih =>
      refine matches_bind (matches_findBridge descriptions device s) fun bridge t => ?_
      exact matches_bind (ih t) fun bridges u => matches_refl _ u

theorem matches_findBridges {timeout : ℤ}
    (multicast : (handler.sendMulticast UPnP.searchRequest "239.255.255.250" 1900 timeout).UpTo
      SameError (handler'.sendMulticast UPnP.searchRequest "239.255.255.250" 1900 timeout))
    (s : List TextRequest) :
    Matches (result (findBridges handler timeout) s) (result (findBridges handler' timeout) s) := by
  refine matches_bind ?_ fun devices t => matches_findAll descriptions devices t
  rw [result_ofExcept, result_ofExcept]
  exact ⟨multicast.bind_same .same _, rfl⟩

end Handlers

end BridgeFinder

section BackEnds

variable {linux windows : ℕ → String → ℤ → Socket} {multicast : String → ℤ → DatagramSocket}
  {winMulticast : String → ℤ → WinDatagramSocket} {inetAddr : Text → ℕ}

theorem BridgeFinder.findBridges_counterpart {timeout : ℤ}
    (illegal : ∀ c rest, c.isDigit = false → c ≠ ' ' →
      inetAddr (c :: rest) = WinHttpHandler.inaddrNone)
    (connections : ∀ attempt adr port,
      (linux attempt adr port).Counterpart (windows attempt adr port))
    (datagrams : (multicast "239.255.255.250" 1900).Counterpart
      (winMulticast "239.255.255.250" 1900) timeout) :
    Matches (result (findBridges (LinHttpHandler.discoveryHandler multicast linux) timeout) [])
      (result (findBridges (WinHttpHandler.discoveryHandler inetAddr winMulticast windows) timeout)
        []) := by
  have short : (BaseHttpHandler.request "GET".toList "/description.xml".toList
      "application/xml".toList "".toList).length < 2 ^ 31 := by decide +kernel
  have descriptions (n : ℕ) (ip : Text) :
      ((LinHttpHandler.discoveryHandler multicast linux).getString n (descriptionRequest ip)).UpTo
        SameError ((WinHttpHandler.discoveryHandler inetAddr winMulticast windows).getString n
          (descriptionRequest ip)) :=
    sendHTTPRequest_counterpart (connections n _ _) short
  exact matches_findBridges descriptions
    (datagrams.sendMulticast_upTo illegal (by decide +kernel)) []

/-- The back ends can be exchanged. Between sockets that are counterparts, each message is sent as
a whole by both, and commands and discoveries end in the same way. Text that does not begin with
a digit is no address. -/
theorem back_ends_agree (json : JsonText) {timeout : ℤ}
    (illegal : ∀ c rest, c.isDigit = false → c ≠ ' ' →
      inetAddr (c :: rest) = WinHttpHandler.inaddrNone)
    (connections : ∀ attempt adr port,
      (linux attempt adr port).Counterpart (windows attempt adr port))
    (datagrams : (multicast "239.255.255.250" 1900).Counterpart
      (winMulticast "239.255.255.250" 1900) timeout) :
    (∀ attempt adr port (msg : Text), msg.length < 2 ^ 31 →
      (linux attempt adr port).opened = .ok () →
        SendsWhole (LinHttpHandler.send (linux attempt adr port) msg) msg ∧
          SendsWhole (WinHttpHandler.send (windows attempt adr port) msg) msg) ∧
    (∀ (commands : HueCommandAPI) (verb : HttpVerb) (path : String) (body : Json),
      commands.httpHandler = LinHttpHandler.handler json linux →
      (BaseHttpHandler.request verb.text (commands.combinedPath path).toList
        BaseHttpHandler.jsonType (json.dump body)).length < 2 ^ 31 →
      (commands.request (fun handler => handler.json verb) path body).UpTo SameError
        ({ commands with httpHandler := WinHttpHandler.handler json windows }.request
          (fun handler => handler.json verb) path body)) ∧
    BridgeFinder.Matches
      (result (BridgeFinder.findBridges (LinHttpHandler.discoveryHandler multicast linux) timeout)
        [])
      (result (BridgeFinder.findBridges
        (WinHttpHandler.discoveryHandler inetAddr winMulticast windows) timeout) []) := by
  refine ⟨?_, ?_, BridgeFinder.findBridges_counterpart illegal connections datagrams⟩
  · intro attempt adr port msg short opened
    exact (connections attempt adr port).sends_whole opened short
  · intro commands verb path body handled short
    exact request_counterpart handled (fun attempt => connections attempt _ _) short

end BackEnds

/-- Takes a message as a whole, and gives the response of `slowReply` in one piece. -/
def quickReply : Socket where
  opened := .ok ()
  accept _ count := count
  received := [slowReply.received.flatten]
  closed := .ok ()
  shut := .ok ()
  errno := .other 0

theorem counterpart_quickReply : slowReply.Counterpart quickReply :=
  .connected
    ⟨rfl, slowSocket_accepting.nonneg, slowSocket_accepting.positive,
      slowSocket_accepting.le_count⟩
    ⟨rfl, fun _ _ nonneg => nonneg, fun _ _ positive => positive, fun _ _ => le_rfl⟩
    (fun _ _ => rfl) (.ok _) rfl

/-- The replies of `BridgeFinder.bridgeDatagrams` at other times, with an error between them. -/
def windowsDatagrams : WinDatagramSocket where
  opened := .ok ()
  resolved := [239, 255, 255, 250].map Char.ofNat
  sendTo address _ := if address = WinHttpHandler.inaddrNone then .ok () else .error (.other 10051)
  shut := .ok ()
  rounds := [(0, .datagram (LinHttpHandler.datagram BridgeFinder.bridgeLines)),
    (1, .failed (.other 10054)), (4, .datagram (LinHttpHandler.datagram BridgeFinder.bridgeLines))]

theorem counterpart_windowsDatagrams :
    BridgeFinder.bridgeDatagrams.Counterpart windowsDatagrams 5 where
  opened := .ok _
  sent _ := .ok _
  shut := rfl
  received := rfl
  fits := by
    rw [BridgeFinder.delivers_bridgeDatagrams.received]
    exact List.forall_mem_map.mpr BridgeFinder.delivers_bridgeDatagrams.fits
  noError := BridgeFinder.delivers_bridgeDatagrams.noError

theorem back_ends_agree_slow :
    BridgeFinder.Matches
      (result (BridgeFinder.findBridges (LinHttpHandler.discoveryHandler
        (fun _ _ => BridgeFinder.bridgeDatagrams) fun _ _ _ => slowReply) 5) [])
      (result (BridgeFinder.findBridges (WinHttpHandler.discoveryHandler
        (fun _ => WinHttpHandler.inaddrNone) (fun _ _ => windowsDatagrams)
        fun _ _ _ => quickReply) 5) []) :=
  (back_ends_agree emptyObjectText (fun _ _ _ _ => rfl) (fun _ _ _ => counterpart_quickReply)
    counterpart_windowsDatagrams).2.2

end Hueplusplus
