import Hueplusplus.Foundation.MessageLines
import Hueplusplus.HttpHandler.Multicast

/-!
# Replies in datagrams

The Linux back end sends a multicast and then asks for datagrams until the time is over. It
appends what it gets and takes the messages out of that in the end, so the borders of the
datagrams do not count. A datagram that is longer than the buffer loses its end.
-/

namespace Hueplusplus

open Text

/-- What a call to receive gives that does not wait. -/
inductive Reception where
  | datagram (bytes : Text)
  /-- `EAGAIN` or `EWOULDBLOCK`. -/
  | again
  | failed (code : ErrorCode)

def Reception.datagram? : Reception → Option Text
  | .datagram bytes => some bytes
  | .again | .failed _ => none

/-- What the operating system returns. -/
structure DatagramSocket where
  /-- Of the calls up to `socket`. -/
  opened : Except Exception Unit
  /-- Of the call that sends these bytes. -/
  sendTo : Text → Except ErrorCode Unit
  /-- Of the calls to receive, each with the time since the start, as long as the clock is asked
  before the time is over. -/
  rounds : List (ℤ × Reception)

namespace LinHttpHandler

/-- The size of the receive buffer. -/
def bufferSize : ℕ := 2048

/-- The loop of `sendMulticast` that receives. -/
def receiveLoop (timeout : ℤ) (response : Text) : List (ℤ × Reception) → Except Exception Text
  | [] => return response
  | (elapsed, reception) :: later =>
    if elapsed < timeout then
      match reception with
      | .datagram bytes => receiveLoop timeout (response ++ bytes.take bufferSize) later
      | .again => receiveLoop timeout response later
      | .failed code => throw (.systemError code)
    else return response

/-- `sendMulticast` over the sockets that are opened for an address and a port. -/
def sendMulticast (sockets : String → ℤ → DatagramSocket) : Multicast :=
  fun msg adr port timeout => do
    let socket := sockets adr port
    socket.opened
    match socket.sendTo msg.cStr with
    | .error code => throw (.systemError code)
    | .ok () => returnVector (← receiveLoop timeout [] socket.rounds)

/-- The bytes of a message with these lines. -/
def datagram (lines : List Text) : Text := joinLines lines ++ (crlf ++ crlf)

end LinHttpHandler

open LinHttpHandler

namespace DatagramSocket

/-- The rounds before the time is over. -/
def inTime (socket : DatagramSocket) (timeout : ℤ) : List Reception :=
  (socket.rounds.takeWhile (·.1 < timeout)).map Prod.snd

/-- The message is sent. In time these replies are received, with any number of rounds in vain
between them, and each fits into the buffer. -/
structure Delivers (socket : DatagramSocket) (timeout : ℤ) (replies : List (List Text)) :
    Prop where
  opened : socket.opened = .ok ()
  sent : ∀ bytes, socket.sendTo bytes = .ok ()
  received : (socket.inTime timeout).filterMap Reception.datagram? = replies.map datagram
  fits : ∀ lines ∈ replies, (datagram lines).length ≤ bufferSize
  noError : ∀ code, .failed code ∉ socket.inTime timeout

end DatagramSocket

namespace LinHttpHandler

/-- The loop appends the datagrams that are received in time. -/
theorem receiveLoop_eq {timeout : ℤ} {rounds : List (ℤ × Reception)} {datagrams : List Text}
    (received : ((rounds.takeWhile (·.1 < timeout)).map Prod.snd).filterMap Reception.datagram? =
      datagrams)
    (fits : ∀ bytes ∈ datagrams, bytes.length ≤ bufferSize)
    (noError : ∀ code, .failed code ∉ (rounds.takeWhile (·.1 < timeout)).map Prod.snd)
    (response : Text) :
    receiveLoop timeout response rounds = .ok (response ++ datagrams.flatten) := by
  subst received
  induction rounds generalizing response with
  | nil => simp [receiveLoop]
  | cons round later ih =>
      obtain ⟨elapsed, reception⟩ := round
      by_cases early : elapsed < timeout
      · have taken : ((elapsed, reception) :: later).takeWhile (·.1 < timeout) =
            (elapsed, reception) :: later.takeWhile (·.1 < timeout) :=
          List.takeWhile_cons_of_pos (decide_eq_true early)
        rw [taken, List.map_cons] at fits noError ⊢
        have noError' := fun code => mt (List.mem_cons_of_mem _) (noError code)
        cases reception with
        | datagram bytes =>
            have kept : Reception.datagram? (.datagram bytes) = some bytes := rfl
            rw [List.filterMap_cons_some kept] at fits ⊢
            obtain ⟨short, fits⟩ := List.forall_mem_cons.mp fits
            rw [receiveLoop, if_pos early, List.take_of_length_le short, ih noError' _ fits,
              List.flatten_cons, List.append_assoc]
        | again =>
            have dropped : Reception.datagram? .again = none := rfl
            rw [List.filterMap_cons_none dropped] at fits ⊢
            rw [receiveLoop, if_pos early]
            exact ih noError' response fits
        | failed code => exact absurd List.mem_cons_self (noError code)
      · have ended : ((elapsed, reception) :: later).takeWhile (·.1 < timeout) = [] :=
          List.takeWhile_cons_of_neg (by simpa using early)
        have stops : receiveLoop timeout response ((elapsed, reception) :: later) =
            .ok response := by
          cases reception <;> exact if_neg early
        rw [ended, stops]
        simp

/-- Messages that follow each other are found one by one. -/
theorem splitReplies_datagrams {replies : List (List Text)}
    (isLine : ∀ lines ∈ replies, ∀ line ∈ lines, IsMessageLine line) :
    splitReplies (replies.map datagram).flatten = replies.map joinLines := by
  induction replies with
  | nil => exact splitReplies_of_absent fun occurs => nomatch List.infix_nil.mp occurs
  | cons lines replies ih =>
      obtain ⟨first, later⟩ := List.forall_mem_cons.mp isLine
      rw [List.map_cons, List.flatten_cons, datagram, List.append_assoc,
        splitReplies_of_firstAt (firstAt_emptyLine first _), ih later, List.map_cons]

theorem sendMulticast_of_delivers {sockets : String → ℤ → DatagramSocket} {adr : String}
    {port timeout : ℤ} {replies : List (List Text)}
    (delivered : (sockets adr port).Delivers timeout replies)
    (isLine : ∀ lines ∈ replies, ∀ line ∈ lines, IsMessageLine line) (msg : Text) :
    sendMulticast sockets msg adr port timeout = .ok (replies.map joinLines) := by
  have fits : ∀ bytes ∈ replies.map datagram, bytes.length ≤ bufferSize :=
    List.forall_mem_map.mpr delivered.fits
  rw [sendMulticast]
  simp [delivered.opened, delivered.sent, receiveLoop_eq delivered.received fits delivered.noError,
    Multicast.returnVector_eq, splitReplies_datagrams isLine]

end LinHttpHandler

end Hueplusplus
