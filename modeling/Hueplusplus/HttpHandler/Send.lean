import Hueplusplus.Foundation.Effect
import Hueplusplus.Json

/-!
# Sending a request over a socket

The Linux back end writes a request in a loop, since a write can accept a part only. The Windows
back end makes a single call and looks at its result for errors only. What the calls of the
operating system return is part of the input.
-/

namespace Hueplusplus

open Effect

/-- What is done with a connection. -/
inductive SocketEvent where
  /-- A call to send, by the bytes the socket accepted. -/
  | wrote (bytes : Text)
  /-- A call to receive, by the bytes it gave. -/
  | read (bytes : Text)

/-- What the operating system returns. -/
structure Socket where
  /-- Of the calls up to `connect`. -/
  opened : Except Exception Unit
  /-- Of the calls to send, by their number and by how many bytes they are offered. -/
  accept : ℕ → ℤ → ℤ
  /-- Of the calls to receive, as long as they give something. -/
  received : List Text
  /-- Of the call to receive after these. -/
  closed : Except ErrorCode Unit
  /-- Of `shutdown`. -/
  shut : Except ErrorCode Unit
  /-- The error after a call to send. -/
  errno : ErrorCode

/-- How many calls to send there were, and all calls in their order. -/
structure Transmission where
  calls : ℕ
  events : List SocketEvent

def Transmission.start : Transmission := ⟨0, []⟩

def Transmission.wrote (transmission : Transmission) (bytes : Text) : Transmission :=
  { calls := transmission.calls + 1, events := transmission.events ++ [.wrote bytes] }

def Transmission.read (transmission : Transmission) (bytes : Text) : Transmission :=
  { transmission with events := transmission.events ++ [.read bytes] }

abbrev SocketM : Type → Type := Effect Exception Transmission

namespace Socket

variable (socket : Socket)

/-- A call to send that offers so many of these bytes. -/
def write (bytes : Text) (count : ℤ) : SocketM ℤ := do
  let transmission ← get
  let accepted := socket.accept transmission.calls count
  modify fun transmission => transmission.wrote (bytes.take accepted.toNat)
  return accepted

/-- The loop that receives the response, which both back ends have. -/
def receive (response : Text) : List Text → SocketM Text
  | [] => do
    modify fun transmission => transmission.read []
    match socket.closed with
    | .ok () => return response
    | .error code => throw (.systemError code)
  | bytes :: later => do
    modify fun transmission => transmission.read bytes
    receive (response ++ bytes) later

end Socket

namespace LinHttpHandler

/-- The loop that sends the request. -/
def sendLoop (socket : Socket) (msg : Text) (sent : ℕ) : SocketM PUnit := do
  let bytes ← socket.write (msg.drop sent) (msg.length - sent : ℕ)
  if bytes < 0 then throw (.systemError socket.errno)
  else if bytes = 0 then return
  else if sent + bytes.toNat < msg.length then sendLoop socket msg (sent + bytes.toNat)
  else return
termination_by msg.length - sent
decreasing_by omega

def send (socket : Socket) (msg : Text) : SocketM Text := do
  Effect.ofExcept socket.opened
  sendLoop socket msg 0
  socket.receive [] socket.received

end LinHttpHandler

namespace WinHttpHandler

/-- A `size_t` that is passed as an `int`. -/
def toInt (n : ℕ) : ℤ := (n : ℤ).bmod (2 ^ 32)

def send (socket : Socket) (msg : Text) : SocketM Text := do
  Effect.ofExcept socket.opened
  let result ← socket.write msg (toInt msg.length)
  if result = -1 then throw (.systemError socket.errno)
  let response ← socket.receive [] socket.received
  match socket.shut with
  | .ok () => return response
  | .error code => throw (.systemError code)

end WinHttpHandler

/-- The message is sent as a whole, in order and once, before the response is read. -/
def SendsWhole (x : SocketM Text) (msg : Text) : Prop :=
  ∃ pieces reads : List Text, pieces.flatten = msg ∧
    (result x .start).2.events = pieces.map .wrote ++ reads.map .read

namespace Socket

/-- The connection is made, and every call that is offered bytes accepts some of them. -/
structure Accepting (socket : Socket) : Prop where
  opened : socket.opened = .ok ()
  nonneg : ∀ call count, 0 ≤ count → 0 ≤ socket.accept call count
  positive : ∀ call count, 0 < count → 0 < socket.accept call count
  le_count : ∀ call count, socket.accept call count ≤ count

variable {socket : Socket}

@[simp] theorem returns_write (bytes : Text) (count : ℤ) (s : Transmission) :
    Returns (socket.write bytes count) s (socket.accept s.calls count)
      (s.wrote (bytes.take (socket.accept s.calls count).toNat)) :=
  rfl

/-- The response is only read. -/
theorem receive_reads (pieces : List Text) (response : Text) (s : Transmission) :
    ∃ reads : List Text, (result (socket.receive response pieces) s).2.events =
      s.events ++ reads.map .read := by
  induction pieces generalizing response s with
  | nil =>
      refine ⟨[[]], ?_⟩
      rw [receive, result_bind, result_modify]
      cases socket.closed <;> rfl
  | cons bytes later ih =>
      obtain ⟨reads, events⟩ := ih (response ++ bytes) (s.read bytes)
      refine ⟨bytes :: reads, ?_⟩
      rw [receive, result_bind, result_modify]
      exact events.trans (List.append_assoc _ _ _)

theorem Accepting.returns_opened (accepting : socket.Accepting) (s : Transmission) :
    Returns (Effect.ofExcept socket.opened : SocketM Unit) s () s :=
  returns_ofExcept.mpr ⟨accepting.opened, rfl⟩

end Socket

namespace LinHttpHandler

variable {socket : Socket} (accepting : socket.Accepting) (msg : Text)
include accepting

/-- From a position on, the rest of the message is written and nothing else. -/
theorem sendLoop_writes {sent : ℕ} (inside : sent ≤ msg.length) (s : Transmission) :
    ∃ (pieces : List Text) (t : Transmission), pieces.flatten = msg.drop sent ∧
      t.events = s.events ++ pieces.map .wrote ∧ Returns (sendLoop socket msg sent) s ⟨⟩ t := by
  have nonneg := accepting.nonneg s.calls (msg.length - sent : ℕ) (Int.natCast_nonneg _)
  have positive := accepting.positive s.calls (msg.length - sent : ℕ)
  have le_count := accepting.le_count s.calls (msg.length - sent : ℕ)
  have written := @Socket.returns_write socket (msg.drop sent) (msg.length - sent : ℕ) s
  generalize socket.accept s.calls (msg.length - sent : ℕ) = bytes at *
  have split := List.take_append_drop bytes.toNat (msg.drop sent)
  rw [List.drop_drop] at split
  by_cases more : sent + bytes.toNat < msg.length
  · have accepted : bytes ≠ 0 := by omega
    obtain ⟨pieces, t, whole, events, returned⟩ := sendLoop_writes (Nat.le_of_lt more)
      (s.wrote ((msg.drop sent).take bytes.toNat))
    refine ⟨(msg.drop sent).take bytes.toNat :: pieces, t, ?_, ?_, ?_⟩
    · rw [List.flatten_cons, whole, split]
    · rw [events, List.map_cons]
      exact List.append_assoc _ _ _
    · rw [sendLoop, Returns, written.result_bind, if_neg (Int.not_lt.mpr nonneg),
        if_neg accepted, if_pos more]
      exact returned
  · have ended : msg.drop (sent + bytes.toNat) = [] := List.drop_eq_nil_of_le (by omega)
    refine ⟨[(msg.drop sent).take bytes.toNat], s.wrote ((msg.drop sent).take bytes.toNat), ?_,
      rfl, ?_⟩
    · rw [ended, List.append_nil] at split
      rw [List.flatten_singleton, split]
    · rw [sendLoop, Returns, written.result_bind, if_neg (Int.not_lt.mpr nonneg), if_neg more,
        ite_self]
      rfl
termination_by msg.length - sent

/-- However many bytes each write accepts, the message is sent as a whole. -/
theorem send_sendsWhole : SendsWhole (send socket msg) msg := by
  obtain ⟨pieces, t, whole, wrote, returned⟩ :=
    sendLoop_writes accepting msg (Nat.zero_le _) .start
  obtain ⟨reads, events⟩ := @Socket.receive_reads socket socket.received [] t
  refine ⟨pieces, reads, whole, ?_⟩
  rw [send, (accepting.returns_opened _).result_bind, returned.result_bind, events, wrote]
  rfl

end LinHttpHandler

/-- After a single write the message is sent as a whole exactly if it was accepted so. -/
theorem sendsWhole_iff_of_events {x : SocketM Text} {bytes msg : Text} {reads : List Text}
    (events : (result x .start).2.events = .wrote bytes :: reads.map .read) :
    SendsWhole x msg ↔ bytes = msg := by
  constructor
  · rintro ⟨pieces, reads', rfl, events'⟩
    rw [events] at events'
    cases pieces with
    | nil => cases reads' <;> cases events'
    | cons piece pieces =>
        obtain ⟨first, later⟩ := List.cons.inj events'
        obtain rfl := SocketEvent.wrote.inj first
        cases pieces with
        | nil => exact (List.flatten_singleton).symm
        | cons other pieces => cases reads <;> cases later
  · rintro rfl
    exact ⟨[bytes], reads, List.flatten_singleton, events⟩

namespace WinHttpHandler

theorem toInt_le (n : ℕ) : toInt n ≤ n := by
  by_cases small : (n : ℤ) < 2 ^ 31
  · exact (Int.bmod_eq_of_le (by omega) (by omega)).le
  · exact (Int.bmod_lt (by decide)).le.trans (Int.not_lt.mp small)

theorem send_events {socket : Socket} (accepting : socket.Accepting) (msg : Text) :
    ∃ reads : List Text, (result (send socket msg) .start).2.events =
      .wrote (msg.take (socket.accept 0 (toInt msg.length)).toNat) :: reads.map .read := by
  have written := @Socket.returns_write socket msg (toInt msg.length) .start
  rw [send, (accepting.returns_opened _).result_bind, written.result_bind]
  split_ifs with failed
  · exact ⟨[], rfl⟩
  · obtain ⟨reads, events⟩ := @Socket.receive_reads socket socket.received []
      (Transmission.start.wrote (msg.take (socket.accept 0 (toInt msg.length)).toNat))
    refine ⟨reads, Eq.trans ?_ events⟩
    refine congrArg Transmission.events (state_bind _ (fun response t => ?_) _)
    cases socket.shut <;> rfl

theorem send_sendsWhole_iff {socket : Socket} (accepting : socket.Accepting) (msg : Text) :
    SendsWhole (send socket msg) msg ↔ socket.accept 0 (toInt msg.length) = msg.length := by
  obtain ⟨reads, events⟩ := send_events accepting msg
  rw [sendsWhole_iff_of_events events, List.take_eq_self_iff]
  have nonneg := accepting.nonneg 0 (toInt msg.length)
  have le_count := accepting.le_count 0 (toInt msg.length)
  have le := toInt_le msg.length
  have empty : msg.length = 0 → toInt msg.length = 0 := by
    intro zero
    rw [zero]
    rfl
  omega

end WinHttpHandler

/-- Every write on Linux offers what is left, so the message is always sent as a whole; on
Windows it is exactly if the only call accepts all of it. -/
theorem both_send_whole_iff {socket : Socket} (accepting : socket.Accepting) (msg : Text) :
    SendsWhole (LinHttpHandler.send socket msg) msg ∧
        SendsWhole (WinHttpHandler.send socket msg) msg ↔
      socket.accept 0 (WinHttpHandler.toInt msg.length) = msg.length := by
  rw [WinHttpHandler.send_sendsWhole_iff accepting msg]
  exact and_iff_right (LinHttpHandler.send_sendsWhole accepting msg)

/-- A socket that accepts a single byte at a time. -/
def slowSocket : Socket where
  opened := .ok ()
  accept _ count := min 1 count
  received := []
  closed := .ok ()
  shut := .ok ()
  errno := .other 0

theorem slowSocket_accepting : slowSocket.Accepting where
  opened := rfl
  nonneg _ count h := le_min (by decide) h
  positive _ count h := lt_min (by decide) h
  le_count _ count := min_le_right 1 count

theorem both_send_whole_iff_slow :
    SendsWhole (LinHttpHandler.send slowSocket ['G', 'E', 'T']) ['G', 'E', 'T'] ∧
        SendsWhole (WinHttpHandler.send slowSocket ['G', 'E', 'T']) ['G', 'E', 'T'] ↔
      slowSocket.accept 0 (WinHttpHandler.toInt 3) = 3 :=
  both_send_whole_iff slowSocket_accepting ['G', 'E', 'T']

/-- The only call accepts the first of two bytes, and the response is read. -/
theorem second_byte_not_sent :
    ¬ ∀ (socket : Socket) (msg : Text), socket.Accepting →
      SendsWhole (LinHttpHandler.send socket msg) msg ∧
        SendsWhole (WinHttpHandler.send socket msg) msg := by
  intro claim
  have whole := (claim slowSocket ['x', 'y'] slowSocket_accepting).2
  have accepted := (WinHttpHandler.send_sendsWhole_iff slowSocket_accepting _).mp whole
  exact absurd accepted (by decide)

end Hueplusplus
