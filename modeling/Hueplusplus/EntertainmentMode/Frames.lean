import Hueplusplus.EntertainmentMode.Update

/-!
# Streaming frames

A program that streams sets colours and sends the message in any order. A datagram connection
either refuses a write or sends the whole of it. Over such a connection every `update` sends
one frame or none, and the frame has for each light the colour set last.
-/

namespace Hueplusplus.EntertainmentMode

open EntertainmentMessage

/-- What a program does that streams. For `update`, the results of its writes are part of the
input. -/
inductive Event where
  | setColorRGB (call : SetColorRGB)
  | update (results : ℕ → Int32)

/-- A datagram is sent as a whole or not at all. -/
def Datagrams (size : ℕ) (results : ℕ → Int32) : Prop :=
  ∀ k, results k < 0 ∨ (results k).toNatClampNeg = size

/-- What `update` returned, and the datagrams it sent before. -/
structure Reply where
  returned : Bool
  frames : List (List UInt8)

/-- The datagrams of the writes that did not fail. -/
def frames (msg : List UInt8) (u : Update) : List (List UInt8) :=
  (u.writes.filter (0 ≤ ·.ret)).map (Update.accepted msg)

/-- A call of `update` ends with this reply. -/
def Replies (m : EntertainmentMessage) (results : ℕ → Int32) (reply : Reply) : Prop :=
  ∃ n, let u := Update.run m.msg.length results n
    u.returned = some reply.returned ∧ frames m.msg u = reply.frames

/-- The events change the message in this way and get these replies. -/
inductive Streams : EntertainmentMessage → List Event → EntertainmentMessage → List Reply → Prop
  | nil (m) : Streams m [] m []
  | setColorRGB {m next final call answer events replies}
      (set : m.setColorRGB call = .ok (answer, next)) (rest : Streams next events final replies) :
      Streams m (.setColorRGB call :: events) final replies
  | update {m final results reply events replies} (replied : Replies m results reply)
      (rest : Streams m events final replies) :
      Streams m (.update results :: events) final (reply :: replies)

/-- The calls of `setColorRGB` before each `update`, and the results of its writes. -/
def updates (calls : List SetColorRGB) : List Event → List (List SetColorRGB × (ℕ → Int32))
  | [] => []
  | .setColorRGB call :: events => updates (calls ++ [call]) events
  | .update results :: events => (calls, results) :: updates calls events

/-- A frame of the colours set so far, or none if the connection refuses it. -/
def Expected (ids : List ℤ) (sent : List SetColorRGB × (ℕ → Int32)) (reply : Reply) : Prop :=
  if sent.2 0 < 0 then reply = ⟨false, []⟩
  else ∃ m, WellFormed ids sent.1 m ∧ reply = ⟨true, [m.msg]⟩

/-- The lights that fit a number of 8 bits. -/
def streamed (ids : List ℤ) : List ℤ := ids.take (UInt8.ofNat ids.length).toNat

theorem streamed_eq_iff (ids : List ℤ) : streamed ids = ids ↔ ids.length ≤ 255 := by
  rw [streamed, List.take_eq_self_iff, UInt8.toNat_ofNat']
  omega

section Reply

variable {m : EntertainmentMessage} {results : ℕ → Int32}

/-- A loop returns once. -/
theorem Replies.deterministic {reply reply' : Reply} (first : Replies m results reply)
    (second : Replies m results reply') : reply = reply' := by
  obtain ⟨n, returned, sent⟩ := first
  obtain ⟨n', returned', sent'⟩ := second
  have same : Update.run m.msg.length results n = Update.run m.msg.length results n' := by
    rcases Nat.le_total n n' with early | late
    · obtain ⟨k, rfl⟩ := Nat.exists_eq_add_of_le early
      exact (Update.run_of_returned (by rw [returned]; rfl) k).symm
    · obtain ⟨k, rfl⟩ := Nat.exists_eq_add_of_le late
      exact Update.run_of_returned (by rw [returned']; rfl) k
  rw [same] at returned sent
  obtain ⟨answer, datagrams⟩ := reply
  obtain ⟨answer', datagrams'⟩ := reply'
  rw [Reply.mk.injEq]
  exact ⟨Option.some.inj (returned.symm.trans returned'), sent.symm.trans sent'⟩

theorem replies_of_refused (nonempty : 0 < m.msg.length) (refused : results 0 < 0) :
    Replies m results ⟨false, []⟩ := by
  refine ⟨1, ?_⟩
  rw [Update.run_one_of_error nonempty refused]
  exact ⟨rfl, by simp [frames, Int32.not_le.mpr refused]⟩

theorem replies_of_sent (nonempty : 0 < m.msg.length) (success : ¬ results 0 < 0)
    (whole : (results 0).toNatClampNeg = m.msg.length) :
    Replies m results ⟨true, [m.msg]⟩ := by
  refine ⟨2, ?_⟩
  have first := Update.run_one_of_accepted nonempty success
  have second : Update.run m.msg.length results 2 =
      ⟨(results 0).toNatClampNeg, [⟨0, m.msg.length, results 0⟩], some true⟩ := by
    rw [Update.run, first, Update.step, if_neg (by simp), if_neg (by simp [whole])]
  rw [second]
  exact ⟨rfl, by simp [frames, Int32.not_lt.mp success, Update.accepted, whole]⟩

/-- Over a datagram connection `update` has exactly one reply. -/
theorem replies_iff (nonempty : 0 < m.msg.length) (datagrams : Datagrams m.msg.length results)
    (reply : Reply) : Replies m results reply ↔
      reply = if results 0 < 0 then ⟨false, []⟩ else ⟨true, [m.msg]⟩ := by
  have replied : Replies m results (if results 0 < 0 then ⟨false, []⟩ else ⟨true, [m.msg]⟩) := by
    by_cases refused : results 0 < 0
    · rw [if_pos refused]
      exact replies_of_refused nonempty refused
    · rw [if_neg refused]
      exact replies_of_sent nonempty refused ((datagrams 0).resolve_left refused)
  exact ⟨fun other => other.deterministic replied, fun same => same ▸ replied⟩

end Reply

theorem lastColor_concat (before : UInt8 × UInt8 × UInt8) (calls : List SetColorRGB)
    (call : SetColorRGB) : lastColor before (calls ++ [call]) =
      Function.update (lastColor before calls) call.lightIndex.toNat
        (call.red, call.green, call.blue) := by
  funext i
  by_cases here : call.lightIndex.toNat = i
  · subst here
    simp [lastColor]
  · rw [Function.update_of_ne (Ne.symm here)]
    simp [lastColor, here]

/-- The invariant of a stream: the message shows for each light the colour set last. -/
def Current (ids : List ℤ) (calls : List SetColorRGB) (m : EntertainmentMessage) : Prop :=
  Shows m (lightsOf ids (lastColor (0, 0, 0) calls))

section Current

variable {ids : List ℤ} {calls : List SetColorRGB} {m : EntertainmentMessage}

theorem current_new (ids : List ℤ) :
    ∃ m, new ids = .ok m ∧ Current (streamed ids) [] m := by
  have few : (streamed ids).length ≤ 255 := by
    rw [streamed, List.length_take]
    exact (Nat.min_le_left _ _).trans (Nat.le_of_lt_succ (UInt8.toNat_lt _))
  obtain ⟨m, made, shown⟩ := new_shows few
  exact ⟨m, (new_take ids).symm.trans made, shown⟩

theorem Current.nonempty (current : Current ids calls m) : 0 < m.msg.length := by
  rw [current.msg, List.length_append, length_header]
  exact Nat.lt_add_right _ (by decide)

theorem Current.length (current : Current ids calls m) : m.msg.length = 16 + 9 * ids.length := by
  rw [current.msg, List.length_append, Buffer.length_records length_encode, length_header,
    length_lightsOf]
  rfl

/-- A call keeps the invariant, for a light of the group and for any other index. -/
theorem Current.setColorRGB (current : Current ids calls m) (call : SetColorRGB) :
    ∃ answer next, m.setColorRGB call = .ok (answer, next) ∧
      Current ids (calls ++ [call]) next := by
  simp only [Current, lastColor_concat]
  by_cases inside : call.lightIndex.toNat < ids.length
  · obtain ⟨next, set, shown⟩ := setColorRGB_inside current inside
    exact ⟨true, next, set, shown⟩
  · have count := current.numLights
    rw [length_lightsOf] at count
    have outside := Nat.not_lt.mp inside
    refine ⟨false, m, setColorRGB_outside count outside, ?_⟩
    rw [lightsOf_congr ids fun i h => Function.update_of_ne (Nat.ne_of_lt (h.trans_le outside)) _ _]
    exact current

theorem Current.expected (current : Current ids calls m)
    (small : ∀ id ∈ ids, 0 ≤ id ∧ id ≤ 65535) (results : ℕ → Int32) :
    Expected ids (calls, results)
      (if results 0 < 0 then ⟨false, []⟩ else ⟨true, [m.msg]⟩) := by
  rw [Expected]
  by_cases refused : results 0 < 0
  · rw [if_pos refused, if_pos refused]
  · rw [if_neg refused, if_neg refused]
    exact ⟨m, wellFormed_of_shows small current, rfl⟩

/-- From a current message any events can happen, and every way in which they happen sends what
is expected. -/
theorem Current.streams (current : Current ids calls m)
    (small : ∀ id ∈ ids, 0 ≤ id ∧ id ≤ 65535) (events : List Event)
    (datagrams : ∀ results, .update results ∈ events →
      Datagrams (16 + 9 * ids.length) results) :
    (∃ final replies, Streams m events final replies) ∧
      ∀ final replies, Streams m events final replies →
        List.Forall₂ (Expected ids) (updates calls events) replies := by
  induction events generalizing calls m with
  | nil =>
      refine ⟨⟨m, [], .nil m⟩, ?_⟩
      rintro - - ⟨⟩
      exact .nil
  | cons event events ih =>
      have later (results : ℕ → Int32) (member : .update results ∈ events) :=
        datagrams results (List.mem_cons_of_mem event member)
      cases event with
      | setColorRGB call =>
          obtain ⟨answer, next, set, kept⟩ := current.setColorRGB call
          obtain ⟨⟨final, replies, possible⟩, expected⟩ := ih kept later
          refine ⟨⟨final, replies, .setColorRGB set possible⟩, fun final replies run => ?_⟩
          cases run with
          | setColorRGB set' rest =>
              obtain ⟨rfl, rfl⟩ := Prod.mk.inj (Except.ok.inj (set'.symm.trans set))
              exact expected _ _ rest
      | update results =>
          have whole : Datagrams m.msg.length results := by
            rw [current.length]
            exact datagrams results List.mem_cons_self
          have replied := replies_iff current.nonempty whole
          obtain ⟨⟨final, replies, possible⟩, expected⟩ := ih current later
          refine ⟨⟨final, _, .update ((replied _).mpr rfl) possible⟩, fun final replies run => ?_⟩
          cases run with
          | update sent rest =>
              rw [(replied _).mp sent]
              exact .cons (current.expected small results) (expected _ _ rest)

end Current

/-- Over a datagram connection every order of colours and updates can be carried out. Each update
that is not refused sends one well-formed message with the colours set last, and each refused one
sends nothing. These are all lights of the group exactly if it has at most 255. -/
theorem stream_of_frames (ids : List ℤ) (small : ∀ id ∈ streamed ids, 0 ≤ id ∧ id ≤ 65535)
    (events : List Event) (datagrams : ∀ results, .update results ∈ events →
      Datagrams (16 + 9 * (streamed ids).length) results) :
    (streamed ids = ids ↔ ids.length ≤ 255) ∧
      ∃ m, new ids = .ok m ∧ (∃ final replies, Streams m events final replies) ∧
        ∀ final replies, Streams m events final replies →
          List.Forall₂ (Expected (streamed ids)) (updates [] events) replies := by
  obtain ⟨m, made, current⟩ := current_new ids
  exact ⟨streamed_eq_iff ids, m, made, current.streams small events datagrams⟩

/-- Two lights, of which the second is purple in the second frame. The third frame is
refused. -/
theorem stream_of_frames_purple :
    let purple : SetColorRGB := { lightIndex := 1, red := 128, green := 0, blue := 255 }
    let sent : ℕ → Int32 := fun _ => 34
    let refused : ℕ → Int32 := fun _ => -1
    (streamed [1, 258] = [1, 258] ↔ [1, 258].length ≤ 255) ∧
      ∃ m, new [1, 258] = .ok m ∧
        (∃ final replies, Streams m [.update sent, .setColorRGB purple, .update sent,
          .update refused] final replies) ∧
        ∀ final replies, Streams m [.update sent, .setColorRGB purple, .update sent,
          .update refused] final replies →
            List.Forall₂ (Expected [1, 258])
              [([], sent), ([purple], sent), ([purple], refused)] replies := by
  intro purple sent refused
  refine stream_of_frames [1, 258] (by decide) [.update sent, .setColorRGB purple, .update sent,
    .update refused] fun results member k => ?_
  simp only [List.mem_cons, Event.update.injEq, reduceCtorEq, List.not_mem_nil, false_or,
    or_false] at member
  obtain rfl | rfl | rfl := member
  · exact .inr rfl
  · exact .inr rfl
  · exact .inl (by decide)

end Hueplusplus.EntertainmentMode
