import Hueplusplus.Bridge.Calls
import Hueplusplus.Bridge.Operations
import Hueplusplus.EntertainmentMode.Message

/-!
# Whether a failed set-up leaves the bridge streaming

The constructor of `EntertainmentMode` and `connect` both ask the bridge to start streaming.
The failure exits of `connect` after an acknowledged start ask it to stop again. Those of the
constructor do not, and neither does `connect` when its own start is refused.

What the calls of mbedtls return is part of the input.
-/

namespace Hueplusplus

open Effect

/-- The results of the calls of mbedtls in `connect`. -/
structure TLSResults where
  netConnect : ℤ
  configDefaults : ℤ
  confPsk : ℤ
  setup : ℤ
  setHostname : ℤ
  /-- The results of the handshake calls so far. -/
  handshakes : List ℤ

def MBEDTLS_ERR_SSL_WANT_READ : ℤ := -0x6900

def MBEDTLS_ERR_SSL_WANT_WRITE : ℤ := -0x6880

/-- The result that ends the loop of handshake calls, if there is one yet. -/
def TLSResults.handshake (tls : TLSResults) : Option ℤ :=
  tls.handshakes.find? fun ret =>
    ¬ (ret = MBEDTLS_ERR_SSL_WANT_READ ∨ ret = MBEDTLS_ERR_SSL_WANT_WRITE)

namespace EntertainmentMode

/-- The constructor, for the group with this id whose constant `getValue` has this result. The
last argument is the result of `mbedtls_ctr_drbg_seed`. -/
def new (groupId : ℤ) (value : Except Exception Json) (seed : ℤ) :
    BridgeM EntertainmentMessage := do
  let _ ← Bridge.startStreaming (toString groupId)
  let ids ← Effect.ofExcept (value >>= Group.getLightIds)
  let message ← Effect.ofExcept (EntertainmentMessage.new ids)
  if seed ≠ 0 then
    throw (.hueException "Failed to seed mbedtls RNG")
  return message

/-- If a call failed, close and return false. -/
def close (groupId : ℤ) : BridgeM (Option Bool) := do
  let _ ← Bridge.stopStreaming (toString groupId)
  return some false

/-- The part of `connect` after an acknowledged start. The result is `none` as long as the
handshake goes on. -/
def connectTLS (groupId : ℤ) (tls : TLSResults) : BridgeM (Option Bool) := do
  if tls.netConnect ≠ 0 then close groupId
  else if tls.configDefaults ≠ 0 then close groupId
  else if tls.confPsk ≠ 0 then close groupId
  else if tls.setup ≠ 0 then close groupId
  else if tls.setHostname ≠ 0 then close groupId
  else
    match tls.handshake with
    | none => return none
    | some ret => if ret ≠ 0 then close groupId else return some true

def connect (groupId : ℤ) (tls : TLSResults) : BridgeM (Option Bool) := do
  if ← Bridge.startStreaming (toString groupId) then connectTLS groupId tls
  else return some false

def disconnect (groupId : ℤ) : BridgeM Bool := Bridge.stopStreaming (toString groupId)

end EntertainmentMode

namespace Exchange

/-- A request to start or to stop streaming for the group. -/
def streams (e : Exchange) (group : String) (active : Bool) : Bool :=
  e.verb = .put && e.uri = "/api/" ++ e.username ++ "/groups/" ++ group &&
    e.body = Bridge.streamRequest active

/-- The bridge has confirmed that it is streaming. -/
def acknowledged (e : Exchange) (group : String) : Bool :=
  match e.reply with
  | .ok answer =>
    let key := "/groups/" ++ group ++ "/stream/active"
    Utils.safeGetMember answer 0 ["success", key] = .bool true
  | .error _ => false

end Exchange

/-- After an acknowledged request to start there was none to stop. The latest call comes
first. -/
def leftStreaming (group : String) : List Exchange → Bool
  | [] => false
  | e :: earlier =>
    if e.streams group false then false
    else e.streams group true && e.acknowledged group || leftStreaming group earlier

namespace EntertainmentMode

/-- Steps of any entertainment modes of a bridge, and of the bridge itself. -/
inductive Step where
  | new (groupId : ℤ) (value : Except Exception Json) (seed : ℤ)
  | connect (groupId : ℤ) (tls : TLSResults)
  | disconnect (groupId : ℤ)
  | bridge (step : Bridge.Step)

variable (clock : ℕ → ℤ)

def Step.run (b : Bridge) : Step → Bridge
  | .new groupId value seed => (result (EntertainmentMode.new groupId value seed) b).2
  | .connect groupId tls => (result (EntertainmentMode.connect groupId tls) b).2
  | .disconnect groupId => (result (EntertainmentMode.disconnect groupId) b).2
  | .bridge step => step.run clock b

/-- Steps in any order, from any bridge. -/
def system : System Bridge Step where
  init _ := True
  admissible _ _ := True
  step b step := step.run clock b

/-- If the step is a set-up that fails, the group is not left streaming. -/
def CleansUp (b : Bridge) (step : Step) (final : Bridge) : Prop :=
  match step with
  | .new groupId value seed =>
    (∃ e, (result (EntertainmentMode.new groupId value seed) b).1 = .error e) →
      leftStreaming (toString groupId) final.exchanges = false
  | .connect groupId tls =>
    (result (EntertainmentMode.connect groupId tls) b).1 = .ok (some false) →
      leftStreaming (toString groupId) final.exchanges = false
  | _ => True

/-- The request to start streaming that `startStreaming` would make. -/
def startCall (b : Bridge) (group : String) : Exchange :=
  b.call b.httpHandler .put ("/api/" ++ b.username ++ "/groups/" ++ group)
    (Bridge.streamRequest true) b.ip b.port

/-- Everything the constructor needs is there: a client key, any answer to the request to start
streaming, the ids of the lights and a seed. -/
def CanConstruct (b : Bridge) (groupId : ℤ) (value : Except Exception Json) (seed : ℤ) : Prop :=
  b.clientkey ≠ "" ∧ (∃ answer, (startCall b (toString groupId)).reply = .ok answer) ∧
    (∃ ids, value >>= Group.getLightIds = .ok ids) ∧ seed = 0

/-- The bridge would turn streaming on. -/
def WouldStart (b : Bridge) (group : String) : Prop :=
  b.clientkey ≠ "" ∧ (startCall b group).acknowledged group = true

/-- The bridge would answer the request to start streaming, but not turn it on. -/
def WouldRefuse (b : Bridge) (group : String) : Prop :=
  b.clientkey ≠ "" ∧ (∃ answer, (startCall b group).reply = .ok answer) ∧
    (startCall b group).acknowledged group = false

/-- When a set-up cannot leave the group streaming: the constructor has all it needs, or is not
what turns streaming on and finds it off; `connect` finds it off if its request is refused. -/
def Safe (b : Bridge) : Step → Prop
  | .new groupId value seed =>
    CanConstruct b groupId value seed ∨ ¬ WouldStart b (toString groupId) ∧
      leftStreaming (toString groupId) b.exchanges = false
  | .connect groupId _ =>
    WouldRefuse b (toString groupId) → leftStreaming (toString groupId) b.exchanges = false
  | _ => True

variable {b : Bridge}

/-- The request that `stopStreaming` would make. -/
def stopCall (b : Bridge) (group : String) : Exchange :=
  b.call b.httpHandler .put ("/api/" ++ b.username ++ "/groups/" ++ group)
    (Bridge.streamRequest false) b.ip b.port

theorem result_startStreaming_keyless (keyless : b.clientkey = "") (group : String) :
    result (Bridge.startStreaming group) b =
      (.error (.hueException "Cannot stream without client key!"), b) := by
  rw [Bridge.startStreaming, result_bind, result_get]
  simp [keyless]

theorem result_startStreaming (key : b.clientkey ≠ "") (group : String) :
    result (Bridge.startStreaming group) b =
      ((startCall b group).reply.map fun _ => (startCall b group).acknowledged group,
        { b with exchanges := startCall b group :: b.exchanges }) := by
  have present : ¬ b.clientkey.isEmpty = true := by simpa using key
  have asked : result (Bridge.http b.httpHandler .put ("/api/" ++ b.username ++ "/groups/" ++ group)
      (Bridge.streamRequest true) b.ip b.port) b =
        ((startCall b group).reply, { b with exchanges := startCall b group :: b.exchanges }) := rfl
  rw [Bridge.startStreaming, result_bind, result_get]
  simp only
  rw [result_ite, if_neg present, result_bind, asked, Exchange.acknowledged]
  cases (startCall b group).reply <;> rfl

@[simp] theorem stopStreaming_exchanges (group : String) :
    (result (Bridge.stopStreaming group) b).2.exchanges = stopCall b group :: b.exchanges := by
  have asked : result (Bridge.http b.httpHandler .put ("/api/" ++ b.username ++ "/groups/" ++ group)
      (Bridge.streamRequest false) b.ip b.port) b =
        ((stopCall b group).reply, { b with exchanges := stopCall b group :: b.exchanges }) := rfl
  rw [Bridge.stopStreaming, result_bind, result_get]
  simp only
  rw [result_bind, asked]
  cases (stopCall b group).reply with
  | error e => rfl
  | ok answer =>
      simp only
      rw [result_bind, result_ofExcept]
      cases answer.elemOrNull 0 with
      | error e => rfl
      | ok first =>
          simp only
          split <;> rfl

theorem streamRequest_ne : Bridge.streamRequest true ≠ Bridge.streamRequest false := by decide

theorem leftStreaming_start (b : Bridge) (group : String) (earlier : List Exchange) :
    leftStreaming group (startCall b group :: earlier) =
      ((startCall b group).acknowledged group || leftStreaming group earlier) := by
  have started : (startCall b group).streams group true = true := by
    simp [Exchange.streams, startCall, Bridge.call]
  have unstopped : (startCall b group).streams group false = false := by
    simp [Exchange.streams, startCall, Bridge.call, streamRequest_ne]
  rw [leftStreaming, unstopped, started, Bool.true_and]
  rfl

/-- A request to stop counts whatever the bridge answers. -/
@[simp] theorem leftStreaming_stop (b : Bridge) (group : String) :
    leftStreaming group (result (Bridge.stopStreaming group) b).2.exchanges = false := by
  have stopped : (stopCall b group).streams group false = true := by
    simp [Exchange.streams, stopCall, Bridge.call]
  rw [stopStreaming_exchanges, leftStreaming, if_pos stopped]

theorem result_new_keyless (keyless : b.clientkey = "") (groupId : ℤ)
    (value : Except Exception Json) (seed : ℤ) :
    result (EntertainmentMode.new groupId value seed) b =
      (.error (.hueException "Cannot stream without client key!"), b) := by
  rw [EntertainmentMode.new, result_bind, result_startStreaming_keyless keyless]

/-- Once the bridge was asked, the rest of the constructor makes no call. -/
theorem result_new (key : b.clientkey ≠ "") (groupId : ℤ) (value : Except Exception Json)
    (seed : ℤ) :
    result (EntertainmentMode.new groupId value seed) b =
      ((do
        let _ ← (startCall b (toString groupId)).reply
        let ids ← value >>= Group.getLightIds
        let message ← EntertainmentMessage.new ids
        if seed ≠ 0 then throw (.hueException "Failed to seed mbedtls RNG")
        return message),
        { b with exchanges := startCall b (toString groupId) :: b.exchanges }) := by
  rw [EntertainmentMode.new, result_bind, result_startStreaming key]
  cases (startCall b (toString groupId)).reply with
  | error e => rfl
  | ok answer =>
      simp only [Except.map, result_bind, result_ofExcept]
      cases value >>= Group.getLightIds with
      | error e => rfl
      | ok ids =>
          simp only [Except.ok_bind]
          cases EntertainmentMessage.new ids with
          | error e => rfl
          | ok message =>
              by_cases seeded : seed = 0
              · simp [seeded]
              · simp [seeded]
                rfl

/-- The constructor leaves the group streaming if its request turned streaming on, or if the
group was streaming before. -/
theorem leftStreaming_new (groupId : ℤ) (value : Except Exception Json) (seed : ℤ) :
    leftStreaming (toString groupId)
        (result (EntertainmentMode.new groupId value seed) b).2.exchanges = false ↔
      ¬ WouldStart b (toString groupId) ∧
        leftStreaming (toString groupId) b.exchanges = false := by
  rw [WouldStart]
  by_cases keyless : b.clientkey = ""
  · rw [result_new_keyless keyless]
    simp [keyless]
  · rw [result_new keyless]
    simp [keyless, leftStreaming_start]

theorem new_throws_iff (groupId : ℤ) (value : Except Exception Json) (seed : ℤ) :
    (∃ e, (result (EntertainmentMode.new groupId value seed) b).1 = .error e) ↔
      ¬ CanConstruct b groupId value seed := by
  rw [CanConstruct]
  by_cases keyless : b.clientkey = ""
  · rw [result_new_keyless keyless]
    simp [keyless]
  · rw [result_new keyless]
    cases (startCall b (toString groupId)).reply with
    | error e => simp
    | ok answer =>
        cases value >>= Group.getLightIds with
        | error e => simp
        | ok ids =>
            obtain ⟨message, made⟩ := EntertainmentMessage.exists_new ids
            simp only [Except.ok_bind, made]
            by_cases seeded : seed = 0
            · simp [keyless, seeded]
            · exact iff_of_true ⟨_, by rw [if_pos seeded]; rfl⟩ fun enough => seeded enough.2.2.2

theorem new_cleansUp_iff (groupId : ℤ) (value : Except Exception Json) (seed : ℤ) :
    ((∃ e, (result (EntertainmentMode.new groupId value seed) b).1 = .error e) →
      leftStreaming (toString groupId)
        (result (EntertainmentMode.new groupId value seed) b).2.exchanges = false) ↔
      (CanConstruct b groupId value seed ∨ ¬ WouldStart b (toString groupId) ∧
        leftStreaming (toString groupId) b.exchanges = false) := by
  rw [new_throws_iff, leftStreaming_new, or_iff_not_imp_left]

/-- If the computation returns false, the group is not left streaming. -/
def Closes (groupId : ℤ) (x : BridgeM (Option Bool)) : Prop :=
  ∀ b, (result x b).1 = .ok (some false) →
    leftStreaming (toString groupId) (result x b).2.exchanges = false

theorem closes_close (groupId : ℤ) : Closes groupId (close groupId) := by
  intro b _
  rw [close, state_bind_pure]
  exact leftStreaming_stop b (toString groupId)

theorem closes_pure {groupId : ℤ} {r : Option Bool} (other : r ≠ some false) :
    Closes groupId (pure r) := by
  intro b failed
  exact absurd (Except.ok.inj failed) other

theorem closes_ite {groupId : ℤ} {p : Prop} [Decidable p] {x y : BridgeM (Option Bool)}
    (then' : Closes groupId x) (else' : Closes groupId y) :
    Closes groupId (if p then x else y) := by
  split
  · exact then'
  · exact else'

/-- Once streaming is on, every exit of `connect` that returns false stops it. -/
theorem closes_connectTLS (groupId : ℤ) (tls : TLSResults) :
    Closes groupId (connectTLS groupId tls) := by
  have closes := closes_close groupId
  rw [connectTLS]
  apply closes_ite closes
  apply closes_ite closes
  apply closes_ite closes
  apply closes_ite closes
  apply closes_ite closes
  split
  · exact closes_pure (by simp)
  · exact closes_ite closes (closes_pure (by simp))

theorem connect_cleansUp_iff (groupId : ℤ) (tls : TLSResults) :
    ((result (EntertainmentMode.connect groupId tls) b).1 = .ok (some false) →
      leftStreaming (toString groupId)
        (result (EntertainmentMode.connect groupId tls) b).2.exchanges = false) ↔
      (WouldRefuse b (toString groupId) →
        leftStreaming (toString groupId) b.exchanges = false) := by
  rw [EntertainmentMode.connect, result_bind, WouldRefuse]
  by_cases keyless : b.clientkey = ""
  · rw [result_startStreaming_keyless keyless]
    simp [keyless]
  · rw [result_startStreaming keyless]
    cases (startCall b (toString groupId)).reply with
    | error e => simp [Except.map]
    | ok answer =>
        cases acknowledged : (startCall b (toString groupId)).acknowledged (toString groupId) with
        | true =>
            simp only [Except.map, if_true]
            exact iff_of_true (closes_connectTLS groupId tls _) (by simp)
        | false =>
            have off := leftStreaming_start b (toString groupId) b.exchanges
            rw [acknowledged, Bool.false_or] at off
            simp only [Except.map, Bool.false_eq_true, if_false, result_pure, off]
            simp [keyless]

/-- In every run, each set-up that fails leaves its group not streaming exactly if each set-up
was safe. -/
theorem cleansUp_iff_safe (b : Bridge) (steps : List Step) :
    (system clock).Each CleansUp b steps ↔
      (system clock).Each (fun b step _ => Safe b step) b steps := by
  apply System.each_congr
  intro b step
  cases step with
  | new groupId value seed => exact new_cleansUp_iff groupId value seed
  | connect groupId tls => exact connect_cleansUp_iff groupId tls
  | disconnect groupId => exact Iff.rfl
  | bridge step => exact Iff.rfl

/-- The bridge turns streaming on, and then the random number generator cannot be seeded. -/
theorem unseeded_left_streaming :
    let acknowledging : IHttpHandler :=
      { getJson := fun _ _ _ _ _ => .ok .null
        putJson := fun _ _ _ _ _ =>
          .ok (.arr [.obj [("success", .obj [("/groups/1/stream/active", .bool true)])]])
        postJson := fun _ _ _ _ _ => .ok .null
        deleteJson := fun _ _ _ _ _ => .ok .null }
    let b := Bridge.new "192.168.2.1" 80 "user" acknowledging "key" 10000000000 true
    let value := Json.obj [("lights", .arr [.str "1", .str "2"])]
    let ended := result (EntertainmentMode.new 1 (.ok value) (-0x34)) b
    ended.1 = .error (.hueException "Failed to seed mbedtls RNG") ∧
      leftStreaming "1" ended.2.exchanges = true := by
  intro acknowledging b value ended
  have key : b.clientkey ≠ "" := by decide
  have named : toString (1 : ℤ) = "1" := by decide
  have answered : (startCall b "1").reply =
      .ok (.arr [.obj [("success", .obj [("/groups/1/stream/active", .bool true)])]]) := rfl
  have ids : (.ok value >>= Group.getLightIds : Except Exception (List ℤ)) = .ok [1, 2] := rfl
  constructor
  · obtain ⟨message, made⟩ := EntertainmentMessage.exists_new [1, 2]
    have ran := congrArg Prod.fst (result_new key 1 (.ok value) (-0x34))
    rw [named, answered, ids] at ran
    simp only [Except.ok_bind, made] at ran
    exact ran
  · have started : WouldStart b (toString (1 : ℤ)) := by
      refine ⟨key, ?_⟩
      rw [named, Exchange.acknowledged, answered]
      decide
    have left := mt (leftStreaming_new 1 (.ok value) (-0x34)).mp fun off => off.1 started
    rw [named, Bool.not_eq_false] at left
    exact left

end EntertainmentMode

end Hueplusplus
