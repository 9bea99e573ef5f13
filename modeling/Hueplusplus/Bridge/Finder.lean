import Hueplusplus.Bridge.Basic
import Hueplusplus.Foundation.System

/-!
# Finding a bridge by its MAC address

A `BridgeFinder` keeps the usernames and client keys of bridges under their MAC addresses. Each
of its functions normalises the address it is given. The finder also records what was added
and under which spelling; the record is read by the statements only.
-/

namespace Hueplusplus

open Effect

structure BridgeIdentification where
  ip : String
  port : ℤ
  mac : String

structure BridgeFinder where
  usernames : OrderedMap String String
  clientkeys : OrderedMap String String
  httpHandler : IHttpHandler
  /-- The arguments of `addUsername` so far, the latest first. -/
  addedUsernames : List (String × String)
  /-- The arguments of `addClientKey` so far, the latest first. -/
  addedClientkeys : List (String × String)

abbrev FinderM := Effect Exception BridgeFinder

namespace BridgeFinder

def new (handler : IHttpHandler) : BridgeFinder :=
  ⟨.empty, .empty, handler, [], []⟩

/-- `std::isalnum` and `std::tolower` of the C locale change and keep ASCII characters only. -/
def normalizeMac (input : String) : String :=
  -- Remove any non alphanumeric characters (e.g. ':' and whitespace)
  let input := input.toList.filter Char.isAlphanum
  -- Convert to lower case
  String.ofList (input.map Char.toLower)

def addUsername (mac username : String) : FinderM Unit :=
  modify fun finder =>
    { finder with
      usernames := finder.usernames.insert (normalizeMac mac) username
      addedUsernames := (mac, username) :: finder.addedUsernames }

def addClientKey (mac clientkey : String) : FinderM Unit :=
  modify fun finder =>
    { finder with
      clientkeys := finder.clientkeys.insert (normalizeMac mac) clientkey
      addedClientkeys := (mac, clientkey) :: finder.addedClientkeys }

/-- `std::chrono::seconds(10)`, in ticks of the clock. -/
def tenSeconds : ℤ := 10 * 10 ^ 9

/-- What a call of `getBridge` finds: the readings of the clock, the calls the handler has had,
and the rounds after the first that the time allows `requestUsername`. -/
structure Moment where
  clock : ℕ → ℤ
  calls : ℕ
  rounds : ℕ

def getBridge (moment : Moment) (identification : BridgeIdentification) (sharedState : Bool) :
    FinderM Bridge := do
  let normalizedMac := normalizeMac identification.mac
  let finder ← get
  let handler := finder.httpHandler.after moment.calls
  match finder.usernames.find? normalizedMac with
  | some username =>
    match finder.clientkeys.find? normalizedMac with
    | some clientkey =>
      return Bridge.new identification.ip identification.port username handler clientkey tenSeconds
        sharedState
    | none =>
      return Bridge.new identification.ip identification.port username handler "" tenSeconds
        sharedState
  | none =>
    let bridge := Bridge.new identification.ip identification.port "" handler "" tenSeconds
      sharedState
    let (outcome, bridge) := result (Bridge.requestUsername moment.clock moment.rounds) bridge
    let _ ← Effect.ofExcept outcome
    if bridge.username.isEmpty then
      throw (.hueException "Failed to request username!")
    addUsername normalizedMac bridge.username
    addClientKey normalizedMac bridge.clientkey
    return bridge

/-- A call of a finder. -/
inductive Call where
  | addUsername (mac username : String)
  | addClientKey (mac clientkey : String)
  | getBridge (moment : Moment) (identification : BridgeIdentification) (sharedState : Bool)

/-- The finder after a call, whether it returned or threw. -/
def Call.run (finder : BridgeFinder) : Call → BridgeFinder
  | .addUsername mac username => (result (BridgeFinder.addUsername mac username) finder).2
  | .addClientKey mac clientkey => (result (BridgeFinder.addClientKey mac clientkey) finder).2
  | .getBridge moment identification sharedState =>
    (result (BridgeFinder.getBridge moment identification sharedState) finder).2

/-- Calls in any order, on a new finder. -/
def system : System BridgeFinder Call where
  init finder := ∃ handler, finder = new handler
  admissible _ _ := True
  step := Call.run

/-- Both maps show what was added last under any spelling of a MAC address. -/
structure Consistent (finder : BridgeFinder) : Prop where
  usernames : finder.usernames.Shows normalizeMac finder.addedUsernames
  clientkeys : finder.clientkeys.Shows normalizeMac finder.addedClientkeys

theorem Consistent.addUsername {finder : BridgeFinder} (h : finder.Consistent)
    (mac username : String) : (result (addUsername mac username) finder).2.Consistent :=
  ⟨h.usernames.insert mac username, h.clientkeys⟩

theorem Consistent.addClientKey {finder : BridgeFinder} (h : finder.Consistent)
    (mac clientkey : String) : (result (addClientKey mac clientkey) finder).2.Consistent :=
  ⟨h.usernames, h.clientkeys.insert mac clientkey⟩

section GetBridge

variable {finder : BridgeFinder} (moment : Moment) (identification : BridgeIdentification)
  (sharedState : Bool)

/-- With a stored username a bridge is constructed, and nothing else happens. -/
theorem getBridge_of_found {username : String}
    (found : finder.usernames.find? (normalizeMac identification.mac) = some username) :
    result (getBridge moment identification sharedState) finder =
      (.ok (Bridge.new identification.ip identification.port username
        (finder.httpHandler.after moment.calls)
        ((finder.clientkeys.find? (normalizeMac identification.mac)).getD "") tenSeconds
        sharedState), finder) := by
  rw [getBridge, result_bind, result_get]
  simp only [found]
  cases finder.clientkeys.find? (normalizeMac identification.mac) <;> rfl

/-- What `getBridge` obtains is stored by `addUsername` and `addClientKey`. -/
theorem Consistent.getBridge (h : finder.Consistent) :
    (result (getBridge moment identification sharedState) finder).2.Consistent := by
  cases found : finder.usernames.find? (normalizeMac identification.mac) with
  | some username =>
      rw [getBridge_of_found moment identification sharedState found]
      exact h
  | none =>
      rw [BridgeFinder.getBridge, result_bind, result_get]
      simp only [found]
      rcases result (Bridge.requestUsername moment.clock moment.rounds) _ with ⟨e | _, bridge⟩
      · exact h
      · simp only [result_bind, result_ofExcept]
        cases bridge.username.isEmpty with
        | true => exact h
        | false =>
            exact (h.addUsername (normalizeMac identification.mac) bridge.username).addClientKey
              (normalizeMac identification.mac) bridge.clientkey

end GetBridge

end BridgeFinder

end Hueplusplus
