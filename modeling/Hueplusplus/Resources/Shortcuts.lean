import Hueplusplus.Resources.Setters
import Hueplusplus.StateTransaction.Action

/-!
# Shortcuts of groups

A group sets the state of its lights by a transaction without a cached state. The shortcuts
build a transaction from one setter and a transition time and commit it. The colour loop's
drops the transaction instead.
-/

namespace Hueplusplus

/-- What a call leaves behind that returns nothing: its PUTs, with their paths below the
user's, or an exception. -/
structure PutCalls where
  sent : List (String × Object)
  outcome : Except Exception Unit

/-- `commit()` as a statement. -/
def StateTransaction.commitStatement (t : StateTransaction) : PutCalls :=
  let result := t.commit true
  ⟨result.sent.toList.map fun body => (t.path, body), result.outcome.map fun _ => ()⟩

namespace Group

open StateTransaction

variable (group : Group) (commands : HueCommandAPI)

def transaction : StateTransaction :=
  new commands ("/groups/" ++ toString group.id ++ "/action") none

def setOn (on : Bool) (transition : UInt8) : PutCalls :=
  (((group.transaction commands).setOn on).setTransition transition.toUInt16).commitStatement

def setBrightness (brightness : UInt8) (transition : UInt8) : PutCalls :=
  (((group.transaction commands).setBrightness brightness).setTransition
    transition.toUInt16).commitStatement

def setColorHueSaturation (hueSat : HueSaturation) (transition : UInt8) : PutCalls :=
  (((group.transaction commands).setColorHueSaturation hueSat).setTransition
    transition.toUInt16).commitStatement

def setColorXYBrightness (xy : XYBrightness) (transition : UInt8) : PutCalls :=
  (((group.transaction commands).setColorXYBrightness xy).setTransition
    transition.toUInt16).commitStatement

def setColorTemperature (mired : UInt32) (transition : UInt8) : PutCalls :=
  (((group.transaction commands).setColorTemperature mired).setTransition
    transition.toUInt16).commitStatement

def setColorLoop (on : Bool) (transition : UInt8) : PutCalls :=
  -- the transaction is built, but not committed
  let _ := ((group.transaction commands).setColorLoop on).setTransition transition.toUInt16
  ⟨[], .ok ()⟩

/-- A call of a shortcut, apart from the transition time. -/
inductive Shortcut where
  | setOn (on : Bool)
  | setBrightness (brightness : UInt8)
  | setColorHueSaturation (hueSat : HueSaturation)
  | setColorXYBrightness (xy : XYBrightness)
  | setColorTemperature (mired : UInt32)
  | setColorLoop (on : Bool)

def Shortcut.run (transition : UInt8) : Shortcut → PutCalls
  | setOn on => group.setOn commands on transition
  | setBrightness brightness => group.setBrightness commands brightness transition
  | setColorHueSaturation hueSat => group.setColorHueSaturation commands hueSat transition
  | setColorXYBrightness xy => group.setColorXYBrightness commands xy transition
  | setColorTemperature mired => group.setColorTemperature commands mired transition
  | setColorLoop on => group.setColorLoop commands on transition

/-- The setter of transactions with the shortcut's name and arguments. -/
def Shortcut.setter : Shortcut → SetterCall
  | setOn on => .setOn on
  | setBrightness brightness => .setBrightness brightness
  | setColorHueSaturation hueSat => .setColorHueSaturation hueSat
  | setColorXYBrightness xy => .setColorXYBrightness xy
  | setColorTemperature mired => .setColorTemperature mired
  | setColorLoop on => .setColorLoop on

/-- The transaction with the shortcut's setter and transition time. -/
def Shortcut.transaction (transition : UInt8) (shortcut : Shortcut) : StateTransaction :=
  (group.transaction commands).calls [shortcut.setter, .setTransition transition.toUInt16]

variable {group commands}

/-- Each shortcut is about an attribute of the lights. -/
theorem Shortcut.exists_attribute (shortcut : Shortcut) :
    ∃ key, key ≠ "transitiontime" ∧ (shortcut.setter.value? key).isSome := by
  cases shortcut with
  | setOn on => exact ⟨"on", by decide, rfl⟩
  | setBrightness brightness => exact ⟨"bri", by decide, rfl⟩
  | setColorHueSaturation hueSat => exact ⟨"hue", by decide, rfl⟩
  | setColorXYBrightness xy => exact ⟨"bri", by decide, rfl⟩
  | setColorTemperature mired => exact ⟨"ct", by decide, rfl⟩
  | setColorLoop on => exact ⟨"effect", by decide, rfl⟩

/-- Committing the transaction makes one PUT. -/
theorem Shortcut.sent_commit (transition : UInt8) (shortcut : Shortcut) :
    ((shortcut.transaction group commands transition).commit true).sent =
      some (withImpliedOn none (shortcut.transaction group commands transition).request) := by
  obtain ⟨key, other, given⟩ := shortcut.exists_attribute
  have contained : (shortcut.transaction group commands transition).request.contains key = true :=
    (contains_calls _ _ _ _ other).mpr ⟨shortcut.setter, List.mem_cons_self, given⟩
  have stateless : (shortcut.transaction group commands transition).state = none :=
    (calls_frame _ _).2.2
  rw [commit_of_worthSending (prepare_stateless stateless true)
    (worthSending_withImpliedOn_of_contains other contained)]

theorem sent_commitStatement {t : StateTransaction} {body : Object}
    (sent : (t.commit true).sent = some body) : t.commitStatement.sent = [(t.path, body)] := by
  simp only [commitStatement, sent, Option.toList_some, List.map_cons, List.map_nil]

/-- The shortcut makes exactly the PUT of its transaction, unless it is the colour loop's. -/
theorem Shortcut.sends_put_iff (group : Group) (commands : HueCommandAPI) (transition : UInt8)
    (shortcut : Shortcut) :
    (∃ body, ((shortcut.transaction group commands transition).commit true).sent = some body ∧
      (shortcut.run group commands transition).sent =
        [("/groups/" ++ toString group.id ++ "/action", body)]) ↔
      ∀ on, shortcut ≠ .setColorLoop on := by
  have sent := @Shortcut.sent_commit group commands transition shortcut
  have path : (shortcut.transaction group commands transition).path =
      "/groups/" ++ toString group.id ++ "/action" := (calls_frame _ _).2.1
  have put := sent_commitStatement sent
  rw [path] at put
  constructor
  · rintro ⟨body, -, run⟩ on rfl
    exact nomatch run
  · intro committed
    refine ⟨_, sent, ?_⟩
    cases shortcut with
    | setColorLoop on => exact absurd rfl (committed on)
    | _ => exact put

/-- The colour loop is never sent. -/
theorem colorLoop_not_sent :
    let mute : HttpMethod := fun _ _ _ _ _ => .ok .null
    let commands : HueCommandAPI := ⟨"192.168.2.1", 80, "user", ⟨mute, mute, mute, mute⟩⟩
    let group : Group := ⟨1, []⟩
    ¬ ∃ body,
      (((Shortcut.setColorLoop true).transaction group commands 4).commit true).sent = some body ∧
        (group.setColorLoop commands true 4).sent =
          [("/groups/" ++ toString group.id ++ "/action", body)] := by
  rintro mute commands group ⟨body, -, sent⟩
  exact nomatch sent

end Group

end Hueplusplus
