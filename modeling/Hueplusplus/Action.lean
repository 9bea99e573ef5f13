import Hueplusplus.Json

/-!
# Actions

An `Action` is a request that the bridge makes for a schedule or a rule, kept as JSON.
-/

namespace Hueplusplus

structure Action where
  json : Json

namespace Action

def toJson (a : Action) : Json := a.json

inductive Method where
  | post
  | put
  | deleteMethod
deriving DecidableEq

def parseMethod (s : String) : Except Exception Method :=
  if s = "POST" then .ok .post
  else if s = "PUT" then .ok .put
  else if s = "DELETE" then .ok .deleteMethod
  else .error (.hueException ("Unknown ScheduleCommand method: " ++ s))

def getAddress (action : Action) : Except Exception String := do
  (← action.json.at' "address").getString

def getMethod (action : Action) : Except Exception Method := do
  parseMethod (← (← action.json.at' "method").getString)

def getBody (action : Action) : Except Exception Json :=
  action.json.at' "body"

end Action

end Hueplusplus
