import Hueplusplus.Json

/-!
# Requests to the bridge

A `HueCommandAPI` addresses one bridge under one username and hands every request
to an HTTP handler. The handler is a parameter: for each call it is the function
that gives the replies the bridge would give at that moment, one per attempt. The
times at which the attempts start are the subject of
`Hueplusplus.HueCommandAPI.RequestDelay`.
-/

namespace Hueplusplus

/-- Reply, or exception, to the given attempt at a request: URI, body, address and
port. -/
abbrev HttpMethod : Type := ℕ → String → Json → String → ℤ → Except Exception Json

/-- The JSON calls of `IHttpHandler`. -/
structure IHttpHandler where
  getJson : HttpMethod
  putJson : HttpMethod
  postJson : HttpMethod
  deleteJson : HttpMethod

structure HueCommandAPI where
  ip : String
  port : ℤ
  username : String
  httpHandler : IHttpHandler

/-- Errors after which `RunWithTimeout` calls the functor once more. -/
def ErrorCode.retried : ErrorCode → Bool
  | .connectionReset => true
  | .timedOut => true
  | .other _ => false

/-- Result of `RunWithTimeout`, given the results of the two calls of the functor
it can make. -/
def runWithTimeout (fn : ℕ → Except Exception Json) : Except Exception Json :=
  match fn 0 with
  | .error (.systemError code) => if code.retried then fn 1 else .error (.systemError code)
  | result => result

namespace HueCommandAPI

/-- An error reply becomes an exception; any other reply is passed through. -/
def handleError (response : Json) : Except Exception Json :=
  if response.count "error" then .error (.hueAPIResponseException response)
  else
    match response with
    | .arr elems =>
      match elems.find? fun v => v.count "error" with
      | some v => .error (.hueAPIResponseException v)
      | none => .ok response
    | _ => .ok response

theorem handleError_eq_ok {response json : Json}
    (h : handleError response = .ok json) : response = json := by
  unfold handleError at h
  split at h
  · simp at h
  · split at h
    · split at h
      · simp at h
      · exact Except.ok.inj h
    · exact Except.ok.inj h

def combinedPath (commands : HueCommandAPI) (path : String) : String :=
  let result := "/api/" ++ commands.username
  match path.toList with
  | [] => result
  | '/' :: _ => result ++ path
  | _ => result ++ "/" ++ path

/-- The four kinds of requests differ in the handler's method only. -/
def request (commands : HueCommandAPI) (method : IHttpHandler → HttpMethod) (path : String)
    (body : Json) : Except Exception Json := do
  let response ← runWithTimeout fun attempt =>
    method commands.httpHandler attempt (commands.combinedPath path) body commands.ip
      commands.port
  handleError response

def putRequest (commands : HueCommandAPI) (path : String) (body : Json) :
    Except Exception Json :=
  commands.request IHttpHandler.putJson path body

def getRequest (commands : HueCommandAPI) (path : String) (body : Json) :
    Except Exception Json :=
  commands.request IHttpHandler.getJson path body

end HueCommandAPI

end Hueplusplus
