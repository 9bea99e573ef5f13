import Hueplusplus.Bridge.Basic
import Hueplusplus.HttpHandler.Framing
import Hueplusplus.HttpHandler.Send

/-!
# A request from the command to the socket

The JSON calls of `IHttpHandler` print the body of a request, frame and send it, and parse the
body of the response. Here they run over the Linux back end: each attempt of a command opens a
connection of its own. What the calls of the operating system return decides in which pieces
the bytes go through it, and neither the request nor the reply depends on the pieces. How JSON
is printed and parsed is a parameter.
-/

namespace Hueplusplus

open Effect Text

/-- `nlohmann::json::dump` and `nlohmann::json::parse`. -/
structure JsonText where
  dump : Json → Text
  parse : Text → Except Exception Json

namespace BaseHttpHandler

section Strings

variable (send : Send) (uri contentType body : Text) (adr : String) (port : ℤ)

def GETString : Except Exception Text :=
  sendHTTPRequest send "GET".toList uri contentType body adr port

def POSTString : Except Exception Text :=
  sendHTTPRequest send "POST".toList uri contentType body adr port

def PUTString : Except Exception Text :=
  sendHTTPRequest send "PUT".toList uri contentType body adr port

def DELETEString : Except Exception Text :=
  sendHTTPRequest send "DELETE".toList uri contentType body adr port

end Strings

section Json

variable (json : JsonText) (send : Send) (uri : String) (body : Json) (adr : String) (port : ℤ)

/-- The content type of the JSON calls. -/
def jsonType : Text := "application/json".toList

def GETJson : Except Exception Json := do
  json.parse (← GETString send uri.toList jsonType (json.dump body) adr port)

def POSTJson : Except Exception Json := do
  json.parse (← POSTString send uri.toList jsonType (json.dump body) adr port)

def PUTJson : Except Exception Json := do
  json.parse (← PUTString send uri.toList jsonType (json.dump body) adr port)

def DELETEJson : Except Exception Json := do
  json.parse (← DELETEString send uri.toList jsonType (json.dump body) adr port)

end Json

/-- The handler whose attempts send in these ways. -/
def handler (json : JsonText) (send : ℕ → Send) : IHttpHandler where
  getJson attempt uri body adr port := GETJson json (send attempt) uri body adr port
  putJson attempt uri body adr port := PUTJson json (send attempt) uri body adr port
  postJson attempt uri body adr port := POSTJson json (send attempt) uri body adr port
  deleteJson attempt uri body adr port := DELETEJson json (send attempt) uri body adr port

end BaseHttpHandler

/-- How a method is written in a request. -/
def HttpVerb.text : HttpVerb → Text
  | .get => "GET".toList
  | .put => "PUT".toList
  | .post => "POST".toList
  | .delete => "DELETE".toList

namespace BaseHttpHandler

theorem isToken_text (verb : HttpVerb) : IsToken verb.text ∧ nul ∉ verb.text := by
  cases verb <;> exact ⟨⟨⟨by decide, by decide⟩, by decide⟩, by decide⟩

/-- The JSON calls differ in the method only. -/
theorem json_handler (json : JsonText) (send : ℕ → Send) (verb : HttpVerb) (attempt : ℕ)
    (uri : String) (body : Json) (adr : String) (port : ℤ) :
    (handler json send).json verb attempt uri body adr port =
      (sendHTTPRequest (send attempt) verb.text uri.toList jsonType (json.dump body) adr port >>=
        json.parse) := by
  cases verb <;> rfl

/-- What `sendGetHTTPBody` returns of a response. -/
def bodyOf (response : Text) : Except Exception Text :=
  match response.search (crlf ++ crlf) 0 with
  | none => .error (.hueException "Failed to find body in response")
  | some start => .ok (response.drop (start + 4))

theorem sendGetHTTPBody_eq (send : Send) (msg : Text) (adr : String) (port : ℤ) :
    sendGetHTTPBody send msg adr port = send msg adr port >>= bodyOf :=
  rfl

end BaseHttpHandler

namespace Socket

variable (socket : Socket)

/-- What a connection gives altogether. -/
def response : Except Exception Text :=
  match socket.closed with
  | .ok () => .ok socket.received.flatten
  | .error code => .error (.systemError code)

variable {socket}

theorem receive_eq (pieces : List Text) (start : Text) (s : Transmission) :
    (result (socket.receive start pieces) s).1 =
      match socket.closed with
      | .ok () => .ok (start ++ pieces.flatten)
      | .error code => .error (.systemError code) := by
  induction pieces generalizing start s with
  | nil =>
      rw [receive, result_bind, result_modify, List.flatten_nil, List.append_nil]
      cases socket.closed <;> rfl
  | cons bytes later ih =>
      rw [receive, result_bind, result_modify, List.flatten_cons, ← List.append_assoc]
      exact ih _ _

end Socket

/-- On an accepting socket the loop that sends never decides about the result. -/
theorem LinHttpHandler.send_response {socket : Socket} (accepting : socket.Accepting)
    (msg : Text) : (result (send socket msg) .start).1 = socket.response := by
  obtain ⟨pieces, t, -, -, returned⟩ := sendLoop_writes accepting msg (Nat.zero_le _) .start
  rw [send, (accepting.returns_opened _).result_bind, returned.result_bind, Socket.receive_eq,
    List.nil_append]
  rfl

namespace LinHttpHandler

/-- `send` over the sockets that connections to an address and a port get. -/
def sendOver (sockets : String → ℤ → Socket) : Send := fun msg adr port =>
  (result (send (sockets adr port) msg) .start).1

/-- The handler that opens a connection for each attempt. -/
def handler (json : JsonText) (sockets : ℕ → String → ℤ → Socket) : IHttpHandler :=
  BaseHttpHandler.handler json fun attempt => sendOver (sockets attempt)

/-- The message of an attempt arrives: it is sent as a whole, and read as the request that was
meant. -/
structure Arrives (json : JsonText) (socket : Socket) (verb : HttpVerb) (uri : String)
    (body : Json) (msg : Text) : Prop where
  whole : SendsWhole (send socket msg) msg
  read : ∃ text, HttpRequest.read msg =
      some {
        method := verb.text
        uri := uri.toList
        contentType := BaseHttpHandler.jsonType
        body := text } ∧
    json.parse text = .ok body

end LinHttpHandler

open BaseHttpHandler in
/-- A command over Linux sockets: each attempt hands over one message, which arrives however
many bytes the writes accept, and the reply is made of the responses as they are altogether,
in whatever pieces they are received. -/
theorem request_over_sockets {json : JsonText} {sockets : ℕ → String → ℤ → Socket}
    {commands : HueCommandAPI} {path : String} {body : Json} (verb : HttpVerb)
    (handled : commands.httpHandler = LinHttpHandler.handler json sockets)
    (isUri : IsToken (commands.combinedPath path).toList)
    (noNul : nul ∉ (commands.combinedPath path).toList)
    (plain : nul ∉ json.dump body) (parsed : json.parse (json.dump body) = .ok body)
    (accepting : ∀ attempt, (sockets attempt commands.ip commands.port).Accepting) :
    (∃ msg, ∀ attempt,
      commands.httpHandler.json verb attempt (commands.combinedPath path) body commands.ip
          commands.port =
        (sendGetHTTPBody (LinHttpHandler.sendOver (sockets attempt)) msg commands.ip
          commands.port >>= json.parse) ∧
      LinHttpHandler.Arrives json (sockets attempt commands.ip commands.port) verb
        (commands.combinedPath path) body msg) ∧
    commands.request (fun handler => handler.json verb) path body =
      (runWithTimeout (fun attempt =>
        (sockets attempt commands.ip commands.port).response >>= bodyOf >>= json.parse) >>=
          HueCommandAPI.handleError) := by
  have isType : IsLine jsonType := ⟨by decide, by decide⟩
  have noNulType : nul ∉ jsonType := by decide
  have absent := notMem_request (isToken_text verb).2 noNul noNulType plain
  have handed : ∀ attempt, commands.httpHandler.json verb attempt (commands.combinedPath path)
      body commands.ip commands.port =
        (sendGetHTTPBody (LinHttpHandler.sendOver (sockets attempt))
          (request verb.text (commands.combinedPath path).toList jsonType (json.dump body))
          commands.ip commands.port >>= json.parse) := by
    intro attempt
    rw [handled, LinHttpHandler.handler, json_handler, sendHTTPRequest, cStr_of_notMem absent]
  have reply : ∀ attempt, commands.httpHandler.json verb attempt (commands.combinedPath path)
      body commands.ip commands.port =
        ((sockets attempt commands.ip commands.port).response >>= bodyOf >>= json.parse) := by
    intro attempt
    rw [handed attempt, sendGetHTTPBody_eq, LinHttpHandler.sendOver,
      LinHttpHandler.send_response (accepting attempt)]
  refine ⟨⟨_, fun attempt => ⟨handed attempt, ?_⟩⟩, ?_⟩
  · exact ⟨LinHttpHandler.send_sendsWhole (accepting attempt) _, _,
      read_request (isToken_text verb).1 isUri isType _, parsed⟩
  · simp only [HueCommandAPI.request, reply]

/-- Prints and parses the empty object. -/
def emptyObjectText : JsonText where
  dump _ := "\x7b\x7d".toList
  parse s := if s = "\x7b\x7d".toList then .ok (.obj []) else .error (.jsonException 101)

/-- Accepts a byte at a time, and gives its response in pieces. -/
def slowReply : Socket :=
  { slowSocket with
    received := ["HTTP/1.0 200 OK\r\n\r".toList, "\n\x7b".toList, "\x7d".toList] }

theorem request_over_sockets_slow :
    let commands : HueCommandAPI :=
      ⟨"192.168.2.1", 80, "user", LinHttpHandler.handler emptyObjectText fun _ _ _ => slowReply⟩
    commands.request (fun handler => handler.json .get) "/config" (.obj []) = .ok (.obj []) := by
  intro commands
  have accepting : slowReply.Accepting :=
    ⟨rfl, slowSocket_accepting.nonneg, slowSocket_accepting.positive,
      slowSocket_accepting.le_count⟩
  have uri : (commands.combinedPath "/config").toList = "/api/user/config".toList := by
    decide +kernel
  refine (request_over_sockets .get rfl ?_ ?_ ?_ rfl fun _ => accepting).2.trans ?_
  · rw [uri]
    exact ⟨⟨by decide +kernel, by decide +kernel⟩, by decide +kernel⟩
  · rw [uri]
    decide +kernel
  · decide +kernel
  · have absent : '\r' ∉ "HTTP/1.0 200 OK".toList := by decide +kernel
    have first : FirstAt (crlf ++ crlf) slowReply.received.flatten "HTTP/1.0 200 OK".toList
        "\x7b\x7d".toList :=
      firstAt_of_notMem absent
    have cut : BaseHttpHandler.bodyOf slowReply.received.flatten = .ok "\x7b\x7d".toList :=
      (BaseHttpHandler.returnsBodies (fun _ _ _ => .ok slowReply.received.flatten) [] "" 0 _
        rfl).1 _ _ first
    have reply : (slowReply.response >>= BaseHttpHandler.bodyOf >>= emptyObjectText.parse) =
        .ok (.obj []) := by
      rw [show slowReply.response = .ok slowReply.received.flatten from rfl, Except.ok_bind, cut]
      rfl
    simp only [reply]
    rfl

end Hueplusplus
