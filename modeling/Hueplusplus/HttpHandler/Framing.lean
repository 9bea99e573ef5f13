import Hueplusplus.Foundation.HttpRequest
import Hueplusplus.Json

/-!
# Requests and responses as bytes

`sendHTTPRequest` appends the parts of a request one after the other and hands the result to
`send` as a C string, which ends at its first NUL. So a request is read as it was meant exactly
if it has no NUL. Of the response the bytes behind the first empty line are returned.
-/

namespace Hueplusplus

open Text

/-- `IHttpHandler::send`: the response to a message, by address and port. -/
abbrev Send : Type := Text → String → ℤ → Except Exception Text

namespace BaseHttpHandler

def sendGetHTTPBody (send : Send) (msg : Text) (adr : String) (port : ℤ) :
    Except Exception Text := do
  let response ← send msg adr port
  match response.search (crlf ++ crlf) 0 with
  | none => .error (.hueException "Failed to find body in response")
  | some start => return response.drop (start + 4)

/-- The request that `sendHTTPRequest` appends. -/
def request (method uri contentType body : Text) : Text :=
  let request := method ++ [' '] ++ uri ++ [' '] ++ "HTTP/1.0".toList ++ crlf
  let request :=
    if contentType ≠ [] then
      request ++ "Content-Type:".toList ++ [' '] ++ contentType ++ crlf
    else request
  let request :=
    if body ≠ [] then
      request ++ "Content-Length:".toList ++ [' '] ++ Nat.toDigits 10 body.length ++
        (crlf ++ crlf)
    else request
  request ++ body ++ (crlf ++ crlf)

def sendHTTPRequest (send : Send) (method uri contentType body : Text) (adr : String)
    (port : ℤ) : Except Exception Text :=
  sendGetHTTPBody send (request method uri contentType body).cStr adr port

/-- The bytes behind the first empty line of a response are returned; without one it throws. -/
def ReturnsBodies : Prop :=
  ∀ (send : Send) (msg : Text) (adr : String) (port : ℤ) (response : Text),
    send msg adr port = .ok response →
    (∀ head body, FirstAt (crlf ++ crlf) response head body →
      sendGetHTTPBody send msg adr port = .ok body) ∧
    (¬ crlf ++ crlf <:+: response →
      sendGetHTTPBody send msg adr port =
        .error (.hueException "Failed to find body in response"))

theorem returnsBodies : ReturnsBodies := by
  intro send msg adr port response received
  constructor
  · intro head body first
    have behind : response.drop (head.length + 4) = body := first.drop_length
    simp [sendGetHTTPBody, received, search_zero_of_firstAt first, behind]
  · intro absent
    simp [sendGetHTTPBody, received, search_zero_eq_none_iff.mpr absent]

/-- These bytes are handed to `send`, whatever it does. -/
def Hands (method uri contentType body bytes : Text) : Prop :=
  ∀ (send : Send) (adr : String) (port : ℤ),
    sendHTTPRequest send method uri contentType body adr port =
      sendGetHTTPBody send bytes adr port

/-- The bytes that are handed to `send` are read as the request that was meant. -/
def ReadBack (method uri contentType body : Text) : Prop :=
  ∃ bytes, Hands method uri contentType body bytes ∧
    HttpRequest.read bytes = some { method, uri, contentType, body }

/-- A response that repeats the message shows which bytes were handed over. -/
theorem eq_of_hands {method uri contentType body bytes : Text}
    (h : Hands method uri contentType body bytes) :
    bytes = (request method uri contentType body).cStr := by
  have echoed : ∀ msg, sendGetHTTPBody (fun msg _ _ => .ok (crlf ++ crlf ++ msg)) msg "" 0 =
      .ok msg := fun msg =>
    (returnsBodies _ msg "" 0 _ rfl).1 [] msg ⟨rfl, fun _ _ _ => Nat.zero_le _⟩
  have same := h (fun msg _ _ => .ok (crlf ++ crlf ++ msg)) "" 0
  rw [sendHTTPRequest, echoed, echoed] at same
  exact (Except.ok.inj same).symm

/-- Nothing with a NUL is read back. -/
theorem ReadBack.notMem {method uri contentType body : Text}
    (h : ReadBack method uri contentType body) :
    nul ∉ method ∧ nul ∉ uri ∧ nul ∉ contentType ∧ nul ∉ body := by
  obtain ⟨bytes, handed, read⟩ := h
  have absent : nul ∉ bytes := eq_of_hands handed ▸ notMem_cStr _
  obtain ⟨inMethod, inUri, inType, inBody⟩ := HttpRequest.read_subset read
  exact ⟨fun member => absent (inMethod member), fun member => absent (inUri member),
    fun member => absent (inType member), fun member => absent (inBody member)⟩

/-- The header fields of a request. -/
def headers (contentType body : Text) : List (Text × Text) :=
  (if contentType ≠ [] then [(HttpRequest.contentTypeName, contentType)] else []) ++
    (if body ≠ [] then [(HttpRequest.contentLengthName, Nat.toDigits 10 body.length)] else [])

/-- What follows the empty line of a request. -/
def content (body : Text) : Text :=
  if body ≠ [] then body ++ (crlf ++ crlf) else crlf

/-- On both branches the header ends with one empty line. -/
theorem request_eq_print (method uri contentType body : Text) :
    request method uri contentType body =
      HttpRequest.print method uri (headers contentType body) (content body) := by
  have type : "Content-Type:".toList = HttpRequest.contentTypeName ++ [':'] := by
    decide +kernel
  have length : "Content-Length:".toList = HttpRequest.contentLengthName ++ [':'] := by
    decide +kernel
  have separator : ∀ value, HttpRequest.separator ++ value = ':' :: ' ' :: value := fun _ => rfl
  have version : "HTTP/1.0".toList = HttpRequest.version := rfl
  simp only [request, HttpRequest.print, headers, content, version]
  rcases eq_or_ne body [] with rfl | nonempty
  · simp only [ne_eq, not_true_eq_false, if_false]
    split_ifs <;>
      simp only [List.append_assoc, List.cons_append, List.nil_append, List.flatMap_cons,
        List.flatMap_nil, type, separator]
  · simp only [if_pos nonempty]
    split_ifs <;>
      simp only [List.append_assoc, List.cons_append, List.nil_append, List.flatMap_cons,
        List.flatMap_nil, type, length, separator]

@[simp] theorem readLength_headers (contentType body : Text) :
    HttpRequest.readLength (headers contentType body) = some body.length := by
  have digits : (Nat.toDigits 10 body.length).all Char.isDigit :=
    List.all_eq_true.mpr fun c => isDigit_of_mem_toDigits
  have other : (HttpRequest.contentLengthName == HttpRequest.contentTypeName) = false := rfl
  have lookup : (headers contentType body).lookup HttpRequest.contentLengthName =
      if body ≠ [] then some (Nat.toDigits 10 body.length) else none := by
    unfold headers
    split_ifs <;> simp [List.lookup_cons, other]
  rw [HttpRequest.readLength, lookup]
  rcases eq_or_ne body [] with rfl | nonempty
  · rfl
  · simp only [if_pos nonempty, if_pos (And.intro Nat.toDigits_ne_nil digits),
      Nat.ofDigitChars_ten_toDigits]

@[simp] theorem getD_lookup_headers (contentType body : Text) :
    ((headers contentType body).lookup HttpRequest.contentTypeName).getD [] = contentType := by
  have other : (HttpRequest.contentTypeName == HttpRequest.contentLengthName) = false := rfl
  rcases eq_or_ne contentType [] with rfl | typed
  · unfold headers
    split_ifs <;> simp [List.lookup_cons, other] at *
  · simp [headers, typed]

theorem isField_headers {contentType : Text} (noReturn : '\r' ∉ contentType) (body : Text) :
    ∀ field ∈ headers contentType body, HttpRequest.IsField field := by
  have digits : '\r' ∉ Nat.toDigits 10 body.length := notMem_toDigits rfl
  intro field member
  rcases List.mem_append.mp member with typed | long
  · rw [List.mem_ite_nil_right, List.mem_singleton] at typed
    obtain ⟨-, rfl⟩ := typed
    have name : ':' ∉ HttpRequest.contentTypeName ∧ '\r' ∉ HttpRequest.contentTypeName := by
      decide
    exact ⟨name.1, name.2, noReturn⟩
  · rw [List.mem_ite_nil_right, List.mem_singleton] at long
    obtain ⟨-, rfl⟩ := long
    have name : ':' ∉ HttpRequest.contentLengthName ∧ '\r' ∉ HttpRequest.contentLengthName := by
      decide
    exact ⟨name.1, name.2, digits⟩

/-- `sendHTTPRequest` adds no NUL of its own. -/
theorem notMem_request {method uri contentType body : Text} (inMethod : nul ∉ method)
    (inUri : nul ∉ uri) (inType : nul ∉ contentType) (inBody : nul ∉ body) :
    nul ∉ request method uri contentType body := by
  have digits : nul ∉ Nat.toDigits 10 body.length := notMem_toDigits rfl
  have version : nul ∉ "HTTP/1.0".toList := by decide
  have type : nul ∉ "Content-Type:".toList := by decide
  have length : nul ∉ "Content-Length:".toList := by decide
  have line : nul ∉ crlf := by decide
  have space : nul ∉ [' '] := by decide
  unfold request
  split_ifs <;>
    simp only [List.mem_append, not_or, not_false_iff, and_true, *]

/-- Without line ends. -/
structure IsLine (s : Text) : Prop where
  noReturn : '\r' ∉ s
  noLineFeed : '\n' ∉ s

/-- Without spaces and line ends. -/
structure IsToken (s : Text) : Prop extends IsLine s where
  noSpace : ' ' ∉ s

section Framing

variable {method uri contentType : Text} (isMethod : IsToken method) (isUri : IsToken uri)
  (isType : IsLine contentType) (body : Text)
include isMethod isUri isType

/-- What `sendHTTPRequest` appends is read as it was meant, whatever the body is. -/
theorem read_request :
    HttpRequest.read (request method uri contentType body) =
      some { method, uri, contentType, body } := by
  obtain ⟨after, split⟩ : ∃ after, content body = body ++ after := by
    unfold content
    split_ifs with nonempty
    · exact ⟨_, rfl⟩
    · exact ⟨crlf, by rw [not_not.mp nonempty, List.nil_append]⟩
  have enough : body.length ≤ (content body).length := by
    rw [split, List.length_append]
    exact Nat.le_add_right _ _
  have cut : (content body).take body.length = body := by
    rw [split, List.take_left]
  rw [request_eq_print, HttpRequest.read_print ⟨isMethod.noSpace, isMethod.noReturn⟩
    ⟨isUri.noSpace, isUri.noReturn⟩ (isField_headers isType.noReturn body)
    (readLength_headers contentType body) enough, getD_lookup_headers, cut]

/-- The bytes that are handed over are read as the request that was meant, and of a response the
body is returned, exactly if the request has no NUL. -/
theorem framing_lossless_iff :
    ReadBack method uri contentType body ∧ ReturnsBodies ↔
      nul ∉ method ∧ nul ∉ uri ∧ nul ∉ contentType ∧ nul ∉ body := by
  constructor
  · rintro ⟨readBack, -⟩
    exact readBack.notMem
  · rintro ⟨inMethod, inUri, inType, inBody⟩
    have absent := notMem_request inMethod inUri inType inBody
    refine ⟨⟨request method uri contentType body, fun send adr port => ?_,
      read_request isMethod isUri isType body⟩, returnsBodies⟩
    rw [sendHTTPRequest, cStr_of_notMem absent]

end Framing

theorem framing_lossless_iff_put :
    ReadBack "PUT".toList "/api".toList "application/json".toList "\x7b\x7d".toList ∧
        ReturnsBodies ↔
      nul ∉ "PUT".toList ∧ nul ∉ "/api".toList ∧ nul ∉ "application/json".toList ∧
        nul ∉ "\x7b\x7d".toList :=
  framing_lossless_iff ⟨⟨by decide, by decide⟩, by decide⟩ ⟨⟨by decide, by decide⟩, by decide⟩
    ⟨by decide, by decide⟩ _

/-- A body is cut off at its NUL. -/
theorem nul_in_body_not_read_back :
    ¬ ∀ method uri contentType body, IsToken method → IsToken uri → IsLine contentType →
      ReadBack method uri contentType body ∧ ReturnsBodies := by
  intro claim
  have token : IsToken "PUT".toList := ⟨⟨by decide, by decide⟩, by decide⟩
  have readBack := (claim "PUT".toList "PUT".toList [] ['a', nul, 'b'] token token
    ⟨List.not_mem_nil, List.not_mem_nil⟩).1
  exact readBack.notMem.2.2.2 (by decide)

end BaseHttpHandler

end Hueplusplus
