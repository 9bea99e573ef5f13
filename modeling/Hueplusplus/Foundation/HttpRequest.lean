import Hueplusplus.Foundation.Search

/-!
# Reading HTTP/1.0 requests

A request is a line with method, URI and version, then a line for each header field, an empty
line and a body, whose length is that of the header. What is read consists of the bytes of the
request, and of those it is cut out at the first separators.
-/

namespace Hueplusplus

/-- What a request says. -/
structure HttpRequest where
  method : Text
  uri : Text
  contentType : Text
  body : Text

namespace HttpRequest

def version : Text := "HTTP/1.0".toList

/-- Between the name of a header field and its value. -/
def separator : Text := ": ".toList

def contentTypeName : Text := "Content-Type".toList

def contentLengthName : Text := "Content-Length".toList

/-- Method and URI of a request line. -/
def readRequestLine (line : Text) : Option (Text × Text) := do
  let first ← line.dropInfix? [' ']
  let second ← first.2.dropInfix? [' ']
  if second.2 = version then some (first.1, second.1) else none

/-- The header fields up to the empty line, and what follows it. -/
def readHeaders (s : Text) : Option (List (Text × Text) × Text) :=
  match _found : s.dropInfix? crlf with
  | none => none
  | some (line, rest) =>
    if line = [] then some ([], rest)
    else do
      let field ← line.dropInfix? separator
      let later ← readHeaders rest
      return (field :: later.1, later.2)
termination_by s.length
decreasing_by exact (dropInfix?_eq_some_iff.mp _found).length_after_lt (by decide)

/-- The length that the header says; there is no body without one. -/
def readLength (headers : List (Text × Text)) : Option ℕ :=
  match headers.lookup contentLengthName with
  | none => some 0
  | some digits =>
    if digits ≠ [] ∧ digits.all Char.isDigit then some (Nat.ofDigitChars 10 digits 0) else none

def read (bytes : Text) : Option HttpRequest := do
  let start ← bytes.dropInfix? crlf
  let line ← readRequestLine start.1
  let fields ← readHeaders start.2
  let length ← readLength fields.1
  if length ≤ fields.2.length then
    some {
      method := line.1
      uri := line.2
      contentType := (fields.1.lookup contentTypeName).getD []
      body := fields.2.take length }
  else none

theorem readHeaders_of_firstAt {s line rest : Text} (first : FirstAt crlf s line rest) :
    readHeaders s =
      if line = [] then some ([], rest)
      else do
        let field ← line.dropInfix? separator
        let later ← readHeaders rest
        return (field :: later.1, later.2) := by
  have found := dropInfix?_eq_some_iff.mpr first
  rw [readHeaders]
  split
  · rename_i none
    rw [found] at none
    cases none
  · rename_i same
    rw [found] at same
    obtain ⟨rfl, rfl⟩ := Prod.mk.inj (Option.some.inj same)
    rfl

theorem readHeaders_of_absent {s : Text} (absent : ¬ crlf <:+: s) : readHeaders s = none := by
  have none := dropInfix?_eq_none_iff.mpr absent
  rw [readHeaders]
  split
  · rfl
  · rename_i found
    rw [none] at found
    cases found

theorem readHeaders_subset {s : Text} {fields : List (Text × Text) × Text}
    (h : readHeaders s = some fields) :
    (∀ field ∈ fields.1, field.2 ⊆ s) ∧ fields.2 ⊆ s := by
  by_cases occurs : crlf <:+: s
  · obtain ⟨line, rest, first⟩ := exists_firstAt occurs
    have shorter := first.length_after_lt (by decide)
    rw [readHeaders_of_firstAt first] at h
    split at h
    · obtain rfl := Option.some.inj h
      exact ⟨fun _ member => absurd member List.not_mem_nil, first.after_subset⟩
    · simp only [Option.bind_eq_bind, Option.bind_eq_some_iff, Option.pure_def,
        Option.some.injEq] at h
      obtain ⟨field, cut, later, read, rfl⟩ := h
      have value : field.2 ⊆ line := (dropInfix?_eq_some_iff.mp cut).after_subset
      obtain ⟨values, body⟩ := readHeaders_subset read
      refine ⟨List.forall_mem_cons.mpr ⟨List.Subset.trans value first.before_subset, ?_⟩,
        List.Subset.trans body first.after_subset⟩
      exact fun other member => List.Subset.trans (values other member) first.after_subset
  · rw [readHeaders_of_absent occurs] at h
    cases h
termination_by s.length

/-- The value of a header field, or nothing, is among the bytes. -/
theorem getD_lookup_subset {headers : List (Text × Text)} {name s : Text}
    (values : ∀ field ∈ headers, field.2 ⊆ s) : (headers.lookup name).getD [] ⊆ s := by
  cases found : headers.lookup name with
  | none => exact List.nil_subset s
  | some value =>
      obtain ⟨before, after, split, _⟩ := List.lookup_eq_some_iff.mp found
      exact values (name, value) (split ▸ List.mem_append_right _ List.mem_cons_self)

/-- What a request is read to say has no byte that it does not have. -/
theorem read_subset {bytes : Text} {request : HttpRequest} (h : read bytes = some request) :
    request.method ⊆ bytes ∧ request.uri ⊆ bytes ∧ request.contentType ⊆ bytes ∧
      request.body ⊆ bytes := by
  simp only [read, readRequestLine, Option.bind_eq_bind, Option.bind_eq_some_iff,
    Option.ite_none_right_eq_some, Option.some.injEq] at h
  obtain ⟨start, cut, line, ⟨first, one, second, two, _, rfl⟩, fields, headers, length, _, _,
    rfl⟩ := h
  have start := dropInfix?_eq_some_iff.mp cut
  have method := dropInfix?_eq_some_iff.mp one
  have uri := dropInfix?_eq_some_iff.mp two
  obtain ⟨values, body⟩ := readHeaders_subset headers
  refine ⟨List.Subset.trans method.before_subset start.before_subset,
    List.Subset.trans (List.Subset.trans uri.before_subset method.after_subset)
      start.before_subset,
    List.Subset.trans (getD_lookup_subset values) start.after_subset,
    List.Subset.trans (List.take_subset _ _) (List.Subset.trans body start.after_subset)⟩

/-- The bytes of a request. -/
def print (method uri : Text) (headers : List (Text × Text)) (rest : Text) : Text :=
  method ++ ' ' :: (uri ++ ' ' :: version) ++ (crlf ++
    (headers.flatMap (fun field => field.1 ++ (separator ++ field.2) ++ crlf) ++ (crlf ++ rest)))

/-- The text ends at a space or at the end of its line. -/
structure IsToken (s : Text) : Prop where
  noSpace : ' ' ∉ s
  noReturn : '\r' ∉ s

/-- The name of the field ends at the separator, and the field at the end of its line. -/
def IsField (field : Text × Text) : Prop :=
  ':' ∉ field.1 ∧ '\r' ∉ field.1 ∧ '\r' ∉ field.2

theorem firstAt_crlf {line : Text} (absent : '\r' ∉ line) (rest : Text) :
    FirstAt crlf (line ++ (crlf ++ rest)) line rest :=
  firstAt_of_notMem absent

theorem firstAt_separator {name : Text} (absent : ':' ∉ name) (value : Text) :
    FirstAt separator (name ++ (separator ++ value)) name value :=
  firstAt_of_notMem absent

theorem readHeaders_print {headers : List (Text × Text)} (rest : Text)
    (fields : ∀ field ∈ headers, IsField field) :
    readHeaders (headers.flatMap (fun field => field.1 ++ (separator ++ field.2) ++ crlf) ++
      (crlf ++ rest)) = some (headers, rest) := by
  induction headers with
  | nil => exact (readHeaders_of_firstAt (firstAt_crlf List.not_mem_nil rest)).trans rfl
  | cons field headers ih =>
      obtain ⟨⟨colon, name, value⟩, later⟩ := List.forall_mem_cons.mp fields
      have line : '\r' ∉ field.1 ++ (separator ++ field.2) := by
        simp [name, value, separator]
      have nonempty : field.1 ++ (separator ++ field.2) ≠ [] := by
        simp [separator]
      rw [List.flatMap_cons, List.append_assoc, List.append_assoc,
        readHeaders_of_firstAt (firstAt_crlf line _), if_neg nonempty,
        dropInfix?_eq_some_iff.mpr (firstAt_separator colon field.2), ih later]
      rfl

section Print

variable {method uri : Text} (isMethod : IsToken method) (isUri : IsToken uri)
include isMethod isUri

theorem readRequestLine_print :
    readRequestLine (method ++ ' ' :: (uri ++ ' ' :: version)) = some (method, uri) := by
  simp only [readRequestLine, dropInfix?_eq_some_iff.mpr (firstAt_singleton isMethod.noSpace),
    dropInfix?_eq_some_iff.mpr (firstAt_singleton isUri.noSpace), Option.bind_eq_bind,
    Option.bind_some, if_true]

/-- A request is read as it is written. -/
theorem read_print {headers : List (Text × Text)} {rest : Text} {length : ℕ}
    (fields : ∀ field ∈ headers, IsField field)
    (said : readLength headers = some length) (enough : length ≤ rest.length) :
    read (print method uri headers rest) = some {
      method
      uri
      contentType := (headers.lookup contentTypeName).getD []
      body := rest.take length } := by
  have noReturn : '\r' ∉ version := by decide
  have line : '\r' ∉ method ++ ' ' :: (uri ++ ' ' :: version) := by
    simp [isMethod.noReturn, isUri.noReturn, noReturn]
  have start := dropInfix?_eq_some_iff.mpr (firstAt_crlf line
    (headers.flatMap (fun field => field.1 ++ (separator ++ field.2) ++ crlf) ++ (crlf ++ rest)))
  simp only [read, print, start, readRequestLine_print isMethod isUri,
    readHeaders_print rest fields, said, Option.bind_eq_bind, Option.bind_some, if_pos enough]

end Print

end HttpRequest

end Hueplusplus
