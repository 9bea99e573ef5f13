import Hueplusplus.Foundation.Writes
import Hueplusplus.Json

/-!
# Members assigned one after the other

Requests are built by assignments through `operator[]`, beginning with null. The first one makes
an object of it, and then no assignment throws.
-/

namespace Hueplusplus.Json

open AssocList

/-- `value(key, default)`, which throws unless it is called on an object. -/
def value {α : Type} (json : Json) (key : String) (default : α)
    (get : Json → Except Exception α) : Except Exception α :=
  match json with
  | .obj members => (AssocList.find? members key).elim (.ok default) get
  | _ => .error (.jsonException 306)

/-- `key()` of an iterator. -/
def iteratorKey : Option String → Except Exception String
  | some key => .ok key
  | none => .error (.jsonException 207)

/-- `json[key] = value` for each of these writes. -/
def assignAll (json : Json) (writes : List (String × Json)) : Except Exception Json :=
  writes.foldlM (fun json write => json.setMember write.1 write.2) json

theorem assignAll_obj (members writes : List (String × Json)) :
    (obj members).assignAll writes = .ok (.obj (writeAll members writes)) := by
  induction writes generalizing members with
  | nil => rfl
  | cons write writes ih => exact ih (AssocList.insert write.1 write.2 members)

theorem assignAll_null (writes : List (String × Json)) :
    null.assignAll writes = .ok (if writes = [] then .null else .obj (writeAll [] writes)) := by
  cases writes with
  | nil => rfl
  | cons write writes =>
      rw [if_neg (List.cons_ne_nil write writes)]
      exact assignAll_obj _ writes

theorem assignAll_append (json : Json) (first second : List (String × Json)) :
    json.assignAll (first ++ second) =
      (json.assignAll first >>= fun json => json.assignAll second) :=
  List.foldlM_append

/-- An object that has these members. -/
def HasMembers (json : Json) (members : String → Option Json) : Prop :=
  ∃ entries, json = .obj entries ∧ ∀ key, AssocList.find? entries key = members key

theorem hasMembers_of_assignAll_null {writes : List (String × Json)} (some : writes ≠ []) :
    ∃ json, null.assignAll writes = .ok json ∧ json.HasMembers (lastWrite writes) := by
  refine ⟨.obj (writeAll [] writes), ?_, writeAll [] writes, rfl, fun key => ?_⟩
  · rw [assignAll_null, if_neg some]
  · rw [find?_writeAll, find?_nil, Option.or_none]

section HasMembers

variable {json : Json} {members : String → Option Json}

theorem HasMembers.find? (h : json.HasMembers members) (key : String) :
    json.find? key = members key := by
  obtain ⟨entries, rfl, found⟩ := h
  exact found key

theorem HasMembers.count (h : json.HasMembers members) (key : String) :
    json.count key = (members key).isSome := by
  rw [Json.count, h.find?]

theorem HasMembers.value (h : json.HasMembers members) {α : Type} (key : String) (default : α)
    (get : Json → Except Exception α) :
    json.value key default get = (members key).elim (.ok default) get := by
  obtain ⟨entries, rfl, found⟩ := h
  rw [Json.value, found]

theorem HasMembers.at' (h : json.HasMembers members) (key : String) :
    json.at' key = (members key).elim (.error (.jsonException 403)) .ok := by
  obtain ⟨entries, rfl, found⟩ := h
  rw [Json.at', found]
  cases members key <;> rfl

end HasMembers

end Hueplusplus.Json
