import Hueplusplus.Foundation.Except
import Hueplusplus.Foundation.OrderedMap
import Hueplusplus.Foundation.Text
import Mathlib.Data.Rat.Floor
import Mathlib.Data.String.Basic

/-!
# JSON values and the exceptions of the library

`Json` stands for `nlohmann::json`. Integers and floats are one constructor,
since the library compares them by value; the arithmetic on floats is exact.
The members of an object are listed in key order, the order in which
`std::map` iterates them. Accessors that throw on a value of another type return
the exception, under its number in the JSON library.
-/

namespace Hueplusplus

inductive Json where
  | null
  | bool (b : Bool)
  | num (q : ℚ)
  | str (s : String)
  | arr (elems : List Json)
  | obj (members : List (String × Json))

/-- Codes of `std::system_error` that `RunWithTimeout` tells apart. -/
inductive ErrorCode where
  | connectionReset
  | timedOut
  | other (value : ℤ)
deriving DecidableEq

/-- What a call of the library can throw. `undefinedBehaviour` marks accesses the
C++ standard gives no meaning to; no theorem relies on what they do. -/
inductive Exception where
  | hueException (message : String)
  | hueAPIResponseException (response : Json)
  | systemError (code : ErrorCode)
  | jsonException (id : ℕ)
  | invalidArgument (what : String)
  | outOfRange (what : String)
  | undefinedBehaviour

instance : LogicErrors Exception where
  invalidArgument := .invalidArgument
  outOfRange := .outOfRange

namespace Json

mutual

/-- Structural equality; on the canonical objects this is `operator==`. -/
def decEq : (a b : Json) → Decidable (a = b)
  | .null, .null => isTrue rfl
  | .bool a, .bool b => decidable_of_iff (a = b) (by simp)
  | .num a, .num b => decidable_of_iff (a = b) (by simp)
  | .str a, .str b => decidable_of_iff (a = b) (by simp)
  | .arr a, .arr b => @decidable_of_iff _ (a = b) (by simp) (decEqElems a b)
  | .obj a, .obj b => @decidable_of_iff _ (a = b) (by simp) (decEqMembers a b)
  | .null, .bool _ | .null, .num _ | .null, .str _ | .null, .arr _ | .null, .obj _
  | .bool _, .null | .bool _, .num _ | .bool _, .str _ | .bool _, .arr _ | .bool _, .obj _
  | .num _, .null | .num _, .bool _ | .num _, .str _ | .num _, .arr _ | .num _, .obj _
  | .str _, .null | .str _, .bool _ | .str _, .num _ | .str _, .arr _ | .str _, .obj _
  | .arr _, .null | .arr _, .bool _ | .arr _, .num _ | .arr _, .str _ | .arr _, .obj _
  | .obj _, .null | .obj _, .bool _ | .obj _, .num _ | .obj _, .str _ | .obj _, .arr _ =>
    isFalse nofun

def decEqElems : (a b : List Json) → Decidable (a = b)
  | [], [] => isTrue rfl
  | [], _ :: _ | _ :: _, [] => isFalse nofun
  | x :: xs, y :: ys =>
    @decidable_of_iff _ (x = y ∧ xs = ys) (by simp)
      (@instDecidableAnd _ _ (decEq x y) (decEqElems xs ys))

def decEqMembers : (a b : List (String × Json)) → Decidable (a = b)
  | [], [] => isTrue rfl
  | [], _ :: _ | _ :: _, [] => isFalse nofun
  | (k, x) :: xs, (l, y) :: ys =>
    @decidable_of_iff _ (k = l ∧ x = y ∧ xs = ys) (by simp [and_assoc])
      (@instDecidableAnd _ _ inferInstance
        (@instDecidableAnd _ _ (decEq x y) (decEqMembers xs ys)))

end

instance : DecidableEq Json := decEq

deriving instance DecidableEq for Exception

def isArray : Json → Bool
  | .arr _ => true
  | _ => false

def isString : Json → Bool
  | .str _ => true
  | _ => false

theorem isString_iff {json : Json} : json.isString = true ↔ ∃ text, json = .str text := by
  cases json with
  | str text => exact iff_of_true rfl ⟨text, rfl⟩
  | _ => exact iff_of_false nofun nofun

/-- `find` by key: `end()` unless the value is an object with that member. -/
def find? : Json → String → Option Json
  | .obj members, key => AssocList.find? members key
  | _, _ => none

/-- `count` by key, as the truth value every caller uses it as. -/
def count (j : Json) (key : String) : Bool := (j.find? key).isSome

/-- `at` by key. -/
def at' : Json → String → Except Exception Json
  | .obj members, key =>
    match AssocList.find? members key with
    | some value => .ok value
    | none => .error (.jsonException 403)
  | _, _ => .error (.jsonException 304)

/-- Assignment through `operator[]` by key: null becomes an object first. -/
def setMember : Json → String → Json → Except Exception Json
  | .null, key, value => .ok (.obj [(key, value)])
  | .obj members, key, value => .ok (.obj (AssocList.insert key value members))
  | _, _, _ => .error (.jsonException 305)

/-- `size()`. -/
def size : Json → ℕ
  | .null => 0
  | .arr elems => elems.length
  | .obj members => members.length
  | _ => 1

/-- Constant `operator[]` by index. -/
def elem : Json → ℕ → Except Exception Json
  | .arr elems, i =>
    match elems[i]? with
    | some value => .ok value
    | none => .error .undefinedBehaviour
  | _, _ => .error (.jsonException 305)

/-- Mutable `operator[]` by index, read only: missing elements are filled with null,
and null becomes an array first. -/
def elemOrNull : Json → ℕ → Except Exception Json
  | .arr elems, i => .ok (elems[i]?.getD .null)
  | .null, _ => .ok .null
  | _, _ => .error (.jsonException 305)

def getBool : Json → Except Exception Bool
  | .bool b => .ok b
  | _ => .error (.jsonException 302)

/-- `get<float>`. -/
def getFloat : Json → Except Exception ℚ
  | .num q => .ok q
  | _ => .error (.jsonException 302)

/-- `get` of an integer type: floats lose their fraction. -/
def getInt : Json → Except Exception ℤ
  | .num q => .ok (q.num.tdiv q.den)
  | _ => .error (.jsonException 302)

def getString : Json → Except Exception String
  | .str s => .ok s
  | _ => .error (.jsonException 302)

/-- The values an iteration visits, with their keys. Only object iterators have a
key; a value that is neither object nor array is visited itself, null not at all. -/
def items : Json → List (Option String × Json)
  | .null => []
  | .arr elems => elems.map fun value => (none, value)
  | .obj members => members.map fun member => (some member.1, member.2)
  | value => [(none, value)]

/-- The values that a range-based `for` visits. -/
def elements (json : Json) : List Json := json.items.map Prod.snd

theorem elements_arr (elems : List Json) : (arr elems).elements = elems := by
  simp only [elements, items, List.map_map]
  exact List.map_id _

theorem at'_of_find? {json value : Json} {key : String} (found : json.find? key = some value) :
    json.at' key = .ok value := by
  cases json with
  | obj members =>
      have inside : AssocList.find? members key = some value := found
      simp only [at', inside]
  | _ => exact nomatch found

/-- `value(key, default)` for a text. -/
def valueString (json : Json) (key default : String) : Except Exception String :=
  match json with
  | .obj members => (AssocList.find? members key).elim (.ok default) getString
  | _ => .error (.jsonException 306)

@[simp] theorem getInt_int (n : ℤ) : getInt (.num n) = .ok n := by
  simp [getInt]

end Json

/-- A JSON object on its own: members in key order, each key once. -/
abbrev Object := OrderedMap String Json

namespace Object

def toJson (o : Object) : Json := .obj o.entries

/-- `value(key, default)` with the conversion the default's type selects. -/
def value {α : Type} (o : Object) (key : String) (default : α)
    (get : Json → Except Exception α) : Except Exception α :=
  match o.find? key with
  | some found => get found
  | none => .ok default

theorem value_of_some {α : Type} {o : Object} {key : String} {found : Json}
    (h : o.find? key = some found) (default : α) (get : Json → Except Exception α) :
    o.value key default get = get found := by
  simp [value, h]

theorem value_of_none {α : Type} {o : Object} {key : String}
    (h : o.find? key = none) (default : α) (get : Json → Except Exception α) :
    o.value key default get = .ok default := by
  simp [value, h]

end Object

end Hueplusplus
