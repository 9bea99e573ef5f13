import Hueplusplus.Foundation.BinaryFormat
import Hueplusplus.HueCommandAPI

/-!
# Reply validation and float comparison

`validatePUTReply` accepts a list of success entries that confirm what was
requested. Its loops keep one flag: it is overwritten by every entry and by every
member of an entry, and only a false flag at the end of an entry stops the loop.
-/

namespace Hueplusplus.Utils

open BinaryFormat

/-- `1E-4f` -/
def tolerance : ℚ := single.round (1 / 10000)

/-- Equality of two numbers to 4 decimal places, in single precision. If one of them is infinite
there, the difference is infinite or not a number. -/
def floatEquals (lhs rhs : ℚ) : Bool :=
  (single.round? lhs).any fun lhs =>
    (single.round? rhs).any fun rhs => decide (|single.round (lhs - rhs)| ≤ tolerance)

theorem floatEquals_iff {x y : ℚ} :
    floatEquals x y = true ↔ |single.round x| < 2 ^ single.limit ∧
      |single.round y| < 2 ^ single.limit ∧
      |single.round (single.round x - single.round y)| ≤ tolerance := by
  simp only [floatEquals, Option.any_eq_true, round?_eq_some, decide_eq_true_eq]
  constructor
  · rintro ⟨_, ⟨finite, rfl⟩, _, ⟨finite', rfl⟩, near⟩
    exact ⟨finite, finite', near⟩
  · rintro ⟨finite, finite', near⟩
    exact ⟨_, ⟨finite, rfl⟩, _, ⟨finite', rfl⟩, near⟩

theorem floatEquals_comm (x y : ℚ) : floatEquals x y = floatEquals y x := by
  rw [Bool.eq_iff_iff, floatEquals_iff, floatEquals_iff, ← neg_sub, round_neg, abs_neg]
  exact and_left_comm

/-- In the unit square every coordinate equals itself. -/
theorem floatEquals_self {x : ℚ} (low : 0 ≤ x) (high : x ≤ 1) : floatEquals x x = true := by
  have nonneg := single.round_nonneg low
  have le := single.round_mono high
  rw [show (1 : ℚ) = (1 : ℤ) from rfl, single.round_intCast (by decide)] at le
  have finite : |single.round x| < 2 ^ single.limit := by
    rw [abs_of_nonneg nonneg]
    exact le.trans_lt (one_lt_zpow₀ (by norm_num) (by decide))
  rw [floatEquals_iff, sub_self, round_zero, abs_zero]
  exact ⟨finite, finite, single.round_nonneg (by norm_num)⟩

/-- What three roundings add to the tolerance. -/
theorem abs_sub_le_of_floatEquals {x y : ℚ} (equal : floatEquals x y = true) (low : 0 ≤ y)
    (high : y ≤ 1) : |x - y| ≤ 501 / 5000000 := by
  have bound := (floatEquals_iff.mp equal).2.2
  have small : tolerance = 13743895 / 137438953472 := by decide +kernel
  have error : ∀ q, |single.round q - q| ≤ |q| / 16777216 + 1 / 2 ^ 100 := by
    intro q
    have unit : (2 : ℚ) ^ single.least / 2 ≤ 1 / 2 ^ 100 := by
      rw [show single.least = -149 from rfl]
      norm_num
    refine (single.abs_round_sub_le q).trans ?_
    rw [show single.precision = 24 from rfl]
    norm_num at unit ⊢
    exact unit
  have difference := abs_sub_abs_le_abs_sub (single.round x - single.round y)
    (single.round (single.round x - single.round y))
  rw [abs_sub_comm (single.round x - single.round y)] at difference
  have apart : |x - y| ≤ |single.round x - single.round y| + |single.round x - x| +
      |single.round y - y| := by
    have parts : x - y = single.round x - single.round y - (single.round x - x) +
        (single.round y - y) := by ring
    have first := abs_add_le (single.round x - single.round y - (single.round x - x))
      (single.round y - y)
    have second := abs_sub (single.round x - single.round y) (single.round x - x)
    rw [← parts] at first
    linarith
  have size := abs_sub_abs_le_abs_sub x y
  have same := abs_of_nonneg low
  have errors := And.intro (error x) (And.intro (error y)
    (error (single.round x - single.round y)))
  rw [small] at bound
  norm_num at errors
  linarith

/-- Both coordinates of two pairs, given by their element access, are equal to 4
decimal places. The second pair of elements is read only if the first is equal. -/
def pairEquals (lhs rhs : ℕ → Except Exception Json) : Except Exception Bool := do
  if floatEquals (← (← lhs 0).getFloat) (← (← rhs 0).getFloat) then
    return floatEquals (← (← lhs 1).getFloat) (← (← rhs 1).getFloat)
  else
    return false

/-- `path` with a slash at its end. -/
def pathAppend (path : String) : Except Exception String :=
  match path.toList.getLast? with
  | none => .error .undefinedBehaviour
  | some '/' => .ok path
  | some _ => .ok (path ++ "/")

/-- What follows `start` in `s`, when `s` begins with it. -/
def dropStart? (start s : String) : Option String :=
  if start.toList.isPrefixOf s.toList then
    some (String.ofList (s.toList.drop start.toList.length))
  else none

/-- The flag after one member of a success object. -/
def validateMember (pathAppend : String) (request : Json) (key : Option String) (value : Json) :
    Except Exception Bool :=
  match key with
  | none => .error (.jsonException 207)
  | some successPath =>
    match dropStart? pathAppend successPath with
    | none => .ok false
    | some valueKey =>
      match request.find? valueKey with
      | none => .ok false
      | some requested =>
        if valueKey = "xy" then pairEquals requested.elem value.elemOrNull
        else .ok (requested = value || value = .str "Updated.")

/-- The flag after one entry of the reply. -/
def validateEntry (pathAppend : String) (request entry : Json) : Except Exception Bool :=
  match entry.find? "success" with
  | none => .ok false
  | some successObject =>
    successObject.items.foldlM
      (fun _ item => validateMember pathAppend request item.1 item.2) true

def validateEntries (pathAppend : String) (request : Json) :
    Bool → List Json → Except Exception Bool
  | success, [] => .ok success
  | _, entry :: rest => do
    if ← validateEntry pathAppend request entry then
      validateEntries pathAppend request true rest
    else
      return false

def validatePUTReply (path : String) (request reply : Json) : Except Exception Bool := do
  validateEntries (← pathAppend path) request false (reply.items.map Prod.snd)

/-- The member under a position and then the keys, or null if there is none. -/
def safeGetMember (json : Json) (index : ℕ) (keys : List String) : Json :=
  let elem := match json with
    | .arr elems => elems[index]?.getD .null
    | _ => .null
  keys.foldl (fun value key => (value.find? key).getD .null) elem

/-- The reply that confirms every attribute of a request. -/
def acknowledgement (path : String) (request : Json) : Json :=
  .arr (request.items.map fun item =>
    .obj [("success", .obj [(path ++ "/" ++ item.1.getD "", item.2)])])

/-- Commands to a bridge that confirms every PUT and has nothing else to say. -/
def acknowledgingCommands : HueCommandAPI where
  ip := "192.168.2.1"
  port := 80
  username := "username"
  httpHandler :=
    { getJson := fun _ _ _ _ _ => .ok .null
      putJson := fun _ uri request _ _ =>
        .ok (acknowledgement (String.ofList (uri.toList.drop "/api/username".length)) request)
      postJson := fun _ _ _ _ _ => .ok .null
      deleteJson := fun _ _ _ _ _ => .ok .null }

end Hueplusplus.Utils
