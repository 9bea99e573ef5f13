import Mathlib.Data.List.Basic
import Mathlib.Algebra.Order.Group.Nat

/-!
# Buffers of fixed-size records

A buffer is written one element at a time, and a write outside it is no result at all. A
buffer laid out as a header and records of one size is updated record by record: a write
into a record leaves everything around it alone.
-/

namespace Buffer

variable {α β : Type*}

/-- The buffer after a write, if the place is inside it. -/
def write? (buffer : List α) (i : ℕ) (a : α) : Option (List α) :=
  if i < buffer.length then some (buffer.set i a) else none

/-- The buffer after writes to consecutive places, if all of them are inside it. -/
def writes? (buffer : List α) (i : ℕ) : List α → Option (List α)
  | [] => some buffer
  | a :: rest => (write? buffer i a).bind fun buffer => writes? buffer (i + 1) rest

@[simp] theorem write?_append (before after : List α) (old a : α) :
    write? (before ++ old :: after) before.length a = some (before ++ a :: after) := by
  have inside : before.length < (before ++ old :: after).length := by
    simp
  rw [write?, if_pos inside, List.set_append_right _ _ le_rfl, Nat.sub_self, List.set_cons_zero]

/-- Writes that cover a part of the buffer replace it and change nothing else. -/
theorem writes?_append {before part after : List α} {i : ℕ} {new : List α}
    (place : i = before.length) (covered : part.length = new.length) :
    writes? (before ++ (part ++ after)) i new = some (before ++ (new ++ after)) := by
  subst place
  induction new generalizing before part with
  | nil =>
      rw [List.eq_nil_of_length_eq_zero covered]
      rfl
  | cons a new ih =>
      cases part with
      | nil => exact absurd covered (by simp)
      | cons old part =>
          have shift : ∀ c (l : List α), before ++ c :: l = before ++ [c] ++ l := by simp
          have next : writes? (before ++ [a] ++ (part ++ after)) (before.length + 1) new =
              some (before ++ [a] ++ (new ++ after)) := by
            have length : (before ++ [a]).length = before.length + 1 := List.length_append
            rw [← length]
            exact ih (Nat.succ.inj covered)
          rw [writes?, List.cons_append, write?_append, Option.bind_some, shift, next, ← shift]
          rfl

section Records

variable {encode : β → List α} {size : ℕ} (fixed : ∀ record, (encode record).length = size)

include fixed

@[simp] theorem length_records (records : List β) :
    (records.flatMap encode).length = size * records.length := by
  induction records with
  | nil => rfl
  | cons record records ih =>
      rw [List.flatMap_cons, List.length_append, fixed, ih, List.length_cons]
      exact (Nat.mul_succ size records.length ▸ Nat.add_comm _ _)

/-- The elements of one record are where its position says. -/
theorem read_record (header : List α) (records : List β) (i : ℕ) (h : i < records.length) :
    ((header ++ records.flatMap encode).drop (header.length + size * i)).take size =
      encode records[i] := by
  rw [List.drop_append, List.drop_of_length_le (Nat.le_add_right _ _), List.nil_append,
    Nat.add_sub_cancel_left]
  induction records generalizing i with
  | nil => exact absurd h (Nat.not_lt_zero i)
  | cons record records ih =>
      cases i with
      | zero =>
          rw [Nat.mul_zero, List.drop_zero, List.flatMap_cons,
            List.take_append_of_le_length (fixed record).ge,
            List.take_of_length_le (fixed record).le]
          rfl
      | succ i =>
          have later : size * (i + 1) = (encode record).length + size * i := by
            rw [fixed, Nat.mul_succ, Nat.add_comm]
          rw [List.flatMap_cons, later, List.drop_append, Nat.add_sub_cancel_left,
            List.drop_of_length_le (Nat.le_add_right _ _), List.nil_append]
          exact ih i (Nat.lt_of_succ_lt_succ h)

/-- A buffer around one of its records: what comes before has the record's position as its
length, and another record can take its place. -/
theorem split_record (header : List α) (records : List β) (i : ℕ) (h : i < records.length) :
    ∃ before after, before.length = header.length + size * i ∧
      header ++ records.flatMap encode = before ++ (encode records[i] ++ after) ∧
      ∀ record, header ++ (records.set i record).flatMap encode =
        before ++ (encode record ++ after) := by
  refine ⟨header ++ (records.take i).flatMap encode, (records.drop (i + 1)).flatMap encode,
    ?_, ?_, fun record => ?_⟩
  · rw [List.length_append, length_records fixed, List.length_take, Nat.min_eq_left h.le]
  · conv_lhs => rw [← List.take_append_drop i records, List.drop_eq_getElem_cons h]
    simp only [List.flatMap_append, List.flatMap_cons, List.append_assoc]
  · rw [List.set_eq_take_append_cons_drop, if_pos h]
    simp only [List.flatMap_append, List.flatMap_cons, List.append_assoc]

end Records

end Buffer
