import Mathlib.Data.Finset.BooleanAlgebra
import Mathlib.Data.Fintype.Basic
import Mathlib.Data.Nat.Bitwise

/-!
# Sets as bit masks

A number below `2 ^ width` is a set of the positions below `width`, those of its bits that are
set. The operations on the bits are those on the sets, and different sets have different masks.
-/

namespace BitMask

variable {width : ℕ} {a b : ℕ} {s t : Finset (Fin width)}

/-- The bits that are set are the members of the set. -/
structure Encodes (mask : ℕ) (set : Finset (Fin width)) : Prop where
  lt : mask < 2 ^ width
  testBit : ∀ i : Fin width, mask.testBit i = decide (i ∈ set)

theorem encodes_empty : Encodes 0 (∅ : Finset (Fin width)) where
  lt := Nat.two_pow_pos width
  testBit i := by simp

theorem encodes_univ : Encodes (2 ^ width - 1) (Finset.univ : Finset (Fin width)) where
  lt := Nat.sub_one_lt (Nat.two_pow_pos width).ne'
  testBit i := by simp

theorem encodes_singleton (i : Fin width) : Encodes (1 <<< (i : ℕ)) {i} where
  lt := by
    rw [Nat.one_shiftLeft]
    exact Nat.pow_lt_pow_right (by decide) i.isLt
  testBit j := by
    rw [Nat.one_shiftLeft, Nat.testBit_two_pow]
    simp [Fin.ext_iff, eq_comm]

theorem Encodes.union (first : Encodes a s) (second : Encodes b t) :
    Encodes (a ||| b) (s ∪ t) where
  lt := Nat.or_lt_two_pow first.lt second.lt
  testBit i := by simp [first.testBit, second.testBit]

/-- The bit at a position tells whether it is a member. -/
theorem Encodes.and_ne_zero_iff (encodes : Encodes a s) (i : Fin width) :
    a &&& 2 ^ (i : ℕ) ≠ 0 ↔ i ∈ s := by
  rw [Nat.and_comm, Nat.two_pow_and, encodes.testBit]
  by_cases member : i ∈ s <;> simp [member]

theorem Encodes.eq_iff (first : Encodes a s) (second : Encodes b t) : a = b ↔ s = t := by
  constructor
  · rintro rfl
    ext i
    have same := (first.testBit i).symm.trans (second.testBit i)
    simpa using same
  · rintro rfl
    refine Nat.eq_of_testBit_eq fun i => ?_
    by_cases inside : i < width
    · exact (first.testBit ⟨i, inside⟩).trans (second.testBit ⟨i, inside⟩).symm
    · have large : 2 ^ width ≤ 2 ^ i := Nat.pow_le_pow_right (by decide) (not_lt.mp inside)
      rw [Nat.testBit_lt_two_pow (first.lt.trans_le large),
        Nat.testBit_lt_two_pow (second.lt.trans_le large)]

end BitMask
