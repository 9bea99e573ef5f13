import Mathlib.Algebra.Order.Field.Power
import Mathlib.Algebra.Order.Floor.Ring
import Mathlib.Data.Int.Log
import Mathlib.Data.Rat.Floor
import Mathlib.Tactic.FieldSimp
import Mathlib.Tactic.Linarith

/-!
# Rounding to a binary floating-point format

A number is rounded to a multiple of a power of two, its last digit, which depends on its size
and on the precision of the format. Halfway cases go to the even multiple. Rounding is monotone
and keeps small integers, so bounds by such integers survive it; the error of one rounding is
relative to the number, except near zero.
-/

/-- Nearest integer, halfway cases to the even one. -/
def roundEven (q : ℚ) : ℤ :=
  if q - ⌊q⌋ < 1 / 2 then ⌊q⌋
  else if 1 / 2 < q - ⌊q⌋ then ⌊q⌋ + 1
  else if Even ⌊q⌋ then ⌊q⌋ else ⌊q⌋ + 1

theorem roundEven_cases (q : ℚ) :
    roundEven q = ⌊q⌋ ∧ q - ⌊q⌋ ≤ 1 / 2 ∨ roundEven q = ⌊q⌋ + 1 ∧ 1 / 2 ≤ q - ⌊q⌋ := by
  rw [roundEven]
  split_ifs with below above even
  · exact .inl ⟨rfl, below.le⟩
  · exact .inr ⟨rfl, above.le⟩
  · exact .inl ⟨rfl, not_lt.mp above⟩
  · exact .inr ⟨rfl, not_lt.mp below⟩

@[simp] theorem roundEven_intCast (n : ℤ) : roundEven n = n := by
  rw [roundEven, Int.floor_intCast, sub_self, if_pos (by norm_num)]

theorem abs_roundEven_sub_le (q : ℚ) : |(roundEven q : ℚ) - q| ≤ 1 / 2 := by
  have low := Int.floor_le q
  have high := Int.lt_floor_add_one q
  rcases roundEven_cases q with ⟨same, near⟩ | ⟨same, near⟩ <;> rw [same, abs_le] <;>
    push_cast <;> constructor <;> linarith

theorem roundEven_mono {p q : ℚ} (le : p ≤ q) : roundEven p ≤ roundEven q := by
  rcases (Int.floor_le_floor le).eq_or_lt with same | less
  · -- On one side of the half both are rounded alike, and the half is rounded one way.
    rw [roundEven, roundEven, same]
    split_ifs <;> first | omega | linarith
  · have first : roundEven p ≤ ⌊p⌋ + 1 := by
      rcases roundEven_cases p with ⟨same, -⟩ | ⟨same, -⟩ <;> omega
    have second : ⌊q⌋ ≤ roundEven q := by
      rcases roundEven_cases q with ⟨same, -⟩ | ⟨same, -⟩ <;> omega
    omega

@[simp] theorem roundEven_neg (q : ℚ) : roundEven (-q) = -roundEven q := by
  by_cases whole : ∃ n : ℤ, q = n
  · obtain ⟨n, rfl⟩ := whole
    rw [← Int.cast_neg, roundEven_intCast, roundEven_intCast]
  · have floor : ⌊-q⌋ = -⌊q⌋ - 1 := by
      have ceil : ⌈q⌉ = ⌊q⌋ + 1 := by
        refine Int.ceil_eq_iff.mpr ⟨?_, ?_⟩
        · push_cast
          rcases (Int.floor_le q).eq_or_lt with same | less
          · exact absurd ⟨⌊q⌋, same.symm⟩ whole
          · linarith
        · push_cast
          exact (Int.lt_floor_add_one q).le
      rw [Int.floor_neg, ceil]
      omega
    have parity : Even (-⌊q⌋ - 1) ↔ ¬ Even ⌊q⌋ := by
      rw [Int.even_sub_one, even_neg]
    rw [roundEven, roundEven, floor]
    push_cast
    split_ifs <;> first | omega | linarith | simp_all

/-- The exponent of the last digit is `least` at least, and from `2 ^ limit` on a number is
infinite. -/
structure BinaryFormat where
  precision : ℕ
  least : ℤ
  limit : ℤ
  precision_pos : 0 < precision
  least_nonpos : least ≤ 0

namespace BinaryFormat

/-- IEEE 754 single precision. -/
def single : BinaryFormat := ⟨24, -149, 128, by decide, by decide⟩

variable (f : BinaryFormat) {x y : ℚ}

/-- The exponent of the last digit of a number. -/
def exponent (x : ℚ) : ℤ := max (Int.log 2 |x| + 1 - f.precision) f.least

/-- The number to the precision of the format. -/
def round (x : ℚ) : ℚ := roundEven (x / 2 ^ f.exponent x) * 2 ^ f.exponent x

/-- The number in the format, unless it is infinite there. -/
def round? (x : ℚ) : Option ℚ := if |f.round x| < 2 ^ f.limit then some (f.round x) else none

@[simp] theorem round_neg (x : ℚ) : f.round (-x) = -f.round x := by
  rw [round, round, exponent, exponent, abs_neg, neg_div, roundEven_neg]
  push_cast
  rw [neg_mul]

theorem abs_lt_two_zpow (x : ℚ) : |x| < 2 ^ (f.exponent x + f.precision) := by
  have high := Int.lt_zpow_succ_log_self (b := 2) (by decide) |x|
  refine high.trans_le (zpow_le_zpow_right₀ (by norm_num) ?_)
  have := le_max_left (Int.log 2 |x| + 1 - f.precision) f.least
  rw [← exponent] at this
  omega

/-- A number with few digits is kept. -/
theorem round_of_digits {n e : ℤ} (few : |n| ≤ 2 ^ f.precision) (small : f.least ≤ e) :
    f.round (n * 2 ^ e) = n * 2 ^ e := by
  obtain ⟨m, same⟩ : ∃ m : ℤ, (n * 2 ^ e : ℚ) / 2 ^ f.exponent (n * 2 ^ e) = m := by
    by_cases zero : n = 0
    · exact ⟨0, by simp [zero]⟩
    have positive : (0 : ℚ) < |(n * 2 ^ e : ℚ)| := by
      rw [abs_pos]
      exact mul_ne_zero (by exact_mod_cast zero) (zpow_ne_zero _ two_ne_zero)
    have size : |(n * 2 ^ e : ℚ)| = (|n| : ℤ) * 2 ^ e := by
      rw [abs_mul, abs_of_pos (show (0 : ℚ) < 2 ^ e by positivity), Int.cast_abs]
    rcases few.eq_or_lt with full | less
    · -- a power of two, with the last digit one place higher
      have power : |(n * 2 ^ e : ℚ)| = ((2 : ℕ) : ℚ) ^ (f.precision + e : ℤ) := by
        rw [size, full]
        push_cast
        rw [zpow_add₀ two_ne_zero, zpow_natCast]
      have place : f.exponent (n * 2 ^ e) = e + 1 := by
        rw [exponent, power, Int.log_zpow (by decide)]
        omega
      refine ⟨n.sign * 2 ^ (f.precision - 1), ?_⟩
      have digits : (n : ℚ) = n.sign * 2 ^ (f.precision - 1) * 2 := by
        rw [mul_assoc, ← pow_succ, Nat.sub_add_cancel f.precision_pos]
        exact_mod_cast (full ▸ (Int.sign_mul_abs n).symm : n = n.sign * 2 ^ f.precision)
      rw [place, zpow_add_one₀ two_ne_zero, digits, mul_right_comm, mul_assoc _ (2 ^ e : ℚ),
        mul_div_cancel_right₀ _ (by positivity)]
      push_cast
      rfl
    · have place : f.exponent (n * 2 ^ e) ≤ e := by
        have log : Int.log 2 |(n * 2 ^ e : ℚ)| < f.precision + e := by
          refine (Int.lt_zpow_iff_log_lt (by decide) positive).mp ?_
          rw [size]
          push_cast
          rw [zpow_add₀ two_ne_zero, zpow_natCast]
          exact mul_lt_mul_of_pos_right (by exact_mod_cast less) (by positivity)
        rw [exponent]
        omega
      obtain ⟨k, gap⟩ := Int.eq_ofNat_of_zero_le (sub_nonneg.mpr place)
      refine ⟨n * 2 ^ k, ?_⟩
      rw [mul_div_assoc, ← zpow_sub₀ two_ne_zero, gap]
      push_cast
      rfl
  rw [round, same, roundEven_intCast, ← same, div_mul_cancel₀ _ (by positivity)]

theorem round_intCast {n : ℤ} (small : |n| ≤ 2 ^ f.precision) : f.round n = n := by
  have kept := f.round_of_digits small f.least_nonpos
  rwa [zpow_zero, mul_one] at kept

@[simp] theorem round_zero : f.round 0 = 0 := by
  have kept := f.round_intCast (n := 0) (by positivity)
  rwa [Int.cast_zero] at kept

theorem round_nonneg (nonneg : 0 ≤ x) : 0 ≤ f.round x := by
  have scaled : (0 : ℚ) ≤ x / 2 ^ f.exponent x := by positivity
  have rounded := roundEven_mono scaled
  rw [show roundEven 0 = 0 from roundEven_intCast 0] at rounded
  have cast : (0 : ℚ) ≤ roundEven (x / 2 ^ f.exponent x) := by exact_mod_cast rounded
  exact mul_nonneg cast (by positivity)

theorem exponent_mono (pos : 0 < x) (le : x ≤ y) : f.exponent x ≤ f.exponent y := by
  have log := Int.log_mono_right (b := 2) pos le
  rw [exponent, exponent, abs_of_pos pos, abs_of_pos (pos.trans_le le)]
  omega

theorem round_mono_of_pos (pos : 0 < x) (le : x ≤ y) : f.round x ≤ f.round y := by
  rcases (f.exponent_mono pos le).eq_or_lt with same | less
  · rw [round, round, same]
    have scaled : x / 2 ^ f.exponent y ≤ y / 2 ^ f.exponent y :=
      div_le_div_of_nonneg_right le (by positivity)
    exact mul_le_mul_of_nonneg_right (by exact_mod_cast roundEven_mono scaled) (by positivity)
  · -- A power of two lies between the numbers, and both are rounded towards it at most.
    have low : f.round x ≤ 2 ^ (f.exponent x + f.precision) := by
      have bound := f.abs_lt_two_zpow x
      rw [abs_of_pos pos, zpow_add₀ two_ne_zero, zpow_natCast] at bound
      have scaled : x / 2 ^ f.exponent x ≤ ((2 ^ f.precision : ℤ) : ℚ) := by
        rw [div_le_iff₀ (by positivity)]
        push_cast
        linarith
      have rounded := roundEven_mono scaled
      rw [roundEven_intCast] at rounded
      rw [round, zpow_add₀ two_ne_zero, zpow_natCast, mul_comm (2 ^ f.exponent x : ℚ)]
      exact mul_le_mul_of_nonneg_right (by exact_mod_cast rounded) (by positivity)
    have high : (2 : ℚ) ^ (f.exponent y + f.precision - 1) ≤ f.round y := by
      have pos' := pos.trans_le le
      have place : f.exponent y = Int.log 2 y + 1 - f.precision := by
        have above : f.least ≤ f.exponent x := le_max_right _ _
        have place : f.exponent y = max (Int.log 2 y + 1 - f.precision) f.least := by
          rw [exponent, abs_of_pos pos']
        omega
      have bound := Int.zpow_log_le_self (b := 2) (by decide) pos'
      have scaled : ((2 ^ (f.precision - 1) : ℤ) : ℚ) ≤ y / 2 ^ f.exponent y := by
        rw [le_div_iff₀ (by positivity)]
        push_cast at bound ⊢
        rw [← zpow_natCast, ← zpow_add₀ two_ne_zero, Nat.cast_sub f.precision_pos]
        convert bound using 2
        push_cast
        omega
      have rounded := roundEven_mono scaled
      rw [roundEven_intCast] at rounded
      have cast : (2 : ℚ) ^ (f.precision - 1) ≤ roundEven (y / 2 ^ f.exponent y) := by
        exact_mod_cast rounded
      have exponents : f.exponent y + f.precision - 1 =
          ((f.precision - 1 : ℕ) : ℤ) + f.exponent y := by
        have := f.precision_pos
        omega
      rw [round, exponents, zpow_add₀ two_ne_zero, zpow_natCast]
      exact mul_le_mul_of_nonneg_right cast (by positivity)
    exact low.trans ((zpow_le_zpow_right₀ (by norm_num) (by omega)).trans high)

theorem round_mono (le : x ≤ y) : f.round x ≤ f.round y := by
  rcases lt_or_ge 0 x with pos | nonpos
  · exact f.round_mono_of_pos pos le
  · rcases le_or_gt 0 y with nonneg | neg
    · have first := f.round_nonneg (neg_nonneg.mpr nonpos)
      rw [f.round_neg] at first
      have second := f.round_nonneg nonneg
      linarith
    · have flipped := f.round_mono_of_pos (neg_pos.mpr neg) (neg_le_neg le)
      rw [f.round_neg, f.round_neg] at flipped
      linarith

theorem round_le_intCast {n : ℤ} (small : |n| ≤ 2 ^ f.precision) (le : x ≤ n) :
    f.round x ≤ n := (f.round_mono le).trans_eq (f.round_intCast small)

theorem intCast_le_round {n : ℤ} (small : |n| ≤ 2 ^ f.precision) (le : (n : ℚ) ≤ x) :
    (n : ℚ) ≤ f.round x := (f.round_intCast small).symm.trans_le (f.round_mono le)

/-- The error of one rounding. -/
theorem abs_round_sub_le (x : ℚ) :
    |f.round x - x| ≤ |x| / 2 ^ f.precision + 2 ^ f.least / 2 := by
  have half : |f.round x - x| ≤ 2 ^ f.exponent x / 2 := by
    have unit : (0 : ℚ) < 2 ^ f.exponent x := by positivity
    have scaled := abs_roundEven_sub_le (x / 2 ^ f.exponent x)
    have factored : f.round x - x =
        (roundEven (x / 2 ^ f.exponent x) - x / 2 ^ f.exponent x) * 2 ^ f.exponent x := by
      rw [sub_mul, div_mul_cancel₀ _ unit.ne', round]
    rw [factored, abs_mul, abs_of_pos unit]
    linarith [mul_le_mul_of_nonneg_right scaled unit.le]
  by_cases zero : x = 0
  · rw [zero, round_zero]
    simp only [sub_self, abs_zero, zero_div, zero_add]
    positivity
  have small : (0 : ℚ) < 2 ^ f.least := by positivity
  have share : (0 : ℚ) ≤ |x| / 2 ^ f.precision := by positivity
  rcases max_choice (Int.log 2 |x| + 1 - f.precision) f.least with normal | subnormal
  · have bound := Int.zpow_log_le_self (b := 2) (by decide) (abs_pos.mpr zero)
    have unit : (2 : ℚ) ^ f.exponent x / 2 ≤ |x| / 2 ^ f.precision := by
      rw [exponent, normal, zpow_sub₀ two_ne_zero, zpow_add_one₀ two_ne_zero, zpow_natCast,
        div_right_comm, mul_div_cancel_right₀ _ two_ne_zero]
      exact div_le_div_of_nonneg_right (by exact_mod_cast bound) (by positivity)
    linarith
  · rw [exponent, subnormal] at half
    linarith

theorem round?_eq_some : f.round? x = some y ↔ |y| < 2 ^ f.limit ∧ f.round x = y := by
  rw [round?]
  split_ifs with finite
  · rw [Option.some.injEq]
    exact ⟨fun same => ⟨same ▸ finite, same⟩, And.right⟩
  · simp only [false_iff]
    rintro ⟨finite', rfl⟩
    exact finite finite'

end BinaryFormat
