import Hueplusplus.Foundation.Text
import Mathlib.Algebra.Group.Nat.Even

/-!
# Hexadecimal numbers

A byte is written as two hexadecimal digits, whose letters can have either case. `strtol` reads
a number from the start of a text, and from two digits the byte that they were written for.
-/

namespace Hueplusplus

open Text

namespace Hex

def alphabet : Text := "0123456789abcdef".toList

/-- The value of a digit, in either letter case. -/
def value? (c : Char) : Option ℕ := alphabet.idxOf? c.toLower

/-- The digit with a value below 16. -/
def digit (n : ℕ) : Char := alphabet.getD n '0'

/-- Two digits for each byte. -/
def encode (bytes : List UInt8) : Text :=
  bytes.flatMap fun byte => [digit (byte.toNat / 16), digit (byte.toNat % 16)]

/-- A text with two digits for each byte, each of them in either letter case. -/
inductive Encodes : List UInt8 → Text → Prop
  | nil : Encodes [] []
  | cons {byte : UInt8} {bytes : List UInt8} {high low : Char} {hex : Text}
      (first : value? high = some (byte.toNat / 16))
      (second : value? low = some (byte.toNat % 16))
      (rest : Encodes bytes hex) : Encodes (byte :: bytes) (high :: low :: hex)

/-- The number that digits stand for. -/
def ofDigits (digits : Text) : ℕ :=
  digits.foldl (fun n c => 16 * n + (value? c).getD 0) 0

/-- What follows a prefix that marks hexadecimal numbers. -/
def dropMark : Text → Text
  | '0' :: 'x' :: s => s
  | '0' :: 'X' :: s => s
  | s => s

/-- The nearest value of type `long`. -/
def toLong (n : ℤ) : ℤ := max (-2 ^ 63) (min n (2 ^ 63 - 1))

/-- `strtol(s, NULL, 16)`: the number at the start of the text, after white space, a sign and a
mark. It is zero without digits. -/
def strtol (s : Text) : ℤ :=
  let (negative, number) := sign (s.dropWhile isSpace)
  let magnitude : ℤ := ofDigits ((dropMark number).takeWhile fun c => (value? c).isSome)
  toLong (if negative then -magnitude else magnitude)

section Digits

variable {c : Char} {n : ℕ}

theorem value?_digit : ∀ n < 16, value? (digit n) = some n := by decide

theorem toLower_digit : ∀ n < 16, (digit n).toLower = digit n := by decide

theorem digit_mem : ∀ n < 16, digit n ∈ alphabet := by decide

/-- A digit has a value, and is the digit for it up to its case. -/
theorem value?_eq_some_iff : value? c = some n ↔ n < 16 ∧ c.toLower = digit n := by
  constructor
  · intro value
    obtain ⟨inside, same, _⟩ := List.idxOf?_eq_some_iff.mp value
    refine ⟨inside, ?_⟩
    rw [digit, List.getD_eq_getElem?_getD, List.getElem?_eq_getElem inside, Option.getD_some,
      same]
  · rintro ⟨small, same⟩
    have lower := value?_digit n small
    rw [value?, toLower_digit n small] at lower
    rw [value?, same, lower]

theorem toLower_mem (h : value? c = some n) : c.toLower ∈ alphabet := by
  obtain ⟨small, same⟩ := value?_eq_some_iff.mp h
  exact same ▸ digit_mem n small

/-- No digit is a character that is another one in the lower case. -/
theorem ne_of_value? {other : Char} (absent : other.toLower ∉ alphabet) (h : value? c = some n) :
    c ≠ other := by
  rintro rfl
  exact absent (toLower_mem h)

theorem not_isUpper_of_isSpace (h : isSpace c = true) : c.isUpper = false := by
  rw [← Bool.not_eq_true, isUpper_iff]
  simp only [isSpace, Bool.or_eq_true, Bool.and_eq_true, decide_eq_true_eq] at h
  have code : c.toNat = c.val.toNat := rfl
  rcases h with rfl | range
  · decide
  · omega

theorem not_isSpace (h : value? c = some n) : isSpace c = false := by
  have none : alphabet.any isSpace = false := by decide
  by_contra space
  rw [Bool.not_eq_false] at space
  have member := toLower_mem h
  rw [toLower_of_not_isUpper (not_isUpper_of_isSpace space)] at member
  exact absurd space (List.any_eq_false.mp none c member)

end Digits

/-- A number that starts with a digit has no white space and no sign before it. -/
theorem sign_dropWhile {c : Char} {n : ℕ} (h : value? c = some n) (s : Text) :
    sign ((c :: s).dropWhile isSpace) = (false, c :: s) := by
  rw [List.dropWhile_cons_of_neg (by simp [not_isSpace h])]
  have minus : c ≠ '-' := ne_of_value? (by decide) h
  have plus : c ≠ '+' := ne_of_value? (by decide) h
  unfold sign
  split
  · rename_i same
    exact absurd (List.cons.inj same).1 minus
  · rename_i same
    exact absurd (List.cons.inj same).1 plus
  · rfl

theorem strtol_pair {high low : Char} {a b : ℕ} (first : value? high = some a)
    (second : value? low = some b) : strtol [high, low] = (16 * a + b : ℕ) := by
  have small := (value?_eq_some_iff.mp first).1
  have small' := (value?_eq_some_iff.mp second).1
  have unmarked : dropMark [high, low] = [high, low] := by
    have lower : low ≠ 'x' := ne_of_value? (by decide) second
    have upper : low ≠ 'X' := ne_of_value? (by decide) second
    unfold dropMark
    split
    · rename_i same
      simp_all
    · rename_i same
      simp_all
    · rfl
  have digits : [high, low].takeWhile (fun c => (value? c).isSome) = [high, low] := by
    simp [first, second]
  have number : ofDigits [high, low] = 16 * a + b := by
    simp [ofDigits, first, second]
  rw [strtol, sign_dropWhile first]
  simp only [unmarked, digits, number, toLong, Bool.false_eq_true, if_false]
  omega

/-- There is no NUL among digits, so two of them are read as a C string too. -/
theorem cStr_pair {high low : Char} {a b : ℕ} (first : value? high = some a)
    (second : value? low = some b) : cStr [high, low] = [high, low] := by
  have notHigh : high ≠ nul := ne_of_value? (by decide) first
  have notLow : low ≠ nul := ne_of_value? (by decide) second
  refine cStr_of_notMem fun member => ?_
  rcases List.mem_pair.mp member with rfl | rfl
  · exact notHigh rfl
  · exact notLow rfl

@[simp] theorem length_encode (bytes : List UInt8) : (encode bytes).length = 2 * bytes.length := by
  induction bytes with
  | nil => rfl
  | cons byte bytes ih =>
      rw [encode, List.flatMap_cons, List.length_append, ← encode, ih, List.length_cons,
        List.length_cons, List.length_cons, List.length_nil]
      omega

theorem encodes_encode (bytes : List UInt8) : Encodes bytes (encode bytes) := by
  induction bytes with
  | nil => exact .nil
  | cons byte bytes ih =>
      have bound := byte.toNat_lt
      exact .cons (value?_digit _ (by omega)) (value?_digit _ (by omega)) ih

/-- Up to letter case a byte string is written in one way only. -/
theorem Encodes.toLower {bytes : List UInt8} {hex : Text} (h : Encodes bytes hex) :
    hex.map Char.toLower = encode bytes := by
  induction h with
  | nil => rfl
  | cons first second _ ih =>
      rw [List.map_cons, List.map_cons, ih, (value?_eq_some_iff.mp first).2,
        (value?_eq_some_iff.mp second).2]
      rfl

@[simp] theorem toLower_encode (bytes : List UInt8) :
    (encode bytes).map Char.toLower = encode bytes :=
  (encodes_encode bytes).toLower

/-- Every text of an even number of digits is written for some bytes. -/
theorem exists_encodes : ∀ hex : Text, Even hex.length → (∀ c ∈ hex, (value? c).isSome) →
    ∃ bytes, Encodes bytes hex
  | [], _, _ => ⟨[], .nil⟩
  | [c], even, _ => absurd even (Nat.not_even_one)
  | high :: low :: hex, even, digits => by
      obtain ⟨isHigh, isLow, later⟩ :
          (value? high).isSome ∧ (value? low).isSome ∧ ∀ c ∈ hex, (value? c).isSome := by
        simpa only [List.forall_mem_cons] using digits
      obtain ⟨a, first⟩ := Option.isSome_iff_exists.mp isHigh
      obtain ⟨b, second⟩ := Option.isSome_iff_exists.mp isLow
      have small := (value?_eq_some_iff.mp first).1
      have small' := (value?_eq_some_iff.mp second).1
      have shorter : Even hex.length := by
        rwa [List.length_cons, List.length_cons, Nat.even_add_one, Nat.even_add_one, not_not]
          at even
      obtain ⟨bytes, rest⟩ := exists_encodes hex shorter later
      have byte : (UInt8.ofNat (16 * a + b)).toNat = 16 * a + b :=
        UInt8.toNat_ofNat_of_lt (Nat.lt_of_lt_of_eq (by omega : 16 * a + b < 256) rfl)
      refine ⟨UInt8.ofNat (16 * a + b) :: bytes, .cons ?_ ?_ rest⟩
      · rw [byte, first]
        congr 1
        omega
      · rw [byte, second]
        congr 1
        omega

end Hex

end Hueplusplus
