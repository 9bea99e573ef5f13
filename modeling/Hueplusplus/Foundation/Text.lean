import Mathlib.Algebra.Order.Ring.Nat
import Mathlib.Data.List.Forall2
import Mathlib.Data.List.TakeWhile
import Mathlib.Tactic.Ring
import Mathlib.Tactic.Zify
import Hueplusplus.Foundation.Except

/-!
# Strings of the C++ standard library

A text is the list of its characters. Positions are natural numbers below `2 ^ 64`, and
their sums and differences wrap, since a search that fails gives the largest of them.
The functions that throw leave the type of exceptions open.

Numbers are read by `stoi` and written by `toDigits` of the core library; a padded number
is read back as it was written.
-/

namespace Hueplusplus

abbrev Text := List Char

def crlf : Text := ['\r', '\n']

def nul : Char := Char.ofNat 0

/-- The string that is made of `s.c_str()`. -/
def Text.cStr (s : Text) : Text := s.takeWhile (· ≠ nul)

/-- Exceptions of the standard library, by their explanatory strings. -/
class LogicErrors (ε : Type) where
  invalidArgument : String → ε
  outOfRange : String → ε

namespace Text

/-- `std::string::npos`. -/
def npos : ℕ := 2 ^ 64 - 1

/-- The sum of two values of type `size_t`. -/
def sizeAdd (a b : ℕ) : ℕ := (a + b) % 2 ^ 64

/-- The difference of two values of type `size_t`. -/
def sizeSub (a b : ℕ) : ℕ := (a + (2 ^ 64 - b)) % 2 ^ 64

/-- `s.find(c, pos)`. -/
def find (s : Text) (c : Char) (pos : ℕ) : ℕ :=
  match (s.drop pos).findIdx? (· == c) with
  | some i => pos + i
  | none => npos

section Throwing

variable {ε : Type} [LogicErrors ε]

/-- `s.at(pos)`. -/
def at' (s : Text) (pos : ℕ) : Except ε Char :=
  match s[pos]? with
  | some c => .ok c
  | none => .error (LogicErrors.outOfRange "basic_string::at")

/-- `s.substr(pos)`. -/
def suffix (s : Text) (pos : ℕ) : Except ε Text :=
  if s.length < pos then .error (LogicErrors.outOfRange "basic_string::substr")
  else .ok (s.drop pos)

/-- `s.substr(pos, count)`. -/
def substr (s : Text) (pos count : ℕ) : Except ε Text := do
  return (← suffix s pos).take count

/-- `isspace`, in the C locale. -/
def isSpace (c : Char) : Bool :=
  c = ' ' || (9 ≤ c.toNat && c.toNat ≤ 13)

/-- The sign before a number, and what follows it. -/
def sign : Text → Bool × Text
  | '-' :: s => (true, s)
  | '+' :: s => (false, s)
  | s => (false, s)

/-- The number that `stoi` has read, if it is an `int`. -/
def checkInt (n : ℤ) : Except ε ℤ :=
  if n < -2 ^ 31 ∨ 2 ^ 31 ≤ n then .error (LogicErrors.outOfRange "stoi") else .ok n

/-- `std::stoi` reads the number at the start of the text, after white space, and ignores
what follows it. -/
def stoi (s : Text) : Except ε ℤ :=
  let (negative, number) := sign (s.dropWhile isSpace)
  match number.takeWhile Char.isDigit with
  | [] => .error (LogicErrors.invalidArgument "stoi")
  | digits =>
    let magnitude : ℤ := Nat.ofDigitChars 10 digits 0
    checkInt (if negative then -magnitude else magnitude)

end Throwing

/-- `std::to_string` of an `int`. -/
def ofInt (n : ℤ) : Text :=
  if n < 0 then '-' :: Nat.toDigits 10 n.natAbs else Nat.toDigits 10 n.natAbs

/-- The conversion `%0wu` of `printf`, for the width `w`. -/
def padded (w n : ℕ) : Text := List.leftpad w '0' (Nat.toDigits 10 n)

theorem notMem_cStr (s : Text) : nul ∉ s.cStr := by
  intro member
  have other := List.mem_takeWhile_imp member
  simp at other

theorem cStr_of_notMem {s : Text} (absent : nul ∉ s) : s.cStr = s := by
  refine List.takeWhile_eq_self_iff.mpr fun c member => decide_eq_true ?_
  rintro rfl
  exact absent member

theorem sizeAdd_of_lt {a b : ℕ} (h : a + b < 2 ^ 64) : sizeAdd a b = a + b :=
  Nat.mod_eq_of_lt h

theorem sizeSub_of_le {a b : ℕ} (h : b ≤ a) (size : a < 2 ^ 64) : sizeSub a b = a - b := by
  rw [sizeSub]
  omega

theorem findIdx?_eq_none_of_notMem {s : Text} {c : Char} (absent : c ∉ s) :
    s.findIdx? (· == c) = none := by
  rw [List.findIdx?_eq_none_iff]
  intro x member
  simp only [beq_eq_false_iff_ne, ne_eq]
  rintro rfl
  exact absent member

theorem find_append_cons {s : Text} {c : Char} (pos : ℕ) {before after : Text}
    (h : s.drop pos = before ++ c :: after) (absent : c ∉ before) :
    s.find c pos = pos + before.length := by
  have index : (before ++ c :: after).findIdx? (· == c) = some before.length := by
    simp [List.findIdx?_append, findIdx?_eq_none_of_notMem absent, List.findIdx?_cons]
  simp only [find, h, index]

theorem find_eq_npos {s : Text} {c : Char} {pos : ℕ} (absent : c ∉ s.drop pos) :
    s.find c pos = npos := by
  simp only [find, findIdx?_eq_none_of_notMem absent]

section Throwing

variable {ε : Type} [LogicErrors ε]

theorem suffix_eq {s after : Text} {pos : ℕ} (before : Text) (h : s = before ++ after)
    (length : before.length = pos) : s.suffix pos = (.ok after : Except ε Text) := by
  subst h length
  simp [suffix]

theorem substr_eq {s field : Text} {pos count : ℕ} (before after : Text)
    (h : s = before ++ (field ++ after)) (length : before.length = pos)
    (width : field.length = count) : s.substr pos count = (.ok field : Except ε Text) := by
  subst width
  simp [substr, suffix_eq before h length]

/-- A piece that is cut off the rest of a text from a position on. -/
theorem substr_of_drop {s field after : Text} {pos count : ℕ} (inside : pos ≤ s.length)
    (ahead : s.drop pos = field ++ after) (width : field.length = count) :
    s.substr pos count = (.ok field : Except ε Text) := by
  have split := List.take_append_drop pos s
  rw [ahead] at split
  exact substr_eq (s.take pos) after split.symm (List.length_take_of_le inside) width

theorem substr_append_of_le {s : Text} {pos count : ℕ} (rest : Text)
    (h : pos + count ≤ s.length) :
    (s ++ rest).substr pos count = (s.substr pos count : Except ε Text) := by
  have inside : pos ≤ s.length := by omega
  have enough : count ≤ (s.drop pos).length := by
    rw [List.length_drop]
    omega
  simp [substr, suffix, List.drop_append_of_le_length inside,
    List.take_append_of_le_length enough, Nat.not_lt.mpr inside,
    Nat.not_lt.mpr (Nat.le_add_right_of_le inside)]

theorem isDigit_of_mem_toDigits {n : ℕ} {c : Char} (h : c ∈ Nat.toDigits 10 n) : c.isDigit :=
  Nat.isDigit_of_mem_toDigits (by decide) (by decide) h

theorem notMem_toDigits {n : ℕ} {c : Char} (other : c.isDigit = false) :
    c ∉ Nat.toDigits 10 n := fun member =>
  Bool.false_ne_true (other.symm.trans (isDigit_of_mem_toDigits member))

theorem ofDigitChars_lt {digits : Text} (h : ∀ c ∈ digits, c.isDigit) :
    Nat.ofDigitChars 10 digits 0 < 10 ^ digits.length := by
  induction digits with
  | nil => simp
  | cons c digits ih =>
      have rest := ih fun d member => h d (List.mem_cons_of_mem _ member)
      have digit : c.toNat - 48 < 10 := by
        have bounds := h c List.mem_cons_self
        simp only [Char.isDigit, Bool.and_eq_true, decide_eq_true_eq, UInt32.le_iff_toNat_le]
          at bounds
        have upper : c.toNat ≤ 57 := bounds.2
        omega
      rw [Nat.ofDigitChars_cons, Nat.ofDigitChars_eq_ofDigitChars_zero, List.length_cons, pow_succ]
      have zero : '0'.toNat = 48 := rfl
      rw [zero]
      calc 10 ^ digits.length * (10 * 0 + (c.toNat - 48)) + Nat.ofDigitChars 10 digits 0
          < 10 ^ digits.length * (10 * 0 + (c.toNat - 48)) + 10 ^ digits.length := by omega
        _ = 10 ^ digits.length * (c.toNat - 48 + 1) := by ring
        _ ≤ 10 ^ digits.length * 10 := Nat.mul_le_mul_left _ (by omega)

theorem not_isSpace_of_isDigit {c : Char} (h : c.isDigit) : isSpace c = false := by
  simp only [Char.isDigit, Bool.and_eq_true, decide_eq_true_eq, UInt32.le_iff_toNat_le] at h
  have lower : 48 ≤ c.toNat := h.1
  have notBlank : c ≠ ' ' := by
    rintro rfl
    exact absurd lower (by decide)
  simp [isSpace, notBlank]
  omega

theorem sign_of_digits {digits : Text} (h : ∀ c ∈ digits, c.isDigit) :
    sign digits = (false, digits) := by
  unfold sign
  split <;> simp_all [Char.isDigit]

/-- A text of digits is read as a whole. -/
theorem stoi_eq_checkInt {digits : Text} (nonempty : digits ≠ [])
    (h : ∀ c ∈ digits, c.isDigit) :
    (stoi digits : Except ε ℤ) = checkInt (Nat.ofDigitChars 10 digits 0) := by
  obtain ⟨c, rest, rfl⟩ := List.exists_cons_of_ne_nil nonempty
  have digit := h c List.mem_cons_self
  have noSpace : (c :: rest).dropWhile isSpace = c :: rest := by
    simp [not_isSpace_of_isDigit digit]
  have noSign := sign_of_digits h
  have all : (c :: rest).takeWhile Char.isDigit = c :: rest :=
    List.takeWhile_eq_self_iff.mpr h
  simp only [stoi, noSpace, noSign, all, Bool.false_eq_true, if_false]

theorem stoi_neg_eq_checkInt {digits : Text} (nonempty : digits ≠ [])
    (h : ∀ c ∈ digits, c.isDigit) :
    (stoi ('-' :: digits) : Except ε ℤ) = checkInt (-Nat.ofDigitChars 10 digits 0) := by
  obtain ⟨c, rest, rfl⟩ := List.exists_cons_of_ne_nil nonempty
  have noSpace : ('-' :: c :: rest).dropWhile isSpace = '-' :: c :: rest := rfl
  have all : (c :: rest).takeWhile Char.isDigit = c :: rest :=
    List.takeWhile_eq_self_iff.mpr h
  simp only [stoi, noSpace, sign, all, if_true]

theorem stoi_of_digits {digits : Text} (nonempty : digits ≠ []) (h : ∀ c ∈ digits, c.isDigit)
    (short : digits.length ≤ 9) :
    stoi digits = (.ok (Nat.ofDigitChars 10 digits 0 : ℤ) : Except ε ℤ) := by
  have bound : Nat.ofDigitChars 10 digits 0 < 10 ^ 9 :=
    (ofDigitChars_lt h).trans_le (Nat.pow_le_pow_right (by decide) short)
  rw [stoi_eq_checkInt nonempty h, checkInt, if_neg (by omega)]

/-- The values of type `int`. -/
def IsInt (n : ℤ) : Prop := -2 ^ 31 ≤ n ∧ n < 2 ^ 31

theorem checkInt_of_isInt {n : ℤ} (h : IsInt n) : checkInt n = (.ok n : Except ε ℤ) := by
  obtain ⟨lower, upper⟩ := h
  rw [checkInt, if_neg (by omega)]

/-- An `int` is read as it is written. -/
theorem stoi_ofInt {n : ℤ} (h : IsInt n) : stoi (ofInt n) = (.ok n : Except ε ℤ) := by
  have digits : ∀ c ∈ Nat.toDigits 10 n.natAbs, c.isDigit := fun c => isDigit_of_mem_toDigits
  have nonempty : Nat.toDigits 10 n.natAbs ≠ [] := Nat.toDigits_ne_nil
  by_cases negative : n < 0
  · have magnitude : -(n.natAbs : ℤ) = n := by omega
    rw [ofInt, if_pos negative, stoi_neg_eq_checkInt nonempty digits,
      Nat.ofDigitChars_ten_toDigits, magnitude, checkInt_of_isInt h]
  · have magnitude : (n.natAbs : ℤ) = n := by omega
    rw [ofInt, if_neg negative, stoi_eq_checkInt nonempty digits,
      Nat.ofDigitChars_ten_toDigits, magnitude, checkInt_of_isInt h]

theorem sign_ofInt (n : ℤ) : sign (ofInt n) = (decide (n < 0), Nat.toDigits 10 n.natAbs) := by
  by_cases negative : n < 0
  · rw [ofInt, if_pos negative, decide_eq_true negative]
    rfl
  · rw [ofInt, if_neg negative, decide_eq_false negative]
    exact sign_of_digits fun c => isDigit_of_mem_toDigits

theorem ofInt_injective : Function.Injective ofInt := by
  intro m n same
  have signs := (sign_ofInt m).symm.trans ((congrArg sign same).trans (sign_ofInt n))
  obtain ⟨negative, digits⟩ := Prod.mk.inj signs
  have magnitude := congrArg (Nat.ofDigitChars 10 · 0) digits
  simp only [Nat.ofDigitChars_ten_toDigits] at magnitude
  have iff : m < 0 ↔ n < 0 := decide_eq_decide.mp negative
  omega

theorem toList_toString (n : ℤ) : (toString n).toList = ofInt n := by
  rw [Int.toString_eq_repr, Int.repr_eq_if, ofInt]
  by_cases negative : n < 0
  · have magnitude : (-n).toNat = n.natAbs := by omega
    rw [if_neg (by omega), if_pos negative, magnitude, String.toList_append, Nat.toList_repr]
    rfl
  · have magnitude : n.toNat = n.natAbs := by omega
    rw [if_pos (by omega), if_neg negative, magnitude, Nat.toList_repr]

theorem checkInt_eq_ok {m n : ℤ} (h : checkInt m = (.ok n : Except ε ℤ)) : m = n := by
  rw [checkInt] at h
  split at h
  · simp at h
  · exact Except.ok.inj h

theorem length_sign_le (s : Text) : (sign s).2.length ≤ s.length := by
  unfold sign
  split <;> simp

/-- A number of so many characters is less than the power of ten. -/
theorem stoi_lt {s : Text} {n : ℤ} (h : stoi s = (.ok n : Except ε ℤ)) : n < 10 ^ s.length := by
  simp only [stoi] at h
  split at h
  · simp at h
  · have short : ((sign (s.dropWhile isSpace)).2.takeWhile Char.isDigit).length ≤ s.length :=
      (List.takeWhile_prefix _).length_le.trans
        ((length_sign_le _).trans (List.dropWhile_suffix _).length_le)
    have bound := (ofDigitChars_lt fun c => List.mem_takeWhile_imp).trans_le
      (Nat.pow_le_pow_right (n := 10) (by decide) short)
    zify at bound
    obtain rfl := checkInt_eq_ok h
    split <;> omega

theorem isDigit_of_mem_padded {w n : ℕ} {c : Char} (h : c ∈ padded w n) : c.isDigit := by
  simp only [padded, List.leftpad, List.mem_append] at h
  rcases h with zero | digit
  · rw [List.eq_of_mem_replicate zero]
    rfl
  · exact isDigit_of_mem_toDigits digit

theorem notMem_padded {w n : ℕ} {c : Char} (other : c.isDigit = false) : c ∉ padded w n := by
  intro member
  have digit := isDigit_of_mem_padded member
  rw [other] at digit
  exact absurd digit (by decide)

theorem length_padded {w n : ℕ} (positive : 0 < w) (h : n < 10 ^ w) : (padded w n).length = w := by
  rw [padded, List.length_leftpad]
  exact max_eq_left ((Nat.length_toDigits_le_iff (by decide) positive).mpr h)

/-- A number that is wide enough is not padded. -/
theorem padded_of_le {w n : ℕ} (wide : 0 < w) (h : 10 ^ w ≤ n) :
    padded (w + 1) n = Nat.toDigits 10 n := by
  have length := mt (Nat.length_toDigits_le_iff (b := 10) (by decide) wide).mp (Nat.not_lt.mpr h)
  have none : w + 1 - (Nat.toDigits 10 n).length = 0 := by omega
  simp [padded, List.leftpad, none]

theorem ofDigitChars_padded (w n : ℕ) : Nat.ofDigitChars 10 (padded w n) 0 = n := by
  simp [padded, List.leftpad, Nat.ofDigitChars_append]

theorem stoi_padded {w n : ℕ} (positive : 0 < w) (short : w ≤ 9) (h : n < 10 ^ w) :
    stoi (padded w n) = (.ok n : Except ε ℤ) := by
  have length := length_padded positive h
  have nonempty : padded w n ≠ [] := by
    rw [← List.length_pos_iff, length]
    exact positive
  rw [stoi_of_digits nonempty (fun c => isDigit_of_mem_padded) (length.trans_le short),
    ofDigitChars_padded]

end Throwing

/-- The text has a digit at every place of a digit of the format, and the same character
at every other place. -/
def HasFormat (format s : Text) : Prop :=
  List.Forall₂ (fun f c => if f.isDigit then c.isDigit = true else c = f) format s

namespace HasFormat

theorem length {format s : Text} (h : HasFormat format s) : s.length = format.length :=
  (List.Forall₂.length_eq h).symm

theorem append {format format' s t : Text} (h : HasFormat format s) (h' : HasFormat format' t) :
    HasFormat (format ++ format') (s ++ t) :=
  List.rel_append h h'

theorem literal {c : Char} {format s : Text} (notDigit : c.isDigit = false)
    (h : HasFormat format s) : HasFormat (c :: format) (c :: s) :=
  .cons (by simp [notDigit]) h

theorem digits {s : Text} (h : ∀ c ∈ s, c.isDigit) :
    HasFormat (List.replicate s.length '0') s := by
  induction s with
  | nil => exact .nil
  | cons c s ih =>
      exact .cons (h c List.mem_cons_self) (ih fun d member => h d (List.mem_cons_of_mem _ member))

theorem padded {w n : ℕ} (positive : 0 < w) (h : n < 10 ^ w) :
    HasFormat (List.replicate w '0') (padded w n) := by
  have digits := digits (s := Text.padded w n) fun c => isDigit_of_mem_padded
  rwa [length_padded positive h] at digits

theorem isDigit {w : ℕ} {s : Text} (h : HasFormat (List.replicate w '0') s) :
    ∀ c ∈ s, c.isDigit := by
  induction w generalizing s with
  | zero =>
      cases h
      simp
  | succ w ih =>
      cases h with
      | cons digit rest =>
          intro c member
          rcases List.mem_cons.mp member with rfl | later
          · exact digit
          · exact ih rest c later

/-- The digits of a format are read as a number. -/
theorem stoi {ε : Type} [LogicErrors ε] {w : ℕ} {s : Text} (positive : 0 < w) (short : w ≤ 9)
    (h : HasFormat (List.replicate w '0') s) : ∃ n, Text.stoi s = (.ok n : Except ε ℤ) := by
  have width := h.length
  rw [List.length_replicate] at width
  have nonempty : s ≠ [] := by
    rw [← List.length_pos_iff, width]
    exact positive
  exact ⟨_, stoi_of_digits nonempty h.isDigit (width.trans_le short)⟩

theorem of_append {format format' s : Text} (h : HasFormat (format ++ format') s) :
    ∃ a b, s = a ++ b ∧ HasFormat format a ∧ HasFormat format' b := by
  induction format generalizing s with
  | nil => exact ⟨[], s, rfl, .nil, h⟩
  | cons f format ih =>
      cases h with
      | cons first later =>
          obtain ⟨a, b, rfl, front, back⟩ := ih later
          exact ⟨_ :: a, b, rfl, .cons first front, back⟩

/-- The first column of a format, and what follows its separator. -/
theorem of_column (format : Text) {format' s : Text} (c : Char) (separator : c.isDigit = false)
    (h : HasFormat (format ++ c :: format') s) :
    ∃ a b, s = a ++ c :: b ∧ HasFormat format a ∧ HasFormat format' b := by
  obtain ⟨a, t, rfl, front, back⟩ := of_append h
  cases back with
  | cons same later =>
      rw [if_neg (by simp [separator])] at same
      exact ⟨a, _, by rw [same], front, later⟩

end HasFormat

theorem isUpper_iff {c : Char} : c.isUpper = true ↔ 65 ≤ c.val.toNat ∧ c.val.toNat ≤ 90 :=
  decide_eq_true_iff

theorem toLower_of_not_isUpper {c : Char} (h : c.isUpper = false) : c.toLower = c :=
  dif_neg (of_decide_eq_false h)

end Text

end Hueplusplus
