import Hueplusplus.Foundation.Text

/-!
# Numbers cut out of a text

A parser that cuts pieces out of a text at given positions and reads each as a number stops
at the first piece that fails. If the piece begins after the end of the text, the cut
throws, and else the conversion throws if the piece has no number. So the outcome depends
on the list of pieces only: this is what `Reads` says, and its rules follow the parser.
-/

namespace Hueplusplus.Text

variable {ε : Type} [LogicErrors ε] {α β γ : Type}

/-- The piece `s.substr(pos, count)`, unless it begins after the end. -/
def cut (s : Text) (pos count : ℕ) : Option Text :=
  if s.length < pos then none else some ((s.drop pos).take count)

/-- The piece `s.substr(pos)`, unless it begins after the end. -/
def rest (s : Text) (pos : ℕ) : Option Text :=
  if s.length < pos then none else some (s.drop pos)

/-- There is a digit after white space and a sign. -/
def isNumber (s : Text) : Bool :=
  !((sign (s.dropWhile isSpace)).2.takeWhile Char.isDigit).isEmpty

/-- The first piece that is missing or no number. -/
def firstBad (cuts : List (Option Text)) : Option (Option Text) :=
  cuts.find? fun piece => !piece.any isNumber

/-- The computation returns if all pieces are numbers; it throws an exception of the given
kind if the first bad one is no number, and is out of range if that is missing. -/
def Reads (kind : ε → Prop) (cuts : List (Option Text)) (x : Except ε α) : Prop :=
  match firstBad cuts with
  | none => ∃ a, x = .ok a
  | some (some _) => ∃ e, x = .error e ∧ kind e
  | some none => ∃ what, x = .error (LogicErrors.outOfRange what)

theorem stoi_of_isNumber {s : Text} (number : isNumber s) (short : s.length ≤ 9) :
    ∃ n, stoi s = (.ok n : Except ε ℤ) := by
  have width : ((sign (s.dropWhile isSpace)).2.takeWhile Char.isDigit).length ≤ 9 :=
    (List.takeWhile_prefix _).length_le.trans
      ((length_sign_le _).trans ((List.dropWhile_suffix _).length_le.trans short))
  have bound := (ofDigitChars_lt fun c => List.mem_takeWhile_imp).trans_le
    (Nat.pow_le_pow_right (n := 10) (by decide) width)
  zify at bound
  simp only [isNumber, Bool.not_eq_true', List.isEmpty_eq_false_iff] at number
  obtain ⟨c, digits, split⟩ := List.exists_cons_of_ne_nil number
  rw [split] at bound
  have isInt : ∀ {n : ℤ}, -10 ^ 9 < n → n < 10 ^ 9 → checkInt n = (.ok n : Except ε ℤ) := by
    intro n lower upper
    exact if_neg (by omega)
  simp only [stoi, split]
  cases (sign (s.dropWhile isSpace)).1 with
  | true => exact ⟨_, isInt (by simp only [if_true]; omega) (by simp only [if_true]; omega)⟩
  | false => exact ⟨_, isInt (by simp; omega) (by simpa using bound)⟩

theorem stoi_of_not_isNumber {s : Text} (h : isNumber s = false) :
    stoi s = (.error (LogicErrors.invalidArgument "stoi") : Except ε ℤ) := by
  simp only [isNumber, Bool.not_eq_false', List.isEmpty_iff] at h
  simp only [stoi, h]

namespace Reads

variable {kind : ε → Prop} {cuts cuts' : List (Option Text)}

theorem pure (a : α) : Reads kind [] (.ok a) := ⟨a, rfl⟩

/-- Pieces that are read one after the other. -/
theorem bind {x : Except ε α} {f : α → Except ε β} (first : Reads kind cuts x)
    (next : ∀ a, Reads kind cuts' (f a)) : Reads kind (cuts ++ cuts') (x >>= f) := by
  rw [Reads] at first ⊢
  rw [firstBad, List.find?_append]
  cases bad : firstBad cuts with
  | none =>
      rw [bad] at first
      obtain ⟨a, rfl⟩ := first
      rw [firstBad] at bad
      rw [bad]
      exact next a
  | some piece =>
      rw [bad] at first
      rw [firstBad] at bad
      rw [bad]
      cases piece with
      | none =>
          obtain ⟨what, rfl⟩ := first
          exact ⟨what, rfl⟩
      | some text =>
          obtain ⟨e, rfl, isKind⟩ := first
          exact ⟨e, rfl, isKind⟩

theorem bind_bind {x : Except ε α} {f : α → Except ε β} {g : β → Except ε γ}
    (first : Reads kind cuts (x >>= f)) (next : ∀ b, Reads kind cuts' (g b)) :
    Reads kind (cuts ++ cuts') (x >>= fun a => f a >>= g) := by
  rw [← bind_assoc]
  exact first.bind next

theorem map {x : Except ε α} (h : Reads kind cuts x) (f : α → β) : Reads kind cuts (f <$> x) := by
  have mapped : Reads kind (cuts ++ []) (x >>= fun a => Pure.pure (f a)) :=
    h.bind fun a => pure (f a)
  rw [List.append_nil] at mapped
  cases x <;> exact mapped

theorem missing {what : String} :
    Reads kind [none] (.error (LogicErrors.outOfRange what) : Except ε α) := ⟨what, rfl⟩

theorem stoi {s : Text} (short : s.length ≤ 9)
    (invalid : ∀ what, kind (LogicErrors.invalidArgument what)) :
    Reads kind [some s] (Text.stoi s) := by
  rw [Reads]
  cases number : isNumber s with
  | true => simpa [firstBad, number] using stoi_of_isNumber number short
  | false =>
      simp only [firstBad, List.find?_cons, Option.any_some, number, Bool.not_false]
      exact ⟨_, stoi_of_not_isNumber number, invalid _⟩

/-- A piece of bounded width that is read as a number. -/
theorem number (s : Text) (pos : ℕ) {count : ℕ} (short : count ≤ 9)
    (invalid : ∀ what, kind (LogicErrors.invalidArgument what)) :
    Reads kind [s.cut pos count] (s.substr pos count >>= Text.stoi) := by
  by_cases outside : s.length < pos
  · simp only [cut, if_pos outside, substr, suffix, Except.error_bind]
    exact missing
  · simp only [cut, if_neg outside, substr, suffix, Except.ok_bind, Except.pure_eq_ok]
    apply stoi _ invalid
    exact (List.length_take_le _ _).trans short

theorem number_bind (s : Text) (pos : ℕ) {count : ℕ} {g : ℤ → Except ε α} (short : count ≤ 9)
    (invalid : ∀ what, kind (LogicErrors.invalidArgument what))
    (next : ∀ n, Reads kind cuts (g n)) :
    Reads kind (s.cut pos count :: cuts) (s.substr pos count >>= fun t => Text.stoi t >>= g) :=
  (number s pos short invalid).bind_bind next

/-- A piece that is cut out as a whole before pieces of it are read. -/
theorem substr {s : Text} {pos count : ℕ} {f : Text → Except ε α}
    {pieces : Option Text → List (Option Text)} (absent : pieces none = [none])
    (h : ∀ t, Reads kind (pieces (some t)) (f t)) :
    Reads kind (pieces (s.cut pos count)) (s.substr pos count >>= f) := by
  by_cases outside : s.length < pos
  · simp only [cut, if_pos outside, absent, Text.substr, suffix, Except.error_bind]
    exact missing
  · simp only [cut, if_neg outside, Text.substr, suffix, Except.ok_bind, Except.pure_eq_ok]
    exact h _

theorem suffix {s : Text} {pos : ℕ} {f : Text → Except ε α}
    {pieces : Option Text → List (Option Text)} (absent : pieces none = [none])
    (h : ∀ t, Reads kind (pieces (some t)) (f t)) :
    Reads kind (pieces (s.rest pos)) (s.suffix pos >>= f) := by
  by_cases outside : s.length < pos
  · simp only [rest, if_pos outside, absent, Text.suffix, Except.error_bind]
    exact missing
  · simp only [rest, if_neg outside, Text.suffix, Except.ok_bind]
    exact h _

end Reads

end Hueplusplus.Text
