/-!
# Equations of the exception monad

Computations that return or throw are taken apart by rewriting with these; the
inversion lemma splits a successful sequence into its two successful halves. `UpTo R` compares
two computations that may throw different exceptions.
-/

namespace Except

universe u v

variable {ε : Type u} {α β : Type v}

@[simp] theorem ok_bind (a : α) (f : α → Except ε β) : (Except.ok a >>= f) = f a := rfl

@[simp] theorem error_bind (e : ε) (f : α → Except ε β) :
    (Except.error e >>= f) = Except.error e := rfl

@[simp] theorem pure_eq_ok (a : α) : (pure a : Except ε α) = .ok a := rfl

theorem bind_eq_ok_iff {x : Except ε α} {f : α → Except ε β} {b : β} :
    (x >>= f) = .ok b ↔ ∃ a, x = .ok a ∧ f a = .ok b := by
  cases x <;> simp

theorem map_eq_ok_iff {β : Type v} {x : Except ε α} {f : α → β} {b : β} :
    f <$> x = .ok b ↔ ∃ a, x = .ok a ∧ f a = b := by
  cases x <;> simp [Functor.map, Except.map]

/-- Elements that are read back from what they are written as, one after the other. -/
theorem mapM_map_eq_ok {read : β → Except ε α} {write : α → β} {as : List α}
    (h : ∀ a ∈ as, read (write a) = .ok a) : (as.map write).mapM read = .ok as := by
  rw [List.mapM_map]
  induction as with
  | nil => rfl
  | cons a rest ih =>
      have later := ih fun b member => h b (List.mem_cons_of_mem _ member)
      simp [h a List.mem_cons_self, later]

/-- The same value, or two exceptions that `R` relates. -/
inductive UpTo (R : ε → ε → Prop) : Except ε α → Except ε α → Prop where
  | ok (a : α) : UpTo R (.ok a) (.ok a)
  | error {e e' : ε} (related : R e e') : UpTo R (.error e) (.error e')

section UpTo

variable {R : ε → ε → Prop}

theorem UpTo.refl (refl : ∀ e, R e e) (x : Except ε α) : UpTo R x x := by
  cases x with
  | ok a => exact .ok a
  | error e => exact .error (refl e)

theorem UpTo.bind {x y : Except ε α} {f g : α → Except ε β} (first : UpTo R x y)
    (second : ∀ a, UpTo R (f a) (g a)) : UpTo R (x >>= f) (y >>= g) := by
  cases first with
  | ok a => exact second a
  | error related => exact .error related

theorem UpTo.bind_same {x y : Except ε α} (first : UpTo R x y) (refl : ∀ e, R e e)
    (f : α → Except ε β) : UpTo R (x >>= f) (y >>= f) :=
  first.bind fun a => .refl refl (f a)

end UpTo

end Except
