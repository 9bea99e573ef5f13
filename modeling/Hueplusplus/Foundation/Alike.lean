import Hueplusplus.Foundation.Effect

/-!
# Two computations side by side

`Alike R S x y` compares two computations, each on a state of its own. Started in states that
`R` relates, they leave such states, and either return values that `S` relates or throw the
same exception. The rules follow the way the computations are built, so two runs of one
program from related states are compared without running it.
-/

universe u

namespace Effect

variable {ε σ τ α β α' β' : Type u}

/-- Two results with the states they leave. -/
inductive Agree (R : σ → τ → Prop) (S : α → β → Prop) :
    Except ε α × σ → Except ε β × τ → Prop where
  | returned {a : α} {b : β} {s : σ} {t : τ} : S a b → R s t → Agree R S (.ok a, s) (.ok b, t)
  | threw {e : ε} {s : σ} {t : τ} : R s t → Agree R S (.error e, s) (.error e, t)

/-- From related states the computations have results that agree. -/
def Alike (R : σ → τ → Prop) (S : α → β → Prop) (x : Effect ε σ α) (y : Effect ε τ β) : Prop :=
  ∀ s t, R s t → Agree R S (result x s) (result y t)

variable {R : σ → τ → Prop} {S : α → β → Prop} {S' : α' → β' → Prop}

theorem Agree.state {x : Except ε α × σ} {y : Except ε β × τ} (agree : Agree R S x y) :
    R x.2 y.2 := by
  cases agree with
  | returned _ related => exact related
  | threw related => exact related

theorem Agree.mono {S' : α → β → Prop} {x : Except ε α × σ} {y : Except ε β × τ}
    (agree : Agree R S x y) (weaker : ∀ a b, S a b → S' a b) : Agree R S' x y := by
  cases agree with
  | returned values related => exact .returned (weaker _ _ values) related
  | threw related => exact .threw related

theorem agree_bind {x : Effect ε σ α} {y : Effect ε τ β} {f : α → Effect ε σ α'}
    {g : β → Effect ε τ β'} {s : σ} {t : τ} (first : Agree R S (result x s) (result y t))
    (second : ∀ a b, S a b → Alike R S' (f a) (g b)) :
    Agree R S' (result (x >>= f) s) (result (y >>= g) t) := by
  rw [result_bind, result_bind]
  generalize result x s = left, result y t = right at first
  cases first with
  | returned values related => exact second _ _ values _ _ related
  | threw related => exact .threw related

theorem Alike.bind {x : Effect ε σ α} {y : Effect ε τ β} {f : α → Effect ε σ α'}
    {g : β → Effect ε τ β'} (first : Alike R S x y)
    (second : ∀ a b, S a b → Alike R S' (f a) (g b)) : Alike R S' (x >>= f) (y >>= g) :=
  fun s t related => agree_bind (first s t related) second

theorem Alike.mono {S' : α → β → Prop} {x : Effect ε σ α} {y : Effect ε τ β}
    (alike : Alike R S x y) (weaker : ∀ a b, S a b → S' a b) : Alike R S' x y :=
  fun s t related => (alike s t related).mono weaker

theorem alike_pure {a : α} {b : β} (values : S a b) :
    Alike R S (pure a : Effect ε σ α) (pure b : Effect ε τ β) :=
  fun _ _ related => .returned values related

theorem alike_throw (e : ε) : Alike R S (throw e : Effect ε σ α) (throw e : Effect ε τ β) :=
  fun _ _ related => .threw related

theorem alike_ofExcept (x : Except ε α) :
    Alike R Eq (ofExcept x : Effect ε σ α) (ofExcept x : Effect ε τ α) := by
  intro s t related
  cases x with
  | error e => exact .threw related
  | ok a => exact .returned rfl related

/-- What is read are the states themselves. -/
theorem alike_get : Alike R R (get : Effect ε σ σ) (get : Effect ε τ τ) :=
  fun _ _ related => .returned related related

theorem alike_modify {f : σ → σ} {g : τ → τ} (keeps : ∀ s t, R s t → R (f s) (g t)) :
    Alike R (fun _ _ => True) (modify f : Effect ε σ PUnit) (modify g : Effect ε τ PUnit) :=
  fun s t related => .returned trivial (keeps s t related)

theorem alike_tryCatch {x : Effect ε σ α} {y : Effect ε τ β} {f : ε → Effect ε σ α}
    {g : ε → Effect ε τ β} (first : Alike R S x y) (handle : ∀ e, Alike R S (f e) (g e)) :
    Alike R S (tryCatch x f) (tryCatch y g) := by
  intro s t related
  rw [result_tryCatch, result_tryCatch]
  have agree := first s t related
  generalize result x s = left, result y t = right at agree
  cases agree with
  | returned values related => exact .returned values related
  | threw related => exact handle _ _ _ related

end Effect
