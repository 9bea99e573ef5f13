import Mathlib.Order.Defs.PartialOrder
import Mathlib.Order.Defs.Unbundled

/-!
# Computations that change a state and may throw

An `Effect` runs on a state and ends with a value or an exception; the changes made
before an exception stay. `Returns x s a s'` says that `x`, started in `s`, returns
`a` and leaves `s'`. Its equations take a `do` block apart into its steps, so proofs
about a successful call never unfold the monad.
-/

universe u

/-- Computations on a state `σ` that may throw an `ε`. -/
abbrev Effect (ε σ : Type u) (α : Type u) : Type u := ExceptT ε (StateM σ) α

namespace Effect

variable {ε σ α β : Type u}

/-- A computation that does not touch the state. -/
def ofExcept (x : Except ε α) : Effect ε σ α := ExceptT.mk (pure x)

/-- The result of a computation and the state it leaves. -/
def result (x : Effect ε σ α) (s : σ) : Except ε α × σ := StateT.run (ExceptT.run x) s

@[simp] theorem result_bind (x : Effect ε σ α) (f : α → Effect ε σ β) (s : σ) :
    result (x >>= f) s =
      match result x s with
      | (.ok a, t) => result (f a) t
      | (.error e, t) => (.error e, t) := by
  unfold result
  rw [ExceptT.run_bind, StateT.run_bind]
  rcases StateT.run (ExceptT.run x) s with ⟨_ | _, _⟩ <;> rfl

@[simp] theorem result_map (f : α → β) (x : Effect ε σ α) (s : σ) :
    result (f <$> x) s = (f <$> (result x s).1, (result x s).2) := by
  rw [map_eq_pure_bind, result_bind]
  rcases result x s with ⟨_ | _, _⟩ <;> rfl

@[simp] theorem result_pure (a : α) (s : σ) : result (pure a : Effect ε σ α) s = (.ok a, s) := rfl

@[simp] theorem result_get (s : σ) : result (get : Effect ε σ σ) s = (.ok s, s) := rfl

@[simp] theorem result_modify (f : σ → σ) (s : σ) :
    result (modify f : Effect ε σ PUnit) s = (.ok ⟨⟩, f s) := rfl

@[simp] theorem result_ofExcept (x : Except ε α) (s : σ) :
    result (ofExcept x : Effect ε σ α) s = (x, s) := rfl

/-- What follows and does nothing to the state. -/
theorem state_bind (x : Effect ε σ α) {f : α → Effect ε σ β} (same : ∀ a s, (result (f a) s).2 = s)
    (s : σ) : (result (x >>= f) s).2 = (result x s).2 := by
  rw [result_bind]
  rcases result x s with ⟨_ | a, t⟩
  · rfl
  · exact same a t

theorem state_bind_pure (x : Effect ε σ α) (f : α → β) (s : σ) :
    (result (x >>= fun a => pure (f a)) s).2 = (result x s).2 :=
  state_bind x (fun _ _ => rfl) s

@[simp] theorem result_tryCatch (x : Effect ε σ α) (handle : ε → Effect ε σ α) (s : σ) :
    result (tryCatch x handle) s =
      match result x s with
      | (.ok a, t) => (.ok a, t)
      | (.error e, t) => result (handle e) t := by
  unfold result
  rw [ExceptT.run_tryCatch, StateT.run_bind]
  rcases StateT.run (ExceptT.run x) s with ⟨_ | _, _⟩ <;> rfl

@[simp] theorem result_throw (e : ε) (s : σ) :
    result (throw e : Effect ε σ α) s = (.error e, s) := rfl

@[simp] theorem result_ite {p : Prop} [Decidable p] (x y : Effect ε σ α) (s : σ) :
    result (if p then x else y) s = if p then result x s else result y s := by
  split <;> rfl

section Within

variable {R : σ → σ → Prop}

/-- Wherever it starts, the computation leaves a state that is related to that. -/
def Within (R : σ → σ → Prop) (x : Effect ε σ α) : Prop := ∀ s, R s (result x s).2

theorem Within.imp {S : σ → σ → Prop} {x : Effect ε σ α} (h : Within R x)
    (implies : ∀ s t, R s t → S s t) : Within S x :=
  fun s => implies s _ (h s)

theorem within_ite {p : Prop} [Decidable p] {x y : Effect ε σ α} (first : Within R x)
    (second : Within R y) : Within R (if p then x else y) := by
  split
  · exact first
  · exact second

variable [IsPreorder σ R]

theorem within_pure (a : α) : Within R (pure a : Effect ε σ α) := fun s => refl_of R s

theorem within_get : Within R (get : Effect ε σ σ) := fun s => refl_of R s

theorem within_throw (e : ε) : Within R (throw e : Effect ε σ α) := fun s => refl_of R s

theorem within_ofExcept (x : Except ε α) : Within R (ofExcept x : Effect ε σ α) :=
  fun s => refl_of R s

theorem Within.bind {x : Effect ε σ α} {f : α → Effect ε σ β} (first : Within R x)
    (second : ∀ a, Within R (f a)) : Within R (x >>= f) := by
  intro s
  have left := first s
  rw [result_bind]
  cases ran : result x s with
  | mk outcome t =>
      rw [ran] at left
      cases outcome with
      | error e => exact left
      | ok a => exact trans_of R left (second a t)

end Within

/-- Started in `s`, the computation returns `a` and leaves `s'`. -/
def Returns (x : Effect ε σ α) (s : σ) (a : α) (s' : σ) : Prop := result x s = (.ok a, s')

variable {s s' : σ} {a : α} {b : β}

@[simp] theorem returns_pure {a' : α} :
    Returns (pure a' : Effect ε σ α) s a s' ↔ a' = a ∧ s = s' := by
  change (Except.ok a', s) = (Except.ok a, s') ↔ _
  simp

@[simp] theorem returns_bind {x : Effect ε σ α} {f : α → Effect ε σ β} :
    Returns (x >>= f) s b s' ↔ ∃ a t, Returns x s a t ∧ Returns (f a) t b s' := by
  unfold Returns
  rw [result_bind]
  rcases result x s with ⟨e | a, t⟩
  · simp
  · constructor
    · exact fun returned => ⟨a, t, rfl, returned⟩
    · rintro ⟨a', t', same, returned⟩
      simp only [Prod.mk.injEq, Except.ok.injEq] at same
      obtain ⟨rfl, rfl⟩ := same
      exact returned

/-- A sequence goes on from where its first part returns. -/
theorem Returns.result_bind {x : Effect ε σ α} (returned : Returns x s a s')
    (f : α → Effect ε σ β) : result (x >>= f) s = result (f a) s' := by
  rw [Effect.result_bind, show result x s = _ from returned]

@[simp] theorem returns_throw {e : ε} : Returns (throw e : Effect ε σ α) s a s' ↔ False := by
  change (Except.error e, s) = (Except.ok a, s') ↔ _
  simp

@[simp] theorem returns_get {t : σ} : Returns (get : Effect ε σ σ) s t s' ↔ s = t ∧ s = s' := by
  change (Except.ok s, s) = (Except.ok t, s') ↔ _
  simp

@[simp] theorem returns_modify {f : σ → σ} {r : PUnit} :
    Returns (modify f : Effect ε σ PUnit) s r s' ↔ f s = s' := by
  change (Except.ok PUnit.unit, f s) = (Except.ok r, s') ↔ _
  simp

@[simp] theorem returns_ofExcept {x : Except ε α} :
    Returns (ofExcept x : Effect ε σ α) s a s' ↔ x = .ok a ∧ s = s' := by
  change (x, s) = (Except.ok a, s') ↔ _
  simp

section Counts

variable {γ : Type*} {count : σ → γ} {x : Effect ε σ α} {f : α → Effect ε σ β}

/-- Started in `s`, the computation leaves the count as it was. -/
def Still (count : σ → γ) (x : Effect ε σ α) (s : σ) : Prop := count (result x s).2 = count s

theorem Still.same (still : Still count x s) {t : σ} (returned : Returns x s a t) :
    count t = count s := by
  rwa [Still, show result x s = _ from returned] at still

theorem Still.second (still : Still count (x >>= f) s) {t : σ} (returned : Returns x s a t)
    (same : count t = count s) : Still count (f a) t := by
  rw [Still, returned.result_bind] at still
  exact still.trans same.symm

variable [PartialOrder γ]

/-- The count does not decrease between the states. -/
def Grows (count : σ → γ) (s t : σ) : Prop := count s ≤ count t

instance : IsPreorder σ (Grows count) where
  refl _ := le_refl _
  trans _ _ _ := le_trans

/-- Where counts only grow, the count stays in the first part of a sequence. -/
theorem Still.first (still : Still count (x >>= f) s) (first : Within (Grows count) x)
    (second : ∀ a, Within (Grows count) (f a)) : Still count x s := by
  have start := first s
  rw [Still, result_bind] at still
  rw [Still]
  cases ran : result x s with
  | mk outcome t =>
      rw [ran] at still start
      cases outcome with
      | error e => exact still
      | ok a => exact le_antisymm (le_of_le_of_eq (second a t) still) start

end Counts

@[simp] theorem returns_ite {p : Prop} [Decidable p] {x y : Effect ε σ α} :
    Returns (if p then x else y) s a s' ↔
      (p ∧ Returns x s a s') ∨ (¬p ∧ Returns y s a s') := by
  by_cases h : p <;> simp [h]

end Effect
