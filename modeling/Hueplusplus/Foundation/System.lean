import Hueplusplus.Foundation.Effect

/-!
# Runs of a system

A `System` takes a step for each admissible input. Which inputs are admissible can
depend on the state, and what the environment chooses is part of the input, so the
step itself is a function. A property of every state of every run follows from an
`Invariant`, and a property that each step keeps under a condition of its own is traced
along a run by `run_iff`. A computation that `Composes` takes steps of the system only.
-/

structure System (σ ι : Type*) where
  init : σ → Prop
  admissible : σ → ι → Prop
  step : σ → ι → σ

namespace System

variable {σ ι : Type*}

/-- States at the ends of the finite runs. -/
inductive Reachable (M : System σ ι) : σ → Prop where
  | init {s : σ} : M.init s → Reachable M s
  | step {s : σ} (i : ι) : Reachable M s → M.admissible s i → Reachable M (M.step s i)

/-- A property that holds initially and is kept by every step. -/
structure Invariant (M : System σ ι) (P : σ → Prop) : Prop where
  init : ∀ s, M.init s → P s
  step : ∀ s i, P s → M.admissible s i → P (M.step s i)

variable {M : System σ ι}

theorem Invariant.holds {P : σ → Prop} (h : M.Invariant P) {s : σ} (reachable : M.Reachable s) :
    P s := by
  induction reachable with
  | init start => exact h.init _ start
  | step i _ admissible ih => exact h.step _ i ih admissible

/-- Every step of the run from `s` with these inputs satisfies `P`, a property of the state
before it, its input and the state after it. -/
def Each (M : System σ ι) (P : σ → ι → σ → Prop) : σ → List ι → Prop
  | _, [] => True
  | s, i :: run => P s i (M.step s i) ∧ M.Each P (M.step s i) run

theorem each_congr {P Q : σ → ι → σ → Prop} (h : ∀ s i, P s i (M.step s i) ↔ Q s i (M.step s i))
    (s : σ) (run : List ι) : M.Each P s run ↔ M.Each Q s run := by
  induction run generalizing s with
  | nil => exact Iff.rfl
  | cons i run ih => exact and_congr (h s i) (ih (M.step s i))

/-- The end of the run from `s` with these inputs. -/
def run (M : System σ ι) (s : σ) (inputs : List ι) : σ := inputs.foldl M.step s

@[simp] theorem run_nil (s : σ) : M.run s [] = s := rfl

@[simp] theorem run_cons (s : σ) (i : ι) (inputs : List ι) :
    M.run s (i :: inputs) = M.run (M.step s i) inputs := rfl

theorem run_append (s : σ) (first second : List ι) :
    M.run s (first ++ second) = M.run (M.run s first) second := List.foldl_append

theorem each_append {P : σ → ι → σ → Prop} (s : σ) (first second : List ι) :
    M.Each P s (first ++ second) ↔ M.Each P s first ∧ M.Each P (M.run s first) second := by
  induction first generalizing s with
  | nil => exact (and_iff_right trivial).symm
  | cons i first ih =>
      rw [List.cons_append, Each, Each, ih, and_assoc]
      rfl

/-- Where all inputs are admissible, every run from an initial state ends in a reachable one. -/
theorem Reachable.run (all : ∀ s i, M.admissible s i) {s : σ} (reachable : M.Reachable s)
    (inputs : List ι) : M.Reachable (M.run s inputs) := by
  induction inputs generalizing s with
  | nil => exact reachable
  | cons i inputs ih => exact ih (reachable.step i (all s i))

/-- If every step keeps `I`, and each keeps `P` exactly under a condition of its own, then a
run keeps `P` exactly if each of its steps meets its condition. -/
theorem run_iff {I P : σ → Prop} {C : σ → ι → Prop} (keeps : ∀ s i, I s → I (M.step s i))
    (one : ∀ s i, I s → (P (M.step s i) ↔ P s ∧ C s i)) (inputs : List ι) {s : σ} (h : I s) :
    P (M.run s inputs) ↔ P s ∧ M.Each (fun s i _ => C s i) s inputs := by
  induction inputs generalizing s with
  | nil => exact (and_iff_left trivial).symm
  | cons i inputs ih =>
      rw [run_cons, ih (keeps s i h), one s i h, and_assoc]
      rfl

section Composes

variable {ε σ α β : Type} {ι : Type*} {M : System σ ι}

/-- Wherever it starts, the computation leaves the end of a run. -/
def Composes (M : System σ ι) (x : Effect ε σ α) : Prop :=
  ∀ s, ∃ inputs, (Effect.result x s).2 = M.run s inputs

theorem composes_step {x : Effect ε σ α} (i : ι) (h : ∀ s, (Effect.result x s).2 = M.step s i) :
    M.Composes x := fun s => ⟨[i], h s⟩

theorem composes_pure (a : α) : M.Composes (pure a : Effect ε σ α) := fun _ => ⟨[], rfl⟩

theorem composes_throw (e : ε) : M.Composes (throw e : Effect ε σ α) := fun _ => ⟨[], rfl⟩

theorem composes_ofExcept (x : Except ε α) :
    M.Composes (Effect.ofExcept x : Effect ε σ α) := fun _ => ⟨[], rfl⟩

theorem Composes.bind {x : Effect ε σ α} {f : α → Effect ε σ β} (first : M.Composes x)
    (second : ∀ a, M.Composes (f a)) : M.Composes (x >>= f) := by
  intro s
  obtain ⟨inputs, ran⟩ := first s
  rw [Effect.result_bind]
  cases outcome : Effect.result x s with
  | mk value t =>
      obtain rfl : t = M.run s inputs := by rw [← ran, outcome]
      cases value with
      | error e => exact ⟨inputs, rfl⟩
      | ok a =>
          obtain ⟨inputs', ran'⟩ := second a (M.run s inputs)
          exact ⟨inputs ++ inputs', ran'.trans (run_append s inputs inputs').symm⟩

end Composes

end System
