import Hueplusplus.Foundation.System
import Hueplusplus.TimePattern.Basic
import Mathlib.Logic.Function.Basic

/-!
# Copies of a time pattern

`TimePattern` is a union of its kinds with a tag. Assignment destroys the old member and
constructs the new one in the same storage. For an absolute time it constructs the part
`AbsoluteTime` only, so the random variation is whatever the storage holds at its place;
that is an input of each copy.
-/

namespace Hueplusplus.Time

namespace TimePattern

/-- The destructors of all members are trivial. -/
def destroy : TimePattern → TimePattern
  | _ => undefined

/-- `operator=` on two different objects, where the storage holds `leftover` at the place of
the variation. -/
def assign (leftover : ℤ) (this other : TimePattern) : TimePattern :=
  let destroyed := this.destroy
  match other with
  | undefined => destroyed
  -- `new (&absolute) AbsoluteTime(other.absolute)`
  | absolute t => absolute { toAbsoluteTime := t.toAbsoluteTime, variation := leftover }
  | recurring t => recurring t
  | interval t => interval t
  | timer t => timer t

/-- The copy constructor. -/
def copy (leftover : ℤ) (other : TimePattern) : TimePattern :=
  assign leftover undefined other

/-- A copy carries over everything but the variation of an absolute time. -/
theorem assign_eq_iff (leftover : ℤ) (this other : TimePattern) :
    assign leftover this other = other ↔
      ∀ t, other = absolute t → leftover = t.variation := by
  cases other with
  | absolute t =>
      constructor
      · intro same t' h
        cases h
        exact congrArg AbsoluteVariedTime.variation (absolute.inj same)
      · intro found
        rw [assign, found t rfl]
  | undefined => simp [assign, destroy]
  | recurring t => simp [assign]
  | interval t => simp [assign]
  | timer t => simp [assign]

end TimePattern

variable {ι : Type} [DecidableEq ι]

/-- A copy from one pattern of a set to another. A new object is not the one it is a copy
of. -/
inductive Copy (ι : Type) where
  | construct (destination source : ι) (new : destination ≠ source)
  | assign (destination source : ι)

namespace Copy

def destination : Copy ι → ι
  | construct destination _ _ | assign destination _ => destination

def source : Copy ι → ι
  | construct _ source _ | assign _ source => source

def run (leftover : ℤ) (s : ι → TimePattern) : Copy ι → ι → TimePattern
  | construct destination source _ =>
    Function.update s destination (TimePattern.copy leftover (s source))
  | assign destination source =>
    -- `this == &other`
    if destination = source then s
    else
      Function.update s destination
        (TimePattern.assign leftover (s destination) (s source))

end Copy

/-- Copies in any order among the patterns of a set, each with what it finds in the
storage of its destination. -/
def copySystem (ι : Type) [DecidableEq ι] : System (ι → TimePattern) (Copy ι × ℤ) where
  init _ := True
  admissible _ _ := True
  step s i := i.1.run i.2 s

/-- The destination has become the source, in its type and all fields, prints the same text,
and every other pattern is what it was. -/
structure Faithful (s : ι → TimePattern) (i : Copy ι × ℤ) (t : ι → TimePattern) : Prop where
  copied : t i.1.destination = s i.1.source
  text : ∀ zone, (t i.1.destination).toString zone = (s i.1.source).toString zone
  others : ∀ other, other ≠ i.1.destination → t other = s other

/-- The copy leaves a pattern as it is, or its source is not an absolute time, or the storage
happens to hold the variation of its source. -/
def FindsVariation (s : ι → TimePattern) (i : Copy ι × ℤ) (_ : ι → TimePattern) : Prop :=
  i.1.destination = i.1.source ∨ ∀ t, s i.1.source = .absolute t → i.2 = t.variation

theorem faithful_update_iff {s t : ι → TimePattern} {i : Copy ι × ℤ} (this : TimePattern)
    (different : i.1.destination ≠ i.1.source)
    (h : t = Function.update s i.1.destination (TimePattern.assign i.2 this (s i.1.source))) :
    Faithful s i t ↔ FindsVariation s i t := by
  subst h
  constructor
  · intro faithful
    have same := faithful.copied
    rw [Function.update_self] at same
    exact .inr ((TimePattern.assign_eq_iff i.2 this _).mp same)
  · intro found
    have same := (TimePattern.assign_eq_iff i.2 this _).mpr (found.resolve_left different)
    constructor
    · rw [Function.update_self, same]
    · intro zone
      rw [Function.update_self, same]
    · intro other elsewhere
      rw [Function.update_of_ne elsewhere]

theorem faithful_iff (s : ι → TimePattern) (i : Copy ι × ℤ) :
    Faithful s i ((copySystem ι).step s i) ↔ FindsVariation s i ((copySystem ι).step s i) := by
  obtain ⟨copy, leftover⟩ := i
  cases copy with
  | construct destination source new => exact faithful_update_iff .undefined new rfl
  | assign destination source =>
      by_cases self : destination = source
      · subst self
        have kept : (copySystem ι).step s (.assign destination destination, leftover) = s := by
          simp [copySystem, Copy.run]
        rw [kept]
        exact ⟨fun _ => .inl rfl, fun _ => ⟨rfl, fun _ => rfl, fun _ _ => rfl⟩⟩
      · refine faithful_update_iff (i := (.assign destination source, leftover)) (s destination)
          self ?_
        exact if_neg self

/-- In every run of copies, all of them are faithful exactly if each copy of an absolute time
to another pattern finds the variation in the storage. -/
theorem copies_faithful_iff (s : ι → TimePattern) (copies : List (Copy ι × ℤ)) :
    (copySystem ι).Each Faithful s copies ↔ (copySystem ι).Each FindsVariation s copies :=
  System.each_congr faithful_iff s copies

/-- A time with a variation of ten minutes is copied into storage that holds zeros. -/
theorem copy_loses_variation :
    ¬ ∀ (s : Bool → TimePattern) (copies : List (Copy Bool × ℤ)),
      (copySystem Bool).Each Faithful s copies := by
  intro always
  have faithful := (always (fun _ => .absolute ⟨⟨0⟩, seconds 600⟩)
    [(.construct true false (by decide), 0)]).1.copied
  exact absurd faithful (by decide)

end Hueplusplus.Time
