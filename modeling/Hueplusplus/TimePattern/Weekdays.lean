import Hueplusplus.Foundation.BitMask
import Hueplusplus.TimePattern.RoundTrip
import Mathlib.Data.Int.Bitwise

/-!
# Sets of weekdays

`Weekdays` are the bits of an `int`, of which the static functions set one, none or all, and
`unionWith` joins two. So what is built in this way is a set of days. The queries and comparisons
tell about the set, and a time pattern with these days is read back with the same set.
-/

namespace Hueplusplus.Time

open BitMask

namespace Weekdays

/-- The constructor for a day, from Monday (0) to Sunday (6). -/
def ofDay (num : ℕ) : Weekdays := ⟨(1 <<< num : ℕ)⟩

def none : Weekdays := ⟨0⟩
def monday : Weekdays := ofDay 0
def tuesday : Weekdays := ofDay 1
def wednesday : Weekdays := ofDay 2
def thursday : Weekdays := ofDay 3
def friday : Weekdays := ofDay 4
def saturday : Weekdays := ofDay 5
def sunday : Weekdays := ofDay 6

def unionWith (w other : Weekdays) : Weekdays := ⟨Int.lor other.bitmask w.bitmask⟩

/-- Whether the `int` has a bit in common with this one. -/
def hasBit (w : Weekdays) (bit : ℤ) : Bool := Int.land w.bitmask bit ≠ 0

def isNone (w : Weekdays) : Bool := w.bitmask = 0
def isMonday (w : Weekdays) : Bool := w.hasBit 1
def isTuesday (w : Weekdays) : Bool := w.hasBit 2
def isWednesday (w : Weekdays) : Bool := w.hasBit 4
def isThursday (w : Weekdays) : Bool := w.hasBit 8
def isFriday (w : Weekdays) : Bool := w.hasBit 16
def isSaturday (w : Weekdays) : Bool := w.hasBit 32
def isSunday (w : Weekdays) : Bool := w.hasBit 64

/-- The query for a day. -/
def contains (w : Weekdays) : Fin 7 → Bool
  | 0 => w.isMonday
  | 1 => w.isTuesday
  | 2 => w.isWednesday
  | 3 => w.isThursday
  | 4 => w.isFriday
  | 5 => w.isSaturday
  | 6 => w.isSunday

/-- What can be written with the functions of the class. -/
inductive Build where
  | none
  | all
  | monday
  | tuesday
  | wednesday
  | thursday
  | friday
  | saturday
  | sunday
  | unionWith (first second : Build)

namespace Build

def run : Build → Weekdays
  | none => Weekdays.none
  | all => Weekdays.all
  | monday => Weekdays.monday
  | tuesday => Weekdays.tuesday
  | wednesday => Weekdays.wednesday
  | thursday => Weekdays.thursday
  | friday => Weekdays.friday
  | saturday => Weekdays.saturday
  | sunday => Weekdays.sunday
  | unionWith first second => first.run.unionWith second.run

/-- The days that are meant. -/
def days : Build → Finset (Fin 7)
  | none => ∅
  | all => Finset.univ
  | monday => {0}
  | tuesday => {1}
  | wednesday => {2}
  | thursday => {3}
  | friday => {4}
  | saturday => {5}
  | sunday => {6}
  | unionWith first second => first.days ∪ second.days

end Build

/-- The bits are those of the days. -/
def IsSet (w : Weekdays) (days : Finset (Fin 7)) : Prop :=
  ∃ mask : ℕ, w.bitmask = mask ∧ Encodes mask days

namespace IsSet

variable {w w' : Weekdays} {days days' : Finset (Fin 7)}

theorem ofDay (num : Fin 7) : (ofDay num).IsSet {num} :=
  ⟨_, rfl, encodes_singleton num⟩

theorem unionWith (first : w.IsSet days) (second : w'.IsSet days') :
    (w.unionWith w').IsSet (days ∪ days') := by
  obtain ⟨mask, same, encodes⟩ := first
  obtain ⟨mask', same', encodes'⟩ := second
  refine ⟨mask' ||| mask, ?_, Finset.union_comm days' days ▸ encodes'.union encodes⟩
  rw [Weekdays.unionWith, same, same']
  rfl

theorem eq_iff (first : w.IsSet days) (second : w'.IsSet days') : w = w' ↔ days = days' := by
  obtain ⟨mask, same, encodes⟩ := first
  obtain ⟨mask', same', encodes'⟩ := second
  rw [← encodes.eq_iff encodes', ← Int.natCast_inj, ← same, ← same']
  exact Weekdays.mk.injEq _ _ ▸ Iff.rfl

theorem valid (isSet : w.IsSet days) : w.Valid := by
  obtain ⟨mask, same, encodes⟩ := isSet
  have lt := encodes.lt
  constructor <;> omega

theorem contains_eq (isSet : w.IsSet days) (day : Fin 7) :
    w.contains day = decide (day ∈ days) := by
  obtain ⟨mask, same, encodes⟩ := isSet
  have bit : ∀ day : Fin 7, w.hasBit ((2 ^ (day : ℕ) : ℕ) : ℤ) = decide (day ∈ days) := by
    intro day
    have and_eq : Int.land mask ((2 ^ (day : ℕ) : ℕ) : ℤ) = (mask &&& 2 ^ (day : ℕ) : ℕ) := rfl
    rw [hasBit, same, and_eq, decide_eq_decide, ← encodes.and_ne_zero_iff day]
    exact not_congr Int.natCast_eq_zero
  exact match day with
    | 0 => bit 0
    | 1 => bit 1
    | 2 => bit 2
    | 3 => bit 3
    | 4 => bit 4
    | 5 => bit 5
    | 6 => bit 6

end IsSet

theorem Build.isSet_run (build : Build) : build.run.IsSet build.days := by
  induction build with
  | none => exact ⟨0, rfl, encodes_empty⟩
  | all => exact ⟨2 ^ 7 - 1, rfl, encodes_univ⟩
  | monday => exact IsSet.ofDay 0
  | tuesday => exact IsSet.ofDay 1
  | wednesday => exact IsSet.ofDay 2
  | thursday => exact IsSet.ofDay 3
  | friday => exact IsSet.ofDay 4
  | saturday => exact IsSet.ofDay 5
  | sunday => exact IsSet.ofDay 6
  | unionWith first second ih ih' => exact ih.unionWith ih'

/-- What is built is the set of the days that are meant: the queries and comparisons tell it, and a
recurring time or an interval with these days is read back. -/
theorem days_read_back (zone : TimeZone) (build : Build) :
    (∀ day, build.run.contains day = decide (day ∈ build.days)) ∧
    build.run.isNone = decide (build.days = ∅) ∧
    build.run.isAll = decide (build.days = Finset.univ) ∧
    (∀ other : Build, build.run = other.run ↔ build.days = other.days) ∧
    (∀ time variation, WholeSeconds time → WholeSeconds variation →
      ((RecurringTime.mk time build.run variation).toString >>= TimePattern.parse zone) =
        .ok (.recurring ⟨time, build.run, variation⟩)) ∧
    ∀ startTime endTime, WholeSeconds startTime → WholeSeconds endTime →
      ((TimeInterval.mk startTime endTime build.run).toString >>= TimePattern.parse zone) =
        .ok (.interval ⟨startTime, endTime, build.run⟩) := by
  have isSet := build.isSet_run
  refine ⟨isSet.contains_eq, ?_, ?_, fun other => isSet.eq_iff other.isSet_run, ?_, ?_⟩
  · have empty : (none : Weekdays).IsSet ∅ := Build.none.isSet_run
    rw [isNone, decide_eq_decide, ← isSet.eq_iff empty]
    exact (Weekdays.mk.injEq _ _ ▸ Iff.rfl : build.run = none ↔ build.run.bitmask = 0).symm
  · have full : (all : Weekdays).IsSet Finset.univ := Build.all.isSet_run
    rw [isAll, decide_eq_decide, ← isSet.eq_iff full]
    exact (Weekdays.mk.injEq _ _ ▸ Iff.rfl : build.run = all ↔ build.run.bitmask = 2 ^ 7 - 1).symm
  · intro time variation whole whole'
    exact TimePattern.recurring_roundTrip zone isSet.valid whole whole'
  · intro startTime endTime whole whole'
    exact TimePattern.interval_roundTrip zone isSet.valid whole whole'

theorem days_read_back_weekend :
    ((RecurringTime.mk (hours 8) (Build.unionWith .saturday .sunday).run 0).toString >>=
      TimePattern.parse utc) = .ok (.recurring ⟨hours 8, ⟨96⟩, 0⟩) :=
  (days_read_back utc (.unionWith .saturday .sunday)).2.2.2.2.1 (hours 8) 0
    ⟨28800, by decide, rfl⟩ ⟨0, by decide, rfl⟩

end Weekdays

end Hueplusplus.Time
