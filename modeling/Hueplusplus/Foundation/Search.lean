import Hueplusplus.Foundation.Text
import Mathlib.Data.List.Infix
import Mathlib.Data.Nat.Find

/-!
# Searching a text

A search gives the position of the first occurrence of a pattern, or nothing instead of
`npos`. What stands before and after that occurrence is determined by the text, so a search is
used through the two pieces it leaves.
-/

namespace Hueplusplus

/-- The pattern occurs in the list for the first time between these two pieces. -/
structure FirstAt {α : Type*} (pattern s before after : List α) : Prop where
  split : s = before ++ (pattern ++ after)
  first : ∀ before' after', s = before' ++ (pattern ++ after') → before.length ≤ before'.length

section Lists

variable {α : Type*} {pattern s before after : List α}

theorem FirstAt.occurs (h : FirstAt pattern s before after) : pattern <:+: s :=
  ⟨before, after, by rw [h.split, List.append_assoc]⟩

/-- What stands before the first occurrence is without the pattern. -/
theorem FirstAt.absent (h : FirstAt pattern s before after) (nonempty : pattern ≠ []) :
    ¬ pattern <:+: before := by
  rintro ⟨front, back, same⟩
  have earlier := h.first front (back ++ (pattern ++ after)) (by rw [h.split, ← same]; simp)
  have length := congrArg List.length same
  have positive := List.length_pos_iff.mpr nonempty
  simp only [List.length_append] at length
  omega

/-- Whatever occurs in a list occurs for the first time somewhere. -/
theorem exists_firstAt (occurs : pattern <:+: s) :
    ∃ before after, FirstAt pattern s before after := by
  classical
  have somewhere : ∃ n before after, s = before ++ (pattern ++ after) ∧ before.length = n := by
    obtain ⟨before, after, split⟩ := occurs
    exact ⟨_, before, after, by rw [← split, List.append_assoc], rfl⟩
  obtain ⟨before, after, split, length⟩ := Nat.find_spec somewhere
  refine ⟨before, after, split, fun before' after' other => ?_⟩
  rw [length]
  exact Nat.find_min' somewhere ⟨before', after', other, rfl⟩

theorem FirstAt.length_after_lt (h : FirstAt pattern s before after) (nonempty : pattern ≠ []) :
    after.length < s.length := by
  have positive := List.length_pos_iff.mpr nonempty
  rw [h.split, List.length_append, List.length_append]
  omega

theorem FirstAt.drop_length (h : FirstAt pattern s before after) :
    s.drop (before.length + pattern.length) = after := by
  rw [h.split, ← List.append_assoc]
  exact List.drop_left' List.length_append

theorem FirstAt.before_subset (h : FirstAt pattern s before after) : before ⊆ s := by
  rw [h.split]
  exact List.subset_append_left _ _

theorem FirstAt.after_subset (h : FirstAt pattern s before after) : after ⊆ s := by
  rw [h.split]
  exact List.subset_append_of_subset_right _ (List.subset_append_right _ _)

/-- A pattern occurs for the first time where its first element does. -/
theorem firstAt_of_notMem {a : α} {tail : List α} (absent : a ∉ before) :
    FirstAt (a :: tail) (before ++ (a :: tail ++ after)) before after := by
  refine ⟨rfl, fun before' after' other => ?_⟩
  by_contra longer
  have inside : before' <+: before :=
    List.prefix_of_prefix_length_le ⟨_, other.symm⟩ ⟨_, rfl⟩ (by omega)
  obtain ⟨rest, rfl⟩ := inside
  cases rest with
  | nil => exact longer (by simp)
  | cons b rest =>
      rw [List.append_assoc, List.append_cancel_left_eq, List.cons_append, List.cons_append,
        List.cons_append, List.cons.injEq] at other
      exact absent (by simp [other.1])

/-- An element occurs for the first time where the elements before it are others. -/
theorem firstAt_singleton {a : α} (absent : a ∉ before) :
    FirstAt [a] (before ++ a :: after) before after :=
  firstAt_of_notMem absent

variable [BEq α] [LawfulBEq α]

theorem dropInfix?_eq_some_iff :
    s.dropInfix? pattern = some (before, after) ↔ FirstAt pattern s before after := by
  simp only [List.dropInfix?_eq_some_iff, beq_iff_eq, exists_eq_right, List.append_assoc]
  constructor
  · rintro ⟨split, first⟩
    exact ⟨split, fun before' after' other => first before' pattern after' other rfl⟩
  · rintro ⟨split, first⟩
    refine ⟨split, ?_⟩
    rintro before' _ after' other rfl
    exact first before' after' other

theorem FirstAt.unique {before' after' : List α} (h : FirstAt pattern s before after)
    (h' : FirstAt pattern s before' after') : before = before' ∧ after = after' := by
  have same := (dropInfix?_eq_some_iff.mpr h).symm.trans (dropInfix?_eq_some_iff.mpr h')
  exact Prod.mk.inj (Option.some.inj same)

theorem dropInfix?_eq_none_iff : s.dropInfix? pattern = none ↔ ¬ pattern <:+: s := by
  constructor
  · intro none occurs
    obtain ⟨before, after, h⟩ := exists_firstAt occurs
    rw [dropInfix?_eq_some_iff.mpr h] at none
    exact nomatch none
  · intro absent
    cases found : s.dropInfix? pattern with
    | none => rfl
    | some pieces => exact absurd (dropInfix?_eq_some_iff.mp found).occurs absent

end Lists

namespace Text

variable {pattern s before after : Text}

/-- `s.find(pattern, pos)`, for a pattern that is not empty. -/
def search (s pattern : Text) (pos : ℕ) : Option ℕ :=
  ((s.drop pos).dropInfix? pattern).map fun pieces => pos + pieces.1.length

theorem search_of_firstAt {pos : ℕ} (h : FirstAt pattern (s.drop pos) before after) :
    s.search pattern pos = some (pos + before.length) := by
  rw [search, dropInfix?_eq_some_iff.mpr h]
  rfl

theorem search_eq_none_iff {pos : ℕ} :
    s.search pattern pos = none ↔ ¬ pattern <:+: s.drop pos := by
  rw [search, Option.map_eq_none_iff, dropInfix?_eq_none_iff]

/-- What is found lies behind the position and within the text. -/
theorem search_bounds {pos found : ℕ} (nonempty : pattern ≠ [])
    (h : s.search pattern pos = some found) : pos ≤ found ∧ found < s.length := by
  rw [search, Option.map_eq_some_iff] at h
  obtain ⟨⟨before, after⟩, pieces, rfl⟩ := h
  have length := congrArg List.length (dropInfix?_eq_some_iff.mp pieces).split
  have positive := List.length_pos_iff.mpr nonempty
  simp only [List.length_drop, List.length_append] at length
  dsimp only
  omega

/-- A search from the start. -/
theorem search_zero_of_firstAt (h : FirstAt pattern s before after) :
    s.search pattern 0 = some before.length := by
  rw [@search_of_firstAt pattern s before after 0 h, Nat.zero_add]

theorem search_zero_eq_none_iff : s.search pattern 0 = none ↔ ¬ pattern <:+: s :=
  search_eq_none_iff

section Throwing

variable {ε : Type} [LogicErrors ε]

/-- `s.substr(start, s.find(pattern, start) - start)`. The count is past the end of the text if
the search fails. -/
def upTo (s : Text) (start : ℕ) (pattern : Text) : Except ε Text :=
  match s.search pattern start with
  | some found => s.substr start (found - start)
  | none => s.suffix start

theorem upTo_of_length_lt {start : ℕ} (outside : s.length < start) (pattern : Text) :
    s.upTo start pattern =
      (.error (LogicErrors.outOfRange "basic_string::substr") : Except ε Text) := by
  unfold upTo
  split <;> simp [substr, suffix, outside]

/-- A text within which the pattern is found. -/
theorem upTo_of_firstAt {start : ℕ} (inside : start ≤ s.length)
    (h : FirstAt pattern (s.drop start) before after) :
    s.upTo start pattern = (.ok before : Except ε Text) := by
  simp only [upTo, search_of_firstAt h]
  exact substr_of_drop inside h.split (by omega)

theorem upTo_of_absent {start : ℕ} (inside : start ≤ s.length)
    (absent : ¬ pattern <:+: s.drop start) :
    s.upTo start pattern = (.ok (s.drop start) : Except ε Text) := by
  simp only [upTo, search_eq_none_iff.mpr absent, suffix, if_neg (Nat.not_lt.mpr inside)]

theorem exists_upTo {start : ℕ} (inside : start ≤ s.length) (pattern : Text) :
    ∃ piece, s.upTo start pattern = (.ok piece : Except ε Text) := by
  by_cases occurs : pattern <:+: s.drop start
  · obtain ⟨before, after, h⟩ := exists_firstAt occurs
    exact ⟨before, upTo_of_firstAt inside h⟩
  · exact ⟨_, upTo_of_absent inside occurs⟩

/-- Up to a character, or to the end. -/
theorem upTo_singleton {start : ℕ} (inside : start ≤ s.length) (c : Char) :
    s.upTo start [c] = (.ok ((s.drop start).takeWhile (· ≠ c)) : Except ε Text) := by
  by_cases member : c ∈ s.drop start
  · obtain ⟨before, after, split, absent⟩ := List.eq_append_cons_of_mem member
    have others : ∀ d ∈ before, decide (d ≠ c) = true := fun d inside =>
      decide_eq_true fun same => absent (same ▸ inside)
    have ends : (c :: after).takeWhile (· ≠ c) = [] := by simp
    rw [upTo_of_firstAt inside (split ▸ firstAt_singleton absent), split,
      List.takeWhile_append_of_pos others, ends, List.append_nil]
  · have others : ∀ d ∈ s.drop start, decide (d ≠ c) = true := fun d inside =>
      decide_eq_true fun same => member (same ▸ inside)
    rw [upTo_of_absent inside (mt (List.singleton_infix_iff c _).mp member),
      List.takeWhile_eq_self_iff.mpr others]

end Throwing

end Text

end Hueplusplus
