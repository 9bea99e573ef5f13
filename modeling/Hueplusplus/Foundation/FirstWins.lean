import Mathlib.Data.List.Forall2
import Mathlib.Data.List.Induction
import Mathlib.Data.List.Nodup

/-!
# The first entry wins

Items arrive one after the other, and some carry an entry with a key. An entry is appended
unless its key is there already. What has been kept is described by the positions of the
items it came from.
-/

namespace Hueplusplus

variable {κ ν : Type*} [DecidableEq κ]

/-- Append an entry unless its key is there. -/
def insertNew (entries : List (κ × ν)) (entry : κ × ν) : List (κ × ν) :=
  if entries.any fun item => item.1 = entry.1 then entries else entries ++ [entry]

/-- One item, with or without an entry. -/
def keepNew (entries : List (κ × ν)) : Option (κ × ν) → List (κ × ν)
  | some entry => insertNew entries entry
  | none => entries

omit [DecidableEq κ] in
/-- The item at this position carries the entry, and no item before it has the key. -/
def FirstItem (items : List (Option (κ × ν))) (i : ℕ) (entry : κ × ν) : Prop :=
  items[i]? = some (some entry) ∧
    ∀ j < i, ∀ value, items[j]? ≠ some (some (entry.1, value))

/-- Each key of an item is there once, with the entry of its first item, in the order of these
items. -/
structure FirstWins (items : List (Option (κ × ν))) (kept : List (κ × ν)) : Prop where
  nodup : (kept.map Prod.fst).Nodup
  mem_iff : ∀ key, key ∈ kept.map Prod.fst ↔ ∃ value, some (key, value) ∈ items
  ordered : ∃ positions : List ℕ, positions.Pairwise (· < ·) ∧
    List.Forall₂ (FirstItem items) positions kept

variable {items : List (Option (κ × ν))} {kept : List (κ × ν)}

theorem keepNew_of_mem {entry : κ × ν} (seen : entry.1 ∈ kept.map Prod.fst) :
    keepNew kept (some entry) = kept := by
  obtain ⟨item, member, same⟩ := List.mem_map.mp seen
  have found : (kept.any fun item => item.1 = entry.1) = true :=
    List.any_eq_true.mpr ⟨item, member, decide_eq_true same⟩
  rw [keepNew, insertNew, if_pos found]

theorem keepNew_of_notMem {entry : κ × ν} (new : entry.1 ∉ kept.map Prod.fst) :
    keepNew kept (some entry) = kept ++ [entry] := by
  have absent : ¬ (kept.any fun item => item.1 = entry.1) = true := by
    intro found
    obtain ⟨item, member, same⟩ := List.any_eq_true.mp found
    exact new (List.mem_map.mpr ⟨item, member, of_decide_eq_true same⟩)
  rw [keepNew, insertNew, if_neg absent]

omit [DecidableEq κ] in
theorem FirstItem.append {i : ℕ} {entry : κ × ν} (h : FirstItem items i entry)
    (more : List (Option (κ × ν))) : FirstItem (items ++ more) i entry := by
  obtain ⟨here, first⟩ := h
  have inside : i < items.length := (List.getElem?_eq_some_iff.mp here).1
  refine ⟨by rwa [List.getElem?_append_left inside], fun j before value => ?_⟩
  rw [List.getElem?_append_left (Nat.lt_trans before inside)]
  exact first j before value

namespace FirstWins

omit [DecidableEq κ]

theorem nil : FirstWins ([] : List (Option (κ × ν))) [] where
  nodup := List.nodup_nil
  mem_iff key := by simp
  ordered := ⟨[], List.Pairwise.nil, .nil⟩

/-- An item that carries nothing new. -/
theorem skip (h : FirstWins items kept) {item : Option (κ × ν)}
    (known : ∀ entry, item = some entry → entry.1 ∈ kept.map Prod.fst) :
    FirstWins (items ++ [item]) kept where
  nodup := h.nodup
  mem_iff key := by
    rw [h.mem_iff]
    constructor
    · rintro ⟨value, member⟩
      exact ⟨value, List.mem_append_left _ member⟩
    · rintro ⟨value, member⟩
      rcases List.mem_append.mp member with earlier | last
      · exact ⟨value, earlier⟩
      · exact (h.mem_iff key).mp (known (key, value) (List.mem_singleton.mp last).symm)
  ordered := by
    obtain ⟨positions, increasing, firsts⟩ := h.ordered
    exact ⟨positions, increasing, firsts.imp fun _ _ first => first.append [item]⟩

/-- An item with a new key. -/
theorem snoc (h : FirstWins items kept) {entry : κ × ν}
    (new : entry.1 ∉ kept.map Prod.fst) :
    FirstWins (items ++ [some entry]) (kept ++ [entry]) where
  nodup := by
    rw [List.map_append, List.map_singleton]
    exact h.nodup.append (List.nodup_singleton _) (List.disjoint_singleton.mpr new)
  mem_iff key := by
    rw [List.map_append, List.mem_append, h.mem_iff]
    constructor
    · rintro (⟨value, member⟩ | last)
      · exact ⟨value, List.mem_append_left _ member⟩
      · obtain rfl := List.mem_singleton.mp last
        exact ⟨entry.2, List.mem_append_right _ List.mem_cons_self⟩
    · rintro ⟨value, member⟩
      rcases List.mem_append.mp member with earlier | last
      · exact .inl ⟨value, earlier⟩
      · right
        rw [← Option.some.inj (List.mem_singleton.mp last)]
        exact List.mem_singleton_self _
  ordered := by
    obtain ⟨positions, increasing, firsts⟩ := h.ordered
    have inside : ∀ i ∈ positions, i < items.length :=
      ((List.forall₂_and_left _ _).mp (firsts.imp fun _ _ first =>
        ⟨(List.getElem?_eq_some_iff.mp first.1).1, first⟩)).1
    refine ⟨positions ++ [items.length], ?_, ?_⟩
    · refine List.pairwise_append.mpr ⟨increasing, List.pairwise_singleton _ _, ?_⟩
      intro i member j last
      rw [List.mem_singleton.mp last]
      exact inside i member
    · refine List.rel_append (firsts.imp fun _ _ first => first.append _) (.cons ?_ .nil)
      refine ⟨by simp, fun j before value here => new ((h.mem_iff _).mpr ⟨value, ?_⟩)⟩
      rw [List.getElem?_append_left before] at here
      exact List.mem_of_getElem? here

/-- What is kept comes from an item. -/
theorem mem_items (h : FirstWins items kept) {entry : κ × ν} (member : entry ∈ kept) :
    some entry ∈ items := by
  obtain ⟨positions, -, firsts⟩ := h.ordered
  obtain ⟨k, inside, rfl⟩ := List.getElem_of_mem member
  have first := (List.forall₂_iff_get.mp firsts).2 k (firsts.length_eq ▸ inside) inside
  exact List.mem_of_getElem? first.1

end FirstWins

theorem firstWins_foldl (items : List (Option (κ × ν))) :
    FirstWins items (items.foldl keepNew []) := by
  induction items using List.reverseRecOn with
  | nil => exact .nil
  | append_singleton items item ih =>
      rw [List.foldl_append, List.foldl_cons, List.foldl_nil]
      cases item with
      | none => exact ih.skip nofun
      | some entry =>
          by_cases seen : entry.1 ∈ (items.foldl keepNew []).map Prod.fst
          · rw [keepNew_of_mem seen]
            refine ih.skip fun other same => ?_
            rwa [← Option.some.inj same]
          · rw [keepNew_of_notMem seen]
            exact ih.snoc seen

end Hueplusplus
