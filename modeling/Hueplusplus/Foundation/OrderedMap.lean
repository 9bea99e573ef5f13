import Mathlib.Data.List.Sort
import Mathlib.Order.Lattice

/-!
# Finite maps as association lists in key order

An `OrderedMap` lists its entries in strictly increasing key order, so it has
one representation only: two maps with the same lookups are equal. The list
operations come first, on plain association lists, because a recursive data type
can nest a list of its own values but not a list together with a proof about it.

Lookups are the interface. Every operation has one equation for `find?`, and
`OrderedMap.ext_find?` turns a pointwise argument into an equality of maps.
-/

namespace AssocList

variable {κ ν : Type*} [LinearOrder κ]

/-- Value of the first entry with key `k`. -/
def find? : List (κ × ν) → κ → Option ν
  | [], _ => none
  | (key, value) :: rest, k => if key = k then some value else find? rest k

/-- Replace the value at `k`, or add the entry at its place in the order. -/
def insert (k : κ) (v : ν) : List (κ × ν) → List (κ × ν)
  | [] => [(k, v)]
  | (key, value) :: rest =>
    if k < key then (k, v) :: (key, value) :: rest
    else if k = key then (k, v) :: rest
    else (key, value) :: insert k v rest

/-- Keys increase strictly along the list. -/
def Ordered (entries : List (κ × ν)) : Prop :=
  entries.Pairwise fun a b => a.1 < b.1

@[simp] theorem find?_nil (k : κ) : find? ([] : List (κ × ν)) k = none := rfl

@[simp] theorem find?_cons (entry : κ × ν) (rest : List (κ × ν)) (k : κ) :
    find? (entry :: rest) k = if entry.1 = k then some entry.2 else find? rest k := rfl

theorem find?_insert (k j : κ) (v : ν) (entries : List (κ × ν)) :
    find? (insert k v entries) j = if k = j then some v else find? entries j := by
  induction entries with
  | nil => rfl
  | cons entry rest ih =>
      obtain ⟨key, value⟩ := entry
      simp only [insert]
      split
      · rfl
      · split
        · rename_i _ same
          subst same
          simp only [find?_cons]
          split <;> rfl
        · rename_i _ different
          simp only [find?_cons, ih]
          split
          · rename_i hit
            subst hit
            rw [if_neg different]
          · rfl

theorem mem_of_find? {entries : List (κ × ν)} {k : κ} {v : ν}
    (h : find? entries k = some v) : (k, v) ∈ entries := by
  induction entries with
  | nil => simp at h
  | cons entry rest ih =>
      rw [find?_cons] at h
      split at h
      · rename_i hit
        subst hit
        simp only [Option.some.injEq] at h
        subst h
        exact List.mem_cons_self
      · exact List.mem_cons_of_mem _ (ih h)

theorem mem_insert {k : κ} {v : ν} {entries : List (κ × ν)} {entry : κ × ν}
    (h : entry ∈ insert k v entries) : entry = (k, v) ∨ entry ∈ entries := by
  induction entries with
  | nil => exact .inl (by simpa [insert] using h)
  | cons head rest ih =>
      simp only [insert] at h
      split at h
      · simpa using h
      · split at h
        · rcases List.mem_cons.mp h with h | h
          · exact .inl h
          · exact .inr (List.mem_cons_of_mem _ h)
        · rcases List.mem_cons.mp h with h | h
          · exact .inr (h ▸ List.mem_cons_self)
          · exact (ih h).imp_right (List.mem_cons_of_mem _)

namespace Ordered

variable {entries : List (κ × ν)}

theorem find?_of_mem (h : Ordered entries) {k : κ} {v : ν} (member : (k, v) ∈ entries) :
    find? entries k = some v := by
  induction entries with
  | nil => simp at member
  | cons entry rest ih =>
      obtain ⟨below, ordered⟩ := List.pairwise_cons.mp h
      rw [find?_cons]
      rcases List.mem_cons.mp member with rfl | member
      · exact if_pos rfl
      · rw [if_neg (ne_of_lt (below _ member))]
        exact ih ordered member

theorem find?_iff (h : Ordered entries) {k : κ} {v : ν} :
    find? entries k = some v ↔ (k, v) ∈ entries :=
  ⟨mem_of_find?, h.find?_of_mem⟩

theorem insert (h : Ordered entries) (k : κ) (v : ν) : Ordered (insert k v entries) := by
  induction entries with
  | nil => exact List.pairwise_singleton _ _
  | cons entry rest ih =>
      obtain ⟨below, ordered⟩ := List.pairwise_cons.mp h
      simp only [AssocList.insert]
      split
      · rename_i first
        refine List.pairwise_cons.mpr ⟨fun other member => ?_, h⟩
        rcases List.mem_cons.mp member with rfl | member
        · exact first
        · exact first.trans (below other member)
      · split
        · rename_i _ same
          exact List.pairwise_cons.mpr ⟨fun other member => same ▸ below other member, ordered⟩
        · rename_i notBefore different
          refine List.pairwise_cons.mpr ⟨fun other member => ?_, ih ordered⟩
          rcases mem_insert member with rfl | member
          · exact lt_of_le_of_ne (not_lt.mp notBefore) (Ne.symm different)
          · exact below other member

theorem filter (h : Ordered entries) (p : κ × ν → Bool) : Ordered (entries.filter p) :=
  List.Pairwise.filter p h

/-- An ordered list is determined by its lookups. -/
theorem ext {other : List (κ × ν)} (h : Ordered entries) (ho : Ordered other)
    (same : ∀ k, find? entries k = find? other k) : entries = other := by
  have nodup : ∀ {l : List (κ × ν)}, Ordered l → l.Nodup := fun hl =>
    hl.imp fun lt same => absurd (congrArg Prod.fst same) (ne_of_lt lt)
  have perm : entries.Perm other := by
    refine (List.perm_ext_iff_of_nodup (nodup h) (nodup ho)).mpr ?_
    rintro ⟨k, v⟩
    rw [← h.find?_iff, ← ho.find?_iff, same]
  exact List.Perm.eq_of_pairwise
    (fun a b _ _ ab ba => absurd ab (not_lt_of_gt ba)) h ho perm

end Ordered

end AssocList

/-- Association list in strictly increasing key order. -/
@[ext] structure OrderedMap (κ ν : Type*) [LinearOrder κ] where
  entries : List (κ × ν)
  ordered : AssocList.Ordered entries

namespace OrderedMap

variable {κ ν : Type*} [LinearOrder κ]

instance [DecidableEq ν] : DecidableEq (OrderedMap κ ν) := fun a b =>
  decidable_of_iff (a.entries = b.entries) (OrderedMap.ext_iff).symm

def find? (m : OrderedMap κ ν) (k : κ) : Option ν := AssocList.find? m.entries k

def contains (m : OrderedMap κ ν) (k : κ) : Bool := (m.find? k).isSome

def size (m : OrderedMap κ ν) : ℕ := m.entries.length

def empty : OrderedMap κ ν := ⟨[], List.Pairwise.nil⟩

def insert (m : OrderedMap κ ν) (k : κ) (v : ν) : OrderedMap κ ν :=
  ⟨AssocList.insert k v m.entries, m.ordered.insert k v⟩

/-- The entries that satisfy `p`. -/
def filter (m : OrderedMap κ ν) (p : κ → ν → Bool) : OrderedMap κ ν :=
  ⟨m.entries.filter fun entry => p entry.1 entry.2, m.ordered.filter _⟩

def erase (m : OrderedMap κ ν) (k : κ) : OrderedMap κ ν :=
  m.filter fun key _ => key ≠ k

/-- Write every entry of `top` into `m`, in key order. -/
def overlay (m top : OrderedMap κ ν) : OrderedMap κ ν :=
  top.entries.foldl (fun acc entry => acc.insert entry.1 entry.2) m

def ofList (entries : List (κ × ν)) : OrderedMap κ ν :=
  entries.foldl (fun acc entry => acc.insert entry.1 entry.2) empty

theorem ext_find? {a b : OrderedMap κ ν} (same : ∀ k, a.find? k = b.find? k) : a = b :=
  OrderedMap.ext (a.ordered.ext b.ordered same)

theorem find?_iff {m : OrderedMap κ ν} {k : κ} {v : ν} :
    m.find? k = some v ↔ (k, v) ∈ m.entries :=
  m.ordered.find?_iff

@[simp] theorem find?_empty (k : κ) : (empty : OrderedMap κ ν).find? k = none := rfl

theorem find?_insert (m : OrderedMap κ ν) (k j : κ) (v : ν) :
    (m.insert k v).find? j = if k = j then some v else m.find? j :=
  AssocList.find?_insert k j v m.entries

@[simp] theorem find?_insert_self (m : OrderedMap κ ν) (k : κ) (v : ν) :
    (m.insert k v).find? k = some v := by
  rw [find?_insert, if_pos rfl]

@[simp] theorem find?_insert_ne (m : OrderedMap κ ν) {k j : κ} (v : ν) (h : k ≠ j) :
    (m.insert k v).find? j = m.find? j := by
  rw [find?_insert, if_neg h]

@[simp] theorem find?_filter (m : OrderedMap κ ν) (p : κ → ν → Bool) (k : κ) :
    (m.filter p).find? k = (m.find? k).filter (p k) := by
  refine Option.ext fun v => ?_
  simp only [find?_iff, Option.filter_eq_some_iff]
  simp [filter, List.mem_filter]

@[simp] theorem find?_erase (m : OrderedMap κ ν) (k j : κ) :
    (m.erase k).find? j = if k = j then none else m.find? j := by
  rw [erase, find?_filter]
  by_cases same : k = j
  · subst same
    cases m.find? k <;> simp [Option.filter]
  · cases m.find? j <;> simp [Option.filter, same, Ne.symm same]

theorem find?_foldl_insert {entries : List (κ × ν)} (ordered : AssocList.Ordered entries)
    (m : OrderedMap κ ν) (k : κ) :
    (entries.foldl (fun acc entry => acc.insert entry.1 entry.2) m).find? k =
      (AssocList.find? entries k).or (m.find? k) := by
  induction entries generalizing m with
  | nil => rfl
  | cons entry rest ih =>
      obtain ⟨below, tail⟩ := List.pairwise_cons.mp ordered
      rw [List.foldl_cons, ih tail, AssocList.find?_cons, find?_insert]
      by_cases hit : entry.1 = k
      · subst hit
        have absent : AssocList.find? rest entry.1 = none := by
          refine Option.eq_none_iff_forall_ne_some.mpr fun v found => ?_
          exact lt_irrefl _ (below (entry.1, v) (AssocList.mem_of_find? found))
        rw [absent, if_pos rfl, if_pos rfl]
        rfl
      · rw [if_neg hit, if_neg hit]

/-- A value written by the overlay wins; the other keys keep theirs. -/
@[simp] theorem find?_overlay (m top : OrderedMap κ ν) (k : κ) :
    (m.overlay top).find? k = (top.find? k).or (m.find? k) :=
  find?_foldl_insert top.ordered m k

theorem contains_iff {m : OrderedMap κ ν} {k : κ} :
    m.contains k = true ↔ ∃ v, m.find? k = some v :=
  Option.isSome_iff_exists

theorem contains_eq_false_iff {m : OrderedMap κ ν} {k : κ} :
    m.contains k = false ↔ m.find? k = none := by
  simp [contains]

@[simp] theorem contains_insert (m : OrderedMap κ ν) (k j : κ) (v : ν) :
    (m.insert k v).contains j = (decide (k = j) || m.contains j) := by
  unfold contains
  rw [find?_insert]
  by_cases same : k = j <;> simp [same]

theorem contains_ofList_iff {entries : List (κ × ν)} {k : κ} :
    (ofList entries).contains k = true ↔ k ∈ entries.map Prod.fst := by
  have folded : ∀ m : OrderedMap κ ν,
      (entries.foldl (fun acc entry => acc.insert entry.1 entry.2) m).contains k = true ↔
        k ∈ entries.map Prod.fst ∨ m.contains k = true := by
    induction entries with
    | nil => simp
    | cons entry rest ih =>
        intro m
        rw [List.foldl_cons, ih, contains_insert]
        simp only [Bool.or_eq_true, decide_eq_true_eq, List.map_cons, List.mem_cons,
          eq_comm (a := k)]
        tauto
  rw [ofList, folded]
  simp [contains]

theorem mem_of_find?_ofList {entries : List (κ × ν)} {k : κ} {v : ν}
    (h : (ofList entries).find? k = some v) : (k, v) ∈ entries := by
  have folded : ∀ m : OrderedMap κ ν,
      (entries.foldl (fun acc entry => acc.insert entry.1 entry.2) m).find? k = some v →
        (k, v) ∈ entries ∨ m.find? k = some v := by
    clear h
    induction entries with
    | nil => exact fun m found => .inr found
    | cons entry rest ih =>
        intro m found
        rcases ih _ found with member | found
        · exact .inl (List.mem_cons_of_mem _ member)
        · rw [find?_insert] at found
          split at found
          · rename_i same
            refine .inl (List.mem_cons.mpr (.inl ?_))
            rw [← same, ← Option.some.inj found]
          · exact .inr found
  exact (folded empty h).resolve_right (by simp)

/-- A map has an entry outside `k` exactly when it is neither empty nor the
single entry `k`. -/
theorem exists_ne_key_iff (m : OrderedMap κ ν) (k : κ) :
    (∃ key v, m.find? key = some v ∧ key ≠ k) ↔
      ¬(m.size = 0) ∧ ¬(m.size = 1 ∧ m.contains k = true) := by
  obtain ⟨entries, ordered⟩ := m
  match entries, ordered with
  | [], _ => simp [find?, size]
  | [(key, v)], _ =>
      simp only [size, List.length_singleton, contains_iff, find?, AssocList.find?_cons,
        AssocList.find?_nil]
      constructor
      · rintro ⟨other, w, found, different⟩
        split at found
        · rename_i hit
          subst hit
          simp [different]
        · simp at found
      · rintro ⟨-, absent⟩
        refine ⟨key, v, by simp, fun same => absent ⟨trivial, v, by simp [same]⟩⟩
  | (first, v) :: (second, w) :: rest, ordered =>
      have distinct : first ≠ second :=
        ne_of_lt ((List.pairwise_cons.mp ordered).1 (second, w) List.mem_cons_self)
      refine iff_of_true ?_ (by simp [size])
      by_cases same : first = k
      · refine ⟨second, w, ?_, fun h => distinct (same.trans h.symm)⟩
        simp [find?, AssocList.find?_cons, distinct]
      · exact ⟨first, v, by simp [find?, AssocList.find?_cons], same⟩

theorem find?_foldl_erase (p : κ → ν → Bool) (entries : List (κ × ν)) (m : OrderedMap κ ν)
    (k : κ) :
    (entries.foldl (fun acc entry => if p entry.1 entry.2 then acc.erase entry.1 else acc)
      m).find? k =
      if entries.any (fun entry => decide (entry.1 = k) && p entry.1 entry.2) then none
      else m.find? k := by
  induction entries generalizing m with
  | nil => rfl
  | cons entry rest ih =>
      rw [List.foldl_cons, ih]
      by_cases later : rest.any (fun entry => decide (entry.1 = k) && p entry.1 entry.2) = true
      · rw [if_pos later, if_pos (by rw [List.any_cons, later, Bool.or_true])]
      · rw [if_neg later]
        by_cases drop : p entry.1 entry.2 = true
        · rw [if_pos drop, find?_erase]
          by_cases hit : entry.1 = k
          · subst hit
            rw [if_pos rfl, if_pos (by simp [drop])]
          · rw [if_neg hit, if_neg (by simpa [hit] using later)]
        · rw [if_neg drop, if_neg (by simpa [drop] using later)]

/-- Erasing, entry by entry, those that satisfy `p` is filtering by `¬ p`. -/
theorem foldl_erase_eq_filter (m : OrderedMap κ ν) (p : κ → ν → Bool) :
    m.entries.foldl (fun acc entry => if p entry.1 entry.2 then acc.erase entry.1 else acc) m =
      m.filter fun k v => !p k v := by
  refine ext_find? fun k => ?_
  rw [find?_foldl_erase, find?_filter]
  cases found : m.find? k with
  | none => simp
  | some v =>
      have only : m.entries.any (fun entry => decide (entry.1 = k) && p entry.1 entry.2) =
          p k v := by
        rw [Bool.eq_iff_iff, List.any_eq_true]
        constructor
        · rintro ⟨⟨key, w⟩, member, drop⟩
          simp only [Bool.and_eq_true, decide_eq_true_eq] at drop
          obtain ⟨rfl, drop⟩ := drop
          rw [← find?_iff, found, Option.some.injEq] at member
          exact member ▸ drop
        · exact fun drop => ⟨(k, v), find?_iff.mp found, by simpa using drop⟩
      rw [only]
      cases drop : p k v <;> simp [drop, Option.filter]

section Spellings

variable {α : Type*} (normal : α → κ)

/-- The latest value written under a spelling of this key, for the latest write first. -/
def latest (writes : List (α × ν)) (k : κ) : Option ν :=
  (writes.find? fun write => normal write.1 = k).map Prod.snd

/-- The map shows the latest values, under the normal forms of their keys. -/
def Shows (m : OrderedMap κ ν) (writes : List (α × ν)) : Prop :=
  ∀ k, m.find? k = latest normal writes k

variable {normal} {m : OrderedMap κ ν} {writes : List (α × ν)}

theorem Shows.insert (h : m.Shows normal writes) (a : α) (v : ν) :
    (m.insert (normal a) v).Shows normal ((a, v) :: writes) := by
  intro k
  rw [find?_insert, latest, List.find?_cons, h k]
  by_cases same : normal a = k <;> simp [same, latest]

end Spellings

end OrderedMap
