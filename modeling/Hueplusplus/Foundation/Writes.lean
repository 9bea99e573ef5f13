import Hueplusplus.Foundation.Except
import Hueplusplus.Foundation.OrderedMap
import Mathlib.Data.List.Induction

/-!
# Values written one after the other

Writes to a map are a list of entries. A key then has the value of its last write, and what
calls of an interface write to it is the argument of the last call that is about it.

A map whose keys are spelled in another type is itself such a list of writes. Its entries are in
the order of the spellings; reading the spellings back gives the map again, since no two keys
share one.
-/

namespace AssocList

variable {κ ν : Type*} [LinearOrder κ]

theorem find?_append (first second : List (κ × ν)) (k : κ) :
    find? (first ++ second) k = (find? first k).or (find? second k) := by
  induction first with
  | nil => rfl
  | cons entry rest ih =>
      rw [List.cons_append, find?_cons, find?_cons, ih]
      split <;> rfl

/-- The value of the first entry of a key is the value that all its entries have. -/
theorem find?_eq_some_of_forall {entries : List (κ × ν)} {k : κ} {v : ν}
    (member : (k, v) ∈ entries) (unique : ∀ w, (k, w) ∈ entries → w = v) :
    find? entries k = some v := by
  cases found : find? entries k with
  | some w => rw [unique w (mem_of_find? found)]
  | none =>
      induction entries with
      | nil => cases member
      | cons entry rest ih =>
          rw [find?_cons] at found
          split at found
          · cases found
          · rename_i other
            rcases List.mem_cons.mp member with rfl | later
            · exact absurd rfl other
            · exact ih later (fun w h => unique w (List.mem_cons_of_mem _ h)) found

/-- The value that the last of these writes gives to a key. -/
def lastWrite (writes : List (κ × ν)) (k : κ) : Option ν := find? writes.reverse k

/-- The entries after these writes. -/
def writeAll (entries writes : List (κ × ν)) : List (κ × ν) :=
  writes.foldl (fun acc write => insert write.1 write.2 acc) entries

theorem lastWrite_append (first second : List (κ × ν)) (k : κ) :
    lastWrite (first ++ second) k = (lastWrite second k).or (lastWrite first k) := by
  rw [lastWrite, List.reverse_append, find?_append]
  rfl

@[simp] theorem find?_writeAll (entries writes : List (κ × ν)) (k : κ) :
    find? (writeAll entries writes) k = (lastWrite writes k).or (find? entries k) := by
  induction writes using List.reverseRecOn with
  | nil => rfl
  | append_singleton writes write ih =>
      have last : lastWrite [write] k = if write.1 = k then some write.2 else none := rfl
      rw [writeAll, List.foldl_append, List.foldl_cons, List.foldl_nil, find?_insert, ← writeAll,
        ih,
        lastWrite_append, last]
      split <;> rfl

theorem mem_of_mem_writeAll {entries writes : List (κ × ν)} {entry : κ × ν}
    (member : entry ∈ writeAll entries writes) : entry ∈ entries ∨ entry ∈ writes := by
  induction writes generalizing entries with
  | nil => exact .inl member
  | cons write writes ih =>
      rcases ih member with early | late
      · rcases mem_insert early with rfl | before
        · exact .inr List.mem_cons_self
        · exact .inl before
      · exact .inr (List.mem_cons_of_mem _ late)

section Values

variable {μ : Type*}

/-- The same keys with other values. -/
def mapValues (f : ν → μ) (entries : List (κ × ν)) : List (κ × μ) :=
  entries.map fun entry => (entry.1, f entry.2)

theorem mapValues_insert (f : ν → μ) (k : κ) (v : ν) (entries : List (κ × ν)) :
    mapValues f (insert k v entries) = insert k (f v) (mapValues f entries) := by
  induction entries with
  | nil => rfl
  | cons entry rest ih =>
      simp only [mapValues, List.map_cons, insert] at ih ⊢
      split
      · rfl
      · split
        · rfl
        · rw [List.map_cons, ih]

theorem mapValues_writeAll (f : ν → μ) (entries writes : List (κ × ν)) :
    mapValues f (writeAll entries writes) =
      writeAll (mapValues f entries) (mapValues f writes) := by
  induction writes generalizing entries with
  | nil => rfl
  | cons write writes ih =>
      have step := ih (insert write.1 write.2 entries)
      rw [mapValues_insert] at step
      exact step

end Values

/-- A new key splits the entries where it belongs. -/
theorem insert_of_fresh {κ ν : Type} [LinearOrder κ] {k : κ} {entries : List (κ × ν)}
    (fresh : ∀ entry ∈ entries, entry.1 ≠ k) (v : ν) :
    ∃ before after, entries = before ++ after ∧ insert k v entries = before ++ (k, v) :: after := by
  induction entries with
  | nil => exact ⟨[], [], rfl, rfl⟩
  | cons entry rest ih =>
      obtain ⟨before, after, split, inserted⟩ := ih fun other member =>
        fresh other (List.mem_cons_of_mem entry member)
      simp only [insert]
      split_ifs with less same
      · exact ⟨[], entry :: rest, rfl, rfl⟩
      · exact absurd same.symm (fresh entry List.mem_cons_self)
      · exact ⟨entry :: before, after, by rw [split]; rfl, by rw [inserted]; rfl⟩

section Calls

variable {γ α : Type*} {writes : γ → List (κ × ν)}

/-- The argument of the last call that is about something. -/
def lastCall (about : γ → Option α) (calls : List γ) : Option α :=
  (calls.filterMap about).getLast?

/-- Calls that write an argument of theirs to a key write that of the last one. -/
theorem lastWrite_flatMap {about : γ → Option α} {value : α → ν} {k : κ}
    (one : ∀ call, lastWrite (writes call) k = (about call).map value) (calls : List γ) :
    lastWrite (calls.flatMap writes) k = (lastCall about calls).map value := by
  induction calls using List.reverseRecOn with
  | nil => rfl
  | append_singleton calls call ih =>
      rw [List.flatMap_append, List.flatMap_singleton, lastWrite_append, one, ih, lastCall,
        lastCall,
        List.filterMap_append, List.getLast?_append, List.filterMap_cons, List.filterMap_nil]
      cases about call <;> rfl

end Calls

end AssocList

namespace OrderedMap

section Respell

variable {κ κ' ν ε : Type} [LinearOrder κ]

/-- `emplace`: a value that is there stays. -/
def emplace (m : OrderedMap κ ν) (k : κ) (v : ν) : OrderedMap κ ν :=
  if m.contains k then m else m.insert k v

/-- The map of entries whose keys have to be read. -/
def readKeys (read : κ' → Except ε κ) (entries : List (κ' × ν)) : Except ε (OrderedMap κ ν) :=
  entries.foldlM (fun m entry => do return m.emplace (← read entry.1) entry.2) empty

variable {read : κ' → Except ε κ}

theorem find?_emplace (m : OrderedMap κ ν) (k j : κ) (v : ν) :
    (m.emplace k v).find? j = (m.find? j).or (if k = j then some v else none) := by
  rw [emplace]
  by_cases contained : m.contains k = true
  · obtain ⟨w, found⟩ := contains_iff.mp contained
    rw [if_pos contained]
    by_cases same : k = j
    · rw [← same, found, Option.some_or]
    · rw [if_neg same, Option.or_none]
  · rw [if_neg contained, find?_insert]
    by_cases same : k = j
    · rw [← same, if_pos rfl, contains_eq_false_iff.mp (Bool.not_eq_true _ ▸ contained),
        if_pos rfl, Option.none_or]
    · rw [if_neg same, if_neg same, Option.or_none]

/-- The value of an entry whose key is read as `k`. -/
def valueAt (read : κ' → Except ε κ) (k : κ) (entry : κ' × ν) : Option ν :=
  match read entry.1 with
  | .ok key => if key = k then some entry.2 else none
  | .error _ => none

/-- Every entry is read, and of those with one key the first one stays. -/
theorem readKeys_eq_ok {entries : List (κ' × ν)}
    (reads : ∀ entry ∈ entries, ∃ k, read entry.1 = .ok k) :
    ∃ m, readKeys read entries = .ok m ∧ ∀ k, m.find? k = entries.findSome? (valueAt read k) := by
  induction entries using List.reverseRecOn with
  | nil => exact ⟨empty, rfl, fun _ => rfl⟩
  | append_singleton entries entry ih =>
      obtain ⟨m, ran, found⟩ := ih fun earlier member =>
        reads earlier (List.mem_append_left [entry] member)
      obtain ⟨key, last⟩ := reads entry (List.mem_append_right entries List.mem_cons_self)
      refine ⟨m.emplace key entry.2, ?_, fun k => ?_⟩
      · rw [readKeys, List.foldlM_append, ← readKeys, ran, Except.ok_bind, List.foldlM_cons, last]
        rfl
      · have one : [entry].findSome? (valueAt read k) = if key = k then some entry.2 else none := by
          rw [List.findSome?_singleton, valueAt, last]
        rw [find?_emplace, found, List.findSome?_append, one]

variable [LinearOrder κ'] {spell : κ → κ'} {m : OrderedMap κ ν}

/-- The entries of the map, written under the spellings of their keys. -/
def respell (spell : κ → κ') (m : OrderedMap κ ν) : List (κ' × ν) :=
  AssocList.writeAll [] (m.entries.map fun entry => (spell entry.1, entry.2))

theorem mem_of_mem_respell {s : κ'} {v : ν} (member : (s, v) ∈ m.respell spell) :
    ∃ k, spell k = s ∧ (k, v) ∈ m.entries := by
  rcases AssocList.mem_of_mem_writeAll member with none | written
  · cases none
  · obtain ⟨⟨k, w⟩, inside, same⟩ := List.mem_map.mp written
    obtain ⟨rfl, rfl⟩ := Prod.mk.inj same
    exact ⟨k, rfl, inside⟩

/-- A spelling that can be read is that of one key only, so its value is the key's. -/
theorem find?_respell (reads : ∀ k v, (k, v) ∈ m.entries → read (spell k) = .ok k) {k : κ} {v : ν}
    (member : (k, v) ∈ m.entries) : AssocList.find? (m.respell spell) (spell k) = some v := by
  rw [respell, AssocList.find?_writeAll, AssocList.find?_nil, Option.or_none, AssocList.lastWrite]
  apply AssocList.find?_eq_some_of_forall
  · exact List.mem_reverse.mpr (List.mem_map.mpr ⟨(k, v), member, rfl⟩)
  · intro w h
    obtain ⟨⟨k', w'⟩, inside, same⟩ := List.mem_map.mp (List.mem_reverse.mp h)
    obtain ⟨spelled, rfl⟩ := Prod.mk.inj same
    have key := reads k' w' inside
    rw [show spell k' = spell k from spelled, reads k v member] at key
    obtain rfl := Except.ok.inj key
    exact Option.some.inj ((find?_iff.mpr inside).symm.trans (find?_iff.mpr member))

/-- What is written under spellings is read back. -/
theorem readKeys_respell (reads : ∀ k v, (k, v) ∈ m.entries → read (spell k) = .ok k) :
    readKeys read (m.respell spell) = .ok m := by
  have key (entry : κ' × ν) (member : entry ∈ m.respell spell) :
      ∃ k, read entry.1 = .ok k ∧ (k, entry.2) ∈ m.entries := by
    obtain ⟨k, spelled, inside⟩ := mem_of_mem_respell member
    exact ⟨k, spelled ▸ reads k entry.2 inside, inside⟩
  obtain ⟨m', ran, found⟩ := readKeys_eq_ok fun entry member =>
    (key entry member).imp fun _ => And.left
  suffices m' = m from this ▸ ran
  have shown {k : κ} {w : ν} {entry : κ' × ν} (member : entry ∈ m.respell spell)
      (value : valueAt read k entry = some w) : m.find? k = some w := by
    obtain ⟨k', read', inside⟩ := key entry member
    rw [valueAt, read'] at value
    obtain ⟨rfl, rfl⟩ : k' = k ∧ entry.2 = w := by simpa using value
    exact find?_iff.mpr inside
  refine ext_find? fun k => ?_
  rw [found]
  cases there : (m.respell spell).findSome? (valueAt read k) with
  | some w =>
      obtain ⟨entry, member, value⟩ := List.exists_of_findSome?_eq_some there
      exact (shown member value).symm
  | none =>
      symm
      refine Option.eq_none_iff_forall_ne_some.mpr fun v here => ?_
      have inside := find?_iff.mp here
      have written := AssocList.mem_of_find? (find?_respell reads inside)
      have silent := List.findSome?_eq_none_iff.mp there _ written
      rw [valueAt, reads k v inside] at silent
      exact absurd silent (by simp)

end Respell

end OrderedMap
