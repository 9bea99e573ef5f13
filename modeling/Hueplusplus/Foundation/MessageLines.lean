import Hueplusplus.Foundation.Search

/-!
# Messages of lines

The lines of a message are joined by line ends, and a message ends with an empty line. What a
line says is found by a search for the name it starts with. Neither search finds anything across
the end of a line.
-/

namespace Hueplusplus

section Lists

variable {α : Type*} {pattern s before after front : List α} {a : α}

/-- A pattern that does not begin in the front occurs for the first time where it does behind. -/
theorem FirstAt.append_left (h : FirstAt pattern s before after)
    (later : ∀ before' after', front ++ s = before' ++ (pattern ++ after') →
      front.length ≤ before'.length) :
    FirstAt pattern (front ++ s) (front ++ before) after where
  split := by rw [h.split, List.append_assoc]
  first before' after' other := by
    obtain ⟨rest, rfl⟩ : front <+: before' :=
      List.prefix_of_prefix_length_le ⟨_, rfl⟩ ⟨_, other.symm⟩ (later _ _ other)
    rw [List.append_assoc, List.append_cancel_left_eq] at other
    rw [List.length_append, List.length_append]
    exact Nat.add_le_add_left (h.first _ _ other) _

section Across

variable (different : a ∉ pattern) (nonempty : pattern ≠ []) (absent : ¬ pattern <:+: front)
include different nonempty absent

/-- Nothing is found across an element that the pattern does not have. -/
theorem length_lt_of_split {before' after' : List α}
    (split : front ++ a :: s = before' ++ (pattern ++ after')) :
    front.length < before'.length := by
  by_contra early
  have positive := List.length_pos_iff.mpr nonempty
  by_cases ends : before'.length + pattern.length ≤ front.length
  · obtain ⟨rest, same⟩ : before' ++ pattern <+: front := by
      refine List.prefix_of_prefix_length_le ⟨after', ?_⟩ ⟨a :: s, rfl⟩ ?_
      · rw [split, List.append_assoc]
      · rwa [List.length_append]
    exact absent ⟨before', rest, same⟩
  · have here := congrArg (·[front.length]?) split
    simp only [List.getElem?_append_right (Nat.le_refl front.length), Nat.sub_self,
      List.getElem?_cons_zero] at here
    rw [List.getElem?_append_right (by omega), List.getElem?_append_left (by omega)] at here
    exact different (List.mem_of_getElem? here.symm)

theorem FirstAt.skip (h : FirstAt pattern s before after) :
    FirstAt pattern (front ++ a :: s) (front ++ a :: before) after := by
  rw [List.append_cons front a s, List.append_cons front a before]
  refine h.append_left fun before' after' other => ?_
  rw [← List.append_cons] at other
  rw [List.length_append, List.length_singleton]
  exact length_lt_of_split different nonempty absent other

theorem not_infix_append_cons (later : ¬ pattern <:+: s) : ¬ pattern <:+: front ++ a :: s := by
  rintro ⟨before', after', same⟩
  rw [List.append_assoc] at same
  have behind := length_lt_of_split different nonempty absent same.symm
  obtain ⟨rest, rfl⟩ : front ++ [a] <+: before' := by
    refine List.prefix_of_prefix_length_le ⟨s, List.append_assoc _ _ _⟩ ⟨_, same⟩ ?_
    rw [List.length_append, List.length_singleton]
    exact behind
  rw [List.append_assoc, List.append_assoc, List.append_cancel_left_eq] at same
  exact later ⟨rest, after', by rw [List.append_assoc]; exact List.cons.inj same |>.2⟩

end Across

end Lists

namespace Text

/-- The lines, with line ends between them. -/
def joinLines (lines : List Text) : Text := crlf.intercalate lines

@[simp] theorem joinLines_singleton (line : Text) : joinLines [line] = line :=
  List.intercalate_singleton

@[simp] theorem joinLines_cons_cons (line next : Text) (lines : List Text) :
    joinLines (line :: next :: lines) = line ++ crlf ++ joinLines (next :: lines) :=
  List.intercalate_cons_cons

/-- A line that does not end the message. -/
structure IsMessageLine (line : Text) : Prop where
  nonempty : line ≠ []
  noReturn : '\r' ∉ line

/-- No empty line begins in a line or at its end. -/
theorem length_le_of_split {line s before' after' : Text} {c : Char} (noReturn : '\r' ∉ line)
    (other : c ≠ '\r')
    (split : line ++ (crlf ++ c :: s) = before' ++ (crlf ++ crlf ++ after')) :
    (line ++ crlf).length ≤ before'.length := by
  have first := congrArg (·[before'.length]?) split
  have third := congrArg (·[before'.length + 2]?) split
  simp only [crlf, List.cons_append, List.nil_append, List.getElem?_append_right, Nat.le_refl,
    Nat.sub_self, List.getElem?_cons_zero, Nat.le_add_right, Nat.add_sub_cancel_left] at first third
  rw [List.length_append, crlf, List.length_cons, List.length_singleton]
  by_contra early
  rcases Nat.lt_trichotomy before'.length line.length with inside | ends | behind
  · rw [List.getElem?_append_left inside] at first
    exact noReturn (List.mem_of_getElem? first)
  · rw [ends, List.getElem?_append_right (Nat.le_add_right _ _), Nat.add_sub_cancel_left] at third
    exact other (Option.some.inj third)
  · rw [show before'.length = line.length + 1 by omega,
      List.getElem?_append_right (Nat.le_add_right _ _), Nat.add_sub_cancel_left] at first
    exact absurd (Option.some.inj first) (by decide)

/-- The empty line is found behind the last line. -/
theorem firstAt_emptyLine {lines : List Text} (isLine : ∀ line ∈ lines, IsMessageLine line)
    (rest : Text) :
    FirstAt (crlf ++ crlf) (joinLines lines ++ (crlf ++ crlf ++ rest))
      (joinLines lines) rest := by
  induction lines with
  | nil => exact firstAt_of_notMem List.not_mem_nil
  | cons line lines ih =>
      obtain ⟨⟨-, noReturn⟩, later⟩ := List.forall_mem_cons.mp isLine
      cases lines with
      | nil =>
          rw [joinLines_singleton]
          exact firstAt_of_notMem noReturn
      | cons next lines =>
          rw [joinLines_cons_cons, List.append_assoc]
          refine (ih later).append_left fun before' after' split => ?_
          obtain ⟨⟨nonempty, noReturn'⟩, -⟩ := List.forall_mem_cons.mp later
          obtain ⟨c, tail, rfl⟩ := List.exists_cons_of_ne_nil nonempty
          rw [joinLines, List.intercalate_cons_cons_left, List.append_assoc,
            List.cons_append] at split
          exact length_le_of_split noReturn (List.ne_of_not_mem_cons noReturn').symm split

/-- The value of the first line that starts with the name, behind one more character. -/
def field? (name : Text) (lines : List Text) : Option Text :=
  (lines.find? name.isPrefixOf).map (·.drop (name.length + 1))

/-- In these lines the name stands at the start of a line only, and before a value. -/
def Names (name : Text) (lines : List Text) : Prop :=
  ∀ line ∈ lines, name <:+: line → ∃ separator value, line = name ++ separator :: value

section Field

variable {name : Text} (nonempty : name ≠ []) (noReturn : '\r' ∉ name) (noLineFeed : '\n' ∉ name)
include nonempty noReturn noLineFeed

/-- A line without the name is passed over. -/
theorem firstAt_skip_line {line s before after : Text} (absent : ¬ name <:+: line)
    (first : FirstAt name s before after) :
    FirstAt name (line ++ crlf ++ s) (line ++ crlf ++ before) after := by
  rw [List.append_assoc, List.append_assoc]
  exact (first.skip noLineFeed nonempty (fun occurs => nonempty (List.infix_nil.mp occurs))).skip
    noReturn nonempty absent

theorem not_infix_line {line s : Text} (absent : ¬ name <:+: line) (later : ¬ name <:+: s) :
    ¬ name <:+: line ++ crlf ++ s := by
  rw [List.append_assoc]
  exact not_infix_append_cons noReturn nonempty absent (not_infix_append_cons noLineFeed nonempty
    (fun occurs => nonempty (List.infix_nil.mp occurs)) later)

/-- A search for the name of a field ends before its value, or there is no such field. -/
theorem field?_cases {lines : List Text} (isLine : ∀ line ∈ lines, IsMessageLine line)
    (names : Names name lines) :
    (field? name lines = none ∧ ¬ name <:+: joinLines lines) ∨
    ∃ before separator value after, field? name lines = some value ∧ '\r' ∉ value ∧
      FirstAt name (joinLines lines) before (separator :: (value ++ after)) ∧
      (after = [] ∨ ∃ rest, after = crlf ++ rest) := by
  induction lines with
  | nil => exact .inl ⟨rfl, fun occurs => nonempty (List.infix_nil.mp occurs)⟩
  | cons line lines ih =>
      obtain ⟨⟨-, plain⟩, isLine⟩ := List.forall_mem_cons.mp isLine
      obtain ⟨here, names⟩ := List.forall_mem_cons.mp names
      by_cases occurs : name <:+: line
      · right
        obtain ⟨separator, value, rfl⟩ := here occurs
        have found : field? name ((name ++ separator :: value) :: lines) = some value := by
          have starts : name.isPrefixOf (name ++ separator :: value) = true :=
            List.isPrefixOf_iff_prefix.mpr ⟨_, rfl⟩
          rw [field?, List.find?_cons_of_pos starts, Option.map_some, ← List.drop_drop,
            List.drop_left]
          rfl
        obtain ⟨after, joined, ends⟩ : ∃ after,
            joinLines ((name ++ separator :: value) :: lines) =
              name ++ separator :: (value ++ after) ∧
                (after = [] ∨ ∃ rest, after = crlf ++ rest) := by
          cases lines with
          | nil => exact ⟨[], by rw [joinLines_singleton, List.append_nil], .inl rfl⟩
          | cons next lines =>
              refine ⟨crlf ++ joinLines (next :: lines), ?_, .inr ⟨_, rfl⟩⟩
              rw [joinLines_cons_cons, List.append_assoc, List.append_assoc, List.cons_append]
        refine ⟨[], separator, value, after, found, fun member => plain (by simp [member]),
          ?_, ends⟩
        rw [joined]
        exact ⟨rfl, fun _ _ _ => Nat.zero_le _⟩
      · have skipped : field? name (line :: lines) = field? name lines := by
          have other : ¬ name.isPrefixOf line = true := fun starts =>
            occurs (List.isPrefixOf_iff_prefix.mp starts).isInfix
          rw [field?, List.find?_cons_of_neg other, field?]
        rw [skipped]
        cases lines with
        | nil =>
            rw [joinLines_singleton]
            exact .inl ⟨rfl, occurs⟩
        | cons next lines =>
            rw [joinLines_cons_cons]
            rcases ih isLine names with ⟨none, absent⟩ | ⟨before, separator, value, after, found,
              plain', first, ends⟩
            · exact .inl ⟨none, not_infix_line nonempty noReturn noLineFeed occurs absent⟩
            · exact .inr ⟨_, separator, value, after, found, plain',
                firstAt_skip_line nonempty noReturn noLineFeed occurs first, ends⟩

end Field

/-- What is cut out behind the name, up to the end of the line, is the value. -/
theorem upTo_field {ε : Type} [LogicErrors ε] {s name before value after : Text} {separator : Char}
    (first : FirstAt name s before (separator :: (value ++ after))) (plain : '\r' ∉ value)
    (ends : after = [] ∨ ∃ rest, after = crlf ++ rest) :
    s.upTo (before.length + (name.length + 1)) crlf = (.ok value : Except ε Text) := by
  have inside : before.length + (name.length + 1) ≤ s.length := by
    rw [first.split]
    simp
  have behind : s.drop (before.length + (name.length + 1)) = value ++ after := by
    rw [← Nat.add_assoc, ← List.drop_drop, first.drop_length]
    rfl
  rcases ends with rfl | ⟨rest, rfl⟩
  · rw [List.append_nil] at behind
    rw [upTo_of_absent inside, behind]
    rw [behind]
    rintro ⟨front, back, same⟩
    exact plain (same ▸ by simp [crlf])
  · exact upTo_of_firstAt inside (behind ▸ firstAt_of_notMem plain)

end Text

end Hueplusplus
