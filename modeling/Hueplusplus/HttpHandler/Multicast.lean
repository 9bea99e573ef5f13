import Hueplusplus.UPnP

/-!
# Splitting what was received

Both back ends end `sendMulticast` with a loop that moves two positions over the received text:
one behind the last empty line, and one to the next. The loop ends for every text and loses
nothing: the messages, each with its empty line, and the rest make up the text again.
-/

namespace Hueplusplus

open Text

namespace Multicast

/-- What the loop still has to do when its search ended at this position. -/
def remaining (response : Text) : Option ℕ → ℕ
  | none => 0
  | some pos => response.length - pos + 1

theorem remaining_search_lt (response : Text) (pos : ℕ) :
    remaining response (response.search (crlf ++ crlf) (pos + 4)) <
      remaining response (some pos) := by
  cases found : response.search (crlf ++ crlf) (pos + 4) with
  | none => exact Nat.succ_pos _
  | some next =>
      have bounds := search_bounds (by decide) found
      simp only [remaining]
      omega

/-- The loop of `sendMulticast` that constructs the returned vector. -/
def splitLoop (response : Text) (returnString : List Text) (prevpos : ℕ) :
    Option ℕ → Except Exception (List Text)
  | none => return returnString
  | some pos => do
    let returnString := returnString ++ [← response.substr prevpos (pos - prevpos)]
    let pos := pos + 4
    splitLoop response returnString pos (response.search (crlf ++ crlf) pos)
termination_by pos => remaining response pos
decreasing_by exact remaining_search_lt response _

end Multicast

/-- The returned vector of `sendMulticast`, made from what was received. -/
def LinHttpHandler.returnVector (response : Text) : Except Exception (List Text) :=
  Multicast.splitLoop response [] 0 (response.search (crlf ++ crlf) 0)

@[inherit_doc LinHttpHandler.returnVector]
def WinHttpHandler.returnVector (response : Text) : Except Exception (List Text) :=
  Multicast.splitLoop response [] 0 (response.search (crlf ++ crlf) 0)

namespace Multicast

open LinHttpHandler (splitReplies splitReplies_of_firstAt splitReplies_of_absent)

/-- Between two rounds the search stands on the first empty line behind the last message. -/
theorem splitLoop_eq (response : Text) (returnString : List Text) {prevpos : ℕ}
    (inside : prevpos ≤ response.length) :
    splitLoop response returnString prevpos (response.search (crlf ++ crlf) prevpos) =
      .ok (returnString ++ splitReplies (response.drop prevpos)) := by
  by_cases occurs : crlf ++ crlf <:+: response.drop prevpos
  · obtain ⟨message, rest, first⟩ := exists_firstAt occurs
    have length := congrArg List.length first.split
    simp only [List.length_drop, List.length_append, crlf, List.length_cons, List.length_nil]
      at length
    have shorter : response.length - (prevpos + message.length + 4) <
        response.length - prevpos := by omega
    have cut : response.substr prevpos (prevpos + message.length - prevpos) =
        (.ok message : Except Exception Text) := substr_of_drop inside first.split (by omega)
    have behind : response.drop (prevpos + message.length + 4) = rest := by
      rw [Nat.add_assoc, ← List.drop_drop]
      exact first.drop_length
    rw [search_of_firstAt first, splitLoop, cut, Except.ok_bind, splitLoop_eq _ _ (by omega),
      behind, splitReplies_of_firstAt first, List.append_assoc, List.singleton_append]
  · rw [search_eq_none_iff.mpr occurs, splitLoop, splitReplies_of_absent occurs,
      List.append_nil]
    rfl
termination_by response.length - prevpos

/-- The messages, each with the empty line behind it, and the rest make up the text; the empty
line is in none of them. -/
structure Splits (response : Text) (messages : List Text) (rest : Text) : Prop where
  whole : messages.flatMap (· ++ (crlf ++ crlf)) ++ rest = response
  messages_free : ∀ message ∈ messages, ¬ crlf ++ crlf <:+: message
  rest_free : ¬ crlf ++ crlf <:+: rest

theorem exists_splits (response : Text) : ∃ rest, Splits response (splitReplies response) rest := by
  by_cases occurs : crlf ++ crlf <:+: response
  · obtain ⟨message, later, first⟩ := exists_firstAt occurs
    have shorter := first.length_after_lt (by decide)
    obtain ⟨rest, splits⟩ := exists_splits later
    rw [splitReplies_of_firstAt first]
    refine ⟨rest, ⟨?_, ?_, splits.rest_free⟩⟩
    · rw [List.flatMap_cons, List.append_assoc, splits.whole, first.split, List.append_assoc]
    · exact List.forall_mem_cons.mpr ⟨first.absent (by decide), splits.messages_free⟩
  · rw [splitReplies_of_absent occurs]
    exact ⟨response, ⟨rfl, fun _ member => absurd member List.not_mem_nil, occurs⟩⟩
termination_by response.length

/-- The loop cuts behind each empty line, as `splitReplies` does. -/
theorem returnVector_eq (response : Text) :
    LinHttpHandler.returnVector response = .ok (splitReplies response) :=
  splitLoop_eq response [] (Nat.zero_le _)

/-- Whatever was received, both loops end with the same messages and lose nothing. -/
theorem split_lossless (response : Text) :
    ∃ messages rest, LinHttpHandler.returnVector response = .ok messages ∧
      WinHttpHandler.returnVector response = .ok messages ∧ Splits response messages rest := by
  obtain ⟨rest, splits⟩ := exists_splits response
  exact ⟨splitReplies response, rest, returnVector_eq response, returnVector_eq response, splits⟩


end Multicast

end Hueplusplus
