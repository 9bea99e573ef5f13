import Hueplusplus.StateTransaction.Trim

/-!
# Commit is atomic on the cached state

Everything that can go wrong with a PUT, an exception of the handler, an error reply
or a reply that does not confirm the request, happens before the loop that writes
the cached state. So the state afterwards is the old one, or the old one with the
whole accepted body laid over it.
-/

namespace Hueplusplus.StateTransaction

/-- What the PUT of a request comes to: an exception, or the verdict on the reply. -/
def putVerdict (t : StateTransaction) (request : Object) : Except Exception Bool := do
  let reply ← t.commands.putRequest t.path request.toJson
  Utils.validatePUTReply t.path request.toJson reply

section

variable {t : StateTransaction} {trim : Bool} {request : Object}

theorem commit_of_not_worthSending (prepared : t.prepare trim = .ok request)
    (nothing : worthSending request = false) :
    t.commit trim = ⟨none, .ok true, t.state, request⟩ := by
  simp [commit, prepared, nothing]

/-- The verdict is the result of the commit and decides what happens to the state. -/
theorem commit_of_worthSending (prepared : t.prepare trim = .ok request)
    (worth : worthSending request = true) :
    t.commit trim = ⟨some request, t.putVerdict request,
      match t.putVerdict request with
      | .ok true => t.state.map fun state => applyToState state request
      | _ => t.state, request⟩ := by
  simp only [commit, prepared, worth, if_true, putVerdict]
  cases t.commands.putRequest t.path request.toJson with
  | error e => rfl
  | ok reply =>
      simp only [Except.ok_bind]
      cases Utils.validatePUTReply t.path request.toJson reply with
      | error e => rfl
      | ok accepted => cases accepted <;> rfl

/-- The body of a PUT is what was prepared. -/
theorem prepare_of_sent {body : Object} (sent : (t.commit trim).sent = some body) :
    t.prepare trim = .ok body := by
  cases prepared : t.prepare trim with
  | error e =>
      simp only [commit, prepared] at sent
      cases sent
  | ok request =>
      cases worth : worthSending request with
      | false =>
          rw [commit_of_not_worthSending prepared worth] at sent
          cases sent
      | true =>
          rw [commit_of_worthSending prepared worth] at sent
          rw [Option.some.inj sent]

theorem find?_addImpliedOn (h : t.addImpliedOn = .ok request) {key : String}
    (other : key ≠ "on") : request.find? key = t.request.find? key := by
  unfold addImpliedOn at h
  split at h
  · rw [← Except.ok.inj h]
  · obtain ⟨flag, _, done⟩ := Except.bind_eq_ok_iff.mp h
    cases flag with
    | none => rw [← Except.ok.inj done]
    | some on =>
        rw [← Except.ok.inj done]
        exact OrderedMap.find?_insert_ne _ _ other.symm

end

theorem find?_applyToState (state request : Object) (key : String) :
    (applyToState state request).find? key =
      if key = "transitiontime" then state.find? key
      else (request.find? key).or (state.find? key) := by
  rw [applyToState_eq, OrderedMap.find?_overlay, OrderedMap.find?_erase]
  by_cases h : key = "transitiontime"
  · simp [h]
  · simp [h, Ne.symm h]

/-- Preparing the request of a commit never fails. A PUT is made if the prepared
request has an attribute besides the transition time. Without a PUT, and with one
that throws or is rejected, the cached state stays; after an accepted one every
sent attribute but the transition time has its sent value and the others their old. -/
theorem commit_atomic (t : StateTransaction) {state : Object} (cached : t.state = some state)
    (hs : WellTyped state) :
    ∃ request, t.prepare true = .ok request ∧
      ((t.commit true).sent = none ∨ (t.commit true).sent = some request) ∧
      ((t.commit true).sent = some request ↔
        ∃ key value, request.find? key = some value ∧ key ≠ "transitiontime") ∧
      ((t.commit true).sent = none →
        (t.commit true).outcome = .ok true ∧ (t.commit true).state = some state) ∧
      ((t.commit true).sent = some request →
        (t.commit true).outcome = t.putVerdict request ∧
        (∀ e, t.putVerdict request = .error e → (t.commit true).state = some state) ∧
        (t.putVerdict request = .ok false → (t.commit true).state = some state) ∧
        (t.putVerdict request = .ok true → ∃ after, (t.commit true).state = some after ∧
          ∀ key, after.find? key =
            if key = "transitiontime" then state.find? key
            else (request.find? key).or (state.find? key))) := by
  have prepared : t.prepare true = .ok (t.body true) := by
    refine prepare_eq t true fun other known => ?_
    rw [cached, Option.some.injEq] at known
    exact known ▸ hs
  refine ⟨t.body true, prepared, ?_⟩
  rw [← worthSending_iff]
  cases worth : worthSending (t.body true) with
  | false => simp [commit_of_not_worthSending prepared worth, cached]
  | true =>
      rw [commit_of_worthSending prepared worth]
      refine ⟨.inr rfl, by simp, by simp, fun _ => ⟨rfl, ?_, ?_, ?_⟩⟩
      · intro e failed
        simp [failed, cached]
      · intro rejected
        simp [rejected, cached]
      · intro accepted
        refine ⟨applyToState state (t.body true), by simp [accepted, cached], fun key => ?_⟩
        exact find?_applyToState state (t.body true) key

theorem commit_atomic_temperatureLight :
    ∃ request, ((new Utils.acknowledgingCommands "/lights/1/state" (some temperatureLight)
      |>.setColorHue 20000).setTransition 10).prepare true = .ok request := by
  have typed : WellTyped temperatureLight := by decide +kernel
  obtain ⟨request, prepared, -⟩ := commit_atomic
    ((new Utils.acknowledgingCommands "/lights/1/state" (some temperatureLight)
      |>.setColorHue 20000).setTransition 10) rfl typed
  exact ⟨request, prepared⟩

end Hueplusplus.StateTransaction
