import Hueplusplus.Foundation.System
import Hueplusplus.HueCommandAPI

/-!
# The delay between requests

`RunWithTimeout` reads the clock, waits for the mutex of the shared timeout data, sleeps
until the recorded timeout, and makes the call, a second time after certain errors. The
times at which it does so depend on when it is called and on how long everything takes;
a `Request` lists these durations, so that every choice of them is a possible request.
The mutex serialises the requests of all objects that share the data.

The recorded timeout counts from the clock reading, not from the call, and a failed
request does not record one. The invariant compares the timeout with the last call.
-/

namespace Hueplusplus.RequestDelay

/-- One request: its clock reading, the replies to its attempts, and how much longer than
necessary each of its steps takes. -/
structure Request where
  now : ℤ
  lockDelay : ℕ
  sleepDelay : ℕ
  duration : ℕ
  retryDelay : ℕ
  retryDuration : ℕ
  clockDelay : ℕ
  unlockDelay : ℕ
  replies : ℕ → Except Exception Json

/-- The HTTP calls of a request. -/
structure Calls where
  now : ℤ
  /-- Start of the first call. -/
  start : ℤ
  /-- Start of the second call, if there was one. -/
  retry : Option ℤ
  returned : Bool

/-- Start of the last HTTP call. -/
def Calls.last (c : Calls) : ℤ := c.retry.getD c.start

/-- The shared timeout data, the time its mutex was last released, and the last request. -/
structure State where
  timeout : ℤ
  released : ℤ
  previous : Option Calls

/-- The time at which a request gets the mutex. -/
def locked (s : State) (r : Request) : ℤ := max r.now s.released + r.lockDelay

/-- The time at which a request makes its first HTTP call. -/
def start (s : State) (r : Request) : ℤ :=
  (if s.timeout > r.now then max (locked s r) s.timeout else locked s r) + r.sleepDelay

/-- `RunWithTimeout` with the given minimum delay. -/
def run (minDelay : ℕ) (s : State) (r : Request) : State :=
  let start := start s r
  let finish := start + r.duration
  match r.replies 0 with
  | .ok _ => ⟨r.now + minDelay, finish + r.unlockDelay, some ⟨r.now, start, none, true⟩⟩
  | .error (.systemError code) =>
    if code.retried then
      -- Wait and try again (once)
      let retry := finish + minDelay + r.retryDelay
      let done := retry + r.retryDuration
      match r.replies 1 with
      | .ok _ =>
        let now := done + r.clockDelay
        ⟨now + minDelay, now + r.unlockDelay, some ⟨r.now, start, some retry, true⟩⟩
      | .error _ => ⟨s.timeout, done + r.unlockDelay, some ⟨r.now, start, some retry, false⟩⟩
    else ⟨s.timeout, finish + r.unlockDelay, some ⟨r.now, start, none, false⟩⟩
  | .error _ => ⟨s.timeout, finish + r.unlockDelay, some ⟨r.now, start, none, false⟩⟩

/-- Requests of any objects that share the timeout data, from its construction on. -/
def system (minDelay : ℕ) : System State Request where
  init s := s.timeout = s.released ∧ s.previous = none
  admissible _ _ := True
  step := run minDelay

/-- How the recorded timeout relates to the last HTTP call. -/
structure Recorded (minDelay : ℕ) (timeout released : ℤ) (c : Calls) : Prop where
  ordered : c.now ≤ c.start ∧ c.last ≤ released
  first : c.returned = true → c.retry = none → timeout = c.now + minDelay
  second : c.returned = true → c.retry ≠ none → c.last + minDelay ≤ timeout
  failed : c.returned = false → timeout ≤ c.last

def Inv (minDelay : ℕ) (s : State) : Prop :=
  ∀ c, s.previous = some c → Recorded minDelay s.timeout s.released c

theorem now_le_locked (s : State) (r : Request) : r.now ≤ locked s r ∧ s.released ≤ locked s r := by
  rw [locked]
  omega

theorem locked_le_start (s : State) (r : Request) : locked s r ≤ start s r := by
  rw [start]
  split <;> omega

/-- Whether it had to wait or not, a request calls no earlier than the recorded timeout. -/
theorem timeout_le_start (s : State) (r : Request) : s.timeout ≤ start s r := by
  have := now_le_locked s r
  rw [start]
  split <;> omega

/-- A request that throws leaves the timeout, which its calls have waited for. -/
theorem recorded_of_failed {minDelay : ℕ} {timeout released : ℤ} {c : Calls}
    (failed : c.returned = false) (ordered : c.now ≤ c.start ∧ c.last ≤ released)
    (waited : timeout ≤ c.last) : Recorded minDelay timeout released c where
  ordered := ordered
  first returned := by simp [failed] at returned
  second returned := by simp [failed] at returned
  failed _ := waited

theorem inv_run (minDelay : ℕ) (s : State) (r : Request) : Inv minDelay (run minDelay s r) := by
  have waits := timeout_le_start s r
  have reads := (now_le_locked s r).1.trans (locked_le_start s r)
  rw [run, Inv]
  split
  · rintro c ⟨⟩
    refine ⟨⟨reads, ?_⟩, fun _ _ => rfl, fun _ retried => absurd rfl retried, nofun⟩
    simp only [Calls.last, Option.getD_none]
    omega
  · split
    · split
      · rintro c ⟨⟩
        refine ⟨⟨reads, ?_⟩, nofun, fun _ _ => ?_, nofun⟩
        all_goals
          simp only [Calls.last, Option.getD_some]
          omega
      · rintro c ⟨⟩
        refine recorded_of_failed rfl ⟨reads, ?_⟩ ?_
        all_goals
          simp only [Calls.last, Option.getD_some]
          omega
    · rintro c ⟨⟩
      refine recorded_of_failed rfl ⟨reads, ?_⟩ waits
      simp only [Calls.last, Option.getD_none]
      omega
  · rintro c ⟨⟩
    refine recorded_of_failed rfl ⟨reads, ?_⟩ waits
    simp only [Calls.last, Option.getD_none]
    omega

theorem invariant (minDelay : ℕ) : (system minDelay).Invariant (Inv minDelay) where
  init s start c previous := by
    rw [start.2] at previous
    exact absurd previous (by simp)
  step s r _ _ := inv_run minDelay s r

/-- The request before returned from its second call, or from a first call at its clock
reading, or this request gets the mutex when the delay is over anyway. -/
def Spaced (minDelay : ℕ) (s : State) (previous : Calls) (r : Request) : Prop :=
  (previous.returned = true ∧ (previous.retry ≠ none ∨ previous.start = previous.now)) ∨
    previous.last + minDelay ≤ locked s r

/-- In every run, the HTTP call of a request is sure to start the minimum delay after the
one before, however long the sleep takes, exactly if the two requests are `Spaced`. -/
theorem spaced_iff {minDelay : ℕ} {s : State} (reachable : (system minDelay).Reachable s)
    {previous : Calls} (before : s.previous = some previous) (r : Request) :
    (∀ sleepDelay, previous.last + minDelay ≤ start s { r with sleepDelay }) ↔
      Spaced minDelay s previous r := by
  obtain ⟨ordered, first, second, failed⟩ := (invariant minDelay).holds reachable previous before
  have afterRelease := (now_le_locked s r).2
  constructor
  · intro always
    by_contra notSpaced
    obtain ⟨unrecorded, early⟩ := not_or.mp notSpaced
    -- Without oversleeping, only the recorded timeout can have delayed the call enough.
    have soonest := always 0
    have late : previous.last + minDelay ≤ s.timeout := by
      simp only [start, locked] at soonest early
      split at soonest <;> omega
    cases returned : previous.returned with
    | false =>
        have := failed returned
        omega
    | true =>
        simp only [returned, true_and, not_or, not_not] at unrecorded
        have recorded := first returned unrecorded.1
        have last : previous.last = previous.start := by simp [Calls.last, unrecorded.1]
        omega
  · intro spaced sleepDelay
    have waits := timeout_le_start s { r with sleepDelay }
    have unlocked := locked_le_start s { r with sleepDelay }
    rcases spaced with ⟨returned, recorded⟩ | late
    · have late : previous.last + minDelay ≤ s.timeout := by
        cases retry : previous.retry with
        | none =>
            have atOnce : previous.start = previous.now := recorded.resolve_left (by simp [retry])
            have last : previous.last = previous.start := by simp [Calls.last, retry]
            rw [last, atOnce, first returned retry]
        | some _ => exact second returned (by simp [retry])
      omega
    · exact late.trans unlocked

/-- A request that takes no longer than it has to and is answered at once. -/
def promptRequest (now : ℤ) : Request :=
  ⟨now, 0, 0, 0, 0, 0, 0, 0, fun _ => .ok .null⟩

theorem spaced_iff_second_request :
    (∀ sleepDelay, (⟨0, 0, none, true⟩ : Calls).last + (100 : ℕ) ≤
        start (run 100 ⟨0, 0, none⟩ (promptRequest 0)) { promptRequest 10 with sleepDelay }) ↔
      Spaced 100 (run 100 ⟨0, 0, none⟩ (promptRequest 0)) ⟨0, 0, none, true⟩
        (promptRequest 10) :=
  spaced_iff ((System.Reachable.init (M := system 100) ⟨rfl, rfl⟩).step (promptRequest 0) trivial)
    (by simp [system, run, promptRequest, start, locked]) (promptRequest 10)

/-- Three requests at 0, 10 and 105: the second waits until 100, but its timeout counts
from 10, so the third goes out at 110. -/
theorem third_request_early :
    ¬ ∀ (minDelay : ℕ) (s : State) (previous : Calls) (r : Request),
      (system minDelay).Reachable s → s.previous = some previous →
      previous.last + minDelay ≤ start s r := by
  intro always
  have first := (System.Reachable.init (M := system 100) (s := ⟨0, 0, none⟩) ⟨rfl, rfl⟩).step
    (promptRequest 0) trivial
  have early := always 100 _ ⟨10, 100, none, true⟩ (promptRequest 105)
    (first.step (promptRequest 10) trivial) rfl
  exact absurd early (by decide)

end Hueplusplus.RequestDelay
