import Hueplusplus.EntertainmentMode.Message

/-!
# Sending the message

`update` writes the message in a loop, since a write can accept a part only. The next write
starts behind the accepted part, but is offered the length of the whole message again. What
the calls of `mbedtls_ssl_write` return is part of the input.
-/

namespace Hueplusplus.EntertainmentMode

/-- A call of `mbedtls_ssl_write`: the part of the buffer it is offered, and its result. -/
structure SSLWrite where
  offset : ℕ
  length : ℕ
  ret : Int32

/-- The loop of `update`: the variable `total`, the writes so far, and the value returned. -/
structure Update where
  total : ℕ
  writes : List SSLWrite
  returned : Option Bool

namespace Update

def start : Update := ⟨0, [], none⟩

/-- One test of the loop's condition, and the loop's body if it holds. `total` is an
`unsigned int`. -/
def step (size : ℕ) (ret : Int32) (u : Update) : Update :=
  if u.returned.isSome then u
  else if u.total < size then
    let writes := u.writes ++ [⟨u.total, size, ret⟩]
    if ret < 0 then { u with writes, returned := some false }
    else { u with writes, total := (u.total + ret.toNatClampNeg) % 2 ^ 32 }
  else { u with returned := some true }

/-- The loop after `n` steps, for the results of the writes in their order. -/
def run (size : ℕ) (results : ℕ → Int32) : ℕ → Update
  | 0 => start
  | n + 1 => (run size results n).step size (results (run size results n).writes.length)

/-- An error, or a positive number of bytes, at most the length that is offered. -/
def Admissible (size : ℕ) (ret : Int32) : Prop :=
  ret < 0 ∨ 0 < ret ∧ ret.toNatClampNeg ≤ size

/-- The bytes a write accepted. -/
def accepted (msg : List UInt8) (w : SSLWrite) : List UInt8 :=
  (msg.drop w.offset).take w.ret.toNatClampNeg

/-- The writes stay in the buffer, and if `update` returned true they accepted the message
once and in order. -/
structure Sound (msg : List UInt8) (u : Update) : Prop where
  inside : ∀ w ∈ u.writes, w.offset + w.length ≤ msg.length
  once : u.returned = some true → u.writes.flatMap (accepted msg) = msg

variable {size : ℕ} {results : ℕ → Int32}

theorem toNatClampNeg_pos_iff {ret : Int32} : 0 < ret.toNatClampNeg ↔ 0 < ret := by
  have zero : (0 : Int32).toInt = 0 := rfl
  rw [Int32.lt_iff_toInt_lt, Int32.toNatClampNeg, zero]
  omega

theorem not_neg_of_pos {ret : Int32} (positive : 0 < ret) : ¬ ret < 0 := by
  rw [Int32.lt_iff_toInt_lt] at positive ⊢
  omega

/-- A loop that has returned makes no more steps. -/
theorem run_of_returned {n : ℕ} (h : (run size results n).returned.isSome) (k : ℕ) :
    run size results (n + k) = run size results n := by
  induction k with
  | zero => rfl
  | succ k ih =>
      rw [← Nat.add_assoc, run, ih, step, if_pos h]

theorem run_one_of_empty (empty : size = 0) : run size results 1 = ⟨0, [], some true⟩ := by
  subst empty
  rfl

theorem run_one_of_error (nonempty : 0 < size) (error : results 0 < 0) :
    run size results 1 = ⟨0, [⟨0, size, results 0⟩], some false⟩ := by
  simp [run, step, start, nonempty, error]

theorem run_one_of_accepted (nonempty : 0 < size) (success : ¬ results 0 < 0) :
    run size results 1 =
      ⟨(results 0).toNatClampNeg, [⟨0, size, results 0⟩], none⟩ := by
  have small : (results 0).toNatClampNeg < 2 ^ 32 := by
    have := (results 0).toInt_lt
    rw [Int32.toNatClampNeg]
    omega
  have total : (0 + (results 0).toNatClampNeg) % 2 ^ 32 = (results 0).toNatClampNeg := by
    rw [Nat.zero_add, Nat.mod_eq_of_lt small]
  simp only [run, step, start, List.length_nil, Option.isSome_none, Bool.false_eq_true, if_false,
    nonempty, if_true, success, total, List.nil_append]

/-- After a part was accepted, the next write is offered as many bytes as the first. -/
theorem run_two_of_part (success : ¬ results 0 < 0)
    (part : (results 0).toNatClampNeg < size) :
    ⟨(results 0).toNatClampNeg, size, results 1⟩ ∈ (run size results 2).writes := by
  rw [run, run_one_of_accepted (Nat.zero_lt_of_lt part) success]
  by_cases error : results 1 < 0 <;> simp [step, part, error]

/-- The states of a loop that returned are those up to its return. -/
theorem sound_of_returned {msg : List UInt8} {k : ℕ}
    (returned : (run size results k).returned.isSome)
    (sound : ∀ n ≤ k, Sound msg (run size results n)) (n : ℕ) :
    Sound msg (run size results n) := by
  rcases Nat.le_total n k with early | late
  · exact sound n early
  · obtain ⟨j, rfl⟩ := Nat.exists_eq_add_of_le late
    rw [run_of_returned returned]
    exact sound k le_rfl

theorem sound_start (msg : List UInt8) : Sound msg start :=
  ⟨nofun, nofun⟩

section First

variable {msg : List UInt8}

theorem sound_of_empty (empty : msg.length = 0) (n : ℕ) : Sound msg (run msg.length results n) := by
  have one : run msg.length results 1 = _ := run_one_of_empty empty
  refine sound_of_returned (k := 1) (by rw [one]; rfl) (fun n early => ?_) n
  obtain rfl | rfl : n = 0 ∨ n = 1 := by omega
  · exact sound_start msg
  · rw [one]
    exact ⟨nofun, fun _ => (List.eq_nil_of_length_eq_zero empty).symm⟩

theorem sound_of_error (nonempty : 0 < msg.length) (error : results 0 < 0) (n : ℕ) :
    Sound msg (run msg.length results n) := by
  have one := run_one_of_error nonempty error
  refine sound_of_returned (k := 1) (by rw [one]; rfl) (fun n early => ?_) n
  obtain rfl | rfl : n = 0 ∨ n = 1 := by omega
  · exact sound_start msg
  · rw [one]
    exact ⟨by simp, nofun⟩

theorem sound_of_whole (nonempty : 0 < msg.length)
    (whole : (results 0).toNatClampNeg = msg.length) (n : ℕ) :
    Sound msg (run msg.length results n) := by
  have success : ¬ results 0 < 0 :=
    not_neg_of_pos (toNatClampNeg_pos_iff.mp (whole ▸ nonempty))
  have one := run_one_of_accepted nonempty success
  have two : run msg.length results 2 =
      ⟨(results 0).toNatClampNeg, [⟨0, msg.length, results 0⟩], some true⟩ := by
    rw [run, one, step, if_neg (by simp), if_neg (by simp [whole])]
  refine sound_of_returned (k := 2) (by rw [two]; rfl) (fun n early => ?_) n
  obtain rfl | rfl | rfl : n = 0 ∨ n = 1 ∨ n = 2 := by omega
  · exact sound_start msg
  · rw [one]
    exact ⟨by simp, nofun⟩
  · rw [two]
    exact ⟨by simp, fun _ => by simp [accepted, whole]⟩

end First

/-- The loop is sound exactly if its first write fails or accepts the whole message. -/
theorem sound_iff (msg : List UInt8) (results : ℕ → Int32)
    (admissible : ∀ k, Admissible msg.length (results k)) :
    (∀ n, Sound msg (run msg.length results n)) ↔
      msg = [] ∨ results 0 < 0 ∨ (results 0).toNatClampNeg = msg.length := by
  constructor
  · intro sound
    by_contra! h
    obtain ⟨-, success, other⟩ := h
    obtain error | ⟨positive, bound⟩ := admissible 0
    · exact success error
    · have inside := (sound 2).inside _ (run_two_of_part success (lt_of_le_of_ne bound other))
      have accepted : 0 < (results 0).toNatClampNeg := toNatClampNeg_pos_iff.mpr positive
      simp only at inside
      omega
  · intro first n
    rcases Nat.eq_zero_or_pos msg.length with empty | nonempty
    · exact sound_of_empty empty n
    · rcases first with rfl | error | whole
      · exact absurd nonempty (Nat.lt_irrefl 0)
      · exact sound_of_error nonempty error n
      · exact sound_of_whole nonempty whole n

theorem sound_iff_whole :
    let msg := EntertainmentMessage.header ++ [0, 0, 1, 0, 0, 0, 0, 0, 0]
    ∀ n, Sound msg (run msg.length (fun _ => 25) n) :=
  (sound_iff _ (fun _ => 25) fun _ => .inr (by decide)).mpr (.inr (.inr (by decide)))

/-- The message of one light, of which the first write accepts ten bytes. The second one is
offered ten bytes beyond its end. -/
theorem second_write_outside :
    let msg := EntertainmentMessage.header ++ [0, 0, 1, 0, 0, 0, 0, 0, 0]
    let results : ℕ → Int32 := fun _ => 10
    (∀ k, Admissible msg.length (results k)) ∧ ¬ ∀ n, Sound msg (run msg.length results n) := by
  intro msg results
  refine ⟨fun k => .inr (by decide), fun sound => ?_⟩
  have outside := (sound 2).inside _ (run_two_of_part (by decide) (by decide))
  exact absurd outside (by decide)

end Update

end Hueplusplus.EntertainmentMode
