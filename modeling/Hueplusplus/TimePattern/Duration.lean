import Hueplusplus.Foundation.Text
import Hueplusplus.Json

/-!
# Durations as text

A duration is the number of its nanoseconds, the ticks of `system_clock`. It is printed as
`hh:mm:ss`; in this form a duration of whole seconds up to a day is read back, whatever
follows it in the text.
-/

namespace Hueplusplus

namespace Time

open Text

def seconds (n : ℤ) : ℤ := n * 10 ^ 9

def minutes (n : ℤ) : ℤ := seconds (60 * n)

def hours (n : ℤ) : ℤ := minutes (60 * n)

/-- Conversion to `unsigned int`. -/
def toUnsigned (n : ℤ) : ℕ := (n % 2 ^ 32).toNat

/-- A count of ticks in 64 bits; an overflow wraps. -/
def ticks (n : ℤ) : ℤ := n.bmod (2 ^ 64)

/-- The format `%02u:%02u:%02u`. -/
def formatTime (h m s : ℕ) : Text :=
  padded 2 h ++ (':' :: (padded 2 m ++ (':' :: padded 2 s)))

def durationTo_hh_mm_ss (duration : ℤ) : Except Exception Text :=
  if duration > hours 24 then .error (.hueException "Duration parameter longer than 1 day")
  else
    let numH := toUnsigned (duration.tdiv (hours 1))
    let duration := ticks (duration - ticks (hours numH))
    let numM := toUnsigned (duration.tdiv (minutes 1))
    let duration := ticks (duration - ticks (minutes numM))
    let numS := toUnsigned (duration.tdiv (seconds 1))
    -- The buffer of `snprintf` has room for 8 characters and the terminating one.
    .ok ((formatTime numH numM numS).take 8)

def parseDuration (s : Text) : Except Exception ℤ := do
  let hour := hours (← stoi (← s.substr 0 2))
  let min := minutes (← stoi (← s.substr 3 2))
  let sec := seconds (← stoi (← s.substr 6 2))
  return hour + min + sec

/-- A whole number of seconds, up to a day. -/
def WholeSeconds (duration : ℤ) : Prop :=
  ∃ n : ℕ, n ≤ 86400 ∧ duration = seconds n

/-- The text stands for the duration, in whatever text it is the beginning. -/
structure Shows (text : Text) (duration : ℤ) : Prop where
  length : text.length = 8
  characters : ∀ c ∈ text, c.isDigit ∨ c = ':'
  parse : ∀ rest, parseDuration (text ++ rest) = .ok duration

theorem length_formatTime {h m s : ℕ} (hh : h < 100) (hm : m < 100) (hs : s < 100) :
    (formatTime h m s).length = 8 := by
  have width : ∀ {n : ℕ}, n < 100 → (padded 2 n).length = 2 := fun small =>
    length_padded (by decide) small
  simp [formatTime, width hh, width hm, width hs]

/-- The columns of a duration are read at their places. -/
theorem parseDuration_columns {h m s : Text} {hour min sec : ℤ} (lenHour : h.length = 2)
    (lenMin : m.length = 2) (lenSec : s.length = 2)
    (readHour : stoi h = (.ok hour : Except Exception ℤ))
    (readMin : stoi m = (.ok min : Except Exception ℤ))
    (readSec : stoi s = (.ok sec : Except Exception ℤ)) (rest : Text) :
    parseDuration ((h ++ ':' :: (m ++ ':' :: s)) ++ rest) =
      .ok (hours hour + minutes min + seconds sec) := by
  have first : ((h ++ ':' :: (m ++ ':' :: s)) ++ rest).substr 0 2 =
      (.ok h : Except Exception Text) :=
    substr_eq [] (':' :: (m ++ ':' :: s) ++ rest) (by simp) rfl lenHour
  have second : ((h ++ ':' :: (m ++ ':' :: s)) ++ rest).substr 3 2 =
      (.ok m : Except Exception Text) :=
    substr_eq (h ++ [':']) (':' :: s ++ rest) (by simp) (by simp [lenHour]) lenMin
  have third : ((h ++ ':' :: (m ++ ':' :: s)) ++ rest).substr 6 2 =
      (.ok s : Except Exception Text) :=
    substr_eq (h ++ ':' :: (m ++ [':'])) rest (by simp) (by simp [lenHour, lenMin]) lenSec
  simp only [parseDuration, first, second, third, readHour, readMin, readSec,
    Except.ok_bind, Except.pure_eq_ok]

theorem parseDuration_formatTime {h m s : ℕ} (hh : h < 100) (hm : m < 100) (hs : s < 100)
    (rest : Text) :
    parseDuration (formatTime h m s ++ rest) = .ok (hours h + minutes m + seconds s) := by
  have width : ∀ {n : ℕ}, n < 100 → (padded 2 n).length = 2 := fun small =>
    length_padded (by decide) small
  have number : ∀ {n : ℕ}, n < 100 → stoi (padded 2 n) = (.ok n : Except Exception ℤ) :=
    fun small => stoi_padded (by decide) (by decide) small
  exact parseDuration_columns (width hh) (width hm) (width hs) (number hh) (number hm) (number hs)
    rest

/-- Seconds of a day and a part of a second, which only counts as negative without them. -/
structure PartOfDay (n : ℕ) (fraction : ℤ) : Prop where
  day : n ≤ 86400
  lower : -seconds 1 < fraction
  upper : fraction < seconds 1
  sign : n = 0 ∨ 0 ≤ fraction

theorem partOfDay_zero {n : ℕ} (h : n ≤ 86400) : PartOfDay n 0 :=
  ⟨h, by decide, by decide, .inr le_rfl⟩

namespace PartOfDay

variable {n k : ℕ} {fraction : ℤ}

theorem of_le (h : PartOfDay n fraction) (le : k ≤ n) : PartOfDay k fraction where
  day := le.trans h.day
  lower := h.lower
  upper := h.upper
  sign := h.sign.imp_left fun zero => by
    subst zero
    exact Nat.le_zero.mp le

/-- How often a unit of `k` seconds fits into a part of a day. -/
theorem toUnsigned_tdiv (h : PartOfDay n fraction) (positive : 0 < k) :
    toUnsigned ((seconds n + fraction).tdiv (seconds k)) = n / k := by
  obtain ⟨day, lower, upper, sign⟩ := h
  have quotient : (seconds n + fraction).tdiv (seconds k) = (n / k : ℕ) := by
    rw [seconds] at lower upper
    have unit : (10 ^ 9 : ℤ) ≤ k * 10 ^ 9 := by omega
    by_cases negative : fraction < 0
    · obtain rfl : n = 0 := sign.resolve_right (not_le.mpr negative)
      have none : (-fraction).tdiv (k * 10 ^ 9) = 0 :=
        Int.tdiv_eq_zero_of_lt (by omega) (by omega)
      have same : seconds (0 : ℕ) + fraction = - -fraction := by
        rw [seconds]
        omega
      rw [same, Int.neg_tdiv, seconds, none]
      simp
    · have whole : (n * 10 ^ 9 + fraction) / 10 ^ 9 = (n : ℤ) := by omega
      have units : (k * 10 ^ 9 : ℤ) = 10 ^ 9 * k := mul_comm _ _
      rw [seconds, seconds, Int.tdiv_eq_ediv_of_nonneg (by omega), units,
        ← Int.ediv_ediv_of_nonneg (by decide), whole]
      exact (Int.natCast_ediv n k).symm
  have small : n / k ≤ 86400 := (Nat.div_le_self n k).trans day
  rw [quotient, toUnsigned]
  generalize n / k = q at small
  omega

/-- What is left of it without `k` seconds. -/
theorem ticks_sub (h : PartOfDay n fraction) (le : k ≤ n) :
    ticks (seconds n + fraction - ticks (seconds k)) = seconds (n - k : ℕ) + fraction := by
  obtain ⟨day, lower, upper, -⟩ := h
  simp only [ticks, seconds, Int.bmod] at lower upper ⊢
  omega

end PartOfDay

theorem durationTo_of_partOfDay {n : ℕ} {fraction : ℤ} (h : PartOfDay n fraction)
    (day : seconds n + fraction ≤ hours 24) :
    durationTo_hh_mm_ss (seconds n + fraction) =
      .ok (formatTime (n / 3600) (n % 3600 / 60) (n % 60)) := by
  have hour : hours 1 = seconds (3600 : ℕ) := rfl
  have minute : minutes 1 = seconds (60 : ℕ) := rfl
  have second : seconds 1 = seconds (1 : ℕ) := rfl
  have asHours : hours (n / 3600 : ℕ) = seconds (n / 3600 * 3600 : ℕ) := by
    simp only [hours, minutes, seconds]
    omega
  have asMinutes : minutes (n % 3600 / 60 : ℕ) = seconds (n % 3600 / 60 * 60 : ℕ) := by
    simp only [minutes, seconds]
    omega
  have afterHours : n - n / 3600 * 3600 = n % 3600 := by omega
  have afterMinutes : n % 3600 - n % 3600 / 60 * 60 = n % 60 := by omega
  have inHour : PartOfDay (n % 3600) fraction := h.of_le (Nat.mod_le n 3600)
  have inMinute : PartOfDay (n % 60) fraction := h.of_le (Nat.mod_le n 60)
  have width : (formatTime (n / 3600) (n % 3600 / 60) (n % 60)).length = 8 := by
    have dayHours := h.day
    refine length_formatTime ?_ ?_ ?_ <;> omega
  rw [durationTo_hh_mm_ss, if_neg (not_lt.mpr day)]
  simp only [hour, h.toUnsigned_tdiv (k := 3600) (by decide), asHours,
    h.ticks_sub (Nat.div_mul_le_self n 3600), afterHours]
  simp only [minute, inHour.toUnsigned_tdiv (k := 60) (by decide), asMinutes,
    inHour.ticks_sub (Nat.div_mul_le_self (n % 3600) 60), afterMinutes]
  rw [second, inMinute.toUnsigned_tdiv one_pos, Nat.div_one, List.take_of_length_le width.le]

theorem durationTo_seconds {n : ℕ} (h : n ≤ 86400) :
    durationTo_hh_mm_ss (seconds n) = .ok (formatTime (n / 3600) (n % 3600 / 60) (n % 60)) := by
  have whole : seconds n + 0 = seconds n := add_zero _
  rw [← whole]
  apply durationTo_of_partOfDay (partOfDay_zero h)
  simp only [hours, minutes, seconds]
  omega

theorem shows_formatTime {h m s : ℕ} (hh : h < 100) (hm : m < 100) (hs : s < 100) :
    Shows (formatTime h m s) (hours h + minutes m + seconds s) where
  length := length_formatTime hh hm hs
  characters c member := by
    simp only [formatTime, List.mem_append, List.mem_cons] at member
    rcases member with hour | colon | min | colon | sec
    · exact .inl (isDigit_of_mem_padded hour)
    · exact .inr colon
    · exact .inl (isDigit_of_mem_padded min)
    · exact .inr colon
    · exact .inl (isDigit_of_mem_padded sec)
  parse := parseDuration_formatTime hh hm hs

theorem parts_eq_seconds (n : ℕ) :
    hours (n / 3600 : ℕ) + minutes (n % 3600 / 60 : ℕ) + seconds (n % 60 : ℕ) = seconds n := by
  simp only [hours, minutes, seconds]
  omega

/-- A duration of whole seconds up to a day is printed as a text that shows it. -/
theorem shows_of_wholeSeconds {duration : ℤ} (h : WholeSeconds duration) :
    ∃ text, durationTo_hh_mm_ss duration = .ok text ∧ Shows text duration := by
  obtain ⟨n, day, rfl⟩ := h
  refine ⟨_, durationTo_seconds day, ?_⟩
  rw [← parts_eq_seconds n]
  exact shows_formatTime (by omega) (by omega) (by omega)

/-- A text `hh:mm:ss` with minutes and seconds below 60. -/
def IsTime (text : Text) : Prop :=
  text.length = 8 ∧ ∃ h m s : ℕ, h < 100 ∧ m < 60 ∧ s < 60 ∧ text = formatTime h m s

/-- The duration is rejected, or printed as a text that is read as its whole seconds. -/
def PrintedFaithfully (duration : ℤ) : Prop :=
  (∃ message, durationTo_hh_mm_ss duration = .error (.hueException message)) ∨
    ∃ text, durationTo_hh_mm_ss duration = .ok text ∧ IsTime text ∧
      parseDuration text = .ok (seconds (duration.tdiv (seconds 1)))

theorem isTime_formatTime {h m s : ℕ} (hour : h < 100) (minute : m < 60) (second : s < 60) :
    IsTime (formatTime h m s) :=
  ⟨length_formatTime hour (by omega) (by omega), h, m, s, hour, minute, second, rfl⟩

/-- A time is never read as a negative duration. -/
theorem IsTime.parse_nonneg {text : Text} (time : IsTime text) {duration : ℤ}
    (parsed : parseDuration text = .ok duration) : 0 ≤ duration := by
  obtain ⟨-, h, m, s, hour, minute, second, rfl⟩ := time
  have read := parseDuration_formatTime hour (by omega : m < 100) (by omega : s < 100) []
  rw [List.append_nil] at read
  obtain rfl := Except.ok.inj (parsed.symm.trans read)
  simp only [hours, minutes, seconds]
  omega

/-- Durations from minus one second on, up to a day, have whole seconds that are printed. -/
theorem exists_partOfDay {duration : ℤ} (low : -seconds 1 < duration)
    (high : duration ≤ hours 24) :
    ∃ n fraction, PartOfDay n fraction ∧ duration = seconds n + fraction ∧
      duration.tdiv (seconds 1) = n := by
  simp only [hours, minutes, seconds] at low high
  by_cases negative : duration < 0
  · have zero : (-duration).tdiv (seconds 1) = 0 :=
      Int.tdiv_eq_zero_of_lt (by omega) (by rw [seconds]; omega)
    refine ⟨0, duration, ⟨by decide, ?_, ?_, .inl rfl⟩, ?_, ?_⟩
    · rwa [seconds]
    · rw [seconds]
      omega
    · rw [seconds]
      omega
    · rw [← neg_neg duration, Int.neg_tdiv, zero]
      rfl
  · have quotient : duration.tdiv (seconds 1) = duration / 10 ^ 9 := by
      rw [Int.tdiv_eq_ediv_of_nonneg (not_lt.mp negative)]
      rfl
    refine ⟨(duration / 10 ^ 9).toNat, duration % 10 ^ 9, ⟨?_, ?_, ?_, .inr ?_⟩, ?_, ?_⟩
    · omega
    · rw [seconds]
      omega
    · rw [seconds]
      omega
    · omega
    · rw [seconds]
      omega
    · rw [quotient]
      omega

/-- A duration is rejected or printed faithfully exactly if it is longer than minus one second. -/
theorem durationTo_faithful_iff (duration : Int64) :
    PrintedFaithfully duration.toInt ↔ -seconds 1 < duration.toInt := by
  generalize duration.toInt = d
  constructor
  · rintro (⟨message, rejected⟩ | ⟨text, -, time, parsed⟩)
    · by_contra short
      have notLong : ¬ d > hours 24 := by
        simp only [hours, minutes, seconds] at short ⊢
        omega
      rw [durationTo_hh_mm_ss, if_neg notLong] at rejected
      cases rejected
    · have nonneg := time.parse_nonneg parsed
      by_contra short
      simp only [seconds] at short nonneg
      have negative : (-d).tdiv (1 * 10 ^ 9) = -d / 10 ^ 9 :=
        Int.tdiv_eq_ediv_of_nonneg (by omega)
      rw [← neg_neg d, Int.neg_tdiv, negative] at nonneg
      omega
  · intro low
    by_cases high : d ≤ hours 24
    · obtain ⟨n, fraction, part, rfl, whole⟩ := exists_partOfDay low high
      refine .inr ⟨_, durationTo_of_partOfDay part high, ?_, ?_⟩
      · have day := part.day
        exact isTime_formatTime (by omega) (by omega) (by omega)
      · have day := part.day
        have read := parseDuration_formatTime (h := n / 3600) (m := n % 3600 / 60) (s := n % 60)
          (by omega) (by omega) (by omega) []
        rw [List.append_nil] at read
        rw [read, whole, parts_eq_seconds]
    · exact .inl ⟨_, by rw [durationTo_hh_mm_ss, if_pos (not_le.mp high)]⟩

/-- Minus one second is printed as 42 seconds. -/
theorem negative_duration_not_faithful :
    durationTo_hh_mm_ss (-seconds 1) = .ok "00:00:42".toList ∧
      ¬ ∀ duration : Int64, PrintedFaithfully duration.toInt := by
  refine ⟨by decide +kernel, fun claim => ?_⟩
  obtain ⟨message, rejected⟩ | ⟨text, printed, time, parsed⟩ := claim (-1000000000)
  · have printed : durationTo_hh_mm_ss (-1000000000) = .ok "00:00:42".toList := by
      decide +kernel
    exact absurd (printed.symm.trans rejected) (by simp)
  · have nonneg := time.parse_nonneg parsed
    exact absurd nonneg (by decide +kernel)

end Time

end Hueplusplus
