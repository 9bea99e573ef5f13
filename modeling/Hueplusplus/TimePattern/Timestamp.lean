import Hueplusplus.TimePattern.Duration

/-!
# Timestamps

The local time zone is a parameter: it is what `localtime` and `mktime` of the C library
know about it. A time point is the number of nanoseconds since the epoch. A timestamp is
read from its first 19 characters only.
-/

namespace Hueplusplus.Time

open Text

/-- `std::tm`. -/
structure Tm where
  year : ℤ
  mon : ℤ
  mday : ℤ
  hour : ℤ
  min : ℤ
  sec : ℤ
  isdst : ℤ
  deriving DecidableEq

/-- `std::localtime` and `std::mktime`, in seconds since the epoch. -/
structure TimeZone where
  localtime : ℤ → Option Tm
  mktime : Tm → ℤ

/-- The format `YYYY-MM-DDThh:mm:ss`. -/
def timestampFormat : Text :=
  ['0', '0', '0', '0', '-', '0', '0', '-', '0', '0', 'T', '0', '0', ':', '0', '0', ':', '0', '0']

/-- What `std::strftime` writes for `%FT%T`. -/
def strftime (tm : Tm) : Text :=
  ofInt (tm.year + 1900) ++ '-' :: (padded 2 (tm.mon + 1).toNat ++ '-' ::
    (padded 2 tm.mday.toNat ++ 'T' :: formatTime tm.hour.toNat tm.min.toNat tm.sec.toNat))

/-- The part of `timestampToTm` that an invalid argument is caught in. -/
def readTm (timestamp : Text) : Except Exception Tm := do
  let year ← stoi (← timestamp.substr 0 4)
  let mon ← stoi (← timestamp.substr 5 2)
  let mday ← stoi (← timestamp.substr 8 2)
  let hour ← stoi (← timestamp.substr 11 2)
  let min ← stoi (← timestamp.substr 14 2)
  let sec ← stoi (← timestamp.substr 17 2)
  -- Auto detect daylight savings time
  return ⟨year - 1900, mon - 1, mday, hour, min, sec, -1⟩

def timestampToTm (timestamp : Text) : Except Exception Tm :=
  match readTm timestamp with
  | .error (.invalidArgument what) => .error (.hueException ("Invalid argument: " ++ what))
  | result => result

/-- The clock has a time point for this second, whose nanoseconds have 64 bits. -/
def InClock (ctime : ℤ) : Prop := -2 ^ 63 ≤ seconds ctime ∧ seconds ctime < 2 ^ 63

instance (ctime : ℤ) : Decidable (InClock ctime) := inferInstanceAs (Decidable (_ ∧ _))

/-- `system_clock::from_time_t`. Other seconds do not fit, and come out as some time point. -/
def fromTimeT (ctime : ℤ) : ℤ := (seconds ctime).bmod (2 ^ 64)

theorem fromTimeT_of_inClock {ctime : ℤ} (inClock : InClock ctime) :
    fromTimeT ctime = seconds ctime :=
  Int.bmod_eq_of_le inClock.1 inClock.2

namespace TimeZone

variable (zone : TimeZone)

def timepointToTimestamp (time : ℤ) : Except Exception Text :=
  match zone.localtime (time.tdiv (seconds 1)) with
  | none => .error (.hueException "localtime failed")
  | some localtime =>
    let buf := strftime localtime
    if buf.length < 32 then .ok buf else .error (.hueException "strftime failed")

def parseTimestamp (timestamp : Text) : Except Exception ℤ := do
  let tm ← timestampToTm timestamp
  let ctime := zone.mktime tm
  if ctime = -1 then throw (.hueException "mktime failed")
  return fromTimeT ctime

/-- The time point is printed as a timestamp in the documented format that is parsed as the
time point. -/
structure Represents (timestamp : Text) (time : ℤ) : Prop where
  print : zone.timepointToTimestamp time = .ok timestamp
  format : HasFormat timestampFormat timestamp
  parse : zone.parseTimestamp timestamp = .ok time

end TimeZone

theorem timestampToTm_append {timestamp : Text} (rest : Text) (h : timestamp.length = 19) :
    timestampToTm (timestamp ++ rest) = timestampToTm timestamp := by
  have part : ∀ {pos count}, pos + count ≤ 19 →
      (timestamp ++ rest).substr pos count =
        (timestamp.substr pos count : Except Exception Text) :=
    fun inside => substr_append_of_le rest (h ▸ inside)
  simp only [timestampToTm, readTm, part (show 0 + 4 ≤ 19 by decide),
    part (show 5 + 2 ≤ 19 by decide), part (show 8 + 2 ≤ 19 by decide),
    part (show 11 + 2 ≤ 19 by decide), part (show 14 + 2 ≤ 19 by decide),
    part (show 17 + 2 ≤ 19 by decide)]

theorem TimeZone.parseTimestamp_append (zone : TimeZone) {timestamp : Text} (rest : Text)
    (h : timestamp.length = 19) :
    zone.parseTimestamp (timestamp ++ rest) = zone.parseTimestamp timestamp := by
  rw [parseTimestamp, timestampToTm_append rest h, parseTimestamp]

namespace TimeZone.Represents

variable {zone : TimeZone} {timestamp : Text} {time : ℤ}

theorem length (h : zone.Represents timestamp time) : timestamp.length = 19 := h.format.length

theorem isDigit_front (h : zone.Represents timestamp time) :
    ∃ front rest, timestamp = front :: rest ∧ front.isDigit := by
  cases h.format with
  | cons digit => exact ⟨_, _, rfl, by simpa using digit⟩

end TimeZone.Represents

/-- The ranges of the fields, for the years of four digits. -/
structure Tm.Normal (tm : Tm) : Prop where
  year : 1000 ≤ tm.year + 1900 ∧ tm.year + 1900 < 10000
  mon : 0 ≤ tm.mon ∧ tm.mon < 12
  mday : 1 ≤ tm.mday ∧ tm.mday ≤ 31
  hour : 0 ≤ tm.hour ∧ tm.hour < 24
  min : 0 ≤ tm.min ∧ tm.min < 60
  sec : 0 ≤ tm.sec ∧ tm.sec ≤ 60

namespace Tm.Normal

variable {tm : Tm}

theorem ofInt_year (h : tm.Normal) :
    ofInt (tm.year + 1900) = padded 4 (tm.year + 1900).toNat := by
  obtain ⟨lower, upper⟩ := h.year
  have same : (tm.year + 1900).natAbs = (tm.year + 1900).toNat := by omega
  rw [ofInt, if_neg (by omega), same, padded_of_le (w := 3) (by decide) (by omega)]

theorem hasFormat (h : tm.Normal) : HasFormat timestampFormat (strftime tm) := by
  obtain ⟨year, mon, mday, hour, min, sec⟩ := h
  have two : ∀ {n : ℕ}, n < 100 → HasFormat ['0', '0'] (padded 2 n) := fun small =>
    HasFormat.padded (w := 2) (by decide) small
  have four : HasFormat ['0', '0', '0', '0'] (padded 4 (tm.year + 1900).toNat) :=
    HasFormat.padded (w := 4) (by decide) (by omega)
  have time : HasFormat ['0', '0', ':', '0', '0', ':', '0', '0']
      (formatTime tm.hour.toNat tm.min.toNat tm.sec.toNat) :=
    (two (by omega)).append (.literal rfl ((two (by omega)).append (.literal rfl (two (by omega)))))
  rw [strftime, ofInt_year ⟨year, mon, mday, hour, min, sec⟩]
  exact four.append (.literal rfl ((two (by omega)).append (.literal rfl
    ((two (by omega)).append (.literal rfl time)))))

/-- The columns of a timestamp are read at their places. -/
theorem readTm_columns {Y M D h m s : Text} (lenYear : Y.length = 4) (lenMon : M.length = 2)
    (lenMday : D.length = 2) (lenHour : h.length = 2) (lenMin : m.length = 2)
    (lenSec : s.length = 2) :
    readTm (Y ++ '-' :: (M ++ '-' :: (D ++ 'T' :: (h ++ ':' :: (m ++ ':' :: s))))) = (do
      let year ← stoi Y
      let mon ← stoi M
      let mday ← stoi D
      let hour ← stoi h
      let min ← stoi m
      let sec ← stoi s
      return ⟨year - 1900, mon - 1, mday, hour, min, sec, -1⟩) := by
  match Y, M, D, h, m, s with
  | [_, _, _, _], [_, _], [_, _], [_, _], [_, _], [_, _] => rfl

/-- All fields but the flag of daylight savings time are read back. -/
theorem timestampToTm_strftime (normal : tm.Normal) :
    timestampToTm (strftime tm) = .ok { tm with isdst := -1 } := by
  have print := normal.ofInt_year
  obtain ⟨year, mon, mday, hour, min, sec⟩ := normal
  have width : ∀ {w : ℕ} {n : ℤ}, 0 < w → 0 ≤ n → n < 10 ^ w →
      (padded w n.toNat).length = w := by
    intro w n positive lower upper
    exact length_padded positive ((Int.toNat_lt lower).mpr (by exact_mod_cast upper))
  have reads : ∀ {w : ℕ} {n : ℤ}, 0 < w → w ≤ 9 → 0 ≤ n → n < 10 ^ w →
      stoi (padded w n.toNat) = (.ok n : Except Exception ℤ) := by
    intro w n positive short lower upper
    rw [stoi_padded positive short ((Int.toNat_lt lower).mpr (by exact_mod_cast upper)),
      Int.toNat_of_nonneg lower]
  have columns : readTm (strftime tm) = .ok { tm with isdst := -1 } := by
    rw [strftime, print, formatTime]
    rw [readTm_columns (width (by decide) (by omega) (by omega))
        (width (by decide) (by omega) (by omega)) (width (by decide) (by omega) (by omega))
        (width (by decide) (by omega) (by omega)) (width (by decide) (by omega) (by omega))
        (width (by decide) (by omega) (by omega)),
      reads (by decide) (by decide) (by omega) (by omega),
      reads (by decide) (by decide) (by omega) (by omega),
      reads (by decide) (by decide) (by omega) (by omega),
      reads (by decide) (by decide) (by omega) (by omega),
      reads (by decide) (by decide) (by omega) (by omega),
      reads (by decide) (by decide) (by omega) (by omega)]
    simp
  rw [timestampToTm, columns]

end Tm.Normal

/-- Where `mktime` inverts `localtime`, the time point has a timestamp that is parsed as it. -/
theorem TimeZone.represents_of_mktime {zone : TimeZone} {t : ℤ} {tm : Tm} (normal : tm.Normal)
    (localtime : zone.localtime t = some tm) (mktime : zone.mktime { tm with isdst := -1 } = t)
    (valid : t ≠ -1) (inClock : InClock t) : zone.Represents (strftime tm) (seconds t) where
  print := by
    have whole : (seconds t).tdiv (seconds 1) = t := Int.mul_tdiv_cancel t (by decide)
    have length : (strftime tm).length < 32 := by
      rw [normal.hasFormat.length]
      decide
    simp only [timepointToTimestamp, whole, localtime, length, if_true]
  format := normal.hasFormat
  parse := by
    simp [parseTimestamp, normal.timestampToTm_strftime, mktime,
      if_neg valid, fromTimeT_of_inClock inClock]

end Hueplusplus.Time
