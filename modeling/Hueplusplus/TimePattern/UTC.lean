import Hueplusplus.Foundation.Calendar
import Hueplusplus.Foundation.Effect
import Hueplusplus.TimePattern.Basic

/-!
# Times of the bridge

Most times that the bridge sends are in UTC. To read one the library changes the time zone of
the whole process: it sets the environment variable `TZ`, calls `mktime` and sets the variable
back. So the environment is the state here; which rules belong to a value of `TZ` is a
parameter. A timestamp in UTC is read as its instant whatever zone the process is in, and
times in both zones can be read and printed in any order.
-/

namespace Hueplusplus.Time

open Calendar Effect Text

/-- The fields of a second, as `std::gmtime` sets them. -/
def Tm.ofDateTime (time : DateTime) : Tm :=
  ⟨time.date.year - 1900, time.date.month, time.date.day, time.hour, time.min, time.sec, 0⟩

/-- The zone that is used if `TZ` is empty. Fields outside of their ranges are carried. -/
def utc : TimeZone where
  localtime t := some (Tm.ofDateTime (DateTime.ofInstant t))
  mktime tm :=
    let days := dayNumber (tm.year + 1900 + tm.mon / 12) (tm.mon % 12).toNat tm.mday
    ((days * 24 + tm.hour) * 60 + tm.min) * 60 + tm.sec

theorem utc_mktime (time : DateTime) (isdst : ℤ) :
    utc.mktime { Tm.ofDateTime time with isdst := isdst } = time.instant := by
  have month := time.date.month_lt
  have year : time.date.year - 1900 + 1900 + (time.date.month : ℤ) / 12 = time.date.year := by
    omega
  have inYear : ((time.date.month : ℤ) % 12).toNat = time.date.month := by omega
  simp only [utc, Tm.ofDateTime, year, inYear]
  rfl

/-- The timestamp of a second in a year of at most four digits. -/
def utcTimestamp (time : DateTime) : Text :=
  padded 4 time.date.year.toNat ++ '-' :: (padded 2 (time.date.month + 1) ++ '-' ::
    (padded 2 time.date.day ++ 'T' :: formatTime time.hour time.min time.sec))

/-- The clock's time points begin in 1677 and end in 2262. -/
theorem year_of_inClock {time : DateTime} (inClock : InClock time.instant) :
    1677 ≤ time.date.year ∧ time.date.year ≤ 2262 := by
  let first : DateTime :=
    ⟨⟨1677, 0, 1, by decide, by decide, by decide⟩, 0, 0, 0, by decide, by decide, by decide⟩
  let last : DateTime :=
    ⟨⟨2262, 11, 31, by decide, by decide, by decide⟩, 0, 0, 0, by decide, by decide, by decide⟩
  have firstInstant : first.instant = -9246096000 := by decide +kernel
  have lastInstant : last.instant = 9246096000 := by decide +kernel
  obtain ⟨lower, upper⟩ := inClock
  simp only [seconds] at lower upper
  constructor
  · by_contra early
    have before : time.instant < first.instant :=
      DateTime.instant_lt_of_before (.inl (not_le.mp early))
    omega
  · by_contra late
    have after : last.instant < time.instant :=
      DateTime.instant_lt_of_before (.inl (not_le.mp late))
    omega

theorem day_lt (date : Date) : date.day < 100 :=
  (date.day_le.trans (daysInMonth_le _ _)).trans_lt (by decide)

section Timestamp

variable {time : DateTime} (inClock : InClock time.instant)
include inClock

@[simp] theorem length_utcTimestamp : (utcTimestamp time).length = 19 := by
  have month := time.date.month_lt
  have day := day_lt time.date
  have hour := time.hour_lt
  have min := time.min_lt
  have sec := time.sec_lt
  have upper : time.date.year.toNat < 10 ^ 4 := by
    have := (year_of_inClock inClock).2
    omega
  have two : ∀ {n : ℕ}, n < 100 → (padded 2 n).length = 2 := fun small =>
    length_padded (by decide) small
  simp only [utcTimestamp, List.length_append, List.length_cons,
    length_padded (show 0 < 4 by decide) upper, two (show time.date.month + 1 < 100 by omega),
    two day, length_formatTime (show time.hour < 100 by omega) (show time.min < 100 by omega)
      (show time.sec < 100 by omega)]

/-- The fields of a timestamp are read, whatever follows it. -/
theorem timestampToTm_utcTimestamp (rest : Text) :
    timestampToTm (utcTimestamp time ++ rest) =
      .ok { Tm.ofDateTime time with isdst := -1 } := by
  have month := time.date.month_lt
  have day := day_lt time.date
  have hour := time.hour_lt
  have min := time.min_lt
  have sec := time.sec_lt
  have upper : time.date.year.toNat < 10 ^ 4 := by
    have := (year_of_inClock inClock).2
    omega
  have two : ∀ {n : ℕ}, n < 100 → (padded 2 n).length = 2 := fun small =>
    length_padded (by decide) small
  have reads : ∀ {n : ℕ}, n < 100 → stoi (padded 2 n) = (.ok n : Except Exception ℤ) :=
    fun small => stoi_padded (by decide) (by decide) small
  have readYear : stoi (padded 4 time.date.year.toNat) =
      (.ok time.date.year : Except Exception ℤ) := by
    have positive := (year_of_inClock inClock).1
    rw [stoi_padded (by decide) (by decide) upper, Int.toNat_of_nonneg (by omega)]
  have columns : readTm (utcTimestamp time) =
      .ok { Tm.ofDateTime time with isdst := -1 } := by
    rw [utcTimestamp, formatTime, Tm.Normal.readTm_columns
      (length_padded (by decide) upper) (two (by omega)) (two day) (two (by omega)) (two (by omega))
      (two (by omega)), readYear, reads (by omega), reads day, reads (by omega), reads (by omega),
      reads (by omega)]
    simp [Tm.ofDateTime]
  rw [timestampToTm_append rest (length_utcTimestamp inClock), timestampToTm, columns]

theorem normal_ofDateTime : (Tm.ofDateTime time).Normal := by
  have year := year_of_inClock inClock
  have month := time.date.month_lt
  have dayPos := time.date.day_pos
  have day := time.date.day_le.trans (daysInMonth_le _ _)
  have hour := time.hour_lt
  have min := time.min_lt
  have sec := time.sec_lt
  constructor <;> simp only [Tm.ofDateTime] <;> omega

/-- Every second but one is printed in UTC as a timestamp that is parsed as it. -/
theorem utc_represents (valid : time.instant ≠ -1) :
    utc.Represents (strftime (Tm.ofDateTime time)) (seconds time.instant) := by
  refine TimeZone.represents_of_mktime (normal_ofDateTime inClock) ?_ (utc_mktime time (-1)) valid
    inClock
  exact congrArg (some ∘ Tm.ofDateTime) (DateTime.ofInstant_instant time)

end Timestamp

/-- The environment variable `TZ`, and the value of it that `tzset` read last. -/
structure Environment where
  tz : Option Text
  zone : Option Text
  deriving DecidableEq

/-- Computations that may change the environment. -/
abbrev Process : Type → Type := Effect Exception Environment

namespace Process

def getenv : Process (Option Text) := do return (← get).tz

def setenv (value : Text) : Process Unit := modify fun env => { env with tz := some value }

def unsetenv : Process Unit := modify fun env => { env with tz := none }

def tzset : Process Unit := modify fun env => { env with zone := env.tz }

variable (zones : Option Text → TimeZone)

/-- `std::localtime`, which calls `tzset`. -/
def localtime (t : ℤ) : Process (Option Tm) := do
  tzset
  return (zones (← get).zone).localtime t

/-- `std::mktime`, which calls `tzset`. -/
def mktime (tm : Tm) : Process ℤ := do
  tzset
  return (zones (← get).zone).mktime tm

def timepointToTimestamp (time : ℤ) : Process Text := do
  match ← localtime zones (time.tdiv (seconds 1)) with
  | none => throw (.hueException "localtime failed")
  | some localtime =>
    let buf := strftime localtime
    if buf.length < 32 then return buf else throw (.hueException "strftime failed")

def parseTimestamp (timestamp : Text) : Process ℤ := do
  let tm ← Effect.ofExcept (timestampToTm timestamp)
  let ctime ← mktime zones tm
  if ctime = -1 then throw (.hueException "mktime failed")
  return fromTimeT ctime

/-- What is done with the copy of the former value of `TZ`. -/
def restore : Option Text → Process Unit
  | some tz => setenv tz
  | none => unsetenv

def parseUTCTimestamp (timestamp : Text) : Process ℤ := do
  let tm ← Effect.ofExcept (timestampToTm timestamp)
  let tz ← getenv
  -- Set local timezone to UTC and then set it back
  setenv []
  tzset
  let ctime ← mktime zones tm
  restore tz
  tzset
  if ctime = -1 then throw (.hueException "timegm failed")
  return fromTimeT ctime

end Process

namespace AbsoluteTime

variable (zones : Option Text → TimeZone)

def toString (time : AbsoluteTime) : Process Text :=
  Process.timepointToTimestamp zones time.base

def parse (s : Text) : Process AbsoluteTime := do
  return ⟨← Process.parseTimestamp zones s⟩

def parseUTC (s : Text) : Process AbsoluteTime := do
  return ⟨← Process.parseUTCTimestamp zones s⟩

end AbsoluteTime

/-- What `parseUTCTimestamp` makes of a timestamp in the zone that an empty `TZ` stands for. -/
def TimeZone.parseUTCTimestamp (zone : TimeZone) (timestamp : Text) : Except Exception ℤ := do
  let tm ← timestampToTm timestamp
  let ctime := zone.mktime tm
  if ctime = -1 then throw (.hueException "timegm failed")
  return fromTimeT ctime

namespace Process

variable (zones : Option Text → TimeZone) (env : Environment)

/-- The call ends as the pure function does, and leaves `TZ` as it was. -/
def Behaves {α : Type} (call : Process α) (outcome : Except Exception α) : Prop :=
  (result call env).1 = outcome ∧ (result call env).2.tz = env.tz

variable {env} in
theorem behaves_bind_pure {α β : Type} {call : Process α} {outcome : Except Exception α}
    (behaves : Behaves env call outcome) (f : α → β) :
    Behaves env (do return f (← call)) (f <$> outcome) := by
  obtain ⟨value, tz⟩ := behaves
  unfold Behaves
  rw [result_bind]
  revert value tz
  cases result call env with
  | mk ended after =>
    rintro rfl tz
    cases ended <;> exact ⟨rfl, tz⟩

theorem timepointToTimestamp_behaves (time : ℤ) :
    Behaves env (timepointToTimestamp zones time)
      ((zones env.tz).timepointToTimestamp time) := by
  unfold Behaves timepointToTimestamp localtime tzset TimeZone.timepointToTimestamp
  simp only [result_bind, result_modify, result_get, result_pure]
  cases (zones env.tz).localtime (time.tdiv (seconds 1)) with
  | none => exact ⟨rfl, rfl⟩
  | some tm => simp only [result_ite]; split <;> exact ⟨rfl, rfl⟩

theorem parseTimestamp_behaves (timestamp : Text) :
    Behaves env (parseTimestamp zones timestamp) ((zones env.tz).parseTimestamp timestamp) := by
  unfold Behaves parseTimestamp mktime tzset TimeZone.parseTimestamp
  cases timestampToTm timestamp with
  | error e => exact ⟨rfl, rfl⟩
  | ok tm =>
    simp only [result_bind, result_ofExcept, result_modify, result_get, result_pure, result_ite,
      Except.ok_bind]
    split <;> exact ⟨rfl, rfl⟩

/-- Where the timestamp is well formed, `tzset` has read the former value again. -/
theorem parseUTCTimestamp_of_fields {timestamp : Text} {tm : Tm}
    (fields : timestampToTm timestamp = .ok tm) :
    result (parseUTCTimestamp zones timestamp) env =
      ((zones (some [])).parseUTCTimestamp timestamp, { env with zone := env.tz }) := by
  obtain ⟨tz, zone⟩ := env
  unfold parseUTCTimestamp mktime tzset getenv setenv TimeZone.parseUTCTimestamp
  rw [fields]
  cases tz <;>
  · simp only [result_bind, result_ofExcept, result_modify, result_get, result_pure, result_ite,
      Except.ok_bind, restore, setenv, unsetenv]
    split <;> rfl

theorem parseUTCTimestamp_behaves (timestamp : Text) :
    Behaves env (parseUTCTimestamp zones timestamp)
      ((zones (some [])).parseUTCTimestamp timestamp) := by
  unfold Behaves
  cases fields : timestampToTm timestamp with
  | error e =>
      unfold parseUTCTimestamp TimeZone.parseUTCTimestamp
      rw [fields]
      exact ⟨rfl, rfl⟩
  | ok tm =>
      rw [parseUTCTimestamp_of_fields zones env fields]
      exact ⟨rfl, rfl⟩

end Process

/-- A timestamp in UTC is read as its instant whatever zone the process is in, and the process
is in this zone afterwards. Only the second before the epoch cannot be read. -/
theorem parseUTC_utcTimestamp {zones : Option Text → TimeZone}
    (empty : (zones (some [])).mktime = utc.mktime) {time : DateTime}
    (inClock : InClock time.instant) (rest : Text) (env : Environment) :
    result (AbsoluteTime.parseUTC zones (utcTimestamp time ++ rest)) env =
      (if time.instant = -1 then .error (.hueException "timegm failed")
        else .ok ⟨seconds time.instant⟩,
      { env with zone := env.tz }) := by
  have fields := timestampToTm_utcTimestamp inClock rest
  have value : (zones (some [])).parseUTCTimestamp (utcTimestamp time ++ rest) =
      if time.instant = -1 then .error (.hueException "timegm failed")
      else .ok (seconds time.instant) := by
    rw [TimeZone.parseUTCTimestamp, fields, Except.ok_bind, empty, utc_mktime,
      ← fromTimeT_of_inClock inClock]
    rfl
  rw [AbsoluteTime.parseUTC, result_bind, Process.parseUTCTimestamp_of_fields zones env fields,
    value]
  by_cases last : time.instant = -1
  · simp only [if_pos last]
  · simp [if_neg last]

/-- A zone that is ahead of UTC by some seconds, all year. -/
def ahead (shift : ℤ) : TimeZone where
  localtime t := utc.localtime (t + shift)
  mktime tm := utc.mktime tm - shift

/-- Noon of 23 April 2020, and four seconds. -/
def noon : DateTime :=
  ⟨⟨2020, 3, 23, by decide, by decide, by decide⟩, 12, 0, 4, by decide, by decide, by decide⟩

theorem noon_instant : noon.instant = 1587643204 := by decide +kernel

theorem noon_inClock : InClock noon.instant := by
  rw [noon_instant]
  decide

theorem parseUTC_timestamp_in_CET :
    result (AbsoluteTime.parseUTC (fun tz => ahead (if tz = some [] then 0 else 3600))
        "2020-04-23T12:00:04".toList) ⟨some "CET-1".toList, none⟩ =
      (.ok ⟨seconds 1587643204⟩, ⟨some "CET-1".toList, some "CET-1".toList⟩) := by
  have empty : (ahead (if some ([] : Text) = some [] then 0 else 3600)).mktime = utc.mktime := by
    funext tm
    exact Int.sub_zero _
  have text : utcTimestamp noon ++ [] = "2020-04-23T12:00:04".toList := by decide +kernel
  rw [← text, parseUTC_utcTimestamp empty noon_inClock, noon_instant, if_neg (by decide)]

/-- The calls that read or print an absolute time. -/
inductive Call where
  | parse (s : Text)
  | parseUTC (s : Text)
  | toString (time : AbsoluteTime)

namespace Call

variable (zones : Option Text → TimeZone)

def perform : Call → Process (AbsoluteTime ⊕ Text)
  | parse s => do return .inl (← AbsoluteTime.parse zones s)
  | parseUTC s => do return .inl (← AbsoluteTime.parseUTC zones s)
  | toString time => do return .inr (← AbsoluteTime.toString zones time)

/-- What a call means in a process whose `TZ` has this value: only `parseUTC` is about another
zone. -/
def meaning (tz : Option Text) : Call → Except Exception (AbsoluteTime ⊕ Text)
  | parse s => .inl <$> (AbsoluteTime.mk <$> (zones tz).parseTimestamp s)
  | parseUTC s => .inl <$> (AbsoluteTime.mk <$> (zones (some [])).parseUTCTimestamp s)
  | toString time => .inr <$> (zones tz).timepointToTimestamp time.base

theorem perform_behaves (call : Call) (env : Environment) :
    Process.Behaves env (call.perform zones) (call.meaning zones env.tz) := by
  cases call with
  | parse s =>
    have time := Process.behaves_bind_pure (Process.parseTimestamp_behaves zones env s)
      AbsoluteTime.mk
    exact Process.behaves_bind_pure time Sum.inl
  | parseUTC s =>
    have time := Process.behaves_bind_pure (Process.parseUTCTimestamp_behaves zones env s)
      AbsoluteTime.mk
    exact Process.behaves_bind_pure time Sum.inl
  | toString time =>
    exact Process.behaves_bind_pure
      (Process.timepointToTimestamp_behaves zones env time.base) Sum.inr

/-- Calls one after the other; whoever makes them goes on after an exception. -/
def performAll :
    List Call → Environment → List (Except Exception (AbsoluteTime ⊕ Text)) × Environment
  | [], env => ([], env)
  | call :: calls, env =>
    let (ended, after) := result (call.perform zones) env
    let (others, last) := performAll calls after
    (ended :: others, last)

/-- Local times and times in UTC can be read and printed in any order: each call ends as it
does alone, and `TZ` stays what it was. -/
theorem performAll_meaning (calls : List Call) (env : Environment) :
    (performAll zones calls env).1 = calls.map (meaning zones env.tz) ∧
      (performAll zones calls env).2.tz = env.tz := by
  induction calls generalizing env with
  | nil => exact ⟨rfl, rfl⟩
  | cons call calls ih =>
    obtain ⟨ended, same⟩ := perform_behaves zones call env
    obtain ⟨others, last⟩ := ih (result (call.perform zones) env).2
    rw [same] at others last
    exact ⟨congrArg₂ List.cons ended others, last⟩

end Call

end Hueplusplus.Time
