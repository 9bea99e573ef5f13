import Hueplusplus.TimePattern.Timestamp

/-!
# Time patterns

A time pattern is undefined, an absolute time, a recurring time, a time interval or a
timer. Each kind has its own text format; the parser tells them apart by their first
character and the number of slashes, and then cuts the fields out at their places.
-/

namespace Hueplusplus.Time

open Text

structure AbsoluteTime where
  base : ℤ
  deriving DecidableEq

structure AbsoluteVariedTime extends AbsoluteTime where
  variation : ℤ
  deriving DecidableEq

structure Weekdays where
  bitmask : ℤ
  deriving DecidableEq

structure RecurringTime where
  time : ℤ
  days : Weekdays
  variation : ℤ
  deriving DecidableEq

structure TimeInterval where
  startTime : ℤ
  endTime : ℤ
  days : Weekdays
  deriving DecidableEq

structure Timer where
  expires : ℤ
  numExecutions : ℤ
  variation : ℤ
  deriving DecidableEq

inductive TimePattern where
  | undefined
  | absolute (absolute : AbsoluteVariedTime)
  | recurring (recurring : RecurringTime)
  | interval (interval : TimeInterval)
  | timer (timer : Timer)
  deriving DecidableEq

/-- The end of the text of a time with a random variation. -/
def variationText (variation : ℤ) : Except Exception Text := do
  if variation ≠ 0 then return 'A' :: (← durationTo_hh_mm_ss variation)
  else return []

namespace AbsoluteVariedTime

def toString (zone : TimeZone) (t : AbsoluteVariedTime) : Except Exception Text := do
  return (← zone.timepointToTimestamp t.base) ++ (← variationText t.variation)

def parse (zone : TimeZone) (s : Text) : Except Exception AbsoluteVariedTime := do
  let time ← zone.parseTimestamp s
  if 19 < s.length ∧ s[19]? = some 'A' then
    -- Random variation
    return ⟨⟨time⟩, ← parseDuration (← s.suffix 20)⟩
  else return ⟨⟨time⟩, 0⟩

end AbsoluteVariedTime

namespace Weekdays

def all : Weekdays := ⟨2 ^ 7 - 1⟩

def isAll (w : Weekdays) : Bool := w.bitmask = 2 ^ 7 - 1

/-- The bit mask, with zeros inserted in front of it up to three characters. -/
def toString (w : Weekdays) : Text :=
  let result := ofInt w.bitmask
  List.replicate (3 - result.length) '0' ++ result

def parse (s : Text) : Except Exception Weekdays := do
  return ⟨← stoi s⟩

end Weekdays

def RecurringTime.toString (t : RecurringTime) : Except Exception Text := do
  let result := 'W' :: (t.days.toString ++ ['/', 'T'])
  return result ++ (← durationTo_hh_mm_ss t.time) ++ (← variationText t.variation)

def TimeInterval.toString (t : TimeInterval) : Except Exception Text := do
  let result := if t.days.isAll then [] else 'W' :: (t.days.toString ++ ['/'])
  return result ++ 'T' :: (← durationTo_hh_mm_ss t.startTime) ++
    '/' :: 'T' :: (← durationTo_hh_mm_ss t.endTime)

/-- `Timer::infiniteExecutions`. -/
def Timer.infiniteExecutions : ℤ := 0

/-- The text of a timer up to its duration. -/
def Timer.repetitions (numExecutions : ℤ) : Text :=
  if numExecutions = 1 then []
  else if numExecutions = Timer.infiniteExecutions then ['R', '/']
  else
    let s := ofInt numExecutions
    -- Pad to two digits
    'R' :: ((if s.length < 2 then ['0'] else []) ++ s ++ ['/'])

def Timer.toString (t : Timer) : Except Exception Text := do
  return Timer.repetitions t.numExecutions ++ 'P' :: 'T' :: (← durationTo_hh_mm_ss t.expires) ++
    (← variationText t.variation)

namespace TimePattern

def toString (zone : TimeZone) : TimePattern → Except Exception Text
  | undefined => .ok []
  | absolute t => t.toString zone
  | recurring t => t.toString
  | interval t => t.toString
  | timer t => t.toString

/-- The number of executions of a timer, which is recurring if the text starts with `R`. -/
def numRepetitions (front : Char) (s : Text) : Except Exception ℤ := do
  if front = 'R' then
    if (← s.at' 1) = '/' then
      -- Infinite
      return 0
    else stoi (← s.substr 1 2)
  else return 1

def parseTimer (front : Char) (s : Text) : Except Exception Timer := do
  let numRepetitions ← numRepetitions front s
  let start := sizeAdd (s.find 'T' 0) 1
  let randomStart := s.find 'A' 0
  let expires ← parseDuration (← s.substr start (sizeSub randomStart start))
  let variance ←
    if randomStart ≠ npos then parseDuration (← s.suffix (sizeAdd randomStart 1)) else pure 0
  return ⟨expires, numRepetitions, variance⟩

def parseRecurring (s : Text) : Except Exception RecurringTime := do
  let days ← Weekdays.parse (← s.substr 1 3)
  let time ← parseDuration (← s.suffix 6)
  let variation ← if 14 < s.length then parseDuration (← s.suffix 15) else pure 0
  return ⟨time, days, variation⟩

/-- The days of a time interval, which has weekdays if the text starts with `W`. -/
def intervalDays (front : Char) (s : Text) : Except Exception Weekdays := do
  if front = 'W' then
    -- Time interval with weekdays
    Weekdays.parse (← s.substr 1 3)
  else return Weekdays.all

def parseInterval (front : Char) (s : Text) : Except Exception TimeInterval := do
  let days ← intervalDays front s
  let start := sizeAdd (s.find 'T' 0) 1
  let finish := s.find '/' start
  let startTime ← parseDuration (← s.substr start (sizeSub finish start))
  let endTime ← parseDuration (← s.suffix (sizeAdd finish 2))
  return ⟨startTime, endTime, days⟩

def parse (zone : TimeZone) (s : Text) : Except Exception TimePattern :=
  match s with
  | [] => .ok .undefined
  | front :: _ =>
    if s = ['n', 'o', 'n', 'e'] then .ok .undefined
    else if front.isDigit then absolute <$> AbsoluteVariedTime.parse zone s
    else if front = 'R' ∨ front = 'P' then timer <$> parseTimer front s
    else if front = 'W' ∧ s.count '/' = 1 then recurring <$> parseRecurring s
    else if front = 'T' ∨ front = 'W' then interval <$> parseInterval front s
    else .error (.hueException ("Unable to parse time string: " ++ String.ofList s))

end TimePattern

end Hueplusplus.Time
