import Hueplusplus.Foundation.Cuts
import Hueplusplus.TimePattern.RoundTrip

/-!
# What the parser of time patterns accepts and how it fails

The parser reads numbers at fixed offsets, and at offsets given by the places of `T`, `A`
and `/`. It checks neither the separators nor where the text ends, and reads a number from
any piece that begins with one. So it rejects a text outside the documented formats
cleanly exactly if it stops at a piece inside the text.
-/

namespace Hueplusplus.Time

open Text

/-- The format `hh:mm:ss`. -/
def timeFormat : Text := ['0', '0', ':', '0', '0', ':', '0', '0']

/-- The optional variation at the end of a format. -/
inductive VariationFormat : Text → Prop where
  | none : VariationFormat []
  | some {time : Text} : HasFormat timeFormat time → VariationFormat ('A' :: time)

/-- What stands before the duration of a timer: nothing, `R/` or `Rnn/`. -/
inductive RepetitionsFormat : Text → Prop where
  | once : RepetitionsFormat []
  | infinite : RepetitionsFormat ['R', '/']
  | finite {number : Text} :
    HasFormat ['0', '0'] number → RepetitionsFormat ('R' :: (number ++ ['/']))

/-- The texts in the documented formats of the kinds of patterns, the empty text and
`none`. -/
inductive Documented : Text → Prop where
  | empty : Documented []
  | none : Documented ['n', 'o', 'n', 'e']
  | absolute {timestamp variation : Text} : HasFormat timestampFormat timestamp →
    VariationFormat variation → Documented (timestamp ++ variation)
  | recurring {days time variation : Text} : HasFormat ['0', '0', '0'] days →
    HasFormat timeFormat time → VariationFormat variation →
    Documented ('W' :: (days ++ '/' :: 'T' :: (time ++ variation)))
  | interval {start finish : Text} : HasFormat timeFormat start → HasFormat timeFormat finish →
    Documented ('T' :: (start ++ '/' :: 'T' :: finish))
  | weeklyInterval {days start finish : Text} : HasFormat ['0', '0', '0'] days →
    HasFormat timeFormat start → HasFormat timeFormat finish →
    Documented ('W' :: (days ++ '/' :: 'T' :: (start ++ '/' :: 'T' :: finish)))
  | timer {repetitions time variation : Text} : RepetitionsFormat repetitions →
    HasFormat timeFormat time → VariationFormat variation →
    Documented (repetitions ++ 'P' :: 'T' :: (time ++ variation))

/-- The exceptions that the parser is documented to throw. -/
def Clean : Exception → Prop
  | .hueException _ => True
  | .invalidArgument _ => True
  | _ => False

/-- A pattern is returned only for a documented text, and what is thrown is documented. -/
def ParsesCleanly (zone : TimeZone) (s : Text) : Prop :=
  match TimePattern.parse zone s with
  | .ok _ => Documented s
  | .error e => Clean e

def durationCuts : Option Text → List (Option Text)
  | none => [none]
  | some s => [s.cut 0 2, s.cut 3 2, s.cut 6 2]

def timestampCuts (s : Text) : List (Option Text) :=
  [s.cut 0 4, s.cut 5 2, s.cut 8 2, s.cut 11 2, s.cut 14 2, s.cut 17 2]

def absoluteCuts (s : Text) : List (Option Text) :=
  timestampCuts s ++ if 19 < s.length ∧ s[19]? = some 'A' then durationCuts (s.rest 20) else []

def repetitionsCuts (front : Char) (s : Text) : List (Option Text) :=
  if front = 'R' then
    match s[1]? with
    | none => [none]
    | some c => if c = '/' then [] else [s.cut 1 2]
  else []

def timerCuts (front : Char) (s : Text) : List (Option Text) :=
  let start := sizeAdd (s.find 'T' 0) 1
  let randomStart := s.find 'A' 0
  repetitionsCuts front s ++ (durationCuts (s.cut start (sizeSub randomStart start)) ++
    if randomStart ≠ npos then durationCuts (s.rest (sizeAdd randomStart 1)) else [])

def recurringCuts (s : Text) : List (Option Text) :=
  [s.cut 1 3] ++ (durationCuts (s.rest 6) ++
    if 14 < s.length then durationCuts (s.rest 15) else [])

def intervalCuts (front : Char) (s : Text) : List (Option Text) :=
  let start := sizeAdd (s.find 'T' 0) 1
  let finish := s.find '/' start
  (if front = 'W' then [s.cut 1 3] else []) ++
    (durationCuts (s.cut start (sizeSub finish start)) ++
      durationCuts (s.rest (sizeAdd finish 2)))

/-- The pieces of the text, in the order they are read; nothing if the first character does
not begin a pattern. -/
def numberCuts (s : Text) : Option (List (Option Text)) :=
  match s with
  | [] => none
  | front :: _ =>
    if front.isDigit then some (absoluteCuts s)
    else if front = 'R' ∨ front = 'P' then some (timerCuts front s)
    else if front = 'W' ∧ s.count '/' = 1 then some (recurringCuts s)
    else if front = 'T' ∨ front = 'W' then some (intervalCuts front s)
    else none

/-- The first piece that is not read as a number is inside the text. -/
def StopsInside (cuts : List (Option Text)) : Prop := ∃ piece, firstBad cuts = some (some piece)

variable {kind : Exception → Prop}

theorem parseDuration_reads (invalid : ∀ what, kind (.invalidArgument what)) (s : Text) :
    Reads kind (durationCuts (some s)) (parseDuration s) := by
  rw [durationCuts, parseDuration]
  apply Reads.number_bind s 0 (by decide) invalid
  intro hour
  apply Reads.number_bind s 3 (by decide) invalid
  intro min
  apply Reads.number_bind s 6 (by decide) invalid
  intro sec
  exact Reads.pure _

theorem substr_duration (invalid : ∀ what, kind (.invalidArgument what)) (s : Text)
    (pos count : ℕ) :
    Reads kind (durationCuts (s.cut pos count)) (s.substr pos count >>= parseDuration) :=
  Reads.substr rfl (parseDuration_reads invalid)

theorem suffix_duration (invalid : ∀ what, kind (.invalidArgument what)) (s : Text) (pos : ℕ) :
    Reads kind (durationCuts (s.rest pos)) (s.suffix pos >>= parseDuration) :=
  Reads.suffix rfl (parseDuration_reads invalid)

theorem readTm_reads (s : Text) :
    Reads (fun e => ∃ what, e = Exception.invalidArgument what) (timestampCuts s) (readTm s) := by
  have invalid : ∀ what, ∃ what', LogicErrors.invalidArgument what =
      Exception.invalidArgument what' := fun what => ⟨what, rfl⟩
  rw [timestampCuts, readTm]
  apply Reads.number_bind s 0 (by decide) invalid
  intro year
  apply Reads.number_bind s 5 (by decide) invalid
  intro mon
  apply Reads.number_bind s 8 (by decide) invalid
  intro mday
  apply Reads.number_bind s 11 (by decide) invalid
  intro hour
  apply Reads.number_bind s 14 (by decide) invalid
  intro min
  apply Reads.number_bind s 17 (by decide) invalid
  intro sec
  exact Reads.pure _

theorem timestampToTm_reads (s : Text) : Reads Clean (timestampCuts s) (timestampToTm s) := by
  have reads := readTm_reads s
  rw [Reads] at reads ⊢
  rw [timestampToTm]
  split at reads
  · obtain ⟨tm, read⟩ := reads
    exact ⟨tm, by rw [read]⟩
  · obtain ⟨e, read, what, rfl⟩ := reads
    rw [read]
    exact ⟨_, rfl, trivial⟩
  · obtain ⟨what, read⟩ := reads
    exact ⟨what, by rw [read]; rfl⟩

theorem parseTimestamp_reads (zone : TimeZone) (s : Text) :
    Reads Clean (timestampCuts s) (zone.parseTimestamp s) ∨
      zone.parseTimestamp s = .error (.hueException "mktime failed") ∧
        ∃ tm, zone.mktime tm = -1 := by
  have reads := timestampToTm_reads s
  rw [TimeZone.parseTimestamp]
  cases read : timestampToTm s with
  | error e =>
      rw [read] at reads
      exact .inl (reads.map fun _ => (0 : ℤ))
  | ok tm =>
      by_cases fails : zone.mktime tm = -1
      · right
        simp only [Except.ok_bind, if_pos fails]
        exact ⟨rfl, tm, fails⟩
      · left
        rw [read] at reads
        simp only [Except.ok_bind, if_neg fails]
        exact reads.map fun _ => fromTimeT (zone.mktime tm)

theorem parseAbsolute_reads (zone : TimeZone) (s : Text) :
    Reads Clean (absoluteCuts s) (AbsoluteVariedTime.parse zone s) ∨
      AbsoluteVariedTime.parse zone s = .error (.hueException "mktime failed") ∧
        ∃ tm, zone.mktime tm = -1 := by
  rw [AbsoluteVariedTime.parse, absoluteCuts]
  rcases parseTimestamp_reads zone s with reads | ⟨failed, tm⟩
  · left
    apply reads.bind
    intro time
    split
    · rw [← List.append_nil (durationCuts (s.rest 20))]
      exact (suffix_duration (fun _ => trivial) s 20).bind_bind fun _ => Reads.pure _
    · exact Reads.pure _
  · right
    rw [failed]
    exact ⟨rfl, tm⟩

theorem numRepetitions_reads (invalid : ∀ what, kind (.invalidArgument what)) (front : Char)
    (s : Text) :
    Reads kind (repetitionsCuts front s) (TimePattern.numRepetitions front s) := by
  rw [repetitionsCuts, TimePattern.numRepetitions]
  by_cases recurring : front = 'R'
  · rw [if_pos recurring, if_pos recurring, at']
    cases s[1]? with
    | none => exact Reads.missing
    | some c =>
        simp only [Except.ok_bind]
        split
        · exact Reads.pure _
        · exact Reads.number s 1 (by decide) invalid
  · rw [if_neg recurring, if_neg recurring]
    exact Reads.pure _

theorem parseTimer_reads (invalid : ∀ what, kind (.invalidArgument what)) (front : Char)
    (s : Text) : Reads kind (timerCuts front s) (TimePattern.parseTimer front s) := by
  rw [timerCuts, TimePattern.parseTimer]
  apply (numRepetitions_reads invalid front s).bind
  intro numRepetitions
  apply (substr_duration invalid s _ _).bind_bind
  intro expires
  split
  · rw [← List.append_nil (durationCuts (s.rest _))]
    exact (suffix_duration invalid s _).bind_bind fun _ => Reads.pure _
  · exact Reads.pure _

theorem weekdays_reads (invalid : ∀ what, kind (.invalidArgument what)) (s : Text) :
    Reads kind [s.cut 1 3] (s.substr 1 3 >>= Weekdays.parse) := by
  have number : Reads kind [s.cut 1 3] (s.substr 1 3 >>= stoi) :=
    Reads.number s 1 (by decide) invalid
  have reads := number.map Weekdays.mk
  rw [map_eq_pure_bind, bind_assoc] at reads
  exact reads

theorem parseRecurring_reads (invalid : ∀ what, kind (.invalidArgument what)) (s : Text) :
    Reads kind (recurringCuts s) (TimePattern.parseRecurring s) := by
  rw [recurringCuts, TimePattern.parseRecurring]
  apply (weekdays_reads invalid s).bind_bind
  intro days
  apply (suffix_duration invalid s 6).bind_bind
  intro time
  split
  · rw [← List.append_nil (durationCuts (s.rest 15))]
    exact (suffix_duration invalid s 15).bind_bind fun _ => Reads.pure _
  · exact Reads.pure _

theorem parseInterval_reads (invalid : ∀ what, kind (.invalidArgument what)) (front : Char)
    (s : Text) : Reads kind (intervalCuts front s) (TimePattern.parseInterval front s) := by
  rw [intervalCuts, TimePattern.parseInterval]
  have days : Reads kind (if front = 'W' then [s.cut 1 3] else [])
      (TimePattern.intervalDays front s) := by
    rw [TimePattern.intervalDays]
    split
    · exact weekdays_reads invalid s
    · exact Reads.pure _
  apply days.bind
  intro days
  apply (substr_duration invalid s _ _).bind_bind
  intro startTime
  rw [← List.append_nil (durationCuts (s.rest _))]
  exact (suffix_duration invalid s _).bind_bind fun _ => Reads.pure _

/-- The parser reads the pieces of the text one after the other, unless `mktime` fails. -/
theorem parse_reads (zone : TimeZone) {s : Text} {cuts : List (Option Text)}
    (h : numberCuts s = some cuts) :
    Reads Clean cuts (TimePattern.parse zone s) ∨
      TimePattern.parse zone s = .error (.hueException "mktime failed") ∧
        ∃ tm, zone.mktime tm = -1 := by
  have invalid : ∀ what, Clean (.invalidArgument what) := fun _ => trivial
  cases s with
  | nil => simp [numberCuts] at h
  | cons front tail =>
      have notNone : front :: tail ≠ ['n', 'o', 'n', 'e'] := by
        intro same
        rw [same] at h
        simp [numberCuts, Char.isDigit] at h
      simp only [TimePattern.parse, if_neg notNone]
      simp only [numberCuts] at h
      by_cases digit : front.isDigit = true
      · rw [if_pos digit, Option.some.injEq] at h
        rw [if_pos digit, ← h]
        rcases parseAbsolute_reads zone (front :: tail) with reads | ⟨failed, tm⟩
        · exact .inl (reads.map _)
        · right
          rw [failed]
          exact ⟨rfl, tm⟩
      left
      rw [if_neg digit] at h ⊢
      by_cases timer : front = 'R' ∨ front = 'P'
      · rw [if_pos timer, Option.some.injEq] at h
        rw [if_pos timer, ← h]
        exact (parseTimer_reads invalid front (front :: tail)).map _
      rw [if_neg timer] at h ⊢
      by_cases recurring : front = 'W' ∧ (front :: tail).count '/' = 1
      · rw [if_pos recurring, Option.some.injEq] at h
        rw [if_pos recurring, ← h]
        exact (parseRecurring_reads invalid (front :: tail)).map _
      rw [if_neg recurring] at h ⊢
      by_cases interval : front = 'T' ∨ front = 'W'
      · rw [if_pos interval, Option.some.injEq] at h
        rw [if_pos interval, ← h]
        exact (parseInterval_reads invalid front (front :: tail)).map _
      · rw [if_neg interval] at h
        exact absurd h (by simp)

theorem notMem_of_digits {s : Text} (h : ∀ c ∈ s, c.isDigit) {c : Char}
    (other : c.isDigit = false) : c ∉ s := by
  intro member
  have digit := h c member
  rw [other] at digit
  exact absurd digit (by decide)

theorem shows_of_hasFormat {time : Text} (h : HasFormat timeFormat time) :
    ∃ duration, Shows time duration := by
  have width := h.length
  obtain ⟨hour, time, rfl, formatHour, later⟩ :=
    HasFormat.of_column ['0', '0'] ':' rfl h
  obtain ⟨min, sec, rfl, formatMin, formatSec⟩ :=
    HasFormat.of_column ['0', '0'] ':' rfl later
  have digits : ∀ {s : Text}, HasFormat ['0', '0'] s → ∀ c ∈ s, c.isDigit := fun format =>
    HasFormat.isDigit (w := 2) format
  have reads : ∀ {s : Text}, HasFormat ['0', '0'] s → ∃ n, stoi s = (.ok n : Except Exception ℤ) :=
    fun format => HasFormat.stoi (w := 2) (by decide) (by decide) format
  obtain ⟨h, readHour⟩ := reads formatHour
  obtain ⟨m, readMin⟩ := reads formatMin
  obtain ⟨s, readSec⟩ := reads formatSec
  refine ⟨hours h + minutes m + seconds s, width, ?_, ?_⟩
  · intro c member
    simp only [List.mem_append, List.mem_cons] at member
    rcases member with inHour | colon | inMin | colon | inSec
    · exact .inl (digits formatHour c inHour)
    · exact .inr colon
    · exact .inl (digits formatMin c inMin)
    · exact .inr colon
    · exact .inl (digits formatSec c inSec)
  · exact parseDuration_columns formatHour.length formatMin.length formatSec.length readHour
      readMin readSec

theorem showsVariation_of_format {rest : Text} (h : VariationFormat rest) :
    ∃ variation, ShowsVariation rest variation := by
  cases h with
  | none => exact ⟨0, .inl ⟨rfl, rfl⟩⟩
  | some format =>
      obtain ⟨variation, shows⟩ := shows_of_hasFormat format
      exact ⟨variation, .inr ⟨_, rfl, shows⟩⟩

theorem weekdays_of_hasFormat {days : Text} (h : HasFormat ['0', '0', '0'] days) :
    ∃ weekdays, Weekdays.parse days = .ok weekdays := by
  obtain ⟨n, read⟩ := HasFormat.stoi (ε := Exception) (w := 3) (by decide) (by decide) h
  exact ⟨⟨n⟩, by simp [Weekdays.parse, read]⟩

/-- The columns of a timestamp in the documented format are numbers. -/
theorem timestampToTm_of_hasFormat {timestamp : Text} (h : HasFormat timestampFormat timestamp) :
    ∃ tm, timestampToTm timestamp = .ok tm := by
  obtain ⟨year, rest, rfl, formatYear, later⟩ :=
    HasFormat.of_column ['0', '0', '0', '0'] '-' rfl h
  obtain ⟨mon, rest, rfl, formatMon, later⟩ :=
    HasFormat.of_column ['0', '0'] '-' rfl later
  obtain ⟨mday, rest, rfl, formatMday, later⟩ :=
    HasFormat.of_column ['0', '0'] 'T' rfl later
  obtain ⟨hour, rest, rfl, formatHour, later⟩ :=
    HasFormat.of_column ['0', '0'] ':' rfl later
  obtain ⟨min, sec, rfl, formatMin, formatSec⟩ :=
    HasFormat.of_column ['0', '0'] ':' rfl later
  have reads : ∀ {s : Text}, HasFormat ['0', '0'] s → ∃ n, stoi s = (.ok n : Except Exception ℤ) :=
    fun format => HasFormat.stoi (w := 2) (by decide) (by decide) format
  obtain ⟨Y, readYear⟩ :=
    HasFormat.stoi (ε := Exception) (w := 4) (by decide) (by decide) formatYear
  obtain ⟨M, readMon⟩ := reads formatMon
  obtain ⟨D, readMday⟩ := reads formatMday
  obtain ⟨hh, readHour⟩ := reads formatHour
  obtain ⟨mm, readMin⟩ := reads formatMin
  obtain ⟨ss, readSec⟩ := reads formatSec
  refine ⟨⟨Y - 1900, M - 1, D, hh, mm, ss, -1⟩, ?_⟩
  rw [timestampToTm, Tm.Normal.readTm_columns formatYear.length formatMon.length formatMday.length
    formatHour.length formatMin.length formatSec.length]
  simp [readYear, readMon, readMday, readHour, readMin, readSec]

section Documented

variable (zone : TimeZone)

/-- An absolute time is parsed, unless the calendar has no such time. -/
theorem parse_of_absolute {timestamp rest : Text} (format : HasFormat timestampFormat timestamp)
    (varies : VariationFormat rest) :
    (∃ p, TimePattern.parse zone (timestamp ++ rest) = .ok p) ∨
      TimePattern.parse zone (timestamp ++ rest) = .error (.hueException "mktime failed") := by
  obtain ⟨variation, varies⟩ := showsVariation_of_format varies
  obtain ⟨tm, read⟩ := timestampToTm_of_hasFormat format
  have absolute : TimePattern.parse zone (timestamp ++ rest) =
      .absolute <$> AbsoluteVariedTime.parse zone (timestamp ++ rest) := by
    cases format with
    | cons digit later => exact TimePattern.parse_digit zone _ (by simpa using digit)
  rw [absolute]
  by_cases fails : zone.mktime tm = -1
  · right
    have stamp : zone.parseTimestamp timestamp = .error (.hueException "mktime failed") := by
      simp only [TimeZone.parseTimestamp, read, Except.ok_bind, if_pos fails]
      rfl
    rw [AbsoluteVariedTime.parse, zone.parseTimestamp_append rest format.length, stamp]
    rfl
  · left
    have stamp : zone.parseTimestamp timestamp = .ok (fromTimeT (zone.mktime tm)) := by
      simp [TimeZone.parseTimestamp, read, if_neg fails]
    rw [TimePattern.parseAbsolute_eq zone format.length stamp varies]
    exact ⟨_, rfl⟩

theorem parse_of_recurring {days time rest : Text} (format : HasFormat ['0', '0', '0'] days)
    (times : HasFormat timeFormat time) (varies : VariationFormat rest) :
    ∃ p, TimePattern.parse zone ('W' :: (days ++ '/' :: 'T' :: (time ++ rest))) = .ok p := by
  obtain ⟨variation, varies⟩ := showsVariation_of_format varies
  obtain ⟨duration, shows⟩ := shows_of_hasFormat times
  obtain ⟨weekdays, read⟩ := weekdays_of_hasFormat format
  have slashes : ∀ {t : Text}, '/' ∉ t → t.count '/' = 0 := List.count_eq_zero_of_not_mem
  rw [TimePattern.parse_W_of_one zone, TimePattern.parseRecurring_eq format.length read shows
    varies]
  · exact ⟨_, rfl⟩
  · simp [List.count_append, slashes (notMem_of_digits (HasFormat.isDigit (w := 3) format) rfl),
      slashes (shows.notMem (c := '/') (by decide)),
      slashes (varies.notMem (c := '/') (by decide) (by decide))]

theorem parse_of_interval {text text' : Text} (start : HasFormat timeFormat text)
    (finish : HasFormat timeFormat text') :
    ∃ p, TimePattern.parse zone ('T' :: (text ++ '/' :: 'T' :: text')) = .ok p := by
  obtain ⟨startTime, starts⟩ := shows_of_hasFormat start
  obtain ⟨endTime, ends⟩ := shows_of_hasFormat finish
  have parsed :=
    TimePattern.parseInterval_eq 'T' [] List.not_mem_nil (by decide) rfl starts ends
  rw [List.nil_append] at parsed
  rw [TimePattern.parse_T, parsed]
  exact ⟨_, rfl⟩

theorem parse_of_weeklyInterval {digits text text' : Text}
    (days : HasFormat ['0', '0', '0'] digits) (start : HasFormat timeFormat text)
    (finish : HasFormat timeFormat text') :
    ∃ p, TimePattern.parse zone
      ('W' :: (digits ++ '/' :: 'T' :: (text ++ '/' :: 'T' :: text'))) = .ok p := by
  obtain ⟨startTime, starts⟩ := shows_of_hasFormat start
  obtain ⟨endTime, ends⟩ := shows_of_hasFormat finish
  obtain ⟨weekdays, read⟩ := weekdays_of_hasFormat days
  have isDigit := HasFormat.isDigit (w := 3) days
  have cutDays : Text.substr ('W' :: (digits ++ '/' :: 'T' :: (text ++ '/' :: 'T' :: text'))) 1 3 =
      (.ok digits : Except Exception Text) :=
    substr_eq ['W'] ('/' :: 'T' :: (text ++ '/' :: 'T' :: text')) rfl rfl days.length
  have parsed : TimePattern.parseInterval 'W' (('W' :: (digits ++ ['/'])) ++
      'T' :: (text ++ '/' :: 'T' :: text')) = .ok ⟨startTime, endTime, weekdays⟩ :=
    TimePattern.parseInterval_eq 'W' ('W' :: (digits ++ ['/']))
      (by simp [notMem_of_digits isDigit (c := 'T') rfl]) (by simp [days.length])
      (by simp only [TimePattern.intervalDays, if_true, List.cons_append, List.append_assoc,
          List.nil_append, cutDays, Except.ok_bind, read]) starts ends
  simp only [List.cons_append, List.append_assoc, List.nil_append] at parsed
  rw [TimePattern.parse_W_of_not_one zone, parsed]
  · exact ⟨_, rfl⟩
  · simp only [List.count_append, List.count_cons_self, List.count_cons]
    omega

/-- A timer is parsed if what stands before its duration is a number of executions. -/
theorem parse_of_numRepetitions {front : Char} (before : Text) {n : ℤ} {time rest : Text}
    (kind : front = 'R' ∨ front = 'P') (noT : 'T' ∉ front :: before)
    (noA : 'A' ∉ front :: before) (short : (front :: before).length ≤ 5)
    (times : HasFormat timeFormat time) (varies : VariationFormat rest)
    (executions : TimePattern.numRepetitions front
      (front :: (before ++ 'T' :: (time ++ rest))) = .ok n) :
    ∃ p, TimePattern.parse zone (front :: (before ++ 'T' :: (time ++ rest))) = .ok p := by
  obtain ⟨variation, varies⟩ := showsVariation_of_format varies
  obtain ⟨duration, shows⟩ := shows_of_hasFormat times
  rw [TimePattern.parse_R_or_P zone kind, ← List.cons_append,
    TimePattern.parseTimer_eq front (front :: before) noT noA short executions shows varies]
  exact ⟨_, rfl⟩

theorem parse_of_timer {repetitions time rest : Text} (repeats : RepetitionsFormat repetitions)
    (times : HasFormat timeFormat time) (varies : VariationFormat rest) :
    ∃ p, TimePattern.parse zone (repetitions ++ 'P' :: 'T' :: (time ++ rest)) = .ok p := by
  cases repeats with
  | once =>
      exact parse_of_numRepetitions zone [] (.inr rfl) (by decide) (by decide) (by decide) times
        varies rfl
  | infinite =>
      exact parse_of_numRepetitions zone ['/', 'P'] (.inl rfl) (by decide) (by decide) (by decide)
        times varies rfl
  | @finite number format =>
      have isDigit := HasFormat.isDigit (w := 2) format
      obtain ⟨n, read⟩ := HasFormat.stoi (ε := Exception) (w := 2) (by decide) (by decide) format
      have executions := TimePattern.numRepetitions_digits format.length isDigit read
        ('/' :: 'P' :: 'T' :: (time ++ rest))
      have parsed := parse_of_numRepetitions zone (number ++ ['/', 'P']) (n := n) (.inl rfl)
        (by simp [notMem_of_digits isDigit (c := 'T') rfl])
        (by simp [notMem_of_digits isDigit (c := 'A') rfl]) (by simp [format.length])
        times varies (by simpa using executions)
      simpa using parsed

/-- A documented text is parsed, unless the calendar has no such time. -/
theorem parse_of_documented {s : Text} (h : Documented s) :
    (∃ p, TimePattern.parse zone s = .ok p) ∨
      TimePattern.parse zone s = .error (.hueException "mktime failed") := by
  cases h with
  | empty => exact .inl ⟨_, rfl⟩
  | none => exact .inl ⟨_, rfl⟩
  | absolute format varies => exact parse_of_absolute zone format varies
  | recurring days time varies => exact .inl (parse_of_recurring zone days time varies)
  | interval start finish => exact .inl (parse_of_interval zone start finish)
  | weeklyInterval days start finish =>
      exact .inl (parse_of_weeklyInterval zone days start finish)
  | timer repeats time varies => exact .inl (parse_of_timer zone repeats time varies)

end Documented

theorem parse_of_unknown (zone : TimeZone) {s : Text} (h : numberCuts s = none) :
    ParsesCleanly zone s := by
  rw [ParsesCleanly]
  cases s with
  | nil => exact .empty
  | cons front tail =>
      simp only [numberCuts] at h
      by_cases isNone : front :: tail = ['n', 'o', 'n', 'e']
      · rw [isNone]
        exact .none
      · simp only [TimePattern.parse, if_neg isNone]
        split at h
        · contradiction
        · rw [if_neg ‹_›]
          split at h
          · contradiction
          · rw [if_neg ‹_›]
            split at h
            · contradiction
            · rw [if_neg ‹_›]
              split at h
              · contradiction
              · rw [if_neg ‹_›]
                trivial

/-- The parser accepts only documented texts and fails only as documented, in every time zone,
exactly if the text is documented, begins like no pattern, or if the first of its pieces that
is not read as a number is inside the text. -/
theorem parse_clean_iff (s : Text) :
    (∀ zone, ParsesCleanly zone s) ↔
      Documented s ∨ numberCuts s = none ∨ ∃ cuts, numberCuts s = some cuts ∧ StopsInside cuts := by
  constructor
  · intro clean
    cases known : numberCuts s with
    | none => exact .inr (.inl rfl)
    | some cuts =>
        -- A calendar that has all times.
        have parsed := clean ⟨fun _ => none, fun _ => 0⟩
        have reads : Reads Clean cuts (TimePattern.parse ⟨fun _ => none, fun _ => 0⟩ s) := by
          rcases parse_reads ⟨fun _ => none, fun _ => 0⟩ known with reads | ⟨-, tm, fails⟩
          · exact reads
          · exact absurd fails (by decide : (0 : ℤ) ≠ -1)
        rw [Reads] at reads
        rw [ParsesCleanly] at parsed
        split at reads
        · obtain ⟨p, read⟩ := reads
          rw [read] at parsed
          exact .inl parsed
        · rename_i piece bad
          exact .inr (.inr ⟨cuts, rfl, piece, bad⟩)
        · obtain ⟨what, read⟩ := reads
          rw [read] at parsed
          exact parsed.elim
  · intro h zone
    rcases h with documented | unknown | ⟨cuts, known, piece, bad⟩
    · rw [ParsesCleanly]
      rcases parse_of_documented zone documented with ⟨p, parsed⟩ | failed
      · rw [parsed]
        exact documented
      · rw [failed]
        trivial
    · exact parse_of_unknown zone unknown
    · rw [ParsesCleanly]
      rcases parse_reads zone known with reads | ⟨failed, -⟩
      · rw [Reads] at reads
        rw [bad] at reads
        obtain ⟨e, failed, clean⟩ := reads
        rw [failed]
        exact clean
      · rw [failed]
        trivial

/-- A date without a time is out of range at the place of the hour. -/
theorem date_not_parsed_cleanly : ¬ ∀ zone s, ParsesCleanly zone s := by
  intro always
  have parsed := always utc ['2', '0', '2', '0', '-', '0', '3', '-', '0', '3']
  have thrown : TimePattern.parse utc
      ['2', '0', '2', '0', '-', '0', '3', '-', '0', '3'] =
        .error (.outOfRange "basic_string::substr") := rfl
  rw [ParsesCleanly] at parsed
  rw [thrown] at parsed
  exact parsed

/-- Without a slash, the end of an interval is read from the text of its start. -/
example : TimePattern.parse utc ['T', '0', '1', ':', '0', '2', ':', '0', '3'] =
    .ok (.interval ⟨seconds 3723, seconds 3723, Weekdays.all⟩) := rfl

end Hueplusplus.Time
