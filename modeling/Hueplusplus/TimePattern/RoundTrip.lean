import Hueplusplus.TimePattern.UTC

/-!
# Printing and parsing a time pattern

The texts of durations and weekdays have fixed widths and none of the characters the
parser searches for. So the parser finds every field where `toString` has put it, whatever
optional fields there are. Only the number of executions of a timer can be too wide: the
parser reads two digits of it.
-/

namespace Hueplusplus.Time

open Text

namespace Shows

variable {text : Text} {duration : ℤ}

/-- A character that a text of a duration does not have. -/
theorem notMem (h : Shows text duration) {c : Char} (other : c.isDigit = false ∧ c ≠ ':') :
    c ∉ text := by
  intro member
  rcases h.characters c member with digit | colon
  · rw [other.1] at digit
    exact absurd digit (by decide)
  · exact other.2 colon

theorem parse_self (h : Shows text duration) : parseDuration text = .ok duration := by
  simpa using h.parse []

end Shows

/-- The end of a text with this random variation: nothing for the variation zero, and else
an `A` and its text. -/
def ShowsVariation (rest : Text) (variation : ℤ) : Prop :=
  rest = [] ∧ variation = 0 ∨ ∃ text, rest = 'A' :: text ∧ Shows text variation

theorem showsVariation_of_wholeSeconds {variation : ℤ} (h : WholeSeconds variation) :
    ∃ rest, variationText variation = .ok rest ∧ ShowsVariation rest variation := by
  by_cases zero : variation = 0
  · exact ⟨[], by simp [variationText, zero], .inl ⟨rfl, zero⟩⟩
  · obtain ⟨text, print, shows⟩ := shows_of_wholeSeconds h
    exact ⟨'A' :: text, by simp [variationText, zero, print], .inr ⟨text, rfl, shows⟩⟩

theorem ShowsVariation.notMem {rest : Text} {variation : ℤ} (h : ShowsVariation rest variation)
    {c : Char} (other : c.isDigit = false ∧ c ≠ ':') (notA : c ≠ 'A') : c ∉ rest := by
  rcases h with ⟨rfl, -⟩ | ⟨text, rfl, shows⟩
  · exact List.not_mem_nil
  · rw [List.mem_cons, not_or]
    exact ⟨notA, shows.notMem other⟩

/-- A set of days of the week. -/
def Weekdays.Valid (w : Weekdays) : Prop := 0 ≤ w.bitmask ∧ w.bitmask < 2 ^ 7

namespace Weekdays.Valid

variable {w : Weekdays} (valid : w.Valid)
include valid

theorem toString_eq : w.toString = padded 3 w.bitmask.toNat := by
  have nonnegative : ¬ w.bitmask < 0 := not_lt.mpr valid.1
  have same : w.bitmask.natAbs = w.bitmask.toNat := by
    have := valid.1
    omega
  simp [Weekdays.toString, ofInt, nonnegative, same, padded, List.leftpad]

theorem width : w.toString.length = 3 := by
  obtain ⟨lower, upper⟩ := valid
  rw [toString_eq ⟨lower, upper⟩]
  exact length_padded (by decide) (by omega)

theorem notMem {c : Char} (other : c.isDigit = false) : c ∉ w.toString := by
  rw [valid.toString_eq]
  exact notMem_padded other

theorem roundTrip : Weekdays.parse w.toString = .ok w := by
  rw [valid.toString_eq]
  obtain ⟨lower, upper⟩ := valid
  have read := stoi_padded (ε := Exception) (w := 3) (n := w.bitmask.toNat) (by decide) (by decide)
    (by omega)
  simp [Weekdays.parse, read, lower]

end Weekdays.Valid

namespace TimePattern

variable (zone : TimeZone)

theorem parse_digit {front : Char} (rest : Text) (digit : front.isDigit) :
    parse zone (front :: rest) = absolute <$> AbsoluteVariedTime.parse zone (front :: rest) := by
  have notNone : front :: rest ≠ ['n', 'o', 'n', 'e'] := by
    rintro same
    rw [(List.cons.inj same).1] at digit
    exact absurd digit (by decide)
  simp only [parse, if_neg notNone, if_pos digit]

theorem parse_R_or_P {front : Char} (kind : front = 'R' ∨ front = 'P') (rest : Text) :
    parse zone (front :: rest) = timer <$> parseTimer front (front :: rest) := by
  rcases kind with rfl | rfl <;> simp [parse, Char.isDigit]

theorem parse_W_of_one {rest : Text} (slashes : rest.count '/' = 1) :
    parse zone ('W' :: rest) = recurring <$> parseRecurring ('W' :: rest) := by
  simp [parse, Char.isDigit, slashes]

theorem parse_W_of_not_one {rest : Text} (slashes : rest.count '/' ≠ 1) :
    parse zone ('W' :: rest) = interval <$> parseInterval 'W' ('W' :: rest) := by
  simp [parse, Char.isDigit, slashes]

theorem parse_T (rest : Text) :
    parse zone ('T' :: rest) = interval <$> parseInterval 'T' ('T' :: rest) := by
  simp [parse, Char.isDigit]

theorem parseRecurring_eq {digits : Text} {days : Weekdays} (width : digits.length = 3)
    (weekdays : Weekdays.parse digits = .ok days) {time variation : ℤ} {text rest : Text}
    (shows : Shows text time) (varies : ShowsVariation rest variation) :
    parseRecurring ('W' :: (digits ++ '/' :: 'T' :: (text ++ rest))) =
      .ok ⟨time, days, variation⟩ := by
  have cutDays : substr ('W' :: (digits ++ '/' :: 'T' :: (text ++ rest))) 1 3 =
      (.ok digits : Except Exception Text) :=
    substr_eq ['W'] ('/' :: 'T' :: (text ++ rest)) rfl rfl width
  have cutTime : suffix ('W' :: (digits ++ '/' :: 'T' :: (text ++ rest))) 6 =
      (.ok (text ++ rest) : Except Exception Text) :=
    suffix_eq ('W' :: (digits ++ ['/', 'T'])) (by simp) (by simp [width])
  simp only [parseRecurring, cutDays, cutTime, Except.ok_bind, weekdays, shows.parse]
  rcases varies with ⟨rfl, rfl⟩ | ⟨text', rfl, shows'⟩
  · simp [width, shows.length]
  · have cutVariation : suffix ('W' :: (digits ++ '/' :: 'T' :: (text ++ 'A' :: text'))) 15 =
        (.ok text' : Except Exception Text) :=
      suffix_eq ('W' :: (digits ++ '/' :: 'T' :: (text ++ ['A']))) (by simp)
        (by simp [width, shows.length])
    have long : 14 < ('W' :: (digits ++ '/' :: 'T' :: (text ++ 'A' :: text'))).length := by
      simp [width, shows.length, shows'.length]
    simp only [if_pos long, cutVariation, Except.ok_bind, shows'.parse_self, Except.pure_eq_ok]

/-- The two times of an interval, after what stands before the first `T`. -/
theorem parseInterval_eq (front : Char) (before : Text) {start finish : Text} {days : Weekdays}
    {startTime endTime : ℤ} (noT : 'T' ∉ before) (short : before.length ≤ 5)
    (weekdays : intervalDays front (before ++ 'T' :: (start ++ '/' :: 'T' :: finish)) = .ok days)
    (starts : Shows start startTime) (ends : Shows finish endTime) :
    parseInterval front (before ++ 'T' :: (start ++ '/' :: 'T' :: finish)) =
      .ok ⟨startTime, endTime, days⟩ := by
  generalize text : before ++ 'T' :: (start ++ '/' :: 'T' :: finish) = s at weekdays ⊢
  have findT : s.find 'T' 0 = before.length := by
    rw [find_append_cons 0 (by rw [List.drop_zero, text]) noT, Nat.zero_add]
  have startPos : sizeAdd (s.find 'T' 0) 1 = before.length + 1 := by
    rw [findT, sizeAdd_of_lt (by omega)]
  have afterT : s.drop (before.length + 1) = start ++ '/' :: 'T' :: finish := by
    rw [← text]
    simp [List.drop_append]
  have findSlash : s.find '/' (before.length + 1) = before.length + 1 + 8 := by
    rw [find_append_cons _ afterT (starts.notMem (by decide)), starts.length]
  have cutStart : s.substr (before.length + 1) 8 = (.ok start : Except Exception Text) :=
    substr_eq (before ++ ['T']) ('/' :: 'T' :: finish) (by simp [← text]) (by simp) starts.length
  have cutEnd : s.suffix (before.length + 1 + 8 + 2) = (.ok finish : Except Exception Text) :=
    suffix_eq (before ++ 'T' :: (start ++ ['/', 'T'])) (by simp [← text]) (by simp [starts.length])
  have width : sizeSub (before.length + 1 + 8) (before.length + 1) = 8 := by
    rw [sizeSub_of_le (by omega) (by omega)]
    omega
  have endPos : sizeAdd (before.length + 1 + 8) 2 = before.length + 1 + 8 + 2 :=
    sizeAdd_of_lt (by omega)
  rw [parseInterval, weekdays]
  simp [startPos, findSlash, width, cutStart, endPos, cutEnd, starts.parse_self, ends.parse_self]

/-- The duration and the variation of a timer, after what stands before the first `T`. -/
theorem parseTimer_eq (front : Char) (before : Text) {text rest : Text}
    {numExecutions expires variation : ℤ} (noT : 'T' ∉ before) (noA : 'A' ∉ before)
    (short : before.length ≤ 5)
    (executions : numRepetitions front (before ++ 'T' :: (text ++ rest)) = .ok numExecutions)
    (shows : Shows text expires) (varies : ShowsVariation rest variation) :
    parseTimer front (before ++ 'T' :: (text ++ rest)) =
      .ok ⟨expires, numExecutions, variation⟩ := by
  generalize whole : before ++ 'T' :: (text ++ rest) = s at executions ⊢
  have startPos : sizeAdd (s.find 'T' 0) 1 = before.length + 1 := by
    rw [find_append_cons 0 (by rw [List.drop_zero, whole]) noT, Nat.zero_add,
      sizeAdd_of_lt (by omega)]
  have afterT : s.suffix (before.length + 1) = (.ok (text ++ rest) : Except Exception Text) :=
    suffix_eq (before ++ ['T']) (by simp [← whole]) (by simp)
  rcases varies with ⟨rfl, rfl⟩ | ⟨text', rfl, shows'⟩
  · have noRandom : s.find 'A' 0 = npos := by
      refine find_eq_npos ?_
      rw [List.drop_zero, ← whole]
      simp [noA, shows.notMem (c := 'A') (by decide)]
    have wide : text.length ≤ sizeSub npos (before.length + 1) := by
      rw [sizeSub_of_le (by simp only [npos]; omega) (by decide), shows.length]
      simp only [npos]
      omega
    have cut : s.substr (before.length + 1) (sizeSub npos (before.length + 1)) =
        (.ok text : Except Exception Text) := by
      simp [substr, afterT, List.take_of_length_le wide]
    simp only [parseTimer, executions, Except.ok_bind, startPos, noRandom, cut, shows.parse_self,
      ne_eq, not_true_eq_false, if_false, Except.pure_eq_ok]
  · have findA : s.find 'A' 0 = before.length + 1 + 8 := by
      have split : s.drop 0 = (before ++ 'T' :: text) ++ 'A' :: text' := by
        simp [← whole]
      rw [find_append_cons 0 split (by simp [noA, shows.notMem (c := 'A') (by decide)])]
      simp [shows.length]
    have width : sizeSub (before.length + 1 + 8) (before.length + 1) = 8 := by
      rw [sizeSub_of_le (by omega) (by omega)]
      omega
    have cut : s.substr (before.length + 1) 8 = (.ok text : Except Exception Text) :=
      substr_eq (before ++ ['T']) ('A' :: text') (by simp [← whole]) (by simp) shows.length
    have randomPos : sizeAdd (before.length + 1 + 8) 1 = before.length + 1 + 8 + 1 :=
      sizeAdd_of_lt (by omega)
    have cutRandom : s.suffix (before.length + 1 + 8 + 1) = (.ok text' : Except Exception Text) :=
      suffix_eq (before ++ 'T' :: (text ++ ['A'])) (by simp [← whole]) (by simp [shows.length])
    have found : before.length + 1 + 8 ≠ npos := by
      simp only [npos]
      omega
    simp only [parseTimer, executions, Except.ok_bind, startPos, findA, width, cut,
      shows.parse_self, ne_eq, found, not_false_eq_true, if_true, randomPos, cutRandom,
      shows'.parse_self, Except.pure_eq_ok]

theorem parseAbsolute_eq {timestamp rest : Text} {base variation : ℤ}
    (length : timestamp.length = 19) (parsed : zone.parseTimestamp timestamp = .ok base)
    (varies : ShowsVariation rest variation) :
    AbsoluteVariedTime.parse zone (timestamp ++ rest) = .ok ⟨⟨base⟩, variation⟩ := by
  simp only [AbsoluteVariedTime.parse, zone.parseTimestamp_append rest length, parsed,
    Except.ok_bind]
  rcases varies with ⟨rfl, rfl⟩ | ⟨text, rfl, shows⟩
  · simp [length]
  · have random : 19 < (timestamp ++ 'A' :: text).length ∧
        (timestamp ++ 'A' :: text)[19]? = some 'A' := by
      simp [length]
    have cut : suffix (timestamp ++ 'A' :: text) 20 = (.ok text : Except Exception Text) :=
      suffix_eq (timestamp ++ ['A']) (by simp) (by simp [length])
    simp only [if_pos random, cut, Except.ok_bind, shows.parse_self, Except.pure_eq_ok]

theorem absolute_roundTrip {t : AbsoluteVariedTime} {timestamp : Text}
    (stamp : zone.Represents timestamp t.base) (variation : WholeSeconds t.variation) :
    (t.toString zone >>= parse zone) = .ok (.absolute t) := by
  obtain ⟨rest, print, varies⟩ := showsVariation_of_wholeSeconds variation
  obtain ⟨front, tail, split, digit⟩ := stamp.isDigit_front
  simp only [AbsoluteVariedTime.toString, stamp.print, print, Except.ok_bind, Except.pure_eq_ok]
  have parsed := parseAbsolute_eq zone stamp.length stamp.parse varies
  rw [split, List.cons_append] at parsed ⊢
  rw [parse_digit zone (tail ++ rest) digit, parsed]
  rfl

theorem recurring_roundTrip {t : RecurringTime} (days : t.days.Valid) (time : WholeSeconds t.time)
    (variation : WholeSeconds t.variation) :
    (t.toString >>= parse zone) = .ok (.recurring t) := by
  obtain ⟨text, printTime, shows⟩ := shows_of_wholeSeconds time
  obtain ⟨rest, print, varies⟩ := showsVariation_of_wholeSeconds variation
  have slashes : (t.days.toString ++ '/' :: 'T' :: (text ++ rest)).count '/' = 1 := by
    simp [List.count_append, List.count_eq_zero_of_not_mem (days.notMem (c := '/') rfl),
      List.count_eq_zero_of_not_mem (shows.notMem (c := '/') (by decide)),
      List.count_eq_zero_of_not_mem (varies.notMem (c := '/') (by decide) (by decide))]
  simp only [RecurringTime.toString, printTime, print, Except.ok_bind, Except.pure_eq_ok,
    List.cons_append, List.append_assoc, List.nil_append]
  rw [parse_W_of_one zone slashes, parseRecurring_eq days.width days.roundTrip shows varies]
  rfl

theorem interval_roundTrip {t : TimeInterval} (days : t.days.Valid)
    (starts : WholeSeconds t.startTime) (ends : WholeSeconds t.endTime) :
    (t.toString >>= parse zone) = .ok (.interval t) := by
  obtain ⟨start, printStart, showsStart⟩ := shows_of_wholeSeconds starts
  obtain ⟨finish, printEnd, showsEnd⟩ := shows_of_wholeSeconds ends
  simp only [TimeInterval.toString, printStart, printEnd, Except.ok_bind, Except.pure_eq_ok]
  cases all : t.days.isAll with
  | true =>
      have daily : Weekdays.all = t.days := by
        rw [Weekdays.isAll, decide_eq_true_eq] at all
        exact congrArg Weekdays.mk all.symm
      have parsed := parseInterval_eq 'T' [] List.not_mem_nil (by decide)
        (by rw [intervalDays, if_neg (by decide), daily]; rfl) showsStart showsEnd
      simp only [if_true, List.nil_append, List.cons_append] at parsed ⊢
      rw [parse_T, parsed]
      rfl
  | false =>
      have slashes : (t.days.toString ++ '/' :: 'T' :: (start ++ '/' :: 'T' :: finish)).count '/' ≠
          1 := by
        simp only [List.count_append, List.count_cons_self, List.count_cons]
        omega
      have cutDays : substr ('W' :: (t.days.toString ++ '/' :: 'T' :: (start ++ '/' :: 'T' ::
          finish))) 1 3 = (.ok t.days.toString : Except Exception Text) :=
        substr_eq ['W'] ('/' :: 'T' :: (start ++ '/' :: 'T' :: finish)) rfl rfl days.width
      have weekdays : intervalDays 'W' ('W' :: (t.days.toString ++ '/' :: 'T' :: (start ++
          '/' :: 'T' :: finish))) = .ok t.days := by
        simp only [intervalDays, if_true, cutDays, Except.ok_bind, days.roundTrip]
      have parsed := parseInterval_eq 'W' ('W' :: (t.days.toString ++ ['/']))
        (by simp [days.notMem (c := 'T') rfl]) (by simp [days.width]) (by simpa using weekdays)
        showsStart showsEnd
      simp only [Bool.false_eq_true, if_false, List.cons_append, List.append_assoc,
        List.nil_append] at parsed ⊢
      rw [parse_W_of_not_one zone slashes, parsed]
      rfl

/-- A pattern that is not a timer, with whole seconds as durations and, if it is an absolute
time, a base time that has a timestamp. -/
def Regular : TimePattern → Prop
  | undefined => True
  | absolute t => (∃ timestamp, zone.Represents timestamp t.base) ∧ WholeSeconds t.variation
  | recurring t => t.days.Valid ∧ WholeSeconds t.time ∧ WholeSeconds t.variation
  | interval t => t.days.Valid ∧ WholeSeconds t.startTime ∧ WholeSeconds t.endTime
  | timer _ => False

/-- Whatever the text, at most two digits are read. -/
theorem numRepetitions_lt {front : Char} {s : Text} {n : ℤ}
    (h : numRepetitions front s = .ok n) : n < 100 := by
  rw [numRepetitions] at h
  split at h
  · obtain ⟨c, -, h⟩ := Except.bind_eq_ok_iff.mp h
    split at h
    · cases h
      decide
    · obtain ⟨digits, cut, read⟩ := Except.bind_eq_ok_iff.mp h
      obtain ⟨rest, -, short⟩ := Except.bind_eq_ok_iff.mp cut
      have two : digits.length ≤ 2 := by
        rw [← Except.ok.inj short, List.length_take]
        exact min_le_left _ _
      calc n < 10 ^ digits.length := stoi_lt read
        _ ≤ 10 ^ 2 := pow_le_pow_right₀ (by decide) two
  · cases h
    decide

theorem timer_lt_of_parse {s : Text} {t : Timer} (h : parse zone s = .ok (.timer t)) :
    t.numExecutions < 100 := by
  have repetitions : ∀ {front : Char}, parseTimer front s = .ok t → t.numExecutions < 100 := by
    intro front parsed
    obtain ⟨n, read, parsed⟩ := Except.bind_eq_ok_iff.mp parsed
    obtain ⟨_, -, parsed⟩ := Except.bind_eq_ok_iff.mp parsed
    obtain ⟨expires, -, parsed⟩ := Except.bind_eq_ok_iff.mp parsed
    split at parsed
    · obtain ⟨_, -, parsed⟩ := Except.bind_eq_ok_iff.mp parsed
      obtain ⟨variance, -, parsed⟩ := Except.bind_eq_ok_iff.mp parsed
      cases parsed
      exact numRepetitions_lt read
    · cases parsed
      exact numRepetitions_lt read
  unfold parse at h
  split at h
  · simp at h
  · split at h
    · simp at h
    · split at h
      · simp [Except.map_eq_ok_iff] at h
      · split at h
        · obtain ⟨t', parsed, same⟩ := Except.map_eq_ok_iff.mp h
          obtain rfl := TimePattern.timer.inj same
          exact repetitions parsed
        · split at h
          · simp [Except.map_eq_ok_iff] at h
          · split at h
            · simp [Except.map_eq_ok_iff] at h
            · simp at h

/-- A number of executions other than 0 and 1 is padded to two digits. -/
theorem repetitions_eq {n : ℤ} (recurring : n ≠ 1) (finite : n ≠ 0) (nonnegative : 0 ≤ n) :
    Timer.repetitions n = 'R' :: (padded 2 n.toNat ++ ['/']) := by
  have same : n.natAbs = n.toNat := by omega
  have digits : (if (Nat.toDigits 10 n.toNat).length < 2 then ['0'] else []) =
      List.replicate (2 - (Nat.toDigits 10 n.toNat).length) '0' := by
    have positive := Nat.length_toDigits_pos (b := 10) (n := n.toNat)
    split
    · have one : 2 - (Nat.toDigits 10 n.toNat).length = 1 := by omega
      rw [one, List.replicate_one]
    · have none : 2 - (Nat.toDigits 10 n.toNat).length = 0 := by omega
      rw [none, List.replicate_zero]
  simp only [Timer.repetitions, if_neg recurring, Timer.infiniteExecutions, if_neg finite, ofInt,
    if_neg (not_lt.mpr nonnegative), same, digits, padded, List.leftpad]

theorem numRepetitions_digits {digits : Text} {n : ℤ} (width : digits.length = 2)
    (isDigit : ∀ c ∈ digits, c.isDigit) (read : stoi digits = (.ok n : Except Exception ℤ))
    (rest : Text) : numRepetitions 'R' ('R' :: (digits ++ rest)) = .ok n := by
  obtain ⟨a, b, rfl⟩ := List.length_eq_two.mp width
  have cut : substr ('R' :: ([a, b] ++ rest)) 1 2 = (.ok [a, b] : Except Exception Text) :=
    substr_eq ['R'] rest rfl rfl rfl
  have next : at' ('R' :: ([a, b] ++ rest)) 1 = (.ok a : Except Exception Char) := rfl
  have digit : a ≠ '/' := by
    rintro rfl
    exact absurd (isDigit '/' List.mem_cons_self) (by decide)
  simp only [numRepetitions, if_true, next, Except.ok_bind, if_neg digit, cut]
  exact read

/-- What stands before the duration of a timer with at most 99 executions. -/
theorem repetitions_spec {n : ℤ} (nonnegative : 0 ≤ n) (small : n < 100) :
    ∃ front tail, Timer.repetitions n ++ ['P'] = front :: tail ∧ (front = 'R' ∨ front = 'P') ∧
      'T' ∉ front :: tail ∧ 'A' ∉ front :: tail ∧ (front :: tail).length ≤ 5 ∧
      ∀ rest, numRepetitions front (front :: tail ++ rest) = .ok n := by
  by_cases single : n = 1
  · subst single
    exact ⟨'P', [], rfl, .inr rfl, by decide, by decide, by decide, fun _ => rfl⟩
  by_cases infinite : n = 0
  · subst infinite
    exact ⟨'R', ['/', 'P'], rfl, .inl rfl, by decide, by decide, by decide, fun _ => rfl⟩
  have print := repetitions_eq single infinite nonnegative
  obtain ⟨k, rfl⟩ := Int.eq_ofNat_of_zero_le nonnegative
  have two : k < 100 := by omega
  rw [Int.toNat_natCast] at print
  refine ⟨'R', padded 2 k ++ ['/', 'P'], by simp [print], .inl rfl, ?_, ?_, ?_, fun rest => ?_⟩
  · simp [notMem_padded (c := 'T') rfl]
  · simp [notMem_padded (c := 'A') rfl]
  · simp [length_padded (w := 2) (by decide) two]
  · simpa using numRepetitions_digits (length_padded (by decide) two)
      (fun c => isDigit_of_mem_padded) (stoi_padded (by decide) (by decide) two)
      ('/' :: 'P' :: rest)

/-- A timer with at most 99 executions is read back. -/
theorem timer_roundTrip {t : Timer} (nonnegative : 0 ≤ t.numExecutions)
    (small : t.numExecutions < 100) (expires : WholeSeconds t.expires)
    (variation : WholeSeconds t.variation) : (t.toString >>= parse zone) = .ok (.timer t) := by
  obtain ⟨text, printExpires, shows⟩ := shows_of_wholeSeconds expires
  obtain ⟨rest, print, varies⟩ := showsVariation_of_wholeSeconds variation
  obtain ⟨front, tail, start, kind, noT, noA, short, executions⟩ :=
    repetitions_spec nonnegative small
  have parsed := parseTimer_eq front (front :: tail) noT noA short (executions _) shows varies
  have whole : Timer.repetitions t.numExecutions ++ 'P' :: 'T' :: text ++ rest =
      front :: (tail ++ 'T' :: (text ++ rest)) := by
    rw [← List.cons_append, ← start]
    simp
  simp only [Timer.toString, printExpires, print, Except.ok_bind, Except.pure_eq_ok, whole]
  rw [List.cons_append] at parsed
  rw [parse_R_or_P zone kind, parsed]
  rfl

/-- Patterns that are read back. A timer has at most 99 executions. -/
def Readable : TimePattern → Prop
  | timer t => (0 ≤ t.numExecutions ∧ t.numExecutions < 100) ∧ WholeSeconds t.expires ∧
    WholeSeconds t.variation
  | p => Regular zone p

theorem Regular.readable {zone : TimeZone} {p : TimePattern} (regular : Regular zone p) :
    Readable zone p := by
  cases p with
  | timer t => exact regular.elim
  | _ => exact regular

theorem Readable.roundTrip {zone : TimeZone} {p : TimePattern} (readable : Readable zone p) :
    (p.toString zone >>= parse zone) = .ok p := by
  cases p with
  | undefined => rfl
  | absolute t =>
      obtain ⟨⟨timestamp, stamp⟩, variation⟩ := readable
      exact absolute_roundTrip zone stamp variation
  | recurring t =>
      obtain ⟨days, time, variation⟩ := readable
      exact recurring_roundTrip zone days time variation
  | interval t =>
      obtain ⟨days, starts, ends⟩ := readable
      exact interval_roundTrip zone days starts ends
  | timer t =>
      obtain ⟨⟨nonnegative, small⟩, expires, variation⟩ := readable
      exact timer_roundTrip zone nonnegative small expires variation

/-- Parsing the text of a pattern that is not a timer gives the pattern back. -/
theorem parse_toString (p : TimePattern) (regular : Regular zone p) :
    (p.toString zone >>= parse zone) = .ok p :=
  regular.readable.roundTrip

theorem noon_represents :
    utc.Represents (strftime (Tm.ofDateTime noon)) (seconds 1587643204) := by
  rw [← noon_instant]
  exact utc_represents noon_inClock (by rw [noon_instant]; decide)

theorem parse_toString_noon :
    ((absolute ⟨⟨seconds 1587643204⟩, seconds 600⟩).toString utc >>= parse utc) =
        .ok (.absolute ⟨⟨seconds 1587643204⟩, seconds 600⟩) ∧
      ((recurring ⟨seconds 86400, ⟨5⟩, 0⟩).toString utc >>= parse utc) =
        .ok (.recurring ⟨seconds 86400, ⟨5⟩, 0⟩) :=
  ⟨parse_toString utc _ ⟨⟨_, noon_represents⟩, 600, by decide, rfl⟩,
    parse_toString utc _ ⟨⟨by decide, by decide⟩, ⟨86400, by decide, rfl⟩, 0, by decide, rfl⟩⟩

/-- Parsing the text of a timer gives the timer back exactly if it has at most 99
executions. -/
theorem parse_toString_timer_iff (t : Timer) (nonnegative : 0 ≤ t.numExecutions)
    (expires : WholeSeconds t.expires) (variation : WholeSeconds t.variation) :
    ((TimePattern.timer t).toString zone >>= parse zone) = .ok (.timer t) ↔
      t.numExecutions ≤ 99 := by
  constructor
  · intro roundTrip
    obtain ⟨s, -, parsed⟩ := Except.bind_eq_ok_iff.mp roundTrip
    exact Int.le_of_lt_add_one (timer_lt_of_parse zone parsed)
  · intro small
    exact timer_roundTrip zone nonnegative (by omega) expires variation

theorem parse_toString_timer_iff_twelve :
    ((timer ⟨seconds 3600, 12, seconds 60⟩).toString utc >>= parse utc) =
        .ok (.timer ⟨seconds 3600, 12, seconds 60⟩) ↔ (12 : ℤ) ≤ 99 :=
  parse_toString_timer_iff utc ⟨seconds 3600, 12, seconds 60⟩ (by decide)
    ⟨3600, by decide, rfl⟩ ⟨60, by decide, rfl⟩

/-- A timer with 100 executions is printed as `R100/PT01:00:00`, and read as one with 10. -/
theorem timer_hundred_executions :
    ¬ ∀ (zone : TimeZone) (t : Timer), 0 ≤ t.numExecutions → WholeSeconds t.expires →
      WholeSeconds t.variation →
      ((TimePattern.timer t).toString zone >>= parse zone) = .ok (.timer t) := by
  intro always
  have ten : ((timer ⟨seconds 3600, 100, 0⟩).toString utc >>= parse utc) =
      .ok (.timer ⟨seconds 3600, 10, 0⟩) := rfl
  have hundred := always utc ⟨seconds 3600, 100, 0⟩ (by decide) ⟨3600, by decide, rfl⟩
    ⟨0, by decide, rfl⟩
  exact absurd (Except.ok.inj (ten.symm.trans hundred)) (by decide)

end TimePattern

end Hueplusplus.Time
