import Mathlib.Tactic.Common
import Mathlib.Tactic.IntervalCases
import Docroot.Proofs.Visible
import Docroot.Time.HttpDate

/-!
Dates in headers. The calendar gives a day back from its date, so a date that is written for a point
in time is read as the second that the point lies in.
-/

namespace Docroot

/-! ### The calendar -/

namespace Date

/-- Within a century of a cycle every fourth year is a leap year. -/
lemma year_of_century {n c y : Int} (hc : 0 ≤ c ∧ c ≤ 3) (h0 : 36524 * c ≤ n)
    (h1 : n < 36524 * c + 36524) (hy : y = (n - n / 1460 + c) / 365) :
    y / 100 = c ∧ 365 * y + y / 4 - c ≤ n ∧ n ≤ 365 * y + y / 4 - c + 365 := by
  have hd : y / 100 = c := by omega
  refine ⟨hd, ?_, ?_⟩ <;> omega

/-- A day of a cycle lies in the year that is computed for it. -/
lemma yearOfCycle_bounds {n : Int} (h0 : 0 ≤ n) (h1 : n < 146097) :
    (0 ≤ yearOfCycle n ∧ yearOfCycle n ≤ 399) ∧
      daysOfYears (yearOfCycle n) ≤ n ∧ n ≤ daysOfYears (yearOfCycle n) + 365 := by
  by_cases hn : n = 146096
  · -- the leap day of the last year of the cycle
    subst hn
    decide
  · have hg : n / 146096 = 0 := by omega
    have hc : 0 ≤ n / 36524 ∧ n / 36524 ≤ 3 := by omega
    obtain ⟨hd, hl, hu⟩ := year_of_century (n := n) hc (by omega) (by omega) rfl
    unfold daysOfYears yearOfCycle
    rw [hg, Int.sub_zero]
    generalize (n - n / 1460 + n / 36524) / 365 = y at hd hl hu
    omega

/-- A day by its cycle, its year in the cycle (beginning in March), and its place in that year. -/
lemma exists_ofDays (days : Int) :
    ∃ cycle year place : Int, (0 ≤ year ∧ year ≤ 399) ∧ (0 ≤ place ∧ place ≤ 365) ∧
      days + epochShift = 146097 * cycle + daysOfYears year + place ∧
      ofDays days =
        let month := (5 * place + 2) / 153
        { year := 400 * cycle + year + (if month < 10 then 0 else 1)
          month := (if month < 10 then month + 3 else month - 9).toNat
          day := (place - (153 * month + 2) / 5 + 1).toNat } := by
  have h := yearOfCycle_bounds (n := (days + epochShift) % 146097) (by omega) (by omega)
  refine ⟨(days + epochShift) / 146097, yearOfCycle ((days + epochShift) % 146097),
    (days + epochShift) % 146097 - daysOfYears (yearOfCycle ((days + epochShift) % 146097)),
    h.1, ?_, ?_, rfl⟩
  · omega
  · omega

lemma month_day_bounds (days : Int) :
    (1 ≤ (ofDays days).month ∧ (ofDays days).month ≤ 12) ∧
      1 ≤ (ofDays days).day ∧ (ofDays days).day ≤ 31 := by
  obtain ⟨cycle, year, place, -, hp, -, hd⟩ := exists_ofDays days
  rw [hd]
  simp only
  split <;> omega

/-- **The calendar** gives each day back from its date. -/
theorem toDays_ofDays (days : Int) : toDays (ofDays days) = days := by
  obtain ⟨cycle, year, place, hy, hp, hn, hd⟩ := exists_ofDays days
  rw [hd]
  generalize hm : (5 * place + 2) / 153 = month
  have hcycle : (400 * cycle + year) / 400 = cycle := by omega
  have hyear : (400 * cycle + year) % 400 = year := by omega
  unfold toDays
  by_cases hlate : month < 10
  · have hmonth : ¬ (month + 3).toNat ≤ 2 := by omega
    simp only [if_pos hlate, if_neg hmonth, Int.sub_zero, Int.add_zero, hcycle, hyear]
    omega
  · have hmonth : (month - 9).toNat ≤ 2 := by omega
    simp only [if_neg hlate, if_pos hmonth, Int.add_sub_cancel, hcycle, hyear]
    omega

lemma year_bounds {days : Int} (h0 : 0 ≤ days) (h1 : days < 2932897) :
    1970 ≤ (ofDays days).year ∧ (ofDays days).year ≤ 9999 := by
  obtain ⟨cycle, year, place, hy, hp, hn, hd⟩ := exists_ofDays days
  rw [hd]
  unfold epochShift daysOfYears at hn
  have hcycle : 4 ≤ cycle ∧ cycle ≤ 24 := by omega
  -- the first January lies in the year that began in March 1969, the last December in that of 9999
  have hfirst : cycle = 4 → 369 ≤ year ∧ (year = 369 → 306 ≤ place) := by
    intro hc
    have hle : 369 ≤ year := by omega
    refine ⟨hle, fun hyear => ?_⟩
    subst hyear
    omega
  have hlast : cycle = 24 → year = 399 → place ≤ 305 := by
    intro hc hyear
    subst hyear
    omega
  simp only
  split <;> omega

end Date

/-! ### Numerals -/

namespace Text

lemma digitsValue_decimal (n : Nat) : digitsValue (decimal n) = n :=
  Nat.ofDigitChars_toDigits (by decide) (by decide)

lemma digitsValue_zeros (k : Nat) (s : Text) :
    digitsValue (List.replicate k '0' ++ s) = digitsValue s := by
  induction k with
  | zero => rfl
  | succ k ih => exact ih

lemma isDigit_of_mem_padded {width n : Nat} {c : Char} (hc : c ∈ padded width n) :
    c.isDigit = true := by
  rcases List.mem_append.1 hc with hc | hc
  · rw [List.eq_of_mem_replicate hc]
    decide
  · exact isDigit_of_mem_decimal hc

lemma padded_ne_nil (width n : Nat) : padded width n ≠ [] :=
  List.append_ne_nil_of_right_ne_nil _ (decimal_ne_nil n)

lemma digits?_padded (width n : Nat) : digits? (padded width n) = some n := by
  have hne : (padded width n).isEmpty = false := List.isEmpty_eq_false_iff.2 (padded_ne_nil width n)
  have hall : (padded width n).all Char.isDigit = true :=
    List.all_eq_true.2 fun _ hc => isDigit_of_mem_padded hc
  unfold digits?
  rw [hne, hall]
  exact congrArg some ((digitsValue_zeros _ _).trans (digitsValue_decimal n))

lemma length_padded {width n : Nat} (hw : 0 < width) (hn : n < 10 ^ width) :
    (padded width n).length = width := by
  have hl : (decimal n).length ≤ width := (Nat.length_toDigits_le_iff (by decide) hw).2 hn
  exact List.length_leftpad.trans (max_eq_left hl)

lemma visible_padded (width n : Nat) : Visible (padded width n) :=
  visible_of_isDigit fun _ hc => isDigit_of_mem_padded hc

lemma after?_append (p s : Text) : after? p (p ++ s) = some s := by
  simp [after?]

end Text

namespace HttpDate

open Text

lemma number?_padded {width n : Nat} (hw : 0 < width) (hn : n < 10 ^ width) (rest : Text) :
    number? width (padded width n ++ rest) = some (n, rest) := by
  have hl := length_padded hw hn
  unfold number?
  rw [List.take_left' hl, List.drop_left' hl, digits?_padded, if_pos]
  · rfl
  · rw [List.length_append]
    omega

lemma name?_dayName {i : Nat} (hi : i < 7) (rest : Text) :
    name? dayNames (dayName i ++ rest) = some (i, rest) := by
  interval_cases i <;> rfl

lemma name?_monthName {m : Nat} (h1 : 1 ≤ m) (h2 : m ≤ 12) (rest : Text) :
    name? monthNames (monthName m ++ rest) = some (m - 1, rest) := by
  interval_cases m <;> rfl

lemma timeOfDay?_timeOfDay (t : Timestamp) (rest : Text) :
    timeOfDay? (timeOfDay t ++ rest) = some ((t.hour, t.minute, t.second), rest) := by
  have hs : t.secondOfDay < 86400 := by
    unfold Timestamp.secondOfDay
    omega
  have hh : t.hour < 10 ^ 2 := by
    unfold Timestamp.hour
    omega
  have hm : t.minute < 10 ^ 2 := by
    unfold Timestamp.minute
    omega
  have hc : t.second < 10 ^ 2 := by
    unfold Timestamp.second
    omega
  have hcolon : ∀ s, after? [':'] (':' :: s) = some s := after?_append [':']
  unfold timeOfDay? timeOfDay
  simp only [List.append_assoc, List.cons_append, number?_padded (by decide : 0 < 2) hh,
    number?_padded (by decide : 0 < 2) hm, number?_padded (by decide : 0 < 2) hc, hcolon,
    Option.bind_eq_bind, Option.bind_some, Option.pure_def]

def shown (t : Timestamp) : Written where
  weekday := Date.weekday t.dayNumber
  year := t.date.year.toNat
  month := t.date.month
  day := t.date.day
  hour := t.hour
  minute := t.minute
  second := t.second

/-- What is written for a point of the years 1970 to 9999. -/
def written (t : Timestamp) : Text :=
  dayName (Date.weekday t.dayNumber) ++ ", ".toList ++
    padded 2 t.date.day ++ ' ' :: (monthName t.date.month ++ ' ' ::
    (padded 4 t.date.year.toNat ++ ' ' :: (timeOfDay t ++ " GMT".toList)))

variable {t : Timestamp} {s : Text}

lemma eq_written_of_format? (h : format? t = some s) :
    (0 ≤ t.nanos ∧ t.epochSeconds < endOfYears) ∧ s = written t := by
  unfold format? at h
  split at h
  · cases h
  · cases h
    refine ⟨?_, rfl⟩
    omega

lemma weekday_lt (days : Int) : Date.weekday days < 7 := by
  unfold Date.weekday
  omega

lemma dayNumber_bounds (h0 : 0 ≤ t.nanos) (h1 : t.epochSeconds < endOfYears) :
    0 ≤ t.dayNumber ∧ t.dayNumber < 2932897 := by
  unfold Timestamp.epochSeconds endOfYears at h1
  unfold Timestamp.dayNumber
  have hs : 0 ≤ t.seconds := by
    unfold Timestamp.seconds
    omega
  omega

lemma seconds_shown (h0 : 0 ≤ t.nanos) (h1 : t.epochSeconds < endOfYears) :
    (shown t).seconds = t.seconds := by
  obtain ⟨hd0, hd1⟩ := dayNumber_bounds h0 h1
  have hyear : ((t.date.year.toNat : Nat) : Int) = t.date.year :=
    Int.toNat_of_nonneg (by have := (Date.year_bounds hd0 hd1).1; unfold Timestamp.date; omega)
  have hday : Date.toDays ⟨(t.date.year.toNat : Nat), t.date.month, t.date.day⟩ = t.dayNumber := by
    rw [hyear]
    exact Date.toDays_ofDays t.dayNumber
  unfold Written.seconds shown
  simp only [hday]
  unfold Timestamp.hour Timestamp.minute Timestamp.second Timestamp.secondOfDay Timestamp.dayNumber
  omega

lemma exists_shown (h0 : 0 ≤ t.nanos) (h1 : t.epochSeconds < endOfYears) :
    (shown t).exists = true := by
  obtain ⟨hd0, hd1⟩ := dayNumber_bounds h0 h1
  have hday : (Timestamp.ofSeconds (shown t).seconds).dayNumber = t.dayNumber := by
    rw [seconds_shown h0 h1, Timestamp.dayNumber, Timestamp.seconds_ofSeconds]
    rfl
  have hdate : (Timestamp.ofSeconds (shown t).seconds).date = t.date :=
    congrArg Date.ofDays hday
  have hyear : 1970 ≤ t.date.year ∧ t.date.year ≤ 9999 := Date.year_bounds hd0 hd1
  have hsame : t.date = ⟨(t.date.year.toNat : Nat), t.date.month, t.date.day⟩ := by
    rw [Int.toNat_of_nonneg (by omega)]
  have hsecond : t.second < 60 := Nat.mod_lt _ (by decide)
  have hminute : t.minute < 60 := Nat.mod_lt _ (by decide)
  have hhour : t.hour < 24 := by
    unfold Timestamp.hour Timestamp.secondOfDay
    omega
  unfold Written.exists
  simp only [hday, hdate, Bool.and_eq_true, decide_eq_true_eq, beq_iff_eq]
  refine ⟨⟨⟨⟨⟨⟨hsecond, hminute⟩, hhour⟩, ?_⟩, ?_⟩, hsame⟩, rfl⟩
  · show 1970 ≤ t.date.year.toNat
    omega
  · show t.date.year.toNat ≤ 9999
    omega

lemma fixed?_written (h0 : 0 ≤ t.nanos) (h1 : t.epochSeconds < endOfYears) :
    fixed? (written t) = some (shown t) := by
  obtain ⟨hd0, hd1⟩ := dayNumber_bounds h0 h1
  obtain ⟨⟨hm1, hm2⟩, -, hday⟩ := Date.month_day_bounds t.dayNumber
  obtain ⟨hy1, hy2⟩ := Date.year_bounds hd0 hd1
  have hday : t.date.day < 10 ^ 2 := by unfold Timestamp.date; omega
  have hyear : t.date.year.toNat < 10 ^ 4 := by unfold Timestamp.date; omega
  have hblank : ∀ s, after? [' '] (' ' :: s) = some s := after?_append [' ']
  have hmonth : t.date.month - 1 + 1 = t.date.month := Nat.sub_add_cancel hm1
  unfold fixed? written
  simp only [List.append_assoc, name?_dayName (weekday_lt t.dayNumber),
    after?_append, number?_padded (by decide : 0 < 2) hday, hblank,
    name?_monthName (m := t.date.month) hm1 hm2, number?_padded (by decide : 0 < 4) hyear,
    timeOfDay?_timeOfDay, Option.bind_eq_bind, Option.bind_some, if_true, hmonth]
  rfl

lemma visible_written (t : Timestamp) : Visible (written t) := by
  have hday : ∀ i < 7, Visible (dayName i) := by decide
  have hmonth : ∀ m < 13, Visible (monthName m) := by decide
  have hm : t.date.month < 13 := Nat.lt_succ_of_le (Date.month_day_bounds t.dayNumber).1.2
  unfold written timeOfDay
  simp only [visible_append, visible_cons, visible_padded, hday _ (weekday_lt _), hmonth _ hm,
    true_and, and_true]
  decide

lemma trim_written (t : Timestamp) : trim (written t) = written t := by
  have hname : ∀ i < 7, ∃ c r, dayName i = c :: r ∧ isBlank c = false := by
    intro i hi
    interval_cases i <;> exact ⟨_, _, rfl, by decide⟩
  obtain ⟨c, r, hc, hblank⟩ := hname _ (weekday_lt t.dayNumber)
  have hw : written t = c :: (r ++ ", ".toList ++ padded 2 t.date.day ++
      ' ' :: (monthName t.date.month ++ ' ' :: (padded 4 t.date.year.toNat ++
        ' ' :: (timeOfDay t ++ " GM".toList))) ++ ['T']) := by
    simp [written, hc]
  rw [hw, trim_of_ends hblank (by decide)]

/-- **Reading undoes writing**, to the second. -/
theorem parse?_of_format? (h : format? t = some s) :
    parse? s = some (Timestamp.ofSeconds t.seconds) := by
  obtain ⟨⟨h0, h1⟩, rfl⟩ := eq_written_of_format? h
  have hascii : isAscii (written t) = true := by
    unfold isAscii
    rw [List.all_eq_true]
    intro c hc
    have hv := visible_written t c hc
    unfold VisibleChar at hv
    simp only [decide_eq_true_eq]
    omega
  unfold parse?
  simp only [trim_written, hascii, if_true, fixed?_written h0 h1, Option.some_or, Option.bind_some,
    exists_shown h0 h1, seconds_shown h0 h1]

lemma visible_of_format? (h : format? t = some s) : Visible s := by
  obtain ⟨-, rfl⟩ := eq_written_of_format? h
  exact visible_written t

end HttpDate

end Docroot
