import Mathlib.Data.Int.Order.Basic

/-!
# The proleptic Gregorian calendar

Days are counted as Python's `datetime.toordinal` counts them: 1 January of the year 1 is
day 1.  A day is turned into its date by dividing by the lengths of 400, 100 and 4 years
and of one year, and by guessing the month; the date is turned into the day by adding up.
The second function undoes the first (`toOrdinal_ofOrdinal`), and therefore two days never
have the same date.
-/

namespace Calendar

structure Date where
  year : ℤ
  month : ℕ
  day : ℕ
  deriving DecidableEq, Repr

/-- `_is_leap`. -/
def isLeap (year : ℤ) : Bool := year % 4 = 0 && (year % 100 ≠ 0 || year % 400 = 0)

/-- `_days_in_month`. -/
def daysInMonth (leap : Bool) : ℕ → ℕ
  | 2 => if leap then 29 else 28
  | 4 | 6 | 9 | 11 => 30
  | _ => 31

/-- `_DAYS_BEFORE_MONTH`, for a year that is not a leap year. -/
def daysBefore : ℕ → ℕ
  | 2 => 31
  | 3 => 59
  | 4 => 90
  | 5 => 120
  | 6 => 151
  | 7 => 181
  | 8 => 212
  | 9 => 243
  | 10 => 273
  | 11 => 304
  | 12 => 334
  | _ => 0

/-- `_days_before_month`. -/
def daysBeforeMonth (leap : Bool) (month : ℕ) : ℕ :=
  daysBefore month + if 2 < month ∧ leap = true then 1 else 0

/-- `_days_before_year`. -/
def daysBeforeYear (year : ℤ) : ℤ :=
  (year - 1) * 365 + (year - 1) / 4 - (year - 1) / 100 + (year - 1) / 400

/-- `_ymd2ord`. -/
def toOrdinal (d : Date) : ℤ :=
  daysBeforeYear d.year + daysBeforeMonth (isLeap d.year) d.month + d.day

/-- The month and the day of the month, given the day of the year counted from 0. -/
def monthDay (leap : Bool) (n : ℕ) : ℕ × ℕ :=
  let month := (n + 50) / 32
  if n < daysBeforeMonth leap month then
    (month - 1, n - (daysBeforeMonth leap month - daysInMonth leap (month - 1)) + 1)
  else (month, n - daysBeforeMonth leap month + 1)

/-- `_ord2ymd`. -/
def ofOrdinal (ordinal : ℤ) : Date :=
  let n := ordinal - 1
  let n400 := n / 146097
  let n := n % 146097
  let n100 := n / 36524
  let n := n % 36524
  let n4 := n / 1461
  let n := n % 1461
  let n1 := n / 365
  let n := n % 365
  let year := n400 * 400 + 1 + n100 * 100 + n4 * 4 + n1
  if n1 = 4 ∨ n100 = 4 then ⟨year - 1, 12, 31⟩
  else
    let leap := n1 = 3 ∧ (n4 ≠ 24 ∨ n100 = 3)
    let md := monthDay leap n.toNat
    ⟨year, md.1, md.2⟩

/-! ## Months -/

/-- The guess of the month is right or one too high. -/
theorem monthDay_spec : ∀ leap : Bool, ∀ n < 366, (n < 365 ∨ leap = true) →
    (1 ≤ (monthDay leap n).1 ∧ (monthDay leap n).1 ≤ 12) ∧
      (1 ≤ (monthDay leap n).2 ∧
        (monthDay leap n).2 ≤ daysInMonth leap (monthDay leap n).1) ∧
      daysBeforeMonth leap (monthDay leap n).1 + (monthDay leap n).2 = n + 1 := by
  decide +kernel

/-! ## Years -/

section Cycle

variable {a b c d : ℤ}

/-- The years that are passed. -/
theorem daysBeforeYear_of_parts (hb : 0 ≤ b ∧ b ≤ 3) (hc : 0 ≤ c ∧ c ≤ 24) (hd : 0 ≤ d ∧ d ≤ 3) :
    daysBeforeYear (a * 400 + 1 + b * 100 + c * 4 + d) =
      a * 146097 + b * 36524 + c * 1461 + d * 365 := by
  have h4 : (a * 400 + b * 100 + c * 4 + d) / 4 = a * 100 + b * 25 + c := by omega
  have h100 : (a * 400 + b * 100 + c * 4 + d) / 100 = a * 4 + b := by omega
  have h400 : (a * 400 + b * 100 + c * 4 + d) / 400 = a := by omega
  have hyear : a * 400 + 1 + b * 100 + c * 4 + d - 1 = a * 400 + b * 100 + c * 4 + d := by omega
  simp only [daysBeforeYear, hyear, h4, h100, h400]
  omega

/-- The fourth year of four is a leap year, unless it ends a century that does not end
four of them. -/
theorem isLeap_of_parts (hb : 0 ≤ b ∧ b ≤ 3) (hc : 0 ≤ c ∧ c ≤ 24) (hd : 0 ≤ d ∧ d ≤ 3) :
    isLeap (a * 400 + 1 + b * 100 + c * 4 + d) = decide (d = 3 ∧ (c ≠ 24 ∨ b = 3)) := by
  have h4 : (a * 400 + 1 + b * 100 + c * 4 + d) % 4 = 0 ↔ d = 3 := by omega
  have h100 : (a * 400 + 1 + b * 100 + c * 4 + d) % 100 = 0 ↔ c = 24 ∧ d = 3 := by omega
  have h400 : (a * 400 + 1 + b * 100 + c * 4 + d) % 400 = 0 ↔ b = 3 ∧ c = 24 ∧ d = 3 := by omega
  simp only [isLeap, ne_eq, h4, h100, h400]
  by_cases hd3 : d = 3 <;> by_cases hc24 : c = 24 <;> by_cases hb3 : b = 3 <;> simp [*]

end Cycle

/-- **The date of a day** is a date of the calendar, and the day is counted from it. -/
theorem ofOrdinal_spec (n : ℤ) :
    (1 ≤ (ofOrdinal n).month ∧ (ofOrdinal n).month ≤ 12) ∧
      (1 ≤ (ofOrdinal n).day ∧
        (ofOrdinal n).day ≤ daysInMonth (isLeap (ofOrdinal n).year) (ofOrdinal n).month) ∧
      toOrdinal (ofOrdinal n) = n := by
  -- the quotients and remainders, with their ranges
  obtain ⟨a, ha⟩ : ∃ a, a = (n - 1) / 146097 := ⟨_, rfl⟩
  obtain ⟨r, hr⟩ : ∃ r, r = (n - 1) % 146097 := ⟨_, rfl⟩
  obtain ⟨b, hb⟩ : ∃ b, b = r / 36524 := ⟨_, rfl⟩
  obtain ⟨r', hr'⟩ : ∃ r', r' = r % 36524 := ⟨_, rfl⟩
  obtain ⟨c, hc⟩ : ∃ c, c = r' / 1461 := ⟨_, rfl⟩
  obtain ⟨r'', hr''⟩ : ∃ r'', r'' = r' % 1461 := ⟨_, rfl⟩
  obtain ⟨d, hd⟩ : ∃ d, d = r'' / 365 := ⟨_, rfl⟩
  obtain ⟨m, hm⟩ : ∃ m, m = r'' % 365 := ⟨_, rfl⟩
  have hsum : n = a * 146097 + b * 36524 + c * 1461 + d * 365 + m + 1 := by omega
  simp only [ofOrdinal, ← ha, ← hr, ← hb, ← hr', ← hc, ← hr'', ← hd, ← hm]
  by_cases hend : d = 4 ∨ b = 4
  · -- the last day of four years, or of four centuries
    rw [if_pos hend]
    obtain ⟨b', c', hb', hc', hyear, hlast⟩ : ∃ b' c' : ℤ, (0 ≤ b' ∧ b' ≤ 3) ∧ (0 ≤ c' ∧ c' ≤ 24) ∧
        a * 400 + 1 + b * 100 + c * 4 + d - 1 = a * 400 + 1 + b' * 100 + c' * 4 + 3 ∧
        (c' ≠ 24 ∨ b' = 3) ∧ n = a * 146097 + b' * 36524 + c' * 1461 + 3 * 365 + 366 := by
      by_cases hb4 : b = 4
      · exact ⟨3, 24, by omega, by omega, by omega, by omega, by omega⟩
      · have hd4 : d = 4 := hend.resolve_right hb4
        exact ⟨b, c, by omega, by omega, by omega, by omega, by omega⟩
    rw [hyear]
    have hleap : isLeap (a * 400 + 1 + b' * 100 + c' * 4 + 3) = true := by
      rw [isLeap_of_parts hb' hc' (by omega), decide_eq_true_eq]
      exact ⟨rfl, hlast.1⟩
    refine ⟨by simp, ⟨by simp, ?_⟩, ?_⟩
    · simp [daysInMonth]
    · simp only [toOrdinal, daysBeforeYear_of_parts hb' hc' (show (0 : ℤ) ≤ 3 ∧ (3 : ℤ) ≤ 3 by omega),
        hleap, daysBeforeMonth, daysBefore]
      simp only [Nat.reduceLT, and_self, if_true, Nat.reduceAdd]
      omega
  · rw [if_neg hend]
    have hb' : 0 ≤ b ∧ b ≤ 3 := by omega
    have hc' : 0 ≤ c ∧ c ≤ 24 := by omega
    have hd' : 0 ≤ d ∧ d ≤ 3 := by omega
    have hleap := isLeap_of_parts (a := a) hb' hc' hd'
    have hm' : m.toNat < 365 := by omega
    obtain ⟨hmonth, hday, hcount⟩ :=
      monthDay_spec (decide (d = 3 ∧ (c ≠ 24 ∨ b = 3))) m.toNat (by omega) (.inl hm')
    refine ⟨hmonth, ?_, ?_⟩
    · rw [hleap]
      exact hday
    · simp only [toOrdinal, hleap, daysBeforeYear_of_parts hb' hc' hd']
      omega

/-- The day of a date that was computed from a day. -/
theorem toOrdinal_ofOrdinal (n : ℤ) : toOrdinal (ofOrdinal n) = n := (ofOrdinal_spec n).2.2

/-- The epoch. -/
example : ofOrdinal 719163 = ⟨1970, 1, 1⟩ := by decide

/-- Different days have different dates. -/
theorem ofOrdinal_injective : Function.Injective ofOrdinal := by
  intro n n' h
  rw [← toOrdinal_ofOrdinal n, h, toOrdinal_ofOrdinal]

/-! ## Instants

An instant is a number of microseconds since the epoch, in UTC. -/

def dayLength : ℤ := 86400000000

/-- `datetime.date()`. -/
def dateOf (ts : ℤ) : Date := ofOrdinal (ts / dayLength + 719163)

/-- `datetime.time()`. -/
def timeOfDay (ts : ℤ) : ℤ := ts % dayLength

/-- `datetime.combine`. -/
def combine (d : Date) (time : ℤ) : ℤ := (toOrdinal d - 719163) * dayLength + time

/-- Two instants of one date are on the same day. -/
theorem dateOf_eq_iff (ts ts' : ℤ) : dateOf ts = dateOf ts' ↔ ts / dayLength = ts' / dayLength := by
  constructor
  · intro h
    have hordinal := ofOrdinal_injective h
    omega
  · intro h
    rw [dateOf, h, dateOf]

end Calendar
