import Mathlib.Data.Int.SuccPred
import Mathlib.Data.Int.ConditionallyCompleteOrder
import PersonalIntelligence.Library.Calendar

/-!
# Months

The months are numbered, twelve to a year.  The month `k` begins on the day `firstDay k`,
and as every month has a day, these days increase with `k`.  So the months are consecutive
intervals, and the month of a day is the `k` with `firstDay k ≤ n < firstDay (k + 1)`.

## 1.  Dates

A date that is in the calendar is counted back from its day: `toOrdinal` of it is a day of
its month, so two such dates with one day are in one month, and then on one day of the
month (`ofOrdinal_toOrdinal`).

## 2.  Instants

An instant is in or behind the month `k` exactly if it is not before the beginning of `k`
(`monthBegin_le_iff`).  This is all that is used of the calendar from there on.
-/

namespace Calendar

/-- The date is in the calendar. -/
def Date.Valid (d : Date) : Prop :=
  (1 ≤ d.month ∧ d.month ≤ 12) ∧ 1 ≤ d.day ∧ d.day ≤ daysInMonth (isLeap d.year) d.month

/-- The number of the month of a date. -/
def monthIndex (d : Date) : ℤ := d.year * 12 + (d.month - 1)

/-- The first day of a month. -/
def firstDay (k : ℤ) : ℤ := toOrdinal ⟨k / 12, (k % 12).toNat + 1, 1⟩

/-! ## 1.  Dates -/

theorem valid_ofOrdinal (n : ℤ) : (ofOrdinal n).Valid :=
  ⟨(ofOrdinal_spec n).1, (ofOrdinal_spec n).2.1⟩

theorem daysInMonth_bounds (leap : Bool) (m : ℕ) :
    28 ≤ daysInMonth leap m ∧ daysInMonth leap m ≤ 31 := by
  unfold daysInMonth
  split
  · split_ifs <;> omega
  · omega
  · omega
  · omega
  · omega
  · omega

/-- The next year begins a year later. -/
theorem daysBeforeYear_succ (y : ℤ) :
    daysBeforeYear (y + 1) = daysBeforeYear y + if isLeap y then 366 else 365 := by
  have hy : y + 1 - 1 = y := by omega
  simp only [daysBeforeYear, hy, isLeap, Bool.and_eq_true, Bool.or_eq_true, decide_eq_true_eq]
  by_cases h4 : y % 4 = 0
  · by_cases h100 : y % 100 = 0
    · by_cases h400 : y % 400 = 0
      · rw [if_pos ⟨h4, .inr h400⟩]
        omega
      · rw [if_neg (by omega)]
        omega
    · rw [if_pos ⟨h4, .inl h100⟩]
      omega
  · rw [if_neg (by omega)]
    omega

/-- The next month of a year. -/
theorem daysBeforeMonth_succ : ∀ leap : Bool, ∀ m < 11,
    daysBeforeMonth leap (m + 2) = daysBeforeMonth leap (m + 1) + daysInMonth leap (m + 1) := by
  decide

/-- **The next month** begins when the days of this one are over. -/
theorem firstDay_succ (k : ℤ) :
    firstDay (k + 1) = firstDay k + daysInMonth (isLeap (k / 12)) ((k % 12).toNat + 1) := by
  obtain ⟨m, hm⟩ : ∃ m, m = (k % 12).toNat := ⟨_, rfl⟩
  simp only [firstDay, toOrdinal, ← hm]
  by_cases hdec : m < 11
  · have hyear : (k + 1) / 12 = k / 12 := by omega
    have hmonth : ((k + 1) % 12).toNat = m + 1 := by omega
    have hdays := daysBeforeMonth_succ (isLeap (k / 12)) m hdec
    rw [hyear, hmonth, hdays]
    push_cast
    omega
  · have hyear : (k + 1) / 12 = k / 12 + 1 := by omega
    have hmonth : ((k + 1) % 12).toNat = 0 := by omega
    obtain rfl : m = 11 := by omega
    rw [hyear, hmonth, daysBeforeYear_succ]
    cases isLeap (k / 12) <;> simp [daysBeforeMonth, daysBefore, daysInMonth] <;> omega

theorem firstDay_strictMono : StrictMono firstDay := by
  refine strictMono_int_of_lt_succ fun k => ?_
  have hdays := (daysInMonth_bounds (isLeap (k / 12)) ((k % 12).toNat + 1)).1
  rw [firstDay_succ]
  omega

section Dates

variable {d d' : Date}

/-- The year and the month are read off the number. -/
theorem Date.Valid.monthIndex_parts (h : d.Valid) :
    monthIndex d / 12 = d.year ∧ (monthIndex d % 12).toNat + 1 = d.month := by
  obtain ⟨hmonth, -⟩ := h
  unfold monthIndex
  omega

/-- A day of its month. -/
theorem Date.Valid.toOrdinal_eq (h : d.Valid) :
    toOrdinal d = firstDay (monthIndex d) + (d.day - 1) := by
  simp only [firstDay, h.monthIndex_parts.1, h.monthIndex_parts.2, toOrdinal]
  omega

theorem Date.Valid.firstDay_le (h : d.Valid) :
    firstDay (monthIndex d) ≤ toOrdinal d ∧ toOrdinal d < firstDay (monthIndex d + 1) := by
  have hday := h.2
  rw [firstDay_succ, h.monthIndex_parts.1, h.monthIndex_parts.2, h.toOrdinal_eq]
  omega

theorem monthIndex_eq_of_toOrdinal_eq (h : d.Valid) (h' : d'.Valid)
    (heq : toOrdinal d = toOrdinal d') : monthIndex d = monthIndex d' := by
  have hle := firstDay_strictMono.lt_iff_lt.mp
    ((heq ▸ h.firstDay_le.1).trans_lt h'.firstDay_le.2)
  have hle' := firstDay_strictMono.lt_iff_lt.mp
    ((heq ▸ h'.firstDay_le.1).trans_lt h.firstDay_le.2)
  omega

/-- **The date of the day of a date** is that date. -/
theorem ofOrdinal_toOrdinal (h : d.Valid) : ofOrdinal (toOrdinal d) = d := by
  obtain ⟨d', hd'⟩ : ∃ d', d' = ofOrdinal (toOrdinal d) := ⟨_, rfl⟩
  have h' : d'.Valid := hd' ▸ valid_ofOrdinal _
  have heq : toOrdinal d' = toOrdinal d := by rw [hd', toOrdinal_ofOrdinal]
  have hindex := monthIndex_eq_of_toOrdinal_eq h' h heq
  rw [h'.toOrdinal_eq, h.toOrdinal_eq, hindex] at heq
  rw [← hd']
  have hyear : d'.year = d.year := by rw [← h'.monthIndex_parts.1, hindex, h.monthIndex_parts.1]
  have hmonth : d'.month = d.month := by
    rw [← h'.monthIndex_parts.2, hindex, h.monthIndex_parts.2]
  have hday : d'.day = d.day := by omega
  cases d
  cases d'
  rw [Date.mk.injEq]
  exact ⟨hyear, hmonth, hday⟩

end Dates

/-- The month of a day. -/
theorem firstDay_le_iff (k n : ℤ) : firstDay k ≤ n ↔ k ≤ monthIndex (ofOrdinal n) := by
  have hmonth := (valid_ofOrdinal n).firstDay_le
  rw [toOrdinal_ofOrdinal] at hmonth
  constructor
  · intro h
    have hlt := firstDay_strictMono.lt_iff_lt.mp (h.trans_lt hmonth.2)
    omega
  · exact fun h => (firstDay_strictMono.monotone h).trans hmonth.1

/-! ## 2.  Instants -/

/-- When the month begins. -/
def monthBegin (k : ℤ) : ℤ := (firstDay k - 719163) * dayLength

/-- The month of an instant. -/
def monthOf (ts : ℤ) : ℤ := monthIndex (dateOf ts)

theorem monthBegin_strictMono : StrictMono monthBegin := by
  intro k k' h
  have hday := firstDay_strictMono h
  unfold monthBegin dayLength
  omega

/-- **What is in a month or behind it.** -/
theorem monthBegin_le_iff (k ts : ℤ) : monthBegin k ≤ ts ↔ k ≤ monthOf ts := by
  rw [monthOf, dateOf, ← firstDay_le_iff]
  unfold monthBegin dayLength
  omega

theorem lt_monthBegin_iff (k ts : ℤ) : ts < monthBegin k ↔ monthOf ts < k := by
  rw [← not_le, monthBegin_le_iff, not_le]

/-- Every month has 28 to 31 days, so 31 days behind its first one is the next month. -/
theorem monthOf_monthBegin_add {k time : ℤ} (htime : 0 ≤ time ∧ time < dayLength) :
    monthOf (monthBegin k + 31 * dayLength + time) = k + 1 := by
  have hlen := daysInMonth_bounds (isLeap (k / 12)) ((k % 12).toNat + 1)
  have hlen' := daysInMonth_bounds (isLeap ((k + 1) / 12)) (((k + 1) % 12).toNat + 1)
  have hnext := firstDay_succ k
  have hnext' := firstDay_succ (k + 1)
  have hge : k + 1 ≤ monthOf (monthBegin k + 31 * dayLength + time) := by
    rw [← monthBegin_le_iff]
    unfold monthBegin dayLength at *
    omega
  have hlt : monthOf (monthBegin k + 31 * dayLength + time) < k + 1 + 1 := by
    rw [← lt_monthBegin_iff]
    unfold monthBegin dayLength at *
    omega
  omega

/-- Another time on the day of an instant. -/
theorem combine_dateOf (ts time : ℤ) :
    combine (dateOf ts) time = ts / dayLength * dayLength + time := by
  simp only [combine, dateOf, toOrdinal_ofOrdinal]
  congr 2
  omega

section Combine

variable {d : Date} {time : ℤ}

theorem dateOf_combine (h : d.Valid) (htime : 0 ≤ time ∧ time < dayLength) :
    dateOf (combine d time) = d := by
  have hday : combine d time / dayLength = toOrdinal d - 719163 := by
    unfold combine dayLength at *
    omega
  rw [dateOf, hday]
  rw [show toOrdinal d - 719163 + 719163 = toOrdinal d by omega, ofOrdinal_toOrdinal h]

/-- A time on the first of a month. -/
theorem combine_first (year : ℤ) (month : ℕ) (hmonth : 1 ≤ month ∧ month ≤ 12) :
    combine ⟨year, month, 1⟩ time = monthBegin (year * 12 + (month - 1)) + time := by
  have hvalid : Date.Valid ⟨year, month, 1⟩ :=
    ⟨hmonth, le_rfl, (by omega : 1 ≤ 28).trans (daysInMonth_bounds _ _).1⟩
  unfold combine monthBegin
  rw [hvalid.toOrdinal_eq]
  simp [monthIndex]

end Combine

/-- A time on the first of the month of an instant. -/
theorem combine_first_dateOf (ts time : ℤ) :
    combine { dateOf ts with day := 1 } time = monthBegin (monthOf ts) + time :=
  combine_first _ _ (valid_ofOrdinal _).1

end Calendar
