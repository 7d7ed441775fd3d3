import PersonalIntelligence.Library.Months
import PersonalIntelligence.Tasks.Rules

/-!
# Deadlines before the message

`_extract_due_at` takes the first date of `dateparser` that is not before `now`, and without
one it goes by three abbreviations: EOD is today, EOW the Friday of the week or today, EOM
the last day of the month, each at 18:00.  None of the three is compared with `now`.

A deadline at 18:00 of a day is before `now` exactly if the day is over, or if it is today
and it is evening.  The day is never over, so what is left is a day that `NamesToday`: EOD
always, EOW from Friday on, EOM on the last day.  `dueAt_ahead_iff` is the statement about
the candidate, whatever `dateparser` answers.

Python compares two times with one `tzinfo` by their clocks, so a zone that changes its
offset is covered by the offset it has at `now`.
-/

namespace PersonalIntelligence
namespace Tasks

open PyText Regex Calendar

/-! ## 18:00 -/

namespace DateTime

variable {t now : DateTime}

/-- It is after 18:00. -/
def Evening (t : DateTime) : Prop := seconds (18 * 3600) < timeOfDay t.wall

instance (t : DateTime) : Decidable t.Evening := inferInstanceAs (Decidable (_ < _))

/-- The last day of the month. -/
def LastOfMonth (t : DateTime) : Prop :=
  (dateOf t.wall).day =
    daysInMonth (isLeap (dateOf t.wall).year) (dateOf t.wall).month

instance (t : DateTime) : Decidable t.LastOfMonth := inferInstanceAs (Decidable (_ = _))

theorem wall_replaceHour (h : ℤ) :
    (t.replaceHour h).wall = t.wall / dayLength * dayLength + seconds (h * 3600) :=
  combine_dateOf _ _

/-- Two times with one offset are compared by their clocks. -/
theorem instant_le_iff (hoffset : t.utcOffset = now.utcOffset) :
    now.instant ≤ t.instant ↔ now.wall ≤ t.wall := by
  unfold instant
  rw [hoffset]
  exact sub_le_sub_iff_right _

/-- A deadline at 18:00 of a later day. -/
theorem le_replaceHour_of_lt (hoffset : t.utcOffset = now.utcOffset)
    (hday : now.wall / dayLength < t.wall / dayLength) :
    now.instant ≤ (t.replaceHour 18).instant := by
  have hsame : (t.replaceHour 18).utcOffset = now.utcOffset := hoffset
  rw [instant_le_iff hsame, wall_replaceHour]
  unfold dayLength seconds at *
  omega

/-- A deadline at 18:00 of today. -/
theorem le_replaceHour_iff (hoffset : t.utcOffset = now.utcOffset)
    (hday : t.wall / dayLength = now.wall / dayLength) :
    now.instant ≤ (t.replaceHour 18).instant ↔ ¬ now.Evening := by
  have hsame : (t.replaceHour 18).utcOffset = now.utcOffset := hoffset
  rw [instant_le_iff hsame, wall_replaceHour, hday]
  unfold Evening timeOfDay dayLength seconds
  omega

theorem day_addDays (n : ℤ) : (t.addDays n).wall / dayLength = t.wall / dayLength + n := by
  unfold addDays dayLength
  dsimp only
  omega

/-- The day before the next month begins. -/
theorem day_endOfMonth :
    ((((t.replaceDay 28).addDays 4).replaceDay 1).addDays (-1)).wall / dayLength =
      monthBegin (monthOf t.wall + 1) / dayLength - 1 := by
  obtain ⟨u, hu⟩ : ∃ u, u = (t.replaceDay 28).addDays 4 := ⟨_, rfl⟩
  have hvalid : ({ dateOf t.wall with day := 28 } : Date).Valid :=
    ⟨(valid_ofOrdinal _).1, show 1 ≤ 28 by omega, (daysInMonth_bounds _ _).1⟩
  have htime : 0 ≤ timeOfDay t.wall ∧ timeOfDay t.wall < dayLength := by
    unfold timeOfDay dayLength
    omega
  have hday : (t.replaceDay 28).wall = monthBegin (monthOf t.wall) + 27 * dayLength +
      timeOfDay t.wall := by
    unfold replaceDay monthBegin combine
    dsimp only
    rw [hvalid.toOrdinal_eq]
    simp only [monthOf, monthIndex]
    push_cast
    ring
  have hwall : u.wall = monthBegin (monthOf t.wall) + 31 * dayLength + timeOfDay t.wall := by
    rw [hu]
    unfold addDays
    dsimp only
    rw [hday]
    unfold dayLength
    omega
  have hmonth : monthOf u.wall = monthOf t.wall + 1 := by
    rw [hwall, monthOf_monthBegin_add htime]
  have htimeOf : timeOfDay u.wall = timeOfDay t.wall := by
    rw [hwall]
    unfold timeOfDay monthBegin dayLength
    omega
  rw [← hu]
  unfold addDays replaceDay
  dsimp only
  rw [combine_first_dateOf, hmonth, htimeOf]
  unfold monthBegin dayLength at *
  omega

/-- Today is the last day of the month, or comes before it. -/
theorem day_lastOfMonth :
    (t.LastOfMonth ↔ t.wall / dayLength =
      ((((t.replaceDay 28).addDays 4).replaceDay 1).addDays (-1)).wall / dayLength) ∧
    (¬ t.LastOfMonth → t.wall / dayLength <
      ((((t.replaceDay 28).addDays 4).replaceDay 1).addDays (-1)).wall / dayLength) := by
  have hvalid : (dateOf t.wall).Valid := valid_ofOrdinal _
  have hday := hvalid.toOrdinal_eq
  have hnext := firstDay_succ (monthOf t.wall)
  rw [monthOf, hvalid.monthIndex_parts.1, hvalid.monthIndex_parts.2] at hnext
  have hordinal : toOrdinal (dateOf t.wall) = t.wall / dayLength + 719163 :=
    toOrdinal_ofOrdinal _
  have hle := hvalid.2.2
  rw [day_endOfMonth]
  unfold LastOfMonth monthOf monthBegin
  rw [hnext]
  unfold dayLength at *
  omega

end DateTime

/-! ## The deadlines of the wording -/

section Wording

variable [CharData] {now : DateTime}

/-- The text names a deadline of today. -/
def namesToday (text : String) (now : DateTime) : Bool :=
  let lowered := lower text
  if occursIn "завтра" lowered || occursIn "tomorrow" lowered then false
  else if occursIn "eod" lowered then true
  else if occursIn "eow" lowered then decide (4 ≤ now.weekday)
  else if occursIn "eom" lowered then decide now.LastOfMonth
  else false

/-- **The deadline of the wording** is before `now` if it is one of today, and it is
evening. -/
theorem extractDueAtFallback_ahead_iff (text : String) :
    (∀ due, extractDueAtFallback text now = some due → now.instant ≤ due.instant) ↔
      ¬ (namesToday text now = true ∧ now.Evening) := by
  unfold extractDueAtFallback namesToday
  dsimp only
  split_ifs with htomorrow heod heow heom
  · -- a day later
    refine iff_of_true ?_ (by simp)
    rintro due ⟨⟩
    have hoffset : (now.addDays 1).utcOffset = now.utcOffset := rfl
    have hwall : (now.addDays 1).wall = now.wall + 1 * dayLength := rfl
    rw [DateTime.instant_le_iff hoffset, hwall]
    unfold dayLength
    omega
  · simp only [Option.some.injEq, forall_eq', true_and]
    exact DateTime.le_replaceHour_iff rfl rfl
  · -- the Friday of the week, or today
    simp only [Option.some.injEq, forall_eq', decide_eq_true_eq]
    obtain ⟨friday, hfriday⟩ : ∃ t, t = now.addDays (max 0 (4 - now.weekday)) := ⟨_, rfl⟩
    have hoffset : friday.utcOffset = now.utcOffset := by rw [hfriday, DateTime.addDays]
    have hday : friday.wall / dayLength = now.wall / dayLength + max 0 (4 - now.weekday) := by
      rw [hfriday, DateTime.day_addDays]
    rw [← hfriday]
    by_cases hweekday : 4 ≤ now.weekday
    · rw [DateTime.le_replaceHour_iff hoffset (by omega)]
      simp [hweekday]
    · exact iff_of_true (DateTime.le_replaceHour_of_lt hoffset (by omega)) (by simp [hweekday])
  · simp only [Option.some.injEq, forall_eq', decide_eq_true_eq]
    obtain ⟨hlast, hbefore⟩ := DateTime.day_lastOfMonth (t := now)
    obtain ⟨last, hdef⟩ :
        ∃ t, t = (((now.replaceDay 28).addDays 4).replaceDay 1).addDays (-1) := ⟨_, rfl⟩
    have hoffset : last.utcOffset = now.utcOffset := by rw [hdef]; rfl
    rw [← hdef] at hlast hbefore ⊢
    by_cases htoday : now.LastOfMonth
    · rw [DateTime.le_replaceHour_iff hoffset (hlast.mp htoday).symm]
      simp [htoday]
    · exact iff_of_true (DateTime.le_replaceHour_of_lt hoffset (hbefore htoday))
        (by simp [htoday])
  · simp

end Wording

/-! ## The deadline of a candidate -/

/-- `dateparser` leaves the deadline to the wording: it is not installed, or finds no date
from `now` on. -/
def LeftToWording (searchDates : SearchDates) (text : String) (now : DateTime) : Prop :=
  ∀ findDates ∈ searchDates, ∃ found, findDates text now = .ok found ∧
    ∀ parsed ∈ found, (parsed.withOffset now.utcOffset).instant < now.instant

section Candidate

variable [CharData] (searchDates : SearchDates) (clock : Timestamp)

/-- The text has the wording of a task. -/
def isTask (text : String) : Bool :=
  !(strip text).isEmpty && decide (8 ≤ (normalizeText (strip text)).length) &&
    (wording (normalizeText (strip text))).isSome

/-- What `dateparser` finds is not before `now`, and what it does not find the wording says. -/
theorem extractDueAt_ahead_iff (text : String) {now : DateTime}
    (haware : now.utcOffset.isSome = true) :
    (∀ due, extractDueAt searchDates clock text (some now) = some due →
        now.instant ≤ due.instant) ↔
      ¬ (LeftToWording searchDates text now ∧ namesToday text now = true ∧ now.Evening) := by
  have hbase : ((some now).getD ⟨clock, some 0⟩).withOffset (some 0) = now := if_pos haware
  unfold extractDueAt LeftToWording
  rw [hbase]
  cases searchDates with
  | none =>
    dsimp only
    rw [extractDueAtFallback_ahead_iff]
    exact not_congr (and_iff_right fun _ h => absurd h (Option.not_mem_none _)).symm
  | some findDates =>
    simp only [Option.mem_some_iff, forall_eq']
    cases hanswer : findDates text now with
    | error e => exact iff_of_true (by simp) (by simp)
    | ok found =>
      simp only [Except.ok.injEq, exists_eq_left']
      cases hfirst : (found.map (·.withOffset now.utcOffset)).find? fun parsed =>
          decide (now.instant ≤ parsed.instant) with
      | some parsed =>
        have hahead : now.instant ≤ parsed.instant := by simpa using List.find?_some hfirst
        refine iff_of_true ?_ fun ⟨hpast, _⟩ => ?_
        · rintro due ⟨⟩
          exact hahead
        · obtain ⟨date, hdate, rfl⟩ := List.mem_map.mp (List.mem_of_find?_eq_some hfirst)
          exact absurd (hpast date hdate) (not_lt.mpr hahead)
      | none =>
        have hpast : ∀ parsed ∈ found,
            (parsed.withOffset now.utcOffset).instant < now.instant := by
          simpa using hfirst
        rw [Option.none_or, extractDueAtFallback_ahead_iff, and_iff_right hpast]

/-- **The deadline of a candidate** is before `now` exactly if it is evening and the text of
the task names a deadline of today, and `dateparser` has nothing to put in its place. -/
theorem dueAt_ahead_iff (text : String) (now : DateTime) (haware : now.utcOffset.isSome = true) :
    (∀ candidate, extractTaskCandidate searchDates clock text (some now) = some candidate →
        ∀ due, candidate.dueAt = some due → now.instant ≤ due.instant) ↔
      ¬ (isTask text = true ∧ LeftToWording searchDates (normalizeText (strip text)) now ∧
        namesToday (normalizeText (strip text)) now = true ∧ now.Evening) := by
  have hdue := extractDueAt_ahead_iff searchDates clock (normalizeText (strip text)) haware
  unfold extractTaskCandidate isTask
  dsimp only
  by_cases hshort :
      ((strip text).isEmpty || decide ((normalizeText (strip text)).length < 8)) = true
  · rw [if_pos hshort]
    refine iff_of_true (by simp) fun ⟨htask, _⟩ => ?_
    simp only [Bool.or_eq_true, decide_eq_true_eq] at hshort
    simp only [Bool.and_eq_true, Bool.not_eq_true', decide_eq_true_eq] at htask
    rcases hshort with hempty | hlength
    · exact absurd (hempty.symm.trans htask.1.1) (by decide)
    · omega
  · rw [if_neg hshort]
    have hlong : (strip text).isEmpty = false ∧ 8 ≤ (normalizeText (strip text)).length := by
      simpa using hshort
    cases hwording : wording (normalizeText (strip text)) with
    | none => exact iff_of_true (by simp) (by simp)
    | some kind =>
      simp only [hlong.1, hlong.2, Option.isSome_some, decide_true, Bool.not_false, Bool.and_self,
        true_and]
      rw [← hdue]
      constructor
      · exact fun h due hextract => h _ rfl due hextract
      · rintro h candidate ⟨⟩ due hextract
        exact h due hextract

end Candidate

/-- 12 May 2026. -/
def may12 (hour : ℤ) : DateTime := ⟨combine ⟨2026, 5, 12⟩ (seconds (hour * 3600)), some 0⟩

/-- At noon. -/
theorem dueAt_ahead_noon :
    let _ := basicCharData
    (extractTaskCandidate none 0 "I will send it by EOD" (some (may12 12))).isSome = true ∧
      ∀ candidate, extractTaskCandidate none 0 "I will send it by EOD" (some (may12 12)) =
        some candidate → ∀ due, candidate.dueAt = some due →
          (may12 12).instant ≤ due.instant := by
  let _ := basicCharData
  refine ⟨by decide, ?_⟩
  exact (dueAt_ahead_iff none 0 _ (may12 12) rfl).mpr fun h =>
    absurd h.2.2.2 (by decide)

/-- At seven in the evening. -/
theorem not_dueAt_ahead_evening :
    let _ := basicCharData
    ∃ candidate, extractTaskCandidate none 0 "I will send it by EOD" (some (may12 19)) =
      some candidate ∧ ∃ due, candidate.dueAt = some due ∧ due.instant < (may12 19).instant := by
  intro _
  have h : ∃ candidate ∈ extractTaskCandidate none 0 "I will send it by EOD" (some (may12 19)),
      ∃ due ∈ candidate.dueAt, due.instant < (may12 19).instant := by
    decide
  exact h

end Tasks
end PersonalIntelligence
