import Mathlib.Data.Int.SuccPred
import Mathlib.Data.Int.ConditionallyCompleteOrder
import Mathlib.Order.CompletePartialOrder
import PersonalIntelligence.Library.Months
import PersonalIntelligence.Maintenance.Jobs

/-!
# Housekeeping of `processed_event`

The partitions that are created ahead are the months from the one of `now` on, and every
instant is in one month, so they tile the time until the last of them ends
(`tiles_specs`).

A partition is dropped by its name.  The name is the month it was made of, in two fields,
and `strptime` reads the month back (`parseMonthSuffix_monthSuffix`), so a partition is
dropped exactly if it ends at the beginning of the month of the cutoff, or before
(`expired_iff`).  Then none of its rows is from the cutoff on: what is dropped would have
been trimmed, and the two jobs leave what trimming leaves (`housekeeping`).

The years have four digits, as `strftime` and `strptime` disagree about the others.
-/

namespace PersonalIntelligence
namespace Maintenance

open Calendar Formatting Resumption

/-! ## Months -/

/-- The year has four digits. -/
def FourDigit (ts : Timestamp) : Prop := 1000 ≤ (dateOf ts).year ∧ (dateOf ts).year ≤ 9999

instance (ts : Timestamp) : Decidable (FourDigit ts) := inferInstanceAs (Decidable (_ ∧ _))

theorem monthStart_eq (ts : Timestamp) : monthStart ts = monthBegin (monthOf ts) := by
  have h := combine_first_dateOf ts 0
  rw [add_zero] at h
  exact h

theorem dateOf_monthBegin (k : ℤ) : dateOf (monthBegin k) = ⟨k / 12, (k % 12).toNat + 1, 1⟩ := by
  have hmonth : 1 ≤ (k % 12).toNat + 1 ∧ (k % 12).toNat + 1 ≤ 12 := by omega
  have hvalid : Date.Valid ⟨k / 12, (k % 12).toNat + 1, 1⟩ :=
    ⟨hmonth, le_rfl, (show 1 ≤ 28 by omega).trans (daysInMonth_bounds _ _).1⟩
  have hindex : k / 12 * 12 + (((k % 12).toNat + 1 : ℕ) - 1) = k := by omega
  have hbegin := @combine_first 0 (k / 12) _ hmonth
  rw [hindex, add_zero] at hbegin
  rw [← hbegin, dateOf_combine hvalid ⟨le_rfl, by decide⟩]

theorem addMonths_monthBegin (k : ℤ) (n : ℕ) : addMonths (monthBegin k) n = monthBegin (k + n) := by
  have htime : timeOfDay (monthBegin k) = 0 := by
    unfold timeOfDay monthBegin dayLength
    omega
  unfold addMonths
  rw [dateOf_monthBegin, htime]
  dsimp only
  rw [combine_first _ _ (by omega), add_zero]
  congr 1
  omega

theorem monthSuffix_injective : Function.Injective fun k => monthSuffix (monthBegin k) := by
  intro k k' h
  have htext := congrArg String.toList h
  simp only [monthSuffix, dateOf_monthBegin, String.toList_append, List.append_assoc] at htext
  have hfield := field_inj (notMem_repr_int (by decide) (by decide) _)
    (notMem_repr_int (by decide) (by decide) _) htext
  have hyear := repr_int_injective hfield.1
  have hmonth := pad2_injective (String.toList_injective hfield.2)
  omega

/-! ## The partitions ahead -/

/-- The ranges of the partitions are consecutive, and go from `lo` to `hi`. -/
structure Tiles (specs : List PartitionSpec) (lo hi : Timestamp) : Prop where
  nonempty : ∀ spec ∈ specs, spec.start < spec.end
  disjoint : specs.Pairwise fun a b => Disjoint (Set.Ico a.start a.end) (Set.Ico b.start b.end)
  covers : ∀ t, (∃ spec ∈ specs, t ∈ Set.Ico spec.start spec.end) ↔ t ∈ Set.Ico lo hi

/-- The partition of a table for a month. -/
def specOf (table : String × String) (k : ℤ) : PartitionSpec where
  table := table.1
  column := table.2
  name := table.1 ++ "_" ++ monthSuffix (monthBegin k)
  start := monthBegin k
  «end» := monthBegin (k + 1)

theorem specs_eq (now : Timestamp) (monthsAhead : ℤ) : monthlyPartitionSpecs now monthsAhead =
    (List.range (max 1 monthsAhead).toNat).flatMap fun i : ℕ =>
      partitionedTables.map fun table => specOf table (monthOf now + i) := by
  unfold monthlyPartitionSpecs specsOfMonth
  simp only [monthStart_eq, addMonths_monthBegin, Nat.cast_one]
  rfl

/-- The partitions of one table, month by month. -/
theorem specs_of_table (now : Timestamp) (monthsAhead : ℤ) {table : String × String}
    (htable : table ∈ partitionedTables) :
    (monthlyPartitionSpecs now monthsAhead).filter (·.table = table.1) =
      (List.range (max 1 monthsAhead).toNat).map fun i : ℕ => specOf table (monthOf now + i) := by
  have hone : ∀ k, (partitionedTables.map fun t => specOf t k).filter (·.table = table.1) =
      [specOf table k] := by
    intro k
    unfold partitionedTables at htable ⊢
    simp only [List.mem_cons, List.not_mem_nil, or_false] at htable
    rcases htable with rfl | rfl | rfl
    · simp [specOf]
    · simp [specOf]
    · simp [specOf]
  rw [specs_eq, List.filter_flatMap]
  simp only [hone]
  rw [List.map_eq_flatMap]

/-- Every instant is in one month. -/
theorem mem_range_specOf (table : String × String) (k t : ℤ) :
    t ∈ Set.Ico (specOf table k).start (specOf table k).end ↔ monthOf t = k := by
  rw [Set.mem_Ico, specOf, monthBegin_le_iff, lt_monthBegin_iff]
  omega

/-- **The partitions of a table tile the months ahead.** -/
theorem tiles_specs (now : Timestamp) (monthsAhead : ℤ) {table : String × String}
    (htable : table ∈ partitionedTables) :
    Tiles ((monthlyPartitionSpecs now monthsAhead).filter (·.table = table.1)) (monthStart now)
      (addMonths (monthStart now) (max 1 monthsAhead).toNat) := by
  rw [specs_of_table now monthsAhead htable, monthStart_eq, addMonths_monthBegin]
  refine ⟨?_, ?_, ?_⟩
  · intro spec hspec
    obtain ⟨i, -, rfl⟩ := List.mem_map.mp hspec
    exact monthBegin_strictMono (by omega)
  · refine List.pairwise_map.mpr (List.pairwise_lt_range.imp fun {i j} hlt => ?_)
    refine Set.disjoint_left.mpr fun t hi hj => ?_
    rw [mem_range_specOf] at hi hj
    omega
  · intro t
    simp only [List.mem_map, List.mem_range, exists_exists_and_eq_and, mem_range_specOf]
    rw [Set.mem_Ico, monthBegin_le_iff, lt_monthBegin_iff]
    constructor
    · rintro ⟨i, hi, hmonth⟩
      omega
    · rintro ⟨hge, hlt⟩
      exact ⟨(monthOf t - monthOf now).toNat, by omega, by omega⟩

/-- The names of the tables begin differently. -/
theorem table_inj : ∀ t ∈ partitionedTables, ∀ t' ∈ partitionedTables,
    t.1.toList.head? = t'.1.toList.head? → t = t' := by
  decide

theorem name_specOf_inj {t t' : String × String} (ht : t ∈ partitionedTables)
    (ht' : t' ∈ partitionedTables) {k k' : ℤ} (h : (specOf t k).name = (specOf t' k').name) :
    t = t' ∧ k = k' := by
  have hhead : ∀ t ∈ partitionedTables, ∀ k, (specOf t k).name.toList.head? = t.1.toList.head? := by
    intro t ht k
    have hne : t.1.toList ≠ [] := by
      revert t
      decide
    obtain ⟨c, rest, hlist⟩ := List.exists_cons_of_ne_nil hne
    simp [specOf, hlist]
  obtain rfl := table_inj t ht t' ht' (by rw [← hhead t ht k, h, hhead t' ht' k'])
  exact ⟨rfl, monthSuffix_injective ((String.append_right_inj _).mp h)⟩

theorem nodup_names (now : Timestamp) (monthsAhead : ℤ) :
    ((monthlyPartitionSpecs now monthsAhead).map (·.name)).Nodup := by
  rw [specs_eq, List.map_flatMap, List.nodup_flatMap]
  constructor
  · intro i _
    rw [List.map_map]
    refine List.Nodup.map_on (fun t ht t' ht' h => (name_specOf_inj ht ht' h).1) ?_
    decide
  · refine List.pairwise_lt_range.imp fun {i j} hlt => ?_
    refine List.disjoint_left.mpr fun name hi hj => ?_
    simp only [List.mem_map] at hi hj
    obtain ⟨-, ⟨t, ht, rfl⟩, rfl⟩ := hi
    obtain ⟨-, ⟨t', ht', rfl⟩, heq⟩ := hj
    have hmonth := (name_specOf_inj ht' ht heq).2
    omega

/-! ## The name of a partition -/

/-- A partition of `processed_event` for a month, named by it. -/
structure Partition.Monthly (p : Partition) : Prop where
  start : p.start = monthStart p.start
  «end» : p.end = addMonths p.start 1
  name : p.name = "processed_event" ++ "_" ++ monthSuffix p.start
  years : FourDigit p.start ∧ FourDigit p.end

/-- A year of four digits is written with them, and read back. -/
theorem toList_repr_year {y : ℤ} (hy : 1000 ≤ y ∧ y ≤ 9999) :
    ∃ y₁ y₂ y₃ y₄, (Int.repr y).toList = [y₁, y₂, y₃, y₄] ∧
      [y₁, y₂, y₃, y₄].all Char.isDigit = true ∧
      (Nat.ofDigitChars 10 [y₁, y₂, y₃, y₄] 0 : ℤ) = y := by
  obtain ⟨n, rfl⟩ : ∃ n : ℕ, y = n := ⟨y.toNat, by omega⟩
  have hrepr : Int.repr n = n.repr := by
    rw [Int.repr_eq_if, if_pos (by omega), Int.toNat_natCast]
  have hlength : (Nat.toDigits 10 n).length = 4 := by
    have hle := (@Nat.length_toDigits_le_iff 10 n 4 (by omega) (by omega)).mpr (by omega)
    have hge := mt (@Nat.length_toDigits_le_iff 10 n 3 (by omega) (by omega)).mp (by omega)
    omega
  obtain ⟨y₁, y₂, y₃, y₄, hdigits⟩ := List.length_eq_four.mp hlength
  refine ⟨y₁, y₂, y₃, y₄, ?_, ?_, ?_⟩
  · rw [hrepr, Nat.toList_repr, hdigits]
  · rw [List.all_eq_true, ← hdigits]
    exact fun c hc => Nat.isDigit_of_mem_toDigits (by omega) (by omega) hc
  · rw [← hdigits, Nat.ofDigitChars_ten_toDigits]

/-- A month is written with two digits, and read back. -/
theorem parseMonth_pad2 : ∀ m < 13, 1 ≤ m → parseMonth (pad2 m).toList = some m := by
  decide

/-- **The month of a name** is read back from it. -/
theorem parseMonthSuffix_monthSuffix {start : Timestamp} (hyears : FourDigit start) :
    parseMonthSuffix (monthSuffix start) = some (monthStart start) := by
  obtain ⟨y₁, y₂, y₃, y₄, hlist, hdigits, hyear⟩ := toList_repr_year hyears
  have hmonth : 1 ≤ (dateOf start).month ∧ (dateOf start).month ≤ 12 := (valid_ofOrdinal _).1
  have htext : (monthSuffix start).toList =
      y₁ :: y₂ :: y₃ :: y₄ :: '_' :: (pad2 (dateOf start).month).toList := by
    simp [monthSuffix, hlist]
  have hne : Nat.ofDigitChars 10 [y₁, y₂, y₃, y₄] 0 ≠ 0 := by
    have hge := hyears.1
    omega
  unfold parseMonthSuffix
  rw [htext]
  simp only
  rw [if_pos ⟨hdigits, hne⟩, parseMonth_pad2 _ (Nat.lt_succ_of_le hmonth.2) hmonth.1, hyear]
  rfl

theorem removePrefix_append (pre rest : String) : removePrefix pre (pre ++ rest) = rest := by
  have hprefix : pre.toList.isPrefixOf (pre ++ rest).toList = true := by
    rw [String.toList_append]
    exact List.isPrefixOf_iff_prefix.mpr (List.prefix_append _ _)
  unfold removePrefix
  rw [if_pos hprefix, String.toList_append, ← String.length_toList, List.drop_left,
    String.ofList_toList]

/-- **Dropped by its name** is a partition that ends where the month of the cutoff begins,
or before. -/
theorem expired_iff {p : Partition} (hp : p.Monthly) (cutoffMonth : Timestamp) :
    expired cutoffMonth p.name = true ↔ p.end ≤ cutoffMonth := by
  have hprefix : "processed_event" ++ "_" = "processed_event_" := by decide
  unfold expired
  rw [hp.name, hprefix, removePrefix_append, parseMonthSuffix_monthSuffix hp.years.1, ← hp.start]
  dsimp only
  rw [decide_eq_true_eq, addMonth, ← hp.end]

/-! ## Dropping and trimming -/

/-- The partitions of these names are gone, and so are their rows. -/
def World.dropping (gone : String → Bool) (s : World) : World :=
  { s with
    partitions := s.partitions.filter fun p => !gone p.name
    processedEvent := s.processedEvent.filter fun row =>
      !s.partitions.any fun p => gone p.name && p.table = "processed_event" && p.holds row }

theorem World.dropTable_eq (name : String) (s : World) :
    s.dropTable name = s.dropping fun n => decide (n = name) := by
  simp [World.dropTable, World.dropping]

theorem World.dropping_of_forall_false {gone : String → Bool} (h : ∀ name, gone name = false)
    (s : World) : s.dropping gone = s := by
  have hrows : (s.processedEvent.filter fun row => !s.partitions.any fun p =>
      gone p.name && p.table = "processed_event" && p.holds row) = s.processedEvent := by
    refine List.filter_eq_self.mpr fun row _ => ?_
    rw [Bool.not_eq_true', List.any_eq_false]
    exact fun p _ => by simp [h]
  have hpartitions : (s.partitions.filter fun p => !gone p.name) = s.partitions :=
    List.filter_eq_self.mpr fun p _ => by rw [h, Bool.not_false]
  rw [World.dropping, hpartitions, hrows]

/-- One after the other is both. -/
theorem World.dropping_dropping (gone gone' : String → Bool) (s : World) :
    (s.dropping gone).dropping gone' = s.dropping fun name => gone name || gone' name := by
  have hpartitions : (s.partitions.filter fun p => !gone p.name).filter (fun p => !gone' p.name) =
      s.partitions.filter fun p => !(gone p.name || gone' p.name) := by
    rw [List.filter_filter]
    exact List.filter_congr fun p _ => by rw [Bool.not_or, Bool.and_comm]
  have hrows : ∀ row,
      ((!(s.partitions.filter fun p => !gone p.name).any fun p =>
          gone' p.name && p.table = "processed_event" && p.holds row) &&
        !s.partitions.any fun p =>
          gone p.name && p.table = "processed_event" && p.holds row) =
        !s.partitions.any fun p =>
          (gone p.name || gone' p.name) && p.table = "processed_event" && p.holds row := by
    intro row
    rw [List.any_filter, ← Bool.not_or, Bool.not_inj_iff, Bool.eq_iff_iff]
    simp only [Bool.or_eq_true, List.any_eq_true, Bool.and_eq_true, Bool.not_eq_true']
    constructor
    · rintro (⟨p, hp, -, ⟨hgone, htable⟩, hrow⟩ | ⟨p, hp, ⟨hgone, htable⟩, hrow⟩)
      · exact ⟨p, hp, ⟨.inr hgone, htable⟩, hrow⟩
      · exact ⟨p, hp, ⟨.inl hgone, htable⟩, hrow⟩
    · rintro ⟨p, hp, ⟨hgone, htable⟩, hrow⟩
      cases hfirst : gone p.name with
      | true => exact .inr ⟨p, hp, ⟨hfirst, htable⟩, hrow⟩
      | false => exact .inl ⟨p, hp, hfirst, ⟨hgone.resolve_left (by simp [hfirst]), htable⟩, hrow⟩
  simp only [World.dropping, hpartitions, List.filter_filter, hrows]

/-- So many statements have been made. -/
def World.called (s : World) (calls : ℕ) : World := { s with calls }

@[simp] theorem World.called_now (s : World) (n : ℕ) : (s.called n).now = s.now := rfl

@[simp] theorem World.called_partitions (s : World) (n : ℕ) :
    (s.called n).partitions = s.partitions := rfl

@[simp] theorem World.called_processedEvent (s : World) (n : ℕ) :
    (s.called n).processedEvent = s.processedEvent := rfl

@[simp] theorem World.called_called (s : World) (m n : ℕ) : (s.called m).called n = s.called n := rfl

@[simp] theorem World.called_dropping (gone : String → Bool) (s : World) (n : ℕ) :
    (s.called n).dropping gone = (s.dropping gone).called n := rfl

theorem contains_cons_and (p : String → Bool) (name : String) (rest : List String) (n : String) :
    ((name :: rest).contains n && p n) = (decide (n = name) && p name || rest.contains n && p n) := by
  by_cases hn : n = name
  · simp [hn]
  · simp [hn]

section Runs

variable {env : Env} (hcalm : ∀ n c, env.faults n c = false)

include hcalm

theorem Env.run_calm (c : Cmd) (s : World) :
    env.run c s = ((env.effect c s).1, (env.effect c s).2.called (s.calls + 1)) := by
  rw [Env.run, hcalm]
  rfl

theorem Env.run_now (s : World) : env.run .now s = (.ok s.now, s.called (s.calls + 1)) :=
  Env.run_calm hcalm _ s

theorem Env.run_selectPartitions (s : World) : env.run .selectPartitions s =
    (.ok (((s.partitions.filter (·.table = "processed_event")).map (·.name)).insertionSort (· ≤ ·)),
      s.called (s.calls + 1)) :=
  Env.run_calm hcalm _ s

theorem Env.run_dropTable (name : String) (s : World) : env.run (.dropTable name) s =
    (.ok (), (s.dropping fun n => decide (n = name)).called (s.calls + 1)) := by
  rw [← World.dropTable_eq]
  exact Env.run_calm hcalm _ s

theorem Env.run_deleteProcessed (cutoff : Timestamp) (s : World) :
    env.run (.deleteProcessed cutoff) s = (.ok (s.processedEvent.countP (·.processedAt < cutoff)),
      { s with
        processedEvent := s.processedEvent.filter fun row => !decide (row.processedAt < cutoff)
        calls := s.calls + 1 }) :=
  Env.run_calm hcalm _ s

/-- **The loop** drops the expired ones of the names. -/
theorem exec_dropExpired (cutoffMonth : Timestamp) (names : List String) (dropped : ℕ)
    (s : World) : ∃ dropped' calls, exec env.run (dropExpired cutoffMonth names dropped) s =
      (.ok dropped', (s.dropping fun name =>
        names.contains name && expired cutoffMonth name).called calls) := by
  induction names generalizing dropped s with
  | nil =>
    refine ⟨dropped, s.calls, ?_⟩
    rw [World.dropping_of_forall_false fun name => by simp]
    rfl
  | cons name rest ih =>
    rw [dropExpired]
    by_cases hexpired : expired cutoffMonth name = true
    · obtain ⟨dropped', calls, hrun⟩ := ih (dropped + 1)
        ((s.dropping fun n => decide (n = name)).called (s.calls + 1))
      refine ⟨dropped', calls, ?_⟩
      have hnames : (fun n => decide (n = name) || (rest.contains n && expired cutoffMonth n)) =
          fun n => (name :: rest).contains n && expired cutoffMonth n := by
        simp only [contains_cons_and (expired cutoffMonth), hexpired, Bool.and_true]
      rw [if_pos hexpired, await, exec_perform_bind, Env.run_dropTable hcalm, andThen_ok, hrun,
        World.called_dropping, World.dropping_dropping, hnames, World.called_called]
    · obtain ⟨dropped', calls, hrun⟩ := ih dropped s
      refine ⟨dropped', calls, ?_⟩
      have hnames : (fun n => rest.contains n && expired cutoffMonth n) =
          fun n => (name :: rest).contains n && expired cutoffMonth n := by
        simp only [contains_cons_and (expired cutoffMonth), hexpired, Bool.and_false, Bool.false_or]
      rw [if_neg hexpired, hrun, hnames]

end Runs

/-! ## The two jobs -/

/-- `current - timedelta(days=max(1, retention_days))`. -/
def retentionCutoff (now : Timestamp) (retentionDays : ℤ) : Timestamp :=
  now - max 1 retentionDays * dayLength

theorem retentionCutoff_lt (now : Timestamp) (retentionDays : ℤ) :
    retentionCutoff now retentionDays < now := by
  have hdays : 0 < max 1 retentionDays * dayLength := by
    unfold dayLength
    omega
  exact sub_lt_self now hdays

/-- `drop_expired_processed_event_partitions`, then `trim_processed_event_boundary_rows`. -/
def dropAndTrim (retentionDays : ℤ) : Maintaining ℕ := do
  let _dropped ← dropExpiredProcessedEventPartitions retentionDays
  trimProcessedEventBoundaryRows retentionDays

/-- The names of the partitions that are dropped. -/
def World.goneBefore (s : World) (cutoffMonth : Timestamp) (name : String) : Bool :=
  (((s.partitions.filter (·.table = "processed_event")).map (·.name)).insertionSort
    (· ≤ ·)).contains name && expired cutoffMonth name

theorem cutoffOf_eq {now : Timestamp} {retentionDays : ℤ}
    (hyear : FourDigit (retentionCutoff now retentionDays)) :
    cutoffOf now retentionDays = pure (retentionCutoff now retentionDays) := by
  have hfirst : combine ⟨1, 1, 1⟩ 0 = monthBegin 12 := by decide
  have hmonth := (valid_ofOrdinal (retentionCutoff now retentionDays / dayLength + 719163)).1
  have hge : ¬ retentionCutoff now retentionDays < combine ⟨1, 1, 1⟩ 0 := by
    rw [hfirst, lt_monthBegin_iff]
    have hyear' := hyear.1
    unfold monthOf monthIndex dateOf at *
    omega
  exact if_neg hge

section Jobs

variable {env : Env} (hcalm : ∀ n c, env.faults n c = false) (s : World) {retentionDays : ℤ}
  (hyear : FourDigit (retentionCutoff s.now retentionDays))

include hcalm hyear

theorem exec_drop :
    ∃ dropped calls, exec env.run (dropExpiredProcessedEventPartitions retentionDays) s =
      (.ok dropped, (s.dropping (s.goneBefore
        (monthStart (retentionCutoff s.now retentionDays)))).called calls) := by
  obtain ⟨dropped, calls, hrun⟩ := exec_dropExpired hcalm
    (monthStart (retentionCutoff s.now retentionDays))
    (((s.partitions.filter (·.table = "processed_event")).map (·.name)).insertionSort (· ≤ ·)) 0
    ((s.called (s.calls + 1)).called ((s.called (s.calls + 1)).calls + 1))
  refine ⟨dropped, calls, ?_⟩
  rw [dropExpiredProcessedEventPartitions, await, exec_perform_bind, Env.run_now hcalm, andThen_ok,
    cutoffOf_eq hyear, Prog.pure_eq, Prog.ret_bind, await, exec_perform_bind,
    Env.run_selectPartitions hcalm, andThen_ok]
  exact hrun

theorem exec_trim :
    ∃ deleted calls, exec env.run (trimProcessedEventBoundaryRows retentionDays) s =
      (.ok deleted,
        { s with
          processedEvent := s.processedEvent.filter fun row =>
            !decide (row.processedAt < retentionCutoff s.now retentionDays)
          calls }) := by
  refine ⟨s.processedEvent.countP (·.processedAt < retentionCutoff s.now retentionDays),
    s.calls + 1 + 1, ?_⟩
  rw [trimProcessedEventBoundaryRows, await, exec_perform_bind, Env.run_now hcalm, andThen_ok,
    cutoffOf_eq hyear, Prog.pure_eq, Prog.ret_bind, await, exec_perform,
    Env.run_deleteProcessed hcalm]
  rfl

end Jobs

/-- The name of a monthly partition goes exactly if its month is over. -/
theorem World.goneBefore_iff {s : World} {p : Partition} (hp : p.Monthly) (hmem : p ∈ s.partitions)
    (htable : p.table = "processed_event") (cutoffMonth : Timestamp) :
    s.goneBefore cutoffMonth p.name = true ↔ p.end ≤ cutoffMonth := by
  have hlisted : (((s.partitions.filter (·.table = "processed_event")).map
      (·.name)).insertionSort (· ≤ ·)).contains p.name = true := by
    rw [List.contains_iff_mem, List.mem_insertionSort]
    exact List.mem_map_of_mem (List.mem_filter.mpr ⟨hmem, decide_eq_true htable⟩)
  rw [World.goneBefore, hlisted, Bool.true_and, expired_iff hp]

/-- **Housekeeping.**  The partitions ahead tile the months from the one of `now` on, under
different names; and dropping and trimming leave the rows from the cutoff on, and the
partition of `now` and the later ones. -/
theorem housekeeping {env : Env} (hcalm : ∀ n c, env.faults n c = false) (s : World)
    (monthsAhead retentionDays : ℤ)
    (hmonthly : ∀ p ∈ s.partitions, p.table = "processed_event" → p.Monthly)
    (hyear : FourDigit (retentionCutoff s.now retentionDays)) :
    ((∀ table ∈ partitionedTables,
        Tiles ((monthlyPartitionSpecs s.now monthsAhead).filter (·.table = table.1))
          (monthStart s.now) (addMonths (monthStart s.now) (max 1 monthsAhead).toNat)) ∧
      ((monthlyPartitionSpecs s.now monthsAhead).map (·.name)).Nodup) ∧
    ∃ deleted s', exec env.run (dropAndTrim retentionDays) s = (.ok deleted, s') ∧
      s'.processedEvent = s.processedEvent.filter (fun row =>
        decide (retentionCutoff s.now retentionDays ≤ row.processedAt)) ∧
      ∀ p ∈ s.partitions, p.table = "processed_event" → s.now < p.end → p ∈ s'.partitions := by
  refine ⟨⟨fun table htable => tiles_specs s.now monthsAhead htable,
    nodup_names s.now monthsAhead⟩, ?_⟩
  obtain ⟨cutoff, hcutoff⟩ : ∃ t, t = retentionCutoff s.now retentionDays := ⟨_, rfl⟩
  have hstart : monthStart cutoff ≤ cutoff := by
    rw [monthStart_eq, monthBegin_le_iff]
  have hbefore : cutoff < s.now := hcutoff ▸ retentionCutoff_lt s.now retentionDays
  obtain ⟨dropped, calls, hdrop⟩ := exec_drop hcalm s hyear
  rw [← hcutoff] at hdrop ⊢
  obtain ⟨s', hs'⟩ : ∃ s', s' = (s.dropping (s.goneBefore (monthStart cutoff))).called calls :=
    ⟨_, rfl⟩
  have hnow : s'.now = s.now := by rw [hs']; rfl
  obtain ⟨deleted, calls', htrim⟩ := @exec_trim env hcalm s' retentionDays (hnow ▸ hyear)
  rw [hnow, ← hcutoff] at htrim
  refine ⟨deleted, { s' with
    processedEvent := s'.processedEvent.filter fun row => !decide (row.processedAt < cutoff)
    calls := calls' }, ?_, ?_, ?_⟩
  · rw [dropAndTrim, exec_bind, hdrop, andThen_ok, ← hs', htrim, hnow]
  · -- what was dropped is from before the cutoff
    rw [hs']
    simp only [World.called_processedEvent, World.dropping, List.filter_filter]
    refine List.filter_congr fun row _ => ?_
    rw [Bool.eq_iff_iff]
    simp only [Bool.and_eq_true, Bool.not_eq_true', decide_eq_false_iff_not, decide_eq_true_eq,
      List.any_eq_false, not_lt]
    refine and_iff_left_of_imp fun hrow p hp hgone => ?_
    obtain ⟨⟨hname, htable⟩, hholds⟩ := hgone
    have hend := (World.goneBefore_iff (hmonthly p hp htable) hp htable _).mp hname
    have hin : row.processedAt < p.end := (of_decide_eq_true hholds).2
    exact absurd (hin.trans_le (hend.trans hstart)) (not_lt.mpr hrow)
  · intro p hp htable hlater
    rw [hs']
    refine List.mem_filter.mpr ⟨hp, ?_⟩
    rw [Bool.not_eq_true', ← Bool.not_eq_true, World.goneBefore_iff (hmonthly p hp htable) hp htable]
    exact not_le.mpr ((hstart.trans_lt hbefore).trans hlater)

/-- A world of February 2026, with the partitions of December, January and February, and a
row in each of them. -/
def february : World where
  now := combine ⟨2026, 2, 12⟩ 0
  partitions := [⟨"processed_event", "processed_event_2025_12", combine ⟨2025, 12, 1⟩ 0,
      combine ⟨2026, 1, 1⟩ 0⟩,
    ⟨"processed_event", "processed_event_2026_01", combine ⟨2026, 1, 1⟩ 0, combine ⟨2026, 2, 1⟩ 0⟩,
    ⟨"processed_event", "processed_event_2026_02", combine ⟨2026, 2, 1⟩ 0, combine ⟨2026, 3, 1⟩ 0⟩]
  processedEvent := [combine ⟨2025, 12, 20⟩ 0, combine ⟨2026, 1, 12⟩ 0, combine ⟨2026, 1, 13⟩ 0,
    combine ⟨2026, 2, 3⟩ 0].map fun t => { consumerName := "", eventId := 0, processedAt := t }

theorem monthly_february : ∀ p ∈ february.partitions, p.table = "processed_event" → p.Monthly := by
  intro p hp _
  simp only [february, List.mem_cons, List.not_mem_nil, or_false] at hp
  rcases hp with rfl | rfl | rfl
  · exact ⟨by decide, by decide, by decide, by decide⟩
  · exact ⟨by decide, by decide, by decide, by decide⟩
  · exact ⟨by decide, by decide, by decide, by decide⟩

/-- Thirty days of retention: the partition of December goes, and a row of January. -/
theorem housekeeping_february :
    ((∀ table ∈ partitionedTables,
        Tiles ((monthlyPartitionSpecs february.now 3).filter (·.table = table.1))
          (monthStart february.now) (addMonths (monthStart february.now) 3)) ∧
      ((monthlyPartitionSpecs february.now 3).map (·.name)).Nodup) ∧
    ∃ deleted s', exec (Env.run {}) (dropAndTrim 30) february = (.ok deleted, s') ∧
      s'.processedEvent = february.processedEvent.filter (fun row =>
        decide (retentionCutoff february.now 30 ≤ row.processedAt)) ∧
      ∀ p ∈ february.partitions, p.table = "processed_event" → february.now < p.end →
        p ∈ s'.partitions :=
  housekeeping (fun _ _ => rfl) february 3 30 monthly_february (by decide)

end Maintenance
end PersonalIntelligence
