import PersonalIntelligence.Contracts.Events
import PersonalIntelligence.Library.Calendar
import PersonalIntelligence.Library.Formatting

/-!
# `maintenance/partitions.py`

The monthly partitions that the maintenance job creates ahead of time.  The bounds of a
partition are instants in UTC, and years are not bounded.
-/

namespace PersonalIntelligence
namespace Maintenance

open Calendar Formatting

/-- `PARTITIONED_TABLES`: each table with the column it is partitioned by. -/
def partitionedTables : List (String × String) :=
  [("interaction", "created_at"), ("processed_event", "processed_at"), ("audit_log", "ts")]

/-- `PartitionSpec`. -/
structure PartitionSpec where
  table : String
  column : String
  name : String
  start : Timestamp
  «end» : Timestamp
  deriving DecidableEq, Repr

/-- `month_start`, of an instant with a time zone. -/
def monthStart (dt : Timestamp) : Timestamp :=
  combine ⟨(dateOf dt).year, (dateOf dt).month, 1⟩ 0

/-- `add_months`: the first day of a later month, at the time of `dt`. -/
def addMonths (dt : Timestamp) (months : ℕ) : Timestamp :=
  let year := (dateOf dt).year + ((dateOf dt).month - 1 + months) / 12
  let month := ((dateOf dt).month - 1 + months) % 12 + 1
  combine ⟨year, month, 1⟩ (timeOfDay dt)

/-- `strftime("%Y_%m")`. -/
def monthSuffix (dt : Timestamp) : String :=
  Int.repr (dateOf dt).year ++ "_" ++ pad2 (dateOf dt).month

/-- The partitions of one month. -/
def specsOfMonth (start : Timestamp) : List PartitionSpec :=
  partitionedTables.map fun (table, column) =>
    { table
      column
      name := table ++ "_" ++ monthSuffix start
      start
      «end» := addMonths start 1 }

/-- `monthly_partition_specs`. -/
def monthlyPartitionSpecs (now : Timestamp) (monthsAhead : ℤ) : List PartitionSpec :=
  (List.range (max 1 monthsAhead).toNat).flatMap fun offset =>
    specsOfMonth (addMonths (monthStart now) offset)

/-- 12 May 2026, two months ahead. -/
example : (monthlyPartitionSpecs (combine ⟨2026, 5, 12⟩ 0) 2).map (·.name) =
    ["interaction_2026_05", "processed_event_2026_05", "audit_log_2026_05",
      "interaction_2026_06", "processed_event_2026_06", "audit_log_2026_06"] := by
  decide

end Maintenance
end PersonalIntelligence
