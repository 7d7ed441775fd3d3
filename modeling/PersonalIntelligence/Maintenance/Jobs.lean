import PersonalIntelligence.Library.PyText
import PersonalIntelligence.Library.Resumption
import PersonalIntelligence.Maintenance.Partitions
import PersonalIntelligence.Orchestrator.Consumer

/-!
# `maintenance/jobs.py`

The maintenance job creates the partitions of the coming months, drops the partitions of
`processed_event` that lie before the month of the cutoff, and deletes the older rows of
the others.  The functions are programs over the statements they execute.

A table is the list of the rows of all its partitions; dropping a partition removes the
rows of its range.  Of the partitioned tables only `processed_event` loses rows, so it is
the only one with rows here.
-/

namespace PersonalIntelligence
namespace Maintenance

open Calendar PyText Resumption

/-- What `fetchval` makes of `setting.value`. -/
inductive SettingValue where
  | int (value : ℤ)
  | str (value : String)
  | other
  deriving DecidableEq, Repr

/-! ## Commands -/

/-- The statements of the job, and its clock. -/
inductive Cmd where
  /-- `SELECT pg_try_advisory_lock($1)`. -/
  | tryLock (key : ℤ)
  /-- `SELECT pg_advisory_unlock($1)`. -/
  | unlock (key : ℤ)
  /-- `INSERT INTO setting ... ON CONFLICT (key) DO NOTHING`. -/
  | insertSetting (key value : String)
  /-- `SELECT value FROM setting WHERE key = $1`. -/
  | selectSetting (key : String)
  | now
  /-- `SELECT to_regclass($1) IS NOT NULL`. -/
  | relationExists (relationName : String)
  /-- `create_partition_sql`. -/
  | createPartition (spec : PartitionSpec)
  /-- The names of the partitions of `processed_event`. -/
  | selectPartitions
  /-- `DROP TABLE IF EXISTS`. -/
  | dropTable (name : String)
  /-- `DELETE FROM processed_event WHERE processed_at < $1`. -/
  | deleteProcessed (cutoff : Timestamp)
  deriving DecidableEq, Repr

/-- What each command answers. -/
abbrev Ans : Cmd → Type
  | .tryLock _ | .relationExists _ => Bool
  | .selectSetting _ => Option SettingValue
  | .now => Timestamp
  | .selectPartitions => List String
  | .deleteProcessed _ => ℕ
  | _ => Unit

abbrev Maintaining := Prog Cmd Ans Exc

/-- One command, awaited where it stands. -/
abbrev await (c : Cmd) : Maintaining (Ans c) := Prog.perform c

/-! ## The jobs -/

/-- `_json_scalar`, of a number. -/
def jsonScalar (value : ℤ) : String := Int.repr value

/-- `ensure_runtime_defaults`. -/
def ensureRuntimeDefaults (defaultMonthsAhead defaultRetentionDays : ℤ) : Maintaining Unit := do
  await (.insertSetting "maintenance.partition_months_ahead" (jsonScalar defaultMonthsAhead))
  await (.insertSetting "maintenance.processed_event_retention_days"
    (jsonScalar defaultRetentionDays))

/-- Decimal digits, with single underscores between them. -/
def parseDigits (s : List Char) : Option ℤ :=
  let groups := s.splitOn '_'
  if groups.all fun group => !group.isEmpty && group.all Char.isDigit then
    some (Nat.ofDigitChars 10 groups.flatten 0)
  else none

/-- `int(value)`, which raises `ValueError` if the text is no number. -/
def pyInt (value : String) : Option ℤ :=
  match (strip value).toList with
  | '-' :: digits => (parseDigits digits).map Neg.neg
  | '+' :: digits => parseDigits digits
  | digits => parseDigits digits

/-- `get_int_setting`. -/
def getIntSetting (key : String) (default : ℤ) : Maintaining ℤ := do
  match ← await (.selectSetting key) with
  | none => pure default
  | some (.int value) => pure value
  | some (.str value) => pure ((pyInt value).getD default)
  | some .other => pure default

/-- The loop of `ensure_future_partitions`. -/
def createPartitions : List PartitionSpec → ℕ → Maintaining ℕ
  | [], created => pure created
  | spec :: rest, created => do
    let existed ← await (.relationExists spec.name)
    await (.createPartition spec)
    createPartitions rest (if existed then created else created + 1)

/-- `ensure_future_partitions`. -/
def ensureFuturePartitions (monthsAhead : ℤ) : Maintaining ℕ := do
  let current ← await .now
  createPartitions (monthlyPartitionSpecs current monthsAhead) 0

/-- `current - timedelta(days=max(1, retention_days))`, which raises `OverflowError` before
the year 1. -/
def cutoffOf (current : Timestamp) (retentionDays : ℤ) : Maintaining Timestamp :=
  let cutoff := current - max 1 retentionDays * dayLength
  if cutoff < combine ⟨1, 1, 1⟩ 0 then throw (.runtime "date value out of range")
  else pure cutoff

/-- `_add_month`. -/
def addMonth (dt : Timestamp) (months : ℕ) : Timestamp := addMonths dt months

/-- The month of two digits or of one. -/
def parseMonth : List Char → Option ℕ
  | ['1', d] => if d = '0' ∨ d = '1' ∨ d = '2' then some (10 + (d.toNat - 48)) else none
  | ['0', d] | [d] => if d.isDigit ∧ d ≠ '0' then some (d.toNat - 48) else none
  | _ => none

/-- `datetime.strptime(suffix, "%Y_%m")`, which raises `ValueError` if the text is no month. -/
def parseMonthSuffix (suffix : String) : Option Timestamp :=
  match suffix.toList with
  | y₁ :: y₂ :: y₃ :: y₄ :: '_' :: rest =>
    if [y₁, y₂, y₃, y₄].all Char.isDigit ∧ Nat.ofDigitChars 10 [y₁, y₂, y₃, y₄] 0 ≠ 0 then
      (parseMonth rest).map fun month =>
        combine ⟨Nat.ofDigitChars 10 [y₁, y₂, y₃, y₄] 0, month, 1⟩ 0
    else none
  | _ => none

/-- `str.removeprefix`. -/
def removePrefix (pre name : String) : String :=
  if pre.toList.isPrefixOf name.toList then String.ofList (name.toList.drop pre.length) else name

/-- The partition of that name lies before the month. -/
def expired (cutoffMonth : Timestamp) (name : String) : Bool :=
  match parseMonthSuffix (removePrefix "processed_event_" name) with
  | some start => decide (addMonth start 1 ≤ cutoffMonth)
  | none => false

/-- The loop of `drop_expired_processed_event_partitions`. -/
def dropExpired (cutoffMonth : Timestamp) : List String → ℕ → Maintaining ℕ
  | [], dropped => pure dropped
  | name :: rest, dropped =>
    if expired cutoffMonth name then do
      await (.dropTable name)
      dropExpired cutoffMonth rest (dropped + 1)
    else dropExpired cutoffMonth rest dropped

/-- `drop_expired_processed_event_partitions`. -/
def dropExpiredProcessedEventPartitions (retentionDays : ℤ) : Maintaining ℕ := do
  let current ← await .now
  let cutoff ← cutoffOf current retentionDays
  let partitions ← await .selectPartitions
  dropExpired (monthStart cutoff) partitions 0

/-- `trim_processed_event_boundary_rows`. -/
def trimProcessedEventBoundaryRows (retentionDays : ℤ) : Maintaining ℕ := do
  let current ← await .now
  let cutoff ← cutoffOf current retentionDays
  await (.deleteProcessed cutoff)

/-- The keyword arguments of `run_maintenance`. -/
structure Defaults where
  defaultMonthsAhead : ℤ := 3
  defaultProcessedEventRetentionDays : ℤ := 30
  advisoryLockKey : ℤ := 42042
  deriving DecidableEq, Repr

/-- The `try` of `run_maintenance`. -/
def maintain (defaults : Defaults) : Maintaining Unit := do
  ensureRuntimeDefaults defaults.defaultMonthsAhead defaults.defaultProcessedEventRetentionDays
  let monthsAhead ← getIntSetting "maintenance.partition_months_ahead" defaults.defaultMonthsAhead
  let retentionDays ← getIntSetting "maintenance.processed_event_retention_days"
    defaults.defaultProcessedEventRetentionDays
  let _created ← ensureFuturePartitions monthsAhead
  let _dropped ← dropExpiredProcessedEventPartitions retentionDays
  let _deleted ← trimProcessedEventBoundaryRows retentionDays
  pure ()

/-- `run_maintenance`; the `finally` runs after an exception too. -/
def runMaintenance (defaults : Defaults) : Maintaining Unit := do
  let locked ← await (.tryLock defaults.advisoryLockKey)
  if !locked then pure ()
  else do
    tryCatch (maintain defaults) fun e => do
      await (.unlock defaults.advisoryLockKey)
      throw e
    await (.unlock defaults.advisoryLockKey)

/-! ## What the statements do -/

/-- A partition that exists. -/
structure Partition where
  table : String
  name : String
  start : Timestamp
  «end» : Timestamp
  deriving DecidableEq, Repr

/-- The part of Postgres that the job reads and writes. -/
structure World where
  now : Timestamp := 0
  setting : List (String × SettingValue) := []
  partitions : List Partition := []
  /-- The rows of `processed_event`, in whatever partition. -/
  processedEvent : List Orchestrator.ProcessedEvent := []
  /-- How many statements have been made. -/
  calls : ℕ := 0

/-- The row is in the range of the partition. -/
def Partition.holds (p : Partition) (row : Orchestrator.ProcessedEvent) : Bool :=
  decide (p.start ≤ row.processedAt ∧ row.processedAt < p.end)

namespace World

variable (s : World)

def hasRelation (name : String) : Bool := s.partitions.any (·.name = name)

/-- The partition would take rows of another one. -/
def overlaps (spec : PartitionSpec) : Bool :=
  s.partitions.any fun p => p.table = spec.table ∧ spec.start < p.end ∧ p.start < spec.end

/-- The partitions of the name are gone, and so are their rows of `processed_event`. -/
def dropTable (name : String) : World :=
  { s with
    partitions := s.partitions.filter (·.name ≠ name)
    processedEvent := s.processedEvent.filter fun row =>
      !s.partitions.any fun p => p.name = name && p.table = "processed_event" && p.holds row }

end World

/-- Which statements raise, and whether another session holds the lock. -/
structure Env where
  faults : ℕ → Cmd → Bool := fun _ _ => false
  locked : ℕ → Bool := fun _ => false

/-- What a statement does if it does not raise. -/
def Env.effect (env : Env) : (c : Cmd) → World → Except Exc (Ans c) × World
  | .tryLock _, s => (.ok (!env.locked s.calls), s)
  | .unlock _, s => (.ok (), s)
  | .insertSetting key value, s =>
    (.ok (), if key ∈ s.setting.map (·.1) then s
      else { s with setting := s.setting ++ [(key, .str value)] })
  | .selectSetting key, s => (.ok ((s.setting.find? (·.1 = key)).map (·.2)), s)
  | .now, s => (.ok s.now, s)
  | .relationExists name, s => (.ok (s.hasRelation name), s)
  | .createPartition spec, s =>
    if s.hasRelation spec.name then (.ok (), s)
    else if s.overlaps spec then (.error .callFailed, s)
    else (.ok (), { s with
      partitions := s.partitions ++ [⟨spec.table, spec.name, spec.start, spec.end⟩] })
  | .selectPartitions, s =>
    (.ok (((s.partitions.filter (·.table = "processed_event")).map (·.name)).insertionSort (· ≤ ·)),
      s)
  | .dropTable name, s => (.ok (), s.dropTable name)
  | .deleteProcessed cutoff, s =>
    (.ok (s.processedEvent.countP (·.processedAt < cutoff)),
      { s with processedEvent := s.processedEvent.filter fun row => !decide (row.processedAt < cutoff) })

/-- What the statements do. -/
def Env.run (env : Env) : Handler Cmd Ans Exc World := fun c s =>
  if env.faults s.calls c then (.error .callFailed, { s with calls := s.calls + 1 })
  else ((env.effect c s).1, { (env.effect c s).2 with calls := s.calls + 1 })

end Maintenance
end PersonalIntelligence
