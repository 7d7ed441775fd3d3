import PersonalIntelligence.Library.Runs
import PersonalIntelligence.Maintenance.Jobs
import PersonalIntelligence.Orchestrator.Redelivery
import PersonalIntelligence.Orchestrator.WindowPartition

/-!
# Retention of the processed marks

The stream of Telegram messages is never trimmed, and a backfill replays all of it.  The
rows of `processed_event` that tell a replayed entry from a new one are removed after the
retention period.  So an entry that is replayed later than that is handled again.

The system here has the stream, the consumer and the maintenance job.  An entry is
handled when the consumer reads it and whenever a backfill replays it; a backfill is a
sequence of replays and flushes (`exec_runBackfill`).  As long as no handled entry
`Repeats` a message, the message of every entry is emitted at most once
(`emissions_stream_le_one`).
-/

namespace PersonalIntelligence
namespace Maintenance

open PyText Resumption

/-- The stream, the consumer of its entries, and the other tables of the job. -/
structure System where
  /-- `STREAM_TELEGRAM_MESSAGE`: entries are only appended. -/
  stream : List TelegramMessageEvent := []
  consumer : Orchestrator.World := {}
  /-- How many entries the consumer has been given. -/
  read : ℕ := 0
  setting : List (String × SettingValue) := []
  partitions : List Partition := []
  /-- How many statements the job has made. -/
  calls : ℕ := 0

/-- What happens next. -/
inductive Step where
  | xadd (event : TelegramMessageEvent)
  /-- The consumer reads an entry and handles it. -/
  | consume (now : Timestamp)
  /-- A backfill handles the entry with the index. -/
  | replay (index : ℕ) (now : Timestamp)
  /-- A backfill flushes a residual window. -/
  | flush (request : Orchestrator.FlushRequest) (now : Timestamp)
  /-- `run_maintenance`. -/
  | maintain (defaults : Defaults) (now : Timestamp)
  deriving DecidableEq, Repr

/-- What is around the services. -/
structure Surroundings where
  consumer : Orchestrator.Env
  settings : Orchestrator.Settings := {}
  maintenance : Env := {}

namespace System

/-- The database of the maintenance job. -/
def database (y : System) (now : Timestamp) : World where
  now
  setting := y.setting
  partitions := y.partitions
  processedEvent := y.consumer.processedEvent
  calls := y.calls

variable [CharData] (env : Surroundings)

/-- The entry goes through `_handle_message`. -/
def handle (y : System) (event : TelegramMessageEvent) (now : Timestamp) : System :=
  { y with consumer := env.consumer.deliver env.settings (y.consumer.at now) event }

omit [CharData] in
/-- The job has run. -/
def maintained (y : System) (defaults : Defaults) (now : Timestamp) : System :=
  let after := (exec env.maintenance.run (runMaintenance defaults) (y.database now)).2
  { y with
    consumer := { y.consumer with processedEvent := after.processedEvent }
    setting := after.setting
    partitions := after.partitions
    calls := after.calls }

def step (y : System) : Step → System
  | .xadd event => { y with stream := y.stream ++ [event] }
  | .consume now =>
    match y.stream[y.read]? with
    | some event => { y.handle env event now with read := y.read + 1 }
    | none => y
  | .replay index now =>
    match y.stream[index]? with
    | some event => y.handle env event now
    | none => y
  | .flush request now =>
    { y with
      consumer := (exec env.consumer.run (Orchestrator.flushWindow request) (y.consumer.at now)).2 }
  | .maintain defaults now => y.maintained env defaults now

/-- The entry that is handled does not repeat a message. -/
def NoRepeat (y : System) : Step → Prop
  | .consume now => ∀ event ∈ y.stream[y.read]?,
    ¬ env.consumer.Repeats env.settings (y.consumer.at now) event
  | .replay index now => ∀ event ∈ y.stream[index]?,
    ¬ env.consumer.Repeats env.settings (y.consumer.at now) event
  | _ => True

section Steps

variable {env} {y : System}

theorem once_handle (hcalm : ∀ n c, env.consumer.faults n c = false) (h : y.consumer.Once)
    {event : TelegramMessageEvent} {now : Timestamp}
    (hnot : ¬ env.consumer.Repeats env.settings (y.consumer.at now) event) :
    (y.handle env event now).consumer.Once := by
  have hat : (y.consumer.at now).Once := h.congr rfl rfl
  simp only [handle]
  exact hat.deliver hcalm env.settings hnot

/-- **One step.**  Maintenance takes rows away, and the invariant is about the windows and
the commands. -/
theorem once_step (hcalm : ∀ n c, env.consumer.faults n c = false) (y : System) (x : Step)
    (h : y.consumer.Once) (hx : y.NoRepeat env x) : (y.step env x).consumer.Once := by
  cases x with
  | xadd event => exact h
  | consume now =>
    cases hnext : y.stream[y.read]? with
    | none =>
      simp only [step, hnext]
      exact h
    | some event =>
      have honce := once_handle hcalm h (hx event hnext)
      simp only [step, hnext]
      exact honce
  | replay index now =>
    cases hnext : y.stream[index]? with
    | none =>
      simp only [step, hnext]
      exact h
    | some event =>
      have honce := once_handle hcalm h (hx event hnext)
      simp only [step, hnext]
      exact honce
  | flush request now =>
    have hat : (y.consumer.at now).Once := h.congr rfl rfl
    exact hat.flushWindow hcalm request
  | maintain defaults now => exact h.congr rfl rfl

end Steps

end System

/-- **Replays after maintenance.**  In a run whose analyses succeed, the message of every
stream entry is in at most one command, provided that no handled entry repeats a message:
an entry without its row in `processed_event` whose message has been emitted already, or is
emitted to make room for it. -/
theorem emissions_stream_le_one [CharData] (env : Surroundings)
    (hcalm : ∀ n c, env.consumer.faults n c = false) (steps : List Step)
    (hsteps : Runs.Meets (System.step env) (System.NoRepeat env) {} steps) :
    ∀ handled, handled <+: steps →
      ∀ event ∈ (handled.foldl (System.step env) {}).stream,
        (handled.foldl (System.step env) {}).consumer.emissions event.tgChatId
          event.tgMessageId ≤ 1 := by
  intro handled hprefix event _
  have honce := hsteps.forall_prefix (I := fun y => y.consumer.Once) (System.once_step hcalm)
    Orchestrator.World.once_start handled hprefix
  exact honce.emitted _ _

/-! ## A backfill is a sequence of steps -/

section Backfill

variable [CharData] (env : Surroundings) (now : Timestamp)

/-- The steps of a backfill. -/
def Step.OfBackfill (now : Timestamp) : Step → Prop
  | .replay _ t | .flush _ t => t = now
  | _ => False

variable {now} in
omit [CharData] in
theorem at_of_now_eq {s : Orchestrator.World} (h : s.now = now) : s.at now = s := by
  subst h
  rfl

/-- Entries of the stream, handled one after the other. -/
theorem exists_replays (events : List TelegramMessageEvent) (y : System)
    (hsub : events ⊆ y.stream) : ∃ steps : List Step, (∀ x ∈ steps, x.OfBackfill now) ∧
      (steps.foldl (System.step env) y).stream = y.stream ∧
      (steps.foldl (System.step env) y).consumer.at now =
        env.consumer.deliverAll env.settings (y.consumer.at now) events := by
  induction events generalizing y with
  | nil => exact ⟨[], by simp, rfl, rfl⟩
  | cons event rest ih =>
    obtain ⟨hevent, hrest⟩ := List.cons_subset.mp hsub
    obtain ⟨index, hindex⟩ := List.mem_iff_getElem?.mp hevent
    obtain ⟨s', hs'⟩ : ∃ s', s' = env.consumer.deliver env.settings (y.consumer.at now) event :=
      ⟨_, rfl⟩
    have hstep : y.step env (.replay index now) = { y with consumer := s' } := by
      simp only [System.step, hindex, System.handle, hs']
    have hnow : s'.at now = s' := by
      refine at_of_now_eq ?_
      rw [hs', Orchestrator.Env.now_deliver]
      rfl
    obtain ⟨steps, hsteps, hstream, hconsumer⟩ := ih { y with consumer := s' } hrest
    refine ⟨.replay index now :: steps, ?_, ?_, ?_⟩
    · intro x hx
      rcases List.mem_cons.mp hx with rfl | hx
      · rfl
      · exact hsteps x hx
    · rw [List.foldl_cons, hstep, hstream]
    · rw [List.foldl_cons, hstep, hconsumer, Orchestrator.Env.deliverAll_cons, ← hs', hnow]

/-- Residual windows, flushed one after the other. -/
theorem exists_flushes : ∀ (seen : Orchestrator.LastSeen) (counts : ℕ × ℕ) (y : System),
    ∃ steps : List Step, (∀ x ∈ steps, x.OfBackfill now) ∧
      (steps.foldl (System.step env) y).stream = y.stream ∧
      (steps.foldl (System.step env) y).consumer.at now =
        (exec env.consumer.run (Orchestrator.flushResidualWindows seen counts)
          (y.consumer.at now)).2
  | [], counts, y => ⟨[], by simp, rfl, rfl⟩
  | (tgChatId, lastEvent) :: rest, counts, y => by
    rw [Orchestrator.flushResidualWindows, Orchestrator.loadWindowMessages, Orchestrator.await,
      exec_perform_bind, Orchestrator.Env.run_lrange, andThen_ok]
    split_ifs with hnil
    · exact exists_flushes rest counts y
    · obtain ⟨request, hrequest⟩ : ∃ r, r = Orchestrator.residualRequest tgChatId lastEvent :=
        ⟨_, rfl⟩
      obtain ⟨s', hs'⟩ : ∃ s', s' = (exec env.consumer.run (Orchestrator.flushWindow request)
        (y.consumer.at now)).2 := ⟨_, rfl⟩
      have hnow : s'.at now = s' := by
        refine at_of_now_eq ?_
        rw [hs', Orchestrator.now_exec]
        rfl
      -- whether the flush raises or not, the loop goes on where it has stopped
      obtain ⟨counts', hcounts⟩ : ∃ counts', (exec env.consumer.run
          (tryCatch
            (do
              Orchestrator.flushWindow request
              pure (counts.1 + 1, counts.2))
            fun _ => pure (counts.1, counts.2 + 1)) (y.consumer.at now)) = (.ok counts', s') := by
        rw [exec_tryCatch, exec_bind, hs']
        rcases exec env.consumer.run (Orchestrator.flushWindow request) (y.consumer.at now) with
          ⟨_ | _, _⟩
        · exact ⟨_, rfl⟩
        · exact ⟨_, rfl⟩
      rw [← hrequest, exec_bind, hcounts, andThen_ok]
      obtain ⟨steps, hsteps, hstream, hconsumer⟩ :=
        exists_flushes rest counts' { y with consumer := s' }
      have hstep : y.step env (.flush request now) = { y with consumer := s' } := by
        simp only [System.step, hs']
      refine ⟨.flush request now :: steps, ?_, ?_, ?_⟩
      · intro x hx
        rcases List.mem_cons.mp hx with rfl | hx
        · rfl
        · exact hsteps x hx
      · rw [List.foldl_cons, hstep, hstream]
      · rw [List.foldl_cons, hstep, hconsumer]
        simp only [hnow]

/-- **A backfill** is a sequence of replays and flushes. -/
theorem exec_runBackfill (args : Orchestrator.BackfillArgs) (hrun : args.dryRun = false)
    (y : System) : ∃ steps : List Step, (∀ x ∈ steps, x.OfBackfill now) ∧
      (steps.foldl (System.step env) y).stream = y.stream ∧
      (steps.foldl (System.step env) y).consumer.at now =
        (exec env.consumer.run (Orchestrator.runBackfill env.settings args y.stream)
          (y.consumer.at now)).2 := by
  obtain ⟨stats, seen, hreplay, -⟩ := Orchestrator.exec_replayEvents env.consumer env.settings hrun
    (Orchestrator.iterEvents args.maxEvents y.stream) {} [] (y.consumer.at now)
  have hselected : (Orchestrator.iterEvents args.maxEvents y.stream).filter args.replays ⊆
      y.stream := by
    intro event hevent
    have hiter := (List.mem_filter.mp hevent).1
    unfold Orchestrator.iterEvents at hiter
    split_ifs at hiter
    · exact List.mem_of_mem_take hiter
    · exact hiter
  obtain ⟨replays, hreplays, hstream, hconsumer⟩ := exists_replays env now _ y hselected
  obtain ⟨flushes, hflushes, hstream', hconsumer'⟩ := exists_flushes env now seen (0, 0)
    (replays.foldl (System.step env) y)
  refine ⟨replays ++ flushes, ?_, ?_, ?_⟩
  · intro x hx
    rcases List.mem_append.mp hx with hx | hx
    · exact hreplays x hx
    · exact hflushes x hx
  · rw [List.foldl_append, hstream', hstream]
  · rw [List.foldl_append, hconsumer', hconsumer, Orchestrator.runBackfill, exec_bind, hreplay,
      andThen_ok]
    dsimp only
    rw [if_neg (by simp [hrun]), exec_bind]
    rcases exec env.consumer.run (Orchestrator.flushResidualWindows seen (0, 0))
      (env.consumer.deliverAll env.settings (y.consumer.at now)
        ((Orchestrator.iterEvents args.maxEvents y.stream).filter args.replays)) with ⟨_ | _, _⟩
    · rfl
    · rfl

end Backfill

/-- One entry. -/
def hello : TelegramMessageEvent :=
  { eventId := 1, occurredAt := 0, tgChatId := 7, tgMessageId := 1, text := some "hello" }

/-- A router with one answer, and windows of one message. -/
def singly : Surroundings where
  consumer := Orchestrator.calmEnv
  settings := { analysisWindowSize := 1 }

/-- A day of 1970. -/
def day (n : ℤ) : Timestamp := n * Calendar.dayLength

/-- The entry is consumed, and replayed within the retention period. -/
theorem emissions_stream_le_one_hello :
    let _ := basicCharData
    ∀ handled, handled <+:
        [Step.maintain {} 0, .xadd hello, .consume (day 1), .maintain {} (day 20),
          .replay 0 (day 20)] →
      ∀ event ∈ (handled.foldl (System.step singly) {}).stream,
        (handled.foldl (System.step singly) {}).consumer.emissions event.tgChatId
          event.tgMessageId ≤ 1 := by
  let _ := basicCharData
  refine emissions_stream_le_one singly (fun _ _ => rfl) _ ⟨trivial, trivial, ?_, trivial, ?_,
    trivial⟩
  · intro event hevent
    obtain rfl := Option.some.inj hevent
    decide
  · intro event hevent
    obtain rfl := Option.some.inj hevent
    decide

/-- The entry is replayed once its row has been removed. -/
theorem not_emissions_stream_le_one_hello :
    let _ := basicCharData
    ¬ ∀ handled, handled <+:
        [Step.maintain {} 0, .xadd hello, .consume (day 1), .maintain {} (day 100),
          .replay 0 (day 100)] →
      ∀ event ∈ (handled.foldl (System.step singly) {}).stream,
        (handled.foldl (System.step singly) {}).consumer.emissions event.tgChatId
          event.tgMessageId ≤ 1 := by
  intro _ h
  have htwice := h _ List.prefix_rfl hello (by decide)
  revert htwice
  decide +kernel

end Maintenance
end PersonalIntelligence
