import PersonalIntelligence.Tasks.Writers

/-!
# The status of a task and the time it was resolved

A task has a time of resolution exactly if it is not open: so write the extractor, which
closes tasks, and the projector, which only ever makes open ones.  The operator's statement
gives a time to the status `done` alone, and takes the time away from every other one.
Reopening a task is right then, but a task that is dropped by hand has no time, where one
that is dropped for its message has.  The columns agree in every state of a run exactly if
the operator drops no task in it (`timesAgree_iff`).
-/

namespace PersonalIntelligence
namespace Tasks

open PyText Resumption
open Memory (Db Task TaskStatus Draft)

/-- `resolved_at IS NULL` if and only if `status = 'open'`. -/
def TimeAgrees (row : Task) : Prop := row.resolvedAt = none ↔ row.status = .open

/-- The two columns agree in every row. -/
def TimesAgree (db : Db) : Prop := ∀ row ∈ db.task, TimeAgrees row

instance (row : Task) : Decidable (TimeAgrees row) :=
  inferInstanceAs (Decidable (_ ↔ _))

/-! ## One statement -/

section Statements

variable {now : Timestamp} {row : Task}

theorem timeAgrees_resolved (resolvedAt : Timestamp) : TimeAgrees (resolved resolvedAt now row) := by
  simp [TimeAgrees, resolved]

theorem timeAgrees_dropped : TimeAgrees (dropped now row) := by
  simp [TimeAgrees, dropped]

/-- The statement of the operator. -/
theorem timeAgrees_withStatus (status : TaskStatus) :
    TimeAgrees (withStatus status now row) ↔ status ≠ .dropped := by
  cases status <;> simp [TimeAgrees, withStatus]

/-- A row is inserted open, and without a time. -/
theorem timeAgrees_fresh (columns : Memory.TaskUpdate) (id chatId : Ident)
    (ref : Memory.SourceMessageRef) : TimeAgrees (columns.fresh now id chatId ref) := by
  simp [TimeAgrees, Memory.TaskUpdate.fresh]

/-- The loop of the projector touches neither column. -/
theorem timesAgree_syncTasks {t : Draft} {chatId : Ident} {command : ProjectionCommand}
    {ownerPersonId firstCounterpart : Option Ident} {tasks : List StructuredTask}
    (h : TimesAgree t.db) :
    TimesAgree (Draft.syncTasks now chatId command ownerPersonId firstCounterpart t tasks).2.db := by
  induction tasks generalizing t with
  | nil => exact h
  | cons task rest ih =>
    have hstep : TimesAgree
        (t.syncTask now chatId command ownerPersonId firstCounterpart task).2.db := by
      rcases t.syncTask_cases now chatId command ownerPersonId firstCounterpart task with
        ⟨found, -, -, hstep⟩ | hstep
      · rw [hstep]
        exact Table.forall_update h fun _ _ _ hrow => hrow
      · rw [hstep]
        intro row hrow
        rcases List.mem_append.mp hrow with hold | hnew
        · exact h row hold
        · rw [List.mem_singleton.mp hnew]
          exact timeAgrees_fresh _ _ _ _
    exact ih hstep

/-- No statement of the extractor breaks the agreement. -/
theorem timesAgree_effect (c : Cmd) {s : World} (h : TimesAgree s.db) :
    TimesAgree (s.effect c).2.db := by
  cases c with
  | resolveTask resolvedAt tgChatId tgMessageId =>
    exact Table.forall_update h fun _ _ _ _ => timeAgrees_resolved resolvedAt
  | dropTasks tgChatId tgMessageIds =>
    exact Table.forall_update h fun _ _ _ _ => timeAgrees_dropped
  | editTask taskId candidate => exact Table.forall_update h fun _ _ _ hrow => hrow
  | insertTask new =>
    intro row hrow
    rcases List.mem_append.mp hrow with hold | hnew
    · exact h row hold
    · rw [List.mem_singleton.mp hnew]
      simp [TimeAgrees, NewTask.fresh]
  | insertProcessed eventId =>
    intro row hrow
    refine h row ?_
    simp only [World.effect, World.setDb, World.db] at hrow
    rw [Db.insertProcessed_frame] at hrow
    exact hrow
  | _ => exact h

end Statements

/-! ## Runs -/

section Runs

variable [CharData] {w : Writers} {s : World}

/-- The operation drops a task by hand: the task is there, and the call does not raise. -/
def Writers.DropsByHand (w : Writers) (s : World) (op : Op × Timestamp) : Prop :=
  ∃ taskId ∈ s.db.task.map (·.id), op.1 = .updateStatus taskId "dropped" ∧
    w.adminFaults s.store.calls = false

/-- What is known of every state. -/
structure Timed (s : World) : Prop where
  agree : TimesAgree s.db
  closed : s.store.tx = none

/-- **One operation** keeps the agreement, unless it drops a task by hand. -/
theorem Timed.step (h : Timed s) (op : Op × Timestamp) (hop : ¬ w.DropsByHand s op) :
    Timed (w.step s op) := by
  obtain ⟨op, now⟩ := op
  cases op with
  | extract entry =>
    refine Env.deliver_invariant ?_ ?_ ?_ (entry, now) h
    · exact fun s now hs => ⟨hs.agree, hs.closed⟩
    · exact fun s hs => ⟨hs.agree, hs.closed⟩
    · exact fun c s _ hs => ⟨timesAgree_effect c hs.agree, by cases c <;> exact hs.closed⟩
  | project entry =>
    refine ⟨?_, closed_project h.closed entry now⟩
    intro row hrow
    rcases deliver_task_cases h.closed entry now with ⟨-, htask, -⟩ | ⟨-, htask, -⟩
    · rw [htask] at hrow
      refine timesAgree_syncTasks (fun old hold => ?_) row hrow
      rw [Draft.analysed_task, Memory.World.draft, Memory.World.tables_of_closed h.closed] at hold
      exact h.agree old hold
    · rw [htask] at hrow
      exact h.agree row hrow
  | updateStatus taskId status =>
    rcases updateStatus_cases (w := w) (s := s) taskId status now with
      ⟨parsed, hparse, hcall, hstep⟩ | ⟨-, hstep | hstep⟩
    · rw [hstep]
      refine ⟨fun row hrow => ?_, h.closed⟩
      obtain ⟨old, hold, rfl⟩ := Table.mem_update.mp hrow
      split_ifs with hid
      · rw [timeAgrees_withStatus]
        rintro rfl
        have hdropped : status = "dropped" := by
          unfold parseStatus at hparse
          split at hparse <;> simp_all
        have hmem : taskId ∈ s.db.task.map (·.id) := of_decide_eq_true hid ▸ List.mem_map_of_mem hold
        exact hop ⟨taskId, hmem, by rw [hdropped], hcall⟩
      · exact h.agree old hold
    · rw [hstep]
      exact ⟨h.agree, h.closed⟩
    · rw [hstep]
      exact ⟨h.agree, h.closed⟩

/-- A task that is dropped by hand has no time. -/
theorem not_timesAgree_step (op : Op × Timestamp) (hop : w.DropsByHand s op) :
    ¬ TimesAgree (w.step s op).db := by
  obtain ⟨op, now⟩ := op
  obtain ⟨taskId, hmem, rfl, hcall⟩ := hop
  obtain ⟨row, hrow, rfl⟩ := List.mem_map.mp hmem
  rcases updateStatus_cases (w := w) (s := s) row.id "dropped" now with
    ⟨parsed, hparse, -, hstep⟩ | ⟨hnone | hfault, -⟩
  · obtain rfl := Option.some.inj hparse
    rw [hstep]
    intro hagree
    have hdropped : withStatus .dropped now row ∈
        (((s.at now).setDb (setTaskStatus s.db now row.id .dropped)).tick).db.task :=
      Table.mem_update.mpr ⟨row, hrow, if_pos (decide_eq_true rfl)⟩
    exact (timeAgrees_withStatus .dropped).mp (hagree _ hdropped) rfl
  · cases hnone
  · rw [hcall] at hfault
    cases hfault

/-- **The status and the time of resolution agree** in every state of a run, exactly if no
operation of it drops a task by hand. -/
theorem timesAgree_iff (w : Writers) (store : Memory.World) (ops : List (Op × Timestamp)) :
    (∀ handled, handled <+: ops →
        TimesAgree (handled.foldl w.step (World.withoutTasks store)).db) ↔
      Runs.Meets w.step (fun s op => ¬ w.DropsByHand s op) (World.withoutTasks store) ops := by
  have hstart : Timed (World.withoutTasks store) := ⟨fun row hrow => (by cases hrow), rfl⟩
  refine Runs.forall_prefix_iff_meets (fun s hs => hs.agree) (fun s op hs => hs.step op) ?_ ops hstart
  exact fun s op _ hagree hdrops => not_timesAgree_step op hdrops hagree

end Runs

/-- A promise in chat 7, and the operator who drops the task it became. -/
def withdrawnPromise : List (Op × Timestamp) :=
  [(.extract ⟨1, .message
      { eventId := 1, occurredAt := 60, tgChatId := 7, tgMessageId := 1, tgSenderId := some 11
        text := some "сделаю отчёт" }⟩, 61),
    (.updateStatus 2 "dropped", 70)]

/-- The task that was dropped by hand was never resolved. -/
theorem not_timesAgree_withdrawnPromise :
    ¬ ∀ handled, handled <+: withdrawnPromise → TimesAgree (handled.foldl
      (@Writers.step {} basicCharData) (World.withoutTasks {})).db := by
  intro h
  have hrow : ∃ row ∈ (withdrawnPromise.foldl (@Writers.step {} basicCharData)
      (World.withoutTasks {})).db.task, ¬ TimeAgrees row := by decide +kernel
  obtain ⟨row, hmem, hrow⟩ := hrow
  exact hrow (h _ (List.prefix_refl _) row hmem)

end Tasks
end PersonalIntelligence
