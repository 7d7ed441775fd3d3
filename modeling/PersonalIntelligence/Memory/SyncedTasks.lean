import PersonalIntelligence.Memory.ProjectedTables

/-!
# One task for each source message

A task of a result is stored in the row of its first evidence message, which is looked up
or inserted.  The loop sees the rows that it has inserted, so two tasks of one result with
the same first evidence may come to be one row, and the later one is what the row holds.

Each step of the loop writes one row, and that row is of the source of its task
(`Draft.source_of_syncTask`).  So a task is in the row whose id is returned for it unless a
later task has the same source (`exec_syncTasks_synchronised`).
-/

namespace PersonalIntelligence
namespace Memory

open PyText Resumption

/-- A row of the task table is of a message of the chat. -/
def Task.OfSource (chatId : Ident) (evidenceMessageId : ℤ) (row : Task) : Prop :=
  row.chatId = some chatId ∧ row.sourceMessageRef.tgMessageId = evidenceMessageId

/-- A row holds a task of the result, with its confidence as `numeric(4, 3)` has it. -/
def Task.Holds (task : StructuredTask) (row : Task) : Prop :=
  row.title = task.title ∧ row.priority = task.priority ∧ row.confidence = numeric3 task.confidence

/-- What is in the task table once the tasks of a result have been synchronised. -/
structure Synchronised (chatId : Ident) (tasks : List StructuredTask) (ids : List Ident)
    (before after : List Task) : Prop where
  keys : (after.map (·.id)).Nodup
  /-- Every task has a row, of its source message. -/
  rows : List.Forall₂ (fun task id => ∃ row ∈ after, row.id = id ∧
    row.OfSource chatId (evidenceId task)) tasks ids
  /-- Tasks of different messages have different rows. -/
  distinct : (tasks.zip ids).Pairwise fun x y => evidenceId x.1 ≠ evidenceId y.1 → x.2 ≠ y.2
  /-- The row of a task holds it, if no later task is of the same message. -/
  stored : ∀ earlier task later, tasks = earlier ++ task :: later →
    (∀ other ∈ later, evidenceId other ≠ evidenceId task) →
    ∃ id, ids[earlier.length]? = some id ∧ ∃ row ∈ after, row.id = id ∧ row.Holds task
  unchanged : ∀ row ∈ before, (∀ task ∈ tasks, ¬ row.OfSource chatId (evidenceId task)) →
    row ∈ after

namespace Draft

section Step

variable {t : Draft} {now : Timestamp} {chatId : Ident} {command : ProjectionCommand}
  {ownerPersonId firstCounterpart : Option Ident} {task : StructuredTask} {row : Task} {id : Ident}

variable (t now chatId command ownerPersonId firstCounterpart task) in
/-- **What a step of the loop does**: it updates a row of the source, or inserts one. -/
theorem syncTask_cases :
    (∃ row ∈ t.db.task, row.OfSource chatId (evidenceId task) ∧
      t.syncTask now chatId command ownerPersonId firstCounterpart task = (row.id,
        ⟨t.db.updateTask now row.id (taskColumns ownerPersonId firstCounterpart task), t.drawn⟩)) ∨
    t.syncTask now chatId command ownerPersonId firstCounterpart task = (t.drawn,
      ⟨t.db.insertTask ((taskColumns ownerPersonId firstCounterpart task).fresh now t.drawn chatId
        ⟨command.tgChatId, evidenceId task, command.sourceWindowId⟩), t.drawn + 1⟩) := by
  unfold syncTask
  cases hfind : t.db.findTask chatId (evidenceId task) with
  | some existingId =>
    obtain ⟨row, hfirst, rfl⟩ := Option.map_eq_some_iff.mp hfind
    obtain ⟨hrow, hsource⟩ := List.mem_filter.mp (Table.mem_of_first hfirst)
    have hof := of_decide_eq_true hsource
    exact .inl ⟨row, hrow, hof, rfl⟩
  | none => exact .inr rfl

/-- The identifiers stay apart. -/
theorem drawn_syncTask (h : Drawn (t.db.task.map Task.id) t.drawn) :
    Drawn ((t.syncTask now chatId command ownerPersonId firstCounterpart task).2.db.task.map Task.id)
      (t.syncTask now chatId command ownerPersonId firstCounterpart task).2.drawn := by
  rcases t.syncTask_cases now chatId command ownerPersonId firstCounterpart task with
    ⟨row, -, -, hstep⟩ | hstep
  · have hids : (t.db.updateTask now row.id
        (taskColumns ownerPersonId firstCounterpart task)).task.map Task.id = t.db.task.map Task.id :=
      Table.map_update fun _ => rfl
    rw [hstep, hids]
    exact h
  · rw [hstep, Db.insertTask, List.map_append, List.map_singleton]
    exact h.append

variable (t now chatId command ownerPersonId firstCounterpart task) in
/-- **The row of a task**, after its step. -/
theorem holds_syncTask :
    ∃ row ∈ (t.syncTask now chatId command ownerPersonId firstCounterpart task).2.db.task,
      row.id = (t.syncTask now chatId command ownerPersonId firstCounterpart task).1 ∧
      row.OfSource chatId (evidenceId task) ∧ row.Holds task := by
  rcases t.syncTask_cases now chatId command ownerPersonId firstCounterpart task with
    ⟨row, hrow, hsource, hstep⟩ | hstep
  · rw [hstep]
    refine ⟨_, Table.mem_update.mpr ⟨row, hrow, if_pos (decide_eq_true rfl)⟩, rfl, hsource, ?_⟩
    exact ⟨rfl, rfl, rfl⟩
  · rw [hstep]
    refine ⟨_, List.mem_append_right _ (List.mem_singleton_self _), rfl, ⟨rfl, rfl⟩, ?_⟩
    exact ⟨rfl, rfl, rfl⟩

/-- The row that a step writes over was of the source. -/
theorem source_of_syncTask (hids : Drawn (t.db.task.map Task.id) t.drawn) (hrow : row ∈ t.db.task)
    (h : row.id = (t.syncTask now chatId command ownerPersonId firstCounterpart task).1) :
    row.OfSource chatId (evidenceId task) := by
  rcases t.syncTask_cases now chatId command ownerPersonId firstCounterpart task with
    ⟨found, hfound, hsource, hstep⟩ | hstep
  · rw [hstep] at h
    rw [List.inj_on_of_nodup_map hids.nodup hrow hfound h]
    exact hsource
  · rw [hstep] at h
    have hmem : row.id ∈ t.db.task.map Task.id := List.mem_map_of_mem hrow
    rw [h] at hmem
    exact absurd hmem hids.not_mem

/-- The other rows stay. -/
theorem mem_syncTask_of_ne (hrow : row ∈ t.db.task)
    (h : row.id ≠ (t.syncTask now chatId command ownerPersonId firstCounterpart task).1) :
    row ∈ (t.syncTask now chatId command ownerPersonId firstCounterpart task).2.db.task := by
  rcases t.syncTask_cases now chatId command ownerPersonId firstCounterpart task with
    ⟨found, -, -, hstep⟩ | hstep
  · rw [hstep] at h ⊢
    exact Table.mem_update.mpr ⟨row, hrow, if_neg fun hid => h (of_decide_eq_true hid)⟩
  · rw [hstep]
    exact List.mem_append_left _ hrow

/-- A row keeps its id and its source. -/
theorem ofSource_syncTask {evidenceMessageId : ℤ}
    (h : ∃ row ∈ t.db.task, row.id = id ∧ row.OfSource chatId evidenceMessageId) :
    ∃ row ∈ (t.syncTask now chatId command ownerPersonId firstCounterpart task).2.db.task,
      row.id = id ∧ row.OfSource chatId evidenceMessageId := by
  obtain ⟨row, hrow, rfl, hsource⟩ := h
  rcases t.syncTask_cases now chatId command ownerPersonId firstCounterpart task with
    ⟨found, -, -, hstep⟩ | hstep
  · rw [hstep]
    refine ⟨_, Table.mem_update.mpr ⟨row, hrow, rfl⟩, ?_, ?_⟩
    · split_ifs <;> rfl
    · split_ifs
      · exact hsource
      · exact hsource
  · rw [hstep]
    exact ⟨row, List.mem_append_left _ hrow, rfl, hsource⟩

end Step

section Loop

variable {t : Draft} {now : Timestamp} {chatId : Ident} {command : ProjectionCommand}
  {ownerPersonId firstCounterpart : Option Ident} {tasks : List StructuredTask}

theorem drawn_syncTasks (h : Drawn (t.db.task.map Task.id) t.drawn) :
    Drawn ((syncTasks now chatId command ownerPersonId firstCounterpart t tasks).2.db.task.map Task.id)
      (syncTasks now chatId command ownerPersonId firstCounterpart t tasks).2.drawn := by
  induction tasks generalizing t with
  | nil => exact h
  | cons task rest ih => exact ih (drawn_syncTask h)

/-- The rows of other sources stay. -/
theorem mem_syncTasks {row : Task} (hids : Drawn (t.db.task.map Task.id) t.drawn)
    (hrow : row ∈ t.db.task) (h : ∀ task ∈ tasks, ¬ row.OfSource chatId (evidenceId task)) :
    row ∈ (syncTasks now chatId command ownerPersonId firstCounterpart t tasks).2.db.task := by
  induction tasks generalizing t with
  | nil => exact hrow
  | cons task rest ih =>
    refine ih (drawn_syncTask hids) ?_ fun other hother => h other (List.mem_cons_of_mem _ hother)
    exact mem_syncTask_of_ne hrow fun hid =>
      h task List.mem_cons_self (source_of_syncTask hids hrow hid)

theorem ofSource_syncTasks {id : Ident} {evidenceMessageId : ℤ}
    (h : ∃ row ∈ t.db.task, row.id = id ∧ row.OfSource chatId evidenceMessageId) :
    ∃ row ∈ (syncTasks now chatId command ownerPersonId firstCounterpart t tasks).2.db.task,
      row.id = id ∧ row.OfSource chatId evidenceMessageId := by
  induction tasks generalizing t with
  | nil => exact h
  | cons task rest ih => exact ih (ofSource_syncTask h)

variable (t now chatId command ownerPersonId firstCounterpart tasks) in
/-- Every task has its row at the end. -/
theorem rows_syncTasks : List.Forall₂ (fun task id =>
      ∃ row ∈ (syncTasks now chatId command ownerPersonId firstCounterpart t tasks).2.db.task,
        row.id = id ∧ row.OfSource chatId (evidenceId task)) tasks
    (syncTasks now chatId command ownerPersonId firstCounterpart t tasks).1 := by
  induction tasks generalizing t with
  | nil => exact .nil
  | cons task rest ih =>
    obtain ⟨row, hrow, hid, hsource, -⟩ :=
      t.holds_syncTask now chatId command ownerPersonId firstCounterpart task
    set t' := (t.syncTask now chatId command ownerPersonId firstCounterpart task).2
    have hrest := @ofSource_syncTasks t' now chatId command ownerPersonId firstCounterpart rest _ _
      ⟨row, hrow, hid, hsource⟩
    exact .cons hrest (ih t')

/-- A task holds its row from its step on, if no later task is of the same message. -/
theorem stored_syncTasks (hids : Drawn (t.db.task.map Task.id) t.drawn)
    {earlier : List StructuredTask} {task : StructuredTask} {later : List StructuredTask}
    (hlater : ∀ other ∈ later, evidenceId other ≠ evidenceId task) :
    ∃ id, (syncTasks now chatId command ownerPersonId firstCounterpart t
        (earlier ++ task :: later)).1[earlier.length]? = some id ∧
      ∃ row ∈ (syncTasks now chatId command ownerPersonId firstCounterpart t
        (earlier ++ task :: later)).2.db.task, row.id = id ∧ row.Holds task := by
  induction earlier generalizing t with
  | nil =>
    obtain ⟨row, hrow, hid, hsource, hholds⟩ :=
      t.holds_syncTask now chatId command ownerPersonId firstCounterpart task
    have hrest : ∀ other ∈ later, ¬ row.OfSource chatId (evidenceId other) :=
      fun other hother hother' => hlater other hother (hother'.2.symm.trans hsource.2)
    have hkept := @mem_syncTasks _ now chatId command ownerPersonId firstCounterpart later row
      (drawn_syncTask hids) hrow hrest
    exact ⟨_, rfl, row, hkept, hid, hholds⟩
  | cons first rest ih => exact ih (drawn_syncTask hids)

variable (t now chatId command ownerPersonId firstCounterpart tasks) in
/-- The loop takes its steps one after the other. -/
theorem syncTasks_eq_foldl :
    (syncTasks now chatId command ownerPersonId firstCounterpart t tasks).2 = tasks.foldl
      (fun t task => (t.syncTask now chatId command ownerPersonId firstCounterpart task).2) t := by
  induction tasks generalizing t with
  | nil => rfl
  | cons task rest ih => exact ih _

end Loop

variable [CharData] (settings : Settings) (now : Timestamp) (command : ProjectionCommand) (t : Draft)

/-- The tasks of a projection, synchronised. -/
def synced : List Ident × Draft :=
  syncTasks now (t.db.chatId command.tgChatId t.drawn) command
    (t.analysed settings now command).selectOwner
    ((t.participantsOf settings now command).head?.map (·.2))
    ⟨t.analysed settings now command, (t.enrolled settings now command).drawn⟩
    command.result.tasks

/-- **The task table after a projection** is the one its loop leaves. -/
theorem project_task : (t.project settings now command).2.db.task =
    (t.synced settings now command).2.db.task := by
  unfold project
  dsimp only
  rw [Db.insertProcessed_frame]
  have hfiled := upsertInteraction_frame now (t.db.chatId command.tgChatId t.drawn)
    (t.synced settings now command).2 (windowStart command) (interactionColumns settings
      ((t.participantsOf settings now command).map (·.2)) (t.synced settings now command).1 command)
  exact (congrArg Db.task hfiled).trans rfl

/-- The loop begins with the table as it was. -/
theorem analysed_task : (t.analysed settings now command).task = t.db.task := by
  rw [analysed, Db.replaceSignals_eq, Db.replaceFacts_eq]
  exact (congrArg Db.task (t.enrolled_frame settings now command)).trans rfl

/-- Nothing draws an identifier after the loop but the filing. -/
theorem drawn_synced_le : (t.synced settings now command).2.drawn ≤
    (t.project settings now command).2.drawn :=
  le_drawn_upsertInteraction now _ (t.synced settings now command).2 _ _

theorem le_drawn_enrolled : t.drawn ≤ (t.enrolled settings now command).drawn :=
  (Nat.le_succ _).trans (le_drawn_enrolAll _ _ (t.upsertChat command) _)

end Draft

/-! ## The function -/

/-- **Synchronising tasks** stores them, one row for each source message. -/
theorem exec_syncTasks_synchronised {env : Env} {s s' : World} {chatId : Ident}
    {participantMap : ParticipantMap} {command : ProjectionCommand} {ids : List Ident}
    (hids : Drawn (s.tables.task.map Task.id) s.drawn)
    (h : exec env.run (syncTasks chatId participantMap command) s = (.ok ids, s')) :
    Synchronised chatId command.result.tasks ids s.tables.task s'.tables.task := by
  obtain ⟨rfl, hwrote⟩ := exec_syncTasks_ok h
  have htables : s'.tables = (Draft.syncTasks s.now chatId command s.draft.db.selectOwner
      (participantMap.head?.map (·.2)) s.draft command.result.tasks).2.db :=
    congrArg Draft.db hwrote.draft
  have hdrawn : Drawn (s.draft.db.task.map Task.id) s.draft.drawn := hids
  have hkeys := @Draft.drawn_syncTasks s.draft s.now chatId command s.draft.db.selectOwner
    (participantMap.head?.map (·.2)) command.result.tasks hdrawn
  have hrows := s.draft.rows_syncTasks s.now chatId command s.draft.db.selectOwner
    (participantMap.head?.map (·.2)) command.result.tasks
  rw [htables]
  refine ⟨hkeys.nodup, hrows, ?_, fun earlier task later htasks hlater => ?_,
    fun row hrow hsource => Draft.mem_syncTasks hdrawn hrow hsource⟩
  · refine Table.pairwise_zip_of_forall₂ hrows fun task id task' id' hrow hrow' hne hid => hne ?_
    obtain ⟨row, hmem, rfl, hsource⟩ := hrow
    obtain ⟨row', hmem', rfl, hsource'⟩ := hrow'
    rw [List.inj_on_of_nodup_map hkeys.nodup hmem hmem' hid] at hsource
    exact hsource.2.symm.trans hsource'.2
  · rw [htasks]
    exact Draft.stored_syncTasks hdrawn hlater

/-- Two tasks of one message. -/
def errands : ProjectionCommand :=
  { greeting.command with
    result :=
      { sourceWindowId := 201
        summary := "поручения"
        tasks := [{ title := "купить хлеб", confidence := 1 / 2, evidenceMessageIds := [1] },
          { title := "позвонить", confidence := 3 / 4, evidenceMessageIds := [1] }] } }

theorem exec_syncTasks_errands :
    ∃ ids s', exec ({} : Env).run (syncTasks 5 [] errands) {} = (.ok ids, s') ∧
      Synchronised 5 errands.result.tasks ids [] s'.tables.task := by
  obtain ⟨ids, h⟩ : ∃ ids, (exec ({} : Env).run (syncTasks 5 [] errands) {}).1 = .ok ids :=
    ⟨[0, 0], by decide⟩
  have hids : Drawn (({} : World).tables.task.map Task.id) ({} : World).drawn := Drawn.empty
  exact ⟨ids, _, Prod.ext h rfl, exec_syncTasks_synchronised hids (Prod.ext h rfl)⟩

/-- They share a row, which is the second one's. -/
theorem not_nodup_errands :
    ∃ s', exec ({} : Env).run (syncTasks 5 [] errands) {} = (.ok [0, 0], s') ∧
      ∀ row ∈ s'.tables.task, row.title ≠ "купить хлеб" :=
  ⟨_, Prod.ext (by decide) rfl, by decide⟩

end Memory
end PersonalIntelligence
