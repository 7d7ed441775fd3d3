import PersonalIntelligence.Library.Contract
import PersonalIntelligence.Library.Runs
import PersonalIntelligence.Memory.SyncedTasks
import PersonalIntelligence.Tasks.Extractor

/-!
# The writers of the task table

Three services write tasks: the task extractor, the memory projector, which synchronises
the tasks of a window, and the operator's `update_task_status`.  They share nothing but the
tables.  A run is a sequence of their operations, and each operation runs to its end.

What a run can make of the task table is put into three rules, one for each service.  The
extractor keeps what the effects of its commands keep (`Env.deliver_invariant`), a projection
leaves the task table alone or commits its loop (`deliver_task_cases`), and the operator
rewrites one row or nothing (`updateStatus_cases`).
-/

namespace PersonalIntelligence
namespace Tasks

open PyText Resumption
open Memory (Db Task TaskStatus Draft Drawn)

/-! ## `update_task_status` -/

/-- The call of `update_task_status`. -/
inductive AdminCmd where
  | setTaskStatus (taskId : Ident) (status : TaskStatus)
  deriving DecidableEq, Repr

/-- The row count of the status line. -/
abbrev AdminAns : AdminCmd → Type
  | .setTaskStatus _ _ => ℕ

/-- The accepted statuses. -/
def parseStatus : String → Option TaskStatus
  | "open" => some .open
  | "done" => some .done
  | "dropped" => some .dropped
  | _ => none

/-- `update_task_status`.  The last digit of the row count tells whether there was a row. -/
def updateTaskStatus (taskId : Ident) (status : String) : Prog AdminCmd AdminAns Exc Unit :=
  match parseStatus status with
  | none => throw (.http 400 "invalid_task_status")
  | some status => do
    let updated ← Prog.perform (.setTaskStatus taskId status)
    if updated % 10 = 0 then throw (.http 404 "task_not_found") else pure ()

/-- What the statement does if it does not raise. -/
def World.admin : (c : AdminCmd) → World → AdminAns c × World
  | .setTaskStatus taskId status, s =>
    (s.db.task.countP fun row => row.id = taskId,
      s.setDb (setTaskStatus s.db s.store.now taskId status))

/-! ## Runs -/

/-- An operation of one of the services. -/
inductive Op where
  | extract (entry : StreamEntry)
  | project (entry : Memory.StreamEntry)
  | updateStatus (taskId : Ident) (status : String)
  deriving DecidableEq, Repr

/-- The services and what they do not decide. -/
structure Writers where
  extractorSettings : Settings := {}
  searchDates : SearchDates := none
  extractor : Env := {}
  projectorSettings : Memory.Settings := {}
  projector : Memory.Env := {}
  /-- Which calls of the operator raise, given how many were made. -/
  adminFaults : ℕ → Bool := fun _ => false

namespace Writers

variable (w : Writers)

/-- A call of the operator that raises has no effect. -/
def adminRun : Handler AdminCmd AdminAns Exc World := fun c s =>
  if w.adminFaults s.store.calls then (.error .callFailed, s.tick)
  else (.ok (s.admin c).1, (s.admin c).2.tick)

/-- One operation, at its time. -/
def step [CharData] (s : World) (op : Op × Timestamp) : World :=
  match op.1 with
  | .extract entry => w.extractor.deliver w.extractorSettings w.searchDates s (entry, op.2)
  | .project entry =>
    { s with store := w.projector.deliver w.projectorSettings s.store (entry, op.2) }
  | .updateStatus taskId status => (exec w.adminRun (updateTaskStatus taskId status) (s.at op.2)).2

end Writers

/-! ## The extractor -/

section Extractor

/-- The owner of a task is not its counterpart. -/
def NewTask.Apart (new : NewTask) : Prop :=
  ∀ p ∈ new.ownerPersonId, new.counterpartPersonId ≠ some p

/-- What the extractor writes. -/
def extracting : Contract Cmd Ans Exc where
  allowed
    | .insertTask new => new.Apart
    | _ => True

/-- The two sides of a new task are not one person. -/
theorem sides_apart (kind : TaskKind) (senderPersonId ownerRecordId : Option Ident) :
    ∀ p ∈ (sides kind senderPersonId ownerRecordId).1,
      (sides kind senderPersonId ownerRecordId).2 ≠ some p := by
  intro p hp hq
  cases kind with
  | promise =>
    simp only [sides] at hp hq
    split_ifs at hq with h
    exact h.2.2 (Option.mem_def.mp hp ▸ hq.symm)
  | request =>
    simp only [sides] at hp hq
    split_ifs at hq with h
    exact h (Option.mem_def.mp hp ▸ hq.symm)

theorem keeps_await (c : Cmd) (hc : extracting.allowed c) :
    (await c).Keeps extracting fun _ => True :=
  Prog.keeps_perform c hc fun _ _ => trivial

theorem keeps_return {α : Type} (a : α) :
    (pure a : Extracting α).Keeps extracting fun _ => True := Prog.keeps_ret.mpr trivial

theorem unlessProcessed_keeps {eventId : Ident} {body : Extracting Unit}
    (h : body.Keeps extracting fun _ => True) :
    (unlessProcessed eventId body).Keeps extracting fun _ => True := by
  refine Prog.keeps_perform_bind trivial fun processed _ => ?_
  cases processed with
  | true => exact keeps_return ()
  | false => exact h

theorem ensurePerson_keeps (event : TelegramMessageEvent) :
    (ensurePerson event).Keeps extracting fun _ => True := by
  unfold ensurePerson
  cases event.tgSenderId with
  | none => exact keeps_return none
  | some tgUserId => exact Prog.keeps_perform_bind trivial fun id _ => keeps_return (some id)

theorem createTask_keeps (event : TelegramMessageEvent) (candidate : TaskCandidate) :
    (createTask event candidate).Keeps extracting fun _ => True := by
  refine Prog.keeps_perform_bind trivial fun chatId _ => ?_
  refine (ensurePerson_keeps event).bind fun sender _ => ?_
  refine Prog.keeps_perform_bind trivial fun owner _ => ?_
  exact keeps_await (.insertTask _) (sides_apart candidate.kind sender owner)

theorem publishTask_keeps (event : TelegramMessageEvent) (candidate : TaskCandidate) :
    (publishTask event candidate).Keeps extracting fun _ => True := by
  refine (createTask_keeps event candidate).bind fun taskId _ => ?_
  have hbuild : (buildTaskCreatedEvent taskId event candidate).Keeps extracting fun _ => True :=
    Prog.keeps_perform_bind trivial fun row _ => keeps_return _
  refine hbuild.bind fun created _ => ?_
  exact Prog.keeps_perform_bind trivial fun _ _ => keeps_await (.insertProcessed event.eventId) trivial

theorem resolveRepliedTask_keeps (event : TelegramMessageEvent) (evidence : String) :
    (resolveRepliedTask event evidence).Keeps extracting fun _ => True := by
  unfold resolveRepliedTask
  cases event.replyToMessageId.filter (· ≠ 0) with
  | none => exact keeps_return none
  | some reply =>
    refine Prog.keeps_perform_bind trivial fun found _ => ?_
    cases found with
    | none => exact keeps_return none
    | some taskId => exact Prog.keeps_perform_bind trivial fun _ _ => keeps_return (some taskId)

theorem forM_keeps {α : Type} {body : α → Extracting PUnit}
    (h : ∀ x, (body x).Keeps extracting fun _ => True) (xs : List α) :
    (forM xs body).Keeps extracting fun _ => True := by
  induction xs with
  | nil => exact keeps_return PUnit.unit
  | cons x rest ih =>
    rw [List.forM_cons]
    exact (h x).bind fun _ _ => ih

theorem processDeletion_keeps (event : TelegramMessageDeletedEvent) :
    (processDeletion event).Keeps extracting fun _ => True := by
  refine Prog.keeps_perform_bind trivial fun rows _ => ?_
  have hloop : (forM rows fun taskId => await (.xaddResolved (droppedEvent event taskId))).Keeps
      extracting fun _ => True := forM_keeps (fun taskId => keeps_await (.xaddResolved _) trivial) rows
  exact hloop.bind fun _ _ => keeps_await (.insertProcessed event.eventId) trivial

variable [CharData] (settings : Settings) (searchDates : SearchDates)

theorem extractTask_keeps (event : TelegramMessageEvent) (text : String) :
    (extractTask settings searchDates event text).Keeps extracting fun _ => True := by
  unfold extractTask
  cases extractTaskCandidate searchDates event.occurredAt text
      (some ⟨event.occurredAt, some 0⟩) with
  | none => exact keeps_await (.insertProcessed event.eventId) trivial
  | some candidate =>
    dsimp only
    split_ifs with hsure
    · exact keeps_await (.insertProcessed event.eventId) trivial
    · refine Prog.keeps_perform_bind trivial fun found _ => ?_
      cases found with
      | none => exact publishTask_keeps event candidate
      | some taskId => exact keeps_await (.insertProcessed event.eventId) trivial

theorem resolveTask_keeps (event : TelegramMessageEvent) (text : String) :
    (resolveTask event text).Keeps extracting fun _ => True := by
  unfold resolveTask
  split_ifs
  · exact resolveRepliedTask_keeps event text
  · exact keeps_return none

theorem processMessage_keeps (event : TelegramMessageEvent) (text : String) :
    (processMessage settings searchDates event text).Keeps extracting fun _ => True := by
  refine (resolveTask_keeps event text).bind fun found _ => ?_
  cases found with
  | none => exact extractTask_keeps settings searchDates event text
  | some taskId => exact keeps_await (.insertProcessed event.eventId) trivial

omit [CharData] in
theorem rewriteTask_keeps (existingId : Ident) (candidate : Option TaskCandidate) :
    (rewriteTask existingId candidate).Keeps extracting fun _ => True := by
  cases candidate with
  | none => exact keeps_return ()
  | some candidate => exact keeps_await (.editTask existingId candidate) trivial

theorem processEdit_keeps (event : TelegramMessageEditedEvent) (text : String) :
    (processEdit searchDates event text).Keeps extracting fun _ => True := by
  refine Prog.keeps_perform_bind trivial fun found _ => ?_
  cases found with
  | none => exact keeps_await (.insertProcessed event.eventId) trivial
  | some existingId =>
    refine (rewriteTask_keeps existingId _).bind fun _ _ => ?_
    exact keeps_await (.insertProcessed event.eventId) trivial

theorem processStream_keeps (payload : Payload) :
    (processStream settings searchDates payload).Keeps extracting fun _ => True := by
  cases payload with
  | message event =>
    simp only [processStream, handleMessage]
    split_ifs
    · exact keeps_return ()
    · exact unlessProcessed_keeps (processMessage_keeps settings searchDates event _)
  | messageEdited event =>
    simp only [processStream, handleMessageEdited]
    split_ifs
    · exact keeps_return ()
    · exact unlessProcessed_keeps (processEdit_keeps searchDates event _)
  | messageDeleted event =>
    simp only [processStream, handleMessageDeleted]
    split_ifs
    · exact keeps_return ()
    · exact unlessProcessed_keeps (processDeletion_keeps event)
  | malformed => exact Prog.keeps_raise
  | unknownStream => exact keeps_return ()

/-- Every handler inserts tasks with two sides only. -/
theorem handleEntry_keeps (entry : StreamEntry) :
    (handleEntry settings searchDates entry).Keeps extracting fun _ => True := by
  have hletter (error : Exc) : (tryCatch (await (.xaddDeadLetter ⟨entry, error⟩)) fun _ =>
      pure ()).Keeps extracting fun _ => True :=
    Prog.Keeps.tryCatch (fun _ => keeps_return ()) (keeps_await (.xaddDeadLetter _) trivial)
  refine ((processStream_keeps settings searchDates entry.payload).tryCatch hletter).bind
    fun _ _ => ?_
  exact keeps_await (.xack entry) trivial

variable {settings searchDates} {env : Env} {s : World}

/-- **The rule of the extractor.** -/
theorem Env.deliver_invariant {I : World → Prop} (hat : ∀ s now, I s → I (s.at now))
    (htick : ∀ s, I s → I s.tick)
    (heffect : ∀ c s, extracting.allowed c → I s → I (s.effect c).2)
    (delivery : StreamEntry × Timestamp) (h : I s) :
    I (env.deliver settings searchDates s delivery) := by
  refine (handleEntry_keeps settings searchDates delivery.1).exec_invariant ?_
    (fun c s₁ hc hs₁ => ?_) (hat s delivery.2 h)
  · exact fun c s a _ => trivial
  · unfold Env.run
    split_ifs with hfault
    · exact htick s₁ hs₁
    · exact htick _ (heffect c s₁ hc hs₁)

end Extractor

/-! ## The projector and the operator -/

section Others

variable [CharData] {w : Writers} {s : World}

/-- **The rule of the projector.** -/
theorem deliver_task_cases (hs : s.store.tx = none) (entry : Memory.StreamEntry) (now : Timestamp) :
    w.projector.Commits w.projectorSettings s.store (entry, now) ∧
      (w.step s (.project entry, now)).db.task =
        (s.store.draft.synced w.projectorSettings now entry.command).2.db.task ∧
      (s.store.draft.synced w.projectorSettings now entry.command).2.drawn ≤
        (w.step s (.project entry, now)).store.drawn ∨
    ¬ w.projector.Commits w.projectorSettings s.store (entry, now) ∧
      (w.step s (.project entry, now)).db.task = s.db.task ∧
      s.store.drawn ≤ (w.step s (.project entry, now)).store.drawn := by
  by_cases hcommits : w.projector.Commits w.projectorSettings s.store (entry, now)
  · have hprojects := hcommits.projects hs
    refine .inl ⟨hcommits, ?_, ?_⟩
    · exact (congrArg Db.task hprojects.db).trans
        (s.store.draft.project_task w.projectorSettings now entry.command)
    · exact (s.store.draft.drawn_synced_le w.projectorSettings now entry.command).trans
        hprojects.drawn.ge
  · have hpass := Memory.Env.passesOver_of_not_commits hs hcommits
    exact .inr ⟨hcommits, congrArg Db.task hpass.db,
      w.projector.drawn_deliver w.projectorSettings s.store (entry, now)⟩

/-- A projection leaves no transaction open. -/
theorem closed_project (hs : s.store.tx = none) (entry : Memory.StreamEntry) (now : Timestamp) :
    (w.step s (.project entry, now)).store.tx = none :=
  w.projector.deliver_closed w.projectorSettings hs (entry, now)

/-- A projection leaves the keys of the persons apart. -/
theorem deliver_persons (hs : s.store.tx = none) (hpersons : s.db.PersonsSound s.store.drawn)
    (entry : Memory.StreamEntry) (now : Timestamp) :
    (w.step s (.project entry, now)).db.PersonsSound (w.step s (.project entry, now)).store.drawn := by
  by_cases hcommits : w.projector.Commits w.projectorSettings s.store (entry, now)
  · exact (hcommits.projects hs).personsSound hs hpersons
  · have hdb := (Memory.Env.passesOver_of_not_commits hs hcommits).db
    exact (hpersons.mono (w.projector.drawn_deliver w.projectorSettings s.store (entry, now))).congr
      (congrArg Db.person hdb)

/-- **The rule of the operator.** -/
theorem updateStatus_cases (taskId : Ident) (status : String) (now : Timestamp) :
    (∃ parsed, parseStatus status = some parsed ∧ w.adminFaults s.store.calls = false ∧
      w.step s (.updateStatus taskId status, now) =
        ((s.at now).setDb (setTaskStatus s.db now taskId parsed)).tick) ∨
    (parseStatus status = none ∨ w.adminFaults s.store.calls = true) ∧
      (w.step s (.updateStatus taskId status, now) = s.at now ∨
        w.step s (.updateStatus taskId status, now) = (s.at now).tick) := by
  simp only [Writers.step, updateTaskStatus]
  cases hparse : parseStatus status with
  | none => exact .inr ⟨.inl rfl, .inl rfl⟩
  | some parsed =>
    dsimp only
    rw [exec_perform_bind]
    cases hfault : w.adminFaults s.store.calls with
    | true =>
      have hrun : w.adminRun (.setTaskStatus taskId parsed) (s.at now) =
          (.error .callFailed, (s.at now).tick) := if_pos hfault
      rw [hrun]
      exact .inr ⟨.inr rfl, .inr rfl⟩
    | false =>
      have hrun : w.adminRun (.setTaskStatus taskId parsed) (s.at now) =
          (.ok ((s.at now).admin (.setTaskStatus taskId parsed)).1,
            ((s.at now).admin (.setTaskStatus taskId parsed)).2.tick) :=
        if_neg (Bool.eq_false_iff.mp hfault)
      rw [hrun, andThen_ok]
      refine .inl ⟨parsed, rfl, rfl, ?_⟩
      split_ifs <;> rfl

end Others

end Tasks
end PersonalIntelligence
