import PersonalIntelligence.Memory.Statements
import PersonalIntelligence.Tasks.Rules

/-!
# The statements of the task extractor

What each SQL statement of `task_extractor/consumer.py` does to the tables, and the one of
`update_task_status`.  None of them is part of a larger transaction.  `now` is the time of
the statement and `id` what `gen_random_uuid()` yields.
-/

namespace PersonalIntelligence
namespace Tasks

open Memory (Db Task Person Chat TaskStatus numeric3)

/-- The row is of a message: the two conditions on `source_message_ref`. -/
def OfMessage (tgChatId tgMessageId : ℤ) (row : Task) : Prop :=
  row.sourceMessageRef.tgChatId = tgChatId ∧ row.sourceMessageRef.tgMessageId = tgMessageId

instance (tgChatId tgMessageId : ℤ) (row : Task) : Decidable (OfMessage tgChatId tgMessageId row) :=
  inferInstanceAs (Decidable (_ ∧ _))

/-! ## Closing tasks -/

/-- The new status of the tasks that an event closes. -/
def statusOf : Resolution → TaskStatus
  | .done => .done
  | .dropped => .dropped

/-- The rows that an `UPDATE ... WHERE status = 'open' AND ...` changes. -/
def openRows (p : Task → Bool) (rows : List Task) : List Task :=
  rows.filter fun row => row.status = .open && p row

/-- `SET` in `_resolve_replied_task`. -/
def resolved (resolvedAt now : Timestamp) (row : Task) : Task :=
  { row with status := .done, resolvedAt := some resolvedAt, updatedAt := now }

/-- `SET` in `_handle_message_deleted`. -/
def dropped (now : Timestamp) (row : Task) : Task :=
  { row with
    status := .dropped
    resolvedAt := some now
    updatedAt := now
    evidence := row.evidence.or (some "source message deleted") }

/-- An `UPDATE` of the open rows with a property. -/
def closeTasks (p : Task → Bool) (close : Task → Task) (db : Db) : Db :=
  { db with task := Table.update (fun row => row.status = .open && p row) close db.task }

/-! ## Writing tasks -/

/-- The columns that `_create_task` supplies. -/
structure NewTask where
  candidate : TaskCandidate
  ownerPersonId : Option Ident
  counterpartPersonId : Option Ident
  chatId : Ident
  tgChatId : ℤ
  tgMessageId : ℤ
  deriving DecidableEq, Repr

/-- The row that `_create_task` inserts. -/
def NewTask.fresh (new : NewTask) (now : Timestamp) (id : Ident) : Task where
  id
  title := new.candidate.title
  description := some new.candidate.description
  ownerPersonId := new.ownerPersonId
  counterpartPersonId := new.counterpartPersonId
  chatId := some new.chatId
  sourceMessageRef := ⟨new.tgChatId, new.tgMessageId, none⟩
  dueAt := new.candidate.dueAt.map (·.instant)
  status := .open
  priority := new.candidate.priority
  confidence := numeric3 new.candidate.confidence
  evidence := some new.candidate.evidence
  createdAt := now
  updatedAt := now

/-- `SET` in `_handle_message_edited`. -/
def edited (candidate : TaskCandidate) (now : Timestamp) (row : Task) : Task :=
  { row with
    title := candidate.title
    description := some candidate.description
    dueAt := candidate.dueAt.map (·.instant)
    priority := candidate.priority
    confidence := numeric3 candidate.confidence
    evidence := some candidate.evidence
    updatedAt := now }

/-- `SET` in `update_task_status`: only the status `done` has a time. -/
def withStatus (status : TaskStatus) (now : Timestamp) (row : Task) : Task :=
  { row with
    status
    resolvedAt := if status = .done then some now else none
    updatedAt := now }

/-! ## Persons -/

/-- The columns that `_ensure_person` of the extractor supplies. -/
structure SenderUpsert where
  tgUserId : ℤ
  username : Option String
  displayName : String
  deriving DecidableEq, Repr

/-- The row an insert makes: a person is not the owner by default. -/
def SenderUpsert.fresh (p : SenderUpsert) (now : Timestamp) (id : Ident) : Person where
  id
  tgUserId := some p.tgUserId
  username := p.username
  displayName := p.displayName
  topics := []
  lastInteractionAt := none
  isOwner := false
  updatedAt := now

/-- What `DO UPDATE` makes of a row. -/
def SenderUpsert.merge (p : SenderUpsert) (now : Timestamp) (row : Person) : Person :=
  { row with
    username := p.username.or row.username
    displayName := if p.displayName = "" then row.displayName else p.displayName
    updatedAt := now }

section Tables

variable (db : Db)

/-- `INSERT INTO person ... ON CONFLICT (tg_user_id) DO UPDATE`. -/
def upsertSender (now : Timestamp) (id : Ident) (p : SenderUpsert) : Db :=
  { db with
    person := Table.upsert Person.tgUserId (p.merge now) (p.fresh now id) db.person }

/-- `_find_task_by_source_message`. -/
def findTaskBySource (tgChatId tgMessageId : ℤ) : Option Ident :=
  (Table.first (Memory.later Task.createdAt)
    (db.task.filter fun row => OfMessage tgChatId tgMessageId row)).map (·.id)

/-- `SELECT owner_person_id, counterpart_person_id FROM task WHERE id = $1`. -/
def selectSides (id : Ident) : Option (Option Ident × Option Ident) :=
  (db.task.find? fun row => row.id = id).map fun row =>
    (row.ownerPersonId, row.counterpartPersonId)

/-- `UPDATE task SET ... WHERE id = $7 AND status = 'open'`. -/
def editTask (now : Timestamp) (id : Ident) (candidate : TaskCandidate) : Db :=
  { db with
    task := Table.update (fun row => row.id = id && row.status = .open) (edited candidate now)
      db.task }

/-- `UPDATE task SET status = $2, ... WHERE id = $1`. -/
def setTaskStatus (now : Timestamp) (id : Ident) (status : TaskStatus) : Db :=
  { db with task := Table.update (fun row => row.id = id) (withStatus status now) db.task }

end Tables

end Tasks
end PersonalIntelligence
