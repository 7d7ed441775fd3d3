import PersonalIntelligence.Memory.Schema

/-!
# The statements of the memory projector

What each SQL statement of `memory_projector/consumer.py` does to the tables, and what
it returns.  `now` is the time of the transaction and `id` the identifier that
`gen_random_uuid()` yields if a row is inserted.
-/

namespace PersonalIntelligence
namespace Memory

/-- `SELECT ... ORDER BY a DESC`: the later one comes first. -/
def later {ρ : Type} (a : ρ → Timestamp) (x y : ρ) : Bool := decide (a y < a x)

namespace Db

variable (db : Db)

/-- `SELECT 1 FROM processed_event WHERE consumer_name = $1 AND event_id = $2`. -/
def isProcessed (consumerName : String) (eventId : Ident) : Bool :=
  db.processedEvent.any fun row => row.consumerName = consumerName ∧ row.eventId = eventId

/-- `INSERT INTO processed_event ... ON CONFLICT DO NOTHING`. -/
def insertProcessed (now : Timestamp) (consumerName : String) (eventId : Ident) : Db :=
  let row : ProcessedEvent := ⟨consumerName, eventId, now⟩
  if row ∈ db.processedEvent then db
  else { db with processedEvent := db.processedEvent ++ [row] }

/-- The id of the chat, once it has been upserted. -/
def chatId (tgChatId : ℤ) (id : Ident) : Ident :=
  match db.chat.find? fun row => row.tgChatId = tgChatId with
  | some row => row.id
  | none => id

/-- `INSERT INTO chat ... ON CONFLICT (tg_chat_id) DO UPDATE`. -/
def upsertChat (id : Ident) (tgChatId : ℤ) (kind : ChatType) (title : Option String) : Db :=
  { db with
    chat := Table.upsert Chat.tgChatId (fun row => { row with kind, title := title.or row.title })
      ⟨id, tgChatId, kind, title⟩ db.chat }

end Db

/-- The columns that `_ensure_person` supplies. -/
structure PersonUpsert where
  tgUserId : ℤ
  username : Option String
  displayName : String
  topics : List String
  lastInteractionAt : Timestamp
  isOwner : Bool
  deriving DecidableEq, Repr

/-- The row an insert makes. -/
def PersonUpsert.fresh (p : PersonUpsert) (now : Timestamp) (id : Ident) : Person where
  id
  tgUserId := some p.tgUserId
  username := p.username
  displayName := p.displayName
  topics := p.topics
  lastInteractionAt := some p.lastInteractionAt
  isOwner := p.isOwner
  updatedAt := now

/-- What `DO UPDATE` makes of a row.  `GREATEST` skips nulls, and the topics are a set in
an order that Postgres leaves open. -/
def PersonUpsert.merge (p : PersonUpsert) (now : Timestamp) (row : Person) : Person :=
  { row with
    username := p.username.or row.username
    displayName := if p.displayName = "" then row.displayName else p.displayName
    topics := ((row.topics ++ p.topics).filter (· ≠ "")).dedup
    lastInteractionAt := some (match row.lastInteractionAt with
      | some at_ => max at_ p.lastInteractionAt
      | none => p.lastInteractionAt)
    isOwner := row.isOwner || p.isOwner
    updatedAt := now }

namespace Db

variable (db : Db)

/-- The id of the person, once it has been upserted. -/
def personId (tgUserId : ℤ) (id : Ident) : Ident :=
  match db.person.find? fun row => row.tgUserId = some tgUserId with
  | some row => row.id
  | none => id

/-- `INSERT INTO person ... ON CONFLICT (tg_user_id) DO UPDATE`. -/
def upsertPerson (now : Timestamp) (id : Ident) (p : PersonUpsert) : Db :=
  { db with
    person := Table.upsert Person.tgUserId (p.merge now) (p.fresh now id) db.person }

/-- `INSERT INTO chat_membership ... ON CONFLICT DO NOTHING`. -/
def insertMembership (row : ChatMembership) : Db :=
  if row ∈ db.chatMembership then db
  else { db with chatMembership := db.chatMembership ++ [row] }

/-- `INSERT INTO analysis_window ... ON CONFLICT (id) DO UPDATE`.  The chat, the type of
the chat and the start of the window are those of the first insert. -/
def upsertWindow (window : AnalysisWindow) : Db :=
  { db with
    analysisWindow := Table.upsert AnalysisWindow.id
      (fun row => { window with
        chatId := row.chatId
        tgChatId := row.tgChatId
        chatType := row.chatType
        windowStart := row.windowStart
        confidence := numeric3 window.confidence })
      { window with confidence := numeric3 window.confidence } db.analysisWindow }

/-- `DELETE FROM extracted_fact WHERE window_id = $1`. -/
def deleteFacts (windowId : Ident) : Db :=
  { db with extractedFact := db.extractedFact.filter (·.windowId ≠ windowId) }

/-- `INSERT INTO extracted_fact`. -/
def insertFact (row : ExtractedFact) : Db :=
  { db with
    extractedFact := db.extractedFact ++ [{ row with confidence := numeric3 row.confidence }] }

/-- `DELETE FROM analytics_signal WHERE window_id = $1`. -/
def deleteSignals (windowId : Ident) : Db :=
  { db with analyticsSignal := db.analyticsSignal.filter (·.windowId ≠ windowId) }

/-- `INSERT INTO analytics_signal`. -/
def insertSignal (row : AnalyticsSignalRow) : Db :=
  { db with analyticsSignal := db.analyticsSignal ++ [{ row with score := numeric3 row.score }] }

/-- `SELECT id FROM person WHERE is_owner = TRUE ORDER BY updated_at DESC LIMIT 1`. -/
def selectOwner : Option Ident :=
  (Table.first (later Person.updatedAt) (db.person.filter (·.isOwner))).map (·.id)

/-- The order of `_find_task_for_evidence`: rows with an owner first, then the last
updated, then the last created. -/
def taskBefore (x y : Task) : Bool :=
  if x.ownerPersonId.isSome ≠ y.ownerPersonId.isSome then x.ownerPersonId.isSome
  else if x.updatedAt ≠ y.updatedAt then later Task.updatedAt x y
  else later Task.createdAt x y

/-- `_find_task_for_evidence`. -/
def findTask (chatId : Ident) (evidenceMessageId : ℤ) : Option Ident :=
  (Table.first taskBefore (db.task.filter fun row =>
    row.chatId = some chatId ∧ row.sourceMessageRef.tgMessageId = evidenceMessageId)).map (·.id)

end Db

/-- The columns that `_sync_tasks` writes for an existing task. -/
structure TaskUpdate where
  title : String
  description : Option String
  ownerPersonId : Option Ident
  counterpartPersonId : Option Ident
  dueAt : Option Timestamp
  priority : ℤ
  confidence : ℚ
  evidence : Option String
  deriving DecidableEq, Repr

/-- `UPDATE task SET ...` on one row: a null keeps what is there. -/
def TaskUpdate.apply (u : TaskUpdate) (now : Timestamp) (row : Task) : Task :=
  { row with
    title := u.title
    description := u.description.or row.description
    ownerPersonId := u.ownerPersonId.or row.ownerPersonId
    counterpartPersonId := u.counterpartPersonId.or row.counterpartPersonId
    dueAt := u.dueAt.or row.dueAt
    priority := u.priority
    confidence := numeric3 u.confidence
    evidence := u.evidence.or row.evidence
    updatedAt := now }

/-- The row that `_sync_tasks` inserts. -/
def TaskUpdate.fresh (u : TaskUpdate) (now : Timestamp) (id chatId : Ident)
    (sourceMessageRef : SourceMessageRef) : Task where
  id
  title := u.title
  description := u.description
  ownerPersonId := u.ownerPersonId
  counterpartPersonId := u.counterpartPersonId
  chatId := some chatId
  sourceMessageRef
  dueAt := u.dueAt
  status := .open
  priority := u.priority
  confidence := numeric3 u.confidence
  evidence := u.evidence
  createdAt := now
  updatedAt := now

/-- The columns that `_upsert_interaction` writes. -/
structure InteractionUpdate where
  windowEnd : Timestamp
  participants : List Ident
  topics : List String
  sentiment : SentimentHint
  summary : String
  tasks : List Ident
  sourceObjectRef : Option ArtifactKey
  deriving DecidableEq, Repr

/-- `UPDATE interaction SET ...` on one row. -/
def InteractionUpdate.apply (u : InteractionUpdate) (row : Interaction) : Interaction :=
  { row with
    windowEnd := u.windowEnd
    participants := u.participants
    topics := u.topics
    sentiment := u.sentiment
    summary := u.summary
    tasks := u.tasks
    sourceObjectRef := u.sourceObjectRef.or row.sourceObjectRef }

/-- The row that `_upsert_interaction` inserts. -/
def InteractionUpdate.fresh (u : InteractionUpdate) (now : Timestamp) (id chatId : Ident)
    (windowStart : Timestamp) : Interaction where
  id
  chatId
  windowStart
  windowEnd := u.windowEnd
  participants := u.participants
  topics := u.topics
  sentiment := u.sentiment
  summary := u.summary
  tasks := u.tasks
  sourceObjectRef := u.sourceObjectRef
  createdAt := now

namespace Db

variable (db : Db)

/-- `UPDATE task SET ... WHERE id = $1`. -/
def updateTask (now : Timestamp) (id : Ident) (u : TaskUpdate) : Db :=
  { db with task := Table.update (fun row => row.id = id) (u.apply now) db.task }

/-- `INSERT INTO task`. -/
def insertTask (row : Task) : Db := { db with task := db.task ++ [row] }

/-- `SELECT id, created_at FROM interaction WHERE chat_id = $1 AND window_start = $2
ORDER BY created_at DESC LIMIT 1`. -/
def selectInteraction (chatId : Ident) (windowStart : Timestamp) : Option (Ident × Timestamp) :=
  (Table.first (later Interaction.createdAt) (db.interaction.filter fun row =>
    row.chatId = chatId ∧ row.windowStart = windowStart)).map fun row => (row.id, row.createdAt)

/-- `UPDATE interaction SET ... WHERE id = $8 AND created_at = $9`. -/
def updateInteraction (id : Ident) (createdAt : Timestamp) (u : InteractionUpdate) : Db :=
  { db with
    interaction := Table.update (fun row => row.id = id ∧ row.createdAt = createdAt) u.apply
      db.interaction }

/-- `INSERT INTO interaction`. -/
def insertInteraction (row : Interaction) : Db :=
  { db with interaction := db.interaction ++ [row] }

/-- `INSERT INTO audit_log`. -/
def insertAuditLog (row : AuditLog) : Db := { db with auditLog := db.auditLog ++ [row] }

end Db

end Memory
end PersonalIntelligence
