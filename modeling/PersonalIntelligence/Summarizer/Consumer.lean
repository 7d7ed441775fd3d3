import PersonalIntelligence.Library.PyText
import PersonalIntelligence.Library.Resumption
import PersonalIntelligence.Memory.Statements
import Mathlib.Data.List.Sort

/-!
# `chat_summarizer/consumer.py`

The summarizer keeps a Redis list of messages per chat.  A message is marked processed, the
list is flushed if it has been silent for too long, the message is pushed, and the list is
flushed if it is full.  `_flush_window` asks the engine for a summary, files the interaction
in one Postgres transaction, publishes `InteractionUpdatedEvent` before that transaction is
committed, and deletes the list after it.  `run` acknowledges an entry whatever became of it.

The functions are programs over `Cmd`, one command for each SQL statement and for each call
of another store, and `Env.run` is what the commands do to a `World`.  A call that raises
has no effect, and every call may raise but for two: a rollback, which the server makes by
itself if the client cannot, and the acknowledgement.  Acquiring the connection is part of
`BEGIN`.  The entries of a list are the messages they encode.
-/

namespace PersonalIntelligence
namespace Summarizer

open PyText Resumption
open Memory (Chat Person Task ProcessedEvent later)

/-- The settings the consumer reads. -/
structure Settings where
  summarizerStrategy : String := "by_count"
  summarizerWindowSize : ℤ := 50
  summarizerTimeWindowMinutes : ℤ := 60
  /-- `s3.is_configured`. -/
  s3Configured : Bool := false
  deriving DecidableEq, Repr

def consumerName : String := "chat-summarizer"

/-! ## Messages -/

structure WindowMessage where
  tgMessageId : ℤ
  tgSenderId : Option ℤ
  tgSenderName : Option String
  chatType : ChatType
  chatTitle : Option String
  text : String
  occurredAt : Timestamp
  deriving DecidableEq, Repr

structure LlmWindowMessage where
  tgMessageId : ℤ
  tgSenderId : Option ℤ
  tgSenderName : Option String
  text : String
  occurredAt : Timestamp
  deriving DecidableEq, Repr

def WindowMessage.llm (message : WindowMessage) : LlmWindowMessage where
  tgMessageId := message.tgMessageId
  tgSenderId := message.tgSenderId
  tgSenderName := message.tgSenderName
  text := message.text
  occurredAt := message.occurredAt

structure SummaryResult where
  topics : List String
  sentiment : SentimentHint
  summary : String
  deriving DecidableEq, Repr

/-- `needs_rollover` of `windowing.py`. -/
def needsRollover (lastOccurredAt occurredAt : Timestamp) (strategy : String)
    (timeWindowMinutes : ℤ) : Bool :=
  if strategy ∉ ["by_time_window", "hybrid"] then false
  else decide (seconds (max 60 (timeWindowMinutes * 60)) ≤ occurredAt - lastOccurredAt)

/-! ## Rows and objects -/

/-- The key `interaction-windows/{interaction_id}.json`. -/
structure WindowObjectKey where
  interactionId : Ident
  deriving DecidableEq, Repr

/-- What is stored at such a key. -/
structure WindowObject where
  tgChatId : ℤ
  windowStart : Timestamp
  windowEnd : Timestamp
  messages : List WindowMessage
  deriving DecidableEq, Repr

/-- The columns of `interaction` that the consumer writes. -/
structure Interaction where
  id : Ident
  chatId : Ident
  windowStart : Timestamp
  windowEnd : Timestamp
  participants : List Ident
  topics : List String
  sentiment : SentimentHint
  summary : String
  tasks : List Ident
  sourceObjectRef : Option WindowObjectKey
  createdAt : Timestamp
  deriving DecidableEq, Repr

/-- The columns that an `UPDATE` of `_upsert_interaction` sets. -/
structure InteractionUpdate where
  windowEnd : Timestamp
  participants : List Ident
  topics : List String
  sentiment : SentimentHint
  summary : String
  tasks : List Ident
  deriving DecidableEq, Repr

def InteractionUpdate.apply (u : InteractionUpdate) (row : Interaction) : Interaction :=
  { row with
    windowEnd := u.windowEnd
    participants := u.participants
    topics := u.topics
    sentiment := u.sentiment
    summary := u.summary
    tasks := u.tasks }

/-- The row that `_upsert_interaction` inserts. -/
def InteractionUpdate.fresh (u : InteractionUpdate) (now : Timestamp) (id chatId : Ident)
    (windowStart : Timestamp) : Interaction where
  id
  chatId
  windowStart
  windowEnd := u.windowEnd
  participants := u.participants
  topics := u.topics
  sentiment := u.sentiment
  summary := u.summary
  tasks := u.tasks
  sourceObjectRef := none
  createdAt := now

/-- The tables. -/
structure Db where
  chat : List Chat := []
  person : List Person := []
  task : List Task := []
  interaction : List Interaction := []
  processedEvent : List ProcessedEvent := []
  deriving DecidableEq, Repr

namespace Db

variable (db : Db)

/-- `SELECT 1 FROM processed_event WHERE consumer_name = $1 AND event_id = $2 LIMIT 1`. -/
def isProcessed (eventId : Ident) : Bool :=
  db.processedEvent.any fun row => row.consumerName = consumerName ∧ row.eventId = eventId

/-- `INSERT INTO processed_event ... ON CONFLICT DO NOTHING`. -/
def insertProcessed (now : Timestamp) (eventId : Ident) : Db :=
  let row : ProcessedEvent := ⟨consumerName, eventId, now⟩
  if row ∈ db.processedEvent then db
  else { db with processedEvent := db.processedEvent ++ [row] }

/-- The id of the chat, once it has been upserted. -/
def chatId (tgChatId : ℤ) (id : Ident) : Ident :=
  match db.chat.find? fun row => row.tgChatId = tgChatId with
  | some row => row.id
  | none => id

/-- `INSERT INTO chat ... ON CONFLICT (tg_chat_id) DO UPDATE SET updated_at = now()`. -/
def upsertChat (id : Ident) (tgChatId : ℤ) : Db :=
  { db with
    chat := Table.upsert Chat.tgChatId (fun row => row) ⟨id, tgChatId, .private, none⟩ db.chat }

/-- `UPDATE chat SET kind = $1, title = COALESCE($2, title) WHERE id = $3`. -/
def updateChat (id : Ident) (kind : ChatType) (title : Option String) : Db :=
  { db with
    chat := Table.update (fun row => row.id = id)
      (fun row => { row with kind, title := title.or row.title }) db.chat }

/-- The id of the person, once it has been upserted. -/
def personId (tgUserId : ℤ) (id : Ident) : Ident :=
  match db.person.find? fun row => row.tgUserId = some tgUserId with
  | some row => row.id
  | none => id

/-- `INSERT INTO person ... ON CONFLICT (tg_user_id) DO UPDATE`. -/
def upsertPerson (now : Timestamp) (id : Ident) (tgUserId : ℤ) (displayName : String) : Db :=
  { db with
    person := Table.upsert Person.tgUserId
      (fun row => { row with
        displayName := if displayName = "" then row.displayName else displayName
        updatedAt := now })
      { id
        tgUserId := some tgUserId
        username := none
        displayName
        topics := []
        lastInteractionAt := none
        isOwner := false
        updatedAt := now }
      db.person }

/-- `SELECT id FROM task WHERE source_message_ref ... ORDER BY created_at`. -/
def selectTasks (tgChatId : ℤ) (messageIds : List ℤ) : List Ident :=
  ((db.task.filter fun row =>
    row.sourceMessageRef.tgChatId = tgChatId ∧ row.sourceMessageRef.tgMessageId ∈ messageIds)
      |>.insertionSort fun x y => x.createdAt ≤ y.createdAt).map (·.id)

/-- `SELECT id, created_at FROM interaction WHERE chat_id = $1 AND window_start = $2
ORDER BY created_at DESC LIMIT 1`. -/
def selectInteraction (chatId : Ident) (windowStart : Timestamp) : Option (Ident × Timestamp) :=
  (Table.first (later Interaction.createdAt) (db.interaction.filter fun row =>
    row.chatId = chatId ∧ row.windowStart = windowStart)).map fun row => (row.id, row.createdAt)

/-- `UPDATE interaction SET ... WHERE id = $7 AND created_at = $8`. -/
def updateInteraction (id : Ident) (createdAt : Timestamp) (u : InteractionUpdate) : Db :=
  { db with
    interaction := Table.update (fun row => row.id = id ∧ row.createdAt = createdAt) u.apply
      db.interaction }

/-- `INSERT INTO interaction`. -/
def insertInteraction (row : Interaction) : Db :=
  { db with interaction := db.interaction ++ [row] }

/-- `UPDATE interaction SET source_object_ref = $1 WHERE id = $2`. -/
def setObjectRef (id : Ident) (sourceObjectRef : WindowObjectKey) : Db :=
  { db with
    interaction := Table.update (fun row => row.id = id)
      (fun row => { row with sourceObjectRef := some sourceObjectRef }) db.interaction }

end Db

/-! ## Commands -/

/-- What the `data` of an entry is, given the stream it comes from. -/
inductive StreamPayload where
  | message (event : TelegramMessageEvent)
  | messageEdited (event : TelegramMessageEditedEvent)
  /-- `model_validate_json` raises. -/
  | invalid
  | unknownStream
  deriving DecidableEq, Repr

structure StreamEntry where
  id : Ident
  payload : StreamPayload
  deriving DecidableEq, Repr

/-- The calls the consumer waits for.  A window key is named by its chat. -/
inductive Cmd where
  | selectProcessed (eventId : Ident)
  | insertProcessed (eventId : Ident)
  /-- `LINDEX key -1`. -/
  | lindexLast (tgChatId : ℤ)
  | lrange (tgChatId : ℤ)
  | rpush (tgChatId : ℤ) (entries : List WindowMessage)
  | llen (tgChatId : ℤ)
  | expire (tgChatId : ℤ) (ttl : ℤ)
  | delete (tgChatId : ℤ)
  | summarize (messages : List LlmWindowMessage)
  | begin
  | commit
  | rollback
  | upsertChat (tgChatId : ℤ)
  | updateChat (chatId : Ident) (kind : ChatType) (title : Option String)
  | upsertPerson (tgUserId : ℤ) (displayName : String)
  | selectTasks (tgChatId : ℤ) (messageIds : List ℤ)
  | selectInteraction (chatId : Ident) (windowStart : Timestamp)
  | updateInteraction (id : Ident) (createdAt : Timestamp) (columns : InteractionUpdate)
  | insertInteraction (chatId : Ident) (windowStart : Timestamp) (columns : InteractionUpdate)
  | putObject (key : WindowObjectKey) (body : WindowObject)
  | setObjectRef (interactionId : Ident) (sourceObjectRef : WindowObjectKey)
  | xaddInteraction (event : InteractionUpdatedEvent)
  | xaddDeadLetter (entry : StreamEntry)
  | xack (entry : StreamEntry)
  deriving DecidableEq, Repr

/-- What each command answers. -/
abbrev Ans : Cmd → Type
  | .selectProcessed _ => Bool
  | .lindexLast _ => Option WindowMessage
  | .lrange _ => List WindowMessage
  | .llen _ => ℕ
  | .summarize _ => SummaryResult
  | .upsertChat _ | .upsertPerson _ _ | .insertInteraction _ _ _ => Ident
  | .selectTasks _ _ => List Ident
  | .selectInteraction _ _ => Option (Ident × Timestamp)
  | _ => Unit

/-- A handler of the summarizer. -/
abbrev Summarizing := Prog Cmd Ans Exc

/-- One command, awaited where it stands. -/
abbrev await (c : Cmd) : Summarizing (Ans c) := Prog.perform c

/-- `async with conn.transaction()`. -/
def transaction {α : Type} (body : Summarizing α) : Summarizing α :=
  Prog.transaction (await .begin) (await .commit) (await .rollback) body

/-! ## The flush -/

/-- What `_flush_window` knows when it opens the transaction. -/
structure Flush where
  tgChatId : ℤ
  traceId : Option String
  messages : List WindowMessage
  summary : SummaryResult
  nonempty : messages ≠ []

namespace Flush

variable (flush : Flush)

def lastMessage : WindowMessage := flush.messages.getLast flush.nonempty

def windowStart : Timestamp := (flush.messages.head flush.nonempty).occurredAt

def windowEnd : Timestamp := flush.lastMessage.occurredAt

/-- The columns of the interaction. -/
def columns (participants taskIds : List Ident) : InteractionUpdate where
  windowEnd := flush.windowEnd
  participants
  topics := flush.summary.topics
  sentiment := flush.summary.sentiment
  summary := flush.summary.summary
  tasks := taskIds

/-- The `InteractionUpdatedEvent` of `_flush_window`. -/
def updatedEvent (interactionId chatId : Ident) (columns : InteractionUpdate) :
    InteractionUpdatedEvent where
  interactionId
  chatId
  windowStart := flush.windowStart
  windowEnd := columns.windowEnd
  participants := columns.participants
  topics := columns.topics
  sentiment := columns.sentiment
  summary := columns.summary
  taskIds := columns.tasks
  traceId := flush.traceId

/-- The object of the window. -/
def windowObject : WindowObject where
  tgChatId := flush.tgChatId
  windowStart := flush.windowStart
  windowEnd := flush.windowEnd
  messages := flush.messages

end Flush

/-- `_ensure_chat`. -/
def ensureChat (tgChatId : ℤ) : Summarizing Ident := await (.upsertChat tgChatId)

/-- `_refresh_chat_metadata`. -/
def refreshChatMetadata (chatId : Ident) (message : WindowMessage) : Summarizing Unit :=
  await (.updateChat chatId message.chatType message.chatTitle)

/-- `message.tg_sender_name or f"tg:{tg_user_id}"`. -/
def WindowMessage.displayName (message : WindowMessage) (tgUserId : ℤ) : String :=
  match message.tgSenderName with
  | some name => if name.isEmpty then s!"tg:{tgUserId}" else name
  | none => s!"tg:{tgUserId}"

/-- The loop of `_ensure_participants`. -/
def ensureParticipantsFrom : List WindowMessage → List ℤ → List Ident → Summarizing (List Ident)
  | [], _, participants => pure participants
  | message :: rest, seen, participants =>
    match message.tgSenderId with
    | none => ensureParticipantsFrom rest seen participants
    | some tgUserId =>
      if tgUserId ∈ seen then ensureParticipantsFrom rest seen participants
      else do
        let personId ← await (.upsertPerson tgUserId (message.displayName tgUserId))
        ensureParticipantsFrom rest (tgUserId :: seen) (participants ++ [personId])

/-- `_ensure_participants`. -/
def ensureParticipants (messages : List WindowMessage) : Summarizing (List Ident) :=
  ensureParticipantsFrom messages [] []

/-- `_find_window_task_ids`. -/
def findWindowTaskIds (tgChatId : ℤ) (messageIds : List ℤ) : Summarizing (List Ident) :=
  await (.selectTasks tgChatId messageIds)

/-- `_upsert_interaction`. -/
def upsertInteraction (chatId : Ident) (windowStart : Timestamp) (columns : InteractionUpdate) :
    Summarizing Ident := do
  match ← await (.selectInteraction chatId windowStart) with
  | some existing =>
    await (.updateInteraction existing.1 existing.2 columns)
    pure existing.1
  | none => await (.insertInteraction chatId windowStart columns)

/-- The object of the window and `_set_interaction_object_ref`. -/
def storeObject (settings : Settings) (flush : Flush) (interactionId : Ident) : Summarizing Unit :=
  if settings.s3Configured then do
    await (.putObject ⟨interactionId⟩ flush.windowObject)
    await (.setObjectRef interactionId ⟨interactionId⟩)
  else pure ()

/-- The transaction of `_flush_window`, up to its last call. -/
def fileRows (settings : Settings) (flush : Flush) : Summarizing InteractionUpdatedEvent := do
  let chatId ← ensureChat flush.tgChatId
  refreshChatMetadata chatId flush.lastMessage
  let participants ← ensureParticipants flush.messages
  let taskIds ← findWindowTaskIds flush.tgChatId (flush.messages.map (·.tgMessageId))
  let columns := flush.columns participants taskIds
  let interactionId ← upsertInteraction chatId flush.windowStart columns
  storeObject settings flush interactionId
  pure (flush.updatedEvent interactionId chatId columns)

/-- The transaction of `_flush_window`. -/
def fileWindow (settings : Settings) (flush : Flush) : Summarizing Unit := do
  let updatedEvent ← fileRows settings flush
  await (.xaddInteraction updatedEvent)

/-- `_flush_window`. -/
def flushWindow (settings : Settings) (tgChatId : ℤ) (traceId : Option String) :
    Summarizing Unit := do
  let messages ← await (.lrange tgChatId)
  if nonempty : messages = [] then pure ()
  else do
    let summary ← await (.summarize (messages.map WindowMessage.llm))
    transaction (fileWindow settings { tgChatId, traceId, messages, summary, nonempty })
    await (.delete tgChatId)

/-! ## The handlers -/

/-- The time to live of a window key, `max(minutes * 60, 3600)` seconds. -/
def windowTtl (settings : Settings) : ℤ :=
  seconds (max (settings.summarizerTimeWindowMinutes * 60) 3600)

/-- The `WindowMessage` of an event. -/
def windowMessage (event : TelegramMessageEvent) : WindowMessage where
  tgMessageId := event.tgMessageId
  tgSenderId := event.tgSenderId
  tgSenderName := event.tgSenderName
  chatType := event.chatType
  chatTitle := event.chatTitle
  text := strip (event.text.getD "")
  occurredAt := event.tgDate.getD event.occurredAt

/-- `_should_roll_window`. -/
def shouldRollWindow (settings : Settings) (tgChatId : ℤ) (occurredAt : Timestamp) :
    Summarizing Bool := do
  match ← await (.lindexLast tgChatId) with
  | none => pure false
  | some lastMessage =>
    pure (needsRollover lastMessage.occurredAt occurredAt settings.summarizerStrategy
      settings.summarizerTimeWindowMinutes)

/-- What `_handle_message` does with an event it has marked. -/
def storeMessage (settings : Settings) (event : TelegramMessageEvent) : Summarizing Unit := do
  let payload := windowMessage event
  if ← shouldRollWindow settings event.tgChatId payload.occurredAt then
    flushWindow settings event.tgChatId event.traceId
  await (.rpush event.tgChatId [payload])
  let size ← await (.llen event.tgChatId)
  await (.expire event.tgChatId (windowTtl settings))
  if settings.summarizerWindowSize ≤ size then
    flushWindow settings event.tgChatId event.traceId

/-- `_handle_message`. -/
def handleMessage (settings : Settings) (event : TelegramMessageEvent) : Summarizing Unit :=
  if isBlank (event.text.getD "") then pure ()
  else do
    if ← await (.selectProcessed event.eventId) then pure ()
    else do
      await (.insertProcessed event.eventId)
      storeMessage settings event

/-- The list after an edit: the text of every copy of the message is replaced. -/
def editMessages (tgMessageId : ℤ) (text : String) (messages : List WindowMessage) :
    List WindowMessage :=
  messages.map fun message =>
    if message.tgMessageId = tgMessageId then { message with text } else message

/-- What `_handle_edited_message` does with an event it has marked.  Nothing is written if
no entry is of the message; an empty list has no such entry. -/
def rewriteWindow (settings : Settings) (event : TelegramMessageEditedEvent) :
    Summarizing Unit := do
  let entries ← await (.lrange event.tgChatId)
  if event.tgMessageId ∈ entries.map (·.tgMessageId) then do
    await (.delete event.tgChatId)
    await (.rpush event.tgChatId
      (editMessages event.tgMessageId (strip (event.newText.getD "")) entries))
    await (.expire event.tgChatId (windowTtl settings))
  else pure ()

/-- `_handle_edited_message`. -/
def handleEditedMessage (settings : Settings) (event : TelegramMessageEditedEvent) :
    Summarizing Unit :=
  if isBlank (event.newText.getD "") then pure ()
  else do
    if ← await (.selectProcessed event.eventId) then pure ()
    else do
      await (.insertProcessed event.eventId)
      rewriteWindow settings event

/-- `_process_stream`. -/
def processStream (settings : Settings) (entry : StreamEntry) : Summarizing Unit :=
  match entry.payload with
  | .message event => handleMessage settings event
  | .messageEdited event => handleEditedMessage settings event
  | .invalid => throw .validation
  | .unknownStream => pure ()

/-- `run`, for one entry: an exception is put into the dead-letter stream if it takes it,
and the entry is acknowledged. -/
def handleEntry (settings : Settings) (entry : StreamEntry) : Summarizing Unit := do
  tryCatch (processStream settings entry) fun _ =>
    tryCatch (await (.xaddDeadLetter entry)) fun _ => pure ()
  await (.xack entry)

/-! ## The stores -/

/-- What the summarizer reads and writes. -/
structure World where
  now : Timestamp := 0
  /-- The committed tables. -/
  db : Db := {}
  /-- The tables as the open transaction sees them. -/
  tx : Option Db := none
  /-- The list at each window key. -/
  window : ℤ → List WindowMessage := fun _ => []
  /-- The instant at which a key expires, if it has one. -/
  deadline : ℤ → Option Timestamp := fun _ => none
  /-- The raw bucket under `interaction-windows/`. -/
  objects : WindowObjectKey → Option WindowObject := fun _ => none
  /-- `STREAM_INTERACTION_UPDATED`. -/
  interactionUpdated : List InteractionUpdatedEvent := []
  /-- `STREAM_DLQ_SUMMARIZER`. -/
  deadLetters : List StreamEntry := []
  /-- The entries that have been acknowledged. -/
  acked : List StreamEntry := []
  /-- The next identifier to be drawn. -/
  drawn : Ident := 0
  /-- How many calls have been made that may raise. -/
  calls : ℕ := 0

namespace World

variable (s : World)

/-- The tables a statement sees. -/
def tables : Db := s.tx.getD s.db

/-- A statement writes the tables it sees. -/
def setTables (db : Db) : World :=
  match s.tx with
  | some _ => { s with tx := some db }
  | none => { s with db }

/-- Overwrite the list and the deadline of a key. -/
def setWindow (tgChatId : ℤ) (messages : List WindowMessage) (deadline : Option Timestamp) :
    World :=
  { s with
    window := Function.update s.window tgChatId messages
    deadline := Function.update s.deadline tgChatId deadline }

/-- A statement that may insert a row draws an identifier for it. -/
def insert (db : Db) : World :=
  let s := s.setTables db
  { s with drawn := s.drawn + 1 }

/-- The clock shows `now`. -/
def «at» (now : Timestamp) : World := { s with now }

/-- The call has been made. -/
def tick : World := { s with calls := s.calls + 1 }

end World

/-- What the summarizer does not decide. -/
structure Env where
  /-- What the engine answers at the `n`-th call, if it answers. -/
  summarize : ℕ → List LlmWindowMessage → SummaryResult
  /-- Whether the `n`-th call raises, given what it calls. -/
  faults : ℕ → Cmd → Bool := fun _ _ => false
  /-- Whether keys expire. -/
  expires : Bool := false

/-- The commands that the surroundings never refuse. -/
def Cmd.infallible : Cmd → Bool
  | .rollback | .xack _ => true
  | _ => false

namespace Env

variable (env : Env)

/-- The list a command finds at a key. -/
def live (s : World) (tgChatId : ℤ) : List WindowMessage :=
  if env.expires = true ∧ (s.deadline tgChatId).any (· < s.now) then [] else s.window tgChatId

/-- What a command does if it does not raise. -/
def effect : (c : Cmd) → World → Ans c × World
  | .selectProcessed eventId, s => (s.tables.isProcessed eventId, s)
  | .insertProcessed eventId, s => ((), s.setTables (s.tables.insertProcessed s.now eventId))
  | .lindexLast chat, s => ((env.live s chat).getLast?, s)
  | .lrange chat, s => (env.live s chat, s)
  | .rpush chat entries, s =>
    ((), s.setWindow chat (env.live s chat ++ entries)
      (if env.live s chat = [] then none else s.deadline chat))
  | .llen chat, s => ((env.live s chat).length, s)
  | .expire chat ttl, s =>
    ((), if env.live s chat = [] then s
      else s.setWindow chat (s.window chat) (some (s.now + ttl)))
  | .delete chat, s => ((), s.setWindow chat [] none)
  | .summarize messages, s => (env.summarize s.calls messages, s)
  | .begin, s => ((), { s with tx := some s.db })
  | .commit, s => ((), { s with db := s.tables, tx := none })
  | .rollback, s => ((), { s with tx := none })
  | .upsertChat tgChatId, s =>
    (s.tables.chatId tgChatId s.drawn, s.insert (s.tables.upsertChat s.drawn tgChatId))
  | .updateChat chatId kind title, s => ((), s.setTables (s.tables.updateChat chatId kind title))
  | .upsertPerson tgUserId displayName, s =>
    (s.tables.personId tgUserId s.drawn,
      s.insert (s.tables.upsertPerson s.now s.drawn tgUserId displayName))
  | .selectTasks tgChatId messageIds, s => (s.tables.selectTasks tgChatId messageIds, s)
  | .selectInteraction chatId windowStart, s => (s.tables.selectInteraction chatId windowStart, s)
  | .updateInteraction id createdAt columns, s =>
    ((), s.setTables (s.tables.updateInteraction id createdAt columns))
  | .insertInteraction chatId windowStart columns, s =>
    (s.drawn, s.insert
      (s.tables.insertInteraction (columns.fresh s.now s.drawn chatId windowStart)))
  | .putObject key body, s => ((), { s with objects := Function.update s.objects key (some body) })
  | .setObjectRef interactionId sourceObjectRef, s =>
    ((), s.setTables (s.tables.setObjectRef interactionId sourceObjectRef))
  | .xaddInteraction event, s =>
    ((), { s with interactionUpdated := s.interactionUpdated ++ [event] })
  | .xaddDeadLetter entry, s => ((), { s with deadLetters := s.deadLetters ++ [entry] })
  | .xack entry, s => ((), { s with acked := s.acked ++ [entry] })

/-- A call that raises has no effect. -/
def run : Handler Cmd Ans Exc World := fun c s =>
  if !c.infallible && env.faults s.calls c then (.error .callFailed, s.tick)
  else (.ok (env.effect c s).1, (env.effect c s).2.tick)

/-- One entry, delivered at the time `now`. -/
def deliver (settings : Settings) (s : World) (delivery : StreamEntry × Timestamp) : World :=
  (exec env.run (handleEntry settings delivery.1) (s.at delivery.2)).2

end Env

end Summarizer
end PersonalIntelligence
