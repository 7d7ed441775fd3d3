import PersonalIntelligence.Library.Resumption
import PersonalIntelligence.Memory.Stores
import PersonalIntelligence.Tasks.Statements

/-!
# `task_extractor/consumer.py`

The extractor turns messages into tasks.  A message may resolve the task it replies to, or
become a task of its own; an edit rewrites the open task of the message, and a deletion
drops it.  Each of these writes a row, publishes an event and marks the message, and no
transaction holds the three together.

The functions are programs over `Cmd`, one command for each SQL statement and each call of
Redis.  Every call may raise but the acknowledgement.  The extractor shares the tables of
the memory projector.
-/

namespace PersonalIntelligence
namespace Tasks

open PyText Resumption
open Memory (Db Task)

/-- The settings the extractor reads. -/
structure Settings where
  taskMinConfidence : ℚ := 4 / 10
  deriving DecidableEq, Repr

def consumerName : String := "task-extractor"

/-- The `data` of a stream entry, by the stream it is in. -/
inductive Payload where
  | message (event : TelegramMessageEvent)
  | messageEdited (event : TelegramMessageEditedEvent)
  | messageDeleted (event : TelegramMessageDeletedEvent)
  /-- `model_validate_json` rejects it. -/
  | malformed
  /-- It is in a stream that is none of the three. -/
  | unknownStream
  deriving DecidableEq, Repr

structure StreamEntry where
  msgId : Ident
  payload : Payload
  deriving DecidableEq, Repr

/-- An entry of `STREAM_DLQ_TASK`. -/
structure DeadLetter where
  entry : StreamEntry
  error : Exc
  deriving DecidableEq, Repr

/-! ## Commands -/

/-- The calls the extractor waits for. -/
inductive Cmd where
  | selectProcessed (eventId : Ident)
  | insertProcessed (eventId : Ident)
  | resolveTask (resolvedAt : Timestamp) (tgChatId tgMessageId : ℤ)
  | findTask (tgChatId tgMessageId : ℤ)
  | upsertChat (tgChatId : ℤ) (kind : ChatType) (title : Option String)
  | upsertPerson (person : SenderUpsert)
  | selectOwner
  | insertTask (new : NewTask)
  | selectSides (taskId : Ident)
  | editTask (taskId : Ident) (candidate : TaskCandidate)
  | dropTasks (tgChatId : ℤ) (tgMessageIds : List ℤ)
  | xaddCreated (event : TaskCreatedEvent)
  | xaddResolved (event : TaskResolvedEvent)
  | xaddDeadLetter (letter : DeadLetter)
  | xack (entry : StreamEntry)
  deriving DecidableEq, Repr

/-- What each command answers.  `fetchrow` returns the first row of an `UPDATE`. -/
abbrev Ans : Cmd → Type
  | .selectProcessed _ => Bool
  | .resolveTask _ _ _ | .findTask _ _ | .selectOwner => Option Ident
  | .upsertChat _ _ _ | .upsertPerson _ | .insertTask _ => Ident
  | .selectSides _ => Option (Option Ident × Option Ident)
  | .dropTasks _ _ => List Ident
  | _ => Unit

/-- A handler of the extractor. -/
abbrev Extracting := Prog Cmd Ans Exc

/-- One command, awaited where it stands. -/
abbrev await (c : Cmd) : Extracting (Ans c) := Prog.perform c

/-! ## Creating a task -/

/-- `_ensure_person`. -/
def ensurePerson (event : TelegramMessageEvent) : Extracting (Option Ident) :=
  match event.tgSenderId with
  | none => pure none
  | some tgUserId => do
    let displayName := match event.tgSenderName with
      | some name => if name.isEmpty then s!"tg:{tgUserId}" else name
      | none => s!"tg:{tgUserId}"
    let id ← await (.upsertPerson ⟨tgUserId, event.tgSenderUsername, displayName⟩)
    pure (some id)

/-- The owner and the counterpart of a task: who promises is the owner, and who is asked
is the owner of the account. -/
def sides (kind : TaskKind) (senderPersonId ownerRecordId : Option Ident) :
    Option Ident × Option Ident :=
  match kind with
  | .request =>
    let ownerPersonId := ownerRecordId.or senderPersonId
    (ownerPersonId, if ownerPersonId ≠ senderPersonId then senderPersonId else none)
  | .promise =>
    (senderPersonId,
      if senderPersonId.isSome ∧ ownerRecordId.isSome ∧ senderPersonId ≠ ownerRecordId then
        ownerRecordId else none)

/-- `_create_task`. -/
def createTask (event : TelegramMessageEvent) (candidate : TaskCandidate) : Extracting Ident := do
  let chatId ← await (.upsertChat event.tgChatId event.chatType event.chatTitle)
  let senderPersonId ← ensurePerson event
  let ownerRecordId ← await .selectOwner
  let (ownerPersonId, counterpartPersonId) := sides candidate.kind senderPersonId ownerRecordId
  await (.insertTask
    { candidate
      ownerPersonId
      counterpartPersonId
      chatId
      tgChatId := event.tgChatId
      tgMessageId := event.tgMessageId })

/-- `_build_task_created_event`. -/
def buildTaskCreatedEvent (taskId : Ident) (event : TelegramMessageEvent)
    (candidate : TaskCandidate) : Extracting TaskCreatedEvent := do
  let row ← await (.selectSides taskId)
  pure
    { taskId
      title := candidate.title
      ownerPersonId := row.bind (·.1)
      counterpartPersonId := row.bind (·.2)
      dueAt := candidate.dueAt.map (·.instant)
      sourceMessageRef := (event.tgChatId, event.tgMessageId)
      confidence := candidate.confidence
      evidence := some candidate.evidence
      traceId := event.traceId }

/-- What follows in `_handle_message` once the message is known to be a task. -/
def publishTask (event : TelegramMessageEvent) (candidate : TaskCandidate) : Extracting Unit := do
  let createdTaskId ← createTask event candidate
  let createdEvent ← buildTaskCreatedEvent createdTaskId event candidate
  await (.xaddCreated createdEvent)
  await (.insertProcessed event.eventId)

/-! ## Resolving a task -/

/-- `_resolve_replied_task`.  The id `0` is no reply. -/
def resolveRepliedTask (event : TelegramMessageEvent) (evidence : String) :
    Extracting (Option Ident) :=
  match event.replyToMessageId.filter (· ≠ 0) with
  | none => pure none
  | some replyToMessageId => do
    match ← await (.resolveTask event.occurredAt event.tgChatId replyToMessageId) with
    | none => pure none
    | some taskId => do
      await (.xaddResolved
        { taskId
          resolution := .done
          evidence := some (upTo evidence 400)
          traceId := event.traceId })
      pure (some taskId)

/-! ## Handlers -/

/-- The check every handler begins with. -/
def unlessProcessed (eventId : Ident) (body : Extracting Unit) : Extracting Unit := do
  if ← await (.selectProcessed eventId) then pure () else body

section Handlers

variable [CharData] (settings : Settings) (searchDates : SearchDates)

/-- The part of `_handle_message` that looks for a task.  The event has a time, so the
clock is not asked. -/
def extractTask (event : TelegramMessageEvent) (text : String) : Extracting Unit :=
  match extractTaskCandidate searchDates event.occurredAt text
      (some ⟨event.occurredAt, some 0⟩) with
  | none => await (.insertProcessed event.eventId)
  | some candidate =>
    if candidate.confidence < settings.taskMinConfidence then
      await (.insertProcessed event.eventId)
    else do
      match ← await (.findTask event.tgChatId event.tgMessageId) with
      | some _ => await (.insertProcessed event.eventId)
      | none => publishTask event candidate

/-- The part of `_handle_message` that looks for a resolution. -/
def resolveTask (event : TelegramMessageEvent) (text : String) : Extracting (Option Ident) :=
  if detectResolution text then resolveRepliedTask event text else pure none

/-- What `_handle_message` does with a message that is new. -/
def processMessage (event : TelegramMessageEvent) (text : String) : Extracting Unit := do
  match ← resolveTask event text with
  | some _ => await (.insertProcessed event.eventId)
  | none => extractTask settings searchDates event text

/-- `_handle_message`. -/
def handleMessage (event : TelegramMessageEvent) : Extracting Unit :=
  let text := strip (event.text.getD "")
  if text.isEmpty then pure ()
  else unlessProcessed event.eventId (processMessage settings searchDates event text)

omit [CharData] in
/-- The `UPDATE` of `_handle_message_edited`, if the new text is a task. -/
def rewriteTask (existingId : Ident) : Option TaskCandidate → Extracting Unit
  | some candidate => await (.editTask existingId candidate)
  | none => pure ()

/-- What `_handle_message_edited` does with an edit that is new. -/
def processEdit (event : TelegramMessageEditedEvent) (text : String) : Extracting Unit := do
  match ← await (.findTask event.tgChatId event.tgMessageId) with
  | none => await (.insertProcessed event.eventId)
  | some existingId => do
    rewriteTask existingId (extractTaskCandidate searchDates event.occurredAt text
      (some ⟨event.occurredAt, some 0⟩))
    await (.insertProcessed event.eventId)

/-- `_handle_message_edited`. -/
def handleMessageEdited (event : TelegramMessageEditedEvent) : Extracting Unit :=
  let text := strip (event.newText.getD "")
  if text.isEmpty then pure ()
  else unlessProcessed event.eventId (processEdit searchDates event text)

omit [CharData] in
/-- The event of a task whose message was deleted. -/
def droppedEvent (event : TelegramMessageDeletedEvent) (taskId : Ident) : TaskResolvedEvent where
  taskId
  resolution := .dropped
  evidence := some "source message deleted"
  traceId := event.traceId

omit [CharData] in
/-- What `_handle_message_deleted` does with a deletion that is new. -/
def processDeletion (event : TelegramMessageDeletedEvent) : Extracting Unit := do
  let rows ← await (.dropTasks event.tgChatId event.tgMessageIds)
  forM rows fun taskId => await (.xaddResolved (droppedEvent event taskId))
  await (.insertProcessed event.eventId)

omit [CharData] in
/-- `_handle_message_deleted`. -/
def handleMessageDeleted (event : TelegramMessageDeletedEvent) : Extracting Unit :=
  if event.tgMessageIds = [] then pure ()
  else unlessProcessed event.eventId (processDeletion event)

/-- `_process_stream`. -/
def processStream : Payload → Extracting Unit
  | .message event => handleMessage settings searchDates event
  | .messageEdited event => handleMessageEdited searchDates event
  | .messageDeleted event => handleMessageDeleted event
  | .malformed => throw .validation
  | .unknownStream => pure ()

/-- `run`, for one entry: an exception sends it to the dead letters, if that succeeds, and
the entry is acknowledged. -/
def handleEntry (entry : StreamEntry) : Extracting Unit := do
  tryCatch (processStream settings searchDates entry.payload) fun error =>
    tryCatch (await (.xaddDeadLetter ⟨entry, error⟩)) fun _ => pure ()
  await (.xack entry)

end Handlers

/-! ## What the commands do -/

/-- The stores: those of the memory projector, and the streams of the extractor. -/
structure World where
  store : Memory.World := {}
  taskCreated : List TaskCreatedEvent := []
  taskResolved : List TaskResolvedEvent := []
  deadLetters : List DeadLetter := []
  acked : List StreamEntry := []
  /-- The rows that events have closed, and how.  Nothing reads it but what is said about
  the published events. -/
  closed : List (Ident × Resolution) := []

namespace World

variable (s : World)

/-- The tables, which every statement commits. -/
abbrev db : Db := s.store.db

def setDb (db : Db) : World := { s with store := { s.store with db } }

/-- A statement that may insert a row draws an identifier for it. -/
def insert (db : Db) : World := { s with store := { s.store with db, drawn := s.store.drawn + 1 } }

/-- A statement closes the open rows with a property. -/
def close (resolution : Resolution) (p : Task → Bool) (change : Task → Task) : World :=
  { s with
    store := { s.store with db := closeTasks p change s.db }
    closed := s.closed ++ (openRows p s.db.task).map fun row => (row.id, resolution) }

/-- The call has been made. -/
def tick : World := { s with store := s.store.tick }

/-- The clock shows `now`. -/
def «at» (now : Timestamp) : World := { s with store := s.store.at now }

end World

/-- The stores with an empty task table, and no event yet. -/
def World.withoutTasks (store : Memory.World) : World where
  store := { store with db := { store.db with task := [] }, tx := none }

/-- Of one of the messages of a chat. -/
def ofMessages (tgChatId : ℤ) (tgMessageIds : List ℤ) (row : Task) : Bool :=
  row.sourceMessageRef.tgChatId = tgChatId && tgMessageIds.contains row.sourceMessageRef.tgMessageId

/-- What a command does if it does not raise. -/
def World.effect : (c : Cmd) → World → Ans c × World
  | .selectProcessed eventId, s => (s.db.isProcessed consumerName eventId, s)
  | .insertProcessed eventId, s =>
    ((), s.setDb (s.db.insertProcessed s.store.now consumerName eventId))
  | .resolveTask resolvedAt tgChatId tgMessageId, s =>
    ((openRows (OfMessage tgChatId tgMessageId ·) s.db.task).head?.map (·.id),
      s.close .done (OfMessage tgChatId tgMessageId ·) (resolved resolvedAt s.store.now))
  | .findTask tgChatId tgMessageId, s => (findTaskBySource s.db tgChatId tgMessageId, s)
  | .upsertChat tgChatId kind title, s =>
    (s.db.chatId tgChatId s.store.drawn,
      s.insert (s.db.upsertChat s.store.drawn tgChatId kind title))
  | .upsertPerson person, s =>
    (s.db.personId person.tgUserId s.store.drawn,
      s.insert (upsertSender s.db s.store.now s.store.drawn person))
  | .selectOwner, s => (s.db.selectOwner, s)
  | .insertTask new, s =>
    (s.store.drawn, s.insert (s.db.insertTask (new.fresh s.store.now s.store.drawn)))
  | .selectSides taskId, s => (selectSides s.db taskId, s)
  | .editTask taskId candidate, s => ((), s.setDb (editTask s.db s.store.now taskId candidate))
  | .dropTasks tgChatId tgMessageIds, s =>
    ((openRows (ofMessages tgChatId tgMessageIds) s.db.task).map (·.id),
      s.close .dropped (ofMessages tgChatId tgMessageIds) (dropped s.store.now))
  | .xaddCreated event, s => ((), { s with taskCreated := s.taskCreated ++ [event] })
  | .xaddResolved event, s => ((), { s with taskResolved := s.taskResolved ++ [event] })
  | .xaddDeadLetter letter, s => ((), { s with deadLetters := s.deadLetters ++ [letter] })
  | .xack entry, s => ((), { s with acked := s.acked ++ [entry] })

/-- What the extractor does not decide: which calls raise, given how many were made. -/
structure Env where
  faults : ℕ → Cmd → Bool := fun _ _ => false

/-- The commands that the surroundings never refuse. -/
def Cmd.infallible : Cmd → Bool
  | .xack _ => true
  | _ => false

namespace Env

variable (env : Env)

/-- A call that raises has no effect. -/
def run : Handler Cmd Ans Exc World := fun c s =>
  if !c.infallible && env.faults s.store.calls c then (.error .callFailed, s.tick)
  else (.ok (s.effect c).1, (s.effect c).2.tick)

/-- One entry, delivered at the time `now`. -/
def deliver [CharData] (settings : Settings) (searchDates : SearchDates) (s : World)
    (delivery : StreamEntry × Timestamp) : World :=
  (exec env.run (handleEntry settings searchDates delivery.1) (s.at delivery.2)).2

/-- A sequence of deliveries; what is in the dead letters may be delivered again. -/
def deliverAll [CharData] (settings : Settings) (searchDates : SearchDates) (s : World)
    (deliveries : List (StreamEntry × Timestamp)) : World :=
  deliveries.foldl (env.deliver settings searchDates) s

end Env

end Tasks
end PersonalIntelligence
