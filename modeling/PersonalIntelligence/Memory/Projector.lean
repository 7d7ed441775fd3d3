import PersonalIntelligence.Library.PyText
import PersonalIntelligence.Library.Resumption
import PersonalIntelligence.Memory.Stores
import Mathlib.Data.List.Sort

/-!
# `memory_projector/consumer.py`

The projector writes the result of an analysis to every store.  `_handle_projection`
writes the canonical tables and the artifact in one Postgres transaction, then the graph,
then it publishes an embedding job and an update event; `run` acknowledges the entry
whatever became of it.

The functions are programs over `Cmd`, one command for each SQL statement and for each
call of another store.  `Env.run` is what the commands do to a `World`.  Every call may
raise, but for two: a rollback, which the server makes by itself if the client cannot,
and the acknowledgement.
-/

namespace PersonalIntelligence
namespace Memory

open PyText Resumption

/-- The settings the projector reads. -/
structure Settings where
  ownerTgUserIds : List ℤ := []
  ownerUsernames : String := ""
  ownerDisplayNames : String := ""
  ownerPrimaryDisplayName : String := ""
  embeddingProvider : String := "wormsoft"
  embeddingModel : String := "qwen/qwen3-embedding:8b"
  embeddingAlias : String := "pil_memory_active"
  /-- There is a password, and so there is a driver. -/
  neo4jEnabled : Bool := false
  /-- `s3.is_configured`. -/
  s3Configured : Bool := false
  deriving DecidableEq, Repr

def consumerName : String := "memory-projector"

/-! ## Commands -/

/-- The calls the projector waits for. -/
inductive Cmd where
  | selectProcessed (eventId : Ident)
  | begin
  | commit
  | rollback
  | upsertChat (tgChatId : ℤ) (kind : ChatType) (title : Option String)
  | upsertPerson (person : PersonUpsert)
  | insertMembership (row : ChatMembership)
  | upsertWindow (window : AnalysisWindow)
  | deleteFacts (windowId : Ident)
  | insertFact (row : ExtractedFact)
  | deleteSignals (windowId : Ident)
  | insertSignal (row : AnalyticsSignalRow)
  | selectOwner
  | findTask (chatId : Ident) (evidenceMessageId : ℤ)
  | updateTask (id : Ident) (columns : TaskUpdate)
  | insertTask (chatId : Ident) (ref : SourceMessageRef) (columns : TaskUpdate)
  | putRaw (key : ArtifactKey) (body : Artifact)
  | selectInteraction (chatId : Ident) (windowStart : Timestamp)
  | updateInteraction (id : Ident) (createdAt : Timestamp) (columns : InteractionUpdate)
  | insertInteraction (chatId : Ident) (windowStart : Timestamp) (columns : InteractionUpdate)
  | insertAuditLog (row : AuditLog)
  | insertProcessed (eventId : Ident)
  | executeWrite (statements : List GraphStatement)
  | xaddEmbedding (job : Publication EmbeddingJob)
  | xaddInteraction (event : Publication InteractionUpdatedEvent)
  | xack (entry : StreamEntry)
  deriving DecidableEq, Repr

/-- What each command answers. -/
abbrev Ans : Cmd → Type
  | .selectProcessed _ => Bool
  | .upsertChat _ _ _ | .upsertPerson _ | .upsertWindow _ | .insertTask _ _ _
  | .insertInteraction _ _ _ => Ident
  | .selectOwner | .findTask _ _ => Option Ident
  | .selectInteraction _ _ => Option (Ident × Timestamp)
  | _ => Unit

/-- A handler of the projector. -/
abbrev Projecting := Prog Cmd Ans Exc

/-- One command, awaited where it stands. -/
abbrev await (c : Cmd) : Projecting (Ans c) := Prog.perform c

/-- `async with conn.transaction()`. -/
def transaction {α : Type} (body : Projecting α) : Projecting α :=
  Prog.transaction (await .begin) (await .commit) (await .rollback) body

/-! ## The owner -/

section Owner

variable [CharData] (settings : Settings)

/-- `str.lstrip("@")`. -/
def lstripAt (s : String) : String := String.ofList (s.toList.dropWhile (· = '@'))

/-- `Settings.owner_username_set`. -/
def Settings.ownerUsernameSet : List String :=
  ((settings.ownerUsernames.splitOn ",").filter fun item => !isBlank item).map fun item =>
    casefold (lstripAt (strip item))

/-- `Settings.owner_display_name_set`. -/
def Settings.ownerDisplayNameSet : List String :=
  ((settings.ownerDisplayNames.splitOn ",").filter fun item => !isBlank item).map fun item =>
    casefold (strip item)

/-- `_matches_owner_identity`. -/
def matchesOwnerIdentity (tgUserId : ℤ) (username displayName : Option String) : Bool :=
  let normalizedUsername := casefold (lstripAt (strip (username.getD "")))
  let normalizedDisplayName := casefold (strip (displayName.getD ""))
  settings.ownerTgUserIds.contains tgUserId ||
    (!normalizedUsername.isEmpty && settings.ownerUsernameSet.contains normalizedUsername) ||
    (!normalizedDisplayName.isEmpty &&
      settings.ownerDisplayNameSet.contains normalizedDisplayName)

end Owner

/-! ## The transaction -/

/-- `_ensure_chat`. -/
def ensureChat (command : ProjectionCommand) : Projecting Ident :=
  let title := command.messages.findSome? fun message =>
    message.tgSenderName.filter fun name => !name.isEmpty
  await (.upsertChat command.tgChatId command.features.chatType title)

section Project

variable [CharData] (settings : Settings)

/-- The columns that `_ensure_person` writes for the sender of a message. -/
def personUpsert (tgUserId : ℤ) (message : WindowMessagePayload) (topics : List String) :
    PersonUpsert :=
  let isOwner := matchesOwnerIdentity settings tgUserId message.tgSenderUsername
    message.tgSenderName
  let effectiveDisplayName := match message.tgSenderName with
    | some name => if name.isEmpty then s!"tg:{tgUserId}" else name
    | none => s!"tg:{tgUserId}"
  { tgUserId
    username := message.tgSenderUsername
    displayName := if isOwner && !isBlank settings.ownerPrimaryDisplayName then
      strip settings.ownerPrimaryDisplayName else effectiveDisplayName
    topics
    lastInteractionAt := message.occurredAt
    isOwner }

/-- `participant_map`: the persons of the senders, in the order of their first messages. -/
abbrev ParticipantMap := List (ℤ × Ident)

/-- The loop of `_ensure_participants`. -/
def ensureParticipantsFrom (chatId : Ident) (topics : List String) :
    List WindowMessagePayload → ParticipantMap → Projecting ParticipantMap
  | [], participantMap => pure participantMap
  | message :: rest, participantMap =>
    match message.tgSenderId with
    | none => ensureParticipantsFrom chatId topics rest participantMap
    | some sender =>
      if sender ∈ participantMap.map (·.1) then
        ensureParticipantsFrom chatId topics rest participantMap
      else do
        let personId ← await (.upsertPerson (personUpsert settings sender message topics))
        await (.insertMembership ⟨chatId, personId⟩)
        ensureParticipantsFrom chatId topics rest (participantMap ++ [(sender, personId)])

/-- `_ensure_participants`. -/
def ensureParticipants (chatId : Ident) (command : ProjectionCommand) :
    Projecting ParticipantMap :=
  ensureParticipantsFrom settings chatId (command.result.topics.take 8) command.messages []

end Project

/-- `command.messages[0]` and `command.messages[-1]`. -/
def windowBounds (command : ProjectionCommand) :
    Projecting (WindowMessagePayload × WindowMessagePayload) :=
  match command.messages with
  | [] => throw .index
  | head :: rest => pure (head, (head :: rest).getLast (List.cons_ne_nil _ _))

/-- `_upsert_analysis_window`. -/
def upsertAnalysisWindow (chatId : Ident) (participantMap : ParticipantMap)
    (command : ProjectionCommand) : Projecting Ident := do
  let (head, last) ← windowBounds command
  await (.upsertWindow
    { id := command.sourceWindowId
      chatId
      tgChatId := command.tgChatId
      sourceMessageIds := command.messages.map (·.tgMessageId)
      participantTgIds := (participantMap.map (·.1)).insertionSort (· ≤ ·)
      chatType := command.features.chatType
      windowStart := head.occurredAt
      windowEnd := last.occurredAt
      messages := command.messages
      features := command.features
      analysisPayload := command.result
      summary := command.result.summary
      confidence := command.result.confidence })

/-- The row of a claim. -/
def factRow (windowId sourceWindowId : Ident) (claim : StructuredClaim) : ExtractedFact where
  windowId
  factType := claim.kind
  subjectText := claim.subject
  predicate := claim.predicate
  objectText := claim.object
  claimText := claim.claim
  confidence := claim.confidence
  evidenceMessageIds := claim.evidenceMessageIds
  caveats := claim.caveats
  sourceWindowId

/-- `_replace_facts`. -/
def replaceFacts (windowId : Ident) (command : ProjectionCommand) : Projecting Unit := do
  await (.deleteFacts windowId)
  forM command.result.claims fun claim =>
    await (.insertFact (factRow windowId command.sourceWindowId claim))

/-- The row of a signal. -/
def signalRow (windowId : Ident) (tgChatId : ℤ) (signal : AnalyticsSignal) :
    AnalyticsSignalRow where
  windowId
  tgChatId
  signalKind := signal.kind
  score := signal.score
  summary := signal.summary
  evidenceMessageIds := signal.evidenceMessageIds
  payload := signal.payload

/-- `_replace_signals`. -/
def replaceSignals (windowId : Ident) (command : ProjectionCommand) : Projecting Unit := do
  await (.deleteSignals windowId)
  forM command.result.analyticsSignals fun signal =>
    await (.insertSignal (signalRow windowId command.tgChatId signal))

/-- The first evidence of a task; `0` if it has none. -/
def evidenceId (task : StructuredTask) : ℤ := task.evidenceMessageIds.head?.getD 0

/-- The columns of a task. -/
def taskColumns (ownerPersonId firstCounterpart : Option Ident) (task : StructuredTask) :
    TaskUpdate where
  title := task.title
  description := task.description
  ownerPersonId
  counterpartPersonId := firstCounterpart
  dueAt := task.dueAt
  priority := task.priority
  confidence := task.confidence
  evidence := if task.caveats = [] then none else some ("; ".intercalate task.caveats)

/-- The loop of `_sync_tasks`. -/
def syncTasksFrom (chatId : Ident) (command : ProjectionCommand)
    (ownerPersonId firstCounterpart : Option Ident) :
    List StructuredTask → List Ident → Projecting (List Ident)
  | [], tasks => pure tasks
  | task :: rest, tasks => do
    let columns := taskColumns ownerPersonId firstCounterpart task
    match ← await (.findTask chatId (evidenceId task)) with
    | some existingId => do
      await (.updateTask existingId columns)
      syncTasksFrom chatId command ownerPersonId firstCounterpart rest (tasks ++ [existingId])
    | none => do
      let id ← await (.insertTask chatId
        ⟨command.tgChatId, evidenceId task, some command.sourceWindowId⟩ columns)
      syncTasksFrom chatId command ownerPersonId firstCounterpart rest (tasks ++ [id])

/-- `_sync_tasks`. -/
def syncTasks (chatId : Ident) (participantMap : ParticipantMap) (command : ProjectionCommand) :
    Projecting (List Ident) := do
  let ownerPersonId ← await .selectOwner
  syncTasksFrom chatId command ownerPersonId (participantMap.head?.map (·.2))
    command.result.tasks []

/-- The artifact of a window. -/
def artifact (windowId : Ident) (command : ProjectionCommand) : Artifact where
  sourceWindowId := windowId
  tgChatId := command.tgChatId
  messages := command.messages
  features := command.features
  analysis := command.result

/-- `_write_artifact`: `put_raw` returns the key it has written. -/
def writeArtifact (settings : Settings) (windowId : Ident) (command : ProjectionCommand) :
    Projecting (Option ArtifactKey) :=
  if settings.s3Configured then do
    await (.putRaw ⟨windowId⟩ (artifact windowId command))
    pure (some ⟨windowId⟩)
  else pure none

/-- `_upsert_interaction`. -/
def upsertInteraction (chatId : Ident) (participantIds taskIds : List Ident)
    (command : ProjectionCommand) (sourceObjectRef : Option ArtifactKey) : Projecting Ident := do
  let (head, last) ← windowBounds command
  let columns : InteractionUpdate :=
    { windowEnd := last.occurredAt
      participants := participantIds
      topics := command.result.topics
      sentiment := command.features.sentimentHint
      summary := command.result.summary
      tasks := taskIds
      sourceObjectRef }
  match ← await (.selectInteraction chatId head.occurredAt) with
  | some (id, createdAt) => do
    await (.updateInteraction id createdAt columns)
    pure id
  | none => await (.insertInteraction chatId head.occurredAt columns)

/-- `_write_audit_log`. -/
def writeAuditLog (command : ProjectionCommand) : Projecting Unit :=
  await (.insertAuditLog
    { actor := consumerName
      action := "project_analysis"
      target := .window command.sourceWindowId
      requestId := command.traceId
      payload := .projectAnalysis command.tgChatId command.sourceEventId command.result.topics })

/-- What the transaction of `_handle_projection` leaves in variables. -/
structure Projected where
  chatId : Ident
  participantMap : ParticipantMap
  windowId : Ident
  taskIds : List Ident
  interactionId : Ident
  deriving DecidableEq, Repr

def Projected.participantIds (p : Projected) : List Ident := p.participantMap.map (·.2)

section Handle

variable [CharData] (settings : Settings)

/-- The statements of the transaction, up to the mark. -/
def projectRows (command : ProjectionCommand) : Projecting Projected := do
  let chatId ← ensureChat command
  let participantMap ← ensureParticipants settings chatId command
  let windowId ← upsertAnalysisWindow chatId participantMap command
  replaceFacts windowId command
  replaceSignals windowId command
  let taskIds ← syncTasks chatId participantMap command
  let sourceObjectRef ← writeArtifact settings windowId command
  let interactionId ← upsertInteraction chatId (participantMap.map (·.2)) taskIds command
    sourceObjectRef
  writeAuditLog command
  pure { chatId, participantMap, windowId, taskIds, interactionId }

/-- The body of the transaction. -/
def projectBody (command : ProjectionCommand) : Projecting Projected := do
  let projected ← projectRows settings command
  await (.insertProcessed command.commandId)
  pure projected

/-! ## After the transaction -/

/-- `itertools.combinations(xs, 2)`. -/
def combinations {α : Type} : List α → List (α × α)
  | [] => []
  | x :: rest => rest.map (fun y => (x, y)) ++ combinations rest

/-- The statements of `_project_neo4j`. -/
def graphStatements (command : ProjectionCommand) (participantMap : ParticipantMap) :
    List GraphStatement :=
  .mergeChat command.tgChatId command.features.chatType ::
    (participantMap.map fun entry => .mergeParticipant entry.2 entry.1 command.tgChatId) ++
    ((combinations (participantMap.map (·.2))).map fun pair =>
      .mergeCommunication pair.1 pair.2 command.sourceWindowId) ++
    command.result.topics.flatMap fun topic =>
      .mergeTopic topic command.tgChatId ::
        participantMap.map fun entry => .mergeMentionedTopic entry.2 topic

/-- The `Literal` of `EmbeddingJob.profile_provider`. -/
def parseProvider : String → Option EmbeddingProvider
  | "wormsoft" => some .wormsoft
  | "polza" => some .polza
  | _ => none

/-- The `narrative_text` of a window. -/
def narrativeText (command : ProjectionCommand) : String :=
  let topics := if command.result.topics = [] then []
    else ["Темы: " ++ ", ".intercalate command.result.topics]
  let claims := if command.result.claims = [] then []
    else ["Факты: " ++ " ".intercalate ((command.result.claims.take 6).map (·.claim))]
  "\n".intercalate (([command.result.summary] ++ topics ++ claims).filter fun part => !isBlank part)

/-- `_build_embedding_job`. -/
def buildEmbeddingJob (command : ProjectionCommand) (projected : Projected) :
    Projecting EmbeddingJob :=
  match parseProvider settings.embeddingProvider with
  | none => throw .validation
  | some profileProvider => pure
    { sourceWindowId := command.sourceWindowId
      tgChatId := command.tgChatId
      analysisWindowId := projected.windowId
      personIds := projected.participantIds
      topicTags := command.result.topics
      narrativeText := narrativeText command
      profileProvider
      profileModel := settings.embeddingModel
      profileAlias := settings.embeddingAlias
      traceId := command.traceId }

/-- The `InteractionUpdatedEvent` of `_handle_projection`. -/
def buildInteractionEvent (command : ProjectionCommand) (projected : Projected) :
    Projecting InteractionUpdatedEvent := do
  let (head, last) ← windowBounds command
  pure
    { interactionId := projected.interactionId
      chatId := projected.chatId
      windowStart := head.occurredAt
      windowEnd := last.occurredAt
      participants := projected.participantIds
      topics := command.result.topics
      sentiment := command.features.sentimentHint
      summary := command.result.summary
      taskIds := projected.taskIds
      traceId := command.traceId }

/-- `_project_neo4j`, whose exceptions are logged. -/
def projectNeo4j (command : ProjectionCommand) (participantMap : ParticipantMap) :
    Projecting Unit :=
  if settings.neo4jEnabled then
    tryCatch (await (.executeWrite (graphStatements command participantMap))) fun _ => pure ()
  else pure ()

/-- The two publications of `_handle_projection`. -/
def publish (command : ProjectionCommand) (projected : Projected) : Projecting Unit := do
  let embeddingJob ← buildEmbeddingJob settings command projected
  await (.xaddEmbedding ⟨command.commandId, embeddingJob⟩)
  let interactionEvent ← buildInteractionEvent command projected
  await (.xaddInteraction ⟨command.commandId, interactionEvent⟩)

/-- `_handle_projection`. -/
def handleProjection (command : ProjectionCommand) : Projecting Unit := do
  if ← await (.selectProcessed command.commandId) then pure ()
  else do
    let projected ← transaction (projectBody settings command)
    projectNeo4j settings command projected.participantMap
    publish settings command projected

/-- `run`, for one entry: an exception is logged, and the entry is acknowledged. -/
def handleEntry (entry : StreamEntry) : Projecting Unit := do
  tryCatch (handleProjection settings entry.command) fun _ => pure ()
  await (.xack entry)

end Handle

/-! ## What the commands do -/

/-- What the projector does not decide: which calls raise, given how many were made. -/
structure Env where
  faults : ℕ → Cmd → Bool := fun _ _ => false

/-- The commands that the surroundings never refuse. -/
def Cmd.infallible : Cmd → Bool
  | .rollback | .xack _ => true
  | _ => false

/-- A statement that may insert a row draws an identifier for it. -/
def World.insert (s : World) (db : Db) : World := (s.setTables db).draw

/-- What a command does if it does not raise. -/
def World.effect : (c : Cmd) → World → Ans c × World
  | .selectProcessed eventId, s => (s.tables.isProcessed consumerName eventId, s)
  | .begin, s => ((), { s with tx := some s.db })
  | .commit, s => ((), { s with db := s.tables, tx := none })
  | .rollback, s => ((), { s with tx := none })
  | .upsertChat tgChatId kind title, s =>
    (s.tables.chatId tgChatId s.drawn,
      s.insert (s.tables.upsertChat s.drawn tgChatId kind title))
  | .upsertPerson person, s =>
    (s.tables.personId person.tgUserId s.drawn,
      s.insert (s.tables.upsertPerson s.now s.drawn person))
  | .insertMembership row, s => ((), s.setTables (s.tables.insertMembership row))
  | .upsertWindow window, s => (window.id, s.setTables (s.tables.upsertWindow window))
  | .deleteFacts windowId, s => ((), s.setTables (s.tables.deleteFacts windowId))
  | .insertFact row, s => ((), s.setTables (s.tables.insertFact row))
  | .deleteSignals windowId, s => ((), s.setTables (s.tables.deleteSignals windowId))
  | .insertSignal row, s => ((), s.setTables (s.tables.insertSignal row))
  | .selectOwner, s => (s.tables.selectOwner, s)
  | .findTask chatId evidenceMessageId, s => (s.tables.findTask chatId evidenceMessageId, s)
  | .updateTask id columns, s => ((), s.setTables (s.tables.updateTask s.now id columns))
  | .insertTask chatId ref columns, s =>
    (s.drawn, s.insert (s.tables.insertTask (columns.fresh s.now s.drawn chatId ref)))
  | .putRaw key body, s => ((), { s with objects := Function.update s.objects key (some body) })
  | .selectInteraction chatId windowStart, s => (s.tables.selectInteraction chatId windowStart, s)
  | .updateInteraction id createdAt columns, s =>
    ((), s.setTables (s.tables.updateInteraction id createdAt columns))
  | .insertInteraction chatId windowStart columns, s =>
    (s.drawn, s.insert
      (s.tables.insertInteraction (columns.fresh s.now s.drawn chatId windowStart)))
  | .insertAuditLog row, s => ((), s.setTables (s.tables.insertAuditLog row))
  | .insertProcessed eventId, s =>
    ((), s.setTables (s.tables.insertProcessed s.now consumerName eventId))
  | .executeWrite statements, s => ((), { s with graph := s.graph.executeWrite statements })
  | .xaddEmbedding job, s => ((), { s with embeddingRequested := s.embeddingRequested ++ [job] })
  | .xaddInteraction event, s =>
    ((), { s with interactionUpdated := s.interactionUpdated ++ [event] })
  | .xack entry, s => ((), { s with acked := s.acked ++ [entry] })

namespace Env

variable (env : Env)

/-- A call that raises has no effect. -/
def run : Handler Cmd Ans Exc World := fun c s =>
  if !c.infallible && env.faults s.calls c then (.error .callFailed, s.tick)
  else (.ok (s.effect c).1, (s.effect c).2.tick)

/-- One entry, delivered at the time `now`. -/
def deliver [CharData] (settings : Settings) (s : World) (delivery : StreamEntry × Timestamp) :
    World := (exec env.run (handleEntry settings delivery.1) (s.at delivery.2)).2

/-- A sequence of deliveries; an entry may be delivered again. -/
def deliverAll [CharData] (settings : Settings) (s : World)
    (deliveries : List (StreamEntry × Timestamp)) : World :=
  deliveries.foldl (env.deliver settings) s

end Env

end Memory
end PersonalIntelligence
