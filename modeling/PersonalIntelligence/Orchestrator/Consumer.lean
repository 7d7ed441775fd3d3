import PersonalIntelligence.Library.Resumption
import PersonalIntelligence.Library.Table
import PersonalIntelligence.Orchestrator.Graph

/-!
# `ai_orchestrator/consumer.py`

The consumer of Telegram messages.  `_handle_message` keeps one Redis list per chat:
a message is marked processed in Postgres, the list is flushed if it has been silent
for too long, the message is pushed, and the list is flushed if it is full.  A flush
analyses the list, publishes to four streams and deletes the list.

The functions are programs over `Cmd`, the single commands that Redis and Postgres
execute atomically; each is one `await` of the source.  `Env.run` is what the
commands do to a `World`.

Three things are left to the environment.  The reply of the analysis is any function
of the call.  `faults` says which of the calls of a flush raise: the analysis, each
`XADD` and the `DEL`.  (A failing `LRANGE` of a flush leaves nothing behind, and so is
the failure of the analysis after it.)  `expires` switches the expiry of keys on; a
key is gone once the clock has passed its deadline.
-/

namespace PersonalIntelligence
namespace Orchestrator

open PyText Resumption

/-- The settings the consumer reads. -/
structure Settings where
  windowStrategy : String := "hybrid"
  analysisWindowSize : ℤ := 20
  analysisTimeWindowMinutes : ℤ := 60
  deriving DecidableEq, Repr

def consumerName : String := "ai-orchestrator"

/-- A row of `processed_event`.  The three columns are its primary key. -/
structure ProcessedEvent where
  consumerName : String
  eventId : Ident
  processedAt : Timestamp
  deriving DecidableEq, Repr

/-- An entry of one of the four streams the consumer writes. -/
inductive StreamEntry where
  /-- `STREAM_TELEGRAM_PREPROCESSED`. -/
  | preprocessed (event : TelegramPreprocessedEvent)
  /-- `STREAM_AI_ANALYSIS_COMPLETED`. -/
  | completed (event : AIAnalysisCompletedEvent)
  /-- `STREAM_AI_ANALYTICS_SIGNAL`. -/
  | signal (event : AnalyticsSignalEvent)
  /-- `STREAM_AI_PROJECTION_COMMAND`. -/
  | projection (command : ProjectionCommand)
  deriving DecidableEq, Repr

/-! ## Commands -/

/-- The commands the consumer waits for.  A window key is named by its chat. -/
inductive Cmd where
  /-- `SELECT 1 FROM processed_event WHERE ... LIMIT 1`. -/
  | selectProcessed (eventId : Ident)
  /-- `INSERT INTO processed_event ... ON CONFLICT DO NOTHING`. -/
  | insertProcessed (eventId : Ident)
  | lrange (tgChatId : ℤ)
  | rpush (tgChatId : ℤ) (payload : WindowMessagePayload)
  | expire (tgChatId : ℤ) (ttl : ℤ)
  | llen (tgChatId : ℤ)
  | delete (tgChatId : ℤ)
  | uuid4
  | ainvoke (input : AnalysisInput)
  | xadd (entry : StreamEntry)
  deriving DecidableEq, Repr

/-- What each command answers. -/
abbrev Ans : Cmd → Type
  | .selectProcessed _ => Bool
  | .lrange _ => List WindowMessagePayload
  | .llen _ => ℕ
  | .uuid4 => Ident
  | .ainvoke _ => AnalysisState
  | _ => Unit

/-- A handler of the consumer. -/
abbrev Handling := Prog Cmd Ans Exc

/-- One command, awaited where it stands. -/
abbrev await (c : Cmd) : Handling (Ans c) := Prog.perform c

/-! ## The handlers -/

/-- `_is_processed`. -/
def isProcessed (eventId : Ident) : Handling Bool := await (.selectProcessed eventId)

/-- `_mark_processed`. -/
def markProcessed (eventId : Ident) : Handling Unit := await (.insertProcessed eventId)

/-- `_load_window_messages`. -/
def loadWindowMessages (tgChatId : ℤ) : Handling (List WindowMessagePayload) :=
  await (.lrange tgChatId)

/-- The time to live of a window key, `max(minutes * 60, 3600)` seconds. -/
def windowTtl (settings : Settings) : ℤ :=
  seconds (max (settings.analysisTimeWindowMinutes * 60) 3600)

/-- `_store_window_message`. -/
def storeWindowMessage (settings : Settings) (tgChatId : ℤ) (payload : WindowMessagePayload) :
    Handling ℕ := do
  await (.rpush tgChatId payload)
  await (.expire tgChatId (windowTtl settings))
  await (.llen tgChatId)

/-- `_delete_window`. -/
def deleteWindow (tgChatId : ℤ) : Handling Unit := await (.delete tgChatId)

/-- `build_window_id`. -/
def buildWindowId : Handling Ident := await .uuid4

/-- The `TelegramPreprocessedEvent` of `_run_analysis`. -/
def preprocessedEvent (input : AnalysisInput) (state : AnalysisState) :
    TelegramPreprocessedEvent where
  sourceEventId := input.sourceEventId
  tgChatId := input.tgChatId
  sourceWindowId := input.sourceWindowId
  messages := input.messages
  features := state.features
  traceId := input.traceId

/-- The `AIAnalysisCompletedEvent` of `_run_analysis`. -/
def completedEvent (input : AnalysisInput) (state : AnalysisState) :
    AIAnalysisCompletedEvent where
  sourceEventId := input.sourceEventId
  tgChatId := input.tgChatId
  sourceWindowId := input.sourceWindowId
  result := state.result
  traceId := input.traceId

/-- An `AnalyticsSignalEvent` of `_run_analysis`. -/
def signalEvent (input : AnalysisInput) (signal : AnalyticsSignal) : AnalyticsSignalEvent where
  sourceWindowId := input.sourceWindowId
  tgChatId := input.tgChatId
  signal
  traceId := input.traceId

/-- `_run_analysis`. -/
def runAnalysis (input : AnalysisInput) : Handling Unit := do
  let state ← await (.ainvoke input)
  await (.xadd (.preprocessed (preprocessedEvent input state)))
  await (.xadd (.completed (completedEvent input state)))
  forM state.result.analyticsSignals fun signal =>
    await (.xadd (.signal (signalEvent input signal)))
  await (.xadd (.projection state.projectionCommand))

/-- The keyword arguments of `_flush_window` that an event supplies. -/
structure FlushRequest where
  tgChatId : ℤ
  sourceEventId : Ident
  chatType : ChatType
  traceId : Option String
  deriving DecidableEq, Repr

/-- The state a flush hands to the graph. -/
def FlushRequest.input (request : FlushRequest) (messages : List WindowMessagePayload)
    (sourceWindowId : Ident) : AnalysisInput where
  sourceEventId := request.sourceEventId
  sourceWindowId
  tgChatId := request.tgChatId
  chatType := request.chatType
  messages
  traceId := request.traceId

/-- `_flush_window`. -/
def flushWindow (request : FlushRequest) : Handling Unit := do
  let messages ← loadWindowMessages request.tgChatId
  if messages = [] then pure ()
  else do
    let sourceWindowId ← buildWindowId
    runAnalysis (request.input messages sourceWindowId)
    deleteWindow request.tgChatId

end Orchestrator

open Orchestrator

/-- `not (event.text or "").strip() and not event.media_type` fails: the event has
text or media. -/
def TelegramMessageEvent.accepted (event : TelegramMessageEvent) : Bool :=
  !(PyText.isBlank (event.text.getD "") && (event.mediaType.getD "").isEmpty)

/-- The `WindowMessagePayload` of an event. -/
def TelegramMessageEvent.payload (event : TelegramMessageEvent) : WindowMessagePayload where
  tgMessageId := event.tgMessageId
  tgSenderId := event.tgSenderId
  tgSenderName := event.tgSenderName
  tgSenderUsername := event.tgSenderUsername
  text := PyText.strip (event.text.getD "")
  replyToMessageId := event.replyToMessageId
  mediaType := event.mediaType
  isForwarded := event.isForwarded
  occurredAt := event.tgDate.getD event.occurredAt

/-- The flush an event asks for. -/
def TelegramMessageEvent.flushRequest (event : TelegramMessageEvent) : FlushRequest where
  tgChatId := event.tgChatId
  sourceEventId := event.eventId
  chatType := event.chatType
  traceId := event.traceId

@[simp] theorem TelegramMessageEvent.flushRequest_tgChatId (event : TelegramMessageEvent) :
    event.flushRequest.tgChatId = event.tgChatId := rfl

namespace Orchestrator

open PyText Resumption

/-- The last stored message and the new one are too far apart. -/
def rolloverDue (settings : Settings) (existingWindow : List WindowMessagePayload)
    (payload : WindowMessagePayload) : Bool :=
  existingWindow.getLast?.any fun lastMessage =>
    needsRollover lastMessage.occurredAt payload.occurredAt settings.windowStrategy
      settings.analysisTimeWindowMinutes

/-- `_handle_message`. -/
def handleMessage (settings : Settings) (event : TelegramMessageEvent) : Handling Unit :=
  if !event.accepted then pure ()
  else do
    if ← isProcessed event.eventId then pure ()
    else do
      markProcessed event.eventId
      let existingWindow ← loadWindowMessages event.tgChatId
      if rolloverDue settings existingWindow event.payload then
        flushWindow event.flushRequest
      let size ← storeWindowMessage settings event.tgChatId event.payload
      if settings.analysisWindowSize ≤ size then
        flushWindow event.flushRequest

/-- The `try` of `run` and of the backfill around one event: any exception is logged,
and the event is acknowledged all the same. -/
def attempt (handling : Handling Unit) : Handling Unit := tryCatch handling fun _ => pure ()

/-! ## The stores -/

/-- Redis and Postgres, as far as the consumer reads and writes them. -/
structure World where
  now : Timestamp := 0
  processedEvent : List ProcessedEvent := []
  /-- The list at each window key. -/
  window : ℤ → List WindowMessagePayload := fun _ => []
  /-- The instant at which a key expires, if it has one. -/
  deadline : ℤ → Option Timestamp := fun _ => none
  /-- The entries of the four streams, in the order they were added. -/
  log : List StreamEntry := []
  /-- The next identifier to be drawn. -/
  drawn : Ident := 0
  /-- How many calls have been made that may raise. -/
  calls : ℕ := 0

/-- What the consumer does not decide. -/
structure Env where
  /-- What the router answers at the `n`-th call, if it answers. -/
  analyze : ℕ → Ident → List WindowMessagePayload → MessageFeatureSet →
    StructuredAnalysisResult
  /-- Whether the `n`-th call raises, given what it calls. -/
  faults : ℕ → Cmd → Bool := fun _ _ => false
  /-- Whether keys expire. -/
  expires : Bool := false

namespace World

/-- The clock shows `now`. -/
def «at» (s : World) (now : Timestamp) : World := { s with now }

/-- The consumer has a row for the event. -/
def isProcessed (s : World) (eventId : Ident) : Bool :=
  s.processedEvent.any fun row => row.consumerName = consumerName ∧ row.eventId = eventId

/-- A row with the current time, unless that very row exists. -/
def insertProcessed (s : World) (eventId : Ident) : World :=
  let row : ProcessedEvent := ⟨consumerName, eventId, s.now⟩
  if row ∈ s.processedEvent then s
  else { s with processedEvent := s.processedEvent ++ [row] }

section InsertProcessed

variable (s : World) (eventId : Ident)

/-- Marking writes one table. -/
theorem insertProcessed_eq : ∃ rows, s.insertProcessed eventId = { s with processedEvent := rows } := by
  unfold insertProcessed
  dsimp only
  split_ifs
  · exact ⟨_, rfl⟩
  · exact ⟨_, rfl⟩

@[simp] theorem insertProcessed_window : (s.insertProcessed eventId).window = s.window := by
  obtain ⟨rows, h⟩ := s.insertProcessed_eq eventId
  rw [h]

@[simp] theorem insertProcessed_deadline : (s.insertProcessed eventId).deadline = s.deadline := by
  obtain ⟨rows, h⟩ := s.insertProcessed_eq eventId
  rw [h]

@[simp] theorem insertProcessed_now : (s.insertProcessed eventId).now = s.now := by
  obtain ⟨rows, h⟩ := s.insertProcessed_eq eventId
  rw [h]

@[simp] theorem insertProcessed_log : (s.insertProcessed eventId).log = s.log := by
  obtain ⟨rows, h⟩ := s.insertProcessed_eq eventId
  rw [h]

@[simp] theorem insertProcessed_calls : (s.insertProcessed eventId).calls = s.calls := by
  obtain ⟨rows, h⟩ := s.insertProcessed_eq eventId
  rw [h]

@[simp] theorem insertProcessed_drawn : (s.insertProcessed eventId).drawn = s.drawn := by
  obtain ⟨rows, h⟩ := s.insertProcessed_eq eventId
  rw [h]

/-- **Marking an event** marks it and no other. -/
theorem isProcessed_insertProcessed (id : Ident) :
    (s.insertProcessed eventId).isProcessed id = true ↔
      id = eventId ∨ s.isProcessed id = true := by
  have hrows : (s.insertProcessed eventId).processedEvent =
      if (⟨consumerName, eventId, s.now⟩ : ProcessedEvent) ∈ s.processedEvent then
        s.processedEvent else s.processedEvent ++ [⟨consumerName, eventId, s.now⟩] := by
    unfold insertProcessed
    dsimp only
    split_ifs <;> rfl
  unfold isProcessed
  rw [hrows, Table.any_insert, decide_eq_true_eq, and_iff_right rfl, eq_comm]

end InsertProcessed

/-- Overwrite the list and the deadline of a key. -/
def setWindow (s : World) (tgChatId : ℤ) (messages : List WindowMessagePayload)
    (deadline : Option Timestamp) : World :=
  { s with
    window := Function.update s.window tgChatId messages
    deadline := Function.update s.deadline tgChatId deadline }

section SetWindow

variable (s : World) (chat : ℤ) (messages : List WindowMessagePayload)
  (deadline : Option Timestamp)

@[simp] theorem setWindow_window : (s.setWindow chat messages deadline).window chat = messages :=
  Function.update_self ..

@[simp] theorem setWindow_deadline :
    (s.setWindow chat messages deadline).deadline chat = deadline := Function.update_self ..

theorem setWindow_window_of_ne {other : ℤ} (h : other ≠ chat) :
    (s.setWindow chat messages deadline).window other = s.window other :=
  Function.update_of_ne h ..

@[simp] theorem setWindow_now : (s.setWindow chat messages deadline).now = s.now := rfl

@[simp] theorem setWindow_processedEvent :
    (s.setWindow chat messages deadline).processedEvent = s.processedEvent := rfl

@[simp] theorem setWindow_log : (s.setWindow chat messages deadline).log = s.log := rfl

@[simp] theorem setWindow_setWindow (messages' : List WindowMessagePayload)
    (deadline' : Option Timestamp) :
    (s.setWindow chat messages deadline).setWindow chat messages' deadline' =
      s.setWindow chat messages' deadline' := by
  simp [setWindow]

end SetWindow

/-- An identifier has been drawn. -/
def draw (s : World) : World := { s with drawn := s.drawn + 1 }

/-- The call has been made. -/
def tick (s : World) : World := { s with calls := s.calls + 1 }

end World

namespace Env

variable (env : Env)

/-- The list a command finds at a key. -/
def live (s : World) (tgChatId : ℤ) : List WindowMessagePayload :=
  if env.expires = true ∧ (s.deadline tgChatId).any (· < s.now) then [] else s.window tgChatId

/-- The final state of the graph when the router answers. -/
def invoke [CharData] (s : World) (input : AnalysisInput) : AnalysisState :=
  Id.run (ainvoke (env.analyze s.calls) s.drawn input)

/-- A call that may raise: if it does, it has no other effect. -/
def fallible {α : Type} (c : Cmd) (s : World) (effect : World → α × World) :
    Except Exc α × World :=
  if env.faults s.calls c then (.error .callFailed, s.tick)
  else (.ok (effect s).1, (effect s).2.tick)

/-- What the commands do. -/
def run [CharData] : Handler Cmd Ans Exc World
  | .selectProcessed eventId, s => (.ok (s.isProcessed eventId), s)
  | .insertProcessed eventId, s => (.ok (), s.insertProcessed eventId)
  | .lrange chat, s => (.ok (env.live s chat), s)
  | .rpush chat payload, s =>
    (.ok (), s.setWindow chat (env.live s chat ++ [payload])
      (if env.live s chat = [] then none else s.deadline chat))
  | .expire chat ttl, s =>
    (.ok (), if env.live s chat = [] then s
      else s.setWindow chat (s.window chat) (some (s.now + ttl)))
  | .llen chat, s => (.ok (env.live s chat).length, s)
  | .uuid4, s => (.ok s.drawn, s.draw)
  | .delete chat, s => env.fallible (.delete chat) s fun s => ((), s.setWindow chat [] none)
  | .ainvoke input, s => env.fallible (.ainvoke input) s fun s =>
    (env.invoke s input, s.draw)
  | .xadd entry, s => env.fallible (.xadd entry) s fun s =>
    ((), { s with log := s.log ++ [entry] })

/-- One event through `run`: what is left of it is the state of the stores. -/
def deliver [CharData] (settings : Settings) (s : World) (event : TelegramMessageEvent) :
    World := (exec env.run (attempt (handleMessage settings event)) s).2

/-- A sequence of events through `run`. -/
def deliverAll [CharData] (settings : Settings) (s : World)
    (events : List TelegramMessageEvent) : World := events.foldl (env.deliver settings) s

theorem deliverAll_cons [CharData] (settings : Settings) (s : World)
    (event : TelegramMessageEvent) (rest : List TelegramMessageEvent) :
    env.deliverAll settings s (event :: rest) =
      env.deliverAll settings (env.deliver settings s event) rest := List.foldl_cons ..

end Env

/-- A router with one answer and stores that never fail. -/
def calmEnv : Env where
  analyze := fun _ sourceWindowId _ _ => { sourceWindowId, summary := "ok" }

/-! ## Reading the streams -/

/-- The command of an entry of `STREAM_AI_PROJECTION_COMMAND`. -/
def StreamEntry.asProjection : StreamEntry → Option ProjectionCommand
  | .projection command => some command
  | _ => none

/-- The event of an entry of `STREAM_TELEGRAM_PREPROCESSED`. -/
def StreamEntry.asPreprocessed : StreamEntry → Option TelegramPreprocessedEvent
  | .preprocessed event => some event
  | _ => none

namespace World

/-- The commands in `STREAM_AI_PROJECTION_COMMAND`. -/
def projections (s : World) : List ProjectionCommand := s.log.filterMap StreamEntry.asProjection

/-- The events in `STREAM_TELEGRAM_PREPROCESSED`. -/
def preprocessed (s : World) : List TelegramPreprocessedEvent :=
  s.log.filterMap StreamEntry.asPreprocessed

/-- The windows of a chat that were passed to `_run_analysis`, in order: they are
published as they were passed. -/
def windows (s : World) (tgChatId : ℤ) : List (List WindowMessagePayload) :=
  (s.preprocessed.filter (·.tgChatId = tgChatId)).map (·.messages)

end World

/-- The accepted messages of a chat, in arrival order. -/
def acceptedMessages (chat : ℤ) (events : List TelegramMessageEvent) :
    List WindowMessagePayload :=
  (events.filter fun event => event.accepted && decide (event.tgChatId = chat)).map (·.payload)

theorem acceptedMessages_append (chat : ℤ) (events later : List TelegramMessageEvent) :
    acceptedMessages chat (events ++ later) =
      acceptedMessages chat events ++ acceptedMessages chat later := by
  simp [acceptedMessages]

theorem acceptedMessages_singleton {event : TelegramMessageEvent} (h : event.accepted = true) :
    acceptedMessages event.tgChatId [event] = [event.payload] := by
  simp [acceptedMessages, h]

theorem mem_acceptedMessages {chat : ℤ} {events : List TelegramMessageEvent}
    {payload : WindowMessagePayload} : payload ∈ acceptedMessages chat events ↔
      ∃ event ∈ events, event.accepted = true ∧ event.tgChatId = chat ∧
        event.payload = payload := by
  simp only [acceptedMessages, List.mem_map, List.mem_filter, Bool.and_eq_true,
    decide_eq_true_eq, and_assoc]

/-- A chat without events has no accepted messages. -/
theorem acceptedMessages_eq_nil {chat : ℤ} {events : List TelegramMessageEvent}
    (h : ¬ ∃ event ∈ events, event.tgChatId = chat) : acceptedMessages chat events = [] := by
  rw [List.eq_nil_iff_forall_not_mem]
  intro payload hmem
  obtain ⟨event, hevent, -, hchat, -⟩ := mem_acceptedMessages.mp hmem
  exact h ⟨event, hevent, hchat⟩

/-- The calls a flush makes before anything of it is in a stream: the analysis and the
first publication. -/
def Cmd.opensFlush : Cmd → Bool
  | .ainvoke _ => true
  | .xadd (.preprocessed _) => true
  | _ => false

/-- The window an entry is about. -/
def StreamEntry.sourceWindowId : StreamEntry → Ident
  | .preprocessed event => event.sourceWindowId
  | .completed event => event.sourceWindowId
  | .signal event => event.sourceWindowId
  | .projection command => command.sourceWindowId

end Orchestrator
end PersonalIntelligence
