import Mathlib.Data.Rat.Defs
import Mathlib.Algebra.Order.Ring.Rat

/-!
# The contracts between the services

`pil_contracts`: the records that travel on the Redis streams.  A pydantic model is
a structure; a `Field(ge=..., le=...)` is not a type here but a predicate
(`InRange`), because `model_copy(update=...)` builds records that no validator has
seen.  `ValidatedResult` is what `model_validate` and the constructors return.

Times are microseconds since the epoch, in UTC: every `datetime` of the contracts
is timezone-aware and only compared and subtracted.  Identifiers drawn at random
(`uuid4`, ULIDs) are opaque and only compared for equality; they are numbers here.
-/

namespace PersonalIntelligence

/-- A UTC instant, in microseconds. -/
abbrev Timestamp := ℤ

/-- A drawn identifier: a `uuid4` or a ULID. -/
abbrev Ident := ℕ

/-- Seconds, in the unit of `Timestamp`. -/
def seconds (n : ℤ) : ℤ := n * 1000000

/-- What a handler can raise. -/
inductive Exc where
  /-- A call to a store or a service failed. -/
  | callFailed
  /-- pydantic or `json.loads` rejected a value. -/
  | validation
  /-- A list was indexed past its end. -/
  | index
  /-- `RuntimeError`. -/
  | runtime (message : String)
  /-- FastAPI's `HTTPException`. -/
  | http (status : ℕ) (detail : String)
  deriving DecidableEq, Repr

inductive ChatType where
  | «private»
  | group
  | supergroup
  | channel
  deriving DecidableEq, Repr

inductive WindowKind where
  | single
  | rolling
  | timeWindow
  deriving DecidableEq, Repr

inductive SentimentHint where
  | positive
  | negative
  | neutral
  | mixed
  deriving DecidableEq, Repr

/-! ## Messages and windows -/

/-- `TelegramMessageEvent`, with its `BaseEvent` part. -/
structure TelegramMessageEvent where
  eventId : Ident
  occurredAt : Timestamp
  traceId : Option String := none
  tgChatId : ℤ
  tgMessageId : ℤ
  tgSenderId : Option ℤ := none
  tgSenderUsername : Option String := none
  tgSenderName : Option String := none
  chatTitle : Option String := none
  chatType : ChatType := .private
  text : Option String := none
  mediaType : Option String := none
  replyToMessageId : Option ℤ := none
  viaBusinessBot : Bool := false
  isForwarded : Bool := false
  tgDate : Option Timestamp := none
  rawS3Key : Option String := none
  deriving DecidableEq, Repr

/-- `TelegramMessageEditedEvent`. -/
structure TelegramMessageEditedEvent where
  eventId : Ident
  occurredAt : Timestamp
  traceId : Option String := none
  tgChatId : ℤ
  tgMessageId : ℤ
  newText : Option String := none
  deriving DecidableEq, Repr

/-- `TelegramMessageDeletedEvent`. -/
structure TelegramMessageDeletedEvent where
  eventId : Ident
  traceId : Option String := none
  tgChatId : ℤ
  tgMessageIds : List ℤ := []
  deriving DecidableEq, Repr

/-- `WindowMessagePayload`. -/
structure WindowMessagePayload where
  tgMessageId : ℤ
  tgSenderId : Option ℤ := none
  tgSenderName : Option String := none
  tgSenderUsername : Option String := none
  text : String := ""
  replyToMessageId : Option ℤ := none
  mediaType : Option String := none
  isForwarded : Bool := false
  occurredAt : Timestamp
  deriving DecidableEq, Repr

/-- `MessageFeatureSet`. -/
structure MessageFeatureSet where
  chatType : ChatType := .private
  messageCount : ℕ := 0
  participantCount : ℕ := 0
  participantTgIds : List ℤ := []
  authorActivity : List (String × ℕ) := []
  mentionHandles : List String := []
  links : List String := []
  emails : List String := []
  phones : List String := []
  keywordCandidates : List String := []
  sentimentHint : SentimentHint := .neutral
  attachmentCount : ℕ := 0
  forwardedCount : ℕ := 0
  replyCount : ℕ := 0
  medianResponseLatencySec : Option ℚ := none
  windowKind : WindowKind := .rolling
  deriving DecidableEq, Repr

/-! ## Analysis results -/

inductive ClaimKind where
  | fact
  | relationship
  | contact
  | topic
  deriving DecidableEq, Repr

/-- `StructuredClaim`. -/
structure StructuredClaim where
  kind : ClaimKind := .fact
  subject : Option String := none
  predicate : String
  object : Option String := none
  claim : String
  confidence : ℚ
  evidenceMessageIds : List ℤ := []
  caveats : List String := []
  deriving DecidableEq, Repr

/-- `StructuredTask`. -/
structure StructuredTask where
  title : String
  description : Option String := none
  priority : ℤ := 3
  dueAt : Option Timestamp := none
  confidence : ℚ := 1 / 2
  evidenceMessageIds : List ℤ := []
  caveats : List String := []
  deriving DecidableEq, Repr

inductive SignalKind where
  | responsiveness
  | initiativeBalance
  | topicDrift
  | conversationHealth
  | friction
  | activity
  deriving DecidableEq, Repr

/-- The `payload` dictionary of a signal: the dictionaries the heuristics build,
and any other as its JSON text. -/
inductive SignalPayload where
  | empty
  | medianResponseLatencySec (latency : ℚ)
  | authorActivity (activity : List (String × ℕ))
  | keywordCandidates (keywords : List String)
  | sentimentHint (hint : SentimentHint)
  | messageCount (count : ℕ)
  | json (text : String)
  deriving DecidableEq, Repr

/-- `AnalyticsSignal`. -/
structure AnalyticsSignal where
  kind : SignalKind
  score : ℚ := 0
  summary : String
  evidenceMessageIds : List ℤ := []
  payload : SignalPayload := .empty
  deriving DecidableEq, Repr

/-- `StructuredAnalysisResult`. -/
structure StructuredAnalysisResult where
  sourceWindowId : Ident
  summary : String
  topics : List String := []
  participants : List ℤ := []
  claims : List StructuredClaim := []
  tasks : List StructuredTask := []
  analyticsSignals : List AnalyticsSignal := []
  confidence : ℚ := 1 / 2
  caveats : List String := []
  deriving DecidableEq, Repr

/-- `Field(ge=0.0, le=1.0)`. -/
def UnitRange (x : ℚ) : Prop := 0 ≤ x ∧ x ≤ 1

instance (x : ℚ) : Decidable (UnitRange x) := inferInstanceAs (Decidable (_ ∧ _))

def StructuredClaim.InRange (c : StructuredClaim) : Prop := UnitRange c.confidence

def StructuredTask.InRange (t : StructuredTask) : Prop :=
  (1 ≤ t.priority ∧ t.priority ≤ 5) ∧ UnitRange t.confidence

def AnalyticsSignal.InRange (s : AnalyticsSignal) : Prop := UnitRange s.score

/-- The numeric constraints of `StructuredAnalysisResult` and of the models in it. -/
structure StructuredAnalysisResult.InRange (r : StructuredAnalysisResult) : Prop where
  claims : ∀ c ∈ r.claims, c.InRange
  tasks : ∀ t ∈ r.tasks, t.InRange
  signals : ∀ s ∈ r.analyticsSignals, s.InRange
  confidence : UnitRange r.confidence

/-- A result that pydantic has validated. -/
abbrev ValidatedResult := { r : StructuredAnalysisResult // r.InRange }

/-- `AnalyticsSignal(...)`: the constructor validates the score. -/
def AnalyticsSignal.validate (s : AnalyticsSignal) : Except Exc AnalyticsSignal :=
  if UnitRange s.score then .ok s else .error .validation

theorem AnalyticsSignal.validate_of_inRange {s : AnalyticsSignal} (h : s.InRange) :
    s.validate = .ok s := if_pos h

theorem AnalyticsSignal.validate_of_not_inRange {s : AnalyticsSignal} (h : ¬ s.InRange) :
    s.validate = .error .validation := if_neg h

/-! ## Commands and published events -/

/-- `ProjectionCommand`. -/
structure ProjectionCommand where
  commandId : Ident
  sourceWindowId : Ident
  sourceEventId : Ident
  tgChatId : ℤ
  messages : List WindowMessagePayload := []
  features : MessageFeatureSet
  result : StructuredAnalysisResult
  traceId : Option String := none
  deriving DecidableEq, Repr

inductive EmbeddingProvider where
  | wormsoft
  | polza
  deriving DecidableEq, Repr

/-- `EmbeddingJob`. -/
structure EmbeddingJob where
  sourceWindowId : Ident
  tgChatId : ℤ
  analysisWindowId : Ident
  personIds : List Ident := []
  topicTags : List String := []
  narrativeText : String
  profileProvider : EmbeddingProvider := .wormsoft
  profileModel : String
  profileAlias : String := "pil_memory_active"
  traceId : Option String := none
  deriving DecidableEq, Repr

/-- `InteractionUpdatedEvent`. -/
structure InteractionUpdatedEvent where
  interactionId : Ident
  chatId : Ident
  windowStart : Timestamp
  windowEnd : Timestamp
  participants : List Ident := []
  topics : List String := []
  sentiment : SentimentHint := .neutral
  summary : String
  taskIds : List Ident := []
  traceId : Option String := none
  deriving DecidableEq, Repr

/-- `TaskCreatedEvent`.  The source message reference is a chat and a message. -/
structure TaskCreatedEvent where
  taskId : Ident
  title : String
  ownerPersonId : Option Ident := none
  counterpartPersonId : Option Ident := none
  dueAt : Option Timestamp := none
  sourceMessageRef : ℤ × ℤ
  confidence : ℚ
  evidence : Option String := none
  traceId : Option String := none
  deriving DecidableEq, Repr

/-- The `Literal` of `TaskResolvedEvent.resolution`. -/
inductive Resolution where
  | done
  | dropped
  deriving DecidableEq, Repr

/-- `TaskResolvedEvent`. -/
structure TaskResolvedEvent where
  taskId : Ident
  resolution : Resolution
  evidence : Option String := none
  traceId : Option String := none
  deriving DecidableEq, Repr

/-- `TelegramPreprocessedEvent`. -/
structure TelegramPreprocessedEvent where
  sourceEventId : Ident
  tgChatId : ℤ
  sourceWindowId : Ident
  messages : List WindowMessagePayload := []
  features : MessageFeatureSet
  traceId : Option String := none
  deriving DecidableEq, Repr

/-- `AIAnalysisCompletedEvent`. -/
structure AIAnalysisCompletedEvent where
  sourceEventId : Ident
  tgChatId : ℤ
  sourceWindowId : Ident
  result : StructuredAnalysisResult
  traceId : Option String := none
  deriving DecidableEq, Repr

/-- `AnalyticsSignalEvent`. -/
structure AnalyticsSignalEvent where
  sourceWindowId : Ident
  tgChatId : ℤ
  signal : AnalyticsSignal
  traceId : Option String := none
  deriving DecidableEq, Repr

end PersonalIntelligence
