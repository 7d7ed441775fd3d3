import PersonalIntelligence.Library.Table
import PersonalIntelligence.Contracts.Events
import Mathlib.Data.Rat.Floor

/-!
# The canonical store

The Postgres tables of the migrations, with the columns that the modelled services read
or write.  A column that a service fills with a constant and nobody reads is left out.

Identifiers drawn by `gen_random_uuid()` are numbers drawn one after the other.  The
JSON columns hold the values that were encoded.
-/

namespace PersonalIntelligence
namespace Memory

/-- A column `numeric(_, 3)`: Postgres rounds what is stored, ties away from zero. -/
def numeric3 (x : ℚ) : ℚ :=
  if 0 ≤ x then ⌊x * 1000 + 1 / 2⌋ / 1000 else -(⌊-x * 1000 + 1 / 2⌋ / 1000)

structure Chat where
  id : Ident
  tgChatId : ℤ
  kind : ChatType
  title : Option String
  deriving DecidableEq, Repr

structure Person where
  id : Ident
  tgUserId : Option ℤ
  username : Option String
  displayName : String
  topics : List String
  lastInteractionAt : Option Timestamp
  isOwner : Bool
  updatedAt : Timestamp
  deriving DecidableEq, Repr

/-- The primary key is the pair. -/
structure ChatMembership where
  chatId : Ident
  personId : Ident
  deriving DecidableEq, Repr

structure AnalysisWindow where
  id : Ident
  chatId : Ident
  tgChatId : ℤ
  sourceMessageIds : List ℤ
  participantTgIds : List ℤ
  chatType : ChatType
  windowStart : Timestamp
  windowEnd : Timestamp
  messages : List WindowMessagePayload
  features : MessageFeatureSet
  analysisPayload : StructuredAnalysisResult
  summary : String
  confidence : ℚ
  deriving DecidableEq, Repr

structure ExtractedFact where
  windowId : Ident
  factType : ClaimKind
  subjectText : Option String
  predicate : String
  objectText : Option String
  claimText : String
  confidence : ℚ
  evidenceMessageIds : List ℤ
  caveats : List String
  /-- The `source_window_id` of the metadata. -/
  sourceWindowId : Ident
  deriving DecidableEq, Repr

structure AnalyticsSignalRow where
  windowId : Ident
  tgChatId : ℤ
  signalKind : SignalKind
  score : ℚ
  summary : String
  evidenceMessageIds : List ℤ
  payload : SignalPayload
  deriving DecidableEq, Repr

/-- `task.source_message_ref`.  A task that comes from a single message has no window. -/
structure SourceMessageRef where
  tgChatId : ℤ
  tgMessageId : ℤ
  sourceWindowId : Option Ident := none
  deriving DecidableEq, Repr

inductive TaskStatus where
  | «open»
  | done
  | dropped
  deriving DecidableEq, Repr

structure Task where
  id : Ident
  title : String
  description : Option String
  ownerPersonId : Option Ident
  counterpartPersonId : Option Ident
  chatId : Option Ident
  sourceMessageRef : SourceMessageRef
  dueAt : Option Timestamp
  status : TaskStatus
  priority : ℤ
  confidence : ℚ
  evidence : Option String
  createdAt : Timestamp
  updatedAt : Timestamp
  resolvedAt : Option Timestamp := none
  deriving DecidableEq, Repr

/-- The key of an object that `put_raw` has written:
`raw/analysis-windows/{window_id}.json`. -/
structure ArtifactKey where
  windowId : Ident
  deriving DecidableEq, Repr

structure Interaction where
  id : Ident
  chatId : Ident
  windowStart : Timestamp
  windowEnd : Timestamp
  participants : List Ident
  topics : List String
  sentiment : SentimentHint
  summary : String
  tasks : List Ident
  sourceObjectRef : Option ArtifactKey
  createdAt : Timestamp
  deriving DecidableEq, Repr

/-- A mention of one person by another. -/
structure Mention where
  chatId : Ident
  speakerPersonId : Ident
  mentionedPersonId : Ident
  deriving DecidableEq, Repr

/-- An annotation of a person or of a chat. -/
structure RelationshipAnnotation where
  personId : Option Ident
  chatId : Option Ident
  labels : List String
  deriving DecidableEq, Repr

structure OwnerProfile where
  backingPersonId : Option Ident
  deriving DecidableEq, Repr

/-- A row of `processed_event`.  The three columns are its primary key. -/
structure ProcessedEvent where
  consumerName : String
  eventId : Ident
  processedAt : Timestamp
  deriving DecidableEq, Repr

/-- The `deleted` counts of an erase. -/
structure ErasedCounts where
  person : ℕ
  relationshipAnnotations : ℕ
  memberships : ℕ
  mentions : ℕ
  tasks : ℕ
  analysisWindows : ℕ
  analyticsSignals : ℕ
  extractedFacts : ℕ
  interactions : ℕ
  interactionArtifacts : ℕ
  deriving DecidableEq, Repr

inductive EraseWarning where
  | qdrantCleanupFailed
  | neo4jCleanupFailed
  | s3CleanupFailed
  | s3NotConfigured
  deriving DecidableEq, Repr

/-- The summary that an erase returns and logs. -/
structure EraseSummary where
  personId : Ident
  displayName : String
  /-- The SHA-256 digest of the id. -/
  targetHash : ℕ
  deleted : ErasedCounts
  warnings : List EraseWarning
  deriving DecidableEq, Repr

/-- The `target` of an `audit_log` row. -/
inductive AuditTarget where
  | window (id : Ident)
  | hash (digest : ℕ)
  deriving DecidableEq, Repr

/-- The `payload` of an `audit_log` row, for the actions that are modelled. -/
inductive AuditPayload where
  | projectAnalysis (tgChatId : ℤ) (sourceEventId : Ident) (topics : List String)
  | erasePerson (summary : EraseSummary)
  deriving DecidableEq, Repr

structure AuditLog where
  actor : String
  action : String
  target : AuditTarget
  requestId : Option String
  payload : AuditPayload
  deriving DecidableEq, Repr

/-- The tables. -/
structure Db where
  chat : List Chat := []
  person : List Person := []
  chatMembership : List ChatMembership := []
  analysisWindow : List AnalysisWindow := []
  extractedFact : List ExtractedFact := []
  analyticsSignal : List AnalyticsSignalRow := []
  task : List Task := []
  interaction : List Interaction := []
  mention : List Mention := []
  relationshipAnnotation : List RelationshipAnnotation := []
  ownerProfile : List OwnerProfile := []
  processedEvent : List ProcessedEvent := []
  auditLog : List AuditLog := []
  deriving DecidableEq, Repr

end Memory
end PersonalIntelligence
