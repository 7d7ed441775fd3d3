import PersonalIntelligence.Memory.Statements
import PersonalIntelligence.Memory.Vectors
import Mathlib.Data.Sym.Sym2

/-!
# The stores around the canonical one

The object store, the graph and the streams, as the memory projector and the erase
endpoint see them, and the `World` that holds them all.
-/

namespace PersonalIntelligence
namespace Memory

/-! ## The graph -/

/-- A `COMMUNICATED_WITH` relationship.  It is matched in either direction. -/
structure CommunicationEdge where
  personA : Ident
  personB : Ident
  lastWindowId : Ident
  weight : ℕ
  deriving DecidableEq, Repr

/-- The nodes and relationships of Neo4j, by the properties they are merged on. -/
structure Graph where
  /-- `(:Chat {tg_chat_id})`, with its kind. -/
  chats : List (ℤ × Option ChatType) := []
  /-- `(:Person {id})`, with its `tg_user_id`. -/
  persons : List (Ident × ℤ) := []
  /-- `(:Topic {slug})`. -/
  topics : List String := []
  participatesIn : List (Ident × ℤ) := []
  communicatedWith : List CommunicationEdge := []
  discusses : List (ℤ × String) := []
  mentionedTopic : List (Ident × String) := []
  deriving DecidableEq, Repr

/-- The statements of `_project_neo4j`. -/
inductive GraphStatement where
  | mergeChat (tgChatId : ℤ) (kind : ChatType)
  | mergeParticipant (personId : Ident) (tgUserId tgChatId : ℤ)
  | mergeCommunication (personA personB windowId : Ident)
  | mergeTopic (topic : String) (tgChatId : ℤ)
  | mergeMentionedTopic (personId : Ident) (topic : String)
  deriving DecidableEq, Repr

/-- `MERGE` of something that has no other properties. -/
def merge {α : Type} [DecidableEq α] (x : α) (xs : List α) : List α :=
  if x ∈ xs then xs else xs ++ [x]

namespace Graph

variable (g : Graph)

def hasPerson (personId : Ident) : Bool := g.persons.any fun node => node.1 = personId

def hasChat (tgChatId : ℤ) : Bool := g.chats.any fun node => node.1 = tgChatId

/-- One statement.  A `MATCH` that finds nothing does nothing. -/
def apply : GraphStatement → Graph
  | .mergeChat tgChatId kind =>
    { g with
      chats := Table.upsert Prod.fst (fun node => (node.1, some kind)) (tgChatId, some kind)
        g.chats }
  | .mergeParticipant personId tgUserId tgChatId =>
    { g with
      persons := Table.upsert Prod.fst (fun node => (node.1, tgUserId)) (personId, tgUserId)
        g.persons
      chats := Table.upsert Prod.fst id (tgChatId, none) g.chats
      participatesIn := merge (personId, tgChatId) g.participatesIn }
  | .mergeCommunication personA personB windowId =>
    if g.hasPerson personA && g.hasPerson personB then
      { g with
        communicatedWith := Table.upsert (fun edge => s(edge.personA, edge.personB))
          (fun edge => { edge with lastWindowId := windowId, weight := edge.weight + 1 })
          ⟨personA, personB, windowId, 1⟩ g.communicatedWith }
    else g
  | .mergeTopic topic tgChatId =>
    { g with
      topics := merge topic g.topics
      discusses := if g.hasChat tgChatId then merge (tgChatId, topic) g.discusses
        else g.discusses }
  | .mergeMentionedTopic personId topic =>
    if g.hasPerson personId then
      { g with
        topics := merge topic g.topics
        mentionedTopic := merge (personId, topic) g.mentionedTopic }
    else g

/-- `session.execute_write`: the statements of one transaction. -/
def executeWrite (statements : List GraphStatement) : Graph := statements.foldl apply g

/-- `MATCH (p:Person {id: $person_id}) DETACH DELETE p`. -/
def detachDelete (personId : Ident) : Graph :=
  { g with
    persons := g.persons.filter (·.1 ≠ personId)
    participatesIn := g.participatesIn.filter (·.1 ≠ personId)
    communicatedWith := g.communicatedWith.filter fun edge =>
      edge.personA ≠ personId ∧ edge.personB ≠ personId
    mentionedTopic := g.mentionedTopic.filter (·.1 ≠ personId) }

end Graph

/-! ## Objects and streams -/

/-- What `_write_artifact` stores. -/
structure Artifact where
  sourceWindowId : Ident
  tgChatId : ℤ
  messages : List WindowMessagePayload
  features : MessageFeatureSet
  analysis : StructuredAnalysisResult
  deriving DecidableEq, Repr

/-- A message in a stream.  `origin` is the command it was published for; nothing reads
it but what is said about the streams. -/
structure Publication (α : Type) where
  origin : Ident
  message : α
  deriving DecidableEq, Repr

/-- An entry of `STREAM_AI_PROJECTION_COMMAND`. -/
structure StreamEntry where
  id : Ident
  command : ProjectionCommand
  deriving DecidableEq, Repr

/-- What the memory projector and the erase endpoint read and write. -/
structure World where
  now : Timestamp := 0
  /-- The committed tables. -/
  db : Db := {}
  /-- The tables as the open transaction sees them. -/
  tx : Option Db := none
  /-- The raw bucket under `raw/analysis-windows/`. -/
  objects : ArtifactKey → Option Artifact := fun _ => none
  graph : Graph := {}
  qdrant : Qdrant := {}
  embeddingRequested : List (Publication EmbeddingJob) := []
  interactionUpdated : List (Publication InteractionUpdatedEvent) := []
  /-- The entries of any dead-letter stream. -/
  deadLetters : List StreamEntry := []
  /-- The entries that have been acknowledged. -/
  acked : List StreamEntry := []
  /-- The next identifier to be drawn. -/
  drawn : Ident := 0
  /-- How many calls have been made that may raise. -/
  calls : ℕ := 0

namespace World

variable (s : World)

/-- The tables a statement sees. -/
def tables : Db := s.tx.getD s.db

/-- A statement writes the tables it sees. -/
def setTables (db : Db) : World :=
  match s.tx with
  | none => { s with db }
  | some _ => { s with tx := some db }

variable {s} in
theorem tables_of_closed (h : s.tx = none) : s.tables = s.db := by
  rw [tables, h, Option.getD_none]

variable {s} in
theorem tables_of_open {t : Db} (h : s.tx = some t) : s.tables = t := by
  rw [tables, h, Option.getD_some]

variable {s} in
theorem setTables_of_closed (h : s.tx = none) (db : Db) : s.setTables db = { s with db } := by
  unfold setTables
  rw [h]

variable {s} in
theorem setTables_of_open {t : Db} (h : s.tx = some t) (db : Db) :
    s.setTables db = { s with tx := some db } := by
  unfold setTables
  rw [h]

/-- What was written is seen. -/
@[simp] theorem tables_setTables (db : Db) : (s.setTables db).tables = db := by
  cases htx : s.tx with
  | none =>
    rw [setTables_of_closed htx]
    exact tables_of_closed htx
  | some t =>
    rw [setTables_of_open htx]
    rfl

@[simp] theorem objects_setTables (db : Db) : (s.setTables db).objects = s.objects := by
  unfold setTables
  cases s.tx <;> rfl

@[simp] theorem qdrant_setTables (db : Db) : (s.setTables db).qdrant = s.qdrant := by
  unfold setTables
  cases s.tx <;> rfl

@[simp] theorem drawn_setTables (db : Db) : (s.setTables db).drawn = s.drawn := by
  unfold setTables
  cases s.tx <;> rfl

@[simp] theorem now_setTables (db : Db) : (s.setTables db).now = s.now := by
  unfold setTables
  cases s.tx <;> rfl

/-- The clock shows `now`. -/
def «at» (now : Timestamp) : World := { s with now }

/-- The call has been made. -/
def tick : World := { s with calls := s.calls + 1 }

/-- An identifier has been drawn. -/
def draw : World := { s with drawn := s.drawn + 1 }

end World

end Memory
end PersonalIntelligence
