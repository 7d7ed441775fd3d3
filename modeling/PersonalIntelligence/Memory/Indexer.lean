import PersonalIntelligence.Library.Contract
import PersonalIntelligence.Library.PyText
import PersonalIntelligence.Library.Slug
import PersonalIntelligence.Memory.Stores

/-!
# `embedding_indexer/service.py`

The indexer makes sure on starting that there is a collection for its model, and that the
alias stands for it; then it takes the embedding jobs from their stream one after the other
and upserts a point for each by the alias.  A job that fails is logged, and acknowledged
like any other.
-/

namespace PersonalIntelligence
namespace Memory

open PyText Resumption

/-- The settings that the indexer reads. -/
structure IndexerSettings where
  qdrantAliasName : String := "pil_memory_active"
  wormsoftEmbeddingModel : String := "qwen/qwen3-embedding:8b"
  deriving DecidableEq, Repr

/-! ## Commands -/

/-- The calls the indexer waits for. -/
inductive IndexCmd where
  | embed (text model : String)
  | collectionExists (collectionName : String)
  | createCollection (collectionName : String) (size : ℕ)
  | getAliases
  | updateCollectionAliases (operations : List AliasOperation)
  /-- `datetime.now(UTC)`. -/
  | now
  | upsert (collectionName : String) (point : Point)
  | xack (job : Publication EmbeddingJob)
  deriving DecidableEq, Repr

/-- What each command answers. -/
abbrev IndexAns : IndexCmd → Type
  | .embed _ _ => List ℚ
  | .collectionExists _ => Bool
  | .getAliases => String → Option String
  | .now => Timestamp
  | _ => Unit

abbrev Indexing := Prog IndexCmd IndexAns Exc

/-- One command, awaited where it stands. -/
abbrev awaitIndex (c : IndexCmd) : Indexing (IndexAns c) := Prog.perform c

/-! ## The collection of a model -/

/-- `[a-z0-9]`. -/
def slugChar (c : Char) : Bool := ('a' ≤ c ∧ c ≤ 'z') ∨ ('0' ≤ c ∧ c ≤ '9')

/-- `_collection_name`: `re.sub(r"[^a-z0-9]+", "-", ·)` and `str.strip("-")`. -/
def collectionName [CharData] (aliasName modelName : String) (dimension : ℕ) : String :=
  let slug := String.ofList
    (Slug.strip '-' (Slug.squeeze slugChar '-' false (casefold modelName).toList))
  s!"{aliasName}_{slug}_{dimension}_v1"

/-- `ensure_collection`, once there is the collection: the alias stands for it. -/
def ensureAlias (aliasName name : String) : Indexing Unit := do
  let aliases ← awaitIndex .getAliases
  match aliases aliasName with
  | none => awaitIndex (.updateCollectionAliases [.create name aliasName])
  | some existing =>
    if existing ≠ name then
      awaitIndex (.updateCollectionAliases [.delete aliasName, .create name aliasName])
    else pure ()

/-- `ensure_collection`. -/
def ensureCollection [CharData] (aliasName modelName : String) (dimension : ℕ) :
    Indexing String := do
  let name := collectionName aliasName modelName dimension
  if ← awaitIndex (.collectionExists name) then pure ()
  else awaitIndex (.createCollection name dimension)
  ensureAlias aliasName name
  pure name

/-! ## A job -/

section Handle

variable (settings : IndexerSettings)

/-- `WormsoftEmbeddingClient.embed`, with the default of `model`. -/
def embed (text : String) (model : Option String) : Indexing (List ℚ) :=
  let model := match model with
    | some name => if name.isEmpty then settings.wormsoftEmbeddingModel else name
    | none => settings.wormsoftEmbeddingModel
  awaitIndex (.embed text model)

/-- `_payload`, at the times of its two timestamps. -/
def payload (job : EmbeddingJob) (tsFrom tsTo : Timestamp) : PointPayload where
  chatId := job.tgChatId
  personIds := job.personIds
  topicTags := job.topicTags
  tsFrom
  tsTo
  profileProvider := job.profileProvider
  profileModel := job.profileModel
  analysisWindowId := job.analysisWindowId
  sourceWindowId := job.sourceWindowId
  narrativeText := job.narrativeText

/-- The upsert of a job. -/
def upsertJob (job : EmbeddingJob) : Indexing Unit := do
  let vector ← embed settings job.narrativeText (some job.profileModel)
  let tsFrom ← awaitIndex .now
  let tsTo ← awaitIndex .now
  awaitIndex (.upsert settings.qdrantAliasName
    { id := job.analysisWindowId, vector, payload := payload job tsFrom tsTo })

/-- The body of the loop of `run`: an exception is logged, and the job is acknowledged. -/
def indexJob (job : Publication EmbeddingJob) : Indexing Unit := do
  tryCatch (upsertJob settings job.message) fun _ => pure ()
  awaitIndex (.xack job)

/-- What `run` does before its loop. -/
def prepare [CharData] : Indexing String := do
  let probeVector ← embed settings "PIL embedding capability probe." none
  ensureCollection settings.qdrantAliasName settings.wormsoftEmbeddingModel probeVector.length

end Handle

/-! ## What the commands do -/

/-- What the indexer does not decide: which calls raise, given how many were made, and the
vectors.  A response without a vector raises. -/
structure IndexEnv where
  faults : ℕ → IndexCmd → Bool := fun _ _ => false
  embedding : ℕ → String → String → List ℚ := fun _ _ _ => []

namespace IndexEnv

variable (env : IndexEnv)

/-- What a command does if the surroundings let it. -/
def effect : (c : IndexCmd) → World → Except Exc (IndexAns c) × World
  | .embed text model, s =>
    match env.embedding s.calls text model with
    | [] => (.error (.runtime "wormsoft_embedding_response_missing_vector"), s)
    | vector => (.ok vector, s)
  | .collectionExists name, s => (.ok (s.qdrant.collectionExists name), s)
  | .createCollection name size, s =>
    match s.qdrant.createCollection name size with
    | none => (.error .callFailed, s)
    | some qdrant => (.ok (), { s with qdrant })
  | .getAliases, s => (.ok s.qdrant.aliases, s)
  | .updateCollectionAliases operations, s =>
    (.ok (), { s with qdrant := s.qdrant.changeAliases operations })
  | .now, s => (.ok s.now, s)
  | .upsert name point, s =>
    match s.qdrant.upsert name point with
    | none => (.error .callFailed, s)
    | some qdrant => (.ok (), { s with qdrant })
  | .xack _, s => (.ok (), s)

/-- A call that raises has no effect. -/
def run : Handler IndexCmd IndexAns Exc World := fun c s =>
  if env.faults s.calls c then (.error .callFailed, s.tick)
  else ((env.effect c s).1, (env.effect c s).2.tick)

end IndexEnv

end Memory
end PersonalIntelligence
