import PersonalIntelligence.Library.Pool
import PersonalIntelligence.Memory.EraseRuns
import PersonalIntelligence.Memory.Indexer
import PersonalIntelligence.Memory.ProjectedTables

/-!
# The services beside each other

`memory-projector`, `embedding-indexer` and the erase endpoint share the stores, the stream
of embedding jobs and the alias of the vector store.  A projection or an erase has a
transaction and a rest.  Postgres serialises transactions, so one is a single step here
(`commitProjection`, `commitErase`); what follows it is run call by call, in any order with
the calls of all other programs, and so are the start of an indexer and the handling of a
job.
-/

namespace PersonalIntelligence
namespace Memory

open PyText Resumption

/-! ## The parts of a program -/

/-- `_handle_projection` up to the commit; nothing is returned for a processed command. -/
def commitProjection [CharData] (settings : Settings) (command : ProjectionCommand) :
    Projecting (Option Projected) := do
  if ← await (.selectProcessed command.commandId) then pure none
  else do
    let projected ← transaction (projectBody settings command)
    pure (some projected)

/-- What `run` does with an entry after the commit. -/
def finishEntry (settings : Settings) (entry : StreamEntry) (projected : Projected) :
    Projecting Unit := do
  tryCatch (do
    projectNeo4j settings entry.command projected.participantMap
    publish settings entry.command projected) fun _ => pure ()
  await (.xack entry)

/-- `erase_person_cascade` up to the commit. -/
def commitErase (personId : Ident) : Erasing (Person × ErasedRows) := do
  let person ← validatePersonEraseTarget personId
  let rows ← eraseTransaction personId person.tgUserId
  pure (person, rows)

/-- `erase_person_cascade` after the commit. -/
def finishErase (hashIdentifier : Ident → ℕ) (settings : RestSettings) (actor : String)
    (personId : Ident) (person : Person) (rows : ErasedRows) : Erasing EraseSummary := do
  let (deletedObjectRefs, warnings) ← eraseDerived settings personId rows.sourceObjectRefs
  let summary := eraseSummary (hashIdentifier personId) person personId rows deletedObjectRefs
    warnings
  ask (.insertAuditEntry
    { actor
      action := "system.erase.person"
      target := .hash (hashIdentifier personId)
      requestId := none
      payload := .erasePerson summary })
  pure summary

/-- An entry that is handled without interruption. -/
theorem exec_handleEntry [CharData] (env : Env) (settings : Settings) (entry : StreamEntry)
    (s : World) : exec env.run (handleEntry settings entry) s =
      match exec env.run (commitProjection settings entry.command) s with
      | (.ok (some projected), s') => exec env.run (finishEntry settings entry projected) s'
      | (_, s') => exec env.run (await (.xack entry)) s' := by
  have hhandle : handleProjection settings entry.command =
      commitProjection settings entry.command >>= fun committed =>
        match committed with
        | some projected => do
          projectNeo4j settings entry.command projected.participantMap
          publish settings entry.command projected
        | none => pure () := by
    unfold handleProjection commitProjection
    rw [Prog.bind_assoc]
    refine congrArg _ (funext fun processed => ?_)
    cases processed with
    | true => rfl
    | false =>
      rw [if_neg Bool.false_ne_true, if_neg Bool.false_ne_true, Prog.bind_assoc]
      rfl
  unfold handleEntry
  rw [exec_bind, exec_tryCatch, hhandle, exec_bind]
  rcases exec env.run (commitProjection settings entry.command) s with ⟨e | _ | projected, s'⟩
  · rfl
  · rfl
  · have hfinish := exec_bind env.run
      (tryCatch (do
        projectNeo4j settings entry.command projected.participantMap
        publish settings entry.command projected) fun _ => pure ())
      (fun _ => await (.xack entry)) s'
    rw [exec_tryCatch] at hfinish
    exact hfinish.symm

/-- An erase without interruption. -/
theorem erasePersonCascade_eq (hashIdentifier : Ident → ℕ) (settings : RestSettings)
    (actor : String) (personId : Ident) :
    erasePersonCascade hashIdentifier settings actor personId =
      commitErase personId >>= fun committed =>
        finishErase hashIdentifier settings actor personId committed.1 committed.2 := by
  unfold erasePersonCascade commitErase
  rw [Prog.bind_assoc]
  refine congrArg _ (funext fun person => ?_)
  rw [Prog.bind_assoc]
  rfl

/-! ## The system -/

/-- How the services are set up, and what they do not decide. -/
structure Deployment where
  env : Env := {}
  settings : Settings := {}
  indexEnv : IndexEnv := {}
  eraseEnv : EraseEnv := {}
  restSettings : RestSettings := {}
  hashIdentifier : Ident → ℕ := id
  actor : String := "system"

/-- The stores, and what is left of the programs. -/
structure Services where
  world : World := {}
  /-- The projections that were committed. -/
  projections : List (Projected × Projecting Unit) := []
  /-- The indexers that are starting. -/
  starts : List (IndexerSettings × Indexing String) := []
  /-- How many jobs were taken from the stream. -/
  taken : ℕ := 0
  jobs : List (Publication EmbeddingJob × Indexing Unit) := []
  /-- The erases that were committed, by person. -/
  erasures : List (Ident × Erasing EraseSummary) := []

/-- What may happen next. -/
inductive Event where
  | clock (now : Timestamp)
  | project (entry : StreamEntry)
  | continueProjection (i : ℕ)
  | start (settings : IndexerSettings)
  | continueStart (i : ℕ)
  | take (settings : IndexerSettings)
  | continueJob (i : ℕ)
  | erase (personId : Ident)
  | continueErasure (i : ℕ)
  deriving DecidableEq, Repr

namespace Deployment

variable [CharData] (d : Deployment)

/-- One step. -/
def step (y : Services) : Event → Services
  | .clock now => { y with world := y.world.at now }
  | .project entry =>
    match exec d.env.run (commitProjection d.settings entry.command) y.world with
    | (.ok (some projected), world) =>
      { y with
        world
        projections := y.projections ++ [(projected, finishEntry d.settings entry projected)] }
    | (_, world) => { y with world := (exec d.env.run (await (.xack entry)) world).2 }
  | .continueProjection i =>
    let (projections, world) := Pool.advance d.env.run y.projections i y.world
    { y with world, projections }
  | .start settings => { y with starts := y.starts ++ [(settings, prepare settings)] }
  | .continueStart i =>
    let (starts, world) := Pool.advance d.indexEnv.run y.starts i y.world
    { y with world, starts }
  | .take settings =>
    match y.world.embeddingRequested[y.taken]? with
    | none => y
    | some job => { y with taken := y.taken + 1, jobs := y.jobs ++ [(job, indexJob settings job)] }
  | .continueJob i =>
    let (jobs, world) := Pool.advance d.indexEnv.run y.jobs i y.world
    { y with world, jobs }
  | .erase personId =>
    match exec d.eraseEnv.run (commitErase personId) y.world with
    | (.ok (person, rows), world) =>
      { y with
        world
        erasures := y.erasures ++ [(personId,
          finishErase d.hashIdentifier d.restSettings d.actor personId person rows)] }
    | (.error _, world) => { y with world }
  | .continueErasure i =>
    let (erasures, world) := Pool.advance d.eraseEnv.run y.erasures i y.world
    { y with world, erasures }

section Steps

variable {d} {y : Services} {entry : StreamEntry} {personId : Ident} {world : World}

theorem step_project_of_some {projected : Projected}
    (h : exec d.env.run (commitProjection d.settings entry.command) y.world =
      (.ok (some projected), world)) : d.step y (.project entry) = { y with
        world
        projections := y.projections ++
          [(projected, finishEntry d.settings entry projected)] } := by
  simp only [step, h]

theorem step_project_of_none
    (h : exec d.env.run (commitProjection d.settings entry.command) y.world = (.ok none, world)) :
    d.step y (.project entry) =
      { y with world := (exec d.env.run (await (.xack entry)) world).2 } := by
  simp only [step, h]

theorem step_project_of_error {e : Exc}
    (h : exec d.env.run (commitProjection d.settings entry.command) y.world = (.error e, world)) :
    d.step y (.project entry) =
      { y with world := (exec d.env.run (await (.xack entry)) world).2 } := by
  simp only [step, h]

theorem step_take_of_none {settings : IndexerSettings}
    (h : y.world.embeddingRequested[y.taken]? = none) : d.step y (.take settings) = y := by
  simp only [step, h]

theorem step_take_of_some {settings : IndexerSettings} {job : Publication EmbeddingJob}
    (h : y.world.embeddingRequested[y.taken]? = some job) : d.step y (.take settings) =
      { y with taken := y.taken + 1, jobs := y.jobs ++ [(job, indexJob settings job)] } := by
  simp only [step, h]

theorem step_erase_of_ok {person : Person} {rows : ErasedRows}
    (h : exec d.eraseEnv.run (commitErase personId) y.world = (.ok (person, rows), world)) :
    d.step y (.erase personId) = { y with
      world
      erasures := y.erasures ++ [(personId,
        finishErase d.hashIdentifier d.restSettings d.actor personId person rows)] } := by
  simp only [step, h]

theorem step_erase_of_error {e : Exc}
    (h : exec d.eraseEnv.run (commitErase personId) y.world = (.error e, world)) :
    d.step y (.erase personId) = { y with world } := by
  simp only [step, h]

end Steps

/-- Steps one after the other. -/
def steps (y : Services) (events : List Event) : Services := events.foldl d.step y

end Deployment

/-- The stores before anything happened, with a vector store of any contents. -/
def Services.begin (mentions : List Mention) (annotations : List RelationshipAnnotation)
    (owners : List OwnerProfile) (qdrant : Qdrant) : Services where
  world := { World.start mentions annotations owners with qdrant }

end Memory
end PersonalIntelligence
