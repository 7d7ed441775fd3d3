import PersonalIntelligence.Library.Resumption
import PersonalIntelligence.Memory.Stores

/-!
# `erase_person_cascade` of `mcp_rest_api/app.py`

The erase endpoint validates the person, deletes the canonical rows in one transaction,
and then cleans up the vector store, the graph and the object store.  A failure of one of
these three is a warning of the summary.  The summary is logged last.
-/

namespace PersonalIntelligence
namespace Memory

open Resumption

/-- The settings of the REST service that the cascade reads. -/
structure RestSettings where
  qdrantAliasName : String := "pil_memory_active"
  /-- There is a driver. -/
  neo4jEnabled : Bool := false
  /-- `s3.is_configured`. -/
  s3Configured : Bool := false
  deriving DecidableEq, Repr

/-! ## Statements -/

namespace Db

variable (db : Db)

/-- `SELECT id, display_name, tg_user_id, is_owner FROM person WHERE id = $1`. -/
def selectPerson (personId : Ident) : Option Person :=
  db.person.find? fun row => row.id = personId

/-- `SELECT EXISTS(SELECT 1 FROM owner_profile WHERE backing_person_id = $1)`. -/
def backsOwner (personId : Ident) : Bool :=
  db.ownerProfile.any fun row => row.backingPersonId = some personId

/-- `SELECT count(*) FROM relationship_annotation WHERE person_id = $1`. -/
def countAnnotations (personId : Ident) : ℕ :=
  db.relationshipAnnotation.countP fun row => row.personId = some personId

/-- `SELECT count(*) FROM chat_membership WHERE person_id = $1`. -/
def countMemberships (personId : Ident) : ℕ :=
  db.chatMembership.countP fun row => row.personId = personId

/-- `SELECT count(*) FROM mention WHERE speaker_person_id = $1 OR mentioned_person_id = $1`. -/
def countMentions (personId : Ident) : ℕ :=
  db.mention.countP fun row => row.speakerPersonId = personId ∨ row.mentionedPersonId = personId

/-- `SELECT id FROM task WHERE owner_person_id = $1 OR counterpart_person_id = $1`. -/
def tasksOf (personId : Ident) : List Ident :=
  (db.task.filter fun row =>
    row.ownerPersonId = some personId ∨ row.counterpartPersonId = some personId).map (·.id)

/-- `SELECT id, source_object_ref FROM interaction WHERE $1 = ANY(participants)`. -/
def interactionsOf (personId : Ident) : List (Ident × Option ArtifactKey) :=
  (db.interaction.filter fun row => personId ∈ row.participants).map fun row =>
    (row.id, row.sourceObjectRef)

/-- `SELECT id FROM analysis_window WHERE $1 = ANY(participant_tg_ids)`. -/
def windowsOf (tgUserId : ℤ) : List Ident :=
  (db.analysisWindow.filter fun row => tgUserId ∈ row.participantTgIds).map (·.id)

/-- `DELETE FROM analytics_signal WHERE window_id = ANY($1)`. -/
def deleteSignalsOf (windowIds : List Ident) : Db :=
  { db with analyticsSignal := db.analyticsSignal.filter fun row => row.windowId ∉ windowIds }

/-- `DELETE FROM extracted_fact WHERE window_id = ANY($1)`. -/
def deleteFactsOf (windowIds : List Ident) : Db :=
  { db with extractedFact := db.extractedFact.filter fun row => row.windowId ∉ windowIds }

/-- `DELETE FROM analysis_window WHERE id = ANY($1)`.  Facts and signals go with their
window (`ON DELETE CASCADE`). -/
def deleteWindows (windowIds : List Ident) : Db :=
  { (db.deleteSignalsOf windowIds).deleteFactsOf windowIds with
    analysisWindow := db.analysisWindow.filter fun row => row.id ∉ windowIds }

/-- `DELETE FROM interaction WHERE id = ANY($1)`. -/
def deleteInteractions (ids : List Ident) : Db :=
  { db with interaction := db.interaction.filter fun row => row.id ∉ ids }

/-- `DELETE FROM task WHERE id = ANY($1)`. -/
def deleteTasks (ids : List Ident) : Db :=
  { db with task := db.task.filter fun row => row.id ∉ ids }

/-- A foreign key `ON DELETE SET NULL`. -/
def clearReference (personId : Ident) (reference : Option Ident) : Option Ident :=
  if reference = some personId then none else reference

/-- `DELETE FROM person WHERE id = $1`, with the foreign keys that point to it. -/
def deletePerson (personId : Ident) : Db :=
  { db with
    person := db.person.filter (·.id ≠ personId)
    chatMembership := db.chatMembership.filter (·.personId ≠ personId)
    mention := db.mention.filter fun row =>
      row.speakerPersonId ≠ personId ∧ row.mentionedPersonId ≠ personId
    relationshipAnnotation := db.relationshipAnnotation.filter (·.personId ≠ some personId)
    task := db.task.map fun row =>
      { row with
        ownerPersonId := clearReference personId row.ownerPersonId
        counterpartPersonId := clearReference personId row.counterpartPersonId }
    ownerProfile := db.ownerProfile.map fun row =>
      { row with backingPersonId := clearReference personId row.backingPersonId } }

end Db

/-! ## Commands -/

/-- The calls the cascade waits for. -/
inductive EraseCmd where
  | selectPerson (personId : Ident)
  | selectOwnerBacking (personId : Ident)
  | begin
  | commit
  | rollback
  | countAnnotations (personId : Ident)
  | countMemberships (personId : Ident)
  | countMentions (personId : Ident)
  | selectTasks (personId : Ident)
  | selectInteractions (personId : Ident)
  | selectWindows (tgUserId : ℤ)
  | deleteSignals (windowIds : List Ident)
  | deleteFacts (windowIds : List Ident)
  | deleteWindows (windowIds : List Ident)
  | deleteInteractions (ids : List Ident)
  | deleteTasks (ids : List Ident)
  | deletePerson (personId : Ident)
  | deletePoints (collectionName : String) (personId : Ident)
  | deleteNode (personId : Ident)
  | deleteObject (key : ArtifactKey)
  | insertAuditEntry (row : AuditLog)
  deriving DecidableEq, Repr

/-- What each command answers.  A deletion answers the number of its rows. -/
abbrev EraseAns : EraseCmd → Type
  | .selectPerson _ => Option Person
  | .selectOwnerBacking _ => Bool
  | .countAnnotations _ | .countMemberships _ | .countMentions _ => ℕ
  | .selectTasks _ | .selectWindows _ => List Ident
  | .selectInteractions _ => List (Ident × Option ArtifactKey)
  | .deleteSignals _ | .deleteFacts _ | .deleteWindows _ | .deleteInteractions _
  | .deleteTasks _ | .deletePerson _ => ℕ
  | _ => Unit

abbrev Erasing := Prog EraseCmd EraseAns Exc

/-- One command, awaited where it stands. -/
abbrev ask (c : EraseCmd) : Erasing (EraseAns c) := Prog.perform c

/-! ## The cascade -/

/-- `_validate_person_erase_target`. -/
def validatePersonEraseTarget (personId : Ident) : Erasing Person := do
  match ← ask (.selectPerson personId) with
  | none => throw (.http 404 "person_not_found")
  | some person => do
    let ownerBacking ← ask (.selectOwnerBacking personId)
    if person.isOwner || ownerBacking then throw (.http 400 "owner_profile_cannot_be_erased")
    else pure person

/-- What the transaction leaves in variables. -/
structure ErasedRows where
  relationshipCount : ℕ
  membershipCount : ℕ
  mentionCount : ℕ
  sourceObjectRefs : List ArtifactKey
  deletedAnalyticsSignals : ℕ
  deletedExtractedFacts : ℕ
  deletedAnalysisWindows : ℕ
  deletedInteractions : ℕ
  deletedTasks : ℕ
  deletedPeople : ℕ
  deriving DecidableEq, Repr

/-- `if ids: deleted = ...`. -/
def ifAny (ids : List Ident) (delete : Erasing ℕ) : Erasing ℕ :=
  if ids = [] then pure 0 else delete

/-- `window_rows`, of a person who has a Telegram account. -/
def selectWindowRows : Option ℤ → Erasing (List Ident)
  | some tgUserId => ask (.selectWindows tgUserId)
  | none => pure []

/-- The body of the transaction. -/
def eraseRows (personId : Ident) (tgUserId : Option ℤ) : Erasing ErasedRows := do
  let relationshipCount ← ask (.countAnnotations personId)
  let membershipCount ← ask (.countMemberships personId)
  let mentionCount ← ask (.countMentions personId)
  let taskIds ← ask (.selectTasks personId)
  let interactionRows ← ask (.selectInteractions personId)
  let windowIds ← selectWindowRows tgUserId
  let interactionIds := interactionRows.map (·.1)
  let sourceObjectRefs := interactionRows.filterMap (·.2)
  let deletedAnalyticsSignals ← ifAny windowIds (ask (.deleteSignals windowIds))
  let deletedExtractedFacts ← ifAny windowIds (ask (.deleteFacts windowIds))
  let deletedAnalysisWindows ← ifAny windowIds (ask (.deleteWindows windowIds))
  let deletedInteractions ← ifAny interactionIds (ask (.deleteInteractions interactionIds))
  let deletedTasks ← ifAny taskIds (ask (.deleteTasks taskIds))
  let deletedPeople ← ask (.deletePerson personId)
  if deletedPeople = 0 then throw (.http 404 "person_not_found")
  else
    pure
      { relationshipCount, membershipCount, mentionCount, sourceObjectRefs,
        deletedAnalyticsSignals, deletedExtractedFacts, deletedAnalysisWindows,
        deletedInteractions, deletedTasks, deletedPeople }

/-- `try: ... except Exception: warnings.append(warning)`. -/
def warned (warning : EraseWarning) (cleanup : Erasing Unit) : Erasing (List EraseWarning) :=
  tryCatch (do cleanup; pure []) fun _ => pure [warning]

/-- The loop over the objects, which ends at the first failure. -/
def deleteObjects : List ArtifactKey → ℕ → Erasing (ℕ × List EraseWarning)
  | [], deletedObjectRefs => pure (deletedObjectRefs, [])
  | key :: rest, deletedObjectRefs => do
    match ← warned .s3CleanupFailed (ask (.deleteObject key)) with
    | [] => deleteObjects rest (deletedObjectRefs + 1)
    | warnings => pure (deletedObjectRefs, warnings)

/-- The clean-up of the vector store. -/
def erasePoints (settings : RestSettings) (personId : Ident) : Erasing (List EraseWarning) :=
  warned .qdrantCleanupFailed (ask (.deletePoints settings.qdrantAliasName personId))

/-- The clean-up of the graph. -/
def eraseNode (settings : RestSettings) (personId : Ident) : Erasing (List EraseWarning) :=
  if settings.neo4jEnabled then warned .neo4jCleanupFailed (ask (.deleteNode personId))
  else pure []

/-- The clean-up of the object store. -/
def eraseObjects (settings : RestSettings) (sourceObjectRefs : List ArtifactKey) :
    Erasing (ℕ × List EraseWarning) :=
  if sourceObjectRefs = [] then pure (0, [])
  else if settings.s3Configured then deleteObjects sourceObjectRefs 0
  else pure (0, [.s3NotConfigured])

/-- What follows the transaction, up to the audit entry. -/
def eraseDerived (settings : RestSettings) (personId : Ident)
    (sourceObjectRefs : List ArtifactKey) : Erasing (ℕ × List EraseWarning) := do
  let vectorWarnings ← erasePoints settings personId
  let graphWarnings ← eraseNode settings personId
  let (deletedObjectRefs, objectWarnings) ← eraseObjects settings sourceObjectRefs
  pure (deletedObjectRefs, vectorWarnings ++ graphWarnings ++ objectWarnings)

/-- The `summary` dictionary. -/
def eraseSummary (targetHash : ℕ) (person : Person) (personId : Ident) (rows : ErasedRows)
    (deletedObjectRefs : ℕ) (warnings : List EraseWarning) : EraseSummary where
  personId
  displayName := person.displayName
  targetHash
  deleted :=
    { person := rows.deletedPeople
      relationshipAnnotations := rows.relationshipCount
      memberships := rows.membershipCount
      mentions := rows.mentionCount
      tasks := rows.deletedTasks
      analysisWindows := rows.deletedAnalysisWindows
      analyticsSignals := rows.deletedAnalyticsSignals
      extractedFacts := rows.deletedExtractedFacts
      interactions := rows.deletedInteractions
      interactionArtifacts := deletedObjectRefs }
  warnings

/-- The transaction of `erase_person_cascade`. -/
def eraseTransaction (personId : Ident) (tgUserId : Option ℤ) : Erasing ErasedRows :=
  Prog.transaction (ask .begin) (ask .commit) (ask .rollback) (eraseRows personId tgUserId)

/-- `erase_person_cascade`.  `hashIdentifier` is the SHA-256 digest. -/
def erasePersonCascade (hashIdentifier : Ident → ℕ) (settings : RestSettings) (actor : String)
    (personId : Ident) : Erasing EraseSummary := do
  let person ← validatePersonEraseTarget personId
  let rows ← eraseTransaction personId person.tgUserId
  let (deletedObjectRefs, warnings) ← eraseDerived settings personId rows.sourceObjectRefs
  let summary := eraseSummary (hashIdentifier personId) person personId rows deletedObjectRefs
    warnings
  ask (.insertAuditEntry
    { actor
      action := "system.erase.person"
      target := .hash (hashIdentifier personId)
      requestId := none
      payload := .erasePerson summary })
  pure summary

/-! ## What the commands do -/

/-- The commands that the surroundings never refuse. -/
def EraseCmd.infallible : EraseCmd → Bool
  | .rollback => true
  | _ => false

/-- What a command does if the surroundings let it.  Qdrant refuses a name that reaches
no collection. -/
def World.erase : (c : EraseCmd) → World → Except Exc (EraseAns c) × World
  | .selectPerson personId, s => (.ok (s.tables.selectPerson personId), s)
  | .selectOwnerBacking personId, s => (.ok (s.tables.backsOwner personId), s)
  | .begin, s => (.ok (), { s with tx := some s.db })
  | .commit, s => (.ok (), { s with db := s.tables, tx := none })
  | .rollback, s => (.ok (), { s with tx := none })
  | .countAnnotations personId, s => (.ok (s.tables.countAnnotations personId), s)
  | .countMemberships personId, s => (.ok (s.tables.countMemberships personId), s)
  | .countMentions personId, s => (.ok (s.tables.countMentions personId), s)
  | .selectTasks personId, s => (.ok (s.tables.tasksOf personId), s)
  | .selectInteractions personId, s => (.ok (s.tables.interactionsOf personId), s)
  | .selectWindows tgUserId, s => (.ok (s.tables.windowsOf tgUserId), s)
  | .deleteSignals windowIds, s =>
    (.ok (s.tables.analyticsSignal.countP fun row => row.windowId ∈ windowIds),
      s.setTables (s.tables.deleteSignalsOf windowIds))
  | .deleteFacts windowIds, s =>
    (.ok (s.tables.extractedFact.countP fun row => row.windowId ∈ windowIds),
      s.setTables (s.tables.deleteFactsOf windowIds))
  | .deleteWindows windowIds, s =>
    (.ok (s.tables.analysisWindow.countP fun row => row.id ∈ windowIds),
      s.setTables (s.tables.deleteWindows windowIds))
  | .deleteInteractions ids, s =>
    (.ok (s.tables.interaction.countP fun row => row.id ∈ ids),
      s.setTables (s.tables.deleteInteractions ids))
  | .deleteTasks ids, s =>
    (.ok (s.tables.task.countP fun row => row.id ∈ ids), s.setTables (s.tables.deleteTasks ids))
  | .deletePerson personId, s =>
    (.ok (s.tables.person.countP fun row => row.id = personId),
      s.setTables (s.tables.deletePerson personId))
  | .deletePoints collectionName personId, s =>
    match s.qdrant.deletePerson collectionName personId with
    | none => (.error .callFailed, s)
    | some qdrant => (.ok (), { s with qdrant })
  | .deleteNode personId, s => (.ok (), { s with graph := s.graph.detachDelete personId })
  | .deleteObject key, s => (.ok (), { s with objects := Function.update s.objects key none })
  | .insertAuditEntry row, s => (.ok (), s.setTables (s.tables.insertAuditLog row))

/-- Which calls of the cascade raise, given how many calls were made. -/
structure EraseEnv where
  faults : ℕ → EraseCmd → Bool := fun _ _ => false

/-- A call that raises has no effect. -/
def EraseEnv.run (env : EraseEnv) : Handler EraseCmd EraseAns Exc World := fun c s =>
  if !c.infallible && env.faults s.calls c then (.error .callFailed, s.tick)
  else ((s.erase c).1, (s.erase c).2.tick)

end Memory
end PersonalIntelligence
