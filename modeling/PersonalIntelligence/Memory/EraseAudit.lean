import PersonalIntelligence.Library.Lockstep
import PersonalIntelligence.Memory.EraseRetry
import Mathlib.Logic.Equiv.Basic

/-!
# What the audit entry of an erase reveals

The audit entry of an erase names its target by a hash.  Whether it reveals more is a
question about two runs: rename the person in every store, give it another display name,
and see whether the entry changes.  The two runs go in lockstep (`erase_lockstep`), so the
counts and the warnings are the same.  But the payload of the entry is the whole summary,
with the id and the display name of the person in it, so the entries are the same only if
these are, or if there is no entry at all (`auditRows_eq_iff`).

There is no entry if the erase raises.  It catches nothing but the failures of its clean-up,
so it raises exactly if there is nobody to erase or a call of Postgres raises
(`erase_error_iff`).  One direction reads this off the text, since every part of the erase
reports such a failure.  For the other, a run without it is a run of the environment in
which only the clean-up can fail, and there an erase is known to return.
-/

namespace PersonalIntelligence
namespace Memory

open Resumption

/-! ## Renaming a person -/

/-- Other identifiers for the persons, and another display name for one of them. -/
structure Renaming where
  ids : Equiv.Perm Ident
  personId : Ident
  displayName : String

namespace Renaming

variable (ρ : Renaming)

/-- The display name of a person that had `displayName`. -/
def nameOf (personId : Ident) (displayName : String) : String :=
  if personId = ρ.personId then ρ.displayName else displayName

def person (row : Person) : Person :=
  { row with id := ρ.ids row.id, displayName := ρ.nameOf row.id row.displayName }

def summary (x : EraseSummary) : EraseSummary :=
  { x with personId := ρ.ids x.personId, displayName := ρ.nameOf x.personId x.displayName }

def auditLog (row : AuditLog) : AuditLog :=
  { row with
    payload := match row.payload with
      | .erasePerson x => .erasePerson (ρ.summary x)
      | payload => payload }

/-- The tables: every column that refers to a person. -/
def db (t : Db) : Db :=
  { t with
    person := t.person.map ρ.person
    chatMembership := t.chatMembership.map fun row => { row with personId := ρ.ids row.personId }
    task := t.task.map fun row =>
      { row with
        ownerPersonId := row.ownerPersonId.map ρ.ids
        counterpartPersonId := row.counterpartPersonId.map ρ.ids }
    interaction := t.interaction.map fun row =>
      { row with participants := row.participants.map ρ.ids }
    mention := t.mention.map fun row =>
      { row with
        speakerPersonId := ρ.ids row.speakerPersonId
        mentionedPersonId := ρ.ids row.mentionedPersonId }
    relationshipAnnotation := t.relationshipAnnotation.map fun row =>
      { row with personId := row.personId.map ρ.ids }
    ownerProfile := t.ownerProfile.map fun row =>
      { row with backingPersonId := row.backingPersonId.map ρ.ids }
    auditLog := t.auditLog.map ρ.auditLog }

def graph (g : Graph) : Graph :=
  { g with
    persons := g.persons.map fun node => (ρ.ids node.1, node.2)
    participatesIn := g.participatesIn.map fun edge => (ρ.ids edge.1, edge.2)
    communicatedWith := g.communicatedWith.map fun edge =>
      { edge with personA := ρ.ids edge.personA, personB := ρ.ids edge.personB }
    mentionedTopic := g.mentionedTopic.map fun edge => (ρ.ids edge.1, edge.2) }

def point (p : Point) : Point :=
  { p with payload := { p.payload with personIds := p.payload.personIds.map ρ.ids } }

def collection (c : Collection) : Collection := { c with points := c.points.map ρ.point }

def qdrant (q : Qdrant) : Qdrant :=
  { q with collections := fun name => (q.collections name).map ρ.collection }

/-- The same stores, but for who the person is. -/
def world (s : World) : World :=
  { s with
    db := ρ.db s.db
    tx := s.tx.map ρ.db
    graph := ρ.graph s.graph
    qdrant := ρ.qdrant s.qdrant
    embeddingRequested := s.embeddingRequested.map fun job =>
      { job with message := { job.message with personIds := job.message.personIds.map ρ.ids } }
    interactionUpdated := s.interactionUpdated.map fun event =>
      { event with
        message := { event.message with participants := event.message.participants.map ρ.ids } } }

/-- The call that goes with a call. -/
def cmd : EraseCmd → EraseCmd
  | .selectPerson personId => .selectPerson (ρ.ids personId)
  | .selectOwnerBacking personId => .selectOwnerBacking (ρ.ids personId)
  | .countAnnotations personId => .countAnnotations (ρ.ids personId)
  | .countMemberships personId => .countMemberships (ρ.ids personId)
  | .countMentions personId => .countMentions (ρ.ids personId)
  | .selectTasks personId => .selectTasks (ρ.ids personId)
  | .selectInteractions personId => .selectInteractions (ρ.ids personId)
  | .deletePerson personId => .deletePerson (ρ.ids personId)
  | .deletePoints collectionName personId => .deletePoints collectionName (ρ.ids personId)
  | .deleteNode personId => .deleteNode (ρ.ids personId)
  | .insertAuditEntry row => .insertAuditEntry (ρ.auditLog row)
  | c => c

/-- The person that is found is another one; all other answers are the same. -/
def ans : (c : EraseCmd) → EraseAns c → EraseAns (ρ.cmd c) → Prop
  | .selectPerson personId, a, a' => a' = a.map ρ.person ∧ ∀ row ∈ a, row.id = personId
  | .selectOwnerBacking _, a, a' | .begin, a, a' | .commit, a, a' | .rollback, a, a'
  | .countAnnotations _, a, a' | .countMemberships _, a, a' | .countMentions _, a, a'
  | .selectTasks _, a, a' | .selectInteractions _, a, a' | .selectWindows _, a, a'
  | .deleteSignals _, a, a' | .deleteFacts _, a, a' | .deleteWindows _, a, a'
  | .deleteInteractions _, a, a' | .deleteTasks _, a, a' | .deletePerson _, a, a'
  | .deletePoints _ _, a, a' | .deleteNode _, a, a' | .deleteObject _, a, a'
  | .insertAuditEntry _, a, a' => a' = a

/-- The calls and answers of the renamed run. -/
def correspondence : Correspondence EraseCmd EraseAns := ⟨ρ.cmd, ρ.ans⟩

end Renaming

/-! ## The statements -/

namespace Db

variable (ρ : Renaming) (t : Db) (personId : Ident)

theorem selectPerson_renamed :
    (ρ.db t).selectPerson (ρ.ids personId) = (t.selectPerson personId).map ρ.person := by
  have hid : (fun row : Person => decide (row.id = ρ.ids personId)) ∘ ρ.person =
      fun row => decide (row.id = personId) := by
    funext row
    simp [Renaming.person]
  unfold selectPerson
  rw [Renaming.db, List.find?_map, hid]

theorem backsOwner_renamed : (ρ.db t).backsOwner (ρ.ids personId) = t.backsOwner personId := by
  simp [backsOwner, Renaming.db, Function.comp_def]

theorem countAnnotations_renamed :
    (ρ.db t).countAnnotations (ρ.ids personId) = t.countAnnotations personId := by
  simp [countAnnotations, Renaming.db, List.countP_map, Function.comp_def]

theorem countMemberships_renamed :
    (ρ.db t).countMemberships (ρ.ids personId) = t.countMemberships personId := by
  simp [countMemberships, Renaming.db, List.countP_map, Function.comp_def]

theorem countMentions_renamed :
    (ρ.db t).countMentions (ρ.ids personId) = t.countMentions personId := by
  simp [countMentions, Renaming.db, List.countP_map, Function.comp_def]

theorem tasksOf_renamed : (ρ.db t).tasksOf (ρ.ids personId) = t.tasksOf personId := by
  simp [tasksOf, Renaming.db, List.filter_map, Function.comp_def]

theorem interactionsOf_renamed :
    (ρ.db t).interactionsOf (ρ.ids personId) = t.interactionsOf personId := by
  simp [interactionsOf, Renaming.db, List.filter_map, Function.comp_def]

theorem deleteInteractions_renamed (ids : List Ident) :
    (ρ.db t).deleteInteractions ids = ρ.db (t.deleteInteractions ids) := by
  simp [deleteInteractions, Renaming.db, List.filter_map, Function.comp_def]

theorem deleteTasks_renamed (ids : List Ident) :
    (ρ.db t).deleteTasks ids = ρ.db (t.deleteTasks ids) := by
  simp [deleteTasks, Renaming.db, List.filter_map, Function.comp_def]

theorem insertAuditLog_renamed (row : AuditLog) :
    (ρ.db t).insertAuditLog (ρ.auditLog row) = ρ.db (t.insertAuditLog row) := by
  simp [insertAuditLog, Renaming.db]

theorem countInteraction_renamed (ids : List Ident) :
    ((ρ.db t).interaction.countP fun row => row.id ∈ ids) =
      t.interaction.countP fun row => row.id ∈ ids := List.countP_map

theorem countTask_renamed (ids : List Ident) :
    ((ρ.db t).task.countP fun row => row.id ∈ ids) = t.task.countP fun row => row.id ∈ ids :=
  List.countP_map

theorem countPerson_renamed :
    ((ρ.db t).person.countP fun row => row.id = ρ.ids personId) =
      t.person.countP fun row => row.id = personId := by
  simp [Renaming.db, List.countP_map, Function.comp_def, Renaming.person]

theorem clearReference_renamed (reference : Option Ident) :
    clearReference (ρ.ids personId) (reference.map ρ.ids) =
      (clearReference personId reference).map ρ.ids := by
  cases reference with
  | none => simp [clearReference]
  | some id =>
    by_cases h : id = personId
    · simp [clearReference, h]
    · simp [clearReference, h]

theorem deletePerson_renamed :
    (ρ.db t).deletePerson (ρ.ids personId) = ρ.db (t.deletePerson personId) := by
  simp [deletePerson, Renaming.db, List.filter_map, Function.comp_def, Renaming.person,
    clearReference_renamed]

end Db

section Stores

variable (ρ : Renaming)

theorem Graph.detachDelete_renamed (g : Graph) (personId : Ident) :
    (ρ.graph g).detachDelete (ρ.ids personId) = ρ.graph (g.detachDelete personId) := by
  simp [Graph.detachDelete, Renaming.graph, List.filter_map, Function.comp_def]

theorem Point.names_renamed (p : Point) (personId : Ident) :
    (ρ.point p).Names (ρ.ids personId) ↔ p.Names personId := by
  simp [Point.Names, Renaming.point]

theorem Qdrant.set_renamed (q : Qdrant) (name : String) (c : Collection) :
    (ρ.qdrant q).set name (ρ.collection c) = ρ.qdrant (q.set name c) := by
  unfold Qdrant.set Renaming.qdrant
  congr 1
  funext other
  by_cases h : other = name
  · subst h
    simp
  · simp [h]

theorem Qdrant.deletePerson_renamed (q : Qdrant) (name : String) (personId : Ident) :
    (ρ.qdrant q).deletePerson name (ρ.ids personId) =
      (q.deletePerson name personId).map ρ.qdrant := by
  have hcollection : (ρ.qdrant q).collections ((ρ.qdrant q).resolve name) =
      (q.collections (q.resolve name)).map ρ.collection := rfl
  unfold Qdrant.deletePerson
  rw [hcollection]
  cases hc : q.collections (q.resolve name) with
  | none => rfl
  | some c =>
    have hpoints : (ρ.collection c).points.filter (fun p => ¬ p.Names (ρ.ids personId)) =
        (c.points.filter fun p => ¬ p.Names personId).map ρ.point := by
      simp [Renaming.collection, List.filter_map, Function.comp_def, Point.names_renamed]
    have hset := q.set_renamed ρ (q.resolve name)
      { c with points := c.points.filter fun p => ¬ p.Names personId }
    rw [Option.map_some, Option.map_some, ← hset]
    dsimp only
    rw [hpoints]
    rfl

theorem World.tables_renamed (s : World) : (ρ.world s).tables = ρ.db s.tables := by
  unfold World.tables Renaming.world
  cases s.tx <;> rfl

theorem World.setTables_renamed (s : World) (t : Db) :
    (ρ.world s).setTables (ρ.db t) = ρ.world (s.setTables t) := by
  cases htx : s.tx with
  | none =>
    rw [World.setTables_of_closed htx, World.setTables_of_closed (by simp [Renaming.world, htx])]
    simp [Renaming.world, htx]
  | some t' =>
    have hopen : (ρ.world s).tx = some (ρ.db t') := by simp [Renaming.world, htx]
    rw [World.setTables_of_open htx, World.setTables_of_open hopen]
    rfl

theorem World.erase_deletePoints_of_none {s : World} {name : String} {personId : Ident}
    (h : s.qdrant.deletePerson name personId = none) :
    s.erase (.deletePoints name personId) = (.error .callFailed, s) := by
  simp only [World.erase, h]

theorem World.erase_deletePoints_of_some {s : World} {name : String} {personId : Ident} {q : Qdrant}
    (h : s.qdrant.deletePerson name personId = some q) :
    s.erase (.deletePoints name personId) = (.ok (), { s with qdrant := q }) := by
  simp only [World.erase, h]

theorem World.erase_deletePoints_renamed (s : World) (name : String) (personId : Ident) :
    ((ρ.world s).erase (.deletePoints name (ρ.ids personId))).2 =
        ρ.world (s.erase (.deletePoints name personId)).2 ∧
      SameOutcome (ρ.ans (.deletePoints name personId)) (s.erase (.deletePoints name personId)).1
        ((ρ.world s).erase (.deletePoints name (ρ.ids personId))).1 := by
  have hdelete := s.qdrant.deletePerson_renamed ρ name personId
  cases hq : s.qdrant.deletePerson name personId with
  | none =>
    rw [hq, Option.map_none] at hdelete
    rw [World.erase_deletePoints_of_none hq, World.erase_deletePoints_of_none hdelete]
    exact ⟨rfl, .error _⟩
  | some q =>
    rw [hq, Option.map_some] at hdelete
    rw [World.erase_deletePoints_of_some hq, World.erase_deletePoints_of_some hdelete]
    exact ⟨rfl, .ok rfl⟩

/-- A command that reads. -/
theorem World.erase_read_renamed {s : World} {c : EraseCmd} {a : EraseAns c}
    {a' : EraseAns (ρ.cmd c)} (hread : s.erase c = (.ok a, s))
    (hread' : (ρ.world s).erase (ρ.cmd c) = (.ok a', ρ.world s)) (hans : ρ.ans c a a') :
    ((ρ.world s).erase (ρ.cmd c)).2 = ρ.world (s.erase c).2 ∧
      SameOutcome (ρ.ans c) (s.erase c).1 ((ρ.world s).erase (ρ.cmd c)).1 := by
  rw [hread, hread']
  exact ⟨rfl, .ok hans⟩

/-- A command that writes the tables. -/
theorem World.erase_write_renamed {s : World} {c : EraseCmd} {a : EraseAns c}
    {a' : EraseAns (ρ.cmd c)} {t t' : Db} (hwrite : s.erase c = (.ok a, s.setTables t))
    (hwrite' : (ρ.world s).erase (ρ.cmd c) = (.ok a', (ρ.world s).setTables t'))
    (hans : ρ.ans c a a') (ht : t' = ρ.db t) :
    ((ρ.world s).erase (ρ.cmd c)).2 = ρ.world (s.erase c).2 ∧
      SameOutcome (ρ.ans c) (s.erase c).1 ((ρ.world s).erase (ρ.cmd c)).1 := by
  rw [hwrite, hwrite', ht]
  exact ⟨s.setTables_renamed ρ t, .ok hans⟩

theorem World.erase_commit_renamed (s : World) :
    ((ρ.world s).erase .commit).2 = ρ.world (s.erase .commit).2 := by
  change { ρ.world s with db := (ρ.world s).tables, tx := none } = _
  rw [s.tables_renamed ρ]
  rfl

theorem World.erase_deleteNode_renamed (s : World) (personId : Ident) :
    ((ρ.world s).erase (.deleteNode (ρ.ids personId))).2 =
      ρ.world (s.erase (.deleteNode personId)).2 := by
  change { ρ.world s with graph := (ρ.graph s.graph).detachDelete (ρ.ids personId) } = _
  rw [Graph.detachDelete_renamed]
  rfl

/-- **One command of the renamed run** does what the command of the run does. -/
theorem World.erase_renamed (s : World) (c : EraseCmd) :
    ((ρ.world s).erase (ρ.cmd c)).2 = ρ.world (s.erase c).2 ∧
      SameOutcome (ρ.ans c) (s.erase c).1 ((ρ.world s).erase (ρ.cmd c)).1 := by
  have htables := s.tables_renamed ρ
  cases c with
  | begin => exact ⟨rfl, .ok rfl⟩
  | rollback => exact ⟨rfl, .ok rfl⟩
  | commit => exact ⟨s.erase_commit_renamed ρ, .ok rfl⟩
  | deleteObject key => exact ⟨rfl, .ok rfl⟩
  | deleteNode personId => exact ⟨s.erase_deleteNode_renamed ρ personId, .ok rfl⟩
  | deletePoints collectionName personId =>
    exact s.erase_deletePoints_renamed ρ collectionName personId
  | selectPerson personId =>
    refine World.erase_read_renamed ρ rfl rfl ?_
    rw [htables]
    exact ⟨Db.selectPerson_renamed ρ _ _, fun row hrow => id_of_selectPerson personId hrow⟩
  | selectOwnerBacking personId =>
    exact World.erase_read_renamed ρ rfl rfl (htables ▸ Db.backsOwner_renamed ρ _ _)
  | countAnnotations personId =>
    exact World.erase_read_renamed ρ rfl rfl (htables ▸ Db.countAnnotations_renamed ρ _ _)
  | countMemberships personId =>
    exact World.erase_read_renamed ρ rfl rfl (htables ▸ Db.countMemberships_renamed ρ _ _)
  | countMentions personId =>
    exact World.erase_read_renamed ρ rfl rfl (htables ▸ Db.countMentions_renamed ρ _ _)
  | selectTasks personId =>
    exact World.erase_read_renamed ρ rfl rfl (htables ▸ Db.tasksOf_renamed ρ _ _)
  | selectInteractions personId =>
    exact World.erase_read_renamed ρ rfl rfl (htables ▸ Db.interactionsOf_renamed ρ _ _)
  | selectWindows tgUserId =>
    exact World.erase_read_renamed ρ rfl rfl (htables ▸ rfl)
  | deleteSignals windowIds =>
    exact World.erase_write_renamed ρ rfl rfl (htables ▸ rfl) (htables ▸ rfl)
  | deleteFacts windowIds =>
    exact World.erase_write_renamed ρ rfl rfl (htables ▸ rfl) (htables ▸ rfl)
  | deleteWindows windowIds =>
    exact World.erase_write_renamed ρ rfl rfl (htables ▸ rfl) (htables ▸ rfl)
  | deleteInteractions ids =>
    exact World.erase_write_renamed ρ rfl rfl (htables ▸ Db.countInteraction_renamed ρ _ ids)
      (htables ▸ Db.deleteInteractions_renamed ρ _ ids)
  | deleteTasks ids =>
    exact World.erase_write_renamed ρ rfl rfl (htables ▸ Db.countTask_renamed ρ _ ids)
      (htables ▸ Db.deleteTasks_renamed ρ _ ids)
  | deletePerson personId =>
    exact World.erase_write_renamed ρ rfl rfl (htables ▸ Db.countPerson_renamed ρ _ personId)
      (htables ▸ Db.deletePerson_renamed ρ _ personId)
  | insertAuditEntry row =>
    exact World.erase_write_renamed ρ rfl rfl rfl (htables ▸ Db.insertAuditLog_renamed ρ _ row)

end Stores

/-! ## The two runs -/

section Lockstep

variable (ρ : Renaming) (settings : RestSettings) (personId : Ident)

theorem validate_lockstep :
    (validatePersonEraseTarget personId).Lockstep ρ.correspondence
      (fun row row' => row' = ρ.person row ∧ row.id = personId)
      (validatePersonEraseTarget (ρ.ids personId)) := by
  refine Prog.lockstep_perform_bind (R := ρ.correspondence) (.selectPerson personId) ?_
  rintro found _ ⟨rfl, hid⟩
  cases found with
  | none => exact Prog.lockstep_raise _
  | some person =>
    refine Prog.lockstep_perform_bind (R := ρ.correspondence) (.selectOwnerBacking personId) ?_
    rintro _ backing rfl
    change Prog.Lockstep _ _
      (if person.isOwner || backing then throw (Exc.http 400 "owner_profile_cannot_be_erased")
        else pure person)
      (if person.isOwner || backing then throw (Exc.http 400 "owner_profile_cannot_be_erased")
        else pure (ρ.person person))
    split_ifs
    · exact Prog.lockstep_raise _
    · exact Prog.lockstep_ret ⟨rfl, hid person rfl⟩

theorem ifAny_lockstep {ids : List Ident} {delete : Erasing ℕ}
    (h : delete.Lockstep ρ.correspondence Eq delete) :
    (ifAny ids delete).Lockstep ρ.correspondence Eq (ifAny ids delete) := by
  unfold ifAny
  split_ifs
  · exact Prog.lockstep_ret rfl
  · exact h

theorem selectWindowRows_lockstep (tgUserId : Option ℤ) :
    (selectWindowRows tgUserId).Lockstep ρ.correspondence Eq (selectWindowRows tgUserId) := by
  cases tgUserId with
  | none => exact Prog.lockstep_ret rfl
  | some u =>
    exact Prog.lockstep_perform (R := ρ.correspondence) (.selectWindows u) fun _ _ h => h.symm

/-- The transactions are the same, but for whom they delete. -/
theorem eraseTransaction_lockstep (tgUserId : Option ℤ) :
    (eraseTransaction personId tgUserId).Lockstep ρ.correspondence Eq
      (eraseTransaction (ρ.ids personId) tgUserId) := by
  refine Prog.Lockstep.transaction
    (Prog.lockstep_perform (R := ρ.correspondence) .begin fun _ _ _ => trivial)
    (Prog.lockstep_perform (R := ρ.correspondence) .commit fun _ _ _ => trivial)
    (Prog.lockstep_perform (R := ρ.correspondence) .rollback fun _ _ _ => trivial) ?_
  refine Prog.lockstep_perform_bind (R := ρ.correspondence) (.countAnnotations personId) ?_
  rintro _ relationshipCount rfl
  refine Prog.lockstep_perform_bind (R := ρ.correspondence) (.countMemberships personId) ?_
  rintro _ membershipCount rfl
  refine Prog.lockstep_perform_bind (R := ρ.correspondence) (.countMentions personId) ?_
  rintro _ mentionCount rfl
  refine Prog.lockstep_perform_bind (R := ρ.correspondence) (.selectTasks personId) ?_
  rintro _ taskIds rfl
  refine Prog.lockstep_perform_bind (R := ρ.correspondence) (.selectInteractions personId) ?_
  rintro _ interactionRows rfl
  refine (selectWindowRows_lockstep ρ tgUserId).bind ?_
  rintro windowIds _ rfl
  refine (ifAny_lockstep ρ (Prog.lockstep_perform (R := ρ.correspondence)
    (.deleteSignals windowIds) fun _ _ h => h.symm)).bind ?_
  rintro deletedAnalyticsSignals _ rfl
  refine (ifAny_lockstep ρ (Prog.lockstep_perform (R := ρ.correspondence) (.deleteFacts windowIds)
    fun _ _ h => h.symm)).bind ?_
  rintro deletedExtractedFacts _ rfl
  refine (ifAny_lockstep ρ (Prog.lockstep_perform (R := ρ.correspondence)
    (.deleteWindows windowIds) fun _ _ h => h.symm)).bind ?_
  rintro deletedAnalysisWindows _ rfl
  refine (ifAny_lockstep ρ (Prog.lockstep_perform (R := ρ.correspondence)
    (.deleteInteractions _) fun _ _ h => h.symm)).bind ?_
  rintro deletedInteractions _ rfl
  refine (ifAny_lockstep ρ (Prog.lockstep_perform (R := ρ.correspondence) (.deleteTasks taskIds)
    fun _ _ h => h.symm)).bind ?_
  rintro deletedTasks _ rfl
  refine Prog.lockstep_perform_bind (R := ρ.correspondence) (.deletePerson personId) ?_
  rintro (_ | n) _ rfl
  · exact Prog.lockstep_raise _
  · exact Prog.lockstep_ret rfl

theorem warned_lockstep (warning : EraseWarning) {cleanup cleanup' : Erasing Unit}
    (h : cleanup.Lockstep ρ.correspondence (fun _ _ => True) cleanup') :
    (warned warning cleanup).Lockstep ρ.correspondence Eq (warned warning cleanup') :=
  Prog.Lockstep.tryCatch (fun _ => Prog.lockstep_ret rfl)
    (h.bind fun _ _ _ => Prog.lockstep_ret rfl)

theorem deleteObjects_lockstep (keys : List ArtifactKey) (k : ℕ) :
    (deleteObjects keys k).Lockstep ρ.correspondence Eq (deleteObjects keys k) := by
  induction keys generalizing k with
  | nil => exact Prog.lockstep_ret rfl
  | cons key rest ih =>
    refine (warned_lockstep ρ .s3CleanupFailed (Prog.lockstep_perform (R := ρ.correspondence)
      (.deleteObject key) fun _ _ _ => trivial)).bind ?_
    rintro warnings _ rfl
    cases warnings with
    | nil => exact ih (k + 1)
    | cons warning rest => exact Prog.lockstep_ret rfl

theorem eraseDerived_lockstep (keys : List ArtifactKey) :
    (eraseDerived settings personId keys).Lockstep ρ.correspondence Eq
      (eraseDerived settings (ρ.ids personId) keys) := by
  have hnode : (eraseNode settings personId).Lockstep ρ.correspondence Eq
      (eraseNode settings (ρ.ids personId)) := by
    unfold eraseNode
    split_ifs
    · exact warned_lockstep ρ _ (Prog.lockstep_perform (R := ρ.correspondence)
        (.deleteNode personId) fun _ _ _ => trivial)
    · exact Prog.lockstep_ret rfl
  have hobjects : (eraseObjects settings keys).Lockstep ρ.correspondence Eq
      (eraseObjects settings keys) := by
    unfold eraseObjects
    split_ifs
    · exact Prog.lockstep_ret rfl
    · exact deleteObjects_lockstep ρ keys 0
    · exact Prog.lockstep_ret rfl
  refine (warned_lockstep ρ _ (Prog.lockstep_perform (R := ρ.correspondence)
    (.deletePoints settings.qdrantAliasName personId) fun _ _ _ => trivial)).bind ?_
  rintro vectorWarnings _ rfl
  refine hnode.bind ?_
  rintro graphWarnings _ rfl
  refine hobjects.bind ?_
  rintro objectWarnings _ rfl
  exact Prog.lockstep_ret rfl

/-- **The two erases** go in lockstep, and their summaries differ in the person. -/
theorem erase_lockstep {hashIdentifier : Ident → ℕ} (actor : String)
    (hhash : hashIdentifier (ρ.ids personId) = hashIdentifier personId) :
    (erasePersonCascade hashIdentifier settings actor personId).Lockstep ρ.correspondence
      (fun x y => y = ρ.summary x)
      (erasePersonCascade hashIdentifier settings actor (ρ.ids personId)) := by
  unfold erasePersonCascade
  refine (validate_lockstep ρ personId).bind ?_
  rintro person _ ⟨rfl, hid⟩
  refine (eraseTransaction_lockstep ρ personId person.tgUserId).bind ?_
  rintro rows _ rfl
  refine (eraseDerived_lockstep ρ settings personId rows.sourceObjectRefs).bind ?_
  rintro ⟨k, warnings⟩ _ rfl
  have hsummary : eraseSummary (hashIdentifier (ρ.ids personId)) (ρ.person person)
      (ρ.ids personId) rows k warnings =
        ρ.summary (eraseSummary (hashIdentifier personId) person personId rows k warnings) := by
    rw [hhash, ← hid]
    rfl
  have hrow : ρ.auditLog
      { actor
        action := "system.erase.person"
        target := .hash (hashIdentifier personId)
        requestId := none
        payload := .erasePerson
          (eraseSummary (hashIdentifier personId) person personId rows k warnings) } =
      { actor
        action := "system.erase.person"
        target := .hash (hashIdentifier (ρ.ids personId))
        requestId := none
        payload := .erasePerson (eraseSummary (hashIdentifier (ρ.ids personId)) (ρ.person person)
          (ρ.ids personId) rows k warnings) } := by
    rw [hsummary, hhash]
    rfl
  dsimp only
  rw [← hrow, hsummary]
  refine Prog.lockstep_perform_bind (R := ρ.correspondence) (.insertAuditEntry _) ?_
  exact fun _ _ _ => Prog.lockstep_ret rfl

end Lockstep

/-- The rows that a run has added to `audit_log`. -/
def auditRows (s s' : World) : List AuditLog := s'.db.auditLog.drop s.db.auditLog.length

section Runs

variable (ρ : Renaming) (hashIdentifier : Ident → ℕ) (settings : RestSettings) (actor : String)
  {env env' : EraseEnv} {s : World} (personId : Ident)

/-- The calls of the renamed run fail where those of the run fail. -/
def SameFaults (env env' : EraseEnv) : Prop := ∀ n c, env'.faults n (ρ.cmd c) = env.faults n c

/-- **The renamed run** leaves the renamed stores. -/
theorem exec_erase_renamed (hhash : hashIdentifier (ρ.ids personId) = hashIdentifier personId)
    (hfaults : SameFaults ρ env env') :
    (exec env'.run (erasePersonCascade hashIdentifier settings actor (ρ.ids personId))
        (ρ.world s)).2 =
      ρ.world (exec env.run (erasePersonCascade hashIdentifier settings actor personId) s).2 := by
  refine ((erase_lockstep ρ settings personId actor hhash).exec
    (I := fun s s' => s' = ρ.world s) ?_ rfl).1
  rintro c s _ rfl
  have hinfallible : (ρ.cmd c).infallible = c.infallible := by cases c <;> rfl
  have hcalls : (ρ.world s).calls = s.calls := rfl
  change (env'.run (ρ.cmd c) (ρ.world s)).2 = _ ∧
    SameOutcome (ρ.ans c) _ (env'.run (ρ.cmd c) (ρ.world s)).1
  obtain ⟨hstate, hanswer⟩ := s.erase_renamed ρ c
  unfold EraseEnv.run
  rw [hinfallible, hcalls, hfaults]
  split_ifs
  · exact ⟨rfl, .error _⟩
  · refine ⟨?_, hanswer⟩
    dsimp only
    rw [hstate]
    rfl

/-- The entry that is logged with a summary. -/
def eraseEntry (summary : EraseSummary) : AuditLog where
  actor
  action := "system.erase.person"
  target := .hash summary.targetHash
  requestId := none
  payload := .erasePerson summary

/-- What an erase logs: the summary that it returns, or nothing. -/
theorem exec_erase_audit_cases (hs : s.tx = none) :
    (∃ summary s', exec env.run (erasePersonCascade hashIdentifier settings actor personId) s =
        (.ok summary, s') ∧ summary.personId = personId ∧
        (∃ person, s.db.selectPerson personId = some person ∧
          summary.displayName = person.displayName) ∧
        s'.db.auditLog = s.db.auditLog ++ [eraseEntry actor summary]) ∨
    (∃ e s', exec env.run (erasePersonCascade hashIdentifier settings actor personId) s =
        (.error e, s') ∧ s'.db.auditLog = s.db.auditLog) := by
  unfold erasePersonCascade
  rw [exec_bind]
  rcases exec_validate_cases env personId hs with
    ⟨person, n, hvalid, hperson, -, -⟩ | ⟨e, n, hvalid⟩
  · rw [hvalid, andThen_ok, exec_bind]
    rcases exec_eraseTransaction_cases env (s.closed s.db n) rfl personId person.tgUserId with
      ⟨m, htx, -⟩ | ⟨e, m, htx⟩
    · obtain ⟨k, warnings, s₁, hderived, hclean⟩ := exec_eraseDerived env settings personId
        ((s.closed s.db n).db.erasedRows personId person.tgUserId).sourceObjectRefs
        ((s.closed s.db n).closed ((s.closed s.db n).db.erased personId person.tgUserId) m)
      have hlog : s₁.db.auditLog = s.db.auditLog :=
        (congrArg Db.auditLog hclean.db).trans rfl
      rw [htx, andThen_ok, exec_bind, hderived, andThen_ok, exec_perform_bind]
      rcases env.run_cases (.insertAuditEntry _) s₁ with haudit | ⟨-, haudit⟩
      · rw [haudit]
        refine .inl ⟨_, _, rfl, rfl, ⟨person, hperson, rfl⟩, ?_⟩
        change ((s₁.setTables (s₁.tables.insertAuditLog _)).tick).db.auditLog = _
        rw [World.tables_of_closed hclean.tx, World.setTables_of_closed hclean.tx, ← hlog]
        rfl
      · rw [haudit]
        exact .inr ⟨_, _, rfl, hlog⟩
    · rw [htx]
      exact .inr ⟨e, _, rfl, rfl⟩
  · rw [hvalid]
    exact .inr ⟨e, _, rfl, rfl⟩

theorem auditRows_renamed (s s' : World) :
    auditRows (ρ.world s) (ρ.world s') = (auditRows s s').map ρ.auditLog := by
  have hlength : (s.db.auditLog.map ρ.auditLog).length = s.db.auditLog.length :=
    List.length_map _
  change (s'.db.auditLog.map ρ.auditLog).drop (s.db.auditLog.map ρ.auditLog).length = _
  rw [hlength, ← List.map_drop]
  rfl

/-- Renaming leaves the entry of a summary as it is exactly if it leaves the summary. -/
theorem eraseEntry_renamed_iff (summary : EraseSummary) :
    ρ.auditLog (eraseEntry actor summary) = eraseEntry actor summary ↔
      ρ.ids summary.personId = summary.personId ∧
        ρ.nameOf summary.personId summary.displayName = summary.displayName := by
  constructor
  · intro h
    have hpayload := congrArg AuditLog.payload h
    have hsummary : ρ.summary summary = summary := by injection hpayload
    exact ⟨congrArg EraseSummary.personId hsummary, congrArg EraseSummary.displayName hsummary⟩
  · rintro ⟨hid, hname⟩
    have hsummary : ρ.summary summary = summary := by
      unfold Renaming.summary
      rw [hid, hname]
    unfold Renaming.auditLog eraseEntry
    dsimp only
    rw [hsummary]

/-! ## When an erase logs nothing -/

/-- Of the calls of the erase, one of Postgres raises. -/
def PostgresRaises (env : EraseEnv) (s : World) : Prop :=
  (erasePersonCascade hashIdentifier settings actor personId).Raised env.run
    (fun c => c.cleansUp = false) s

/-- The environment in which only the clean-up fails. -/
def EraseEnv.cleanUpOnly (env : EraseEnv) : EraseEnv where
  faults n c := env.faults n c && c.cleansUp

theorem EraseEnv.cleanUpOnly_cleanUpOnly (env : EraseEnv) : env.cleanUpOnly.CleanUpOnly :=
  fun _ _ h => (Bool.and_eq_true_iff.mp h).2

/-- The two environments differ where a call of Postgres raises. -/
theorem EraseEnv.run_cleanUpOnly (env : EraseEnv) (c : EraseCmd) (s : World) :
    env.run c s = env.cleanUpOnly.run c s ∨
      (c.cleansUp = false ∧ ∃ e, (env.run c s).1 = .error e) := by
  cases hcleans : c.cleansUp with
  | true =>
    left
    simp only [EraseEnv.run, EraseEnv.cleanUpOnly, hcleans, Bool.and_true]
  | false =>
    rcases env.run_cases c s with hrun | ⟨-, hrun⟩
    · exact .inl (hrun.trans (env.cleanUpOnly_cleanUpOnly.run hcleans s).symm)
    · exact .inr ⟨rfl, .callFailed, by rw [hrun]⟩

theorem ifAny_reports {bad : EraseCmd → Prop} {ids : List Ident} {delete : Erasing ℕ}
    (h : delete.Reports env.run bad) : (ifAny ids delete).Reports env.run bad := by
  unfold ifAny
  split_ifs
  · exact reports_ret 0
  · exact h

variable (env)

theorem validate_reports (bad : EraseCmd → Prop) :
    (validatePersonEraseTarget personId).Reports env.run bad := by
  refine (reports_perform _).bind fun found => ?_
  cases found with
  | none => exact reports_raise _
  | some person =>
    refine (reports_perform _).bind fun backing => ?_
    split_ifs
    · exact reports_raise _
    · exact reports_ret _

theorem eraseTransaction_reports (bad : EraseCmd → Prop) (tgUserId : Option ℤ) :
    (eraseTransaction personId tgUserId).Reports env.run bad := by
  refine reports_transaction (reports_perform _) ?_ (reports_perform _)
  have hwindows : (selectWindowRows tgUserId).Reports env.run bad := by
    cases tgUserId with
    | none => exact reports_ret []
    | some u => exact reports_perform (EraseCmd.selectWindows u)
  refine (reports_perform _).bind fun _ => ?_
  refine (reports_perform _).bind fun _ => ?_
  refine (reports_perform _).bind fun _ => ?_
  refine (reports_perform _).bind fun _ => ?_
  refine (reports_perform _).bind fun _ => ?_
  refine hwindows.bind fun windowIds => ?_
  refine (ifAny_reports (reports_perform (EraseCmd.deleteSignals windowIds))).bind fun _ => ?_
  refine (ifAny_reports (reports_perform (EraseCmd.deleteFacts windowIds))).bind fun _ => ?_
  refine (ifAny_reports (reports_perform (EraseCmd.deleteWindows windowIds))).bind fun _ => ?_
  refine (ifAny_reports (reports_perform (EraseCmd.deleteInteractions _))).bind fun _ => ?_
  refine (ifAny_reports (reports_perform (EraseCmd.deleteTasks _))).bind fun _ => ?_
  refine (reports_perform (EraseCmd.deletePerson personId)).bind fun deletedPeople => ?_
  split_ifs
  · exact reports_raise _
  · exact reports_ret _

/-- The contract of the clean-up. -/
def cleaningUp : Contract EraseCmd EraseAns Exc where
  allowed c := c.cleansUp = true

/-- What the clean-up raises is not Postgres, so there is nothing it could hide. -/
theorem eraseDerived_reports (keys : List ArtifactKey) :
    (eraseDerived settings personId keys).Reports env.run fun c => c.cleansUp = false := by
  have hkeeps : (eraseDerived settings personId keys).Keeps cleaningUp fun _ => True := by
    refine (warned_keeps _ (Prog.keeps_perform
      (EraseCmd.deletePoints settings.qdrantAliasName personId) rfl fun _ _ => trivial)).bind ?_
    intro vectorWarnings _
    refine (eraseNode_keeps rfl settings).bind fun graphWarnings _ => ?_
    refine (eraseObjects_keeps (fun _ => rfl) settings keys).bind fun _ _ => ?_
    exact Prog.keeps_ret.mpr trivial
  refine hkeeps.reports (fun _ _ _ _ => trivial) fun c hc => ?_
  rw [show c.cleansUp = true from hc]
  simp

/-- An erase in which a call of Postgres raises does not return. -/
theorem erase_reports :
    (erasePersonCascade hashIdentifier settings actor personId).Reports env.run
      fun c => c.cleansUp = false := by
  refine (validate_reports env personId _).bind fun person => ?_
  refine (eraseTransaction_reports env personId _ person.tgUserId).bind fun rows => ?_
  refine (eraseDerived_reports settings env personId rows.sourceObjectRefs).bind fun erased => ?_
  exact (reports_perform (EraseCmd.insertAuditEntry _)).bind fun _ => reports_ret _

variable {env}

/-- **When an erase raises**: there is nobody to erase, or Postgres fails it. -/
theorem erase_error_iff (hs : s.tx = none) :
    (∃ e, (exec env.run (erasePersonCascade hashIdentifier settings actor personId) s).1 =
        .error e) ↔
      (¬ ∃ person, Erasable s.db person ∧ person.id = personId) ∨
        PostgresRaises hashIdentifier settings actor personId env s := by
  rw [or_iff_not_imp_left, not_not]
  constructor
  · rintro ⟨e, he⟩ ⟨person, hperson, rfl⟩
    by_contra hno
    -- the run is one in which only the clean-up fails
    obtain ⟨summary, s', hok, -⟩ := exec_erase_of_cleanUpOnly hashIdentifier settings actor
      env.cleanUpOnly_cleanUpOnly hs hperson
    rw [exec_congr_of_not_raised env.run_cleanUpOnly hno, hok] at he
    cases he
  · intro hraises
    rcases hexec : exec env.run (erasePersonCascade hashIdentifier settings actor personId) s with
      ⟨e | summary, s'⟩
    · exact ⟨e, rfl⟩
    · exfalso
      refine erase_reports hashIdentifier settings actor env personId hexec (hraises ?_)
      unfold erasePersonCascade at hexec
      obtain ⟨person, s₁, hvalid, -⟩ := exec_bind_eq_ok.mp hexec
      rcases exec_validate_cases env personId hs with
        ⟨row, n, hrow, hselect, howner, hback⟩ | ⟨e, n, herror⟩
      · obtain rfl := id_of_selectPerson personId hselect
        exact ⟨row, ⟨hselect, howner, hback⟩, rfl⟩
      · rw [herror] at hvalid
        cases hvalid

/-- **What the audit entry reveals.**  Two erases that differ in who the person is, and
whose hashes agree, log the same exactly if they log nothing, since nobody can be erased or
a call of Postgres raises, or the person has the same id and the same display name. -/
theorem auditRows_eq_iff (hs : s.tx = none)
    (hhash : hashIdentifier (ρ.ids ρ.personId) = hashIdentifier ρ.personId)
    (hfaults : SameFaults ρ env env') :
    auditRows (ρ.world s)
        (exec env'.run (erasePersonCascade hashIdentifier settings actor (ρ.ids ρ.personId))
          (ρ.world s)).2 =
      auditRows s
        (exec env.run (erasePersonCascade hashIdentifier settings actor ρ.personId) s).2 ↔
    (¬ ∃ person, Erasable s.db person ∧ person.id = ρ.personId) ∨
      PostgresRaises hashIdentifier settings actor ρ.personId env s ∨
      (ρ.ids ρ.personId = ρ.personId ∧
        ∀ person ∈ s.db.selectPerson ρ.personId, person.displayName = ρ.displayName) := by
  rw [← or_assoc, ← erase_error_iff hashIdentifier settings actor ρ.personId hs,
    exec_erase_renamed ρ hashIdentifier settings actor ρ.personId hhash hfaults,
    auditRows_renamed]
  rcases exec_erase_audit_cases hashIdentifier settings actor ρ.personId hs with
    ⟨summary, s', hexec, hid, ⟨person, hperson, hname⟩, hlog⟩ | ⟨e, s', hexec, hlog⟩
  · rw [hexec]
    have hrows : auditRows s s' = [eraseEntry actor summary] := by
      rw [auditRows, hlog, List.drop_left]
    have hnoError : ¬ ∃ e, (Except.ok summary : Except Exc EraseSummary) = .error e := by
      rintro ⟨e, he⟩
      cases he
    rw [hrows, List.map_singleton, List.singleton_inj, eraseEntry_renamed_iff,
      or_iff_right hnoError, hid, hname, hperson, Renaming.nameOf, if_pos rfl]
    refine and_congr_right fun _ => ⟨fun h p hp => ?_, fun h => (h person rfl).symm⟩
    rw [← Option.some.inj hp, h]
  · rw [hexec]
    have hrows : auditRows s s' = [] := by
      rw [auditRows, hlog, List.drop_length]
    rw [hrows]
    exact iff_of_true rfl (.inl ⟨e, rfl⟩)

end Runs

/-- Persons 1 and 2 change places, and person 1 is called by its first name. -/
def swapped : Renaming := ⟨Equiv.swap 1 2, 1, "Иван"⟩

theorem auditRows_eq_iff_swapped :
    auditRows (swapped.world lonerStores)
        (exec (EraseEnv.run {}) (erasePersonCascade (fun _ => 0) {} "admin" 2)
          (swapped.world lonerStores)).2 =
      auditRows lonerStores
        (exec (EraseEnv.run {}) (erasePersonCascade (fun _ => 0) {} "admin" 1) lonerStores).2 ↔
    (¬ ∃ person, Erasable lonerStores.db person ∧ person.id = 1) ∨
      PostgresRaises (fun _ => 0) {} "admin" 1 {} lonerStores ∨
      (swapped.ids 1 = 1 ∧
        ∀ person ∈ lonerStores.db.selectPerson 1, person.displayName = swapped.displayName) :=
  auditRows_eq_iff swapped (fun _ => 0) {} "admin" rfl rfl fun _ _ => rfl

/-- The entry names the person. -/
theorem auditRows_ne_swapped :
    auditRows (swapped.world lonerStores)
        (exec (EraseEnv.run {}) (erasePersonCascade (fun _ => 0) {} "admin" 2)
          (swapped.world lonerStores)).2 ≠
      auditRows lonerStores
        (exec (EraseEnv.run {}) (erasePersonCascade (fun _ => 0) {} "admin" 1) lonerStores).2 := by
  decide

end Memory
end PersonalIntelligence
