import PersonalIntelligence.Memory.Deployment

/-!
# What the services can do

Between the commit and its end a program makes few calls, and in few orders.  A projection
may write the graph, then publishes one job of its participants (`Publishing`); a job is
embedded and upserts one point of its persons (`IndexingOf`); an indexer that starts does
not upsert; an erase calls the vector store once, and first (`finishErase_eq`).

`Known` says so of all the programs of a state, and that those who were erased are gone.
`Moves` is everything one step can then do, as far as the vector store is concerned: each
event is a move (`Known.moves`), and a move keeps `Known` (`Known.move`).
-/

namespace PersonalIntelligence
namespace Memory

open PyText Resumption

/-! ## What the programs may still do -/

/-- What a projection does after the publication of its job. -/
def published : Contract Cmd Ans Exc where
  allowed
    | .xaddInteraction _ | .xack _ => True
    | _ => False

/-- A projection of these persons, after the commit. -/
def Publishing (personIds : List Ident) : Projecting Unit → Prop :=
  Prog.Until (fun c => ∃ statements, c = .executeWrite statements)
    (fun c => ∃ job, c = .xaddEmbedding job ∧ job.message.personIds = personIds) published

/-- What happens to a job after it was indexed. -/
def indexed : Contract IndexCmd IndexAns Exc where
  allowed
    | .xack _ => True
    | _ => False

/-- A job of these persons. -/
def IndexingOf (personIds : List Ident) : Indexing Unit → Prop :=
  Prog.Until (fun c => c = .now ∨ ∃ text model, c = .embed text model)
    (fun c => ∃ name point, c = .upsert name point ∧ point.payload.personIds = personIds) indexed

/-- What an indexer does on starting. -/
def starting : Contract IndexCmd IndexAns Exc where
  allowed
    | .embed _ _ | .collectionExists _ | .createCollection _ _ | .getAliases
    | .updateCollectionAliases _ => True
    | _ => False

/-- What an erase does after the clean-up of the vector store. -/
def cleaning : Contract EraseCmd EraseAns Exc where
  allowed
    | .deleteNode _ | .deleteObject _ | .insertAuditEntry _ => True
    | _ => False

theorem publish_until (settings : Settings) (command : ProjectionCommand) (projected : Projected) :
    Publishing projected.participantIds (publish settings command projected) := by
  unfold publish
  rcases buildEmbeddingJob_cases settings projected with ⟨-, hthrow⟩ | ⟨job, -, hjob, -, hids⟩
  · rw [hthrow]
    exact trivial
  · rw [hjob, pure_bind]
    refine Prog.until_perform_bind_act ⟨_, rfl, hids⟩ fun _ => ?_
    exact (buildInteractionEvent_keeps published projected).bind fun event _ =>
      Prog.keeps_perform (Cmd.xaddInteraction _) trivial fun _ _ => trivial

/-- After the commit, a projection publishes a job of its participants. -/
theorem finishEntry_until (settings : Settings) (entry : StreamEntry) (projected : Projected) :
    Publishing projected.participantIds (finishEntry settings entry projected) := by
  have hpublish := publish_until settings entry.command projected
  refine Prog.Until.bind (fun _ => Prog.keeps_perform (Cmd.xack entry) trivial fun _ _ => trivial)
    (Prog.Until.tryCatch (fun _ => Prog.keeps_ret.mpr trivial) ?_)
  unfold projectNeo4j
  split_ifs
  · refine .inl ⟨⟨_, rfl⟩, fun r => ?_⟩
    cases r with
    | ok _ => exact hpublish
    | error _ => exact hpublish
  · exact hpublish

theorem indexJob_until (settings : IndexerSettings) (job : Publication EmbeddingJob) :
    IndexingOf job.message.personIds (indexJob settings job) := by
  refine Prog.Until.bind
    (fun _ => Prog.keeps_perform (IndexCmd.xack job) trivial fun _ _ => trivial)
    (Prog.Until.tryCatch (fun _ => Prog.keeps_ret.mpr trivial) ?_)
  refine Prog.until_perform_bind_before (.inr ⟨_, _, rfl⟩) fun vector => ?_
  refine Prog.until_perform_bind_before (.inl rfl) fun tsFrom => ?_
  refine Prog.until_perform_bind_before (.inl rfl) fun tsTo => ?_
  refine .inr (.inl ⟨⟨_, _, rfl, rfl⟩, fun r => ?_⟩)
  cases r with
  | ok _ => exact Prog.keeps_ret.mpr trivial
  | error _ => exact Prog.keeps_raise

theorem ensureAlias_keeps (aliasName name : String) :
    (ensureAlias aliasName name).Keeps starting fun _ => True := by
  refine Prog.keeps_perform_bind trivial fun aliases _ => ?_
  cases aliases aliasName with
  | none => exact Prog.keeps_perform (IndexCmd.updateCollectionAliases _) trivial fun _ _ => trivial
  | some existing =>
    dsimp only
    split_ifs
    · exact Prog.keeps_perform (IndexCmd.updateCollectionAliases _) trivial fun _ _ => trivial
    · exact Prog.keeps_ret.mpr trivial

theorem prepare_keeps [CharData] (settings : IndexerSettings) :
    (prepare settings).Keeps starting fun _ => True := by
  have hrest : ∀ name : String,
      (ensureAlias settings.qdrantAliasName name >>= fun _ => pure name).Keeps starting
        fun _ => True := fun name =>
    (ensureAlias_keeps settings.qdrantAliasName name).bind fun _ _ => Prog.keeps_ret.mpr trivial
  refine Prog.keeps_perform_bind trivial fun probe _ => ?_
  refine Prog.keeps_perform_bind trivial fun found _ => ?_
  cases found with
  | true => exact hrest _
  | false => exact Prog.keeps_perform_bind trivial fun _ _ => hrest _

/-- An erase after the clean-up of the vector store, which left `warnings`. -/
def eraseRest (d : Deployment) (personId : Ident) (person : Person) (rows : ErasedRows)
    (warnings : List EraseWarning) : Erasing EraseSummary := do
  let graphWarnings ← eraseNode d.restSettings personId
  let (deletedObjectRefs, objectWarnings) ← eraseObjects d.restSettings rows.sourceObjectRefs
  let summary := eraseSummary (d.hashIdentifier personId) person personId rows deletedObjectRefs
    (warnings ++ graphWarnings ++ objectWarnings)
  ask (.insertAuditEntry
    { actor := d.actor
      action := "system.erase.person"
      target := .hash (d.hashIdentifier personId)
      requestId := none
      payload := .erasePerson summary })
  pure summary

/-- An erase after its transaction. -/
abbrev Deployment.finishErasure (d : Deployment) (personId : Ident) (person : Person)
    (rows : ErasedRows) : Erasing EraseSummary :=
  finishErase d.hashIdentifier d.restSettings d.actor personId person rows

/-- What the clean-up of the vector store warns of. -/
def vectorWarnings : Except Exc Unit → List EraseWarning
  | .ok _ => []
  | .error _ => [.qdrantCleanupFailed]

theorem finishErase_eq (d : Deployment) (personId : Ident) (person : Person) (rows : ErasedRows) :
    d.finishErasure personId person rows =
      .call (.deletePoints d.restSettings.qdrantAliasName personId) fun r =>
        eraseRest d personId person rows (vectorWarnings r) := by
  have hderived : eraseDerived d.restSettings personId rows.sourceObjectRefs =
      .call (.deletePoints d.restSettings.qdrantAliasName personId) fun r => (do
        let graphWarnings ← eraseNode d.restSettings personId
        let (deletedObjectRefs, objectWarnings) ←
          eraseObjects d.restSettings rows.sourceObjectRefs
        pure (deletedObjectRefs, vectorWarnings r ++ graphWarnings ++ objectWarnings)) := by
    refine congrArg (Prog.call _) (funext fun r => ?_)
    cases r <;> rfl
  unfold Deployment.finishErasure finishErase
  rw [hderived, Prog.call_bind]
  refine congrArg (Prog.call _) (funext fun r => ?_)
  rw [Prog.bind_assoc]
  refine congrArg _ (funext fun graphWarnings => ?_)
  rw [Prog.bind_assoc]
  rfl

/-- A warning of the vector store is not lost. -/
theorem eraseRest_keeps (d : Deployment) (personId : Ident) (person : Person) (rows : ErasedRows)
    (warnings : List EraseWarning) :
    (eraseRest d personId person rows warnings).Keeps cleaning fun summary =>
      warnings ≠ [] → summary.warnings ≠ [] := by
  refine (eraseNode_keeps trivial d.restSettings).bind fun graphWarnings _ => ?_
  refine (eraseObjects_keeps (fun _ => trivial) d.restSettings _).bind fun erased _ => ?_
  refine Prog.keeps_perform_bind trivial fun _ _ => Prog.keeps_ret.mpr fun hne => ?_
  show warnings ++ graphWarnings ++ erased.2 ≠ []
  simp [hne]

/-! ## Persons that are gone -/

/-- The person was there once and is not there any more. -/
structure Gone (personId : Ident) (s : World) : Prop where
  lt : personId < s.drawn
  absent : ∀ u, ¬ s.db.HasPerson u personId

/-- No transaction is open, and persons are as they should be. -/
structure AtRest (s : World) : Prop where
  closed : s.tx = none
  persons : s.db.PersonsSound s.drawn

/-- `s'` comes after `s`: nobody who was gone is back. -/
structure Later (s s' : World) : Prop extends AtRest s' where
  gone : ∀ personId, Gone personId s → Gone personId s'

section Later

variable {s s' : World}

theorem Later.trans {s'' : World} (h : Later s s') (h' : Later s' s'') : Later s s'' :=
  ⟨h'.toAtRest, fun personId hgone => h'.gone personId (h.gone personId hgone)⟩

/-- Persons that do not change. -/
theorem AtRest.later_of_person_eq (h : AtRest s) (htx : s'.tx = s.tx)
    (hperson : s'.db.person = s.db.person) (hle : s.drawn ≤ s'.drawn) : Later s s' := by
  refine ⟨⟨htx.trans h.closed, (h.persons.congr hperson).mono hle⟩, fun personId hgone => ?_⟩
  refine ⟨hgone.lt.trans_le hle, fun u => ?_⟩
  unfold Db.HasPerson
  rw [hperson]
  exact hgone.absent u

theorem AtRest.refl (h : AtRest s) : Later s s := h.later_of_person_eq rfl rfl le_rfl

/-- The transaction of an erase, -/
theorem AtRest.later_erased (h : AtRest s) (personId : Ident) (tgUserId : Option ℤ) (n : ℕ) :
    Later s (s.closed (s.db.erased personId tgUserId) n) := by
  have hsub : ∀ {u id}, (s.db.erased personId tgUserId).HasPerson u id → s.db.HasPerson u id := by
    rintro u id ⟨row, hrow, hu, hid⟩
    exact ⟨row, List.mem_of_mem_filter hrow, hu, hid⟩
  have hids : ((s.db.erased personId tgUserId).person.map Person.id).Sublist
      (s.db.person.map Person.id) := List.filter_sublist.map _
  have hdrawn : Drawn ((s.db.erased personId tgUserId).person.map Person.id) s.drawn :=
    ⟨h.persons.ids.nodup.sublist hids, fun id hid => h.persons.ids.lt id (hids.subset hid)⟩
  have haccounts : ∀ u id id', (s.db.erased personId tgUserId).HasPerson u id →
      (s.db.erased personId tgUserId).HasPerson u id' → id = id' := fun u id id' hid hid' =>
    h.persons.accounts u id id' (hsub hid) (hsub hid')
  exact ⟨⟨rfl, hdrawn, haccounts⟩,
    fun other hgone => ⟨hgone.lt, fun u hperson => hgone.absent u (hsub hperson)⟩⟩

/-- after which the person is gone. -/
theorem AtRest.gone_erased (h : AtRest s) {personId : Ident}
    (hperson : ∃ row ∈ s.db.person, row.id = personId) (tgUserId : Option ℤ) (n : ℕ) :
    Gone personId (s.closed (s.db.erased personId tgUserId) n) := by
  obtain ⟨row, hrow, rfl⟩ := hperson
  refine ⟨h.persons.ids.lt _ (List.mem_map_of_mem hrow), ?_⟩
  rintro u ⟨other, hother, -, hid⟩
  have hne : other.id ≠ row.id := by simpa using List.of_mem_filter hother
  exact hne hid

end Later

/-! ## Calls and transactions -/

/-- The projector does not call the vector store. -/
theorem World.qdrant_effect (c : Cmd) (s : World) : (s.effect c).2.qdrant = s.qdrant := by
  cases c with
  | upsertChat | upsertPerson | insertTask | insertInteraction => exact s.qdrant_setTables _
  | insertMembership | upsertWindow | deleteFacts | insertFact | deleteSignals | insertSignal
  | updateTask | updateInteraction | insertAuditLog | insertProcessed =>
    exact s.qdrant_setTables _
  | _ => rfl

section Project

variable [CharData] (env : Env) (settings : Settings) (command : ProjectionCommand) {s : World}

/-- Whoever is gone does not take part in what is projected. -/
theorem not_participant_of_gone {personId : Ident} (hs : s.tx = none) (h : Gone personId s) :
    personId ∉ (s.draft.project settings s.now command).1.participantIds := by
  intro hmem
  obtain ⟨entry, hentry, rfl⟩ := List.mem_map.mp hmem
  have hdb : s.draft.db = s.db := World.tables_of_closed hs
  have hperson := (s.draft.participant_project settings s.now command hentry).1
  rcases Draft.hasPerson_of_project hperson with hold | ⟨hnew, -⟩
  · rw [hdb] at hold
    exact h.absent _ hold
  · exact absurd h.lt (not_lt.mpr hnew)

/-- Nor does a projection bring anybody back. -/
theorem AtRest.later_project (h : AtRest s) {s' : World} (htx : s'.tx = none)
    (hdb' : s'.db = (s.draft.project settings s.now command).2.db)
    (hdrawn : s'.drawn = (s.draft.project settings s.now command).2.drawn) : Later s s' := by
  have hdb : s.draft.db = s.db := World.tables_of_closed h.closed
  have hpersons : s.draft.db.PersonsSound s.draft.drawn := hdb.symm ▸ h.persons
  refine ⟨⟨htx, ?_⟩, fun personId hgone => ⟨?_, fun u hperson => ?_⟩⟩
  · rw [hdb', hdrawn]
    exact Draft.personsSound_project settings s.now command hpersons
  · rw [hdrawn]
    exact hgone.lt.trans (s.draft.lt_drawn_project settings s.now command)
  · rw [hdb'] at hperson
    rcases Draft.hasPerson_of_project hperson with hold | ⟨hnew, -⟩
    · rw [hdb] at hold
      exact hgone.absent u hold
    · exact absurd hgone.lt (not_lt.mpr hnew)

/-- A transaction draws identifiers and leaves the vector store alone. -/
theorem transaction_frame (s : World) :
    s.drawn ≤ (exec env.run (transaction (projectBody settings command)) s).2.drawn ∧
      (exec env.run (transaction (projectBody settings command)) s).2.qdrant = s.qdrant := by
  have hkeeps : (transaction (projectBody settings command)).Keeps (entryOf command)
      (ProjectedFrom command) := transaction_keeps settings
  refine hkeeps.exec_invariant (I := fun s' : World => s.drawn ≤ s'.drawn ∧ s'.qdrant = s.qdrant)
    ?_ (fun c s₁ _ hs₁ => ?_) ⟨le_rfl, rfl⟩
  · exact env.answers_rowsOf command
  · refine env.run_invariant (I := fun s' : World => s.drawn ≤ s'.drawn ∧ s'.qdrant = s.qdrant)
      (fun _ h => h) (fun h => ⟨?_, ?_⟩) hs₁
    · exact h.1.trans (World.drawn_effect c s₁)
    · exact (World.qdrant_effect c s₁).trans h.2

/-- **The transaction of a projection**, if there is one. -/
theorem exec_commitProjection_later (h : AtRest s) {r : Except Exc (Option Projected)} {s' : World}
    (hexec : exec env.run (commitProjection settings command) s = (r, s')) :
    Later s s' ∧ s'.embeddingRequested = s.embeddingRequested ∧ s'.qdrant = s.qdrant ∧
      ∀ projected, r = .ok (some projected) →
        ∀ personId, Gone personId s → personId ∉ projected.participantIds := by
  have htick : Later s s.tick := h.later_of_person_eq rfl rfl le_rfl
  unfold commitProjection at hexec
  rw [await, exec_perform_bind] at hexec
  rcases env.run_cases (.selectProcessed command.commandId) s with hrun | ⟨-, hrun⟩
  · rw [hrun, andThen_ok] at hexec
    cases hmarked : (s.effect (.selectProcessed command.commandId)).1 with
    | true =>
      rw [hmarked] at hexec
      cases hexec
      exact ⟨htick, rfl, rfl, fun projected hr => by cases hr⟩
    | false =>
      rw [hmarked, if_neg Bool.false_ne_true, exec_bind] at hexec
      have hframe := transaction_frame env settings command s.tick
      rcases htx : exec env.run (transaction (projectBody settings command)) s.tick with
        ⟨e | projected, s₁⟩
      · have hrolled : RolledBack s.tick s₁ := by
          rcases exec_transaction_cases env settings command (s := s.tick) h.closed with
            ⟨_, _, hok, -⟩ | ⟨_, _, herr, hrolled, -⟩
          · rw [htx] at hok
            cases hok
          · rw [htx] at herr
            cases herr
            exact hrolled
        rw [htx] at hframe
        have hend : exec env.run (transaction (projectBody settings command)) (s.effect
            (.selectProcessed command.commandId)).2.tick = (.error e, s₁) := htx
        rw [hend] at hexec
        cases hexec
        refine ⟨?_, hrolled.embeddingRequested, hframe.2, fun projected hr => by cases hr⟩
        exact h.later_of_person_eq (hrolled.closed.trans h.closed.symm)
          (congrArg Db.person hrolled.db) hframe.1
      · obtain ⟨-, rfl, objects, calls, rfl⟩ := exec_transaction_ok (s := s.tick) h.closed htx
        have hend : exec env.run (transaction (projectBody settings command)) (s.effect
            (.selectProcessed command.commandId)).2.tick = _ := htx
        rw [hend] at hexec
        cases hexec
        refine ⟨h.later_project settings command h.closed rfl rfl, rfl, rfl, ?_⟩
        intro projected hr personId hgone
        cases hr
        have htickGone : Gone personId s.tick := ⟨hgone.lt, hgone.absent⟩
        exact not_participant_of_gone settings command h.closed htickGone
  · rw [hrun] at hexec
    cases hexec
    exact ⟨htick, rfl, rfl, fun projected hr => by cases hr⟩

end Project

/-- **The transaction of an erase**, if there is one. -/
theorem exec_commitErase_later (env : EraseEnv) (personId : Ident) {s s' : World} (h : AtRest s)
    {r : Except Exc (Person × ErasedRows)}
    (hexec : exec env.run (commitErase personId) s = (r, s')) :
    Later s s' ∧ s'.embeddingRequested = s.embeddingRequested ∧ s'.qdrant = s.qdrant ∧
      ∀ committed, r = .ok committed → Gone personId s' := by
  have hsame : ∀ n, Later s (s.closed s.db n) := fun n =>
    h.later_of_person_eq h.closed.symm rfl le_rfl
  unfold commitErase at hexec
  rw [exec_bind] at hexec
  rcases exec_validate_cases env personId h.closed with
    ⟨person, n, hvalid, -⟩ | ⟨e, n, hvalid⟩
  · rw [hvalid, andThen_ok, exec_bind] at hexec
    rcases exec_eraseTransaction_cases env (s.closed s.db n) rfl personId person.tgUserId with
      ⟨m, htx, hperson⟩ | ⟨e, m, htx⟩
    · rw [htx] at hexec
      cases hexec
      refine ⟨?_, rfl, rfl, fun _ _ => ?_⟩
      · exact (hsame n).trans ((hsame n).later_erased personId person.tgUserId m)
      · exact (hsame n).gone_erased hperson person.tgUserId m
    · rw [htx] at hexec
      cases hexec
      exact ⟨hsame m, rfl, rfl, fun _ hr => by cases hr⟩
  · rw [hvalid] at hexec
    cases hexec
    exact ⟨hsame n, rfl, rfl, fun _ hr => by cases hr⟩

section Calls

variable {s : World}

theorem Env.qdrant_run (env : Env) (c : Cmd) (s : World) : (env.run c s).2.qdrant = s.qdrant :=
  env.run_invariant (I := fun s' : World => s'.qdrant = s.qdrant) (fun _ h => h)
    (fun _ => World.qdrant_effect c s) rfl

theorem Env.later_run (env : Env) {c : Cmd} (hc : c.stage = .publishing) (h : AtRest s) :
    Later s (env.run c s).2 := by
  refine env.run_invariant (I := fun s' : World => Later s s') (fun s' hs' => ?_) (fun _ => ?_)
    h.refl
  · exact hs'.trans (hs'.later_of_person_eq rfl rfl le_rfl)
  · cases c with
    | executeWrite | xaddEmbedding | xaddInteraction | xack =>
      exact h.later_of_person_eq rfl rfl le_rfl
    | _ => cases hc

/-- One publishing call is the publication of the job. -/
theorem Env.requested_run (env : Env) {c : Cmd} (hc : c.stage = .publishing) (s : World) :
    (env.run c s).2.embeddingRequested = s.embeddingRequested ∨ ∃ job, c = .xaddEmbedding job ∧
      (env.run c s).2.embeddingRequested = s.embeddingRequested ++ [job] := by
  rcases env.run_cases c s with hrun | ⟨-, hrun⟩
  · rw [hrun]
    cases c with
    | xaddEmbedding job => exact .inr ⟨job, rfl, rfl⟩
    | executeWrite | xaddInteraction | xack => exact .inl rfl
    | _ => cases hc
  · rw [hrun]
    exact .inl rfl

theorem IndexEnv.run_invariant (env : IndexEnv) {I : World → Prop} {c : IndexCmd}
    (htick : ∀ s, I s → I s.tick) (heffect : I s → I (env.effect c s).2) (h : I s) :
    I (env.run c s).2 := by
  unfold IndexEnv.run
  split_ifs
  · exact htick s h
  · exact htick _ (heffect h)

/-- The indexer changes nothing but the vector store, and that in three ways. -/
theorem IndexEnv.effect_cases (env : IndexEnv) (c : IndexCmd) (s : World) :
    ∃ qdrant, (env.effect c s).2 = { s with qdrant } ∧
      (qdrant = s.qdrant ∨
        (∃ operations, qdrant = s.qdrant.changeAliases operations) ∨
        (∃ name size, s.qdrant.createCollection name size = some qdrant) ∨
        ∃ name point, c = .upsert name point ∧ s.qdrant.upsert name point = some qdrant) := by
  cases c with
  | embed text model =>
    refine ⟨s.qdrant, ?_, .inl rfl⟩
    unfold effect
    dsimp only
    cases env.embedding s.calls text model <;> rfl
  | createCollection name size =>
    unfold effect
    dsimp only
    cases hq : s.qdrant.createCollection name size with
    | none => exact ⟨s.qdrant, rfl, .inl rfl⟩
    | some qdrant => exact ⟨qdrant, rfl, .inr (.inr (.inl ⟨name, size, hq⟩))⟩
  | upsert name point =>
    unfold effect
    dsimp only
    cases hq : s.qdrant.upsert name point with
    | none => exact ⟨s.qdrant, rfl, .inl rfl⟩
    | some qdrant => exact ⟨qdrant, rfl, .inr (.inr (.inr ⟨name, point, rfl, hq⟩))⟩
  | updateCollectionAliases operations =>
    exact ⟨s.qdrant.changeAliases operations, rfl, .inr (.inl ⟨operations, rfl⟩)⟩
  | _ => exact ⟨s.qdrant, rfl, .inl rfl⟩

theorem IndexEnv.later_run (env : IndexEnv) (c : IndexCmd) (h : AtRest s) :
    Later s (env.run c s).2 ∧ (env.run c s).2.embeddingRequested = s.embeddingRequested := by
  refine env.run_invariant
    (I := fun s' : World => Later s s' ∧ s'.embeddingRequested = s.embeddingRequested)
    (fun s' hs' => ?_) (fun _ => ?_) ⟨h.refl, rfl⟩
  · exact ⟨hs'.1.trans (hs'.1.later_of_person_eq rfl rfl le_rfl), hs'.2⟩
  · obtain ⟨qdrant, heq, -⟩ := env.effect_cases c s
    rw [heq]
    exact ⟨h.later_of_person_eq rfl rfl le_rfl, rfl⟩

/-- A point is there because it was, or because it is upserted. -/
theorem IndexEnv.without_run (env : IndexEnv) {c : IndexCmd} {personId : Ident}
    (hc : ∀ name point, c = .upsert name point → ¬ point.Names personId)
    (h : s.qdrant.Without personId ∅) : (env.run c s).2.qdrant.Without personId ∅ := by
  refine env.run_invariant (I := fun s' : World => s'.qdrant.Without personId ∅) (fun _ h => h)
    (fun _ => ?_) h
  obtain ⟨qdrant, heq, hqdrant⟩ := env.effect_cases c s
  rw [heq]
  show qdrant.Without personId ∅
  rcases hqdrant with rfl | ⟨operations, rfl⟩ | ⟨name, size, hcreated⟩ | ⟨name, point, hpoint, hupserted⟩
  · exact h
  · exact h.changeAliases operations
  · exact h.createCollection hcreated
  · exact h.upsert (hc name point hpoint) hupserted

/-- What follows the clean-up of the vector store does not touch it. -/
theorem EraseEnv.later_run (env : EraseEnv) {c : EraseCmd} (hc : cleaning.allowed c)
    (h : AtRest s) : Later s (env.run c s).2 ∧
      (env.run c s).2.embeddingRequested = s.embeddingRequested ∧
      (env.run c s).2.qdrant = s.qdrant := by
  refine env.run_invariant (I := fun s' : World => Later s s' ∧
    s'.embeddingRequested = s.embeddingRequested ∧ s'.qdrant = s.qdrant)
    (fun s' hs' => ?_) (fun _ => ?_) ⟨h.refl, rfl, rfl⟩
  · exact ⟨hs'.1.trans (hs'.1.later_of_person_eq rfl rfl le_rfl), hs'.2⟩
  · cases c with
    | deleteNode | deleteObject => exact ⟨h.later_of_person_eq rfl rfl le_rfl, rfl, rfl⟩
    | insertAuditEntry row =>
      have hset : (s.erase (.insertAuditEntry row)).2 =
          { s with db := s.tables.insertAuditLog row } := World.setTables_of_closed h.closed _
      have hperson : (s.tables.insertAuditLog row).person = s.db.person := by
        show s.tables.person = s.db.person
        rw [World.tables_of_closed h.closed]
      rw [hset]
      exact ⟨h.later_of_person_eq rfl hperson le_rfl, rfl, rfl⟩
    | _ => exact hc.elim

/-- The clean-up of the vector store either deletes or raises. -/
theorem EraseEnv.run_deletePoints (env : EraseEnv) (name : String) (personId : Ident)
    (s : World) : ∃ qdrant calls, (env.run (.deletePoints name personId) s).2 =
        { s with qdrant, calls } ∧
      (qdrant = s.qdrant ∧ (∃ e, (env.run (.deletePoints name personId) s).1 = .error e) ∨
        s.qdrant.deletePerson name personId = some qdrant ∧
          (env.run (.deletePoints name personId) s).1 = .ok ()) := by
  rcases env.run_cases (.deletePoints name personId) s with hrun | ⟨-, hrun⟩
  · rw [hrun, World.erase]
    cases s.qdrant.deletePerson name personId with
    | none => exact ⟨s.qdrant, s.calls + 1, rfl, .inl ⟨rfl, _, rfl⟩⟩
    | some qdrant => exact ⟨qdrant, s.calls + 1, rfl, .inr ⟨rfl, rfl⟩⟩
  · rw [hrun]
    exact ⟨s.qdrant, s.calls + 1, rfl, .inl ⟨rfl, _, rfl⟩⟩

end Calls

/-! ## The system -/

/-- What holds whatever happens. -/
structure Known (d : Deployment) (y : Services) : Prop where
  atRest : AtRest y.world
  projections : ∀ x ∈ y.projections, Publishing x.1.participantIds x.2
  starts : ∀ x ∈ y.starts, x.2.Keeps starting fun _ => True
  jobs : ∀ x ∈ y.jobs, IndexingOf x.1.message.personIds x.2
  erasures : ∀ x ∈ y.erasures, Gone x.1 y.world ∧
    ((∃ person rows, x.2 = d.finishErasure x.1 person rows) ∨ x.2.Keeps cleaning fun _ => True)

theorem publishing_head {personIds : List Ident} {c : Cmd}
    {k : Except Exc (Ans c) → Projecting Unit} (h : Publishing personIds (.call c k)) :
    c.stage = .publishing := by
  rcases h.head with ⟨statements, rfl⟩ | ⟨job, rfl, -⟩ | hc
  · rfl
  · rfl
  · cases c with
    | xaddInteraction | xack => rfl
    | _ => exact hc.elim

/-- What a projection publishes names its participants. -/
theorem job_of_publishing {personIds : List Ident} {job : Publication EmbeddingJob}
    {k : Except Exc (Ans (.xaddEmbedding job)) → Projecting Unit}
    (h : Publishing personIds (.call (.xaddEmbedding job) k)) :
    job.message.personIds = personIds := by
  rcases h.head with ⟨statements, heq⟩ | ⟨other, heq, hids⟩ | hc
  · cases heq
  · cases heq
    exact hids
  · exact hc.elim

/-- What a job upserts names its persons. -/
theorem point_of_indexing {personIds : List Ident} {name : String} {point : Point}
    {k : Except Exc (IndexAns (.upsert name point)) → Indexing Unit}
    (h : IndexingOf personIds (.call (.upsert name point) k)) :
    point.payload.personIds = personIds := by
  rcases h.head with (heq | ⟨text, model, heq⟩) | ⟨name', point', heq, hids⟩ | hc
  · cases heq
  · cases heq
  · cases heq
    exact hids
  · exact hc.elim

/-- What an event can make of the services, as far as the vector store is concerned. -/
inductive Moves (d : Deployment) (y : Services) : Event → Services → Prop where
  | quiet {event : Event} {w : World} (hlater : Later y.world w)
      (hrequested : w.embeddingRequested = y.world.embeddingRequested)
      (hqdrant : w.qdrant = y.world.qdrant) : Moves d y event { y with world := w }
  | commit {event : Event} {w : World} {projected : Projected} {p : Projecting Unit}
      (hlater : Later y.world w)
      (hrequested : w.embeddingRequested = y.world.embeddingRequested)
      (hqdrant : w.qdrant = y.world.qdrant) (hp : Publishing projected.participantIds p)
      (hgone : ∀ personId, Gone personId y.world → personId ∉ projected.participantIds) :
      Moves d y event { y with world := w, projections := y.projections ++ [(projected, p)] }
  | publish {event : Event} {w : World} {i : ℕ} {x : Projected} {c : Cmd}
      {k : Except Exc (Ans c) → Projecting Unit}
      (r : Except Exc (Ans c)) (hi : y.projections[i]? = some (x, .call c k))
      (hlater : Later y.world w) (hqdrant : w.qdrant = y.world.qdrant)
      (hrequested : w.embeddingRequested = y.world.embeddingRequested ∨
        ∃ job, c = .xaddEmbedding job ∧ job.message.personIds = x.participantIds ∧
          w.embeddingRequested = y.world.embeddingRequested ++ [job]) :
      Moves d y event { y with world := w, projections := y.projections.set i (x, k r) }
  | begin {event : Event} {settings : IndexerSettings} {p : Indexing String}
      (hp : p.Keeps starting fun _ => True) :
      Moves d y event { y with starts := y.starts ++ [(settings, p)] }
  | start {event : Event} {w : World} {i : ℕ} {x : IndexerSettings} {c : IndexCmd}
      {k : Except Exc (IndexAns c) → Indexing String} (r : Except Exc (IndexAns c))
      (hi : y.starts[i]? = some (x, .call c k)) (hlater : Later y.world w)
      (hrequested : w.embeddingRequested = y.world.embeddingRequested)
      (hqdrant : ∀ personId, y.world.qdrant.Without personId ∅ → w.qdrant.Without personId ∅) :
      Moves d y event { y with world := w, starts := y.starts.set i (x, k r) }
  | take {event : Event} {job : Publication EmbeddingJob} {p : Indexing Unit}
      (hjob : y.world.embeddingRequested[y.taken]? = some job)
      (hp : IndexingOf job.message.personIds p) :
      Moves d y event { y with taken := y.taken + 1, jobs := y.jobs ++ [(job, p)] }
  | index {event : Event} {w : World} {i : ℕ} {x : Publication EmbeddingJob} {c : IndexCmd}
      {k : Except Exc (IndexAns c) → Indexing Unit} (r : Except Exc (IndexAns c))
      (hi : y.jobs[i]? = some (x, .call c k)) (hlater : Later y.world w)
      (hrequested : w.embeddingRequested = y.world.embeddingRequested)
      (hqdrant : ∀ personId, (personId ∈ x.message.personIds → indexed.allowed c) →
        y.world.qdrant.Without personId ∅ → w.qdrant.Without personId ∅) :
      Moves d y event { y with world := w, jobs := y.jobs.set i (x, k r) }
  | erase {event : Event} {w : World} {personId : Ident} (person : Person) (rows : ErasedRows)
      (hlater : Later y.world w)
      (hrequested : w.embeddingRequested = y.world.embeddingRequested)
      (hqdrant : w.qdrant = y.world.qdrant) (hgone : Gone personId w) :
      Moves d y event { y with
        world := w
        erasures := y.erasures ++ [(personId, d.finishErasure personId person rows)] }
  | delete {w : World} {i : ℕ} {personId : Ident} {person : Person} {rows : ErasedRows}
      {r : Except Exc Unit}
      (hi : y.erasures[i]? = some (personId, d.finishErasure personId person rows))
      (hlater : Later y.world w)
      (hrequested : w.embeddingRequested = y.world.embeddingRequested)
      (hqdrant : w.qdrant = y.world.qdrant ∧ (∃ e, r = .error e) ∨
        y.world.qdrant.deletePerson d.restSettings.qdrantAliasName personId = some w.qdrant ∧
          r = .ok ()) :
      Moves d y (.continueErasure i) { y with
        world := w
        erasures := y.erasures.set i
          (personId, eraseRest d personId person rows (vectorWarnings r)) }
  | clean {event : Event} {w : World} {i : ℕ} {personId : Ident} {c : EraseCmd}
      {k : Except Exc (EraseAns c) → Erasing EraseSummary} (r : Except Exc (EraseAns c))
      (hi : y.erasures[i]? = some (personId, .call c k))
      (hc : (Prog.call c k).Keeps cleaning fun _ => True) (hlater : Later y.world w)
      (hrequested : w.embeddingRequested = y.world.embeddingRequested)
      (hqdrant : w.qdrant = y.world.qdrant) :
      Moves d y event { y with world := w, erasures := y.erasures.set i (personId, k r) }

section Moves

variable {d : Deployment} {y y' : Services} {event : Event}

/-- Nothing happens. -/
theorem Known.stays (h : Known d y) : Moves d y event y := .quiet h.atRest.refl rfl rfl

/-- The call of a job that has not been indexed yet may upsert a point. -/
theorem IndexingOf.without_run {personIds : List Ident} {c : IndexCmd}
    {k : Except Exc (IndexAns c) → Indexing Unit} (h : IndexingOf personIds (.call c k))
    (env : IndexEnv) {s : World} {personId : Ident}
    (hpersonId : personId ∈ personIds → indexed.allowed c) (hs : s.qdrant.Without personId ∅) :
    (env.run c s).2.qdrant.Without personId ∅ := by
  refine env.without_run ?_ hs
  rintro name point rfl hnames
  have hids := point_of_indexing h
  exact hpersonId (hids ▸ hnames)

/-- An indexer that starts does not upsert. -/
theorem without_run_of_starting {c : IndexCmd} (hc : starting.allowed c) (env : IndexEnv)
    {s : World} {personId : Ident} (hs : s.qdrant.Without personId ∅) :
    (env.run c s).2.qdrant.Without personId ∅ := by
  refine env.without_run ?_ hs
  rintro name point rfl
  exact hc.elim

section Steps

variable [CharData]

/-- A projection that commits is added to the pool, and any other entry is acknowledged. -/
theorem Known.moves_project (h : Known d y) (entry : StreamEntry) :
    Moves d y (.project entry) (d.step y (.project entry)) := by
  rcases hexec : exec d.env.run (commitProjection d.settings entry.command) y.world with ⟨r, w⟩
  obtain ⟨hlater, hrequested, hqdrant, hgone⟩ :=
    exec_commitProjection_later d.env d.settings entry.command h.atRest hexec
  have hack : Later y.world (exec d.env.run (await (.xack entry)) w).2 :=
    hlater.trans (d.env.later_run (c := .xack entry) rfl hlater.toAtRest)
  have hrequested' : (exec d.env.run (await (.xack entry)) w).2.embeddingRequested =
      y.world.embeddingRequested := by
    rcases d.env.requested_run (c := .xack entry) rfl w with hsame | ⟨_, heq, -⟩
    · exact hsame.trans hrequested
    · cases heq
  have hqdrant' := (d.env.qdrant_run (.xack entry) w).trans hqdrant
  rcases r with e | _ | projected
  · rw [Deployment.step_project_of_error hexec]
    exact .quiet hack hrequested' hqdrant'
  · rw [Deployment.step_project_of_none hexec]
    exact .quiet hack hrequested' hqdrant'
  · rw [Deployment.step_project_of_some hexec]
    exact .commit hlater hrequested hqdrant (finishEntry_until _ _ _) (hgone projected rfl)

theorem Known.moves_continueProjection (h : Known d y) (i : ℕ) :
    Moves d y (.continueProjection i) (d.step y (.continueProjection i)) := by
  have hstep : d.step y (.continueProjection i) = { y with
      world := (Pool.advance d.env.run y.projections i y.world).2
      projections := (Pool.advance d.env.run y.projections i y.world).1 } := rfl
  rw [hstep]
  rcases Pool.advance_cases d.env.run y.projections i y.world with heq | ⟨x, c, k, hi, heq⟩
  · rw [heq]
    exact h.stays
  · rw [heq]
    have hx : Publishing x.participantIds (.call c k) :=
      h.projections _ (List.mem_of_getElem? hi)
    have hc := publishing_head hx
    refine .publish _ hi (d.env.later_run hc h.atRest) (d.env.qdrant_run c y.world) ?_
    rcases d.env.requested_run hc y.world with hsame | ⟨job, rfl, hjob⟩
    · exact .inl hsame
    · exact .inr ⟨job, rfl, job_of_publishing hx, hjob⟩

theorem Known.moves_continueStart (h : Known d y) (i : ℕ) :
    Moves d y (.continueStart i) (d.step y (.continueStart i)) := by
  have hstep : d.step y (.continueStart i) = { y with
      world := (Pool.advance d.indexEnv.run y.starts i y.world).2
      starts := (Pool.advance d.indexEnv.run y.starts i y.world).1 } := rfl
  rw [hstep]
  rcases Pool.advance_cases d.indexEnv.run y.starts i y.world with heq | ⟨x, c, k, hi, heq⟩
  · rw [heq]
    exact h.stays
  · rw [heq]
    have hx : (Prog.call c k).Keeps starting fun _ => True :=
      h.starts _ (List.mem_of_getElem? hi)
    obtain ⟨hlater, hrequested⟩ := d.indexEnv.later_run c h.atRest
    exact .start _ hi hlater hrequested fun _ => without_run_of_starting hx.head d.indexEnv

theorem Known.moves_take (h : Known d y) (settings : IndexerSettings) :
    Moves d y (.take settings) (d.step y (.take settings)) := by
  cases hjob : y.world.embeddingRequested[y.taken]? with
  | none =>
    rw [Deployment.step_take_of_none hjob]
    exact h.stays
  | some job =>
    rw [Deployment.step_take_of_some hjob]
    exact .take hjob (indexJob_until settings job)

theorem Known.moves_continueJob (h : Known d y) (i : ℕ) :
    Moves d y (.continueJob i) (d.step y (.continueJob i)) := by
  have hstep : d.step y (.continueJob i) = { y with
      world := (Pool.advance d.indexEnv.run y.jobs i y.world).2
      jobs := (Pool.advance d.indexEnv.run y.jobs i y.world).1 } := rfl
  rw [hstep]
  rcases Pool.advance_cases d.indexEnv.run y.jobs i y.world with heq | ⟨x, c, k, hi, heq⟩
  · rw [heq]
    exact h.stays
  · rw [heq]
    have hx : IndexingOf x.message.personIds (.call c k) := h.jobs _ (List.mem_of_getElem? hi)
    obtain ⟨hlater, hrequested⟩ := d.indexEnv.later_run c h.atRest
    exact .index _ hi hlater hrequested fun _ => hx.without_run d.indexEnv

/-- An erase that commits is added to the pool. -/
theorem Known.moves_erase (h : Known d y) (personId : Ident) :
    Moves d y (.erase personId) (d.step y (.erase personId)) := by
  rcases hexec : exec d.eraseEnv.run (commitErase personId) y.world with ⟨r, w⟩
  obtain ⟨hlater, hrequested, hqdrant, hgone⟩ :=
    exec_commitErase_later d.eraseEnv personId h.atRest hexec
  rcases r with e | ⟨person, rows⟩
  · rw [Deployment.step_erase_of_error hexec]
    exact .quiet hlater hrequested hqdrant
  · rw [Deployment.step_erase_of_ok hexec]
    exact .erase person rows hlater hrequested hqdrant (hgone _ rfl)

theorem Known.moves_continueErasure (h : Known d y) (i : ℕ) :
    Moves d y (.continueErasure i) (d.step y (.continueErasure i)) := by
  have hstep : d.step y (.continueErasure i) = { y with
      world := (Pool.advance d.eraseEnv.run y.erasures i y.world).2
      erasures := (Pool.advance d.eraseEnv.run y.erasures i y.world).1 } := rfl
  rw [hstep]
  rcases Pool.advance_cases d.eraseEnv.run y.erasures i y.world with
    heq | ⟨personId, c, k, hi, heq⟩
  · rw [heq]
    exact h.stays
  · rw [heq]
    rcases (h.erasures _ (List.mem_of_getElem? hi)).2 with ⟨person, rows, hfinish⟩ | hclean
    · -- the clean-up of the vector store comes first
      have hcall : Prog.call c k = d.finishErasure personId person rows := hfinish
      rw [hcall] at hi
      rw [finishErase_eq] at hcall
      cases hcall
      obtain ⟨qdrant, calls, hworld, hr⟩ := d.eraseEnv.run_deletePoints
        d.restSettings.qdrantAliasName personId y.world
      rw [hworld]
      exact .delete hi (h.atRest.later_of_person_eq rfl rfl le_rfl) rfl hr
    · obtain ⟨hlater, hrequested, hqdrant⟩ :=
        d.eraseEnv.later_run (Prog.Keeps.head hclean) h.atRest
      exact .clean _ hi hclean hlater hrequested hqdrant

/-- **One step.** -/
theorem Known.moves (h : Known d y) (event : Event) : Moves d y event (d.step y event) := by
  cases event with
  | clock now => exact .quiet (h.atRest.later_of_person_eq rfl rfl le_rfl) rfl rfl
  | project entry => exact h.moves_project entry
  | continueProjection i => exact h.moves_continueProjection i
  | start settings => exact .begin (prepare_keeps settings)
  | continueStart i => exact h.moves_continueStart i
  | take settings => exact h.moves_take settings
  | continueJob i => exact h.moves_continueJob i
  | erase personId => exact h.moves_erase personId
  | continueErasure i => exact h.moves_continueErasure i

end Steps

/-- **What is known stays known.** -/
theorem Known.move (h : Known d y) (hmove : Moves d y event y') : Known d y' := by
  have herasures : ∀ {w : World}, Later y.world w → ∀ x ∈ y.erasures, Gone x.1 w ∧
      ((∃ person rows, x.2 = d.finishErasure x.1 person rows) ∨
        x.2.Keeps cleaning fun _ => True) := fun hlater x hx =>
    ⟨hlater.gone x.1 (h.erasures x hx).1, (h.erasures x hx).2⟩
  cases hmove with
  | quiet hlater => exact ⟨hlater.toAtRest, h.projections, h.starts, h.jobs, herasures hlater⟩
  | commit hlater _ _ hp =>
    exact ⟨hlater.toAtRest, Pool.forall_append h.projections hp, h.starts, h.jobs,
      herasures hlater⟩
  | publish r hi hlater =>
    have hx := h.projections _ (List.mem_of_getElem? hi)
    have hrest := Prog.Until.next (fun _ => trivial) hx r
    exact ⟨hlater.toAtRest, Pool.forall_set h.projections hrest, h.starts, h.jobs,
      herasures hlater⟩
  | begin hp =>
    exact ⟨h.atRest, h.projections, Pool.forall_append h.starts hp, h.jobs, h.erasures⟩
  | start r hi hlater =>
    have hx := h.starts _ (List.mem_of_getElem? hi)
    have hrest := Prog.Keeps.next (fun _ => trivial) hx r
    exact ⟨hlater.toAtRest, h.projections, Pool.forall_set h.starts hrest, h.jobs,
      herasures hlater⟩
  | take _ hp =>
    exact ⟨h.atRest, h.projections, h.starts, Pool.forall_append h.jobs hp, h.erasures⟩
  | index r hi hlater =>
    have hx := h.jobs _ (List.mem_of_getElem? hi)
    have hrest := Prog.Until.next (fun _ => trivial) hx r
    exact ⟨hlater.toAtRest, h.projections, h.starts, Pool.forall_set h.jobs hrest,
      herasures hlater⟩
  | erase person rows hlater _ _ hgone =>
    exact ⟨hlater.toAtRest, h.projections, h.starts, h.jobs,
      Pool.forall_append (herasures hlater) ⟨hgone, .inl ⟨person, rows, rfl⟩⟩⟩
  | delete hi hlater =>
    have hgone := (herasures hlater _ (List.mem_of_getElem? hi)).1
    refine ⟨hlater.toAtRest, h.projections, h.starts, h.jobs,
      Pool.forall_set (herasures hlater) ⟨hgone, .inr ?_⟩⟩
    exact (eraseRest_keeps d _ _ _ _).mono fun _ _ => trivial
  | clean r hi hc hlater =>
    have hgone := (herasures hlater _ (List.mem_of_getElem? hi)).1
    exact ⟨hlater.toAtRest, h.projections, h.starts, h.jobs,
      Pool.forall_set (herasures hlater) ⟨hgone, .inr (hc.next (fun _ => trivial) r)⟩⟩

theorem known_begin (mentions : List Mention) (annotations : List RelationshipAnnotation)
    (owners : List OwnerProfile) (qdrant : Qdrant) :
    Known d (Services.begin mentions annotations owners qdrant) where
  atRest := ⟨rfl, Drawn.empty, fun _ _ _ ⟨_, hrow, _⟩ => by cases hrow⟩
  projections _ hx := by cases hx
  starts _ hx := by cases hx
  jobs _ hx := by cases hx
  erasures _ hx := by cases hx

end Moves

end Memory
end PersonalIntelligence
