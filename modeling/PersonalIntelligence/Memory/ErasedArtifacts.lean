import PersonalIntelligence.Memory.Acknowledge
import PersonalIntelligence.Memory.EraseRuns
import PersonalIntelligence.Memory.Soundness

/-!
# What an erase leaves in the object store

An erase finds the artifacts through the interactions of the person.  So an artifact must
be referred to by an interaction that lists all of its senders (`Referenced`).  A
projection breaks this in two ways: it fails after the artifact has been written, and the
interaction is rolled back, or it finds the interaction of another window that starts at
the same time, and makes that interaction its own.  In a run without either, an erase
without warnings is complete (`erased_artifacts_of_harmless`).
-/

namespace PersonalIntelligence
namespace Memory

open PyText Resumption

/-- `s'` is reached from `s` by statements that write no interaction and delete no
person. -/
structure Steady (s s' : World) : Prop where
  interaction : s'.tables.interaction = s.tables.interaction
  persons : ∀ u id, s.tables.HasPerson u id → s'.tables.HasPerson u id

namespace Steady

variable {s s' s'' : World}

theorem refl (s : World) : Steady s s := ⟨rfl, fun _ _ h => h⟩

theorem trans (h : Steady s s') (h' : Steady s' s'') : Steady s s'' :=
  ⟨h'.interaction.trans h.interaction, fun u id hp => h'.persons u id (h.persons u id hp)⟩

theorem tick (h : Steady s s') : Steady s s'.tick := ⟨h.1, h.2⟩

theorem setTables (h : Steady s s') {db : Db}
    (hinteraction : db.interaction = s'.tables.interaction)
    (hpersons : ∀ u id, s'.tables.HasPerson u id → db.HasPerson u id) :
    Steady s (s'.setTables db) := by
  have hdb : (s'.setTables db).tables = db := World.tables_setTables s' db
  constructor
  · rw [hdb, hinteraction, h.interaction]
  · intro u id hp
    rw [hdb]
    exact hpersons u id (h.persons u id hp)

theorem insert (h : Steady s s') {db : Db}
    (hinteraction : db.interaction = s'.tables.interaction)
    (hpersons : ∀ u id, s'.tables.HasPerson u id → db.HasPerson u id) :
    Steady s (s'.insert db) :=
  have hset := h.setTables hinteraction hpersons
  ⟨hset.1, hset.2⟩

/-- The statements before the artifact. -/
theorem effect (h : Steady s s') {c : Cmd} (hc : c.stage.Prepares) :
    Steady s (s'.effect c).2 := by
  have hsame : ∀ u id, s'.tables.HasPerson u id → s'.tables.HasPerson u id := fun _ _ hp => hp
  cases c with
  | putRaw | selectInteraction | updateInteraction | insertInteraction | insertAuditLog
  | selectProcessed | begin | commit | rollback | insertProcessed | executeWrite | xaddEmbedding
  | xaddInteraction | xack => rcases hc with hc | hc <;> cases hc
  | upsertChat => exact h.insert rfl hsame
  | upsertPerson person => exact h.insert rfl fun _ _ hp => hp.upsertPerson
  | insertMembership row =>
    refine h.setTables ?_ ?_ <;>
    · unfold Db.insertMembership
      split_ifs <;> first | rfl | exact hsame
  | insertTask => exact h.insert rfl hsame
  | selectOwner | findTask => exact h
  | _ => exact h.setTables rfl hsame

theorem run (h : Steady s s') (env : Env) {c : Cmd} (hc : c.stage.Prepares) :
    Steady s (env.run c s').2 :=
  env.run_invariant (fun _ => Steady.tick) (fun h => h.effect hc) h

end Steady

/-- The variables before the artifact, and the state `s'` in which they were computed. -/
structure PreparedIn (command : ProjectionCommand) (s s' : World) (prepared : Prepared) : Prop
    extends PreparedFrom command prepared where
  steady : Steady s s'
  chatId : prepared.chatId = s.tables.chatId command.tgChatId s.drawn
  persons : ∀ entry ∈ prepared.participantMap, s'.tables.HasPerson entry.1 entry.2

section Prepare

variable {env : Env} [CharData] {settings : Settings} {command : ProjectionCommand} {s s' : World}

omit [CharData] in
variable (env s) in
/-- What keeps to the stages before the artifact is steady. -/
theorem steady_of_straight {α : Type} {p : Projecting α} {stages : Stage → Prop} {post : α → Prop}
    (hstages : ∀ stage, stages stage → stage.Prepares)
    (hp : p.Straight (stagesOf command stages) post) : Steady s (exec env.run p s).2 := by
  have hkeeps : p.Keeps (stagesOf command stages) post := hp.keeps (fun _ hc => hc) fun _ _ ha => ha
  exact hkeeps.exec_invariant (env.answers_stagesOf command stages)
    (fun c s₁ hc hs₁ => hs₁.run env (hstages _ hc.2)) (Steady.refl s)

/-- The participants are the persons of their accounts. -/
theorem exec_ensureParticipantsFrom_ok {chatId : Ident} {topics : List String}
    {messages : List WindowMessagePayload} {participantMap result : ParticipantMap}
    (hmap : ∀ entry ∈ participantMap, s.tables.HasPerson entry.1 entry.2)
    (h : exec env.run (ensureParticipantsFrom settings chatId topics messages participantMap) s =
      (.ok result, s')) :
    Steady s s' ∧ ∀ entry ∈ result, s'.tables.HasPerson entry.1 entry.2 := by
  induction messages generalizing s participantMap with
  | nil =>
    cases h
    exact ⟨Steady.refl _, hmap⟩
  | cons message rest ih =>
    unfold ensureParticipantsFrom at h
    cases hsender : message.tgSenderId with
    | none =>
      rw [hsender] at h
      exact ih hmap h
    | some sender =>
      rw [hsender] at h
      dsimp only at h
      split_ifs at h with hknown
      · exact ih hmap h
      · replace h := exec_await_bind_ok h
        set person := personUpsert settings sender message topics
        set s₁ := (s.effect (.upsertPerson person)).2.tick
        replace h := exec_await_bind_ok h
        have hsteady₁ : Steady s s₁ :=
          ((Steady.refl s).effect (c := .upsertPerson person) (.inl rfl)).tick
        have hsteady₂ := ((Steady.refl s₁).effect (c := .insertMembership
          ⟨chatId, (s.effect (.upsertPerson person)).1⟩) (.inl rfl)).tick
        have hperson : s₁.tables.HasPerson sender (s.effect (.upsertPerson person)).1 := by
          have htables : s₁.tables = s.tables.upsertPerson s.now s.drawn person :=
            World.tables_setTables s _
          rw [htables]
          exact Db.hasPerson_upsertPerson s.tables s.now s.drawn person
        have hentries : ∀ entry ∈ participantMap ++ [(sender, (s.effect (.upsertPerson person)).1)],
            s₁.tables.HasPerson entry.1 entry.2 := by
          intro entry hentry
          rcases List.mem_append.mp hentry with hold | hnew
          · exact hsteady₁.persons _ _ (hmap entry hold)
          · rw [List.mem_singleton.mp hnew]
            exact hperson
        obtain ⟨hsteady, hresult⟩ := ih
          (fun entry hentry => hsteady₂.persons _ _ (hentries entry hentry)) h
        exact ⟨(hsteady₁.trans hsteady₂).trans hsteady, hresult⟩

/-- **The variables before the artifact.** -/
theorem exec_prepareRows_ok {prepared : Prepared}
    (h : exec env.run (prepareRows settings command) s = (.ok prepared, s')) :
    PreparedIn command s s' prepared := by
  unfold prepareRows ensureChat at h
  replace h := exec_await_bind_ok h
  set title := command.messages.findSome? fun message =>
    message.tgSenderName.filter fun name => !name.isEmpty
  set upsert := Cmd.upsertChat command.tgChatId command.features.chatType title
  have hsteady₁ : Steady s (s.effect upsert).2.tick :=
    ((Steady.refl s).effect (c := upsert) (.inl rfl)).tick
  rw [exec_bind_eq_ok] at h
  obtain ⟨participantMap, s₂, hparticipants, h⟩ := h
  have hkeys := ((ensureParticipants_straight settings (s.effect upsert).1).keeps
    (fun _ hc => hc) fun _ _ ha => ha).post_of_exec (env.answers_stagesOf command _) hparticipants
  obtain ⟨hsteady₂, hpersons⟩ :=
    exec_ensureParticipantsFrom_ok (fun _ he => by cases he) hparticipants
  have hanalysis := analysis_straight (s.effect upsert).1 hkeys
  have hsteady₃ := steady_of_straight env s₂ (fun _ hstage => .inr hstage) hanalysis
  obtain ⟨hprepared, hchat, hmap⟩ := (hanalysis.keeps
    (fun _ hc => hc) fun _ _ ha => ha).post_of_exec (env.answers_stagesOf command _) h
  rw [h] at hsteady₃
  refine ⟨hprepared, (hsteady₁.trans hsteady₂).trans hsteady₃, hchat, ?_⟩
  rw [hmap]
  exact fun entry hentry => hsteady₃.persons _ _ (hpersons entry hentry)

end Prepare

/-! ## The interaction -/

/-- A window that starts at `windowStart` has been filed under `columns`.  A row that is
gone is one of that start. -/
structure Files (chatId : Ident) (windowStart : Timestamp) (columns : InteractionUpdate)
    (before after : List Interaction) : Prop where
  filed : ∃ row ∈ after, row.participants = columns.participants ∧
    ∀ key ∈ columns.sourceObjectRef, row.sourceObjectRef = some key
  kept : ∀ row ∈ before, row ∈ after ∨ (row.chatId = chatId ∧ row.windowStart = windowStart)

section Interactions

variable {db : Db} {chatId : Ident} {windowStart : Timestamp} {columns : InteractionUpdate}

/-- The interaction that is found is updated, and no other. -/
theorem Db.files_updateInteraction {found : Ident × Timestamp}
    (hids : (db.interaction.map Interaction.id).Nodup)
    (hselect : db.selectInteraction chatId windowStart = some found) :
    Files chatId windowStart columns db.interaction
      (db.updateInteraction found.1 found.2 columns).interaction := by
  obtain ⟨best, hfirst, rfl⟩ := Option.map_eq_some_iff.mp hselect
  obtain ⟨hbest, hkey⟩ := List.mem_filter.mp (Table.mem_of_first hfirst)
  have hmatch := of_decide_eq_true hkey
  refine ⟨⟨columns.apply best, Table.mem_update.mpr ⟨best, hbest, by simp⟩, rfl,
    fun _ hsome => ?_⟩, fun row hrow => ?_⟩
  · have happly : (columns.apply best).sourceObjectRef =
        columns.sourceObjectRef.or best.sourceObjectRef := rfl
    rw [happly, Option.mem_def.mp hsome]
    rfl
  · by_cases hrest : row.id = best.id
    · obtain rfl := List.inj_on_of_nodup_map hids hrow hbest hrest
      exact .inr hmatch
    · exact .inl (Table.mem_update.mpr ⟨row, hrow, by simp [hrest]⟩)

theorem Db.files_insertInteraction {row : Interaction}
    (hparticipants : row.participants = columns.participants)
    (href : row.sourceObjectRef = columns.sourceObjectRef) :
    Files chatId windowStart columns db.interaction (db.insertInteraction row).interaction where
  filed := ⟨row, List.mem_append_right _ (List.mem_singleton_self row), hparticipants,
    fun _ hkey => href.trans hkey⟩
  kept _ hold := .inl (List.mem_append_left _ hold)

end Interactions

section Filing

variable {env : Env} {command : ProjectionCommand} {s s' : World}

/-- The interaction of a window, with the columns that are written to it. -/
theorem exec_upsertInteraction_ok {chatId interactionId : Ident} {participantIds taskIds : List Ident}
    {ref : Option ArtifactKey} (hids : (s.tables.interaction.map Interaction.id).Nodup)
    (h : exec env.run (upsertInteraction chatId participantIds taskIds command ref) s =
      (.ok interactionId, s')) :
    s'.tables.person = s.tables.person ∧ ∃ head ∈ command.messages.head?, ∃ columns,
      columns.participants = participantIds ∧ columns.sourceObjectRef = ref ∧
      Files chatId head.occurredAt columns s.tables.interaction s'.tables.interaction := by
  unfold upsertInteraction at h
  cases hmessages : command.messages with
  | nil =>
    unfold windowBounds at h
    rw [hmessages] at h
    cases h
  | cons head rest =>
    obtain ⟨last, hbounds⟩ := windowBounds_cons hmessages
    rw [hbounds, pure_bind] at h
    replace h := exec_await_bind_ok h
    set columns : InteractionUpdate :=
      { windowEnd := last.occurredAt
        participants := participantIds
        topics := command.result.topics
        sentiment := command.features.sentimentHint
        summary := command.result.summary
        tasks := taskIds
        sourceObjectRef := ref }
    have hfound : (s.effect (.selectInteraction chatId head.occurredAt)).1 =
        s.tables.selectInteraction chatId head.occurredAt := rfl
    rw [hfound] at h
    cases hselect : s.tables.selectInteraction chatId head.occurredAt with
    | some found =>
      rw [hselect] at h
      replace h := exec_await_bind_ok h
      cases h
      have htables : ((s.tick.effect (.updateInteraction found.1 found.2 columns)).2.tick).tables =
          s.tables.updateInteraction found.1 found.2 columns := World.tables_setTables s.tick _
      refine ⟨(congrArg Db.person htables).trans rfl, head, rfl, columns, rfl, rfl, ?_⟩
      exact congrArg Db.interaction htables ▸ Db.files_updateInteraction hids hselect
    | none =>
      rw [hselect] at h
      obtain ⟨-, rfl⟩ := exec_await_ok h
      have htables : ((s.tick.effect (.insertInteraction chatId head.occurredAt columns)).2.tick).tables =
          s.tables.insertInteraction (columns.fresh s.now s.drawn chatId head.occurredAt) :=
        World.tables_setTables s.tick _
      refine ⟨(congrArg Db.person htables).trans rfl, head, rfl, columns, rfl, rfl, ?_⟩
      exact congrArg Db.interaction htables ▸ Db.files_insertInteraction rfl rfl

theorem Db.insertProcessed_person (db : Db) (now : Timestamp) (name : String) (eventId : Ident) :
    (db.insertProcessed now name eventId).person = db.person := by
  unfold insertProcessed
  dsimp only
  split_ifs <;> rfl

theorem Db.insertProcessed_interaction (db : Db) (now : Timestamp) (name : String)
    (eventId : Ident) : (db.insertProcessed now name eventId).interaction = db.interaction := by
  unfold insertProcessed
  dsimp only
  split_ifs <;> rfl

/-- The tables that a commit of the mark leaves. -/
theorem World.db_marked (s : World) (eventId : Ident) :
    ((s.effect (.insertProcessed eventId)).2.tick.effect .commit).2.tick.db =
      s.tables.insertProcessed s.now consumerName eventId := World.tables_setTables s _

/-- The tables after the rest of the transaction. -/
theorem exec_fileArtifact_ok {prepared : Prepared} {projected : Projected}
    {ref : Option ArtifactKey} (hids : (s.tables.interaction.map Interaction.id).Nodup)
    (h : exec env.run (fileArtifact command prepared ref >>= markAndCommit command) s =
      (.ok projected, s')) :
    s'.db.person = s.tables.person ∧ ∃ head ∈ command.messages.head?, ∃ columns,
      columns.participants = prepared.participantMap.map (·.2) ∧ columns.sourceObjectRef = ref ∧
      Files prepared.chatId head.occurredAt columns s.tables.interaction s'.db.interaction := by
  rw [exec_bind_eq_ok] at h
  obtain ⟨projected', s₂, hfile, hmark⟩ := h
  unfold fileArtifact writeAuditLog at hfile
  rw [exec_bind_eq_ok] at hfile
  obtain ⟨interactionId, s₁, hupsert, haudit⟩ := hfile
  replace haudit := exec_await_bind_ok haudit
  cases haudit
  unfold markAndCommit at hmark
  replace hmark := exec_await_bind_ok hmark
  replace hmark := exec_await_bind_ok hmark
  cases hmark
  obtain ⟨hperson, head, hhead, columns, hparticipants, href, hfiles⟩ :=
    exec_upsertInteraction_ok hids hupsert
  have haudited : ∀ row, (s₁.effect (.insertAuditLog row)).2.tick.tables =
      s₁.tables.insertAuditLog row := fun row => World.tables_setTables s₁ _
  rw [World.db_marked, haudited, Db.insertProcessed_person, Db.insertProcessed_interaction]
  exact ⟨hperson, head, hhead, columns, hparticipants, href, hfiles⟩

end Filing

/-! ## How far a projection comes -/

/-- The calls up to the artifact. -/
def Cmd.untilArtifact (c : Cmd) : Bool :=
  match c with
  | .selectProcessed _ | .begin => true
  | _ => c.stage = .entities ∨ c.stage = .analysis ∨ c.stage = .artifact

/-- The calls after the artifact, up to the commit. -/
def Cmd.afterArtifact (c : Cmd) : Bool :=
  match c with
  | .insertProcessed _ | .commit => true
  | _ => c.stage = .filing

theorem Cmd.untilArtifact_eq_false {c : Cmd} (h : c.afterArtifact = true) :
    c.untilArtifact = false := by
  cases c <;> first | rfl | cases h

theorem Cmd.afterArtifact_of_filing {c : Cmd} (h : c.stage = .filing) : c.afterArtifact = true := by
  cases c <;> first | rfl | cases h

theorem Cmd.not_artifact_of_afterArtifact {c : Cmd} (h : c.afterArtifact = true) :
    c.stage ≠ .artifact := by
  intro hstage
  cases c with
  | putRaw => cases h
  | _ => cases hstage

/-- The contract of the transaction after the artifact. -/
def afterArtifact (command : ProjectionCommand) : Contract Cmd Ans Exc where
  allowed c := c.afterArtifact = true
  answers := (rowsOf command).answers
  raises := (rowsOf command).raises

/-- An artifact is written by one call. -/
theorem World.objects_effect {c : Cmd} (hc : c.stage ≠ .artifact) (s : World) :
    (s.effect c).2.objects = s.objects := by
  cases c with
  | putRaw => exact absurd rfl hc
  | upsertChat | upsertPerson | insertTask | insertInteraction => exact s.objects_setTables _
  | selectProcessed | begin | commit | rollback | selectOwner | findTask | selectInteraction
  | executeWrite | xaddEmbedding | xaddInteraction | xack => rfl
  | _ => exact s.objects_setTables _

/-- The objects after a program that writes none. -/
theorem exec_objects {env : Env} {α : Type} {C : Contract Cmd Ans Exc} {post : α → Prop}
    {p : Projecting α} (hp : p.Keeps C post) (hans : Answers env.run C)
    (hC : ∀ c, C.allowed c → c.stage ≠ .artifact) (s : World) :
    (exec env.run p s).2.objects = s.objects := by
  refine hp.exec_invariant (I := fun s' => s'.objects = s.objects) hans (fun c s₁ hc hs₁ => ?_) rfl
  exact env.run_invariant (I := fun s' => s'.objects = s.objects) (fun _ h => h)
    (fun h => (World.objects_effect (hC c hc) s₁).trans h) hs₁

/-- The window of a command has been filed in the tables `after`: its interaction lists the
persons of its senders, and no other interaction is gone but one of the same start. -/
structure Filed (command : ProjectionCommand) (drawn : Ident) (before after : Db) : Prop where
  persons : ∀ u id, before.HasPerson u id → after.HasPerson u id
  filed : ∃ row ∈ after.interaction, row.sourceObjectRef = some ⟨command.sourceWindowId⟩ ∧
    ∀ u ∈ senders command.messages, ∃ id ∈ row.participants, after.HasPerson u id
  kept : ∀ row ∈ before.interaction, row ∈ after.interaction ∨
    (row.chatId = before.chatId command.tgChatId drawn ∧
      ∃ head ∈ command.messages.head?, row.windowStart = head.occurredAt)

/-- The objects once the artifact has been written. -/
def stored (command : ProjectionCommand) (objects : ArtifactKey → Option Artifact) :
    ArtifactKey → Option Artifact :=
  Function.update objects ⟨command.sourceWindowId⟩ (some (artifact command.sourceWindowId command))

section Transaction

variable {env : Env} {command : ProjectionCommand} {s s' : World}

theorem fileArtifact_markAndCommit_straight {prepared : Prepared}
    (hprepared : PreparedFrom command prepared) {ref : Option ArtifactKey}
    (href : ∀ key ∈ ref, key = ⟨command.sourceWindowId⟩) :
    (fileArtifact command prepared ref >>= markAndCommit command).Straight (afterArtifact command)
      fun _ => True := by
  have hfile : (fileArtifact command prepared ref).Straight (afterArtifact command)
      (ProjectedFrom command) := by
    refine (fileArtifact_straight hprepared href).weaken (fun c hc => ?_) (fun _ _ ha => ?_)
      fun _ he => ?_
    · exact Cmd.afterArtifact_of_filing hc.2
    · exact ha
    · exact he
  refine hfile.bind fun projected _ => ?_
  refine Prog.straight_perform_bind rfl fun _ _ => ?_
  exact Prog.straight_perform_bind rfl fun _ _ => Prog.straight_ret.mpr trivial

/-- The artifact in its transaction, after the statements before it. -/
theorem PreparedIn.filed {prepared : Prepared} {projected : Projected} {s₁ : World}
    (hprepared : PreparedIn command s s₁ prepared) {s₂ : World} (htables : s₂.tables = s₁.tables)
    (hids : (s.tables.interaction.map Interaction.id).Nodup)
    (h : exec env.run (fileArtifact command prepared (some ⟨command.sourceWindowId⟩) >>=
      markAndCommit command) s₂ = (.ok projected, s')) :
    Filed command s.drawn s.tables s'.db := by
  have hinteraction : s₂.tables.interaction = s.tables.interaction :=
    (congrArg Db.interaction htables).trans hprepared.steady.interaction
  obtain ⟨hperson, head, hhead, columns, hparticipants, href, hfiles⟩ :=
    exec_fileArtifact_ok (hinteraction ▸ hids) h
  rw [hinteraction] at hfiles
  have hpersons : ∀ u id, s₁.tables.HasPerson u id → s'.db.HasPerson u id := by
    intro u id hp
    unfold Db.HasPerson
    rw [hperson, htables]
    exact hp
  refine ⟨fun u id hp => hpersons u id (hprepared.steady.persons u id hp), ?_, fun row hrow => ?_⟩
  · obtain ⟨row, hrow, hlisted, hkey⟩ := hfiles.filed
    refine ⟨row, hrow, hkey _ href, fun u hu => ?_⟩
    obtain ⟨entry, hentry, rfl⟩ := List.mem_map.mp ((hprepared.keys u).mpr hu)
    refine ⟨entry.2, ?_, hpersons _ _ (hprepared.persons entry hentry)⟩
    rw [hlisted, hparticipants]
    exact List.mem_map_of_mem hentry
  · rcases hfiles.kept row hrow with hold | ⟨hchat, hstart⟩
    · exact .inl hold
    · exact .inr ⟨hchat.trans hprepared.chatId, head, hhead, hstart⟩

variable (env) [CharData] {settings : Settings}

omit [CharData] in
theorem exec_writeArtifact_cases (hs3 : settings.s3Configured = true) (s : World) :
    exec env.run (writeArtifact settings command.sourceWindowId command) s =
        (.ok (some ⟨command.sourceWindowId⟩),
          { s with objects := stored command s.objects }.tick) ∨
      exec env.run (writeArtifact settings command.sourceWindowId command) s =
        (.error .callFailed, s.tick) := by
  unfold writeArtifact
  rw [if_pos hs3, await, exec_perform_bind]
  rcases env.run_cases (.putRaw ⟨command.sourceWindowId⟩
    (artifact command.sourceWindowId command)) s with hrun | ⟨-, hrun⟩
  · rw [hrun]
    exact .inl rfl
  · rw [hrun]
    exact .inr rfl

/-- What becomes of the artifact in a run of `p` that ends in `s'`. -/
inductive ArtifactRun (command : ProjectionCommand) {α : Type} (p : Projecting α) (s s' : World) :
    Except Exc α → Prop where
  /-- It is not written. -/
  | unwritten {e : Exc} (objects : s'.objects = s.objects) : ArtifactRun command p s s' (.error e)
  /-- It is written, and a later call raises. -/
  | lost {e : Exc} (objects : s'.objects = stored command s.objects)
      (huntil : ¬ p.Raised env.run (Cmd.untilArtifact ·) s)
      (hafter : p.Raised env.run (Cmd.afterArtifact ·) s) : ArtifactRun command p s s' (.error e)
  /-- It is written and filed. -/
  | filed {a : α} (objects : s'.objects = stored command s.objects)
      (filed : Filed command s.drawn s.tables s'.db)
      (huntil : ¬ p.Raised env.run (Cmd.untilArtifact ·) s)
      (hafter : ¬ p.Raised env.run (Cmd.afterArtifact ·) s) : ArtifactRun command p s s' (.ok a)

variable (command) in
/-- **The artifact of a projection**, for the statements of its transaction. -/
theorem artifactRun_projectBody (hs3 : settings.s3Configured = true)
    (hids : (s.tables.interaction.map Interaction.id).Nodup) :
    ArtifactRun env command (projectRows settings command >>= markAndCommit command) s
      (exec env.run (projectRows settings command >>= markAndCommit command) s).2
      (exec env.run (projectRows settings command >>= markAndCommit command) s).1 := by
  have hbody : projectRows settings command >>= markAndCommit command =
      prepareRows settings command >>= fun prepared =>
        writeArtifact settings prepared.windowId command >>= fun ref =>
          fileArtifact command prepared ref >>= markAndCommit command := by
    rw [projectRows_eq]
    simp only [bind_assoc]
  have hprepare : (prepareRows settings command).Straight (stagesOf command Stage.Prepares)
      (PreparedFrom command) := prepareRows_straight settings
  have hprepareObjects := exec_objects (hprepare.keeps (fun _ hc => hc) fun _ _ ha => ha)
    (env.answers_stagesOf command _) (fun c hc => by rcases hc.2 with h | h <;> simp [h]) s
  rw [hbody, exec_bind]
  rcases hprep : exec env.run (prepareRows settings command) s with ⟨e | prepared, s₁⟩
  · rw [hprep] at hprepareObjects
    exact .unwritten hprepareObjects
  · rw [hprep] at hprepareObjects
    rw [andThen_ok, exec_bind]
    have hprepared := exec_prepareRows_ok hprep
    have hwriting := writeArtifact_straight settings hprepared.windowId
    rw [hprepared.windowId] at hwriting ⊢
    rcases exec_writeArtifact_cases env hs3 s₁ with hwrite | hwrite
    · -- from here on the artifact is there, and whether it is filed is up to the rest
      have hobjects₂ : stored command s₁.objects = stored command s.objects :=
        congrArg (stored command) hprepareObjects
      rw [hwrite, andThen_ok]
      set s₂ : World := { s₁ with objects := stored command s₁.objects }.tick
      set rest := fileArtifact command prepared (some ⟨command.sourceWindowId⟩) >>=
        markAndCommit command
      have hrest : rest.Straight (afterArtifact command) fun _ => True :=
        fileArtifact_markAndCommit_straight hprepared.toPreparedFrom
          fun _ hkey => (Option.some.inj hkey).symm
      have hkeeps : rest.Keeps (afterArtifact command) fun _ => True :=
        hrest.keeps (fun _ hc => hc) fun _ _ ha => ha
      have hans : Answers env.run (afterArtifact command) := env.answers_rowsOf command
      have hraised : ∀ bad, (prepareRows settings command >>= fun prepared =>
          writeArtifact settings prepared.windowId command >>= fun ref =>
            fileArtifact command prepared ref >>= markAndCommit command).Raised env.run bad s ↔
          rest.Raised env.run bad s₂ := by
        intro bad
        rw [raised_bind_of_ok hprep, hprepared.windowId, raised_bind_of_ok hwrite,
          or_iff_right (hprepare.not_raised_of_ok (env.answers_stagesOf command _) hprep)]
        exact or_iff_right (hwriting.not_raised_of_ok (env.answers_stagesOf command _) hwrite)
      have huntil : ¬ rest.Raised env.run (Cmd.untilArtifact ·) s₂ :=
        hkeeps.not_raised hans (fun c hc => by simp [Cmd.untilArtifact_eq_false hc]) s₂
      have hobjects : (exec env.run rest s₂).2.objects = stored command s.objects :=
        (exec_objects hkeeps hans (fun _ => Cmd.not_artifact_of_afterArtifact) s₂).trans hobjects₂
      have htables : s₂.tables = s₁.tables := rfl
      have hbad : ∀ c, (afterArtifact command).allowed c → c.afterArtifact = true := fun _ h => h
      rcases hrest.exec_cases hans (fun e he => hprepared.nonempty he.1) hbad s₂ with
        ⟨hquiet, projected, s', hok, -⟩ | ⟨hraise, e, s', herr⟩
      · rw [hok] at hobjects ⊢
        exact .filed hobjects (hprepared.filed htables hids hok) ((hraised _).not.mpr huntil)
          ((hraised _).not.mpr hquiet)
      · rw [herr] at hobjects ⊢
        exact .lost hobjects ((hraised _).not.mpr huntil) ((hraised _).mpr hraise)
    · rw [hwrite]
      exact .unwritten hprepareObjects

variable (command) in
/-- The same, for the transaction. -/
theorem artifactRun_transaction (hs3 : settings.s3Configured = true) (hs : s.tx = none)
    (hids : (s.db.interaction.map Interaction.id).Nodup) :
    ArtifactRun env command (transaction (projectBody settings command)) s
      (exec env.run (transaction (projectBody settings command)) s).2
      (exec env.run (transaction (projectBody settings command)) s).1 := by
  have hs₁ : (s.effect .begin).2.tick.tables = s.tables := by
    rw [World.tables_of_closed hs]
    rfl
  rw [env.exec_transaction, projectBody_commit]
  rcases env.run_cases .begin s with hbegin | ⟨-, hbegin⟩
  · have hraised : ∀ bad, (transaction (projectBody settings command)).Raised env.run bad s ↔
        (projectRows settings command >>= markAndCommit command).Raised env.run bad
          (s.effect .begin).2.tick := by
      intro bad
      rw [env.raised_transaction _ hbegin, projectBody_commit]
    have hrun := artifactRun_projectBody env command hs3
      (s := (s.effect .begin).2.tick) (by rwa [hs₁, World.tables_of_closed hs])
    rw [hbegin, andThen_ok]
    rcases hexec : exec env.run (projectRows settings command >>= markAndCommit command)
      (s.effect .begin).2.tick with ⟨r, s'⟩
    rw [hexec] at hrun
    cases hrun with
    | unwritten hobjects => exact .unwritten hobjects
    | lost hobjects huntil hafter =>
      exact .lost hobjects ((hraised _).not.mpr huntil) ((hraised _).mpr hafter)
    | filed hobjects hfiled huntil hafter =>
      rw [hs₁] at hfiled
      exact .filed hobjects hfiled ((hraised _).not.mpr huntil) ((hraised _).not.mpr hafter)
  · rw [hbegin]
    exact .unwritten rfl

end Transaction

/-! ## The invariant -/

/-- Every artifact with a message from `u` is referred to by an interaction that lists the
person of `u`. -/
def Referenced (u : ℤ) (db : Db) (objects : ArtifactKey → Option Artifact) : Prop :=
  ∀ key body, objects key = some body → u ∈ senders body.messages →
    ∃ row ∈ db.interaction, row.sourceObjectRef = some key ∧
      ∃ id ∈ row.participants, db.HasPerson u id

/-- The interaction that a window finds by its start refers to no artifact with a message
from `u`, unless it is the window's own. -/
def Unshared (u : ℤ) (s : World) (command : ProjectionCommand) : Prop :=
  ∀ head ∈ command.messages.head?, ∀ row ∈ s.db.interaction,
    row.chatId = s.db.chatId command.tgChatId s.drawn → row.windowStart = head.occurredAt →
      ∀ key ∈ row.sourceObjectRef, key ≠ ⟨command.sourceWindowId⟩ →
        ∀ body ∈ s.objects key, u ∉ senders body.messages

section Invariant

variable {command : ProjectionCommand} {u : ℤ} {s : World} {db : Db}

/-- An artifact that is written and not filed. -/
theorem Referenced.lost (h : Referenced u s.db s.objects) (hu : u ∉ senders command.messages) :
    Referenced u s.db (stored command s.objects) := by
  intro key body hbody hsent
  by_cases hkey : key = ⟨command.sourceWindowId⟩
  · subst hkey
    rw [stored, Function.update_self] at hbody
    obtain rfl := Option.some.inj hbody
    exact absurd hsent hu
  · rw [stored, Function.update_of_ne hkey] at hbody
    exact h key body hbody hsent

/-- An artifact that is written and filed. -/
theorem Referenced.filed (h : Referenced u s.db s.objects) (hfiled : Filed command s.drawn s.db db)
    (hunshared : Unshared u s command) : Referenced u db (stored command s.objects) := by
  intro key body hbody hsent
  by_cases hkey : key = ⟨command.sourceWindowId⟩
  · subst hkey
    rw [stored, Function.update_self] at hbody
    obtain rfl := Option.some.inj hbody
    obtain ⟨row, hrow, href, hlisted⟩ := hfiled.filed
    exact ⟨row, hrow, href, hlisted u hsent⟩
  · rw [stored, Function.update_of_ne hkey] at hbody
    obtain ⟨row, hrow, href, id, hid, hperson⟩ := h key body hbody hsent
    rcases hfiled.kept row hrow with hold | ⟨hchat, head, hhead, hstart⟩
    · exact ⟨row, hold, href, id, hid, hfiled.persons u id hperson⟩
    · exact absurd hsent (hunshared head hhead row hrow hchat hstart key href hkey body hbody)

end Invariant

section Deliveries

variable [CharData] (env : Env) (settings : Settings) (u : ℤ)

/-- The command, which is not marked, does no harm: no artifact is written, or it is written
without being filed but has no message from `u`, or it is filed and takes the interaction of
no other artifact. -/
def Harmless (s : World) (command : ProjectionCommand) : Prop :=
  (handleProjection settings command).Raised env.run (Cmd.untilArtifact ·) s ∨
    ((handleProjection settings command).Raised env.run (Cmd.afterArtifact ·) s ∧
      u ∉ senders command.messages) ∨
    (¬ (handleProjection settings command).Raised env.run (Cmd.afterArtifact ·) s ∧
      Unshared u s command)

/-- No delivery of a command that is not marked yet does harm. -/
def HarmlessRun : World → List (StreamEntry × Timestamp) → Prop
  | _, [] => True
  | s, delivery :: rest =>
    (s.db.isProcessed consumerName delivery.1.command.commandId = false →
      Harmless env settings u (s.at delivery.2) delivery.1.command) ∧
    HarmlessRun (env.deliver settings s delivery) rest

variable {settings u} {command : ProjectionCommand} {s : World}

omit [CharData] in
/-- What follows the transaction touches neither tables nor objects. -/
theorem exec_finish (projected : Projected) (s : World) :
    (exec env.run (projectNeo4j settings command projected.participantMap >>= fun _ =>
        publish settings command projected) s).2.db = s.db ∧
      (exec env.run (projectNeo4j settings command projected.participantMap >>= fun _ =>
        publish settings command projected) s).2.objects = s.objects := by
  have hkeeps : (projectNeo4j settings command projected.participantMap >>= fun _ =>
      publish settings command projected).Keeps publishing fun _ => True :=
    finish_keeps settings projected
  have hans : Answers env.run publishing := fun _ _ _ _ => trivial
  refine ⟨?_, exec_objects hkeeps hans (fun c hc hart => ?_) s⟩
  · refine hkeeps.exec_invariant (I := fun s' => s'.db = s.db) hans (fun c s₁ hc hs₁ => ?_) rfl
    refine env.run_invariant (I := fun s' => s'.db = s.db) (fun _ h => h) (fun h => ?_) hs₁
    cases c with
    | executeWrite | xaddEmbedding | xaddInteraction | xack => exact h
    | _ => cases hc
  · have hstage : c.stage = .publishing := hc
    rw [hart] at hstage
    cases hstage

variable {env} in
/-- A transaction that raises has been rolled back. -/
theorem db_of_exec_transaction {e : Exc} {s' : World} (hs : s.tx = none)
    (h : exec env.run (transaction (projectBody settings command)) s = (.error e, s')) :
    s'.db = s.db := by
  rcases exec_transaction_cases env settings command hs with
    ⟨projected, s₁, hok, -⟩ | ⟨e', s₁, herr, hrolled, -⟩
  · rw [h] at hok
    cases hok
  · rw [h] at herr
    cases herr
    exact hrolled.db

section New

variable {env} {s₁ : World} (hrun : env.run (.selectProcessed command.commandId) s = (.ok false, s₁))
include hrun

/-- A command that is not marked is projected. -/
theorem exec_handleProjection_of_new :
    exec env.run (handleProjection settings command) s =
      andThen (exec env.run (transaction (projectBody settings command)) s₁) fun projected s₂ =>
        exec env.run (projectNeo4j settings command projected.participantMap >>= fun _ =>
          publish settings command projected) s₂ := by
  unfold handleProjection
  rw [await, exec_perform_bind, hrun, andThen_ok, if_neg Bool.false_ne_true, exec_bind]

/-- Its transaction is all that matters of it, but for the publications. -/
theorem raised_handleProjection_of_new {bad : Cmd → Prop}
    (hbad : ∀ c, publishing.allowed c → ¬ bad c) :
    (handleProjection settings command).Raised env.run bad s ↔
      (transaction (projectBody settings command)).Raised env.run bad s₁ := by
  unfold handleProjection
  rw [await, raised_perform_bind_of_ok hrun, if_neg Bool.false_ne_true, raised_bind]
  refine or_iff_left ?_
  rintro ⟨projected, s', -, hlater⟩
  have hans : Answers env.run publishing := fun _ _ _ _ => trivial
  exact (finish_keeps settings projected).not_raised hans hbad s' hlater

end New

omit [CharData] in
theorem not_untilArtifact_of_publishing (c : Cmd) (h : publishing.allowed c) :
    ¬ c.untilArtifact = true := by
  cases c with
  | executeWrite | xaddEmbedding | xaddInteraction | xack => exact Bool.false_ne_true
  | _ => cases h

omit [CharData] in
theorem not_afterArtifact_of_publishing (c : Cmd) (h : publishing.allowed c) :
    ¬ c.afterArtifact = true := by
  cases c with
  | executeWrite | xaddEmbedding | xaddInteraction | xack => exact Bool.false_ne_true
  | _ => cases h

/-- A harmless command keeps every artifact referred to. -/
theorem Referenced.handleProjection (hs3 : settings.s3Configured = true) (hs : s.tx = none)
    (hids : (s.db.interaction.map Interaction.id).Nodup)
    (hnew : s.db.isProcessed consumerName command.commandId = false)
    (hharmless : Harmless env settings u s command) (h : Referenced u s.db s.objects) :
    Referenced u (exec env.run (handleProjection settings command) s).2.db
      (exec env.run (handleProjection settings command) s).2.objects := by
  rcases env.run_cases (.selectProcessed command.commandId) s with hrun | ⟨-, hrun⟩
  · have hselect : (s.effect (.selectProcessed command.commandId)).1 = false :=
      (congrArg (Db.isProcessed · consumerName command.commandId)
        (World.tables_of_closed hs)).trans hnew
    have hstart : (s.effect (.selectProcessed command.commandId)).2.tick = s.tick := rfl
    rw [hselect, hstart] at hrun
    have htick : s.tick.tx = none := hs
    have hartifact := artifactRun_transaction env command hs3 htick hids
    unfold Harmless at hharmless
    rw [raised_handleProjection_of_new hrun not_untilArtifact_of_publishing,
      raised_handleProjection_of_new hrun not_afterArtifact_of_publishing] at hharmless
    rw [exec_handleProjection_of_new hrun]
    rcases hexec : exec env.run (transaction (projectBody settings command)) s.tick with ⟨r, s'⟩
    rw [hexec] at hartifact
    cases hartifact with
    | unwritten hobjects =>
      have hdb : s'.db = s.tick.db := db_of_exec_transaction htick hexec
      rw [andThen_error, hdb, hobjects]
      exact h
    | lost hobjects huntil hafter =>
      have hdb : s'.db = s.tick.db := db_of_exec_transaction htick hexec
      rw [andThen_error, hdb, hobjects]
      rcases hharmless with hraise | ⟨-, hu⟩ | ⟨hquiet, -⟩
      · exact absurd hraise huntil
      · exact h.lost hu
      · exact absurd hafter hquiet
    | filed hobjects hfiled huntil hafter =>
      rw [andThen_ok, (exec_finish env _ s').1, (exec_finish env _ s').2, hobjects]
      rw [World.tables_of_closed htick] at hfiled
      rcases hharmless with hraise | ⟨hraise, -⟩ | ⟨-, hunshared⟩
      · exact absurd hraise huntil
      · exact absurd hraise hafter
      · exact h.filed hfiled hunshared
  · unfold Memory.handleProjection
    rw [await, exec_perform_bind, hrun]
    exact h

/-- What the deliveries of a harmless run keep. -/
structure Kept (u : ℤ) (s : World) : Prop where
  closed : s.tx = none
  sound : s.Sound
  referenced : Referenced u s.db s.objects

theorem Kept.deliver (hs3 : settings.s3Configured = true) (h : Kept u s)
    {delivery : StreamEntry × Timestamp}
    (hd : s.db.isProcessed consumerName delivery.1.command.commandId = false →
      Harmless env settings u (s.at delivery.2) delivery.1.command) :
    Kept u (env.deliver settings s delivery) where
  closed := env.deliver_closed settings h.closed delivery
  sound := h.sound.deliverAll env settings [delivery]
  referenced := by
    obtain ⟨entry, now⟩ := delivery
    have hclosed : (s.at now).tx = none := h.closed
    rw [env.deliver_eq]
    cases hprocessed : s.db.isProcessed consumerName entry.command.commandId with
    | true =>
      rw [exec_handleProjection_of_marked env settings hclosed hprocessed]
      exact h.referenced
    | false =>
      exact Referenced.handleProjection env hs3 hclosed h.sound.db.interactionIds.nodup hprocessed
        (hd hprocessed) h.referenced

/-- **Every state of a harmless run** keeps the artifacts of `u` referred to. -/
theorem Kept.deliverAll (hs3 : settings.s3Configured = true) (h : Kept u s)
    {deliveries : List (StreamEntry × Timestamp)}
    (hrun : HarmlessRun env settings u s deliveries) :
    Kept u (env.deliverAll settings s deliveries) := by
  induction deliveries generalizing s with
  | nil => exact h
  | cons delivery rest ih => exact ih (h.deliver env hs3 hrun.1) hrun.2

end Deliveries

/-! ## The erase -/

section Erase

variable [CharData] (env : Env) (settings : Settings) (mentions : List Mention)
  (annotations : List RelationshipAnnotation) (owners : List OwnerProfile) (qdrant : Qdrant)
  (deliveries : List (StreamEntry × Timestamp)) (eraseEnv : EraseEnv)
  (hashIdentifier : Ident → ℕ) (restSettings : RestSettings) (actor : String)

/-- **Erasing after a harmless run.**  An erase that returns without a warning leaves no
artifact with a message from the person. -/
theorem erased_artifacts_of_harmless {s s' : World} {person : Person} {u : ℤ}
    {summary : EraseSummary} (hs3 : settings.s3Configured = true)
    (hrun : HarmlessRun env settings u
      { World.start mentions annotations owners with qdrant } deliveries)
    (hs : env.deliverAll settings { World.start mentions annotations owners with qdrant }
      deliveries = s)
    (hperson : person ∈ s.db.person) (hu : person.tgUserId = some u)
    (hsummary : (exec eraseEnv.run
      (erasePersonCascade hashIdentifier restSettings actor person.id) s).1 = .ok summary)
    (hwarnings : summary.warnings = [])
    (hs' : (exec eraseEnv.run
      (erasePersonCascade hashIdentifier restSettings actor person.id) s).2 = s') :
    ∀ key body, s'.objects key = some body → u ∉ senders body.messages := by
  have hstart : Kept u { World.start mentions annotations owners with qdrant } := by
    have hsound := World.sound_start mentions annotations owners
    exact ⟨rfl, ⟨hsound.db, hsound.tx⟩, fun key body hbody => by cases hbody⟩
  have hkept := hstart.deliverAll env hs3 hrun
  rw [hs] at hkept
  rcases exec_erasePersonCascade_cases eraseEnv hashIdentifier restSettings actor person.id
    hkept.closed with ⟨row, warnings, r, s₁, hexec, hrow, -, herased, hr⟩ | ⟨e, n, hexec⟩
  · rw [hexec] at hsummary hs'
    obtain rfl := hs'
    obtain rfl := (hr summary hsummary).symm.trans hwarnings
    obtain rfl : row = person := List.inj_on_of_nodup_map hkept.sound.db.personIds.nodup
      (List.mem_of_find?_eq_some hrow) hperson (id_of_selectPerson person.id hrow)
    intro key body hbody hsent
    have hbefore : s.objects key = some body := by
      rcases herased.objects.erased key with heq | hnone
      · exact heq.symm.trans hbody
      · rw [hnone] at hbody
        cases hbody
    obtain ⟨i, hi, href, id, hid, hlisted⟩ := hkept.referenced key body hbefore hsent
    obtain rfl := hkept.sound.db.eq_of_hasPerson hperson hu hlisted
    have hkey : key ∈ s.db.erasedObjects row.id :=
      List.mem_filterMap.mpr ⟨(i.id, i.sourceObjectRef), List.mem_map.mpr
        ⟨i, List.mem_filter.mpr ⟨hi, decide_eq_true hid⟩, rfl⟩, href⟩
    have hgone := herased.objects.complete rfl key hkey
    rw [hgone] at hbody
    cases hbody
  · rw [hexec] at hsummary
    cases hsummary

end Erase

/-- User 11 writes a second greeting at the time of the first, and the two end up in windows
of their own. -/
def secondGreeting : StreamEntry where
  id := 2
  command :=
    { commandId := 102
      sourceWindowId := 202
      sourceEventId := 302
      tgChatId := 7
      messages := [{ tgMessageId := 2, tgSenderId := some 11, text := "снова", occurredAt := 60 }]
      features := {}
      result := { sourceWindowId := 202, summary := "приветствие" } }

/-- A window of the same person that begins a minute later. -/
def laterGreeting : StreamEntry where
  id := 3
  command :=
    { commandId := 103
      sourceWindowId := 203
      sourceEventId := 303
      tgChatId := 7
      messages := [{ tgMessageId := 3, tgSenderId := some 11, text := "и ещё", occurredAt := 120 }]
      features := {}
      result := { sourceWindowId := 203, summary := "приветствие" } }

/-- A vector store with one empty collection. -/
def emptyCollection : Qdrant := ({} : Qdrant).set "pil_memory_active" { dimension := 2 }

/-- The stores after some greetings, with an object store. -/
def greeted (deliveries : List (StreamEntry × Timestamp)) : World :=
  @Env.deliverAll {} basicCharData { s3Configured := true }
    { World.start [] [] [] with qdrant := emptyCollection } deliveries

/-- The erase of person 1 from these stores. -/
def greetingErased (deliveries : List (StreamEntry × Timestamp)) : Except Exc EraseSummary × World :=
  exec (EraseEnv.run {}) (erasePersonCascade id { s3Configured := true } "admin" 1)
    (greeted deliveries)

/-- The row of user 11, after the later greeting. -/
def greetingPerson : Person where
  id := 1
  tgUserId := some 11
  username := none
  displayName := "tg:11"
  topics := []
  lastInteractionAt := some 120
  isOwner := false
  updatedAt := 121

/-- The summary of the erase, after the greetings of two windows. -/
def greetingSummary (interactions : ℕ) : EraseSummary where
  personId := 1
  displayName := "tg:11"
  targetHash := 1
  deleted :=
    { person := 1
      relationshipAnnotations := 0
      memberships := 1
      mentions := 0
      tasks := 0
      analysisWindows := 2
      analyticsSignals := 0
      extractedFacts := 0
      interactions
      interactionArtifacts := interactions }
  warnings := []

/-- Two windows with interactions of their own. -/
def twoGreetings : List (StreamEntry × Timestamp) := [(greeting, 61), (laterGreeting, 121)]

theorem harmlessRun_twoGreetings : @HarmlessRun basicCharData {} { s3Configured := true } 11
    { World.start [] [] [] with qdrant := emptyCollection } twoGreetings := by
  refine ⟨fun _ => .inr (.inr ⟨by decide, fun _ _ row hrow => ?_⟩),
    fun _ => .inr (.inr ⟨by decide, ?_⟩), trivial⟩
  · cases hrow
  · intro head hhead row hrow
    revert head row
    decide

theorem erased_artifacts_twoGreetings :
    (greetingErased twoGreetings).1 = .ok (greetingSummary 2) ∧
      ∀ key body, (greetingErased twoGreetings).2.objects key = some body →
        11 ∉ senders body.messages := by
  have hperson : greetingPerson ∈ (greeted twoGreetings).db.person := by
    decide
  have hsummary : (greetingErased twoGreetings).1 = .ok (greetingSummary 2) := by
    decide
  exact ⟨hsummary, @erased_artifacts_of_harmless basicCharData {} { s3Configured := true } [] [] []
    emptyCollection twoGreetings {} id { s3Configured := true } "admin" (greeted _)
    (greetingErased _).2 _ 11 _ rfl harmlessRun_twoGreetings rfl hperson rfl hsummary rfl rfl⟩

/-- The second window takes the interaction of the first, and the artifact of the first
outlives its sender. -/
theorem artifact_outlives_erase :
    (greetingErased [(greeting, 61), (secondGreeting, 62)]).1 = .ok (greetingSummary 1) ∧
      ¬ ∀ key body, (greetingErased [(greeting, 61), (secondGreeting, 62)]).2.objects key =
        some body → 11 ∉ senders body.messages := by
  have hbody : (greetingErased [(greeting, 61), (secondGreeting, 62)]).2.objects ⟨201⟩ =
      some (artifact 201 greeting.command) := by decide +kernel
  refine ⟨by decide, fun h => h ⟨201⟩ _ hbody ?_⟩
  decide

end Memory
end PersonalIntelligence
