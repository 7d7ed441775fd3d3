import PersonalIntelligence.Memory.Acknowledge

/-!
# What a committed projection makes of the tables

A transaction that commits has run all of its statements.  `Draft.project` is their
composition, a function of the tables and of the identifier that is drawn next, and
`exec_transaction_ok` says that this is what the transaction leaves.  What is proved
about committed commands later is proved about `Draft.project`.

## The dictionary

A `Draft` is what a transaction sees: the tables with its own writes in them, and the next
identifier.  `Draft.upsertChat`, `enrolAll`, `syncTasks` and `upsertInteraction` are
`_ensure_chat`, `_ensure_participants`, `_sync_tasks` and `_upsert_interaction` as functions of
a draft; `participantMap` is what `_ensure_participants` returns.  An identifier is drawn for
every upsert, also for one that finds its row, as Postgres does with the default of the column.

## The argument

A state that has `Wrote` a draft is the one before with these tables and this identifier; only
objects and the number of calls may differ besides.  The relation composes (`Wrote.trans`),
every function of the projector has one lemma with it (`exec_ensureChat_ok` and those that
follow), and the loops have theirs by induction on what they run over, with the draft
generalised.  `exec_projectBody_ok` is the composition.

A delivery commits its command or leaves tables, graph and streams as they were
(`Env.deliver_cases`): a command that is marked is skipped, and a transaction in which a call
raises is rolled back.  Which of the two it is, `Env.Commits` says, and `Projects` is all that a
delivery that commits leaves.  So an invariant of runs in the committed commands has to be shown
for `Projects` only (`Env.committed_invariant`).
-/

namespace PersonalIntelligence
namespace Memory

open PyText Resumption

/-! ## The statements as functions -/

/-- The tables as a transaction sees them, and the identifier that is drawn next. -/
structure Draft where
  db : Db
  drawn : Ident

/-- `title` in `_ensure_chat`. -/
def chatTitle (command : ProjectionCommand) : Option String :=
  command.messages.findSome? fun message =>
    message.tgSenderName.filter fun name => !name.isEmpty

/-- `window_start`, of a command that has messages. -/
def windowStart (command : ProjectionCommand) : Timestamp :=
  (command.messages.head?.map (·.occurredAt)).getD 0

/-- `window_end`, of a command that has messages. -/
def windowEnd (command : ProjectionCommand) : Timestamp :=
  (command.messages.getLast?.map (·.occurredAt)).getD 0

/-- The persons that the loop of `_ensure_participants` upserts: the senders that are not
known yet, each as its first message shows it. -/
def enrolments [CharData] (settings : Settings) (topics : List String) :
    List ℤ → List WindowMessagePayload → List PersonUpsert
  | _, [] => []
  | known, message :: rest =>
    match message.tgSenderId with
    | none => enrolments settings topics known rest
    | some sender =>
      if sender ∈ known then enrolments settings topics known rest
      else personUpsert settings sender message topics ::
        enrolments settings topics (known ++ [sender]) rest

/-- The persons of a command. -/
def participants [CharData] (settings : Settings) (command : ProjectionCommand) :
    List PersonUpsert :=
  enrolments settings (command.result.topics.take 8) [] command.messages

/-- The row that `_upsert_analysis_window` supplies. -/
def windowRow (chatId : Ident) (participantMap : ParticipantMap) (command : ProjectionCommand) :
    AnalysisWindow where
  id := command.sourceWindowId
  chatId
  tgChatId := command.tgChatId
  sourceMessageIds := command.messages.map (·.tgMessageId)
  participantTgIds := (participantMap.map (·.1)).insertionSort (· ≤ ·)
  chatType := command.features.chatType
  windowStart := windowStart command
  windowEnd := windowEnd command
  messages := command.messages
  features := command.features
  analysisPayload := command.result
  summary := command.result.summary
  confidence := command.result.confidence

/-- The columns that `_upsert_interaction` supplies. -/
def interactionColumns (settings : Settings) (participantIds taskIds : List Ident)
    (command : ProjectionCommand) : InteractionUpdate where
  windowEnd := windowEnd command
  participants := participantIds
  topics := command.result.topics
  sentiment := command.features.sentimentHint
  summary := command.result.summary
  tasks := taskIds
  sourceObjectRef := if settings.s3Configured then some ⟨command.sourceWindowId⟩ else none

/-- The row that `_write_audit_log` inserts. -/
def auditRow (command : ProjectionCommand) : AuditLog where
  actor := consumerName
  action := "project_analysis"
  target := .window command.sourceWindowId
  requestId := command.traceId
  payload := .projectAnalysis command.tgChatId command.sourceEventId command.result.topics

namespace Db

variable (db : Db)

/-- `_replace_facts`. -/
def replaceFacts (windowId : Ident) (rows : List ExtractedFact) : Db :=
  rows.foldl insertFact (db.deleteFacts windowId)

/-- `_replace_signals`. -/
def replaceSignals (windowId : Ident) (rows : List AnalyticsSignalRow) : Db :=
  rows.foldl insertSignal (db.deleteSignals windowId)

end Db

namespace Draft

variable (t : Draft)

/-- `_ensure_chat`. -/
def upsertChat (command : ProjectionCommand) : Draft where
  db := t.db.upsertChat t.drawn command.tgChatId command.features.chatType (chatTitle command)
  drawn := t.drawn + 1

/-- The statements of `_ensure_participants` for one sender. -/
def enrol (now : Timestamp) (chatId : Ident) (person : PersonUpsert) : Draft where
  db := (t.db.upsertPerson now t.drawn person).insertMembership
    ⟨chatId, t.db.personId person.tgUserId t.drawn⟩
  drawn := t.drawn + 1

/-- `_ensure_participants`. -/
def enrolAll (now : Timestamp) (chatId : Ident) : Draft → List PersonUpsert → Draft
  | t, [] => t
  | t, person :: rest => enrolAll now chatId (t.enrol now chatId person) rest

/-- The map that `_ensure_participants` returns. -/
def participantMap (now : Timestamp) (chatId : Ident) : Draft → List PersonUpsert → ParticipantMap
  | _, [] => []
  | t, person :: rest => (person.tgUserId, t.db.personId person.tgUserId t.drawn) ::
      participantMap now chatId (t.enrol now chatId person) rest

/-- The statements of `_sync_tasks` for one task, which is the existing one with its first
evidence or a new one. -/
def syncTask (now : Timestamp) (chatId : Ident) (command : ProjectionCommand)
    (ownerPersonId firstCounterpart : Option Ident) (task : StructuredTask) : Ident × Draft :=
  let columns := taskColumns ownerPersonId firstCounterpart task
  match t.db.findTask chatId (evidenceId task) with
  | some existingId => (existingId, ⟨t.db.updateTask now existingId columns, t.drawn⟩)
  | none =>
    (t.drawn, ⟨t.db.insertTask (columns.fresh now t.drawn chatId
      ⟨command.tgChatId, evidenceId task, command.sourceWindowId⟩), t.drawn + 1⟩)

/-- The loop of `_sync_tasks`. -/
def syncTasks (now : Timestamp) (chatId : Ident) (command : ProjectionCommand)
    (ownerPersonId firstCounterpart : Option Ident) :
    Draft → List StructuredTask → List Ident × Draft
  | t, [] => ([], t)
  | t, task :: rest =>
    let (id, t') := t.syncTask now chatId command ownerPersonId firstCounterpart task
    let (ids, t'') := syncTasks now chatId command ownerPersonId firstCounterpart t' rest
    (id :: ids, t'')

/-- `_upsert_interaction`. -/
def upsertInteraction (now : Timestamp) (chatId : Ident) (windowStart : Timestamp)
    (columns : InteractionUpdate) : Ident × Draft :=
  match t.db.selectInteraction chatId windowStart with
  | some (id, createdAt) => (id, ⟨t.db.updateInteraction id createdAt columns, t.drawn⟩)
  | none =>
    (t.drawn, ⟨t.db.insertInteraction (columns.fresh now t.drawn chatId windowStart),
      t.drawn + 1⟩)

/-- The statements of the transaction. -/
def project [CharData] (settings : Settings) (now : Timestamp) (command : ProjectionCommand) :
    Projected × Draft :=
  let chatId := t.db.chatId command.tgChatId t.drawn
  let persons := participants settings command
  let participantMap := (t.upsertChat command).participantMap now chatId persons
  let enrolled := (t.upsertChat command).enrolAll now chatId persons
  let analysed := ((enrolled.db.upsertWindow (windowRow chatId participantMap command)).replaceFacts
    command.sourceWindowId
    (command.result.claims.map (factRow command.sourceWindowId command.sourceWindowId))).replaceSignals
    command.sourceWindowId
    (command.result.analyticsSignals.map (signalRow command.sourceWindowId command.tgChatId))
  let synced := syncTasks now chatId command analysed.selectOwner
    (participantMap.head?.map (·.2)) ⟨analysed, enrolled.drawn⟩ command.result.tasks
  let filed := synced.2.upsertInteraction now chatId (windowStart command)
    (interactionColumns settings (participantMap.map (·.2)) synced.1 command)
  ({ chatId
     participantMap
     windowId := command.sourceWindowId
     taskIds := synced.1
     interactionId := filed.1 },
   ⟨(filed.2.db.insertAuditLog (auditRow command)).insertProcessed now consumerName
      command.commandId, filed.2.drawn⟩)

end Draft

/-! ## Runs of the statements -/

/-- The draft that a state shows. -/
def World.draft (s : World) : Draft := ⟨s.tables, s.drawn⟩

/-- `s'` is `s` once its transaction has come to the draft `t`; objects may have been
written, and calls made. -/
def Wrote (s : World) (t : Draft) (s' : World) : Prop :=
  ∃ objects calls, s' = { s.setTables t.db with drawn := t.drawn, objects, calls }

namespace Wrote

variable {s s₁ s' : World} {t t' : Draft}

theorem draft (h : Wrote s t s') : s'.draft = t := by
  obtain ⟨objects, calls, rfl⟩ := h
  have htables : (s.setTables t.db).tables = t.db := s.tables_setTables t.db
  show (⟨(s.setTables t.db).tables, t.drawn⟩ : Draft) = t
  rw [htables]

theorem now (h : Wrote s t s') : s'.now = s.now := by
  obtain ⟨objects, calls, rfl⟩ := h
  exact s.now_setTables t.db

theorem trans (h : Wrote s t s₁) (h' : Wrote s₁ t' s') : Wrote s t' s' := by
  obtain ⟨objects, calls, rfl⟩ := h
  obtain ⟨objects', calls', rfl⟩ := h'
  refine ⟨objects', calls', ?_⟩
  unfold World.setTables
  cases s.tx <;> rfl

theorem setTables_tables (s : World) : s.setTables s.tables = s := by
  cases htx : s.tx with
  | none => rw [World.setTables_of_closed htx, World.tables_of_closed htx]
  | some db => rw [World.setTables_of_open htx, World.tables_of_open htx, ← htx]

theorem refl (s : World) : Wrote s s.draft s := by
  refine ⟨s.objects, s.calls, ?_⟩
  show s = { s.setTables s.tables with drawn := s.drawn, objects := s.objects, calls := s.calls }
  rw [setTables_tables]

theorem tick (s : World) : Wrote s s.draft s.tick := by
  refine ⟨s.objects, s.calls + 1, ?_⟩
  show _ = { s.setTables s.tables with drawn := s.drawn, objects := s.objects, calls := s.calls + 1 }
  rw [setTables_tables]
  rfl

theorem setTables (s : World) (db : Db) : Wrote s ⟨db, s.drawn⟩ (s.setTables db).tick := by
  refine ⟨s.objects, s.calls + 1, ?_⟩
  unfold World.tick World.setTables
  cases s.tx <;> rfl

theorem insert (s : World) (db : Db) : Wrote s ⟨db, s.drawn + 1⟩ (s.insert db).tick := by
  refine ⟨s.objects, s.calls + 1, ?_⟩
  unfold World.tick World.insert World.draw World.setTables
  cases s.tx <;> rfl

end Wrote

section Runs

variable {env : Env} {s s' : World}

/-- A loop of statements that write the tables. -/
theorem exec_forM_ok {γ : Type} {body : γ → Projecting PUnit} {f : Db → γ → Db}
    (hbody : ∀ x s s', exec env.run (body x) s = (.ok (), s') →
      Wrote s ⟨f s.tables x, s.drawn⟩ s') {xs : List γ}
    (h : exec env.run (forM xs body) s = (.ok (), s')) :
    Wrote s ⟨xs.foldl f s.tables, s.drawn⟩ s' := by
  induction xs generalizing s with
  | nil =>
    cases h
    exact Wrote.refl _
  | cons x rest ih =>
    rw [List.forM_cons, exec_bind_eq_ok] at h
    obtain ⟨⟨⟩, s₁, hx, hrest⟩ := h
    have hstep := hbody x s s₁ hx
    have hloop := ih hrest
    have hdraft : s₁.draft = ⟨f s.tables x, s.drawn⟩ := hstep.draft
    have htables : s₁.tables = f s.tables x := congrArg Draft.db hdraft
    have hdrawn : s₁.drawn = s.drawn := congrArg Draft.drawn hdraft
    rw [htables, hdrawn] at hloop
    exact hstep.trans hloop

theorem exec_ensureChat_ok {command : ProjectionCommand} {chatId : Ident}
    (h : exec env.run (ensureChat command) s = (.ok chatId, s')) :
    chatId = s.draft.db.chatId command.tgChatId s.draft.drawn ∧
      Wrote s (s.draft.upsertChat command) s' := by
  obtain ⟨rfl, rfl⟩ := exec_await_ok h
  exact ⟨rfl, Wrote.insert s _⟩

/-- One sender of `_ensure_participants`. -/
theorem wrote_enrol (s : World) (chatId : Ident) (person : PersonUpsert) :
    Wrote s (s.draft.enrol s.now chatId person)
      ((s.effect (.upsertPerson person)).2.tick.effect
        (.insertMembership ⟨chatId, (s.effect (.upsertPerson person)).1⟩)).2.tick := by
  set s₁ := (s.effect (.upsertPerson person)).2.tick
  set row : ChatMembership := ⟨chatId, (s.effect (.upsertPerson person)).1⟩
  have hperson : Wrote s ⟨s.tables.upsertPerson s.now s.drawn person, s.drawn + 1⟩ s₁ :=
    Wrote.insert s _
  have htables : s₁.tables = s.tables.upsertPerson s.now s.drawn person :=
    congrArg Draft.db hperson.draft
  have hdrawn : s₁.drawn = s.drawn + 1 := congrArg Draft.drawn hperson.draft
  have hdraft : s.draft.enrol s.now chatId person =
      ⟨s₁.tables.insertMembership row, s₁.drawn⟩ := by
    rw [htables, hdrawn]
    rfl
  rw [hdraft]
  exact hperson.trans (Wrote.setTables s₁ _)

theorem exec_ensureParticipantsFrom_eq [CharData] {settings : Settings} {chatId : Ident}
    {topics : List String} {messages : List WindowMessagePayload} {known result : ParticipantMap}
    (h : exec env.run (ensureParticipantsFrom settings chatId topics messages known) s =
      (.ok result, s')) :
    result = known ++ s.draft.participantMap s.now chatId
        (enrolments settings topics (known.map (·.1)) messages) ∧
      Wrote s (s.draft.enrolAll s.now chatId
        (enrolments settings topics (known.map (·.1)) messages)) s' := by
  induction messages generalizing s known with
  | nil =>
    cases h
    exact ⟨(List.append_nil _).symm, Wrote.refl _⟩
  | cons message rest ih =>
    unfold ensureParticipantsFrom at h
    unfold enrolments
    cases hsender : message.tgSenderId with
    | none =>
      rw [hsender] at h
      exact ih h
    | some sender =>
      rw [hsender] at h
      dsimp only at h ⊢
      split_ifs at h ⊢ with hknown
      · exact ih h
      · set person := personUpsert settings sender message topics
        replace h := exec_await_bind_ok (exec_await_bind_ok h)
        have hstep := wrote_enrol s chatId person
        obtain ⟨hresult, hwrote⟩ := ih h
        rw [hstep.draft, hstep.now, List.map_append, List.map_singleton] at hresult hwrote
        refine ⟨?_, hstep.trans hwrote⟩
        rw [hresult, List.append_assoc]
        rfl

/-- The participants of a command. -/
theorem exec_ensureParticipants_ok [CharData] {settings : Settings} {chatId : Ident}
    {command : ProjectionCommand} {result : ParticipantMap}
    (h : exec env.run (ensureParticipants settings chatId command) s = (.ok result, s')) :
    result = s.draft.participantMap s.now chatId (participants settings command) ∧
      Wrote s (s.draft.enrolAll s.now chatId (participants settings command)) s' :=
  exec_ensureParticipantsFrom_eq h

theorem windowBounds_eq {command : ProjectionCommand} (hne : command.messages ≠ []) :
    ∃ head last, windowBounds command = pure (head, last) ∧
      head.occurredAt = windowStart command ∧ last.occurredAt = windowEnd command := by
  obtain ⟨head, rest, hmessages⟩ := List.exists_cons_of_ne_nil hne
  refine ⟨head, (head :: rest).getLast (List.cons_ne_nil _ _), ?_, ?_, ?_⟩
  · unfold windowBounds
    rw [hmessages]
  · rw [windowStart, hmessages]
    rfl
  · rw [windowEnd, hmessages, List.getLast?_eq_some_getLast (List.cons_ne_nil _ _)]
    rfl

theorem exec_upsertAnalysisWindow_ok {chatId windowId : Ident} {participantMap : ParticipantMap}
    {command : ProjectionCommand} (hne : command.messages ≠ [])
    (h : exec env.run (upsertAnalysisWindow chatId participantMap command) s =
      (.ok windowId, s')) :
    windowId = command.sourceWindowId ∧
      Wrote s ⟨s.draft.db.upsertWindow (windowRow chatId participantMap command), s.draft.drawn⟩ s' := by
  obtain ⟨head, last, hbounds, hhead, hlast⟩ := windowBounds_eq hne
  unfold upsertAnalysisWindow at h
  rw [hbounds, pure_bind] at h
  dsimp only at h
  rw [hhead, hlast] at h
  obtain ⟨rfl, rfl⟩ := exec_await_ok h
  exact ⟨rfl, Wrote.setTables s _⟩

theorem exec_replaceFacts_ok {windowId : Ident} {command : ProjectionCommand}
    (h : exec env.run (replaceFacts windowId command) s = (.ok (), s')) :
    Wrote s ⟨s.draft.db.replaceFacts windowId
      (command.result.claims.map (factRow windowId command.sourceWindowId)), s.draft.drawn⟩ s' := by
  have hdelete := Wrote.setTables s (s.tables.deleteFacts windowId)
  have hbody : ∀ (claim : StructuredClaim) (s s' : World),
      exec env.run (await (.insertFact (factRow windowId command.sourceWindowId claim))) s =
          (.ok (), s') →
        Wrote s ⟨s.tables.insertFact (factRow windowId command.sourceWindowId claim), s.drawn⟩ s' := by
    intro claim s s' h
    obtain ⟨-, rfl⟩ := exec_await_ok h
    exact Wrote.setTables s _
  have hinsert := exec_forM_ok (f := fun db claim =>
    db.insertFact (factRow windowId command.sourceWindowId claim)) hbody (exec_await_bind_ok h)
  have hdraft := hdelete.draft
  rw [show (s.effect (.deleteFacts windowId)).2.tick.tables = s.tables.deleteFacts windowId from
      congrArg Draft.db hdraft,
    show (s.effect (.deleteFacts windowId)).2.tick.drawn = s.drawn from
      congrArg Draft.drawn hdraft] at hinsert
  rw [Db.replaceFacts, List.foldl_map]
  exact hdelete.trans hinsert

theorem exec_replaceSignals_ok {windowId : Ident} {command : ProjectionCommand}
    (h : exec env.run (replaceSignals windowId command) s = (.ok (), s')) :
    Wrote s ⟨s.draft.db.replaceSignals windowId
      (command.result.analyticsSignals.map (signalRow windowId command.tgChatId)), s.draft.drawn⟩
      s' := by
  have hdelete := Wrote.setTables s (s.tables.deleteSignals windowId)
  have hbody : ∀ (signal : AnalyticsSignal) (s s' : World),
      exec env.run (await (.insertSignal (signalRow windowId command.tgChatId signal))) s =
          (.ok (), s') →
        Wrote s ⟨s.tables.insertSignal (signalRow windowId command.tgChatId signal), s.drawn⟩ s' := by
    intro signal s s' h
    obtain ⟨-, rfl⟩ := exec_await_ok h
    exact Wrote.setTables s _
  have hinsert := exec_forM_ok (f := fun db signal =>
    db.insertSignal (signalRow windowId command.tgChatId signal)) hbody (exec_await_bind_ok h)
  have hdraft := hdelete.draft
  rw [show (s.effect (.deleteSignals windowId)).2.tick.tables = s.tables.deleteSignals windowId from
      congrArg Draft.db hdraft,
    show (s.effect (.deleteSignals windowId)).2.tick.drawn = s.drawn from
      congrArg Draft.drawn hdraft] at hinsert
  rw [Db.replaceSignals, List.foldl_map]
  exact hdelete.trans hinsert

theorem exec_syncTasksFrom_ok {chatId : Ident} {command : ProjectionCommand}
    {ownerPersonId firstCounterpart : Option Ident} {tasks : List StructuredTask}
    {done ids : List Ident}
    (h : exec env.run (syncTasksFrom chatId command ownerPersonId firstCounterpart tasks done) s =
      (.ok ids, s')) :
    ids = done ++ (Draft.syncTasks s.now chatId command ownerPersonId firstCounterpart s.draft
        tasks).1 ∧
      Wrote s (Draft.syncTasks s.now chatId command ownerPersonId firstCounterpart s.draft tasks).2
        s' := by
  induction tasks generalizing s done with
  | nil =>
    cases h
    exact ⟨(List.append_nil _).symm, Wrote.refl _⟩
  | cons task rest ih =>
    unfold syncTasksFrom at h
    replace h := exec_await_bind_ok h
    have hfind : (s.effect (.findTask chatId (evidenceId task))).1 =
        s.draft.db.findTask chatId (evidenceId task) := rfl
    -- the draft after this task, and the rest of the loop from there
    have hrest : ∀ {id : Ident} {s₁ : World}, Wrote s (s.draft.syncTask s.now chatId command
        ownerPersonId firstCounterpart task).2 s₁ →
        (s.draft.syncTask s.now chatId command ownerPersonId firstCounterpart task).1 = id →
        exec env.run (syncTasksFrom chatId command ownerPersonId firstCounterpart rest
          (done ++ [id])) s₁ = (.ok ids, s') →
        ids = done ++ (Draft.syncTasks s.now chatId command ownerPersonId firstCounterpart s.draft
            (task :: rest)).1 ∧
          Wrote s (Draft.syncTasks s.now chatId command ownerPersonId firstCounterpart s.draft
            (task :: rest)).2 s' := by
      rintro id s₁ hstep rfl hloop
      obtain ⟨hids, hwrote⟩ := ih hloop
      rw [hstep.draft, hstep.now] at hids hwrote
      refine ⟨?_, hstep.trans hwrote⟩
      rw [hids, List.append_assoc]
      rfl
    rw [hfind] at h
    cases hfound : s.draft.db.findTask chatId (evidenceId task) with
    | some existingId =>
      rw [hfound] at h
      replace h := exec_await_bind_ok h
      refine hrest ?_ ?_ h
      · rw [Draft.syncTask, hfound]
        exact (Wrote.tick s).trans (Wrote.setTables s.tick _)
      · rw [Draft.syncTask, hfound]
    | none =>
      rw [hfound] at h
      replace h := exec_await_bind_ok h
      refine hrest ?_ ?_ h
      · rw [Draft.syncTask, hfound]
        exact (Wrote.tick s).trans (Wrote.insert s.tick _)
      · rw [Draft.syncTask, hfound]
        rfl

theorem exec_syncTasks_ok {chatId : Ident} {participantMap : ParticipantMap}
    {command : ProjectionCommand} {ids : List Ident}
    (h : exec env.run (syncTasks chatId participantMap command) s = (.ok ids, s')) :
    ids = (Draft.syncTasks s.now chatId command s.draft.db.selectOwner
        (participantMap.head?.map (·.2)) s.draft command.result.tasks).1 ∧
      Wrote s (Draft.syncTasks s.now chatId command s.draft.db.selectOwner
        (participantMap.head?.map (·.2)) s.draft command.result.tasks).2 s' := by
  obtain ⟨hids, hwrote⟩ := exec_syncTasksFrom_ok (exec_await_bind_ok h)
  exact ⟨hids, (Wrote.tick s).trans hwrote⟩

theorem exec_writeArtifact_ok {settings : Settings} {command : ProjectionCommand}
    {ref : Option ArtifactKey}
    (h : exec env.run (writeArtifact settings command.sourceWindowId command) s = (.ok ref, s')) :
    ref = (if settings.s3Configured then some ⟨command.sourceWindowId⟩ else none) ∧
      Wrote s s.draft s' := by
  unfold writeArtifact at h
  split_ifs at h ⊢
  · replace h := exec_await_bind_ok h
    cases h
    set objects := Function.update s.objects ⟨command.sourceWindowId⟩
      (some (artifact command.sourceWindowId command))
    refine ⟨rfl, objects, s.calls + 1, ?_⟩
    show _ = { s.setTables s.tables with drawn := s.drawn, objects, calls := s.calls + 1 }
    rw [Wrote.setTables_tables]
    rfl
  · cases h
    exact ⟨rfl, Wrote.refl _⟩

theorem exec_upsertInteraction_eq {settings : Settings} {chatId interactionId : Ident}
    {participantIds taskIds : List Ident} {command : ProjectionCommand} {ref : Option ArtifactKey}
    (hne : command.messages ≠ [])
    (href : ref = if settings.s3Configured then some ⟨command.sourceWindowId⟩ else none)
    (h : exec env.run (upsertInteraction chatId participantIds taskIds command ref) s =
      (.ok interactionId, s')) :
    interactionId = (s.draft.upsertInteraction s.now chatId (windowStart command)
        (interactionColumns settings participantIds taskIds command)).1 ∧
      Wrote s (s.draft.upsertInteraction s.now chatId (windowStart command)
        (interactionColumns settings participantIds taskIds command)).2 s' := by
  obtain ⟨head, last, hbounds, hhead, hlast⟩ := windowBounds_eq hne
  unfold upsertInteraction at h
  rw [hbounds, pure_bind] at h
  dsimp only at h
  rw [hhead, hlast, href] at h
  replace h := exec_await_bind_ok h
  have hselect : (s.effect (.selectInteraction chatId (windowStart command))).1 =
      s.draft.db.selectInteraction chatId (windowStart command) := rfl
  rw [hselect] at h
  unfold Draft.upsertInteraction
  cases hfound : s.draft.db.selectInteraction chatId (windowStart command) with
  | some found =>
    rw [hfound] at h
    replace h := exec_await_bind_ok h
    cases h
    exact ⟨rfl, (Wrote.tick s).trans (Wrote.setTables s.tick _)⟩
  | none =>
    rw [hfound] at h
    obtain ⟨rfl, rfl⟩ := exec_await_ok h
    exact ⟨rfl, (Wrote.tick s).trans (Wrote.insert s.tick _)⟩

theorem exec_writeAuditLog_ok {command : ProjectionCommand}
    (h : exec env.run (writeAuditLog command) s = (.ok (), s')) :
    Wrote s ⟨s.draft.db.insertAuditLog (auditRow command), s.draft.drawn⟩ s' := by
  obtain ⟨-, rfl⟩ := exec_await_ok h
  exact Wrote.setTables s _

/-- **The statements of a projection**, in a run that returns. -/
theorem exec_projectBody_ok [CharData] {settings : Settings} {command : ProjectionCommand}
    {projected : Projected} (hne : command.messages ≠ [])
    (h : exec env.run (projectBody settings command) s = (.ok projected, s')) :
    projected = (s.draft.project settings s.now command).1 ∧
      Wrote s (s.draft.project settings s.now command).2 s' := by
  unfold projectBody projectRows at h
  simp only [exec_bind_eq_ok] at h
  obtain ⟨_, s₁, ⟨chatId, s₂, hchat, participantMap, s₃, hpart, windowId, s₄, hwindow, ⟨⟩, s₅, hfacts,
    ⟨⟩, s₆, hsignals, taskIds, s₇, htasks, ref, s₈, hartifact, interactionId, s₉, hinteraction, ⟨⟩,
    s₁₀, haudit, hpure⟩, ⟨⟩, s₁₁, hmark, hret⟩ := h
  cases hpure
  cases hret
  -- each statement sees the draft that the statements before it have left
  obtain ⟨rfl, w⟩ := exec_ensureChat_ok hchat
  obtain ⟨hmap, hnext⟩ := exec_ensureParticipants_ok hpart
  rw [w.draft, w.now] at hmap hnext
  subst hmap
  replace w := w.trans hnext
  obtain ⟨rfl, hnext⟩ := exec_upsertAnalysisWindow_ok hne hwindow
  rw [w.draft] at hnext
  replace w := w.trans hnext
  have hnext := exec_replaceFacts_ok hfacts
  rw [w.draft] at hnext
  replace w := w.trans hnext
  have hnext := exec_replaceSignals_ok hsignals
  rw [w.draft] at hnext
  replace w := w.trans hnext
  obtain ⟨hids, hnext⟩ := exec_syncTasks_ok htasks
  rw [w.draft, w.now] at hids hnext
  subst hids
  replace w := w.trans hnext
  obtain ⟨href, hnext⟩ := exec_writeArtifact_ok hartifact
  rw [w.draft] at hnext
  replace w := w.trans hnext
  obtain ⟨hid, hnext⟩ := exec_upsertInteraction_eq hne href hinteraction
  rw [w.draft, w.now] at hid hnext
  subst hid
  replace w := w.trans hnext
  have hnext := exec_writeAuditLog_ok haudit
  rw [w.draft] at hnext
  replace w := w.trans hnext
  obtain ⟨-, rfl⟩ := exec_await_ok hmark
  have hnow := w.now
  have hdraft := w.draft
  have hlast : Wrote s₁ ⟨s₁.draft.db.insertProcessed s₁.now consumerName command.commandId,
      s₁.draft.drawn⟩ (s₁.effect (.insertProcessed command.commandId)).2.tick :=
    Wrote.setTables s₁ _
  rw [hdraft, hnow] at hlast
  exact ⟨rfl, w.trans hlast⟩

/-- **A transaction that commits.** -/
theorem exec_transaction_ok [CharData] {settings : Settings} {command : ProjectionCommand}
    {projected : Projected} (hs : s.tx = none)
    (h : exec env.run (transaction (projectBody settings command)) s = (.ok projected, s')) :
    command.messages ≠ [] ∧ projected = (s.draft.project settings s.now command).1 ∧
      ∃ objects calls, s' =
        { s with
          db := (s.draft.project settings s.now command).2.db
          drawn := (s.draft.project settings s.now command).2.drawn
          objects
          calls } := by
  have hne : command.messages ≠ [] := by
    rcases exec_transaction_cases env settings command hs with
      ⟨_, _, hok, hprojected, -⟩ | ⟨e, _, herr, -⟩
    · exact hprojected.nonempty
    · rw [herr] at h
      cases h
  rw [env.exec_transaction] at h
  rcases env.run_cases .begin s with hbegin | ⟨-, hbegin⟩
  · rw [hbegin, andThen_ok, exec_bind] at h
    rcases hbody : exec env.run (projectBody settings command) (s.effect .begin).2.tick with
      ⟨e | body, s₁⟩
    · rw [hbody] at h
      cases h
    · rw [hbody, andThen_ok, exec_bind] at h
      obtain ⟨hprojected, objects, calls, rfl⟩ := exec_projectBody_ok hne hbody
      have hdraft : (s.effect .begin).2.tick.draft = s.draft := by
        rw [World.draft, World.draft, World.tables_of_closed hs]
        rfl
      rw [hdraft] at hprojected h
      rw [show (s.effect .begin).2.tick.now = s.now from rfl] at hprojected h
      rw [await, exec_perform] at h
      set s₁ : World := { (s.effect .begin).2.tick.setTables
        (s.draft.project settings s.now command).2.db with
          drawn := (s.draft.project settings s.now command).2.drawn, objects, calls }
      rcases env.run_cases .commit s₁ with hcommit | ⟨-, hcommit⟩
      · rw [hcommit, andThen_ok] at h
        cases h
        refine ⟨hne, hprojected, objects, calls + 1, ?_⟩
        show { s with
          db := (s.draft.project settings s.now command).2.db
          tx := none
          drawn := (s.draft.project settings s.now command).2.drawn
          objects
          calls := calls + 1 } = _
        rw [← hs]
      · rw [hcommit, andThen_error] at h
        cases h
  · rw [hbegin] at h
    cases h

variable (env) in
/-- What follows a commit leaves the graph as it was or writes it. -/
theorem exec_projectNeo4j_graph (settings : Settings) (command : ProjectionCommand)
    (participantMap : ParticipantMap) (s : World) :
    ∃ graph calls, exec env.run (projectNeo4j settings command participantMap) s =
        (.ok (), { s with graph, calls }) ∧
      (graph = s.graph.executeWrite (graphStatements command participantMap) ∧
          settings.neo4jEnabled = true ∨
        graph = s.graph ∧ (settings.neo4jEnabled = false ∨
          ∃ n statements, env.faults n (.executeWrite statements) = true)) := by
  unfold projectNeo4j
  split_ifs with henabled
  · rw [exec_tryCatch, await, exec_perform]
    unfold Env.run
    split_ifs with hfault
    · rw [Bool.and_eq_true] at hfault
      exact ⟨s.graph, s.calls + 1, rfl, .inr ⟨rfl, .inr ⟨s.calls, _, hfault.2⟩⟩⟩
    · exact ⟨_, s.calls + 1, rfl, .inl ⟨rfl, henabled⟩⟩
  · exact ⟨s.graph, s.calls, rfl, .inr ⟨rfl, .inl (Bool.eq_false_iff.mpr henabled)⟩⟩

variable (env) in
/-- What is published names the window and the interaction. -/
theorem exec_publish_streams (settings : Settings) {command : ProjectionCommand}
    (hne : command.messages ≠ []) (projected : Projected) (s : World) :
    ∃ jobs events calls, (exec env.run (publish settings command projected) s).2 =
        { s with
          embeddingRequested := s.embeddingRequested ++ jobs
          interactionUpdated := s.interactionUpdated ++ events
          calls } ∧
      (∀ job ∈ jobs, job.message.analysisWindowId = projected.windowId) ∧
      ∀ event ∈ events, event.message.interactionId = projected.interactionId := by
  have hnil : ∀ calls, ({ s with
      embeddingRequested := s.embeddingRequested ++ []
      interactionUpdated := s.interactionUpdated ++ []
      calls } : World) = { s with calls } := by
    intro calls
    rw [List.append_nil, List.append_nil]
  obtain ⟨event, hevent, hinteraction⟩ := buildInteractionEvent_eq hne projected
  unfold publish
  rw [hevent]
  rcases buildEmbeddingJob_cases settings projected with ⟨-, hthrow⟩ | ⟨job, -, hjob, hwindow, -⟩
  · rw [hthrow]
    exact ⟨[], [], s.calls, (hnil s.calls).symm, fun _ h => (List.not_mem_nil h).elim,
      fun _ h => (List.not_mem_nil h).elim⟩
  · have hjobs : ∀ j ∈ [(⟨command.commandId, job⟩ : Publication EmbeddingJob)],
        j.message.analysisWindowId = projected.windowId := by
      intro j hj
      rw [List.mem_singleton.mp hj]
      exact hwindow
    rw [hjob, pure_bind, pure_bind, await, await, exec_perform_bind]
    rcases env.run_cases (.xaddEmbedding ⟨command.commandId, job⟩) s with hrun | ⟨-, hrun⟩
    · rw [hrun, andThen_ok, exec_perform]
      rcases env.run_cases (.xaddInteraction ⟨command.commandId, event⟩) _ with hadd | ⟨-, hadd⟩
      · rw [hadd]
        refine ⟨_, [⟨command.commandId, event⟩], s.calls + 1 + 1, rfl, hjobs, fun e he => ?_⟩
        rw [List.mem_singleton.mp he]
        exact hinteraction
      · rw [hadd]
        refine ⟨_, [], s.calls + 1 + 1, ?_, hjobs, fun _ h => (List.not_mem_nil h).elim⟩
        rw [List.append_nil]
        rfl
    · rw [hrun]
      exact ⟨[], [], s.calls + 1, (hnil (s.calls + 1)).symm, fun _ h => (List.not_mem_nil h).elim,
        fun _ h => (List.not_mem_nil h).elim⟩

end Runs

/-! ## Deliveries -/

/-- The delivery of an entry commits its command. -/
def Env.Commits [CharData] (env : Env) (settings : Settings) (s : World)
    (delivery : StreamEntry × Timestamp) : Prop :=
  s.db.isProcessed consumerName delivery.1.command.commandId = false ∧
    (env.deliver settings s delivery).db.isProcessed consumerName
      delivery.1.command.commandId = true

instance [CharData] (env : Env) (settings : Settings) (s : World)
    (delivery : StreamEntry × Timestamp) : Decidable (env.Commits settings s delivery) :=
  inferInstanceAs (Decidable (_ ∧ _))

/-- `s'` are the stores after a delivery that commits the command. -/
structure Projects [CharData] (env : Env) (settings : Settings) (command : ProjectionCommand)
    (now : Timestamp) (s s' : World) : Prop where
  nonempty : command.messages ≠ []
  unmarked : s.db.isProcessed consumerName command.commandId = false
  closed : s'.tx = none
  db : s'.db = (s.draft.project settings now command).2.db
  drawn : s'.drawn = (s.draft.project settings now command).2.drawn
  graph : s'.graph = s.graph.executeWrite (graphStatements command
        (s.draft.project settings now command).1.participantMap) ∧ settings.neo4jEnabled = true ∨
    s'.graph = s.graph ∧ (settings.neo4jEnabled = false ∨
      ∃ n statements, env.faults n (.executeWrite statements) = true)
  requested : ∀ job ∈ s'.embeddingRequested, job ∈ s.embeddingRequested ∨
    job.message.analysisWindowId = command.sourceWindowId
  updated : ∀ event ∈ s'.interactionUpdated, event ∈ s.interactionUpdated ∨
    event.message.interactionId = (s.draft.project settings now command).1.interactionId

/-- `s'` are the stores after a delivery that commits nothing. -/
structure PassesOver (s s' : World) : Prop where
  closed : s'.tx = none
  db : s'.db = s.db
  graph : s'.graph = s.graph
  requested : s'.embeddingRequested = s.embeddingRequested
  updated : s'.interactionUpdated = s.interactionUpdated

section Deliveries

variable [CharData] {env : Env} {settings : Settings} {s : World}

variable (env settings) in
/-- **A command** is committed, or leaves tables, graph and streams as they were. -/
theorem exec_handleProjection_tables (hs : s.tx = none) (command : ProjectionCommand) :
    Projects env settings command s.now s (exec env.run (handleProjection settings command) s).2 ∨
      PassesOver s (exec env.run (handleProjection settings command) s).2 := by
  cases hmarked : s.db.isProcessed consumerName command.commandId with
  | true =>
    rw [exec_handleProjection_of_marked env settings hs hmarked]
    exact .inr ⟨hs, rfl, rfl, rfl, rfl⟩
  | false =>
    unfold handleProjection
    rw [await, exec_perform_bind]
    rcases env.run_cases (.selectProcessed command.commandId) s with hrun | ⟨-, hrun⟩
    · have hselect : (s.effect (.selectProcessed command.commandId)).1 = false := by
        rw [World.effect, World.tables, hs]
        exact hmarked
      rw [hselect] at hrun
      rw [hrun, andThen_ok, if_neg Bool.false_ne_true, exec_bind]
      set s₁ := (s.effect (.selectProcessed command.commandId)).2.tick
      have hs₁ : s₁.tx = none := hs
      rcases exec_transaction_cases env settings command hs₁ with
        ⟨projected, s₂, htx, -⟩ | ⟨e, s₂, htx, hrolled, -⟩
      · obtain ⟨hne, hprojected, objects, calls, rfl⟩ := exec_transaction_ok hs₁ htx
        obtain ⟨graph, calls', hneo, hgraph⟩ := exec_projectNeo4j_graph env settings command
          projected.participantMap _
        obtain ⟨jobs, events, calls'', hpublish, hjobs, hevents⟩ := exec_publish_streams env
          settings hne projected _
        rw [htx, andThen_ok, exec_bind, hneo, andThen_ok, hpublish]
        rw [hprojected] at hgraph hjobs hevents
        refine .inl ⟨hne, hmarked, hs, rfl, rfl, hgraph, fun job hjob => ?_, fun event hevent => ?_⟩
        · exact (List.mem_append.mp hjob).imp_right (hjobs job)
        · exact (List.mem_append.mp hevent).imp_right (hevents event)
      · rw [htx]
        exact .inr ⟨hrolled.closed, hrolled.db, hrolled.graph, hrolled.embeddingRequested,
          hrolled.interactionUpdated⟩
    · rw [hrun]
      exact .inr ⟨hs, rfl, rfl, rfl, rfl⟩

/-- **A delivery** commits its command, or leaves tables, graph and streams as they were. -/
theorem Env.deliver_cases (hs : s.tx = none) (delivery : StreamEntry × Timestamp) :
    Projects env settings delivery.1.command delivery.2 s (env.deliver settings s delivery) ∨
      PassesOver s (env.deliver settings s delivery) := by
  obtain ⟨entry, now⟩ := delivery
  have hs' : (s.at now).tx = none := hs
  rw [env.deliver_eq]
  rcases exec_handleProjection_tables env settings hs' entry.command with h | h
  · exact .inl ⟨h.1, h.2, h.3, h.4, h.5, h.6, h.7, h.8⟩
  · exact .inr ⟨h.1, h.2, h.3, h.4, h.5⟩

/-- A committed command is marked. -/
theorem Projects.commits {delivery : StreamEntry × Timestamp}
    (h : Projects env settings delivery.1.command delivery.2 s
      (env.deliver settings s delivery)) : env.Commits settings s delivery := by
  refine ⟨h.unmarked, ?_⟩
  rw [h.db]
  exact (Db.isProcessed_insertProcessed _ _ _ _).mpr (.inl rfl)

/-- **What a delivery that commits leaves.** -/
theorem Env.Commits.projects {delivery : StreamEntry × Timestamp} (hs : s.tx = none)
    (h : env.Commits settings s delivery) :
    Projects env settings delivery.1.command delivery.2 s (env.deliver settings s delivery) := by
  refine (env.deliver_cases hs delivery).resolve_right fun hpass => ?_
  have hmarked := h.2
  rw [hpass.db, h.1] at hmarked
  cases hmarked

theorem Env.passesOver_of_not_commits {delivery : StreamEntry × Timestamp} (hs : s.tx = none)
    (h : ¬ env.Commits settings s delivery) : PassesOver s (env.deliver settings s delivery) :=
  (env.deliver_cases hs delivery).resolve_left fun hp => h hp.commits

/-- The graph after a delivery that commits, if Neo4j takes every write. -/
theorem Projects.graph_eq {command : ProjectionCommand} {now : Timestamp} {s' : World}
    (hp : Projects env settings command now s s')
    (hwrites : ∀ n statements, env.faults n (.executeWrite statements) = false) :
    s'.graph = if settings.neo4jEnabled then s.graph.executeWrite (graphStatements command
      (s.draft.project settings now command).1.participantMap) else s.graph := by
  rcases hp.graph with ⟨hgraph, henabled⟩ | ⟨hgraph, hdisabled | ⟨n, statements, hfault⟩⟩
  · rw [henabled]
    exact hgraph
  · rw [hdisabled]
    exact hgraph
  · rw [hwrites] at hfault
    cases hfault

omit [CharData] in
/-- Identifiers are drawn one after the other. -/
theorem World.drawn_effect (c : Cmd) (s : World) : s.drawn ≤ (s.effect c).2.drawn := by
  have hinsert : ∀ db, (s.insert db).drawn = s.drawn + 1 := fun db =>
    congrArg (· + 1) (s.drawn_setTables db)
  cases c with
  | upsertChat | upsertPerson | insertTask | insertInteraction =>
    exact (Nat.le_succ _).trans (hinsert _).ge
  | insertMembership | upsertWindow | deleteFacts | insertFact | deleteSignals | insertSignal
  | updateTask | updateInteraction | insertAuditLog | insertProcessed =>
    exact (s.drawn_setTables _).ge
  | _ => exact le_rfl

variable (env settings s) in
theorem Env.drawn_deliver (delivery : StreamEntry × Timestamp) :
    s.drawn ≤ (env.deliver settings s delivery).drawn :=
  @Env.deliverAll_invariant _ env settings (fun s' => s.drawn ≤ s'.drawn) (fun _ _ h => h)
    (fun _ h => h) [delivery] (fun _ _ c s' _ h => h.trans (World.drawn_effect c s')) s le_rfl

variable (env settings) in
/-- The commands that a sequence of deliveries commits. -/
def Env.committed : World → List (StreamEntry × Timestamp) → List ProjectionCommand
  | _, [] => []
  | s, delivery :: rest =>
    let later := Env.committed (env.deliver settings s delivery) rest
    if env.Commits settings s delivery then delivery.1.command :: later else later

/-- **The invariant rule of committed commands.**  What a delivery that commits makes of an
invariant, and a delivery that commits nothing keeps, holds of the commands committed so
far in every run. -/
theorem Env.committed_invariant {I : List ProjectionCommand → World → Prop}
    (hclosed : ∀ commands s, I commands s → s.tx = none)
    (hproject : ∀ commands s s' command now, I commands s →
      Projects env settings command now s s' → I (commands ++ [command]) s')
    (hpass : ∀ commands s s', I commands s → PassesOver s s' → s.drawn ≤ s'.drawn → I commands s')
    (deliveries : List (StreamEntry × Timestamp)) {commands : List ProjectionCommand}
    (h : I commands s) :
    I (commands ++ env.committed settings s deliveries) (env.deliverAll settings s deliveries) := by
  induction deliveries generalizing s commands with
  | nil =>
    rw [Env.committed, List.append_nil]
    exact h
  | cons delivery rest ih =>
    have hs := hclosed commands s h
    unfold Env.committed
    dsimp only
    split_ifs with hcommits
    · rw [List.append_cons]
      exact ih (hproject _ _ _ _ _ h (hcommits.projects hs))
    · exact ih (hpass _ _ _ h (Env.passesOver_of_not_commits hs hcommits)
        (env.drawn_deliver settings s delivery))

end Deliveries

end Memory
end PersonalIntelligence
