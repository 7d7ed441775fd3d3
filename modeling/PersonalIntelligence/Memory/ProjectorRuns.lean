import PersonalIntelligence.Library.Contract
import PersonalIntelligence.Memory.Projector

/-!
# What a projection can do

The statements of a projection are a straight program.  `rowsOf` is its contract: which
statements it makes for a command, written so that what is proved about the tables later
can be read off the statements alone.  The transaction around it either commits, with the
command marked, or leaves the tables as they were (`exec_transaction_cases`).

## Stages

`_project_to_postgres` makes its statements in a fixed order: entities, analysis, artifact,
interaction, audit.  `stagesOf` is the contract of a part of it, and the `..._straight` lemmas
say of each function to which stage its statements belong and what it returns.  They are put
together once (`projectRows_straight`), where the artifact is between the statements that
prepare the rows and the one that files it.

## The transaction

`Inside` is what holds between `BEGIN` and the end: the tables outside are as before, and so
are the streams and the graph.  It is kept by every statement (`Inside.run`).  Where a call
raises, the rows are rolled back (`RolledBack`); otherwise the mark is inserted and `COMMIT`
takes all of it over (`Committed`), or raises and takes over nothing.  The two outcomes are
told apart by the calls that raised, and not by the result alone: both are needed where a
condition on a run is a condition on its failures.

## Runs

After the transaction come the graph and the streams, which do not touch the tables.
`handleEntry_keeps` is the contract of a whole delivery, and `Env.deliverAll_invariant` the rule
by which an effect-wise invariant holds in every run, whatever raises.
-/

namespace PersonalIntelligence
namespace Memory

open PyText Resumption

/-- The senders of messages, with repetitions. -/
def senders (messages : List WindowMessagePayload) : List ℤ := messages.filterMap (·.tgSenderId)

theorem mem_senders {messages : List WindowMessagePayload} {u : ℤ} :
    u ∈ senders messages ↔ ∃ m ∈ messages, m.tgSenderId = some u := List.mem_filterMap

/-- The window row of a command. -/
structure WindowOf (command : ProjectionCommand) (window : AnalysisWindow) : Prop where
  id : window.id = command.sourceWindowId
  messages : window.messages = command.messages
  participants : ∀ u, u ∈ window.participantTgIds ↔ u ∈ senders command.messages

/-- The columns a command writes to an interaction. -/
def InteractionOf (command : ProjectionCommand) (columns : InteractionUpdate) : Prop :=
  ∀ key ∈ columns.sourceObjectRef, key = ⟨command.sourceWindowId⟩

/-- The statements of a projection of the command. -/
def Writes (command : ProjectionCommand) : Cmd → Prop
  | .upsertChat tgChatId _ _ => tgChatId = command.tgChatId
  | .upsertPerson person => person.tgUserId ∈ senders command.messages
  | .upsertWindow window => WindowOf command window
  | .deleteFacts windowId | .deleteSignals windowId => windowId = command.sourceWindowId
  | .insertFact row => row.windowId = command.sourceWindowId
  | .insertSignal row => row.windowId = command.sourceWindowId
  | .insertTask _ ref _ => ref.tgChatId = command.tgChatId ∧
      ∃ task ∈ command.result.tasks, ref.tgMessageId = evidenceId task
  | .putRaw key body => key = ⟨command.sourceWindowId⟩ ∧ body = artifact key.windowId command
  | .updateInteraction _ _ columns | .insertInteraction _ _ columns =>
    InteractionOf command columns
  | .insertMembership _ | .selectOwner | .findTask _ _ | .updateTask _ _
  | .selectInteraction _ _ | .insertAuditLog _ => True
  | _ => False

/-- The contract of `projectRows`. -/
def rowsOf (command : ProjectionCommand) : Contract Cmd Ans Exc where
  allowed := Writes command
  answers
    | .upsertWindow window, id => id = window.id
    | _, _ => True
  raises e := command.messages = [] ∧ e = .index

/-- What a call is for. -/
inductive Stage where
  /-- The chat and the persons. -/
  | entities
  /-- What the analysis says of the window. -/
  | analysis
  | artifact
  /-- The interaction, which refers to the artifact, and the audit entry. -/
  | filing
  /-- The mark and the transaction. -/
  | control
  /-- The graph and the streams. -/
  | publishing
  deriving DecidableEq, Repr

def Cmd.stage : Cmd → Stage
  | .upsertChat _ _ _ | .upsertPerson _ | .insertMembership _ => .entities
  | .upsertWindow _ | .deleteFacts _ | .insertFact _ | .deleteSignals _ | .insertSignal _
  | .selectOwner | .findTask _ _ | .updateTask _ _ | .insertTask _ _ _ => .analysis
  | .putRaw _ _ => .artifact
  | .selectInteraction _ _ | .updateInteraction _ _ _ | .insertInteraction _ _ _
  | .insertAuditLog _ => .filing
  | .selectProcessed _ | .begin | .commit | .rollback | .insertProcessed _ => .control
  | .executeWrite _ | .xaddEmbedding _ | .xaddInteraction _ | .xack _ => .publishing

/-- The contract of some stages of `projectRows`. -/
def stagesOf (command : ProjectionCommand) (stages : Stage → Prop) : Contract Cmd Ans Exc where
  allowed c := Writes command c ∧ stages c.stage
  answers := (rowsOf command).answers
  raises := (rowsOf command).raises

/-- What the transaction of a command leaves in variables. -/
structure ProjectedFrom (command : ProjectionCommand) (projected : Projected) : Prop where
  nonempty : command.messages ≠ []
  keys : ∀ u, u ∈ projected.participantMap.map (·.1) ↔ u ∈ senders command.messages
  windowId : projected.windowId = command.sourceWindowId

section Straight

variable {command : ProjectionCommand}

theorem ensureChat_straight :
    (ensureChat command).Straight (stagesOf command (· = .entities)) fun _ => True :=
  Prog.straight_perform (Cmd.upsertChat ..) ⟨rfl, rfl⟩ fun _ _ => trivial

theorem ensureParticipantsFrom_straight [CharData] (settings : Settings) (chatId : Ident)
    (topics : List String) {messages : List WindowMessagePayload}
    (hmem : ∀ m ∈ messages, m ∈ command.messages) (participantMap : ParticipantMap) :
    (ensureParticipantsFrom settings chatId topics messages participantMap).Straight
      (stagesOf command (· = .entities)) fun result => ∀ u, u ∈ result.map (·.1) ↔
        u ∈ participantMap.map (·.1) ∨ u ∈ senders messages := by
  induction messages generalizing participantMap with
  | nil =>
    refine Prog.straight_ret.mpr fun u => ?_
    simp [senders]
  | cons message rest ih =>
    have hrest := ih (fun m hm => hmem m (List.mem_cons_of_mem _ hm))
    unfold ensureParticipantsFrom
    cases hsender : message.tgSenderId with
    | none =>
      refine (hrest participantMap).mono fun result hresult u => ?_
      rw [hresult, mem_senders, mem_senders, List.exists_mem_cons_iff, hsender]
      simp
    | some sender =>
      have hsenders : ∀ u, u ∈ senders (message :: rest) ↔ u = sender ∨ u ∈ senders rest := by
        intro u
        rw [mem_senders, mem_senders, List.exists_mem_cons_iff, hsender, Option.some_inj, eq_comm]
      dsimp only
      split_ifs with hknown
      · refine (hrest participantMap).mono fun result hresult u => ?_
        rw [hresult, hsenders]
        refine ⟨Or.imp_right .inr, ?_⟩
        rintro (h | rfl | h)
        · exact .inl h
        · exact .inl hknown
        · exact .inr h
      · have hwrites : sender ∈ senders command.messages :=
          mem_senders.mpr ⟨message, hmem message (List.mem_cons_self ..), hsender⟩
        refine Prog.straight_perform_bind ⟨hwrites, rfl⟩ fun personId _ => ?_
        refine Prog.straight_perform_bind ⟨trivial, rfl⟩ fun _ _ => ?_
        refine (hrest _).mono fun result hresult u => ?_
        rw [hresult, hsenders, List.map_append, List.mem_append, or_assoc]
        simp

theorem windowBounds_straight (stage : Stage) :
    (windowBounds command).Straight (stagesOf command (· = stage)) fun _ => command.messages ≠ [] := by
  unfold windowBounds
  split
  · rename_i hnil
    exact Prog.straight_raise.mpr ⟨hnil, rfl⟩
  · rename_i hcons
    exact Prog.straight_ret.mpr (hcons ▸ List.cons_ne_nil _ _)

theorem upsertAnalysisWindow_straight (chatId : Ident) {participantMap : ParticipantMap}
    (hkeys : ∀ u, u ∈ participantMap.map (·.1) ↔ u ∈ senders command.messages) :
    (upsertAnalysisWindow chatId participantMap command).Straight (stagesOf command (· = .analysis))
      fun id => command.messages ≠ [] ∧ id = command.sourceWindowId := by
  refine (windowBounds_straight .analysis).bind fun bounds hne => ?_
  refine Prog.straight_perform (Cmd.upsertWindow _) ⟨⟨rfl, rfl, fun u => ?_⟩, rfl⟩
    fun _ ha => ⟨hne, ha⟩
  rw [(List.perm_insertionSort _ _).mem_iff]
  exact hkeys u

theorem replaceFacts_straight {windowId : Ident} (h : windowId = command.sourceWindowId) :
    (replaceFacts windowId command).Straight (stagesOf command (· = .analysis)) fun _ => True :=
  Prog.straight_perform_bind ⟨h, rfl⟩ fun _ _ => Prog.straight_forM fun _ _ =>
    Prog.straight_perform (Cmd.insertFact _) ⟨h, rfl⟩ fun _ _ => trivial

theorem replaceSignals_straight {windowId : Ident} (h : windowId = command.sourceWindowId) :
    (replaceSignals windowId command).Straight (stagesOf command (· = .analysis)) fun _ => True :=
  Prog.straight_perform_bind ⟨h, rfl⟩ fun _ _ => Prog.straight_forM fun _ _ =>
    Prog.straight_perform (Cmd.insertSignal _) ⟨h, rfl⟩ fun _ _ => trivial

theorem syncTasksFrom_straight (chatId : Ident) (ownerPersonId firstCounterpart : Option Ident)
    {tasks : List StructuredTask} (hmem : ∀ t ∈ tasks, t ∈ command.result.tasks)
    (ids : List Ident) :
    (syncTasksFrom chatId command ownerPersonId firstCounterpart tasks ids).Straight
      (stagesOf command (· = .analysis)) fun _ => True := by
  induction tasks generalizing ids with
  | nil => exact Prog.straight_ret.mpr trivial
  | cons task rest ih =>
    have hrest := ih (fun t ht => hmem t (List.mem_cons_of_mem _ ht))
    unfold syncTasksFrom
    refine Prog.straight_perform_bind ⟨trivial, rfl⟩ fun found _ => ?_
    cases found with
    | some existingId => exact Prog.straight_perform_bind ⟨trivial, rfl⟩ fun _ _ => hrest _
    | none =>
      have hevidence : ∃ t ∈ command.result.tasks, evidenceId task = evidenceId t :=
        ⟨task, hmem task (List.mem_cons_self ..), rfl⟩
      exact Prog.straight_perform_bind ⟨⟨rfl, hevidence⟩, rfl⟩ fun _ _ => hrest _

theorem syncTasks_straight (chatId : Ident) (participantMap : ParticipantMap) :
    (syncTasks chatId participantMap command).Straight (stagesOf command (· = .analysis)) fun _ => True :=
  Prog.straight_perform_bind ⟨trivial, rfl⟩ fun _ _ =>
    syncTasksFrom_straight chatId _ _ (fun _ ht => ht) []

theorem writeArtifact_straight (settings : Settings) {windowId : Ident}
    (h : windowId = command.sourceWindowId) :
    (writeArtifact settings windowId command).Straight (stagesOf command (· = .artifact))
      fun ref => ∀ key ∈ ref, key = ⟨command.sourceWindowId⟩ := by
  subst h
  unfold writeArtifact
  split_ifs
  · refine Prog.straight_perform_bind ⟨⟨rfl, rfl⟩, rfl⟩ fun _ _ => ?_
    exact Prog.straight_ret.mpr fun key hkey => (Option.some.inj hkey).symm
  · exact Prog.straight_ret.mpr fun key hkey => by cases hkey

theorem upsertInteraction_straight (chatId : Ident) (participantIds taskIds : List Ident)
    {ref : Option ArtifactKey} (h : ∀ key ∈ ref, key = ⟨command.sourceWindowId⟩) :
    (upsertInteraction chatId participantIds taskIds command ref).Straight
      (stagesOf command (· = .filing)) fun _ => True := by
  refine (windowBounds_straight .filing).bind fun bounds _ => ?_
  refine Prog.straight_perform_bind ⟨trivial, rfl⟩ fun row _ => ?_
  cases row with
  | some found =>
    exact Prog.straight_perform_bind ⟨h, rfl⟩ fun _ _ => Prog.straight_ret.mpr trivial
  | none => exact Prog.straight_perform (Cmd.insertInteraction ..) ⟨h, rfl⟩ fun _ _ => trivial

theorem writeAuditLog_straight :
    (writeAuditLog command).Straight (stagesOf command (· = .filing)) fun _ => True :=
  Prog.straight_perform (Cmd.insertAuditLog _) ⟨trivial, rfl⟩ fun _ _ => trivial

/-- What some stages do, more stages do. -/
theorem straight_stages {α : Type} {p : Projecting α} {stages stages' : Stage → Prop}
    {post : α → Prop} (hsub : ∀ stage, stages stage → stages' stage)
    (h : p.Straight (stagesOf command stages) post) :
    p.Straight (stagesOf command stages') post := by
  refine h.weaken (fun c hc => ?_) (fun _ _ ha => ?_) fun _ he => ?_
  · exact ⟨hc.1, hsub _ hc.2⟩
  · exact ha
  · exact he

/-- What some stages do, the projection does. -/
theorem straight_rowsOf {α : Type} {p : Projecting α} {stages : Stage → Prop} {post : α → Prop}
    (h : p.Straight (stagesOf command stages) post) : p.Straight (rowsOf command) post := by
  refine h.weaken (fun c hc => ?_) (fun _ _ ha => ?_) fun _ he => ?_
  · exact hc.1
  · exact ha
  · exact he

/-- The stages before the artifact. -/
def Stage.Prepares (stage : Stage) : Prop := stage = .entities ∨ stage = .analysis

/-- What the statements before the artifact leave in variables. -/
structure Prepared where
  chatId : Ident
  participantMap : ParticipantMap
  windowId : Ident
  taskIds : List Ident

/-- The statements about what the analysis says. -/
def analyse (command : ProjectionCommand) (chatId : Ident) (participantMap : ParticipantMap) :
    Projecting Prepared := do
  let windowId ← upsertAnalysisWindow chatId participantMap command
  replaceFacts windowId command
  replaceSignals windowId command
  let taskIds ← syncTasks chatId participantMap command
  pure { chatId, participantMap, windowId, taskIds }

/-- The statements before the artifact is written. -/
def prepareRows [CharData] (settings : Settings) (command : ProjectionCommand) :
    Projecting Prepared := do
  let chatId ← ensureChat command
  let participantMap ← ensureParticipants settings chatId command
  analyse command chatId participantMap

/-- The statements after it. -/
def fileArtifact (command : ProjectionCommand) (prepared : Prepared)
    (sourceObjectRef : Option ArtifactKey) : Projecting Projected := do
  let interactionId ← upsertInteraction prepared.chatId (prepared.participantMap.map (·.2))
    prepared.taskIds command sourceObjectRef
  writeAuditLog command
  pure
    { chatId := prepared.chatId
      participantMap := prepared.participantMap
      windowId := prepared.windowId
      taskIds := prepared.taskIds
      interactionId }

theorem projectRows_eq [CharData] (settings : Settings) (command : ProjectionCommand) :
    projectRows settings command =
      prepareRows settings command >>= fun prepared =>
        writeArtifact settings prepared.windowId command >>= fileArtifact command prepared := by
  unfold projectRows prepareRows analyse fileArtifact
  simp only [bind_assoc, pure_bind]

/-- What the variables have to do with the command. -/
structure PreparedFrom (command : ProjectionCommand) (prepared : Prepared) : Prop where
  nonempty : command.messages ≠ []
  keys : ∀ u, u ∈ prepared.participantMap.map (·.1) ↔ u ∈ senders command.messages
  windowId : prepared.windowId = command.sourceWindowId

theorem ensureParticipants_straight [CharData] (settings : Settings) (chatId : Ident) :
    (ensureParticipants settings chatId command).Straight (stagesOf command (· = .entities))
      fun participantMap =>
        ∀ u, u ∈ participantMap.map (·.1) ↔ u ∈ senders command.messages := by
  have hparticipants := ensureParticipantsFrom_straight settings chatId
    (command.result.topics.take 8) (fun m (hm : m ∈ command.messages) => hm) []
  simpa [ensureParticipants] using hparticipants

theorem analysis_straight (chatId : Ident) {participantMap : ParticipantMap}
    (hkeys : ∀ u, u ∈ participantMap.map (·.1) ↔ u ∈ senders command.messages) :
    (analyse command chatId participantMap).Straight (stagesOf command (· = .analysis))
      fun prepared => PreparedFrom command prepared ∧ prepared.chatId = chatId ∧
        prepared.participantMap = participantMap := by
  refine (upsertAnalysisWindow_straight chatId hkeys).bind fun windowId ⟨hne, hwindow⟩ => ?_
  refine (replaceFacts_straight hwindow).bind fun _ _ => ?_
  refine (replaceSignals_straight hwindow).bind fun _ _ => ?_
  refine (syncTasks_straight chatId participantMap).bind fun taskIds _ => ?_
  exact Prog.straight_ret.mpr ⟨⟨hne, hkeys, hwindow⟩, rfl, rfl⟩

theorem prepareRows_straight [CharData] (settings : Settings) :
    (prepareRows settings command).Straight (stagesOf command Stage.Prepares)
      (PreparedFrom command) := by
  refine (straight_stages (fun _ h => .inl h) ensureChat_straight).bind fun chatId _ => ?_
  refine (straight_stages (fun _ h => .inl h) (ensureParticipants_straight settings chatId)).bind
    fun participantMap hkeys => ?_
  exact (straight_stages (fun _ h => .inr h) (analysis_straight chatId hkeys)).mono
    fun prepared h => h.1

theorem fileArtifact_straight {prepared : Prepared} (hprepared : PreparedFrom command prepared)
    {ref : Option ArtifactKey} (h : ∀ key ∈ ref, key = ⟨command.sourceWindowId⟩) :
    (fileArtifact command prepared ref).Straight (stagesOf command (· = .filing))
      (ProjectedFrom command) := by
  refine (upsertInteraction_straight prepared.chatId _ prepared.taskIds h).bind
    fun interactionId _ => writeAuditLog_straight.bind fun _ _ => ?_
  exact Prog.straight_ret.mpr ⟨hprepared.nonempty, hprepared.keys, hprepared.windowId⟩

/-- **The statements of a projection** are those of its contract. -/
theorem projectRows_straight [CharData] (settings : Settings) :
    (projectRows settings command).Straight (rowsOf command) (ProjectedFrom command) := by
  rw [projectRows_eq]
  refine (straight_rowsOf (prepareRows_straight settings)).bind fun prepared hprepared => ?_
  refine (straight_rowsOf (writeArtifact_straight settings hprepared.windowId)).bind
    fun ref href => straight_rowsOf (fileArtifact_straight hprepared href)

end Straight

/-! ## One command -/

/-- The calls whose exceptions reach `run`.  Those of the graph are logged. -/
def Cmd.unguarded : Cmd → Prop
  | .executeWrite _ => False
  | _ => True

theorem Writes.unguarded {command : ProjectionCommand} {c : Cmd} (h : Writes command c) :
    c.unguarded := by
  cases c with
  | executeWrite => exact h.elim
  | _ => trivial

section Commands

variable (env : Env)

/-- A command either has its effect or raises and has none. -/
theorem Env.run_cases (c : Cmd) (s : World) :
    env.run c s = (.ok (s.effect c).1, (s.effect c).2.tick) ∨
      (c.infallible = false ∧ env.run c s = (.error .callFailed, s.tick)) := by
  unfold Env.run
  split_ifs with h
  · rw [Bool.and_eq_true, Bool.not_eq_true'] at h
    exact .inr ⟨h.1, rfl⟩
  · exact .inl rfl

/-- What an effect keeps, the command keeps, if the count of calls does not matter. -/
theorem Env.run_invariant {I : World → Prop} {c : Cmd} {s : World} (htick : ∀ s, I s → I s.tick)
    (heffect : I s → I (s.effect c).2) (h : I s) : I (env.run c s).2 := by
  rcases env.run_cases c s with hok | ⟨-, herr⟩
  · rw [hok]
    exact htick _ (heffect h)
  · rw [herr]
    exact htick _ h

theorem Env.run_of_infallible {c : Cmd} (hc : c.infallible = true) (s : World) :
    env.run c s = (.ok (s.effect c).1, (s.effect c).2.tick) := by
  rcases env.run_cases c s with hok | ⟨hno, -⟩
  · exact hok
  · rw [hc] at hno
    cases hno

theorem Env.answers_rowsOf (command : ProjectionCommand) : Answers env.run (rowsOf command) := by
  intro c s a ha
  cases c with
  | upsertWindow window =>
    rcases env.run_cases (.upsertWindow window) s with hok | ⟨-, herr⟩
    · rw [hok] at ha
      exact (Except.ok.inj ha).symm
    · rw [herr] at ha
      cases ha
  | _ => trivial

theorem Env.answers_stagesOf (command : ProjectionCommand) (stages : Stage → Prop) :
    Answers env.run (stagesOf command stages) := env.answers_rowsOf command

end Commands

section Commands

variable {env : Env} {α : Type} {s s' : World}

/-- In a run that returns, a command has had its effect. -/
theorem exec_await_ok {c : Cmd} {a : Ans c} (h : exec env.run (await c) s = (.ok a, s')) :
    a = (s.effect c).1 ∧ s' = (s.effect c).2.tick := by
  rw [await, exec_perform] at h
  rcases env.run_cases c s with hrun | ⟨-, hrun⟩
  · rw [hrun] at h
    cases h
    exact ⟨rfl, rfl⟩
  · rw [hrun] at h
    cases h

theorem exec_await_bind_ok {c : Cmd} {f : Ans c → Projecting α} {b : α}
    (h : exec env.run (await c >>= f) s = (.ok b, s')) :
    exec env.run (f (s.effect c).1) (s.effect c).2.tick = (.ok b, s') := by
  rw [exec_bind_eq_ok] at h
  obtain ⟨a, s₁, hawait, hrest⟩ := h
  obtain ⟨rfl, rfl⟩ := exec_await_ok hawait
  exact hrest

end Commands

theorem windowBounds_cons {command : ProjectionCommand} {head : WindowMessagePayload}
    {rest : List WindowMessagePayload} (h : command.messages = head :: rest) :
    ∃ last, windowBounds command = pure (head, last) := by
  unfold windowBounds
  rw [h]
  exact ⟨_, rfl⟩

/-! ## The transaction -/

/-- `s'` is reached from `s` by statements of an open transaction. -/
structure Inside (s s' : World) : Prop where
  opened : s'.tx.isSome = true
  processed : s'.tables.processedEvent = s.tables.processedEvent
  db : s'.db = s.db
  graph : s'.graph = s.graph
  embeddingRequested : s'.embeddingRequested = s.embeddingRequested
  interactionUpdated : s'.interactionUpdated = s.interactionUpdated
  deadLetters : s'.deadLetters = s.deadLetters
  acked : s'.acked = s.acked
  now : s'.now = s.now

/-- `s'` has the streams of `s`, and no transaction is open. -/
structure Around (s s' : World) : Prop where
  closed : s'.tx = none
  embeddingRequested : s'.embeddingRequested = s.embeddingRequested
  interactionUpdated : s'.interactionUpdated = s.interactionUpdated
  deadLetters : s'.deadLetters = s.deadLetters
  acked : s'.acked = s.acked

section Transaction

variable {s s' : World}

theorem Inside.tick (h : Inside s s') : Inside s s'.tick := ⟨h.1, h.2, h.3, h.4, h.5, h.6, h.7, h.8, h.9⟩

/-- A write of the tables, in an open transaction. -/
theorem Inside.setTables (h : Inside s s') {db : Db}
    (hdb : db.processedEvent = s'.tables.processedEvent) : Inside s (s'.setTables db) := by
  obtain ⟨opened, processed, hrest⟩ := h
  unfold World.setTables
  cases htx : s'.tx with
  | none =>
    rw [htx] at opened
    cases opened
  | some t => exact ⟨rfl, hdb.trans processed, hrest, ‹_›, ‹_›, ‹_›, ‹_›, ‹_›, ‹_›⟩

theorem Inside.insert (h : Inside s s') {db : Db}
    (hdb : db.processedEvent = s'.tables.processedEvent) : Inside s (s'.insert db) := by
  have hset := h.setTables hdb
  exact ⟨hset.1, hset.2, hset.3, hset.4, hset.5, hset.6, hset.7, hset.8, hset.9⟩

/-- The statements of a projection stay inside its transaction. -/
theorem Inside.effect {command : ProjectionCommand} {c : Cmd} (hc : Writes command c)
    (h : Inside s s') : Inside s (s'.effect c).2 := by
  cases c with
  | selectProcessed | begin | commit | rollback | insertProcessed | executeWrite | xaddEmbedding
  | xaddInteraction | xack => exact hc.elim
  | upsertChat | upsertPerson | insertTask | insertInteraction => exact h.insert rfl
  | insertMembership row =>
    refine h.setTables ?_
    unfold Db.insertMembership
    split_ifs <;> rfl
  | putRaw key body => exact ⟨h.1, h.2, h.3, h.4, h.5, h.6, h.7, h.8, h.9⟩
  | selectOwner | findTask | selectInteraction => exact h
  | _ => exact h.setTables rfl

theorem Inside.run (env : Env) {command : ProjectionCommand} {c : Cmd} (hc : Writes command c)
    (h : Inside s s') : Inside s (env.run c s').2 :=
  env.run_invariant (fun _ => Inside.tick) (Inside.effect hc) h

/-- `s'` has the tables of `s` as well. -/
structure SameDb (s s' : World) : Prop extends Around s s' where
  db : s'.db = s.db

/-- The stores after a transaction that was rolled back. -/
structure RolledBack (s s' : World) : Prop extends SameDb s s' where
  graph : s'.graph = s.graph

/-- The stores after a transaction that was committed. -/
structure Committed (command : ProjectionCommand) (s s' : World) : Prop extends Around s s' where
  processed : ∀ id, s'.db.isProcessed consumerName id = true ↔
    id = command.commandId ∨ s.db.isProcessed consumerName id = true

/-- Marking a command marks it and no other. -/
theorem Db.isProcessed_insertProcessed (db : Db) (now : Timestamp) (eventId id : Ident) :
    (db.insertProcessed now consumerName eventId).isProcessed consumerName id = true ↔
      id = eventId ∨ db.isProcessed consumerName id = true := by
  have hrows : (db.insertProcessed now consumerName eventId).processedEvent =
      if (⟨consumerName, eventId, now⟩ : ProcessedEvent) ∈ db.processedEvent then
        db.processedEvent else db.processedEvent ++ [⟨consumerName, eventId, now⟩] := by
    unfold insertProcessed
    dsimp only
    split_ifs <;> rfl
  unfold isProcessed
  rw [hrows, Table.any_insert, decide_eq_true_eq, and_iff_right rfl, eq_comm]

variable [CharData] (env : Env) (settings : Settings) {command : ProjectionCommand}

omit [CharData] in
/-- The run of a transaction, by what becomes of its body. -/
theorem Env.exec_transaction (body : Projecting Projected) (s : World) :
    exec env.run (transaction body) s =
      andThen (env.run .begin s) fun _ s₁ =>
        rescue
          (exec env.run (do
            let result ← body
            await .commit
            pure result) s₁)
          fun e s₂ => (.error e, { s₂ with tx := none }.tick) := by
  have hrollback : ∀ s₂, env.run .rollback s₂ = (.ok (), { s₂ with tx := none }.tick) :=
    env.run_of_infallible rfl
  unfold transaction
  simp only [Resumption.exec_transaction, await, exec_perform, hrollback, andThen_ok]

omit [CharData] in
/-- What a call of a transaction raises, a call of its body raises. -/
theorem Env.raised_transaction {bad : Cmd → Prop} (body : Projecting Projected) {s s₁ : World}
    (hbegin : env.run .begin s = (.ok (), s₁)) :
    (transaction body).Raised env.run bad s ↔
      (do
        let result ← body
        await .commit
        pure result : Projecting Projected).Raised env.run bad s₁ := by
  unfold transaction Prog.transaction
  rw [await, raised_perform_bind_of_ok hbegin, raised_tryCatch]
  refine or_iff_left ?_
  rintro ⟨e, s', -, hrollback⟩
  rw [await, raised_perform_bind_of_ok (env.run_of_infallible rfl s')] at hrollback
  exact hrollback

omit [CharData] in
theorem Inside.rolledBack (h : Inside s s') : RolledBack s { s' with tx := none }.tick :=
  ⟨⟨⟨rfl, h.embeddingRequested, h.interactionUpdated, h.deadLetters, h.acked⟩, h.db⟩, h.graph⟩

/-- The end of the transaction. -/
def markAndCommit (command : ProjectionCommand) (projected : Projected) : Projecting Projected := do
  await (.insertProcessed command.commandId)
  await .commit
  pure projected

omit [CharData] in
theorem exec_markAndCommit_cases (hs : s.tx = none) (h : Inside s s') (projected : Projected) :
    (∃ s₂, exec env.run (markAndCommit command projected) s' = (.ok projected, s₂) ∧
        Committed command s s₂ ∧
        ¬ (markAndCommit command projected).Raised env.run Cmd.unguarded s') ∨
    (∃ e s₂, exec env.run (markAndCommit command projected) s' = (.error e, s₂) ∧
        RolledBack s { s₂ with tx := none }.tick ∧
        (markAndCommit command projected).Raised env.run Cmd.unguarded s') := by
  obtain ⟨t, ht⟩ := Option.isSome_iff_exists.mp h.opened
  unfold markAndCommit
  rw [await, exec_perform_bind]
  rcases env.run_cases (.insertProcessed command.commandId) s' with hmark | ⟨-, hmark⟩
  · -- the mark is written to the open transaction and nowhere else
    have hopen : (s'.effect (.insertProcessed command.commandId)).2.tick =
        { s' with
          tx := some (t.insertProcessed s'.now consumerName command.commandId)
          calls := s'.calls + 1 } := by
      simp [World.effect, World.setTables, World.tables, ht, World.tick]
    rw [raised_perform_bind_of_ok hmark, hmark, hopen, andThen_ok, await, exec_perform_bind]
    rcases env.run_cases .commit { s' with
        tx := some (t.insertProcessed s'.now consumerName command.commandId)
        calls := s'.calls + 1 } with hcommit | ⟨-, hcommit⟩
    · rw [raised_perform_bind_of_ok hcommit, hcommit]
      refine .inl ⟨_, rfl, ⟨⟨rfl, h.embeddingRequested, h.interactionUpdated, h.deadLetters,
        h.acked⟩, fun id => ?_⟩, raised_ret⟩
      have hprocessed := h.processed
      rw [World.tables, World.tables, hs, ht, Option.getD_none, Option.getD_some] at hprocessed
      refine (Db.isProcessed_insertProcessed t s'.now command.commandId id).trans ?_
      unfold Db.isProcessed
      rw [hprocessed]
    · rw [hcommit]
      exact .inr ⟨_, _, rfl, ⟨⟨⟨rfl, h.embeddingRequested, h.interactionUpdated, h.deadLetters,
        h.acked⟩, h.db⟩, h.graph⟩, raised_perform_bind_of_error trivial hcommit⟩
  · rw [hmark]
    exact .inr ⟨_, _, rfl, h.tick.rolledBack, raised_perform_bind_of_error trivial hmark⟩

theorem projectBody_commit (command : ProjectionCommand) :
    (do
      let result ← projectBody settings command
      await .commit
      pure result) = projectRows settings command >>= markAndCommit command := by
  unfold projectBody markAndCommit
  simp only [bind_assoc, pure_bind]

/-- The statements of a projection, run in an open transaction. -/
theorem exec_projectRows_cases (h : Inside s s') :
    (∃ projected s₂, exec env.run (projectRows settings command) s' = (.ok projected, s₂) ∧
        ProjectedFrom command projected ∧ Inside s s₂ ∧
        ¬ (projectRows settings command).Raised env.run Cmd.unguarded s') ∨
    (∃ e s₂, exec env.run (projectRows settings command) s' = (.error e, s₂) ∧ Inside s s₂ ∧
        (command.messages ≠ [] →
          (projectRows settings command).Raised env.run Cmd.unguarded s')) := by
  have hstraight : (projectRows settings command).Straight (rowsOf command)
      (ProjectedFrom command) := projectRows_straight settings
  have hkeeps : (projectRows settings command).Keeps (rowsOf command) (ProjectedFrom command) :=
    hstraight.keeps (fun _ hc => hc) fun _ _ ha => ha
  have hinside := hkeeps.exec_invariant (env.answers_rowsOf command)
    (fun c s₁ hc hs₁ => Inside.run env hc hs₁) h
  have hcases (hne : command.messages ≠ []) :=
    hstraight.exec_cases (env.answers_rowsOf command) (fun e he => hne he.1)
      (fun _ hc => Writes.unguarded hc) s'
  rcases hexec : exec env.run (projectRows settings command) s' with ⟨e | projected, s₂⟩
  · rw [hexec] at hinside
    refine .inr ⟨e, s₂, rfl, hinside, fun hne => ?_⟩
    rcases hcases hne with ⟨-, a, s₃, hok, -⟩ | ⟨hraised, -⟩
    · rw [hexec] at hok
      cases hok
    · exact hraised
  · rw [hexec] at hinside
    have hpost := hkeeps.post_of_exec (env.answers_rowsOf command) hexec
    refine .inl ⟨projected, s₂, rfl, hpost, hinside, ?_⟩
    rcases hcases hpost.nonempty with ⟨hno, -⟩ | ⟨-, e, s₃, herr⟩
    · exact hno
    · rw [hexec] at herr
      cases herr

variable (command) in
/-- **The transaction of a projection** either commits, with the command marked, or is
rolled back.  The latter is so exactly if a call raises or the command has no messages. -/
theorem exec_transaction_cases (hs : s.tx = none) :
    (∃ projected s', exec env.run (transaction (projectBody settings command)) s =
        (.ok projected, s') ∧ ProjectedFrom command projected ∧ Committed command s s' ∧
        ¬ (transaction (projectBody settings command)).Raised env.run Cmd.unguarded s) ∨
    (∃ e s', exec env.run (transaction (projectBody settings command)) s = (.error e, s') ∧
        RolledBack s s' ∧
        (command.messages ≠ [] →
          (transaction (projectBody settings command)).Raised env.run Cmd.unguarded s)) := by
  rw [env.exec_transaction, projectBody_commit]
  rcases env.run_cases .begin s with hbegin | ⟨-, hbegin⟩
  · have hopen : Inside s (s.effect .begin).2.tick := by
      refine ⟨rfl, ?_, rfl, rfl, rfl, rfl, rfl, rfl, rfl⟩
      rw [World.tables, World.tables, hs]
      rfl
    rw [env.raised_transaction _ hbegin, projectBody_commit, hbegin, andThen_ok, exec_bind]
    rcases exec_projectRows_cases env settings hopen with
      ⟨projected, s₂, hrows, hprojected, hinside, hquiet⟩ | ⟨e, s₂, hrows, hinside, hraise⟩
    · rw [hrows, andThen_ok, raised_bind_of_ok hrows]
      rcases exec_markAndCommit_cases env hs hinside projected with
        ⟨s₃, hmark, hcommitted, hcommit⟩ | ⟨e, s₃, hmark, hrolled, hraise⟩
      · rw [hmark]
        exact .inl ⟨projected, s₃, rfl, hprojected, hcommitted, not_or.mpr ⟨hquiet, hcommit⟩⟩
      · rw [hmark]
        exact .inr ⟨e, _, rfl, hrolled, fun _ => .inr hraise⟩
    · rw [hrows, raised_bind_of_error hrows]
      exact .inr ⟨e, _, rfl, hinside.rolledBack, hraise⟩
  · rw [hbegin]
    exact .inr ⟨_, _, rfl, ⟨⟨⟨hs, rfl, rfl, rfl, rfl⟩, rfl⟩, rfl⟩,
      fun _ => raised_perform_bind_of_error trivial hbegin⟩

end Transaction

/-! ## Whole runs -/

/-- The contract of a command that is handled. -/
def entryOf (command : ProjectionCommand) : Contract Cmd Ans Exc where
  allowed c := Writes command c ∨ c.stage = .control ∨ c.stage = .publishing
  answers := (rowsOf command).answers

/-- The contract of what follows the transaction. -/
def publishing : Contract Cmd Ans Exc where
  allowed c := c.stage = .publishing

section Entries

variable [CharData] (settings : Settings) {command : ProjectionCommand}

theorem projectRows_keeps :
    (projectRows settings command).Keeps (entryOf command) (ProjectedFrom command) := by
  have hstraight : (projectRows settings command).Straight (rowsOf command)
      (ProjectedFrom command) := projectRows_straight settings
  refine hstraight.keeps (fun c hc => ?_) fun c a ha => ?_
  · exact Or.inl hc
  · exact ha

theorem transaction_keeps :
    (transaction (projectBody settings command)).Keeps (entryOf command)
      (ProjectedFrom command) := by
  have hrollback : ∀ e : Exc, (await .rollback >>= fun _ => throw e : Projecting Projected).Keeps
      (entryOf command) (ProjectedFrom command) := fun e =>
    Prog.keeps_perform_bind (.inr (.inl rfl)) fun _ _ => Prog.keeps_raise
  refine Prog.keeps_perform_bind (.inr (.inl rfl)) fun _ _ => Prog.Keeps.tryCatch hrollback ?_
  rw [projectBody_commit]
  refine (projectRows_keeps settings).bind fun projected hprojected => ?_
  refine Prog.keeps_perform_bind (.inr (.inl rfl)) fun _ _ => ?_
  exact Prog.keeps_perform_bind (.inr (.inl rfl)) fun _ _ => Prog.keeps_ret.mpr hprojected

omit [CharData] in
theorem projectNeo4j_keeps (participantMap : ParticipantMap) :
    (projectNeo4j settings command participantMap).Keeps publishing fun _ => True := by
  unfold projectNeo4j
  split_ifs
  · exact Prog.Keeps.tryCatch (fun _ => Prog.keeps_ret.mpr trivial)
      (Prog.keeps_perform (Cmd.executeWrite _) rfl fun _ _ => trivial)
  · exact Prog.keeps_ret.mpr trivial

omit [CharData] in
/-- The event of a command with messages is of the interaction that was filed. -/
theorem buildInteractionEvent_eq (hne : command.messages ≠ []) (projected : Projected) :
    ∃ event, buildInteractionEvent command projected = pure event ∧
      event.interactionId = projected.interactionId := by
  obtain ⟨head, rest, hmessages⟩ := List.exists_cons_of_ne_nil hne
  unfold buildInteractionEvent windowBounds
  rw [hmessages]
  exact ⟨_, rfl, rfl⟩

omit [CharData] in
/-- The job is of the window and its participants, if the provider has a name. -/
theorem buildEmbeddingJob_cases (settings : Settings) (projected : Projected) :
    (parseProvider settings.embeddingProvider = none ∧
      buildEmbeddingJob settings command projected = throw .validation) ∨
    ∃ job, parseProvider settings.embeddingProvider ≠ none ∧
      buildEmbeddingJob settings command projected = pure job ∧
      job.analysisWindowId = projected.windowId ∧ job.personIds = projected.participantIds := by
  unfold buildEmbeddingJob
  cases parseProvider settings.embeddingProvider with
  | none => exact .inl ⟨rfl, rfl⟩
  | some provider => exact .inr ⟨_, Option.some_ne_none _, rfl, rfl, rfl⟩

omit [CharData] in
theorem buildInteractionEvent_keeps (contract : Contract Cmd Ans Exc) (projected : Projected) :
    (buildInteractionEvent command projected).Keeps contract fun _ => True := by
  unfold buildInteractionEvent windowBounds
  cases command.messages with
  | nil => exact Prog.keeps_raise
  | cons head rest => exact Prog.keeps_ret.mpr trivial

omit [CharData] in
theorem publish_keeps (projected : Projected) :
    (publish settings command projected).Keeps publishing fun _ => True := by
  have hsend : ∀ job, (await (.xaddEmbedding ⟨command.commandId, job⟩) >>= fun _ =>
      buildInteractionEvent command projected >>= fun event =>
        await (.xaddInteraction ⟨command.commandId, event⟩)).Keeps publishing fun _ => True := by
    refine fun job => Prog.keeps_perform_bind rfl fun _ _ => ?_
    exact (buildInteractionEvent_keeps publishing projected).bind fun event _ =>
      Prog.keeps_perform (Cmd.xaddInteraction _) rfl fun _ _ => trivial
  unfold publish
  rcases buildEmbeddingJob_cases settings projected with ⟨-, hthrow⟩ | ⟨job, -, hjob, -⟩
  · rw [hthrow]
    exact Prog.keeps_raise
  · rw [hjob, pure_bind]
    exact hsend job

omit [CharData] in
/-- What follows the transaction. -/
theorem finish_keeps (projected : Projected) :
    (projectNeo4j settings command projected.participantMap >>= fun _ =>
      publish settings command projected).Keeps publishing fun _ => True :=
  (projectNeo4j_keeps settings _).bind fun _ _ => publish_keeps settings projected

/-- **What handling an entry can do** is write the rows of its command, and the calls
around that. -/
theorem handleEntry_keeps (entry : StreamEntry) :
    (handleEntry settings entry).Keeps (entryOf entry.command) fun _ => True := by
  have hhandle : (handleProjection settings entry.command).Keeps (entryOf entry.command)
      fun _ => True := by
    refine Prog.keeps_perform_bind (.inr (.inl rfl)) fun processed _ => ?_
    cases processed with
    | true => exact Prog.keeps_ret.mpr trivial
    | false =>
      refine (transaction_keeps settings).bind fun projected _ => ?_
      refine (finish_keeps settings projected).weaken (fun c hc => ?_) fun _ _ _ => trivial
      exact .inr (.inr hc)
  refine (Prog.Keeps.tryCatch (fun _ => Prog.keeps_ret.mpr trivial) hhandle).bind fun _ _ => ?_
  exact Prog.keeps_perform (Cmd.xack entry) (.inr (.inr rfl)) fun _ _ => trivial

end Entries

/-- **The invariant rule of the projector.**  What the effects of its commands keep, every
run keeps. -/
theorem Env.deliverAll_invariant [CharData] (env : Env) (settings : Settings) {I : World → Prop}
    (hat : ∀ s now, I s → I (s.at now)) (htick : ∀ s, I s → I s.tick)
    {deliveries : List (StreamEntry × Timestamp)}
    (heffect : ∀ d ∈ deliveries, ∀ c s, (entryOf d.1.command).allowed c → I s → I (s.effect c).2)
    {s : World} (h : I s) : I (env.deliverAll settings s deliveries) := by
  induction deliveries generalizing s with
  | nil => exact h
  | cons d rest ih =>
    refine ih (fun d' hd' => heffect d' (List.mem_cons_of_mem _ hd')) ?_
    refine (handleEntry_keeps settings d.1).exec_invariant ?_ (fun c s₁ hc hs₁ => ?_) (hat s d.2 h)
    · exact env.answers_rowsOf d.1.command
    · exact env.run_invariant htick (heffect d (List.mem_cons_self ..) c s₁ hc) hs₁

end Memory
end PersonalIntelligence
