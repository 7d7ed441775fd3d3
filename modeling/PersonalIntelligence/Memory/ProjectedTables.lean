import PersonalIntelligence.Memory.Projection
import PersonalIntelligence.Memory.Soundness

/-!
# The tables after a projection

`Draft.project` table by table.  The loops of a projection write one or two tables each
(`enrolAll_frame`, `syncTasks_frame`), so every table has been written by one part of the
projection, and is read off that part.  The participants are the senders of the command,
without repetitions, and all of them are enrolled.

## The parts

A projection has three: it enrols the participants (`enrolled`), stores the analysis
(`analysed`), and then synchronises the tasks, files the interaction and marks the command.  The
last part writes four tables that the first two do not, so for every other table the draft
after `analysed` decides (`project_eq_analysed`), and each `project_...` lemma is the frame of
one part.

## Chats and persons

An upsert answers the identifier of the row of its key, which is an old one or the one that
was drawn (`Db.chatId`, `Db.personId`).  `ChatsSound` and `PersonsSound` say what the
constraints of the two tables say: rows have identifiers of their own, which have been drawn,
and a chat or an account has one row.  An upsert keeps this (`PersonsSound.upsert`), so a
projection does, and under it an identifier and an account can be exchanged: a person is among
the participants exactly if its account is among the senders (`mem_participantIds_iff`).

What is said of `Draft.project` is carried over to the state after a delivery that commits at
the end, where later modules take it from.
-/

namespace PersonalIntelligence
namespace Memory

open PyText Resumption

/-! ## Frames -/

/-- A fact as its table stores it. -/
def ExtractedFact.stored (row : ExtractedFact) : ExtractedFact :=
  { row with confidence := numeric3 row.confidence }

/-- A signal as its table stores it. -/
def AnalyticsSignalRow.stored (row : AnalyticsSignalRow) : AnalyticsSignalRow :=
  { row with score := numeric3 row.score }

namespace Db

theorem foldl_insertFact (db : Db) (rows : List ExtractedFact) :
    rows.foldl insertFact db =
      { db with extractedFact := db.extractedFact ++ rows.map ExtractedFact.stored } := by
  induction rows generalizing db with
  | nil => rw [List.map_nil, List.append_nil, List.foldl_nil]
  | cons row rest ih =>
    rw [List.foldl_cons, ih, List.map_cons]
    simp only [insertFact, List.append_assoc]
    rfl

theorem foldl_insertSignal (db : Db) (rows : List AnalyticsSignalRow) :
    rows.foldl insertSignal db =
      { db with analyticsSignal := db.analyticsSignal ++ rows.map AnalyticsSignalRow.stored } := by
  induction rows generalizing db with
  | nil => rw [List.map_nil, List.append_nil, List.foldl_nil]
  | cons row rest ih =>
    rw [List.foldl_cons, ih, List.map_cons]
    simp only [insertSignal, List.append_assoc]
    rfl

theorem replaceFacts_eq (db : Db) (windowId : Ident) (rows : List ExtractedFact) :
    db.replaceFacts windowId rows =
      { db with
        extractedFact := (db.extractedFact.filter (·.windowId ≠ windowId)) ++
          rows.map ExtractedFact.stored } := by
  rw [replaceFacts, foldl_insertFact]
  rfl

theorem replaceSignals_eq (db : Db) (windowId : Ident) (rows : List AnalyticsSignalRow) :
    db.replaceSignals windowId rows =
      { db with
        analyticsSignal := (db.analyticsSignal.filter (·.windowId ≠ windowId)) ++
          rows.map AnalyticsSignalRow.stored } := by
  rw [replaceSignals, foldl_insertSignal]
  rfl

theorem insertMembership_frame (db : Db) (row : ChatMembership) :
    db.insertMembership row =
      { db with chatMembership := (db.insertMembership row).chatMembership } := by
  unfold insertMembership
  split_ifs <;> rfl

theorem mem_insertMembership {db : Db} {row member : ChatMembership} :
    member ∈ (db.insertMembership row).chatMembership ↔
      member ∈ db.chatMembership ∨ member = row := by
  unfold insertMembership
  split_ifs with h
  · refine ⟨.inl, ?_⟩
    rintro (hold | rfl)
    · exact hold
    · exact h
  · exact List.mem_append.trans (or_congr_right List.mem_singleton)

theorem mem_ids_upsertWindow (db : Db) (window : AnalysisWindow) (w : Ident) :
    w ∈ (db.upsertWindow window).analysisWindow.map (·.id) ↔
      w ∈ db.analysisWindow.map (·.id) ∨ w = window.id := by
  unfold Db.upsertWindow
  refine Table.mem_keys_upsert ?_
  exact fun _ _ => rfl

theorem nodup_ids_upsertWindow {db : Db} (h : (db.analysisWindow.map (·.id)).Nodup)
    (window : AnalysisWindow) : ((db.upsertWindow window).analysisWindow.map (·.id)).Nodup := by
  unfold Db.upsertWindow
  refine Table.nodup_keys_upsert ?_ h
  exact fun _ _ => rfl

theorem insertProcessed_frame (db : Db) (now : Timestamp) (name : String) (eventId : Ident) :
    db.insertProcessed now name eventId =
      { db with processedEvent := (db.insertProcessed now name eventId).processedEvent } := by
  unfold insertProcessed
  dsimp only
  split_ifs <;> rfl

end Db

namespace Draft

section Loops

variable (now : Timestamp) (chatId : Ident)

/-- Enrolling writes persons and memberships. -/
theorem enrolAll_frame (t : Draft) (persons : List PersonUpsert) :
    (t.enrolAll now chatId persons).db =
      { t.db with
        person := (t.enrolAll now chatId persons).db.person
        chatMembership := (t.enrolAll now chatId persons).db.chatMembership } := by
  induction persons generalizing t with
  | nil => rfl
  | cons person rest ih =>
    have hstep : (t.enrol now chatId person).db =
        { t.db with
          person := (t.enrol now chatId person).db.person
          chatMembership := (t.enrol now chatId person).db.chatMembership } := by
      unfold enrol
      dsimp only
      rw [Db.insertMembership_frame]
      rfl
    unfold enrolAll
    rw [ih]
    conv_lhs => rw [hstep]

variable (command : ProjectionCommand) (ownerPersonId firstCounterpart : Option Ident)

/-- Synchronising tasks writes tasks. -/
theorem syncTasks_frame (t : Draft) (tasks : List StructuredTask) :
    (syncTasks now chatId command ownerPersonId firstCounterpart t tasks).2.db =
      { t.db with
        task := (syncTasks now chatId command ownerPersonId firstCounterpart t tasks).2.db.task } := by
  induction tasks generalizing t with
  | nil => rfl
  | cons task rest ih =>
    have hstep : (t.syncTask now chatId command ownerPersonId firstCounterpart task).2.db =
        { t.db with
          task := (t.syncTask now chatId command ownerPersonId firstCounterpart task).2.db.task } := by
      unfold syncTask
      dsimp only
      cases t.db.findTask chatId (evidenceId task) <;> rfl
    unfold syncTasks
    dsimp only
    rw [ih]
    conv_lhs => rw [hstep]

/-- Filing writes interactions. -/
theorem upsertInteraction_frame (t : Draft) (windowStart : Timestamp)
    (columns : InteractionUpdate) :
    (t.upsertInteraction now chatId windowStart columns).2.db =
      { t.db with
        interaction := (t.upsertInteraction now chatId windowStart columns).2.db.interaction } := by
  unfold upsertInteraction
  cases t.db.selectInteraction chatId windowStart <;> rfl

theorem upsertInteraction_congr {t t' : Draft} (hrows : t.db.interaction = t'.db.interaction)
    (hdrawn : t.drawn = t'.drawn) (windowStart : Timestamp) (columns : InteractionUpdate) :
    (t.upsertInteraction now chatId windowStart columns).1 =
        (t'.upsertInteraction now chatId windowStart columns).1 ∧
      (t.upsertInteraction now chatId windowStart columns).2.db.interaction =
        (t'.upsertInteraction now chatId windowStart columns).2.db.interaction ∧
      (t.upsertInteraction now chatId windowStart columns).2.drawn =
        (t'.upsertInteraction now chatId windowStart columns).2.drawn := by
  have hselect : t.db.selectInteraction chatId windowStart =
      t'.db.selectInteraction chatId windowStart := by
    unfold Db.selectInteraction
    rw [hrows]
  unfold upsertInteraction
  rw [hselect, hdrawn]
  cases t'.db.selectInteraction chatId windowStart with
  | none => exact ⟨rfl, congrArg (· ++ [_]) hrows, rfl⟩
  | some found => exact ⟨rfl, congrArg (Table.update _ _) hrows, rfl⟩

/-- The interaction that is filed is there, and none is lost. -/
theorem upsertInteraction_ids (t : Draft) (windowStart : Timestamp) (columns : InteractionUpdate) :
    (t.upsertInteraction now chatId windowStart columns).1 ∈
        (t.upsertInteraction now chatId windowStart columns).2.db.interaction.map (·.id) ∧
      ∀ id ∈ t.db.interaction.map (·.id),
        id ∈ (t.upsertInteraction now chatId windowStart columns).2.db.interaction.map (·.id) := by
  unfold upsertInteraction
  cases hselect : t.db.selectInteraction chatId windowStart with
  | none =>
    have hids : (t.db.insertInteraction (columns.fresh now t.drawn chatId windowStart)).interaction.map
        (·.id) = t.db.interaction.map (·.id) ++ [t.drawn] := List.map_append
    dsimp only
    rw [hids]
    exact ⟨List.mem_append_right _ (List.mem_singleton_self _),
      fun id hid => List.mem_append_left _ hid⟩
  | some found =>
    have hids : (t.db.updateInteraction found.1 found.2 columns).interaction.map (·.id) =
        t.db.interaction.map (·.id) := Table.map_update fun _ => rfl
    dsimp only
    rw [hids]
    obtain ⟨row, hrow, rfl⟩ := Option.map_eq_some_iff.mp hselect
    exact ⟨List.mem_map_of_mem (List.mem_filter.mp (Table.mem_of_first hrow)).1, fun id hid => hid⟩

theorem le_drawn_upsertInteraction (t : Draft) (windowStart : Timestamp)
    (columns : InteractionUpdate) :
    t.drawn ≤ (t.upsertInteraction now chatId windowStart columns).2.drawn := by
  unfold upsertInteraction
  cases t.db.selectInteraction chatId windowStart with
  | none => exact Nat.le_succ _
  | some found => exact le_rfl

theorem le_drawn_enrolAll (t : Draft) (persons : List PersonUpsert) :
    t.drawn ≤ (t.enrolAll now chatId persons).drawn := by
  induction persons generalizing t with
  | nil => exact le_rfl
  | cons person rest ih => exact (Nat.le_succ _).trans (ih (t.enrol now chatId person))

theorem le_drawn_syncTasks (t : Draft) (tasks : List StructuredTask) :
    t.drawn ≤ (syncTasks now chatId command ownerPersonId firstCounterpart t tasks).2.drawn := by
  induction tasks generalizing t with
  | nil => exact le_rfl
  | cons task rest ih =>
    have hstep : t.drawn ≤
        (t.syncTask now chatId command ownerPersonId firstCounterpart task).2.drawn := by
      unfold syncTask
      dsimp only
      cases t.db.findTask chatId (evidenceId task) with
      | none => exact Nat.le_succ _
      | some existingId => exact le_rfl
    exact hstep.trans (ih _)

end Loops

/-! ## The tables one by one -/

section Tables

variable [CharData] (settings : Settings) (now : Timestamp) (command : ProjectionCommand) (t : Draft)

/-- The draft with the participants of the command. -/
def enrolled : Draft :=
  (t.upsertChat command).enrolAll now (t.db.chatId command.tgChatId t.drawn)
    (participants settings command)

/-- The participants of the command. -/
def participantsOf : ParticipantMap :=
  (t.upsertChat command).participantMap now (t.db.chatId command.tgChatId t.drawn)
    (participants settings command)

/-- The tables once the analysis is stored. -/
def analysed : Db :=
  (((t.enrolled settings now command).db.upsertWindow
      (windowRow (t.db.chatId command.tgChatId t.drawn) (t.participantsOf settings now command)
        command)).replaceFacts command.sourceWindowId
      (command.result.claims.map (factRow command.sourceWindowId command.sourceWindowId))).replaceSignals
    command.sourceWindowId
    (command.result.analyticsSignals.map (signalRow command.sourceWindowId command.tgChatId))

/-- What is said of the tables that come before the tasks. -/
theorem project_eq_analysed {α : Type} (f : Db → α)
    (hf : ∀ db task interaction auditLog processedEvent,
      f { db with task, interaction, auditLog, processedEvent } = f db) :
    f (t.project settings now command).2.db = f (t.analysed settings now command) := by
  unfold project
  dsimp only
  set synced := syncTasks now (t.db.chatId command.tgChatId t.drawn) command _ _ _
    command.result.tasks with hsynced
  set filed := synced.2.upsertInteraction now (t.db.chatId command.tgChatId t.drawn)
    (windowStart command) _ with hfiled
  have hmark := Db.insertProcessed_frame (filed.2.db.insertAuditLog (auditRow command)) now
    consumerName command.commandId
  have hfile : filed.2.db = { synced.2.db with interaction := filed.2.db.interaction } :=
    upsertInteraction_frame _ _ _ _ _
  have hsync : synced.2.db = { t.analysed settings now command with task := synced.2.db.task } :=
    syncTasks_frame _ _ _ _ _ _ _
  calc f ((filed.2.db.insertAuditLog (auditRow command)).insertProcessed now consumerName
        command.commandId)
      = f filed.2.db := by
        rw [hmark]
        exact hf filed.2.db _ _ _ _
    _ = f synced.2.db := by
        rw [hfile]
        exact hf synced.2.db _ _ _ _
    _ = f (t.analysed settings now command) := by
        rw [hsync]
        exact hf (t.analysed settings now command) _ _ _ _

theorem enrolled_frame : (t.enrolled settings now command).db =
    { (t.upsertChat command).db with
      person := (t.enrolled settings now command).db.person
      chatMembership := (t.enrolled settings now command).db.chatMembership } :=
  enrolAll_frame _ _ _ _

theorem project_chat : (t.project settings now command).2.db.chat =
    (t.upsertChat command).db.chat := by
  rw [t.project_eq_analysed settings now command Db.chat fun _ _ _ _ _ => rfl, analysed,
    Db.replaceSignals_eq, Db.replaceFacts_eq]
  show (t.enrolled settings now command).db.chat = _
  exact (congrArg Db.chat (t.enrolled_frame settings now command)).trans rfl

theorem project_person : (t.project settings now command).2.db.person =
    (t.enrolled settings now command).db.person := by
  rw [t.project_eq_analysed settings now command Db.person fun _ _ _ _ _ => rfl, analysed,
    Db.replaceSignals_eq, Db.replaceFacts_eq]
  rfl

theorem project_chatMembership : (t.project settings now command).2.db.chatMembership =
    (t.enrolled settings now command).db.chatMembership := by
  rw [t.project_eq_analysed settings now command Db.chatMembership fun _ _ _ _ _ => rfl, analysed,
    Db.replaceSignals_eq, Db.replaceFacts_eq]
  rfl

theorem project_analysisWindow : (t.project settings now command).2.db.analysisWindow =
    (t.db.upsertWindow (windowRow (t.db.chatId command.tgChatId t.drawn)
      (t.participantsOf settings now command) command)).analysisWindow := by
  rw [t.project_eq_analysed settings now command Db.analysisWindow fun _ _ _ _ _ => rfl, analysed,
    Db.replaceSignals_eq, Db.replaceFacts_eq]
  have hwindow : (t.enrolled settings now command).db.analysisWindow = t.db.analysisWindow :=
    (congrArg Db.analysisWindow (t.enrolled_frame settings now command)).trans rfl
  unfold Db.upsertWindow
  rw [← hwindow]

theorem project_extractedFact : (t.project settings now command).2.db.extractedFact =
    (t.db.extractedFact.filter (·.windowId ≠ command.sourceWindowId)) ++
      (command.result.claims.map
        (factRow command.sourceWindowId command.sourceWindowId)).map ExtractedFact.stored := by
  rw [t.project_eq_analysed settings now command Db.extractedFact fun _ _ _ _ _ => rfl, analysed,
    Db.replaceSignals_eq, Db.replaceFacts_eq]
  have hfact : (t.enrolled settings now command).db.extractedFact = t.db.extractedFact :=
    (congrArg Db.extractedFact (t.enrolled_frame settings now command)).trans rfl
  rw [← hfact]
  rfl

theorem project_analyticsSignal : (t.project settings now command).2.db.analyticsSignal =
    (t.db.analyticsSignal.filter (·.windowId ≠ command.sourceWindowId)) ++
      (command.result.analyticsSignals.map
        (signalRow command.sourceWindowId command.tgChatId)).map AnalyticsSignalRow.stored := by
  rw [t.project_eq_analysed settings now command Db.analyticsSignal fun _ _ _ _ _ => rfl, analysed,
    Db.replaceSignals_eq, Db.replaceFacts_eq]
  have hsignal : (t.enrolled settings now command).db.analyticsSignal = t.db.analyticsSignal :=
    (congrArg Db.analyticsSignal (t.enrolled_frame settings now command)).trans rfl
  rw [← hsignal]
  rfl

/-- **The interaction of a projection** is filed among those that were there. -/
theorem project_filed : ∃ drawn taskIds, t.drawn < drawn ∧
    let filed := (⟨t.db, drawn⟩ : Draft).upsertInteraction now (t.db.chatId command.tgChatId t.drawn)
      (windowStart command) (interactionColumns settings
        ((t.participantsOf settings now command).map (·.2)) taskIds command)
    (t.project settings now command).1.interactionId = filed.1 ∧
      (t.project settings now command).2.db.interaction = filed.2.db.interaction ∧
      (t.project settings now command).2.drawn = filed.2.drawn := by
  set synced := syncTasks now (t.db.chatId command.tgChatId t.drawn) command
    (t.analysed settings now command).selectOwner
    ((t.participantsOf settings now command).head?.map (·.2))
    ⟨t.analysed settings now command, (t.enrolled settings now command).drawn⟩
    command.result.tasks with hsynced
  have hrows : synced.2.db.interaction = t.db.interaction := by
    have hsync : synced.2.db.interaction = (t.analysed settings now command).interaction :=
      (congrArg Db.interaction (syncTasks_frame _ _ _ _ _ _ _)).trans rfl
    have henrolled : (t.enrolled settings now command).db.interaction = t.db.interaction :=
      (congrArg Db.interaction (t.enrolled_frame settings now command)).trans rfl
    rw [hsync, analysed, Db.replaceSignals_eq, Db.replaceFacts_eq, ← henrolled]
    rfl
  have hdrawn : t.drawn < synced.2.drawn :=
    calc t.drawn < t.drawn + 1 := Nat.lt_succ_self _
      _ ≤ (t.enrolled settings now command).drawn := le_drawn_enrolAll _ _ (t.upsertChat command) _
      _ ≤ synced.2.drawn := le_drawn_syncTasks _ _ _ _ _
        ⟨t.analysed settings now command, (t.enrolled settings now command).drawn⟩ _
  obtain ⟨hid, hfiled, hlast⟩ := @upsertInteraction_congr now (t.db.chatId command.tgChatId t.drawn)
    synced.2 ⟨t.db, synced.2.drawn⟩ hrows rfl (windowStart command)
    (interactionColumns settings ((t.participantsOf settings now command).map (·.2)) synced.1 command)
  refine ⟨synced.2.drawn, synced.1, hdrawn, hid, Eq.trans ?_ hfiled, hlast⟩
  have hmark := Db.insertProcessed_frame ((synced.2.upsertInteraction now
    (t.db.chatId command.tgChatId t.drawn) (windowStart command) (interactionColumns settings
      ((t.participantsOf settings now command).map (·.2)) synced.1 command)).2.db.insertAuditLog
    (auditRow command)) now consumerName command.commandId
  exact (congrArg Db.interaction hmark).trans rfl

theorem project_interaction_ids : (t.project settings now command).1.interactionId ∈
      (t.project settings now command).2.db.interaction.map (·.id) ∧
    ∀ id ∈ t.db.interaction.map (·.id),
      id ∈ (t.project settings now command).2.db.interaction.map (·.id) := by
  obtain ⟨drawn, taskIds, -, hid, hrows, -⟩ := t.project_filed settings now command
  rw [hid, hrows]
  exact upsertInteraction_ids now _ ⟨t.db, drawn⟩ _ _

theorem drawn_enrolled_le : (t.enrolled settings now command).drawn ≤
    (t.project settings now command).2.drawn := by
  set synced := syncTasks now (t.db.chatId command.tgChatId t.drawn) command
    (t.analysed settings now command).selectOwner
    ((t.participantsOf settings now command).head?.map (·.2))
    ⟨t.analysed settings now command, (t.enrolled settings now command).drawn⟩
    command.result.tasks with hsynced
  have hsync : (t.enrolled settings now command).drawn ≤ synced.2.drawn :=
    le_drawn_syncTasks _ _ _ _ _ ⟨t.analysed settings now command, _⟩ _
  exact hsync.trans (le_drawn_upsertInteraction _ _ synced.2 _ _)

theorem lt_drawn_project : t.drawn < (t.project settings now command).2.drawn :=
  calc t.drawn < t.drawn + 1 := Nat.lt_succ_self _
    _ ≤ (t.enrolled settings now command).drawn := le_drawn_enrolAll _ _ (t.upsertChat command) _
    _ ≤ (t.project settings now command).2.drawn := t.drawn_enrolled_le settings now command

end Tables

end Draft

/-! ## Chats -/

/-- The row of a chat. -/
def Db.HasChat (db : Db) (tgChatId : ℤ) (chatId : Ident) : Prop :=
  ∃ row ∈ db.chat, row.tgChatId = tgChatId ∧ row.id = chatId

section Chats

variable {db : Db} {tgChatId : ℤ} {chatId : Ident}

theorem Db.HasChat.upsertChat (h : db.HasChat tgChatId chatId) (id : Ident) (tgChatId' : ℤ)
    (kind : ChatType) (title : Option String) :
    (db.upsertChat id tgChatId' kind title).HasChat tgChatId chatId := by
  obtain ⟨row, hrow, htg, hid⟩ := h
  by_cases hkey : row.tgChatId = tgChatId'
  · exact ⟨_, Table.mem_upsert_of_eq hrow hkey, htg, hid⟩
  · exact ⟨row, Table.mem_upsert_of_ne hrow hkey, htg, hid⟩

/-- The identifier that an upsert of a chat answers. -/
theorem Db.hasChat_upsertChat (db : Db) (id : Ident) (tgChatId : ℤ) (kind : ChatType)
    (title : Option String) :
    (db.upsertChat id tgChatId kind title).HasChat tgChatId (db.chatId tgChatId id) := by
  unfold Db.chatId
  cases hfind : db.chat.find? fun row => row.tgChatId = tgChatId with
  | some row =>
    have hkey : row.tgChatId = tgChatId := by simpa using List.find?_some hfind
    exact ⟨_, Table.mem_upsert_of_eq (List.mem_of_find?_eq_some hfind) hkey, hkey, rfl⟩
  | none =>
    refine ⟨⟨id, tgChatId, kind, title⟩, Table.fresh_mem_upsert fun hmem => ?_, rfl, rfl⟩
    obtain ⟨row, hrow, hkey⟩ := List.mem_map.mp hmem
    exact List.find?_eq_none.mp hfind row hrow (decide_eq_true hkey)

end Chats

/-- Chats have Telegram ids and identifiers of their own. -/
structure Db.ChatsSound (db : Db) (drawn : Ident) : Prop where
  tgChatIds : (db.chat.map Chat.tgChatId).Nodup
  ids : Drawn (db.chat.map Chat.id) drawn

namespace Db.ChatsSound

variable {db : Db} {drawn : Ident} {tgChatId tgChatId' : ℤ} {chatId chatId' : Ident}

theorem empty : ChatsSound {} drawn := ⟨List.nodup_nil, Drawn.empty⟩

theorem upsertChat (h : db.ChatsSound drawn) (tgChatId : ℤ) (kind : ChatType)
    (title : Option String) : (db.upsertChat drawn tgChatId kind title).ChatsSound (drawn + 1) where
  tgChatIds := Table.nodup_keys_upsert (fun _ h => h) h.tgChatIds
  ids := h.ids.upsert (fun _ => rfl) rfl

/-- A chat has one row, -/
theorem eq_of_hasChat (h : db.ChatsSound drawn) (hchat : db.HasChat tgChatId chatId)
    (hchat' : db.HasChat tgChatId chatId') : chatId = chatId' := by
  obtain ⟨row, hrow, htg, rfl⟩ := hchat
  obtain ⟨row', hrow', htg', rfl⟩ := hchat'
  rw [List.inj_on_of_nodup_map h.tgChatIds hrow hrow' (htg.trans htg'.symm)]

/-- and a row is of one chat. -/
theorem tgChatId_eq (h : db.ChatsSound drawn) (hchat : db.HasChat tgChatId chatId)
    (hchat' : db.HasChat tgChatId' chatId) : tgChatId = tgChatId' := by
  obtain ⟨row, hrow, rfl, hid⟩ := hchat
  obtain ⟨row', hrow', rfl, hid'⟩ := hchat'
  rw [List.inj_on_of_nodup_map h.ids.nodup hrow hrow' (hid.trans hid'.symm)]

theorem lt (h : db.ChatsSound drawn) (hchat : db.HasChat tgChatId chatId) : chatId < drawn := by
  obtain ⟨row, hrow, -, rfl⟩ := hchat
  exact h.ids.lt _ (List.mem_map_of_mem hrow)

/-- An upsert of a chat answers the row of the chat, -/
theorem chatId_of_hasChat (h : db.ChatsSound drawn) (hchat : db.HasChat tgChatId chatId)
    (id : Ident) : db.chatId tgChatId id = chatId := by
  unfold Db.chatId
  cases hfind : db.chat.find? fun row => row.tgChatId = tgChatId with
  | some row =>
    have hkey : row.tgChatId = tgChatId := by simpa using List.find?_some hfind
    exact h.eq_of_hasChat ⟨row, List.mem_of_find?_eq_some hfind, hkey, rfl⟩ hchat
  | none =>
    obtain ⟨row, hrow, htg, -⟩ := hchat
    exact absurd (decide_eq_true htg) (List.find?_eq_none.mp hfind row hrow)

/-- and the row that it answers is that of no other chat. -/
theorem tgChatId_of_hasChat_chatId (h : db.ChatsSound drawn)
    (hchat : db.HasChat tgChatId (db.chatId tgChatId' drawn)) : tgChatId = tgChatId' := by
  unfold Db.chatId at hchat
  cases hfind : db.chat.find? fun row => row.tgChatId = tgChatId' with
  | some row =>
    rw [hfind] at hchat
    have hkey : row.tgChatId = tgChatId' := by simpa using List.find?_some hfind
    exact h.tgChatId_eq hchat ⟨row, List.mem_of_find?_eq_some hfind, hkey, rfl⟩
  | none =>
    rw [hfind] at hchat
    exact absurd (h.lt hchat) (lt_irrefl _)

theorem project [CharData] {t : Draft} (h : t.db.ChatsSound t.drawn) (settings : Settings)
    (now : Timestamp) (command : ProjectionCommand) :
    (t.project settings now command).2.db.ChatsSound (t.project settings now command).2.drawn := by
  have hchat := h.upsertChat command.tgChatId command.features.chatType (chatTitle command)
  have hrows : (t.project settings now command).2.db.chat = (t.upsertChat command).db.chat :=
    t.project_chat settings now command
  constructor
  · rw [hrows]
    exact hchat.tgChatIds
  · rw [hrows]
    exact hchat.ids.mono (t.lt_drawn_project settings now command)

end Db.ChatsSound

/-! ## Participants -/

/-- The persons to be enrolled are the senders that are not known yet. -/
theorem mem_enrolments [CharData] (settings : Settings) (topics : List String) (known : List ℤ)
    (messages : List WindowMessagePayload) (u : ℤ) :
    u ∈ (enrolments settings topics known messages).map (·.tgUserId) ↔
      u ∈ senders messages ∧ u ∉ known := by
  induction messages generalizing known with
  | nil => simp [enrolments, senders]
  | cons message rest ih =>
    unfold enrolments
    cases hsender : message.tgSenderId with
    | none =>
      have hsenders : u ∈ senders (message :: rest) ↔ u ∈ senders rest := by
        rw [mem_senders, mem_senders, List.exists_mem_cons_iff, hsender]
        simp
      rw [hsenders]
      exact ih known
    | some sender =>
      have hsenders : u ∈ senders (message :: rest) ↔ u = sender ∨ u ∈ senders rest := by
        rw [mem_senders, mem_senders, List.exists_mem_cons_iff, hsender, Option.some_inj, eq_comm]
      rw [hsenders]
      dsimp only
      split_ifs with hknown
      · rw [ih]
        refine and_congr_left fun hu => (or_iff_right ?_).symm
        rintro rfl
        exact hu hknown
      · have hperson : (personUpsert settings sender message topics).tgUserId = sender := rfl
        rw [List.map_cons, List.mem_cons, hperson, ih, List.mem_append, List.mem_singleton]
        by_cases hu : u = sender
        · subst hu
          simp [hknown]
        · simp [hu]

/-- No sender is enrolled twice. -/
theorem nodup_enrolments [CharData] (settings : Settings) (topics : List String) (known : List ℤ)
    (messages : List WindowMessagePayload) :
    ((enrolments settings topics known messages).map (·.tgUserId)).Nodup := by
  induction messages generalizing known with
  | nil => exact List.nodup_nil
  | cons message rest ih =>
    unfold enrolments
    cases message.tgSenderId with
    | none => exact ih known
    | some sender =>
      dsimp only
      split_ifs
      · exact ih known
      · rw [List.map_cons, List.nodup_cons]
        refine ⟨fun hmem => ?_, ih _⟩
        have hfresh := ((mem_enrolments settings topics _ rest sender).mp hmem).2
        exact hfresh (List.mem_append_right _ (List.mem_singleton_self _))

namespace Draft

section Enrol

variable {now : Timestamp} {chatId : Ident} {u : ℤ} {id : Ident}

theorem map_participantMap (t : Draft) (persons : List PersonUpsert) :
    (t.participantMap now chatId persons).map (·.1) = persons.map (·.tgUserId) := by
  induction persons generalizing t with
  | nil => rfl
  | cons person rest ih => exact congrArg (person.tgUserId :: ·) (ih _)

theorem enrol_person (t : Draft) (person : PersonUpsert) :
    (t.enrol now chatId person).db.person = (t.db.upsertPerson now t.drawn person).person := by
  unfold enrol
  dsimp only
  rw [Db.insertMembership_frame]

theorem mem_enrol {t : Draft} {person : PersonUpsert} {member : ChatMembership} :
    member ∈ (t.enrol now chatId person).db.chatMembership ↔ member ∈ t.db.chatMembership ∨
      member = ⟨chatId, t.db.personId person.tgUserId t.drawn⟩ := Db.mem_insertMembership

theorem hasPerson_enrol {t : Draft} (h : t.db.HasPerson u id) (person : PersonUpsert) :
    (t.enrol now chatId person).db.HasPerson u id := by
  unfold Db.HasPerson
  rw [enrol_person]
  exact h.upsertPerson

theorem hasPerson_enrolAll {t : Draft} (h : t.db.HasPerson u id) (persons : List PersonUpsert) :
    (t.enrolAll now chatId persons).db.HasPerson u id := by
  induction persons generalizing t with
  | nil => exact h
  | cons person rest ih => exact ih (hasPerson_enrol h person)

/-- The members are those that were there and the participants. -/
theorem mem_enrolAll {t : Draft} {persons : List PersonUpsert} {member : ChatMembership} :
    member ∈ (t.enrolAll now chatId persons).db.chatMembership ↔ member ∈ t.db.chatMembership ∨
      ∃ entry ∈ t.participantMap now chatId persons, member = ⟨chatId, entry.2⟩ := by
  induction persons generalizing t with
  | nil => exact (or_iff_left fun ⟨_, h, _⟩ => by cases h).symm
  | cons person rest ih =>
    refine ih.trans ?_
    rw [participantMap, mem_enrol, List.exists_mem_cons_iff, or_assoc]

/-- **Every participant is enrolled.** -/
theorem hasPerson_of_mem_participantMap {t : Draft} {persons : List PersonUpsert}
    {entry : ℤ × Ident} (h : entry ∈ t.participantMap now chatId persons) :
    (t.enrolAll now chatId persons).db.HasPerson entry.1 entry.2 := by
  induction persons generalizing t with
  | nil => cases h
  | cons person rest ih =>
    rcases List.mem_cons.mp h with rfl | hrest
    · have hperson : (t.enrol now chatId person).db.HasPerson person.tgUserId
          (t.db.personId person.tgUserId t.drawn) := by
        unfold Db.HasPerson
        rw [enrol_person]
        exact Db.hasPerson_upsertPerson t.db now t.drawn person
      exact hasPerson_enrolAll hperson rest
    · exact ih hrest

end Enrol

section Participants

variable [CharData] (settings : Settings) (now : Timestamp) (command : ProjectionCommand) (t : Draft)

theorem map_participantsOf : (t.participantsOf settings now command).map (·.1) =
    (participants settings command).map (·.tgUserId) := map_participantMap _ _

theorem mem_participantsOf (u : ℤ) : u ∈ (t.participantsOf settings now command).map (·.1) ↔
    u ∈ senders command.messages := by
  rw [map_participantsOf, participants, mem_enrolments, and_iff_left List.not_mem_nil]

theorem nodup_participantsOf : ((t.participantsOf settings now command).map (·.1)).Nodup := by
  rw [map_participantsOf]
  exact nodup_enrolments _ _ _ _

/-- The participants of a window are its senders, in order. -/
theorem sorted_participants :
    (((t.participantsOf settings now command).map (·.1)).insertionSort (· ≤ ·)).Pairwise (· < ·) ∧
      ∀ u, u ∈ ((t.participantsOf settings now command).map (·.1)).insertionSort (· ≤ ·) ↔
        u ∈ senders command.messages := by
  have hperm := List.perm_insertionSort (· ≤ ·) ((t.participantsOf settings now command).map (·.1))
  have hsorted := List.pairwise_insertionSort (· ≤ ·)
    ((t.participantsOf settings now command).map (·.1))
  have hnodup := hperm.nodup_iff.mpr (t.nodup_participantsOf settings now command)
  refine ⟨(hsorted.and hnodup).imp fun h => lt_of_le_of_ne h.1 h.2, fun u => ?_⟩
  exact hperm.mem_iff.trans (t.mem_participantsOf settings now command u)

/-- The members afterwards. -/
theorem mem_project_chatMembership {member : ChatMembership} :
    member ∈ (t.project settings now command).2.db.chatMembership ↔ member ∈ t.db.chatMembership ∨
      ∃ entry ∈ t.participantsOf settings now command,
        member = ⟨t.db.chatId command.tgChatId t.drawn, entry.2⟩ := by
  rw [project_chatMembership]
  exact mem_enrolAll

/-- A participant has a person and is a member of the chat. -/
theorem participant_project {entry : ℤ × Ident} (h : entry ∈ t.participantsOf settings now command) :
    (t.project settings now command).2.db.HasPerson entry.1 entry.2 ∧
      ⟨t.db.chatId command.tgChatId t.drawn, entry.2⟩ ∈
        (t.project settings now command).2.db.chatMembership := by
  refine ⟨?_, (t.mem_project_chatMembership settings now command).mpr (.inr ⟨entry, h, rfl⟩)⟩
  unfold Db.HasPerson
  rw [project_person]
  exact hasPerson_of_mem_participantMap h

theorem hasPerson_project {u : ℤ} {id : Ident} (h : t.db.HasPerson u id) :
    (t.project settings now command).2.db.HasPerson u id := by
  have hchat : (t.upsertChat command).db.HasPerson u id := h
  unfold Db.HasPerson
  rw [project_person]
  exact hasPerson_enrolAll hchat _

theorem hasChat_project {tgChatId : ℤ} {chatId : Ident} (h : t.db.HasChat tgChatId chatId) :
    (t.project settings now command).2.db.HasChat tgChatId chatId := by
  unfold Db.HasChat
  rw [project_chat]
  exact h.upsertChat _ _ _ _

/-- A chat afterwards was there, or is the command's with a new identifier. -/
theorem hasChat_of_project {tgChatId : ℤ} {chatId : Ident}
    (h : (t.project settings now command).2.db.HasChat tgChatId chatId) :
    t.db.HasChat tgChatId chatId ∨ chatId = t.drawn := by
  unfold Db.HasChat at h
  rw [project_chat] at h
  obtain ⟨row, hrow, htg, rfl⟩ := h
  rcases Table.mem_upsert hrow with ⟨hold, -⟩ | ⟨old, hold, -, rfl⟩ | ⟨-, rfl⟩
  · exact .inl ⟨row, hold, htg, rfl⟩
  · exact .inl ⟨old, hold, htg, rfl⟩
  · exact .inr rfl

theorem hasChat_project_self : (t.project settings now command).2.db.HasChat command.tgChatId
    (t.db.chatId command.tgChatId t.drawn) := by
  unfold Db.HasChat
  rw [project_chat]
  exact t.db.hasChat_upsertChat _ _ _ _

end Participants

end Draft

/-! ## Persons -/

/-- Who is a person once a row of an account has been upserted. -/
theorem Db.HasPerson.of_upsert {db db' : Db} {f : Person → Person} {fresh : Person} {u : ℤ}
    {id : Ident} (h : db'.HasPerson u id)
    (hperson : db'.person = Table.upsert Person.tgUserId f fresh db.person)
    (haccount : ∀ row, (f row).tgUserId = row.tgUserId) (hid : ∀ row, (f row).id = row.id) : db.HasPerson u id ∨
      (fresh.tgUserId = some u ∧ id = fresh.id ∧ ∀ id', ¬ db.HasPerson u id') := by
  obtain ⟨row, hrow, hu, rfl⟩ := h
  rw [hperson] at hrow
  rcases Table.mem_upsert hrow with ⟨hold, -⟩ | ⟨old, hold, -, rfl⟩ | ⟨hnew, rfl⟩
  · exact .inl ⟨row, hold, hu, rfl⟩
  · exact .inl ⟨old, hold, (haccount old).symm.trans hu, (hid old).symm⟩
  · refine .inr ⟨hu, rfl, ?_⟩
    rintro id' ⟨old, hold, holdU, -⟩
    exact hnew (List.mem_map.mpr ⟨old, hold, holdU.trans hu.symm⟩)

/-- Who is a person once a person has been upserted. -/
theorem Db.HasPerson.of_upsertPerson {db : Db} {now : Timestamp} {drawn : Ident}
    {person : PersonUpsert} {u : ℤ} {id : Ident}
    (h : (db.upsertPerson now drawn person).HasPerson u id) : db.HasPerson u id ∨
      (u = person.tgUserId ∧ id = drawn ∧ ∀ id', ¬ db.HasPerson u id') := by
  rcases h.of_upsert rfl (fun _ => rfl) (fun _ => rfl) with hold | ⟨hu, hid, hnone⟩
  · exact .inl hold
  · exact .inr ⟨(Option.some.inj hu).symm, hid, hnone⟩

/-- Persons have identifiers of their own, and an account has one person. -/
structure Db.PersonsSound (db : Db) (drawn : Ident) : Prop where
  ids : Drawn (db.person.map Person.id) drawn
  accounts : ∀ u id id', db.HasPerson u id → db.HasPerson u id' → id = id'

namespace Db.PersonsSound

variable {db db' : Db} {drawn drawn' : Ident} {u v : ℤ} {id : Ident}

theorem congr (h : db.PersonsSound drawn) (hperson : db'.person = db.person) :
    db'.PersonsSound drawn := by
  obtain ⟨hids, haccounts⟩ := h
  unfold HasPerson at haccounts
  rw [← hperson] at hids haccounts
  exact ⟨hids, haccounts⟩

theorem mono (h : db.PersonsSound drawn) (hle : drawn ≤ drawn') : db.PersonsSound drawn' :=
  ⟨h.ids.mono hle, h.accounts⟩

/-- A person has one account. -/
theorem account_eq (h : db.PersonsSound drawn) (hperson : db.HasPerson u id)
    (hperson' : db.HasPerson v id) : u = v := by
  obtain ⟨row, hrow, hu, hid⟩ := hperson
  obtain ⟨row', hrow', hv, hid'⟩ := hperson'
  rw [List.inj_on_of_nodup_map h.ids.nodup hrow hrow' (hid.trans hid'.symm), hv] at hu
  exact (Option.some.inj hu).symm

theorem lt (h : db.PersonsSound drawn) (hperson : db.HasPerson u id) : id < drawn := by
  obtain ⟨row, hrow, -, rfl⟩ := hperson
  exact h.ids.lt _ (List.mem_map_of_mem hrow)

/-- An upsert of a row of an account, with the identifier to be drawn next. -/
theorem upsert (h : db.PersonsSound drawn) {f : Person → Person} {fresh : Person}
    (hperson : db'.person = Table.upsert Person.tgUserId f fresh db.person)
    (haccount : ∀ row, (f row).tgUserId = row.tgUserId) (hf : ∀ row, (f row).id = row.id)
    (hfresh : fresh.id = drawn) :
    db'.PersonsSound (drawn + 1) where
  ids := by
    rw [hperson]
    exact h.ids.upsert hf hfresh
  accounts u id id' hid hid' := by
    rcases hid.of_upsert hperson haccount hf with hold | ⟨-, rfl, hnone⟩
    · rcases hid'.of_upsert hperson haccount hf with hold' | ⟨-, -, hnone⟩
      · exact h.accounts u id id' hold hold'
      · exact absurd hold (hnone id)
    · rcases hid'.of_upsert hperson haccount hf with hold' | ⟨-, rfl, -⟩
      · exact absurd hold' (hnone id')
      · rfl

theorem upsertPerson (h : db.PersonsSound drawn) (now : Timestamp) (person : PersonUpsert) :
    (db.upsertPerson now drawn person).PersonsSound (drawn + 1) :=
  h.upsert rfl (fun _ => rfl) (fun _ => rfl) rfl

theorem enrol {t : Draft} (h : t.db.PersonsSound t.drawn) (now : Timestamp) (chatId : Ident)
    (person : PersonUpsert) :
    (t.enrol now chatId person).db.PersonsSound (t.enrol now chatId person).drawn :=
  (h.upsertPerson now person).congr (Draft.enrol_person t person)

theorem enrolAll {t : Draft} (h : t.db.PersonsSound t.drawn) (now : Timestamp) (chatId : Ident)
    (persons : List PersonUpsert) :
    (t.enrolAll now chatId persons).db.PersonsSound (t.enrolAll now chatId persons).drawn := by
  induction persons generalizing t with
  | nil => exact h
  | cons person rest ih => exact ih (h.enrol now chatId person)

end Db.PersonsSound

namespace Draft

section Accounts

variable [CharData] {settings : Settings} {now : Timestamp} {command : ProjectionCommand} {t : Draft}
  {u v : ℤ} {id : Ident}

omit [CharData] in
/-- The persons that are there afterwards were there or are participants. -/
theorem hasPerson_of_enrolAll {chatId : Ident} {persons : List PersonUpsert}
    (h : (t.enrolAll now chatId persons).db.HasPerson u id) :
    t.db.HasPerson u id ∨ (t.drawn ≤ id ∧ u ∈ persons.map (·.tgUserId)) := by
  induction persons generalizing t with
  | nil => exact .inl h
  | cons person rest ih =>
    rcases ih h with hstep | ⟨hle, hmem⟩
    · have hupsert : (t.db.upsertPerson now t.drawn person).HasPerson u id := by
        unfold Db.HasPerson at hstep
        rw [enrol_person] at hstep
        exact hstep
      rcases hupsert.of_upsertPerson with hold | ⟨rfl, rfl, -⟩
      · exact .inl hold
      · exact .inr ⟨le_rfl, List.mem_cons_self⟩
    · exact .inr ⟨(Nat.le_succ _).trans hle, List.mem_cons_of_mem _ hmem⟩

variable (settings now command) in
theorem personsSound_project (h : t.db.PersonsSound t.drawn) :
    (t.project settings now command).2.db.PersonsSound (t.project settings now command).2.drawn := by
  have hchat : (t.upsertChat command).db.PersonsSound (t.upsertChat command).drawn :=
    (h.mono (Nat.le_succ _)).congr rfl
  have henrolled : (t.enrolled settings now command).db.PersonsSound
      (t.enrolled settings now command).drawn := hchat.enrolAll now _ _
  refine (henrolled.congr (t.project_person settings now command)).mono ?_
  exact t.drawn_enrolled_le settings now command

/-- A person afterwards was there, or is a participant with a new identifier. -/
theorem hasPerson_of_project (h : (t.project settings now command).2.db.HasPerson u id) :
    t.db.HasPerson u id ∨ (t.drawn ≤ id ∧ u ∈ senders command.messages) := by
  unfold Db.HasPerson at h
  rw [project_person] at h
  rcases hasPerson_of_enrolAll (t := t.upsertChat command) h with hold | ⟨hle, hmem⟩
  · exact .inl hold
  · refine .inr ⟨(Nat.le_succ _).trans hle, ?_⟩
    rw [participants, mem_enrolments] at hmem
    exact hmem.1

variable (settings now command) in
/-- The participants are persons apart. -/
theorem nodup_participantIds (h : t.db.PersonsSound t.drawn) :
    ((t.participantsOf settings now command).map (·.2)).Nodup := by
  have hsound := personsSound_project settings now command h
  have hnodup := List.Nodup.of_map _ (t.nodup_participantsOf settings now command)
  refine hnodup.map_on fun entry hentry entry' hentry' hid => ?_
  have hperson := (t.participant_project settings now command hentry).1
  have hperson' := (t.participant_project settings now command hentry').1
  rw [hid] at hperson
  exact Prod.ext (hsound.account_eq hperson hperson') hid

/-- A person is among the participants exactly if its account is a sender. -/
theorem mem_participantIds_iff (h : t.db.PersonsSound t.drawn)
    (hperson : (t.project settings now command).2.db.HasPerson u id) :
    id ∈ (t.participantsOf settings now command).map (·.2) ↔ u ∈ senders command.messages := by
  have hsound := personsSound_project settings now command h
  rw [← t.mem_participantsOf settings now command u, List.mem_map, List.mem_map]
  constructor
  · rintro ⟨entry, hentry, rfl⟩
    have hentryPerson := (t.participant_project settings now command hentry).1
    exact ⟨entry, hentry, hsound.account_eq hentryPerson hperson⟩
  · rintro ⟨entry, hentry, rfl⟩
    have hentryPerson := (t.participant_project settings now command hentry).1
    exact ⟨entry, hentry, hsound.accounts _ _ _ hentryPerson hperson⟩

end Accounts

end Draft

/-! ## After a delivery that commits -/

section Commits

variable [CharData] {env : Env} {settings : Settings} {s s' : World} {command : ProjectionCommand}
  {now : Timestamp} {u : ℤ} {id : Ident}

variable (settings command now) in
theorem World.nodup_participantIds (hs : s.tx = none) (h : s.db.PersonsSound s.drawn) :
    ((s.draft.participantsOf settings now command).map (·.2)).Nodup := by
  have hdb : s.draft.db = s.db := World.tables_of_closed hs
  exact Draft.nodup_participantIds settings now command (hdb.symm ▸ h)

namespace Projects

theorem lt_drawn (hp : Projects env settings command now s s') : s.drawn < s'.drawn := by
  rw [hp.drawn]
  exact s.draft.lt_drawn_project settings now command

theorem personsSound (hp : Projects env settings command now s s') (hs : s.tx = none)
    (h : s.db.PersonsSound s.drawn) : s'.db.PersonsSound s'.drawn := by
  have hdb : s.draft.db = s.db := World.tables_of_closed hs
  rw [hp.db, hp.drawn]
  exact Draft.personsSound_project settings now command (hdb.symm ▸ h)

theorem hasPerson (hp : Projects env settings command now s s') (hs : s.tx = none)
    (h : s.db.HasPerson u id) : s'.db.HasPerson u id := by
  have hdb : s.draft.db = s.db := World.tables_of_closed hs
  rw [hp.db]
  exact s.draft.hasPerson_project settings now command (hdb.symm ▸ h)

theorem hasPerson_of (hp : Projects env settings command now s s') (hs : s.tx = none)
    (h : s'.db.HasPerson u id) :
    s.db.HasPerson u id ∨ (s.drawn ≤ id ∧ u ∈ senders command.messages) := by
  have hdb : s.draft.db = s.db := World.tables_of_closed hs
  rw [hp.db] at h
  rw [← hdb]
  exact Draft.hasPerson_of_project h

theorem hasPerson_participant (hp : Projects env settings command now s s') {entry : ℤ × Ident}
    (h : entry ∈ s.draft.participantsOf settings now command) : s'.db.HasPerson entry.1 entry.2 := by
  rw [hp.db]
  exact (s.draft.participant_project settings now command h).1

theorem mem_participantIds_iff (hp : Projects env settings command now s s') (hs : s.tx = none)
    (h : s.db.PersonsSound s.drawn) (hperson : s'.db.HasPerson u id) :
    id ∈ (s.draft.participantsOf settings now command).map (·.2) ↔
      u ∈ senders command.messages := by
  have hdb : s.draft.db = s.db := World.tables_of_closed hs
  rw [hp.db] at hperson
  exact Draft.mem_participantIds_iff (hdb.symm ▸ h) hperson

/-- Participants are persons, so they have been drawn. -/
theorem participant_lt (hp : Projects env settings command now s s') (hs : s.tx = none)
    (h : s.db.PersonsSound s.drawn)
    (hid : id ∈ (s.draft.participantsOf settings now command).map (·.2)) : id < s'.drawn := by
  obtain ⟨entry, hentry, rfl⟩ := List.mem_map.mp hid
  exact (hp.personsSound hs h).lt (hp.hasPerson_participant hentry)

theorem analysisWindow (hp : Projects env settings command now s s') (hs : s.tx = none) :
    s'.db.analysisWindow = (s.db.upsertWindow (windowRow (s.db.chatId command.tgChatId s.drawn)
      (s.draft.participantsOf settings now command) command)).analysisWindow := by
  have hdb : s.draft.db = s.db := World.tables_of_closed hs
  rw [hp.db, Draft.project_analysisWindow, hdb]
  rfl

end Projects

end Commits

end Memory
end PersonalIntelligence
