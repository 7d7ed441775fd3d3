import PersonalIntelligence.Memory.ProjectedTables

/-!
# One interaction for each window

A window is stored under its id, its interaction under the chat and the start of the
window.  So a projection finds the interaction of another window if that window of the
same chat has started at the same instant, and writes over it.

An invariant of the committed commands says that there is one interaction for each pair of
a chat and a start among them (`Tallied.keys`).  `paired_iff` reads off it that
interactions and windows are in bijection exactly if no two of the windows share both.
-/

namespace PersonalIntelligence
namespace Memory

open PyText Resumption

/-- What an interaction is filed under. -/
def interactionKey (command : ProjectionCommand) : ℤ × Timestamp :=
  (command.tgChatId, windowStart command)

section Relation

variable (settings : Settings) (db : Db)

/-- An interaction shows a window. -/
structure Carries (interaction : Interaction) (window : AnalysisWindow) : Prop where
  windowEnd : interaction.windowEnd = window.windowEnd
  /-- The participants are the persons of the senders, each once. -/
  participants : ∃ participantMap : ParticipantMap,
    interaction.participants = participantMap.map (·.2) ∧
      (participantMap.map (·.1)).Perm window.participantTgIds ∧
      ∀ entry ∈ participantMap, db.HasPerson entry.1 entry.2
  topics : interaction.topics = window.analysisPayload.topics
  summary : interaction.summary = window.summary
  sourceObjectRef : interaction.sourceObjectRef =
    if settings.s3Configured then some ⟨window.id⟩ else none

/-- The interactions are in bijection with the windows that they show. -/
def Paired : Prop :=
  ∃ interactions, interactions.Perm db.interaction ∧
    List.Forall₂ (Carries settings db) interactions db.analysisWindow

/-- An interaction is filed under a key. -/
def FiledUnder (key : ℤ × Timestamp) (interaction : Interaction) : Prop :=
  db.HasChat key.1 interaction.chatId ∧ interaction.windowStart = key.2

end Relation

/-! ## Filing -/

section Filing

variable {db : Db} {now : Timestamp} {chatId : Ident} {start : Timestamp}
  {columns : InteractionUpdate} {drawn : Ident}

/-- Nothing is found if nothing is filed under the chat and the start. -/
theorem Db.selectInteraction_eq_none_iff : db.selectInteraction chatId start = none ↔
    ∀ row ∈ db.interaction, row.chatId = chatId → row.windowStart ≠ start := by
  unfold Db.selectInteraction
  rw [Option.map_eq_none_iff, Table.first_eq_none_iff, List.filter_eq_nil_iff]
  refine forall₂_congr fun row _ => ?_
  rw [decide_eq_true_iff, not_and]

/-- **What a projection finds** is what is filed under the key of its command. -/
theorem Db.selectInteraction_eq_none_iff_key {command : ProjectionCommand}
    (hchats : db.ChatsSound drawn) {keys : List (ℤ × Timestamp)}
    (hkeys : List.Forall₂ (FiledUnder db) keys db.interaction) :
    db.selectInteraction (db.chatId command.tgChatId drawn) (windowStart command) = none ↔
      interactionKey command ∉ keys := by
  rw [Db.selectInteraction_eq_none_iff]
  constructor
  · intro hnone hmem
    obtain ⟨row, hrow, hchat, hstart⟩ := Table.exists_of_forall₂ hkeys.flip hmem
    exact hnone row hrow (hchats.chatId_of_hasChat hchat drawn).symm hstart
  · intro hnew row hrow hid hstart
    obtain ⟨key, hkey, hchat, hkeyStart⟩ := Table.exists_of_forall₂ hkeys hrow
    rw [hid] at hchat
    have htg : command.tgChatId = key.1 := (hchats.tgChatId_of_hasChat_chatId hchat).symm
    have hkeyEq : interactionKey command = key := Prod.ext htg (hstart.symm.trans hkeyStart)
    exact hnew (hkeyEq ▸ hkey)

/-- What is not found is inserted. -/
theorem Draft.upsertInteraction_of_none (h : db.selectInteraction chatId start = none) :
    ((⟨db, drawn⟩ : Draft).upsertInteraction now chatId start columns).2.db.interaction =
      db.interaction ++ [columns.fresh now drawn chatId start] := by
  unfold Draft.upsertInteraction
  dsimp only
  rw [h]
  rfl

/-- What is found is updated in its place, under its key. -/
theorem Draft.forall₂_upsertInteraction_of_some {found : Ident × Timestamp}
    (h : db.selectInteraction chatId start = some found) {keys : List (ℤ × Timestamp)}
    (hkeys : List.Forall₂ (FiledUnder db) keys db.interaction) :
    List.Forall₂ (FiledUnder db) keys
      ((⟨db, drawn⟩ : Draft).upsertInteraction now chatId start columns).2.db.interaction := by
  unfold Draft.upsertInteraction
  dsimp only
  rw [h]
  refine List.forall₂_map_right_iff.mpr (hkeys.imp fun key row hrow => ?_)
  split_ifs
  · exact hrow
  · exact hrow

end Filing

/-! ## The invariant -/

/-- What the tables show of the commands committed so far. -/
structure Tallied (settings : Settings) (commands : List ProjectionCommand) (s : World) : Prop where
  closed : s.tx = none
  chats : s.db.ChatsSound s.drawn
  windows : (commands.map (·.sourceWindowId)).Nodup →
    s.db.analysisWindow.map (·.id) = commands.map (·.sourceWindowId)
  keys : ∃ keys : List (ℤ × Timestamp), keys.Nodup ∧ keys ⊆ commands.map interactionKey ∧
    List.Forall₂ (FiledUnder s.db) keys s.db.interaction
  carried : (commands.map (·.sourceWindowId)).Nodup → (commands.map interactionKey).Nodup →
    List.Forall₂ (Carries settings s.db) s.db.interaction s.db.analysisWindow

section Invariant

variable [CharData] {env : Env} {settings : Settings} {commands : List ProjectionCommand}
  {s s' : World}

/-- Persons keep their identifiers. -/
theorem Carries.project {t : Draft} {interaction : Interaction} {window : AnalysisWindow}
    (h : Carries settings t.db interaction window) (now : Timestamp) (command : ProjectionCommand) :
    Carries settings (t.project settings now command).2.db interaction window := by
  obtain ⟨participantMap, hids, hperm, hpersons⟩ := h.participants
  exact ⟨h.windowEnd, ⟨participantMap, hids, hperm, fun entry hentry =>
    t.hasPerson_project settings now command (hpersons entry hentry)⟩, h.topics, h.summary,
    h.sourceObjectRef⟩

/-- The interaction that is inserted for a window shows it. -/
theorem carries_fresh (t : Draft) (now : Timestamp) (command : ProjectionCommand)
    (chatId drawn : Ident) (start : Timestamp) (taskIds : List Ident) :
    Carries settings (t.project settings now command).2.db
      ((interactionColumns settings ((t.participantsOf settings now command).map (·.2)) taskIds
        command).fresh now drawn chatId start)
      { windowRow chatId (t.participantsOf settings now command) command with
        confidence := numeric3 command.result.confidence } where
  windowEnd := rfl
  participants := ⟨t.participantsOf settings now command, rfl,
    (List.perm_insertionSort (· ≤ ·) _).symm,
    fun _ hentry => (t.participant_project settings now command hentry).1⟩
  topics := rfl
  summary := rfl
  sourceObjectRef := rfl

/-- A window that is not stored yet is appended. -/
theorem analysisWindow_project_of_new (t : Draft) (now : Timestamp) {command : ProjectionCommand}
    (hnew : command.sourceWindowId ∉ t.db.analysisWindow.map (·.id)) :
    (t.project settings now command).2.db.analysisWindow = t.db.analysisWindow ++
      [{ windowRow (t.db.chatId command.tgChatId t.drawn) (t.participantsOf settings now command)
        command with confidence := numeric3 command.result.confidence }] := by
  rw [t.project_analysisWindow settings now command]
  exact if_neg hnew

/-- Interactions stay filed, each under a key of its own: the one of the command is added,
unless it is there. -/
theorem keys_project (t : Draft) (now : Timestamp) (command : ProjectionCommand)
    (hchats : t.db.ChatsSound t.drawn) {keys : List (ℤ × Timestamp)} (hnodup : keys.Nodup)
    (hkeys : List.Forall₂ (FiledUnder t.db) keys t.db.interaction) :
    ∃ keys' : List (ℤ × Timestamp), keys'.Nodup ∧ keys' ⊆ keys ++ [interactionKey command] ∧
      List.Forall₂ (FiledUnder (t.project settings now command).2.db) keys'
        (t.project settings now command).2.db.interaction := by
  obtain ⟨drawn, taskIds, -, -, hfiled, -⟩ := t.project_filed settings now command
  have hmono : ∀ key row, FiledUnder t.db key row →
      FiledUnder (t.project settings now command).2.db key row := fun _ _ hrow =>
    ⟨t.hasChat_project settings now command hrow.1, hrow.2⟩
  have hselect := @Db.selectInteraction_eq_none_iff_key t.db t.drawn command hchats keys hkeys
  rw [hfiled]
  by_cases hnew : interactionKey command ∈ keys
  · obtain ⟨found, hfound⟩ := Option.ne_none_iff_exists'.mp fun hnone => hselect.mp hnone hnew
    exact ⟨keys, hnodup, List.subset_append_left _ _,
      (Draft.forall₂_upsertInteraction_of_some hfound hkeys).imp hmono⟩
  · refine ⟨keys ++ [interactionKey command], ?_, List.Subset.refl _, ?_⟩
    · refine List.nodup_append.mpr ⟨hnodup, List.nodup_singleton _, fun a ha b hb hab => hnew ?_⟩
      rw [← List.mem_singleton.mp hb, ← hab]
      exact ha
    · rw [Draft.upsertInteraction_of_none (hselect.mpr hnew)]
      refine List.rel_append (hkeys.imp hmono) (.cons ⟨?_, rfl⟩ .nil)
      exact t.hasChat_project_self settings now command

/-- A new window with a key of its own gets an interaction that shows it. -/
theorem carried_project (t : Draft) (now : Timestamp) {command : ProjectionCommand}
    (hnew : command.sourceWindowId ∉ t.db.analysisWindow.map (·.id))
    (hselect : t.db.selectInteraction (t.db.chatId command.tgChatId t.drawn)
      (windowStart command) = none)
    (hcarried : List.Forall₂ (Carries settings t.db) t.db.interaction t.db.analysisWindow) :
    List.Forall₂ (Carries settings (t.project settings now command).2.db)
      (t.project settings now command).2.db.interaction
      (t.project settings now command).2.db.analysisWindow := by
  obtain ⟨drawn, taskIds, -, -, hfiled, -⟩ := t.project_filed settings now command
  rw [analysisWindow_project_of_new t now hnew, hfiled, Draft.upsertInteraction_of_none hselect]
  exact List.rel_append (hcarried.imp fun _ _ hrow => hrow.project now command)
    (.cons (carries_fresh t now command _ _ _ _) .nil)

/-- **A delivery that commits** files its interaction. -/
theorem Tallied.project {command : ProjectionCommand} {now : Timestamp}
    (h : Tallied settings commands s) (hp : Projects env settings command now s s') :
    Tallied settings (commands ++ [command]) s' := by
  have hdb : s.draft.db = s.db := World.tables_of_closed h.closed
  have hchats : s.draft.db.ChatsSound s.draft.drawn := by
    rw [hdb]
    exact h.chats
  obtain ⟨keys, hnodup, hsub, hkeys⟩ := h.keys
  rw [← hdb] at hkeys
  -- a window of its own is not stored yet
  have hnew : ((commands ++ [command]).map (·.sourceWindowId)).Nodup →
      (commands.map (·.sourceWindowId)).Nodup ∧
        command.sourceWindowId ∉ s.draft.db.analysisWindow.map (·.id) := by
    intro hids
    rw [List.map_append, List.map_singleton, List.nodup_append] at hids
    refine ⟨hids.1, ?_⟩
    rw [hdb, h.windows hids.1]
    exact fun hmem => hids.2.2 _ hmem _ (List.mem_singleton_self _) rfl
  refine ⟨hp.closed, ?_, fun hids => ?_, ?_, fun hids hkeysNodup => ?_⟩
  · rw [hp.db, hp.drawn]
    exact hchats.project settings now command
  · obtain ⟨hids', hwindow⟩ := hnew hids
    rw [hp.db, analysisWindow_project_of_new _ now hwindow, List.map_append, List.map_append, hdb,
      h.windows hids']
    rfl
  · obtain ⟨keys', hnodup', hsub', hkeys'⟩ :=
      @keys_project _ settings s.draft now command hchats keys hnodup hkeys
    rw [hp.db, List.map_append]
    refine ⟨keys', hnodup', fun key hkey => ?_, hkeys'⟩
    exact List.append_subset.mpr ⟨List.subset_append_of_subset_left _ hsub,
      List.subset_append_right _ _⟩ (hsub' hkey)
  · obtain ⟨hids', hwindow⟩ := hnew hids
    rw [List.map_append, List.map_singleton, List.nodup_append] at hkeysNodup
    have hkey : interactionKey command ∉ keys := fun hmem =>
      hkeysNodup.2.2 _ (hsub hmem) _ (List.mem_singleton_self _) rfl
    have hcarried := h.carried hids' hkeysNodup.1
    rw [← hdb] at hcarried
    rw [hp.db]
    exact carried_project s.draft now hwindow
      ((Db.selectInteraction_eq_none_iff_key hchats hkeys).mpr hkey) hcarried

omit [CharData] in
theorem tallied_start (settings : Settings) (mentions : List Mention)
    (annotations : List RelationshipAnnotation) (owners : List OwnerProfile) :
    Tallied settings [] (World.start mentions annotations owners) where
  closed := rfl
  chats := ⟨List.nodup_nil, Drawn.empty⟩
  windows _ := rfl
  keys := ⟨[], List.nodup_nil, List.nil_subset _, .nil⟩
  carried _ _ := .nil

omit [CharData] in
theorem Tallied.passOver (h : Tallied settings commands s) (hp : PassesOver s s')
    (hdrawn : s.drawn ≤ s'.drawn) : Tallied settings commands s' := by
  obtain ⟨-, ⟨htg, hids⟩, hwindows, hkeys, hcarried⟩ := h
  rw [← hp.db] at htg hids hwindows hkeys hcarried
  exact ⟨hp.closed, ⟨htg, hids.mono hdrawn⟩, hwindows, hkeys, hcarried⟩

variable (env) in
theorem Tallied.deliverAll (deliveries : List (StreamEntry × Timestamp))
    (h : Tallied settings commands s) :
    Tallied settings (commands ++ env.committed settings s deliveries)
      (env.deliverAll settings s deliveries) :=
  env.committed_invariant (fun _ _ h => h.closed) (fun _ _ _ _ _ h hp => h.project hp)
    (fun _ _ _ h hp hdrawn => h.passOver hp hdrawn) deliveries h

end Invariant

/-- **Interactions and windows** are in bijection exactly if no two windows of a chat start
at the same instant. -/
theorem paired_iff [CharData] (env : Env) (settings : Settings) (mentions : List Mention)
    (annotations : List RelationshipAnnotation) (owners : List OwnerProfile)
    (deliveries : List (StreamEntry × Timestamp))
    (hids : ((env.committed settings (World.start mentions annotations owners) deliveries).map
      (·.sourceWindowId)).Nodup) :
    Paired settings (env.deliverAll settings (World.start mentions annotations owners) deliveries).db ↔
      ((env.committed settings (World.start mentions annotations owners) deliveries).map
        interactionKey).Nodup := by
  have h := (tallied_start settings mentions annotations owners).deliverAll env deliveries
  rw [List.nil_append] at h
  constructor
  · rintro ⟨interactions, hperm, hpairs⟩
    obtain ⟨keys, hnodup, hsub, hkeys⟩ := h.keys
    -- as many keys as commands, so every command has a key of its own
    have hlength := congrArg List.length (h.windows hids)
    rw [List.length_map, List.length_map, ← hpairs.length_eq, hperm.length_eq,
      ← hkeys.length_eq] at hlength
    have hall := (List.subperm_of_subset hnodup hsub).perm_of_length_le
      (by rw [List.length_map, hlength])
    exact hall.nodup_iff.mp hnodup
  · intro hkeys
    exact ⟨_, .refl _, h.carried hids hkeys⟩

/-- An answer to the greeting, in a window of its own. -/
def answer (occurredAt : Timestamp) : StreamEntry where
  id := 2
  command :=
    { commandId := 102
      sourceWindowId := 202
      sourceEventId := 302
      tgChatId := 7
      messages := [{ tgMessageId := 2, tgSenderId := some 12, text := "здравствуй", occurredAt }]
      features := {}
      result := { sourceWindowId := 202, summary := "ответ" } }

/-- The greeting and the answer. -/
def answered (occurredAt : Timestamp) : List (StreamEntry × Timestamp) :=
  [(greeting, 61), (answer occurredAt, 62)]

theorem paired_iff_answered :
    let _ := basicCharData
    Paired {} (Env.deliverAll {} {} (World.start [] [] []) (answered 61)).db ↔
      ((Env.committed {} {} (World.start [] [] []) (answered 61)).map interactionKey).Nodup := by
  let _ := basicCharData
  exact paired_iff {} {} [] [] [] (answered 61) (by decide)

/-- Two windows of the same second share an interaction. -/
theorem not_paired_answered :
    let _ := basicCharData
    Env.committed {} {} (World.start [] [] []) (answered 60) =
        [greeting.command, (answer 60).command] ∧
      ¬ Paired {} (Env.deliverAll {} {} (World.start [] [] []) (answered 60)).db := by
  let _ := basicCharData
  refine ⟨by decide +kernel, ?_⟩
  rintro ⟨interactions, hperm, hpairs⟩
  have hlength := hperm.length_eq.symm.trans hpairs.length_eq
  exact absurd hlength (by decide)

end Memory
end PersonalIntelligence
