import PersonalIntelligence.Memory.ProjectedTables

/-!
# The store as a ledger of commands

Seen from outside, the canonical store is a map from a window to the last command that was
committed for it.  `Refines` says what the tables hold for each entry of that map, and
`refines_ledger` that this is so after every sequence of deliveries, whatever was
delivered again and whatever failed.  A state in the middle of a delivery has the tables
and streams of a delivery whose remaining calls all fail.

What the tables hold of a confidence or of a score is the value of a `numeric(_, 3)`
column, so `Refines` has the rounding as a parameter.
-/

namespace PersonalIntelligence
namespace Memory

open PyText Resumption

/-! ## The abstract store -/

/-- The last committed command of each window. -/
abbrev Ledger := Ident → Option ProjectionCommand

/-- A command is committed. -/
def Ledger.record (ledger : Ledger) (command : ProjectionCommand) : Ledger :=
  Function.update ledger command.sourceWindowId (some command)

/-- The ledger after a sequence of deliveries. -/
def Env.ledger [CharData] (env : Env) (settings : Settings) :
    World → Ledger → List (StreamEntry × Timestamp) → Ledger
  | _, ledger, [] => ledger
  | s, ledger, delivery :: rest => env.ledger settings (env.deliver settings s delivery)
      (if env.Commits settings s delivery then ledger.record delivery.1.command else ledger) rest

/-! ## The relation -/

section Relation

variable (round : ℚ → ℚ)

/-- The row of a window shows a command. -/
structure Reflects (command : ProjectionCommand) (row : AnalysisWindow) : Prop where
  messages : row.messages = command.messages
  features : row.features = command.features
  analysisPayload : row.analysisPayload = command.result
  summary : row.summary = command.result.summary
  confidence : row.confidence = round command.result.confidence
  sourceMessageIds : row.sourceMessageIds = command.messages.map (·.tgMessageId)
  /-- The participants are the set of the senders, in order. -/
  sorted : row.participantTgIds.Pairwise (· < ·)
  participants : ∀ u, u ∈ row.participantTgIds ↔ u ∈ senders command.messages

/-- The facts of a command: one for each claim. -/
def factsOf (command : ProjectionCommand) : List ExtractedFact :=
  command.result.claims.map fun claim =>
    { factRow command.sourceWindowId command.sourceWindowId claim with
      confidence := round claim.confidence }

/-- The signals of a command: one for each signal of the result. -/
def signalsOf (command : ProjectionCommand) : List AnalyticsSignalRow :=
  command.result.analyticsSignals.map fun signal =>
    { signalRow command.sourceWindowId command.tgChatId signal with score := round signal.score }

/-- The senders of a command are persons and members of its chat. -/
def Db.Enrolled (db : Db) (command : ProjectionCommand) : Prop :=
  ∀ u ∈ senders command.messages, ∃ personId chatId, db.HasPerson u personId ∧
    db.HasChat command.tgChatId chatId ∧ ⟨chatId, personId⟩ ∈ db.chatMembership

/-- The stores show the ledger. -/
structure Refines (ledger : Ledger) (s : World) : Prop where
  ids : (s.db.analysisWindow.map (·.id)).Nodup
  windows : ∀ w, w ∈ s.db.analysisWindow.map (·.id) ↔ (ledger w).isSome
  reflects : ∀ row ∈ s.db.analysisWindow, ∀ command ∈ ledger row.id, Reflects round command row
  enrolled : ∀ w, ∀ command ∈ ledger w, s.db.Enrolled command
  facts : ∀ w, s.db.extractedFact.filter (·.windowId = w) = ((ledger w).map (factsOf round)).getD []
  signals : ∀ w, s.db.analyticsSignal.filter (·.windowId = w) =
    ((ledger w).map (signalsOf round)).getD []
  jobs : ∀ job ∈ s.embeddingRequested, (ledger job.message.analysisWindowId).isSome
  events : ∀ event ∈ s.interactionUpdated,
    event.message.interactionId ∈ s.db.interaction.map (·.id)

end Relation

/-! ## One delivery -/

section Step

variable [CharData] (settings : Settings) (now : Timestamp) (command : ProjectionCommand) (t : Draft)

/-- A participant of the command that is projected. -/
theorem enrolled_project : (t.project settings now command).2.db.Enrolled command := by
  intro u hu
  obtain ⟨⟨account, personId⟩, hentry, rfl⟩ :=
    List.mem_map.mp ((t.mem_participantsOf settings now command u).mpr hu)
  obtain ⟨hperson, hmember⟩ := t.participant_project settings now command hentry
  exact ⟨personId, _, hperson, t.hasChat_project_self settings now command, hmember⟩

variable {command} in
/-- The participants of the commands before it. -/
theorem Db.Enrolled.project {earlier : ProjectionCommand} (h : t.db.Enrolled earlier) :
    (t.project settings now command).2.db.Enrolled earlier := by
  intro u hu
  obtain ⟨personId, chatId, hperson, hchat, hmember⟩ := h u hu
  exact ⟨personId, chatId, t.hasPerson_project settings now command hperson,
    t.hasChat_project settings now command hchat,
    (t.mem_project_chatMembership settings now command).mpr (.inl hmember)⟩

end Step

namespace Ledger

variable (ledger : Ledger) {command : ProjectionCommand} {w : Ident}

theorem record_of_eq (command : ProjectionCommand) :
    ledger.record command command.sourceWindowId = some command := Function.update_self ..

theorem record_of_ne (h : w ≠ command.sourceWindowId) : ledger.record command w = ledger w :=
  Function.update_of_ne h ..

variable {ledger} in
/-- A window that is in the ledger stays in it. -/
theorem isSome_record :
    (ledger.record command w).isSome ↔ (ledger w).isSome ∨ w = command.sourceWindowId := by
  by_cases hw : w = command.sourceWindowId
  · subst hw
    rw [ledger.record_of_eq]
    exact iff_of_true rfl (.inr rfl)
  · rw [ledger.record_of_ne hw, or_iff_left hw]

end Ledger

section Runs

variable [CharData] {env : Env} {settings : Settings} {ledger : Ledger} {s s' : World}

/-- The facts of a window after a delivery that commits, -/
theorem Projects.filter_extractedFact {command : ProjectionCommand} {now : Timestamp}
    (hs : s.tx = none) (hp : Projects env settings command now s s') (w : Ident) :
    s'.db.extractedFact.filter (·.windowId = w) = if w = command.sourceWindowId then
      factsOf numeric3 command else s.db.extractedFact.filter (·.windowId = w) := by
  have hdb : s.draft.db = s.db := World.tables_of_closed hs
  have hfacts : s'.db.extractedFact = (s.db.extractedFact.filter
      (·.windowId ≠ command.sourceWindowId)) ++ factsOf numeric3 command := by
    rw [hp.db, Draft.project_extractedFact, hdb, List.map_map]
    rfl
  have hrows : ∀ r ∈ factsOf numeric3 command, r.windowId = command.sourceWindowId := by
    intro r hr
    obtain ⟨claim, -, rfl⟩ := List.mem_map.mp hr
    rfl
  rw [hfacts, Table.filter_replaced hrows]

/-- and its signals. -/
theorem Projects.filter_analyticsSignal {command : ProjectionCommand} {now : Timestamp}
    (hs : s.tx = none) (hp : Projects env settings command now s s') (w : Ident) :
    s'.db.analyticsSignal.filter (·.windowId = w) = if w = command.sourceWindowId then
      signalsOf numeric3 command else s.db.analyticsSignal.filter (·.windowId = w) := by
  have hdb : s.draft.db = s.db := World.tables_of_closed hs
  have hsignals : s'.db.analyticsSignal = (s.db.analyticsSignal.filter
      (·.windowId ≠ command.sourceWindowId)) ++ signalsOf numeric3 command := by
    rw [hp.db, Draft.project_analyticsSignal, hdb, List.map_map]
    rfl
  have hrows : ∀ r ∈ signalsOf numeric3 command, r.windowId = command.sourceWindowId := by
    intro r hr
    obtain ⟨signal, -, rfl⟩ := List.mem_map.mp hr
    rfl
  rw [hsignals, Table.filter_replaced hrows]

/-- **A delivery that commits** records its command. -/
theorem Refines.project {command : ProjectionCommand} {now : Timestamp} (hs : s.tx = none)
    (h : Refines numeric3 ledger s) (hp : Projects env settings command now s s') :
    Refines numeric3 (ledger.record command) s' := by
  have hdb : s.draft.db = s.db := World.tables_of_closed hs
  have hwindows := hp.analysisWindow hs
  have hlast : ∀ earlier ∈ ledger.record command command.sourceWindowId, earlier = command := by
    intro earlier hearlier
    rw [ledger.record_of_eq] at hearlier
    exact (Option.some.inj hearlier).symm
  refine ⟨?_, fun w => ?_, fun row hrow earlier hearlier => ?_, fun w earlier hearlier => ?_,
    fun w => ?_, fun w => ?_, fun job hjob => ?_, fun event hevent => ?_⟩
  · rw [hwindows]
    exact Db.nodup_ids_upsertWindow h.ids _
  · rw [hwindows, Ledger.isSome_record, ← h.windows w]
    exact s.db.mem_ids_upsertWindow _ w
  · rw [hwindows] at hrow
    rcases Table.mem_upsert hrow with ⟨hold, hne⟩ | ⟨old, hold, hkey, rfl⟩ | ⟨hnew, rfl⟩
    · rw [ledger.record_of_ne hne] at hearlier
      exact h.reflects row hold earlier hearlier
    · obtain rfl := hlast earlier hearlier
      obtain ⟨hsorted, hsenders⟩ := s.draft.sorted_participants settings now earlier
      exact ⟨rfl, rfl, rfl, rfl, rfl, rfl, hsorted, hsenders⟩
    · obtain rfl := hlast earlier hearlier
      obtain ⟨hsorted, hsenders⟩ := s.draft.sorted_participants settings now earlier
      exact ⟨rfl, rfl, rfl, rfl, rfl, rfl, hsorted, hsenders⟩
  · rw [hp.db]
    by_cases hw : w = command.sourceWindowId
    · subst hw
      obtain rfl := hlast earlier hearlier
      exact enrolled_project settings now _ s.draft
    · rw [ledger.record_of_ne hw] at hearlier
      refine Db.Enrolled.project settings now s.draft ?_
      rw [hdb]
      exact h.enrolled w earlier hearlier
  · rw [hp.filter_extractedFact hs]
    split_ifs with hw
    · subst hw
      rw [ledger.record_of_eq]
      rfl
    · rw [ledger.record_of_ne hw]
      exact h.facts w
  · rw [hp.filter_analyticsSignal hs]
    split_ifs with hw
    · subst hw
      rw [ledger.record_of_eq]
      rfl
    · rw [ledger.record_of_ne hw]
      exact h.signals w
  · exact Ledger.isSome_record.mpr ((hp.requested job hjob).imp_left (h.jobs job))
  · obtain ⟨hfiled, hkept⟩ := s.draft.project_interaction_ids settings now command
    rw [hp.db]
    rcases hp.updated event hevent with hold | hnew
    · refine hkept _ ?_
      rw [hdb]
      exact h.events event hold
    · rw [hnew]
      exact hfiled

omit [CharData] in
/-- A delivery that commits nothing leaves what is seen of the ledger. -/
theorem Refines.passOver (h : Refines numeric3 ledger s) (hp : PassesOver s s') :
    Refines numeric3 ledger s' := by
  obtain ⟨hids, hwindows, hreflects, henrolled, hfacts, hsignals, hjobs, hevents⟩ := h
  rw [← hp.db] at hids hwindows hreflects henrolled hfacts hsignals hevents
  rw [← hp.requested] at hjobs
  rw [← hp.updated] at hevents
  exact ⟨hids, hwindows, hreflects, henrolled, hfacts, hsignals, hjobs, hevents⟩

omit [CharData] in
/-- No command is committed at the start. -/
theorem refines_start (mentions : List Mention) (annotations : List RelationshipAnnotation)
    (owners : List OwnerProfile) :
    Refines numeric3 (fun _ => none) (World.start mentions annotations owners) where
  ids := List.nodup_nil
  windows _ := iff_of_false List.not_mem_nil (by simp)
  reflects _ h := by cases h
  enrolled _ _ h := by cases h
  facts _ := rfl
  signals _ := rfl
  jobs _ h := by cases h
  events _ h := by cases h

theorem Refines.deliverAll (deliveries : List (StreamEntry × Timestamp)) (hs : s.tx = none)
    (h : Refines numeric3 ledger s) : Refines numeric3 (env.ledger settings s ledger deliveries)
      (env.deliverAll settings s deliveries) := by
  induction deliveries generalizing s ledger with
  | nil => exact h
  | cons delivery rest ih =>
    refine ih (env.deliver_closed settings hs delivery) ?_
    split_ifs with hcommits
    · exact h.project hs (hcommits.projects hs)
    · exact h.passOver (Env.passesOver_of_not_commits hs hcommits)

end Runs

/-- **The canonical store refines its ledger**, in every state between two deliveries. -/
theorem refines_ledger [CharData] (env : Env) (settings : Settings) (mentions : List Mention)
    (annotations : List RelationshipAnnotation) (owners : List OwnerProfile)
    (deliveries : List (StreamEntry × Timestamp)) :
    Refines numeric3
      (env.ledger settings (World.start mentions annotations owners) (fun _ => none) deliveries)
      (env.deliverAll settings (World.start mentions annotations owners) deliveries) :=
  (refines_start mentions annotations owners).deliverAll deliveries rfl

/-- The greeting, with a confidence of four decimals. -/
def hesitantGreeting : StreamEntry where
  id := 1
  command := { greeting.command with
    result := { sourceWindowId := 201, summary := "приветствие", confidence := 1 / 16 } }

/-- The column keeps three of them. -/
theorem not_refines_hesitantGreeting :
    ¬ Refines id
      (@Env.ledger basicCharData {} {} (World.start [] [] []) (fun _ => none) [(hesitantGreeting, 61)])
      (@Env.deliverAll {} basicCharData {} (World.start [] [] []) [(hesitantGreeting, 61)]) := by
  intro h
  have hrow : ∃ row ∈ (@Env.deliverAll {} basicCharData {} (World.start [] [] [])
      [(hesitantGreeting, 61)]).db.analysisWindow, row.id = 201 ∧ row.confidence = 63 / 1000 := by
    decide +kernel
  obtain ⟨row, hmem, hid, hconfidence⟩ := hrow
  have hledger : @Env.ledger basicCharData {} {} (World.start [] [] []) (fun _ => none)
      [(hesitantGreeting, 61)] 201 = some hesitantGreeting.command := by
    decide +kernel
  have hreflects := (h.reflects row hmem _ (hid ▸ hledger)).confidence
  rw [hconfidence] at hreflects
  exact absurd hreflects (by decide +kernel)

end Memory
end PersonalIntelligence
