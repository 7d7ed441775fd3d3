import PersonalIntelligence.Library.Runs
import PersonalIntelligence.Memory.ProjectedGraph

/-!
# What the weight of a relationship counts

The weight of a relationship is a counter that every projection of a window increments, so
it counts projections.  The windows in which two persons took part are counted by the rows
of `analysis_window`, and a window that is projected again replaces its row.

The two counts go apart when a window with two participants is projected again, and only
then: `countsWindows_iff` says so for whole runs.
-/

namespace PersonalIntelligence
namespace Memory

open PyText Resumption

/-- Both took part in the window. -/
def AnalysisWindow.joins (u v : ℤ) (window : AnalysisWindow) : Bool :=
  window.participantTgIds.contains u && window.participantTgIds.contains v

/-- The weight of the relationship between two persons; `0` if there is none. -/
def Graph.weight (g : Graph) (a b : Ident) : ℕ := (g.weights s(a, b)).sum

/-- The weight of every relationship is the number of windows in which both took part. -/
def CountsWindows (s : World) : Prop :=
  ∀ u v a b, u ≠ v → s.db.HasPerson u a → s.db.HasPerson v b →
    s.graph.weight a b = s.db.analysisWindow.countP (AnalysisWindow.joins u v)

/-- The window of the command is not stored yet, or had one participant at most. -/
def Unpaired (s : World) (command : ProjectionCommand) : Prop :=
  ∀ row ∈ s.db.analysisWindow, row.id = command.sourceWindowId →
    ∀ u ∈ row.participantTgIds, ∀ v ∈ row.participantTgIds, u = v

/-- So at every delivery that commits. -/
def UnpairedRun [CharData] (env : Env) (settings : Settings) :
    World → List (StreamEntry × Timestamp) → Prop
  | _, [] => True
  | s, delivery :: rest => (env.Commits settings s delivery → Unpaired s delivery.1.command) ∧
      UnpairedRun env settings (env.deliver settings s delivery) rest

/-! ## The invariant -/

/-- The graph and the windows know persons only. -/
structure Weighed (s : World) : Prop where
  closed : s.tx = none
  persons : s.db.PersonsSound s.drawn
  windowIds : (s.db.analysisWindow.map (·.id)).Nodup
  listed : ∀ window ∈ s.db.analysisWindow, ∀ u ∈ window.participantTgIds,
    ∃ id, s.db.HasPerson u id
  single : ∀ pair, (s.graph.weights pair).length ≤ 1
  known : ∀ pair, s.graph.weights pair ≠ [] → ∀ id ∈ pair, id < s.drawn

theorem weighed_start (mentions : List Mention) (annotations : List RelationshipAnnotation)
    (owners : List OwnerProfile) : Weighed (World.start mentions annotations owners) where
  closed := rfl
  persons := ⟨Drawn.empty, fun _ _ _ ⟨_, h, _⟩ => by cases h⟩
  windowIds := List.nodup_nil
  listed _ h := by cases h
  single _ := Nat.zero_le 1
  known _ h := absurd rfl h

theorem countsWindows_start (mentions : List Mention) (annotations : List RelationshipAnnotation)
    (owners : List OwnerProfile) : CountsWindows (World.start mentions annotations owners) :=
  fun _ _ _ _ _ ⟨_, h, _⟩ => by cases h

namespace Graph

theorem length_bump {weights : List ℕ} (h : weights.length ≤ 1) : (bump weights).length ≤ 1 := by
  cases weights with
  | nil => exact le_rfl
  | cons weight rest =>
    unfold bump
    rw [List.length_cons, List.length_map]
    exact h

theorem sum_bump {weights : List ℕ} (h : weights.length ≤ 1) :
    (bump weights).sum = weights.sum + 1 := by
  match weights with
  | [] => rfl
  | [weight] => simp [bump]
  | _ :: _ :: _ => simp at h

end Graph

section Step

variable [CharData] {env : Env} {settings : Settings} {s s' : World} {command : ProjectionCommand}
  {now : Timestamp}

/-- What an executed transaction makes of the weights. -/
theorem weights_project (h : Weighed s) (hgraph : s'.graph = s.graph.executeWrite
      (graphStatements command (s.draft.participantsOf settings now command))) (pair : Sym2 Ident) :
    s'.graph.weights pair =
      if pair ∈ (combinations ((s.draft.participantsOf settings now command).map (·.2))).map
          (fun p => s(p.1, p.2)) then Graph.bump (s.graph.weights pair)
      else s.graph.weights pair := by
  have hnodup := World.nodup_participantIds settings command now h.closed h.persons
  rw [hgraph]
  exact (Graph.grows_executeWrite command hnodup s.graph).weights pair

/-- **A delivery that commits** keeps the invariant. -/
theorem Weighed.project (h : Weighed s) (hp : Projects env settings command now s s')
    (hgraph : s'.graph = s.graph.executeWrite
      (graphStatements command (s.draft.participantsOf settings now command))) : Weighed s' := by
  have hweights := weights_project h hgraph
  have hwindows := hp.analysisWindow h.closed
  have henrolled : ∀ u ∈ senders command.messages, ∃ id, s'.db.HasPerson u id := by
    intro u hu
    obtain ⟨entry, hentry, rfl⟩ :=
      List.mem_map.mp ((s.draft.mem_participantsOf settings now command u).mpr hu)
    exact ⟨entry.2, hp.hasPerson_participant hentry⟩
  have hsenders := (s.draft.sorted_participants settings now command).2
  refine ⟨hp.closed, ?_, ?_, ?_, fun pair => ?_, fun pair hpair id hid => ?_⟩
  · exact hp.personsSound h.closed h.persons
  · rw [hwindows]
    exact Db.nodup_ids_upsertWindow h.windowIds _
  · rw [hwindows]
    refine Table.forall_upsert (fun window hold u hu => ?_)
      (fun _ _ _ _ u hu => henrolled u ((hsenders u).mp hu))
      (fun u hu => henrolled u ((hsenders u).mp hu))
    obtain ⟨id, hperson⟩ := h.listed window hold u hu
    exact ⟨id, hp.hasPerson h.closed hperson⟩
  · rw [hweights]
    split_ifs
    · exact Graph.length_bump (h.single pair)
    · exact h.single pair
  · rw [hweights] at hpair
    split_ifs at hpair with hmem
    · obtain ⟨p, hp', rfl⟩ := List.mem_map.mp hmem
      obtain ⟨hA, hB⟩ := mem_of_mem_combinations hp'
      rcases Sym2.mem_iff.mp hid with rfl | rfl
      · exact hp.participant_lt h.closed h.persons hA
      · exact hp.participant_lt h.closed h.persons hB
    · exact (h.known pair hpair id hid).trans hp.lt_drawn

/-- One window more for each two participants, and the row that is replaced less. -/
theorem countP_project (h : Weighed s) (hp : Projects env settings command now s s') (u v : ℤ) :
    s'.db.analysisWindow.countP (AnalysisWindow.joins u v) +
        (s.db.analysisWindow.filter (·.id = command.sourceWindowId)).countP (AnalysisWindow.joins u v) =
      s.db.analysisWindow.countP (AnalysisWindow.joins u v) +
        if u ∈ senders command.messages ∧ v ∈ senders command.messages then 1 else 0 := by
  have hwindows := hp.analysisWindow h.closed
  set fresh := windowRow (s.db.chatId command.tgChatId s.drawn)
    (s.draft.participantsOf settings now command) command
  have hjoins : ∀ row : AnalysisWindow, row.participantTgIds = fresh.participantTgIds →
      row.joins u v = decide (u ∈ senders command.messages ∧ v ∈ senders command.messages) := by
    intro row hrow
    have hsenders := (s.draft.sorted_participants settings now command).2
    unfold AnalysisWindow.joins
    rw [hrow, Bool.eq_iff_iff, Bool.and_eq_true, List.contains_iff_mem, List.contains_iff_mem,
      decide_eq_true_iff]
    exact and_congr (hsenders u) (hsenders v)
  set stored : AnalysisWindow := { fresh with confidence := numeric3 fresh.confidence }
  have hcount := @Table.countP_upsert AnalysisWindow Ident _ AnalysisWindow.id
    (fun row => { fresh with
      chatId := row.chatId
      tgChatId := row.tgChatId
      chatType := row.chatType
      windowStart := row.windowStart
      confidence := numeric3 fresh.confidence }) stored s.db.analysisWindow (fun _ _ => rfl)
    (AnalysisWindow.joins u v) (fun row => rfl) h.windowIds
  have hstored : [stored].countP (AnalysisWindow.joins u v) =
      if u ∈ senders command.messages ∧ v ∈ senders command.messages then 1 else 0 := by
    rw [List.countP_singleton, hjoins stored rfl]
    simp only [decide_eq_true_eq]
  rw [hwindows, ← hstored]
  exact hcount

/-- One projection more for each two participants. -/
theorem weight_project (h : Weighed s) (hp : Projects env settings command now s s')
    (hgraph : s'.graph = s.graph.executeWrite
      (graphStatements command (s.draft.participantsOf settings now command)))
    {u v : ℤ} {a b : Ident} (hne : u ≠ v) (ha : s'.db.HasPerson u a) (hb : s'.db.HasPerson v b) :
    s'.graph.weight a b = s.graph.weight a b +
      if u ∈ senders command.messages ∧ v ∈ senders command.messages then 1 else 0 := by
  have hnodup := World.nodup_participantIds settings command now h.closed h.persons
  have hsound := hp.personsSound h.closed h.persons
  have hab : a ≠ b := by
    rintro rfl
    exact hne (hsound.account_eq ha hb)
  have hmem : s(a, b) ∈ (combinations ((s.draft.participantsOf settings now command).map (·.2))).map
      (fun p => s(p.1, p.2)) ↔ u ∈ senders command.messages ∧ v ∈ senders command.messages := by
    rw [mem_combinations_iff hnodup, ← hp.mem_participantIds_iff h.closed h.persons ha,
      ← hp.mem_participantIds_iff h.closed h.persons hb]
    constructor
    · rintro ⟨x, hx, y, hy, -, hq⟩
      rcases Sym2.eq_iff.mp hq with ⟨rfl, rfl⟩ | ⟨rfl, rfl⟩
      · exact ⟨hx, hy⟩
      · exact ⟨hy, hx⟩
    · exact fun hmem => ⟨a, hmem.1, b, hmem.2, hab, rfl⟩
  unfold Graph.weight
  rw [weights_project h hgraph]
  by_cases hboth : u ∈ senders command.messages ∧ v ∈ senders command.messages
  · rw [if_pos (hmem.mpr hboth), if_pos hboth]
    exact Graph.sum_bump (h.single _)
  · rw [if_neg fun hpair => hboth (hmem.mp hpair), if_neg hboth, add_zero]

/-- Before the delivery the counts agree for those who become persons by it, too. -/
theorem CountsWindows.before (hcounts : CountsWindows s) (h : Weighed s)
    (hp : Projects env settings command now s s') {u v : ℤ} {a b : Ident} (hne : u ≠ v)
    (ha : s'.db.HasPerson u a) (hb : s'.db.HasPerson v b) :
    s.graph.weight a b = s.db.analysisWindow.countP (AnalysisWindow.joins u v) := by
  have hcases : ∀ {w : ℤ} {id : Ident}, s'.db.HasPerson w id → s.db.HasPerson w id ∨
      (s.drawn ≤ id ∧ ∀ id', ¬ s.db.HasPerson w id') := by
    intro w id hperson
    refine (hp.hasPerson_of h.closed hperson).imp_right fun ⟨hle, _⟩ => ⟨hle, fun id' hid' => ?_⟩
    have hkept := hp.hasPerson h.closed hid'
    have hid := (hp.personsSound h.closed h.persons).accounts _ _ _ hperson hkept
    exact absurd (h.persons.lt hid') (not_lt.mpr (hid ▸ hle))
  -- a new person is in no window and has no relationship
  have hnone : ∀ {w : ℤ} {id : Ident}, (∀ id', ¬ s.db.HasPerson w id') → s.drawn ≤ id →
      w = u ∨ w = v → id = a ∨ id = b →
      s.graph.weight a b = s.db.analysisWindow.countP (AnalysisWindow.joins u v) := by
    intro w id hnew hle hw hid
    have hweights : s.graph.weights s(a, b) = [] := by
      by_contra hpair
      have hlt := h.known s(a, b) hpair id (Sym2.mem_iff.mpr hid)
      exact absurd hlt (not_lt.mpr hle)
    have hcount : s.db.analysisWindow.countP (AnalysisWindow.joins u v) = 0 := by
      refine List.countP_eq_zero.mpr fun window hwindow hjoins => ?_
      unfold AnalysisWindow.joins at hjoins
      rw [Bool.and_eq_true, List.contains_iff_mem, List.contains_iff_mem] at hjoins
      rcases hw with rfl | rfl
      · exact (h.listed window hwindow _ hjoins.1).elim hnew
      · exact (h.listed window hwindow _ hjoins.2).elim hnew
    rw [Graph.weight, hweights, hcount]
    rfl
  rcases hcases ha with holdA | ⟨hleA, hnewA⟩
  · rcases hcases hb with holdB | ⟨hleB, hnewB⟩
    · exact hcounts u v a b hne holdA holdB
    · exact hnone hnewB hleB (.inr rfl) (.inr rfl)
  · exact hnone hnewA hleA (.inl rfl) (.inl rfl)

/-- **A delivery that commits** keeps the counts together exactly if its window was not
stored with two participants. -/
theorem CountsWindows.project_iff (hcounts : CountsWindows s) (h : Weighed s)
    (hp : Projects env settings command now s s')
    (hgraph : s'.graph = s.graph.executeWrite
      (graphStatements command (s.draft.participantsOf settings now command))) :
    CountsWindows s' ↔ Unpaired s command := by
  constructor
  · intro hcounts' row hrow hid u hu v hv
    by_contra hne
    obtain ⟨a, ha⟩ := h.listed row hrow u hu
    obtain ⟨b, hb⟩ := h.listed row hrow v hv
    have ha' := hp.hasPerson h.closed ha
    have hb' := hp.hasPerson h.closed hb
    have hbefore := hcounts u v a b hne ha hb
    have hafter := hcounts' u v a b hne ha' hb'
    have hweight := weight_project h hp hgraph hne ha' hb'
    have hcount := countP_project h hp u v
    have hreplaced : 0 < (s.db.analysisWindow.filter (·.id = command.sourceWindowId)).countP
        (AnalysisWindow.joins u v) := by
      refine List.countP_pos_iff.mpr ⟨row, List.mem_filter.mpr ⟨hrow, decide_eq_true hid⟩, ?_⟩
      unfold AnalysisWindow.joins
      rw [Bool.and_eq_true, List.contains_iff_mem, List.contains_iff_mem]
      exact ⟨hu, hv⟩
    omega
  · intro hunpaired u v a b hne ha hb
    have hbefore := hcounts.before h hp hne ha hb
    have hweight := weight_project h hp hgraph hne ha hb
    have hcount := countP_project h hp u v
    have hreplaced : (s.db.analysisWindow.filter (·.id = command.sourceWindowId)).countP
        (AnalysisWindow.joins u v) = 0 := by
      refine List.countP_eq_zero.mpr fun row hrow hjoins => hne ?_
      obtain ⟨hmem, hid⟩ := List.mem_filter.mp hrow
      unfold AnalysisWindow.joins at hjoins
      rw [Bool.and_eq_true, List.contains_iff_mem, List.contains_iff_mem] at hjoins
      exact hunpaired row hmem (of_decide_eq_true hid) u hjoins.1 v hjoins.2
    omega

omit [CharData] in
theorem Weighed.passOver (h : Weighed s) (hp : PassesOver s s') (hdrawn : s.drawn ≤ s'.drawn) :
    Weighed s' := by
  obtain ⟨-, hpersons, hids, hlisted, hsingle, hknown⟩ := h
  rw [← hp.db] at hpersons hids hlisted
  rw [← hp.graph] at hsingle hknown
  exact ⟨hp.closed, hpersons.mono hdrawn, hids, hlisted, hsingle,
    fun pair hpair id hid => (hknown pair hpair id hid).trans_le hdrawn⟩

omit [CharData] in
theorem CountsWindows.passOver (h : CountsWindows s) (hp : PassesOver s s') : CountsWindows s' := by
  unfold CountsWindows
  rw [hp.db, hp.graph]
  exact h

end Step

/-- **The weights count windows** in every state of a run exactly if no window with two
participants is projected again. -/
theorem countsWindows_iff [CharData] (env : Env) (settings : Settings)
    (henabled : settings.neo4jEnabled = true)
    (hwrites : ∀ n statements, env.faults n (.executeWrite statements) = false)
    (mentions : List Mention) (annotations : List RelationshipAnnotation)
    (owners : List OwnerProfile) (deliveries : List (StreamEntry × Timestamp)) :
    (∀ handled, handled <+: deliveries →
        CountsWindows (env.deliverAll settings (World.start mentions annotations owners) handled)) ↔
      UnpairedRun env settings (World.start mentions annotations owners) deliveries := by
  refine @Runs.forall_prefix_iff World (StreamEntry × Timestamp) (env.deliver settings)
    (fun s => Weighed s ∧ CountsWindows s) CountsWindows
    (fun s delivery => env.Commits settings s delivery → Unpaired s delivery.1.command)
    (UnpairedRun env settings) (fun _ => trivial) (fun _ _ _ => Iff.rfl) (fun _ h => h.2) ?_ ?_
    deliveries _ ⟨weighed_start mentions annotations owners,
      countsWindows_start mentions annotations owners⟩
  · rintro s delivery ⟨h, hcounts⟩ hunpaired
    by_cases hcommits : env.Commits settings s delivery
    · have hp := hcommits.projects h.closed
      have hgraph := (hp.graph_eq hwrites).trans (if_pos henabled)
      exact ⟨h.project hp hgraph, (hcounts.project_iff h hp hgraph).mpr (hunpaired hcommits)⟩
    · have hp := Env.passesOver_of_not_commits h.closed hcommits
      exact ⟨h.passOver hp (env.drawn_deliver settings s delivery), hcounts.passOver hp⟩
  · rintro s delivery ⟨h, hcounts⟩ hafter hcommits
    have hp := hcommits.projects h.closed
    have hgraph := (hp.graph_eq hwrites).trans (if_pos henabled)
    exact (hcounts.project_iff h hp hgraph).mp hafter

/-- A window of two participants. -/
def exchange (commandId : Ident) : StreamEntry where
  id := commandId
  command :=
    { commandId
      sourceWindowId := 201
      sourceEventId := 301
      tgChatId := 7
      messages := [{ tgMessageId := 1, tgSenderId := some 11, text := "привет", occurredAt := 60 },
        { tgMessageId := 2, tgSenderId := some 12, text := "здравствуй", occurredAt := 61 }]
      features := {}
      result := { sourceWindowId := 201, summary := "приветствие" } }

/-- It is projected, and projected again under another command. -/
def reprojected : List (StreamEntry × Timestamp) := [(exchange 101, 62), (exchange 102, 63)]

theorem countsWindows_iff_reprojected :
    let _ := basicCharData
    (∀ handled, handled <+: reprojected →
        CountsWindows (Env.deliverAll {} { neo4jEnabled := true } (World.start [] [] []) handled)) ↔
      UnpairedRun {} { neo4jEnabled := true } (World.start [] [] []) reprojected := by
  let _ := basicCharData
  exact countsWindows_iff {} { neo4jEnabled := true } rfl (fun _ _ => rfl) [] [] [] reprojected

/-- One window, and a weight of two. -/
theorem not_countsWindows_reprojected :
    let _ := basicCharData
    Env.committed {} { neo4jEnabled := true } (World.start [] [] []) reprojected =
        [(exchange 101).command, (exchange 102).command] ∧
      ¬ CountsWindows (Env.deliverAll {} { neo4jEnabled := true } (World.start [] [] [])
        reprojected) := by
  let _ := basicCharData
  refine ⟨by decide +kernel, fun hcounts => ?_⟩
  obtain ⟨s, hs⟩ : ∃ s, s = Env.deliverAll {} { neo4jEnabled := true } (World.start [] [] [])
      reprojected := ⟨_, rfl⟩
  have hpersons : ∃ row ∈ s.db.person, row.tgUserId = some 11 ∧ row.id = 1 := by
    rw [hs]
    decide
  have hpersons' : ∃ row ∈ s.db.person, row.tgUserId = some 12 ∧ row.id = 2 := by
    rw [hs]
    decide
  have hweight : s.graph.weight 1 2 = 2 := by
    rw [hs]
    decide
  have hcount : s.db.analysisWindow.countP (AnalysisWindow.joins 11 12) = 1 := by
    rw [hs]
    decide
  rw [← hs] at hcounts
  have hagree := hcounts 11 12 1 2 (by decide) hpersons hpersons'
  rw [hweight, hcount] at hagree
  cases hagree

end Memory
end PersonalIntelligence
