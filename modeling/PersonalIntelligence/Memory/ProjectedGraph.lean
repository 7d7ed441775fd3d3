import PersonalIntelligence.Memory.ProjectedTables

/-!
# The graph after a projection

`_project_neo4j` merges the chat, its participants, a relationship for each two of them and
the topics.  Every part of the graph is written by one phase of these statements, and what
is in it afterwards is said of the parts one by one (`Graph.Grows`).  Nodes and
relationships are merged, so they form sets; the weight of a relationship is a counter.
-/

namespace PersonalIntelligence
namespace Memory

theorem mem_merge {α : Type} [DecidableEq α] {x y : α} {xs : List α} :
    y ∈ merge x xs ↔ y ∈ xs ∨ y = x := by
  unfold merge
  split_ifs with h
  · refine (or_iff_left_of_imp ?_).symm
    rintro rfl
    exact h
  · rw [List.mem_append, List.mem_singleton]

/-! ## Pairs of participants -/

theorem mem_of_mem_combinations {α : Type} {xs : List α} {pair : α × α}
    (h : pair ∈ combinations xs) : pair.1 ∈ xs ∧ pair.2 ∈ xs := by
  induction xs with
  | nil => cases h
  | cons x rest ih =>
    rcases List.mem_append.mp h with hhead | hrest
    · obtain ⟨y, hy, rfl⟩ := List.mem_map.mp hhead
      exact ⟨List.mem_cons_self, List.mem_cons_of_mem _ hy⟩
    · exact ⟨List.mem_cons_of_mem _ (ih hrest).1, List.mem_cons_of_mem _ (ih hrest).2⟩

/-- The pairs of a list without repetitions. -/
theorem mem_combinations_iff {α : Type} {xs : List α} (hnodup : xs.Nodup) {q : Sym2 α} :
    q ∈ (combinations xs).map (fun pair => s(pair.1, pair.2)) ↔
      ∃ x ∈ xs, ∃ y ∈ xs, x ≠ y ∧ q = s(x, y) := by
  constructor
  · intro h
    obtain ⟨pair, hpair, rfl⟩ := List.mem_map.mp h
    refine ⟨pair.1, (mem_of_mem_combinations hpair).1, pair.2, (mem_of_mem_combinations hpair).2,
      ?_, rfl⟩
    clear h
    induction xs with
    | nil => cases hpair
    | cons x rest ih =>
      rw [List.nodup_cons] at hnodup
      rcases List.mem_append.mp hpair with hhead | hrest
      · obtain ⟨y, hy, rfl⟩ := List.mem_map.mp hhead
        intro hxy
        have hxy : x = y := hxy
        exact hnodup.1 (hxy ▸ hy)
      · exact ih hnodup.2 hrest
  · rintro ⟨x, hx, y, hy, hne, rfl⟩
    induction xs with
    | nil => cases hx
    | cons z rest ih =>
      rw [List.nodup_cons] at hnodup
      unfold combinations
      rw [List.map_append, List.mem_append]
      rcases List.mem_cons.mp hx with rfl | hx'
      · have hy' := (List.mem_cons.mp hy).resolve_left hne.symm
        exact .inl (List.mem_map.mpr ⟨(x, y), List.mem_map_of_mem hy', rfl⟩)
      · rcases List.mem_cons.mp hy with rfl | hy'
        · exact .inl (List.mem_map.mpr ⟨(y, x), List.mem_map_of_mem hx', Sym2.eq_swap⟩)
        · exact .inr (ih hnodup.2 hx' hy')

/-- No pair comes twice. -/
theorem nodup_combinations {α : Type} {xs : List α} (hnodup : xs.Nodup) :
    ((combinations xs).map fun pair => s(pair.1, pair.2)).Nodup := by
  induction xs with
  | nil => exact List.nodup_nil
  | cons x rest ih =>
    rw [List.nodup_cons] at hnodup
    unfold combinations
    rw [List.map_append, List.map_map, List.nodup_append]
    refine ⟨?_, ih hnodup.2, ?_⟩
    · refine hnodup.2.map fun y z hyz => ?_
      exact Sym2.congr_right.mp hyz
    · rintro q hq q' hq' rfl
      obtain ⟨y, hy, rfl⟩ := List.mem_map.mp hq
      obtain ⟨a, ha, b, hb, -, hab⟩ := (mem_combinations_iff hnodup.2).mp hq'
      have hx : x ∈ s(a, b) := hab ▸ Sym2.mem_mk_left x y
      rcases Sym2.mem_iff.mp hx with rfl | rfl
      · exact hnodup.1 ha
      · exact hnodup.1 hb

namespace Graph

/-! ## Weights -/

/-- The weights of the relationships between two persons: a list of one or none, as long as
they are merged. -/
def weights (g : Graph) (pair : Sym2 Ident) : List ℕ :=
  (g.communicatedWith.filter fun edge => s(edge.personA, edge.personB) = pair).map (·.weight)

/-- What `_project_neo4j` makes of the weights of two participants. -/
def bump : List ℕ → List ℕ
  | [] => [1]
  | weight :: rest => (weight + 1) :: rest.map (· + 1)

theorem hasPerson_iff {g : Graph} {personId : Ident} :
    g.hasPerson personId = true ↔ personId ∈ g.persons.map (·.1) := by
  unfold hasPerson
  rw [List.any_eq_true, List.mem_map]
  simp only [decide_eq_true_eq]

theorem hasChat_iff {g : Graph} {tgChatId : ℤ} :
    g.hasChat tgChatId = true ↔ tgChatId ∈ g.chats.map (·.1) := by
  unfold hasChat
  rw [List.any_eq_true, List.mem_map]
  simp only [decide_eq_true_eq]

/-- One relationship is merged. -/
theorem weights_mergeCommunication {g : Graph} {personA personB windowId : Ident}
    (hA : personA ∈ g.persons.map (·.1)) (hB : personB ∈ g.persons.map (·.1)) (pair : Sym2 Ident) :
    (g.apply (.mergeCommunication personA personB windowId)).weights pair =
      if pair = s(personA, personB) then bump (g.weights pair) else g.weights pair := by
  have hpersons : (g.hasPerson personA && g.hasPerson personB) = true := by
    rw [hasPerson_iff.mpr hA, hasPerson_iff.mpr hB]
    rfl
  unfold apply weights
  dsimp only
  rw [if_pos hpersons]
  dsimp only
  set key := fun edge : CommunicationEdge => s(edge.personA, edge.personB)
  set again := fun edge : CommunicationEdge =>
    { edge with lastWindowId := windowId, weight := edge.weight + 1 }
  set fresh : CommunicationEdge := ⟨personA, personB, windowId, 1⟩
  have hkey : ∀ edge, key edge = key fresh → key (again edge) = key fresh := fun _ h => h
  split_ifs with hpair
  · subst hpair
    have hrows : (Table.upsert key again fresh g.communicatedWith).filter (key · = key fresh) =
        Table.put again fresh (g.communicatedWith.filter (key · = key fresh)) :=
      Table.filter_upsert_self hkey
    refine (congrArg (List.map CommunicationEdge.weight) hrows).trans ?_
    show _ = bump ((g.communicatedWith.filter (key · = key fresh)).map CommunicationEdge.weight)
    cases g.communicatedWith.filter (key · = key fresh) with
    | nil => rfl
    | cons edge rest =>
      show (again edge).weight :: (rest.map again).map CommunicationEdge.weight =
        (edge.weight + 1) :: (rest.map CommunicationEdge.weight).map (· + 1)
      rw [List.map_map, List.map_map]
      rfl
  · exact congrArg (List.map CommunicationEdge.weight) (Table.filter_upsert_of_ne hkey hpair)

/-! ## Phases -/

section Phases

variable (g : Graph)

theorem executeWrite_append (statements later : List GraphStatement) :
    g.executeWrite (statements ++ later) = (g.executeWrite statements).executeWrite later :=
  List.foldl_append

/-- What no statement changes. -/
theorem executeWrite_congr {α : Type} (f : Graph → α) {statements : List GraphStatement}
    (h : ∀ g : Graph, ∀ statement ∈ statements, f (g.apply statement) = f g) :
    f (g.executeWrite statements) = f g := by
  induction statements generalizing g with
  | nil => rfl
  | cons statement rest ih =>
    exact (ih (g.apply statement) fun g st hst => h g st (List.mem_cons_of_mem _ hst)).trans
      (h g statement List.mem_cons_self)

/-- The statements for the participants. -/
def participantStatements (tgChatId : ℤ) (participantMap : ParticipantMap) : List GraphStatement :=
  participantMap.map fun entry => .mergeParticipant entry.2 entry.1 tgChatId

/-- The statements for each two persons. -/
def communicationStatements (windowId : Ident) (pairs : List (Ident × Ident)) :
    List GraphStatement :=
  pairs.map fun pair => .mergeCommunication pair.1 pair.2 windowId

/-- The statements for a topic. -/
def topicStatements (tgChatId : ℤ) (participantMap : ParticipantMap) (topic : String) :
    List GraphStatement :=
  .mergeTopic topic tgChatId :: participantMap.map fun entry => .mergeMentionedTopic entry.2 topic

theorem executeWrite_graphStatements (command : ProjectionCommand) (participantMap : ParticipantMap) :
    g.executeWrite (graphStatements command participantMap) =
      (((g.apply (.mergeChat command.tgChatId command.features.chatType)).executeWrite
        (participantStatements command.tgChatId participantMap)).executeWrite
        (communicationStatements command.sourceWindowId
          (combinations (participantMap.map (·.2))))).executeWrite
        (command.result.topics.flatMap (topicStatements command.tgChatId participantMap)) := by
  unfold graphStatements
  rw [executeWrite_append, executeWrite_append]
  rfl

/-- The statements for the participants write nodes and the relationships of these to the
chat, -/
theorem participants_frame {α : Type} (f : Graph → α)
    (hf : ∀ g : Graph, ∀ persons chats participatesIn,
      f { g with persons, chats, participatesIn } = f g)
    (tgChatId : ℤ) (participantMap : ParticipantMap) :
    f (g.executeWrite (participantStatements tgChatId participantMap)) = f g := by
  refine executeWrite_congr g f fun g statement hst => ?_
  obtain ⟨entry, -, rfl⟩ := List.mem_map.mp hst
  exact hf g _ _ _

/-- and those for each two persons the relationships between persons. -/
theorem communications_frame {α : Type} (f : Graph → α)
    (hf : ∀ g : Graph, ∀ communicatedWith, f { g with communicatedWith } = f g)
    (windowId : Ident) (pairs : List (Ident × Ident)) :
    f (g.executeWrite (communicationStatements windowId pairs)) = f g := by
  refine executeWrite_congr g f fun g statement hst => ?_
  obtain ⟨pair, -, rfl⟩ := List.mem_map.mp hst
  unfold apply
  dsimp only
  split_ifs
  · exact hf g _
  · rfl

variable {g}

/-- The keys of the chats, after a merge. -/
theorem mem_chats_upsert {f : ℤ × Option ChatType → ℤ × Option ChatType} {fresh : ℤ × Option ChatType}
    (hf : ∀ node, (f node).1 = node.1) {chats : List (ℤ × Option ChatType)} {tgChatId : ℤ} :
    tgChatId ∈ (Table.upsert Prod.fst f fresh chats).map (·.1) ↔
      tgChatId ∈ chats.map (·.1) ∨ tgChatId = fresh.1 :=
  Table.mem_keys_upsert fun node h => (hf node).trans h

/-- The participants are nodes with their accounts. -/
theorem mem_persons_participants {participantMap : ParticipantMap} {tgChatId : ℤ}
    (hnodup : (participantMap.map (·.2)).Nodup) (node : Ident × ℤ) :
    node ∈ (g.executeWrite (participantStatements tgChatId participantMap)).persons ↔
      (node ∈ g.persons ∧ node.1 ∉ participantMap.map (·.2)) ∨ (node.2, node.1) ∈ participantMap := by
  induction participantMap generalizing g with
  | nil => simp [participantStatements, executeWrite]
  | cons entry rest ih =>
    rw [List.map_cons, List.nodup_cons] at hnodup
    have hstep : node ∈ (g.apply (.mergeParticipant entry.2 entry.1 tgChatId)).persons ↔
        (node ∈ g.persons ∧ node.1 ≠ entry.2) ∨ node = (entry.2, entry.1) := by
      constructor
      · intro h
        rcases Table.mem_upsert h with hold | ⟨old, -, hkey, rfl⟩ | ⟨-, rfl⟩
        · exact .inl hold
        · exact .inr (Prod.ext hkey rfl)
        · exact .inr rfl
      · rintro (⟨hmem, hne⟩ | rfl)
        · exact Table.mem_upsert_of_ne hmem hne
        · by_cases hkey : entry.2 ∈ g.persons.map (·.1)
          · obtain ⟨old, hold, hid⟩ := List.mem_map.mp hkey
            have hnew := @Table.mem_upsert_of_eq _ _ _ Prod.fst (fun node => (node.1, entry.1))
              (entry.2, entry.1) g.persons old hold hid
            rw [show old.1 = entry.2 from hid] at hnew
            exact hnew
          · exact Table.fresh_mem_upsert hkey
    refine (ih hnodup.2).trans ?_
    rw [hstep, List.map_cons, List.mem_cons, List.mem_cons]
    constructor
    · rintro (⟨⟨hmem, hne⟩ | rfl, hrest⟩ | hrest)
      · exact .inl ⟨hmem, not_or.mpr ⟨hne, hrest⟩⟩
      · exact .inr (.inl rfl)
      · exact .inr (.inr hrest)
    · rintro (⟨hmem, hnot⟩ | hentry | hrest)
      · exact .inl ⟨.inl ⟨hmem, (not_or.mp hnot).1⟩, (not_or.mp hnot).2⟩
      · have hid : node.1 = entry.2 := congrArg Prod.snd hentry
        refine .inl ⟨.inr (Prod.ext hid (congrArg Prod.fst hentry)), ?_⟩
        rw [hid]
        exact hnodup.1
      · exact .inr hrest

theorem mem_participatesIn_participants {participantMap : ParticipantMap} {tgChatId : ℤ}
    (relationship : Ident × ℤ) :
    relationship ∈ (g.executeWrite (participantStatements tgChatId participantMap)).participatesIn ↔
      relationship ∈ g.participatesIn ∨
        (relationship.1 ∈ participantMap.map (·.2) ∧ relationship.2 = tgChatId) := by
  induction participantMap generalizing g with
  | nil => simp [participantStatements, executeWrite]
  | cons entry rest ih =>
    refine ih.trans ?_
    have hstep : relationship ∈ (g.apply (.mergeParticipant entry.2 entry.1 tgChatId)).participatesIn ↔
        relationship ∈ g.participatesIn ∨ relationship = (entry.2, tgChatId) := mem_merge
    rw [hstep, List.map_cons, List.mem_cons, Prod.ext_iff]
    tauto

theorem mem_chats_participants {participantMap : ParticipantMap} {tgChatId : ℤ}
    (h : tgChatId ∈ g.chats.map (·.1)) (chat : ℤ) :
    chat ∈ (g.executeWrite (participantStatements tgChatId participantMap)).chats.map (·.1) ↔
      chat ∈ g.chats.map (·.1) := by
  induction participantMap generalizing g with
  | nil => rfl
  | cons entry rest ih =>
    have hstep : ∀ other, other ∈ (g.apply (.mergeParticipant entry.2 entry.1 tgChatId)).chats.map
        (·.1) ↔ other ∈ g.chats.map (·.1) := by
      intro other
      refine (mem_chats_upsert fun _ => rfl).trans (or_iff_left_of_imp ?_)
      rintro rfl
      exact h
    exact (ih ((hstep tgChatId).mpr h)).trans (hstep chat)

/-- The relationships of pairs of which none comes twice. -/
theorem weights_communications {windowId : Ident} {pairs : List (Ident × Ident)}
    (hnodup : (pairs.map fun pair => s(pair.1, pair.2)).Nodup)
    (hpersons : ∀ pair ∈ pairs, pair.1 ∈ g.persons.map (·.1) ∧ pair.2 ∈ g.persons.map (·.1))
    (q : Sym2 Ident) : (g.executeWrite (communicationStatements windowId pairs)).weights q =
      if q ∈ pairs.map (fun pair => s(pair.1, pair.2)) then bump (g.weights q) else g.weights q := by
  induction pairs generalizing g with
  | nil => rfl
  | cons pair rest ih =>
    rw [List.map_cons, List.nodup_cons] at hnodup
    obtain ⟨hA, hB⟩ := hpersons pair List.mem_cons_self
    have hstep := @weights_mergeCommunication g pair.1 pair.2 windowId hA hB q
    have hsame : (g.apply (.mergeCommunication pair.1 pair.2 windowId)).persons = g.persons := by
      unfold apply
      dsimp only
      split_ifs <;> rfl
    refine (ih hnodup.2 fun other hother => ?_).trans ?_
    · rw [hsame]
      exact hpersons other (List.mem_cons_of_mem _ hother)
    · rw [hstep, List.map_cons]
      by_cases hq : q = s(pair.1, pair.2)
      · rw [if_pos hq, if_neg (hq ▸ hnodup.1), if_pos (hq ▸ List.mem_cons_self)]
      · rw [if_neg hq]
        simp only [List.mem_cons, hq, false_or]

/-- What the statements for the topics write. -/
structure Discusses (tgChatId : ℤ) (personIds : List Ident) (added : List String) (g g' : Graph) :
    Prop where
  chats : g'.chats = g.chats
  persons : g'.persons = g.persons
  participatesIn : g'.participatesIn = g.participatesIn
  communicatedWith : g'.communicatedWith = g.communicatedWith
  topics : ∀ topic, topic ∈ g'.topics ↔ topic ∈ g.topics ∨ topic ∈ added
  discusses : ∀ relationship, relationship ∈ g'.discusses ↔
    relationship ∈ g.discusses ∨ (relationship.1 = tgChatId ∧ relationship.2 ∈ added)
  mentionedTopic : ∀ relationship, relationship ∈ g'.mentionedTopic ↔
    relationship ∈ g.mentionedTopic ∨ (relationship.1 ∈ personIds ∧ relationship.2 ∈ added)

/-- The participants mention a topic that is already merged. -/
theorem discusses_mentions {participantMap : ParticipantMap} {topic : String}
    (hpersons : ∀ id ∈ participantMap.map (·.2), id ∈ g.persons.map (·.1)) (htopic : topic ∈ g.topics) :
    let g' := g.executeWrite (participantMap.map fun entry => .mergeMentionedTopic entry.2 topic)
    (g'.chats = g.chats ∧ g'.persons = g.persons ∧ g'.participatesIn = g.participatesIn ∧
      g'.communicatedWith = g.communicatedWith ∧ g'.discusses = g.discusses) ∧
    (∀ other, other ∈ g'.topics ↔ other ∈ g.topics) ∧
    ∀ relationship, relationship ∈ g'.mentionedTopic ↔ relationship ∈ g.mentionedTopic ∨
      (relationship.1 ∈ participantMap.map (·.2) ∧ relationship.2 = topic) := by
  induction participantMap generalizing g with
  | nil => exact ⟨⟨rfl, rfl, rfl, rfl, rfl⟩, fun _ => Iff.rfl, fun _ => by simp [executeWrite]⟩
  | cons entry rest ih =>
    have hperson : g.hasPerson entry.2 = true :=
      hasPerson_iff.mpr (hpersons entry.2 List.mem_cons_self)
    have hstep : g.apply (.mergeMentionedTopic entry.2 topic) = { g with
        topics := merge topic g.topics
        mentionedTopic := merge (entry.2, topic) g.mentionedTopic } := if_pos hperson
    obtain ⟨hsame, htopics, hmentioned⟩ := @ih (g.apply (.mergeMentionedTopic entry.2 topic))
      (by rw [hstep]; exact fun id hid => hpersons id (List.mem_cons_of_mem _ hid))
      (by rw [hstep]; exact mem_merge.mpr (.inl htopic))
    have hrun : g.executeWrite ((entry :: rest).map fun entry => .mergeMentionedTopic entry.2 topic) =
        (g.apply (.mergeMentionedTopic entry.2 topic)).executeWrite
          (rest.map fun entry => .mergeMentionedTopic entry.2 topic) := rfl
    rw [hstep] at hsame htopics hmentioned hrun
    dsimp only
    rw [hrun]
    refine ⟨hsame, fun other => ?_, fun relationship => ?_⟩
    · refine (htopics other).trans (mem_merge.trans (or_iff_left_of_imp ?_))
      rintro rfl
      exact htopic
    · refine (hmentioned relationship).trans ?_
      rw [mem_merge, List.map_cons, List.mem_cons, Prod.ext_iff]
      tauto

theorem discusses_topic {participantMap : ParticipantMap} {tgChatId : ℤ} (topic : String)
    (hpersons : ∀ id ∈ participantMap.map (·.2), id ∈ g.persons.map (·.1))
    (hchat : tgChatId ∈ g.chats.map (·.1)) : Discusses tgChatId (participantMap.map (·.2)) [topic] g
      (g.executeWrite (topicStatements tgChatId participantMap topic)) := by
  have hstep : g.apply (.mergeTopic topic tgChatId) = { g with
      topics := merge topic g.topics
      discusses := merge (tgChatId, topic) g.discusses } := by
    unfold apply
    dsimp only
    rw [if_pos (hasChat_iff.mpr hchat)]
  obtain ⟨⟨hchats, hpersons', hin, hwith, hdiscusses⟩, htopics, hmentioned⟩ :=
    @discusses_mentions (g.apply (.mergeTopic topic tgChatId)) participantMap topic
      (by rw [hstep]; exact hpersons) (by rw [hstep]; exact mem_merge.mpr (.inr rfl))
  rw [hstep] at hchats hpersons' hin hwith hdiscusses htopics hmentioned
  have hrun : g.executeWrite (topicStatements tgChatId participantMap topic) =
      ({ g with
          topics := merge topic g.topics
          discusses := merge (tgChatId, topic) g.discusses } : Graph).executeWrite
        (participantMap.map fun entry => .mergeMentionedTopic entry.2 topic) := by
    rw [← hstep]
    rfl
  rw [hrun]
  refine ⟨hchats, hpersons', hin, hwith, fun other => ?_, fun relationship => ?_,
    fun relationship => ?_⟩
  · rw [htopics, mem_merge, List.mem_singleton]
  · rw [hdiscusses, mem_merge, List.mem_singleton, Prod.ext_iff]
  · rw [hmentioned, List.mem_singleton]

theorem discusses_topics {participantMap : ParticipantMap} {tgChatId : ℤ} {topics : List String}
    (hpersons : ∀ id ∈ participantMap.map (·.2), id ∈ g.persons.map (·.1))
    (hchat : tgChatId ∈ g.chats.map (·.1)) : Discusses tgChatId (participantMap.map (·.2)) topics g
      (g.executeWrite (topics.flatMap (topicStatements tgChatId participantMap))) := by
  induction topics generalizing g with
  | nil => exact ⟨rfl, rfl, rfl, rfl, fun _ => by simp [executeWrite],
      fun _ => by simp [executeWrite], fun _ => by simp [executeWrite]⟩
  | cons topic rest ih =>
    rw [List.flatMap_cons, executeWrite_append]
    have h := discusses_topic topic hpersons hchat
    have hrest := @ih (g.executeWrite (topicStatements tgChatId participantMap topic))
      (by rw [h.persons]; exact hpersons) (by rw [h.chats]; exact hchat)
    refine ⟨hrest.chats.trans h.chats, hrest.persons.trans h.persons,
      hrest.participatesIn.trans h.participatesIn, hrest.communicatedWith.trans h.communicatedWith,
      fun other => ?_, fun relationship => ?_, fun relationship => ?_⟩
    · rw [hrest.topics, h.topics, List.mem_singleton, List.mem_cons, or_assoc]
    · rw [hrest.discusses, h.discusses, List.mem_singleton, List.mem_cons]
      tauto
    · rw [hrest.mentionedTopic, h.mentionedTopic, List.mem_singleton, List.mem_cons]
      tauto

end Phases

/-! ## The whole -/

/-- The graph with the nodes and relationships of a command. -/
structure Grows (command : ProjectionCommand) (participantMap : ParticipantMap) (g g' : Graph) :
    Prop where
  chats : ∀ tgChatId, tgChatId ∈ g'.chats.map (·.1) ↔
    tgChatId ∈ g.chats.map (·.1) ∨ tgChatId = command.tgChatId
  persons : ∀ node, node ∈ g'.persons ↔
    (node ∈ g.persons ∧ node.1 ∉ participantMap.map (·.2)) ∨ (node.2, node.1) ∈ participantMap
  topics : ∀ topic, topic ∈ g'.topics ↔ topic ∈ g.topics ∨ topic ∈ command.result.topics
  participatesIn : ∀ relationship, relationship ∈ g'.participatesIn ↔
    relationship ∈ g.participatesIn ∨
      (relationship.1 ∈ participantMap.map (·.2) ∧ relationship.2 = command.tgChatId)
  discusses : ∀ relationship, relationship ∈ g'.discusses ↔ relationship ∈ g.discusses ∨
    (relationship.1 = command.tgChatId ∧ relationship.2 ∈ command.result.topics)
  mentionedTopic : ∀ relationship, relationship ∈ g'.mentionedTopic ↔
    relationship ∈ g.mentionedTopic ∨
      (relationship.1 ∈ participantMap.map (·.2) ∧ relationship.2 ∈ command.result.topics)
  weights : ∀ q, g'.weights q =
    if q ∈ (combinations (participantMap.map (·.2))).map (fun pair => s(pair.1, pair.2)) then
      bump (g.weights q)
    else g.weights q

/-- **What a projection writes to the graph.** -/
theorem grows_executeWrite (command : ProjectionCommand) {participantMap : ParticipantMap}
    (hnodup : (participantMap.map (·.2)).Nodup) (g : Graph) :
    Grows command participantMap g (g.executeWrite (graphStatements command participantMap)) := by
  rw [executeWrite_graphStatements]
  set g₁ := g.apply (.mergeChat command.tgChatId command.features.chatType)
  set g₂ := g₁.executeWrite (participantStatements command.tgChatId participantMap)
  set g₃ := g₂.executeWrite (communicationStatements command.sourceWindowId
    (combinations (participantMap.map (·.2)))) with hg₃
  -- the chat
  have hchats₁ : ∀ tgChatId, tgChatId ∈ g₁.chats.map (·.1) ↔
      tgChatId ∈ g.chats.map (·.1) ∨ tgChatId = command.tgChatId :=
    fun tgChatId => @mem_chats_upsert (fun node => (node.1, some command.features.chatType))
      (command.tgChatId, some command.features.chatType) (fun _ => rfl) g.chats tgChatId
  have hchat₁ : command.tgChatId ∈ g₁.chats.map (·.1) := (hchats₁ _).mpr (.inr rfl)
  -- the participants
  have hchats₂ := @mem_chats_participants g₁ participantMap command.tgChatId hchat₁
  have hpersons₂ := @mem_persons_participants g₁ participantMap command.tgChatId hnodup
  have hin₂ := @mem_participatesIn_participants g₁ participantMap command.tgChatId
  have hnode₂ : ∀ id ∈ participantMap.map (·.2), id ∈ g₂.persons.map (·.1) := by
    intro id hid
    obtain ⟨entry, hentry, rfl⟩ := List.mem_map.mp hid
    exact List.mem_map.mpr ⟨(entry.2, entry.1), (hpersons₂ _).mpr (.inr hentry), rfl⟩
  have hfree₂ : ∀ {α : Type} (f : Graph → α), (∀ g : Graph, ∀ persons chats participatesIn,
      f { g with persons, chats, participatesIn } = f g) → f g₂ = f g₁ :=
    fun f hf => g₁.participants_frame f hf _ _
  -- the relationships between them
  have hfree₃ : ∀ {α : Type} (f : Graph → α), (∀ g : Graph, ∀ communicatedWith,
      f { g with communicatedWith } = f g) → f g₃ = f g₂ :=
    fun f hf => g₂.communications_frame f hf _ _
  have hweights₃ := @weights_communications g₂ command.sourceWindowId
    (combinations (participantMap.map (·.2))) (nodup_combinations hnodup) fun pair hpair =>
      ⟨hnode₂ _ (mem_of_mem_combinations hpair).1, hnode₂ _ (mem_of_mem_combinations hpair).2⟩
  have hpersons₃ : g₃.persons = g₂.persons := hfree₃ Graph.persons fun _ _ => rfl
  have hchats₃ : g₃.chats = g₂.chats := hfree₃ Graph.chats fun _ _ => rfl
  -- the topics
  have h := @discusses_topics g₃ participantMap command.tgChatId command.result.topics
    (by rw [hpersons₃]; exact hnode₂) (by rw [hchats₃]; exact (hchats₂ _).mpr hchat₁)
  refine ⟨fun tgChatId => ?_, fun node => ?_, fun topic => ?_, fun relationship => ?_,
    fun relationship => ?_, fun relationship => ?_, fun q => ?_⟩
  · rw [h.chats, hchats₃]
    exact (hchats₂ tgChatId).trans (hchats₁ tgChatId)
  · rw [h.persons, hpersons₃]
    exact hpersons₂ node
  · rw [h.topics, hfree₃ Graph.topics fun _ _ => rfl, hfree₂ Graph.topics fun _ _ _ _ => rfl]
    rfl
  · rw [h.participatesIn, hfree₃ Graph.participatesIn fun _ _ => rfl]
    exact hin₂ relationship
  · rw [h.discusses, hfree₃ Graph.discusses fun _ _ => rfl,
      hfree₂ Graph.discusses fun _ _ _ _ => rfl]
    rfl
  · rw [h.mentionedTopic, hfree₃ Graph.mentionedTopic fun _ _ => rfl,
      hfree₂ Graph.mentionedTopic fun _ _ _ _ => rfl]
    rfl
  · have hlast : ∀ g g' : Graph, g'.communicatedWith = g.communicatedWith →
        g'.weights q = g.weights q := fun g g' hwith => by rw [weights, weights, hwith]
    rw [hlast g₃ _ h.communicatedWith, hg₃, hweights₃ q,
      hlast g₁ g₂ (hfree₂ Graph.communicatedWith fun _ _ _ _ => rfl)]
    rfl

end Graph

end Memory
end PersonalIntelligence
