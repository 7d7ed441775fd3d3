import PersonalIntelligence.Memory.Ledger
import PersonalIntelligence.Memory.ProjectedGraph
import Mathlib.Data.Set.Basic

/-!
# The accumulated memory

What projections accumulate, apart from the identifiers that happen to be drawn: persons
are known by their accounts and chats by their Telegram ids.  Sets are sets, and where a
table holds a row under a key it is the list of the rows of that key.  Of the graph it has
the nodes and relationships by what they are merged on, and the weights.

On this level a projection is an operation that looks at the command alone
(`TableMemory.project`, `GraphMemory.project`).  Two projections of different windows
commute: sets are united, times and flags are joined, counters are incremented, and the
rows of a window are its own.
-/

namespace PersonalIntelligence
namespace Memory

open PyText Resumption

/-- How a person or a chat is known: by its Telegram id, or by its identifier if it has
none. -/
inductive Name where
  | account (tgId : ℤ)
  | row (id : Ident)
  deriving DecidableEq

/-- What is accumulated about a person. -/
@[ext] structure PersonMemory where
  topics : Set String
  lastInteractionAt : Option Timestamp
  isOwner : Bool

/-- What a new row holds. -/
def PersonUpsert.memory (p : PersonUpsert) : PersonMemory where
  topics := {topic | topic ∈ p.topics}
  lastInteractionAt := some p.lastInteractionAt
  isOwner := p.isOwner

/-- What becomes of an old row. -/
def PersonUpsert.recall (p : PersonUpsert) (m : PersonMemory) : PersonMemory where
  topics := {topic | (topic ∈ m.topics ∨ topic ∈ p.topics) ∧ topic ≠ ""}
  lastInteractionAt := some (match m.lastInteractionAt with
    | some at_ => max at_ p.lastInteractionAt
    | none => p.lastInteractionAt)
  isOwner := m.isOwner || p.isOwner

/-- The graph, by what is merged. -/
@[ext] structure GraphMemory where
  chats : Set ℤ
  persons : Set (Name × ℤ)
  topics : Set String
  participatesIn : Set (Name × ℤ)
  discusses : Set (ℤ × String)
  mentionedTopic : Set (Name × String)
  weights : Sym2 Name → List ℕ

/-- The tables.  The rows of a window are given without their chat, which comes with its
name. -/
@[ext] structure TableMemory where
  person : Option ℤ → List PersonMemory
  membership : Set (Name × Name)
  windows : Ident → List (Name × AnalysisWindow)
  facts : Ident → List ExtractedFact
  signals : Ident → List AnalyticsSignalRow

/-! ## A projection -/

section Project

variable [CharData] (settings : Settings) (command : ProjectionCommand)

/-- The persons after the upsert of one. -/
def recallPerson (persons : Option ℤ → List PersonMemory) (p : PersonUpsert) :
    Option ℤ → List PersonMemory :=
  Function.update persons (some p.tgUserId)
    (Table.put p.recall p.memory (persons (some p.tgUserId)))

/-- The row of a window, without its chat. -/
def storedWindow : AnalysisWindow where
  id := command.sourceWindowId
  chatId := 0
  tgChatId := command.tgChatId
  sourceMessageIds := command.messages.map (·.tgMessageId)
  participantTgIds := ((participants settings command).map (·.tgUserId)).insertionSort (· ≤ ·)
  chatType := command.features.chatType
  windowStart := windowStart command
  windowEnd := windowEnd command
  messages := command.messages
  features := command.features
  analysisPayload := command.result
  summary := command.result.summary
  confidence := numeric3 command.result.confidence

/-- What becomes of an old row of the window. -/
def replacedWindow (old : Name × AnalysisWindow) : Name × AnalysisWindow :=
  (old.1, { storedWindow settings command with
    tgChatId := old.2.tgChatId
    chatType := old.2.chatType
    windowStart := old.2.windowStart })

/-- The names of two different senders. -/
def SenderPair (q : Sym2 Name) : Prop :=
  ∃ u ∈ senders command.messages, ∃ v ∈ senders command.messages,
    u ≠ v ∧ q = s(.account u, .account v)

open Classical in
/-- `_project_neo4j` on the graph by names. -/
noncomputable def GraphMemory.project (g : GraphMemory) : GraphMemory where
  chats := {chat | chat ∈ g.chats ∨ chat = command.tgChatId}
  persons := {node | (node ∈ g.persons ∧ ∀ u ∈ senders command.messages, node.1 ≠ .account u) ∨
    ∃ u ∈ senders command.messages, node = (.account u, u)}
  topics := {topic | topic ∈ g.topics ∨ topic ∈ command.result.topics}
  participatesIn := {r | r ∈ g.participatesIn ∨
    ((∃ u ∈ senders command.messages, r.1 = .account u) ∧ r.2 = command.tgChatId)}
  discusses := {r | r ∈ g.discusses ∨ (r.1 = command.tgChatId ∧ r.2 ∈ command.result.topics)}
  mentionedTopic := {r | r ∈ g.mentionedTopic ∨
    ((∃ u ∈ senders command.messages, r.1 = .account u) ∧ r.2 ∈ command.result.topics)}
  weights q := if SenderPair command q then Graph.bump (g.weights q) else g.weights q

/-- The transaction of `_handle_projection` on the tables by names. -/
def TableMemory.project (a : TableMemory) : TableMemory where
  person := (participants settings command).foldl recallPerson a.person
  membership := {m | m ∈ a.membership ∨
    (m.1 = .account command.tgChatId ∧ ∃ u ∈ senders command.messages, m.2 = .account u)}
  windows := Function.update a.windows command.sourceWindowId
    (Table.put (replacedWindow settings command)
      (.account command.tgChatId, storedWindow settings command)
      (a.windows command.sourceWindowId))
  facts := Function.update a.facts command.sourceWindowId (factsOf numeric3 command)
  signals := Function.update a.signals command.sourceWindowId (signalsOf numeric3 command)

end Project

/-! ## Projections commute -/

/-- Two upserts of a person commute. -/
theorem PersonUpsert.recall_memory_comm (p q : PersonUpsert) : q.recall p.memory = p.recall q.memory := by
  unfold PersonUpsert.recall PersonUpsert.memory
  ext1
  · ext topic
    show (topic ∈ p.topics ∨ topic ∈ q.topics) ∧ topic ≠ "" ↔
      (topic ∈ q.topics ∨ topic ∈ p.topics) ∧ topic ≠ ""
    rw [or_comm]
  · exact congrArg some (max_comm _ _)
  · exact Bool.or_comm _ _

theorem PersonUpsert.recall_comm (p q : PersonUpsert) (m : PersonMemory) :
    q.recall (p.recall m) = p.recall (q.recall m) := by
  unfold PersonUpsert.recall
  ext1
  · ext topic
    show (((topic ∈ m.topics ∨ topic ∈ p.topics) ∧ topic ≠ "") ∨ topic ∈ q.topics) ∧ topic ≠ "" ↔
      (((topic ∈ m.topics ∨ topic ∈ q.topics) ∧ topic ≠ "") ∨ topic ∈ p.topics) ∧ topic ≠ ""
    tauto
  · dsimp only
    cases m.lastInteractionAt with
    | none => exact congrArg some (max_comm _ _)
    | some at_ => exact congrArg some (max_right_comm _ _ _)
  · exact Bool.or_right_comm _ _ _

theorem recallPerson_comm (persons : Option ℤ → List PersonMemory) (p q : PersonUpsert) :
    recallPerson (recallPerson persons p) q = recallPerson (recallPerson persons q) p := by
  unfold recallPerson
  by_cases huser : p.tgUserId = q.tgUserId
  · rw [huser, Function.update_self, Function.update_self, Function.update_idem,
      Function.update_idem, Table.put_comm (p.recall_memory_comm q) (p.recall_comm q)]
  · have hne : some p.tgUserId ≠ some q.tgUserId := fun h => huser (Option.some.inj h)
    rw [Function.update_of_ne hne.symm, Function.update_of_ne hne, Function.update_comm hne]

theorem GraphMemory.mem_persons_comm {c d : ProjectionCommand} {g : GraphMemory} {node : Name × ℤ}
    (h : node ∈ ((g.project c).project d).persons) : node ∈ ((g.project d).project c).persons := by
  rcases h with ⟨⟨hnode, hc⟩ | hc, hd⟩ | ⟨u, hd, rfl⟩
  · exact .inl ⟨.inl ⟨hnode, hd⟩, hc⟩
  · exact .inr hc
  · by_cases hc : u ∈ senders c.messages
    · exact .inr ⟨u, hc, rfl⟩
    · refine .inl ⟨.inr ⟨u, hd, rfl⟩, fun v hv hname => hc ?_⟩
      have huv : u = v := Name.account.inj hname
      exact huv ▸ hv

theorem GraphMemory.project_comm (c d : ProjectionCommand) (g : GraphMemory) :
    (g.project c).project d = (g.project d).project c := by
  ext x : 2
  · exact or_right_comm
  · exact ⟨mem_persons_comm, mem_persons_comm⟩
  · exact or_right_comm
  · exact or_right_comm
  · exact or_right_comm
  · exact or_right_comm
  · unfold project
    dsimp only
    split_ifs <;> rfl

/-- **Projections of different windows commute.** -/
theorem TableMemory.project_comm [CharData] (settings : Settings) {c d : ProjectionCommand}
    (hne : c.sourceWindowId ≠ d.sourceWindowId) (a : TableMemory) :
    (a.project settings c).project settings d = (a.project settings d).project settings c := by
  ext : 1
  · show (participants settings d).foldl recallPerson
        ((participants settings c).foldl recallPerson a.person) =
      (participants settings c).foldl recallPerson
        ((participants settings d).foldl recallPerson a.person)
    rw [← List.foldl_append, ← List.foldl_append]
    exact List.perm_append_comm.foldl_eq' (fun p _ q _ persons => recallPerson_comm persons p q) _
  · ext m
    exact or_right_comm
  · show Function.update (Function.update a.windows _ _) _
        (Table.put _ _ (Function.update a.windows _ _ _)) =
      Function.update (Function.update a.windows _ _) _
        (Table.put _ _ (Function.update a.windows _ _ _))
    rw [Function.update_of_ne hne.symm, Function.update_of_ne hne, Function.update_comm hne]
  · exact Function.update_comm hne _ _ _
  · exact Function.update_comm hne _ _ _

/-- So a sequence of them may be taken in any order, -/
theorem TableMemory.foldl_project_perm [CharData] (settings : Settings)
    {commands commands' : List ProjectionCommand} (hperm : commands.Perm commands')
    (hwindows : (commands.map (·.sourceWindowId)).Nodup) (a : TableMemory) :
    commands.foldl (·.project settings) a = commands'.foldl (·.project settings) a := by
  refine hperm.foldl_eq' (fun c hc d hd a => ?_) a
  by_cases hcd : c = d
  · rw [hcd]
  · refine TableMemory.project_comm settings (fun hid => hcd ?_) a
    exact List.inj_on_of_nodup_map hwindows hc hd hid

/-- in the graph as well. -/
theorem GraphMemory.foldl_project_perm {commands commands' : List ProjectionCommand}
    (hperm : commands.Perm commands') (g : GraphMemory) :
    commands.foldl (fun g command => g.project command) g =
      commands'.foldl (fun g command => g.project command) g :=
  hperm.foldl_eq' (fun c _ d _ g => GraphMemory.project_comm c d g) g

end Memory
end PersonalIntelligence
