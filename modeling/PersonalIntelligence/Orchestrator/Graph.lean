import PersonalIntelligence.Orchestrator.Analysis
import Mathlib.Data.List.Sort

/-!
# `ai_orchestrator/graph.py`

The analysis of one window as a graph of six nodes in a row: normalise the window,
load the context, choose a task family, ask the router, repair the result, build the
projection command.

`ainvoke` is the compiled graph.  It runs in the monad of the router it is given, so
the same text serves the router of `llm.py`, which may raise, and a caller that has
fixed what the router answers.  The context that `load_context` reads goes into the
prompt and nowhere else; it is part of what the router answers.
-/

namespace PersonalIntelligence
namespace Orchestrator

open PyText

/-- The state `ainvoke` is called with. -/
structure AnalysisInput where
  sourceEventId : Ident
  sourceWindowId : Ident
  tgChatId : ℤ
  chatType : ChatType
  messages : List WindowMessagePayload
  traceId : Option String
  deriving DecidableEq, Repr

/-- The part of the final state that the nodes write. -/
structure AnalysisState where
  messages : List WindowMessagePayload
  features : MessageFeatureSet
  taskFamily : String
  result : StructuredAnalysisResult
  projectionCommand : ProjectionCommand
  deriving DecidableEq, Repr

/-! ## Normalising a window -/

/-- The order of `key=lambda item: (item.occurred_at, item.tg_message_id)`. -/
def chronological (m m' : WindowMessagePayload) : Prop :=
  m.occurredAt < m'.occurredAt ∨ m.occurredAt = m'.occurredAt ∧ m.tgMessageId ≤ m'.tgMessageId

instance : DecidableRel chronological := fun _ _ => inferInstanceAs (Decidable (_ ∨ _))

/-- The loop that drops a message whose id was seen before. -/
def dedupeSeen : List ℤ → List WindowMessagePayload → List WindowMessagePayload
  | _, [] => []
  | seen, m :: rest =>
    if m.tgMessageId ∈ seen then dedupeSeen seen rest
    else m :: dedupeSeen (m.tgMessageId :: seen) rest

/-- The messages that `normalize_window` keeps. -/
def normalizeMessages (messages : List WindowMessagePayload) : List WindowMessagePayload :=
  dedupeSeen [] (messages.insertionSort chronological)

theorem dedupeSeen_sublist : ∀ (seen : List ℤ) (messages : List WindowMessagePayload),
    (dedupeSeen seen messages).Sublist messages
  | _, [] => List.Sublist.slnil
  | seen, m :: rest => by
    unfold dedupeSeen
    split_ifs
    · exact (dedupeSeen_sublist seen rest).cons _
    · exact (dedupeSeen_sublist _ rest).cons_cons _

/-- Nothing is dropped from messages with distinct, unseen ids. -/
theorem dedupeSeen_of_nodup : ∀ {seen : List ℤ} {messages : List WindowMessagePayload},
    (messages.map (·.tgMessageId)).Nodup → (∀ m ∈ messages, m.tgMessageId ∉ seen) →
      dedupeSeen seen messages = messages
  | _, [], _, _ => rfl
  | seen, m :: rest, hnodup, hseen => by
    rw [List.map_cons, List.nodup_cons] at hnodup
    have hfresh := hseen m (List.mem_cons_self ..)
    have hrest : ∀ m' ∈ rest, m'.tgMessageId ∉ m.tgMessageId :: seen := by
      intro m' hm' hmem
      rcases List.mem_cons.mp hmem with heq | hmem
      · exact hnodup.1 (heq ▸ List.mem_map_of_mem hm')
      · exact hseen m' (List.mem_cons_of_mem _ hm') hmem
    unfold dedupeSeen
    rw [if_neg hfresh, dedupeSeen_of_nodup hnodup.2 hrest]

/-- A normalised window has no message more often than the window. -/
theorem normalizeMessages_subperm (messages : List WindowMessagePayload) :
    (normalizeMessages messages).Subperm messages :=
  (dedupeSeen_sublist _ _).subperm.trans (List.perm_insertionSort _ _).subperm

/-- A window with distinct ids is only sorted. -/
theorem normalizeMessages_perm {messages : List WindowMessagePayload}
    (h : (messages.map (·.tgMessageId)).Nodup) : (normalizeMessages messages).Perm messages := by
  have hperm := List.perm_insertionSort chronological messages
  have hsorted : ((messages.insertionSort chronological).map (·.tgMessageId)).Nodup :=
    (hperm.map _).nodup_iff.mpr h
  unfold normalizeMessages
  rw [dedupeSeen_of_nodup hsorted fun _ _ => List.not_mem_nil]
  exact hperm

/-! ## The other nodes -/

/-- `route_task_family`. -/
def routeTaskFamily (features : MessageFeatureSet) : String :=
  if features.messageCount ≤ 1 ∧ features.keywordCandidates = [] then "summarize_window"
  else if features.attachmentCount ≠ 0 ∨ features.replyCount ≠ 0 ∨ features.forwardedCount ≠ 0 then
    "extract_structured"
  else "extract_structured"

/-- `validate_result`. -/
def validateResult (result : StructuredAnalysisResult) : StructuredAnalysisResult :=
  if isBlank result.summary then
    { result with summary := "Недостаточно данных для доказательного резюме." }
  else result

/-- `build_projection`; the command draws its own id. -/
def buildProjection (commandId : Ident) (input : AnalysisInput)
    (messages : List WindowMessagePayload) (features : MessageFeatureSet)
    (result : StructuredAnalysisResult) : ProjectionCommand where
  commandId
  sourceWindowId := input.sourceWindowId
  sourceEventId := input.sourceEventId
  tgChatId := input.tgChatId
  messages
  features
  result
  traceId := input.traceId

/-- The compiled graph. -/
def ainvoke [CharData] {m : Type → Type} [Monad m]
    (analyze : Ident → List WindowMessagePayload → MessageFeatureSet →
      m StructuredAnalysisResult) (commandId : Ident) (input : AnalysisInput) :
    m AnalysisState := do
  let messages := normalizeMessages input.messages
  let features := computeMessageFeatures messages input.chatType
  let reply ← analyze input.sourceWindowId messages features
  let result := validateResult reply
  return {
    messages
    features
    taskFamily := routeTaskFamily features
    result
    projectionCommand := buildProjection commandId input messages features result }

end Orchestrator
end PersonalIntelligence
