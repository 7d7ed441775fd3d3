import PersonalIntelligence.Library.Spacing
import PersonalIntelligence.Orchestrator.AnalysisRange
import PersonalIntelligence.Orchestrator.Normalization

/-!
# Conclusions and their evidence

A result is built in one of three ways: from the JSON of a reply, from the JSON of its
translation, or by the heuristics.  Either way it is `Grounded` in the window: a claim or a
task has evidence, all evidence is of the window, there is a signal, and the result is
about the window and not about whatever a reply says it is about.  A reply is arbitrary
text.

The graph completes the result with a summary (`projectionCommand_grounded`).
-/

namespace PersonalIntelligence
namespace Orchestrator

open PyText Regex

/-- The evidence names messages of the window. -/
def Cites (messages : List WindowMessagePayload) (evidence : List ℤ) : Prop :=
  evidence ⊆ messages.map (·.tgMessageId)

/-- The result is tied to the window `w` with these messages. -/
structure Grounded (w : Ident) (messages : List WindowMessagePayload)
    (result : StructuredAnalysisResult) : Prop where
  window : result.sourceWindowId = w
  claims : ∀ c ∈ result.claims, c.evidenceMessageIds ≠ [] ∧ Cites messages c.evidenceMessageIds
  tasks : ∀ t ∈ result.tasks, t.evidenceMessageIds ≠ [] ∧ Cites messages t.evidenceMessageIds ∧
    1 ≤ t.priority ∧ t.priority ≤ 5
  signals : ∀ s ∈ result.analyticsSignals, Cites messages s.evidenceMessageIds
  signals_ne_nil : result.analyticsSignals ≠ []

section Paths

variable [CharData] {messages : List WindowMessagePayload} {features : MessageFeatureSet}
  {w : Ident}

/-! ## Evidence -/

omit [CharData] in
theorem cites_windowEvidence (messages : List WindowMessagePayload) (ids : List ℤ) :
    Cites messages (windowEvidence messages ids) := by
  intro id hid
  exact of_decide_eq_true (List.mem_filter.mp hid).2

omit [CharData] in
theorem cites_singleton {m : WindowMessagePayload} (hm : m ∈ messages) :
    Cites messages [m.tgMessageId] := by
  intro id hid
  rw [List.mem_singleton.mp hid]
  exact List.mem_map_of_mem hm

omit [CharData] in
theorem cites_take (messages : List WindowMessagePayload) (n : ℕ) :
    Cites messages ((messages.take n).map (·.tgMessageId)) :=
  List.map_subset _ (List.take_subset n messages)

/-! ## The heuristics -/

/-- The heuristic signals cite the first messages of the window. -/
theorem heuristicSignals_cite {signals : List AnalyticsSignal}
    (h : heuristicSignals messages features = .ok signals) :
    signals ≠ [] ∧ ∀ s ∈ signals, Cites messages s.evidenceMessageIds := by
  have hdrafts : signalDrafts messages features = signals := by
    by_cases hrange : ∀ s ∈ signalDrafts messages features, s.InRange
    · exact Except.ok.inj ((mapM_validate_of_inRange hrange).symm.trans h)
    · obtain ⟨s, hs⟩ := not_forall.mp hrange
      obtain ⟨hs, hr⟩ := Classical.not_imp.mp hs
      rw [heuristicSignals, mapM_validate_of_not_inRange hs hr] at h
      cases h
  subst hdrafts
  refine ⟨List.cons_ne_nil _ _, fun s hs => ?_⟩
  have hevidence : s.evidenceMessageIds = (messages.take 3).map (·.tgMessageId) := by
    simp only [signalDrafts, List.mem_cons, List.not_mem_nil, or_false] at hs
    rcases hs with rfl | rfl | rfl | rfl | rfl | rfl <;> rfl
  rw [hevidence]
  exact cites_take messages 3

omit [CharData] in
/-- The heuristic claims cite the first message. -/
theorem heuristicClaims_cite (hne : messages ≠ []) {c : StructuredClaim}
    (hc : c ∈ heuristicClaims messages features) :
    c.evidenceMessageIds ≠ [] ∧ Cites messages c.evidenceMessageIds := by
  obtain ⟨first, rest, rfl⟩ := List.exists_cons_of_ne_nil hne
  have hevidence : c.evidenceMessageIds = [first.tgMessageId] := by
    simp only [heuristicClaims, List.mem_append, List.mem_map] at hc
    rcases hc with (⟨_, -, rfl⟩ | ⟨_, -, rfl⟩) | ⟨_, -, rfl⟩ <;> rfl
  rw [hevidence]
  exact ⟨List.cons_ne_nil _ _, cites_singleton (List.mem_cons_self ..)⟩

/-- A heuristic task cites its message. -/
theorem heuristicTasks_cite {t : StructuredTask} (ht : t ∈ heuristicTasks messages) :
    t.evidenceMessageIds ≠ [] ∧ Cites messages t.evidenceMessageIds ∧
      1 ≤ t.priority ∧ t.priority ≤ 5 := by
  obtain ⟨m, hm, rfl⟩ := List.mem_map.mp ht
  have hmem : m ∈ messages := (List.mem_filter.mp (List.mem_of_mem_take hm)).1
  exact ⟨List.cons_ne_nil _ _, cites_singleton hmem, by norm_num, by norm_num⟩

theorem grounded_of_heuristicAnalysis (hne : messages ≠ []) {r : StructuredAnalysisResult}
    (h : heuristicAnalysis w messages features = .ok r) : Grounded w messages r := by
  obtain ⟨signals, hsignals, hr⟩ := bind_eq_ok_iff.mp h
  obtain ⟨hsome, hcite⟩ := heuristicSignals_cite hsignals
  cases hr
  exact ⟨rfl, fun c hc => heuristicClaims_cite hne hc, fun t ht => heuristicTasks_cite ht, hcite,
    hsome⟩

/-! ## The replies -/

omit [CharData] in
theorem safeClaims_cite {claims : List StructuredClaim} {c : StructuredClaim}
    (hc : c ∈ safeClaims messages claims) :
    c.evidenceMessageIds ≠ [] ∧ Cites messages c.evidenceMessageIds := by
  obtain ⟨old, hold, rfl⟩ := List.mem_map.mp hc
  exact ⟨of_decide_eq_true (List.mem_filter.mp hold).2, cites_windowEvidence messages _⟩

omit [CharData] in
theorem safeTasks_cite {tasks : List StructuredTask} {t : StructuredTask}
    (ht : t ∈ safeTasks messages tasks) :
    t.evidenceMessageIds ≠ [] ∧ Cites messages t.evidenceMessageIds ∧
      1 ≤ t.priority ∧ t.priority ≤ 5 := by
  obtain ⟨old, hold, rfl⟩ := List.mem_map.mp ht
  refine ⟨of_decide_eq_true (List.mem_filter.mp hold).2, cites_windowEvidence messages _, ?_⟩
  exact ⟨le_min (le_max_right _ _) (by norm_num), min_le_right _ _⟩

omit [CharData] in
theorem safeSignals_cite {signals : List AnalyticsSignal} {s : AnalyticsSignal}
    (hs : s ∈ safeSignals messages signals) : Cites messages s.evidenceMessageIds := by
  obtain ⟨old, -, rfl⟩ := List.mem_map.mp hs
  exact cites_windowEvidence messages _

/-- What the sanitiser returns, whatever the reply says. -/
theorem grounded_of_sanitizeResult {result r : StructuredAnalysisResult}
    (hw : result.sourceWindowId = w)
    (h : sanitizeResult result messages features = .ok r) : Grounded w messages r := by
  have hclaims := fun c (hc : c ∈ safeClaims messages result.claims) => safeClaims_cite hc
  have htasks := fun t (ht : t ∈ safeTasks messages result.tasks) => safeTasks_cite ht
  unfold sanitizeResult at h
  split_ifs at h with hnil
  · obtain ⟨signals, hsignals, hr⟩ := bind_eq_ok_iff.mp h
    obtain ⟨hsome, hcite⟩ := heuristicSignals_cite hsignals
    cases hr
    exact ⟨hw, hclaims, htasks, hcite, hsome⟩
  · cases h
    exact ⟨hw, hclaims, htasks, fun s hs => safeSignals_cite hs, hnil⟩

namespace AnalysisRouter

variable (router : AnalysisRouter)

theorem grounded_of_parse (hne : messages ≠ []) {raw : String} {r : StructuredAnalysisResult}
    (h : router.parseAnalysisPayload raw w messages features = .ok r) :
    Grounded w messages r := by
  unfold parseAnalysisPayload at h
  split at h
  · exact grounded_of_heuristicAnalysis hne h
  · obtain ⟨result, -, hr⟩ := bind_eq_ok_iff.mp h
    exact grounded_of_sanitizeResult rfl hr

/-- The reply or its translation, whichever is returned, has been parsed. -/
theorem grounded_of_ask (hne : messages ≠ []) {client : Provider} {r : StructuredAnalysisResult}
    (h : router.ask client w messages features = .ok r) : Grounded w messages r := by
  obtain ⟨raw, -, result, hres, hcase⟩ := router.ask_eq_ok_iff.mp h
  rcases hcase with ⟨-, rfl⟩ | ⟨-, _, -, translated, hpt, ⟨-, rfl⟩ | ⟨-, rfl⟩⟩
  · exact router.grounded_of_parse hne hres
  · exact router.grounded_of_parse hne hres
  · exact router.grounded_of_parse hne hpt

theorem grounded_of_askInTurn (hne : messages ≠ []) : ∀ {clients : List Provider}
    {r : StructuredAnalysisResult}, router.askInTurn w messages features clients = .ok r →
      Grounded w messages r
  | [], _, h => grounded_of_heuristicAnalysis hne h
  | client :: rest, r, h => by
    unfold askInTurn at h
    split_ifs at h
    · exact grounded_of_askInTurn hne h
    · cases ha : router.ask client w messages features with
      | ok result =>
        rw [ha] at h
        cases h
        exact router.grounded_of_ask hne ha
      | error e =>
        rw [ha] at h
        exact grounded_of_askInTurn hne h

end AnalysisRouter

/-! ## The graph -/

omit [CharData] in
theorem isBlank_ofList_cons {c : Char} (hc : isSpace c = false) (rest : List Char) :
    isBlank (String.ofList (c :: rest)) = false := by
  have hstrip : strip (String.ofList (c :: rest)) = String.ofList (c :: rstrip rest) := by
    rw [strip, String.toList_ofList, show c :: rest = [] ++ c :: rest from rfl,
      lstrip_append hc, show lstrip [] = [] from rfl, rstrip_append hc]
    rfl
  refine Bool.eq_false_iff.mpr fun hblank => ?_
  rw [isBlank, hstrip, String.isEmpty_iff, String.ofList_eq_empty_iff] at hblank
  cases hblank

omit [CharData] in
theorem isBlank_validateResult (result : StructuredAnalysisResult) :
    isBlank (validateResult result).summary = false := by
  unfold validateResult
  split_ifs with h
  · exact isBlank_ofList_cons (by decide) _
  · exact Bool.eq_false_iff.mpr h

omit [CharData] in
/-- A new summary leaves the conclusions as they are. -/
theorem Grounded.validateResult {result : StructuredAnalysisResult}
    (h : Grounded w messages result) : Grounded w messages (validateResult result) := by
  unfold Orchestrator.validateResult
  split_ifs
  · exact ⟨h.window, h.claims, h.tasks, h.signals, h.signals_ne_nil⟩
  · exact h

/-- **Every conclusion of a command is tied to its window**, whatever the providers reply. -/
theorem projectionCommand_grounded (router : AnalysisRouter) (commandId : Ident)
    (input : AnalysisInput) {state : AnalysisState} (hne : input.messages ≠ [])
    (h : ainvoke router.analyze commandId input = .ok state) :
    Grounded state.projectionCommand.sourceWindowId state.projectionCommand.messages
        state.projectionCommand.result ∧
      isBlank state.projectionCommand.result.summary = false := by
  obtain ⟨reply, hreply, hstate⟩ := bind_eq_ok_iff.mp h
  cases hstate
  have hgrounded : Grounded input.sourceWindowId (normalizeMessages input.messages) reply :=
    router.grounded_of_askInTurn (normalizeMessages_ne_nil hne) hreply
  dsimp only [buildProjection]
  exact ⟨hgrounded.validateResult, isBlank_validateResult reply⟩

end Paths

/-- With the providers down, the heuristics analyse the window. -/
theorem projectionCommand_grounded_outOfOrder :
    let _ := basicCharData
    ∃ state, ainvoke silentRouter.analyze 3 (windowInput outOfOrder) = .ok state ∧
      Grounded state.projectionCommand.sourceWindowId state.projectionCommand.messages
        state.projectionCommand.result ∧
      isBlank state.projectionCommand.result.summary = false := by
  intro _
  have hactivity : (computeMessageFeatures (normalizeMessages outOfOrder)
      .private).authorActivity = [("1", 2)] := rfl
  obtain ⟨reply, hreply⟩ := (heuristicAnalysis_isOk_iff
    (senderCount_pos (normalizeMessages outOfOrder) .private) 2).mpr (by
      simp [HasDominantSender, senderCount, dominantCount, hactivity])
  have hanalyze : silentRouter.analyze 2 (normalizeMessages outOfOrder)
      (computeMessageFeatures (normalizeMessages outOfOrder) .private) = .ok reply := hreply
  have hstate : ∃ state, ainvoke silentRouter.analyze 3 (windowInput outOfOrder) = .ok state :=
    ⟨_, bind_eq_ok_iff.mpr ⟨reply, hanalyze, rfl⟩⟩
  obtain ⟨state, h⟩ := hstate
  have hne : (windowInput outOfOrder).messages ≠ [] := List.cons_ne_nil _ _
  exact ⟨state, h, projectionCommand_grounded silentRouter 3 (windowInput outOfOrder) hne h⟩

end Orchestrator
end PersonalIntelligence
