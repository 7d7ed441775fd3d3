import PersonalIntelligence.Orchestrator.ConsumerRuns
import Mathlib.Data.Prod.Lex

/-!
# Normalised windows

`normalize_window` sorts a window by time and id and keeps the first message of each id.
A window that is sorted and has each id once is `Normalized`.  Such a window is what the
function returns, and what it leaves alone (`normalizeMessages_eq_self_iff`).  It depends
on the messages and not on their order (`normalizeMessages_congr`), as long as messages
with the same time and id are the same message.

The graph analyses the normalised window, and `_run_analysis` announces the window it was
given.  So the two events of a window agree exactly if it was normalised already
(`published_agree_iff`).
-/

namespace PersonalIntelligence
namespace Orchestrator

open PyText Resumption

/-! ## The order of messages -/

/-- The sort key. -/
def sortKey (m : WindowMessagePayload) : ℤ ×ₗ ℤ := toLex (m.occurredAt, m.tgMessageId)

theorem chronological_iff {m m' : WindowMessagePayload} :
    chronological m m' ↔ sortKey m ≤ sortKey m' := by
  rw [sortKey, sortKey, Prod.Lex.toLex_le_toLex]
  rfl

instance : IsTrans WindowMessagePayload chronological where
  trans _ _ _ h h' :=
    chronological_iff.mpr ((chronological_iff.mp h).trans (chronological_iff.mp h'))

instance : Std.Total chronological where
  total m m' := (le_total (sortKey m) (sortKey m')).imp chronological_iff.mpr chronological_iff.mpr

theorem chronological_refl (m : WindowMessagePayload) : chronological m m :=
  chronological_iff.mpr (le_refl _)

theorem chronological.occurredAt_le {m m' : WindowMessagePayload} (h : chronological m m') :
    m.occurredAt ≤ m'.occurredAt := by
  rcases h with hlt | ⟨heq, -⟩
  · exact hlt.le
  · exact heq.le

/-- Messages that come before each other have the same key. -/
theorem chronological.antisymm {m m' : WindowMessagePayload} (h : chronological m m')
    (h' : chronological m' m) : m.occurredAt = m'.occurredAt ∧ m.tgMessageId = m'.tgMessageId := by
  have hkey : sortKey m = sortKey m' :=
    le_antisymm (chronological_iff.mp h) (chronological_iff.mp h')
  exact Prod.mk.injEq .. ▸ toLex.injective hkey

/-! ## The first message of each id -/

section Dedupe

variable {seen : List ℤ} {messages : List WindowMessagePayload} {m : WindowMessagePayload}

theorem dedupeSeen_cons_of_mem {rest : List WindowMessagePayload} (h : m.tgMessageId ∈ seen) :
    dedupeSeen seen (m :: rest) = dedupeSeen seen rest := by
  rw [dedupeSeen, if_pos h]

theorem dedupeSeen_cons_of_notMem {rest : List WindowMessagePayload} (h : m.tgMessageId ∉ seen) :
    dedupeSeen seen (m :: rest) = m :: dedupeSeen (m.tgMessageId :: seen) rest := by
  rw [dedupeSeen, if_neg h]

/-- The ids that are left. -/
theorem mem_map_dedupeSeen (seen : List ℤ) (messages : List WindowMessagePayload) (id : ℤ) :
    id ∈ (dedupeSeen seen messages).map (·.tgMessageId) ↔
      id ∈ messages.map (·.tgMessageId) ∧ id ∉ seen := by
  induction messages generalizing seen with
  | nil => simp [dedupeSeen]
  | cons m rest ih =>
    by_cases h : m.tgMessageId ∈ seen
    · rw [dedupeSeen_cons_of_mem h, ih, List.map_cons, List.mem_cons]
      refine and_congr_left fun hid => (or_iff_right ?_).symm
      rintro rfl
      exact hid h
    · rw [dedupeSeen_cons_of_notMem h, List.map_cons, List.map_cons, List.mem_cons, List.mem_cons,
        ih, List.mem_cons]
      by_cases heq : id = m.tgMessageId
      · subst heq
        simp [h]
      · simp [heq]

theorem notMem_of_mem_dedupeSeen (h : m ∈ dedupeSeen seen messages) : m.tgMessageId ∉ seen :=
  ((mem_map_dedupeSeen seen messages _).mp (List.mem_map_of_mem h)).2

/-- No id is left twice. -/
theorem nodup_dedupeSeen (seen : List ℤ) (messages : List WindowMessagePayload) :
    ((dedupeSeen seen messages).map (·.tgMessageId)).Nodup := by
  induction messages generalizing seen with
  | nil => exact List.nodup_nil
  | cons m rest ih =>
    by_cases h : m.tgMessageId ∈ seen
    · rw [dedupeSeen_cons_of_mem h]
      exact ih seen
    · rw [dedupeSeen_cons_of_notMem h, List.map_cons, List.nodup_cons]
      refine ⟨fun hmem => ?_, ih _⟩
      exact ((mem_map_dedupeSeen _ _ _).mp hmem).2 (List.mem_cons_self ..)

/-- Of sorted messages with one id, the first is left. -/
theorem chronological_of_mem_dedupeSeen (hsorted : messages.Pairwise chronological)
    (h : m ∈ dedupeSeen seen messages) {m' : WindowMessagePayload} (h' : m' ∈ messages)
    (hid : m.tgMessageId = m'.tgMessageId) : chronological m m' := by
  induction messages generalizing seen with
  | nil => cases h'
  | cons first rest ih =>
    obtain ⟨hfirst, hrest⟩ := List.pairwise_cons.mp hsorted
    by_cases hseen : first.tgMessageId ∈ seen
    · rw [dedupeSeen_cons_of_mem hseen] at h
      rcases List.mem_cons.mp h' with rfl | hlater
      · exact absurd (hid ▸ hseen) (notMem_of_mem_dedupeSeen h)
      · exact ih hrest h hlater
    · rw [dedupeSeen_cons_of_notMem hseen] at h
      rcases List.mem_cons.mp h with rfl | hleft
      · rcases List.mem_cons.mp h' with rfl | hlater
        · exact chronological_refl _
        · exact hfirst m' hlater
      · rcases List.mem_cons.mp h' with rfl | hlater
        · exact absurd (hid ▸ List.mem_cons_self ..) (notMem_of_mem_dedupeSeen hleft)
        · exact ih hrest hleft hlater

/-- What is left is the first message of its id. -/
theorem find?_of_mem_dedupeSeen (h : m ∈ dedupeSeen seen messages) :
    messages.find? (·.tgMessageId = m.tgMessageId) = some m := by
  induction messages generalizing seen with
  | nil => cases h
  | cons first rest ih =>
    by_cases hseen : first.tgMessageId ∈ seen
    · rw [dedupeSeen_cons_of_mem hseen] at h
      have hne : first.tgMessageId ≠ m.tgMessageId := fun heq =>
        notMem_of_mem_dedupeSeen h (heq ▸ hseen)
      rw [List.find?_cons_of_neg (by simpa using hne)]
      exact ih h
    · rw [dedupeSeen_cons_of_notMem hseen] at h
      rcases List.mem_cons.mp h with rfl | hleft
      · exact List.find?_cons_of_pos (decide_eq_true rfl)
      · have hne : first.tgMessageId ≠ m.tgMessageId := fun heq =>
          notMem_of_mem_dedupeSeen hleft (heq ▸ List.mem_cons_self ..)
        rw [List.find?_cons_of_neg (by simpa using hne)]
        exact ih hleft

end Dedupe

/-- Sorting leaves messages of one time and id in the order in which they came. -/
theorem filter_insertionSort (messages : List WindowMessagePayload) (key : ℤ ×ₗ ℤ) :
    (messages.insertionSort chronological).filter (sortKey · = key) =
      messages.filter (sortKey · = key) := by
  have hperm := List.perm_insertionSort chronological messages
  have hsame : (messages.filter (sortKey · = key)).Pairwise chronological := by
    refine List.pairwise_of_forall_mem_list fun m hm m' hm' => ?_
    have hkey : sortKey m = key := of_decide_eq_true (List.mem_filter.mp hm).2
    have hkey' : sortKey m' = key := of_decide_eq_true (List.mem_filter.mp hm').2
    exact chronological_iff.mpr (hkey.trans hkey'.symm).le
  have hsub := (List.sublist_insertionSort hsame List.filter_sublist).filter (sortKey · = key)
  simp only [List.filter_filter, Bool.and_self] at hsub
  exact (hsub.eq_of_length (hperm.filter _).length_eq.symm).symm

/-! ## Normalising -/

/-- The messages are in order, and no id occurs twice. -/
structure Normalized (messages : List WindowMessagePayload) : Prop where
  sorted : messages.Pairwise chronological
  distinct : (messages.map (·.tgMessageId)).Nodup

/-- `normalize_window`. -/
def normalizeWindow [CharData] (messages : List WindowMessagePayload) (chatType : ChatType) :
    List WindowMessagePayload × MessageFeatureSet :=
  (normalizeMessages messages, computeMessageFeatures (normalizeMessages messages) chatType)

section Normalize

variable {messages messages' : List WindowMessagePayload}

theorem normalized_normalizeMessages (messages : List WindowMessagePayload) :
    Normalized (normalizeMessages messages) where
  sorted := (List.pairwise_insertionSort chronological messages).sublist (dedupeSeen_sublist _ _)
  distinct := nodup_dedupeSeen _ _

theorem normalizeMessages_of_normalized (h : Normalized messages) :
    normalizeMessages messages = messages := by
  unfold normalizeMessages
  rw [h.sorted.insertionSort_eq]
  exact dedupeSeen_of_nodup h.distinct fun _ _ => List.not_mem_nil

/-- **The windows that normalising leaves alone.** -/
theorem normalizeMessages_eq_self_iff :
    normalizeMessages messages = messages ↔ Normalized messages :=
  ⟨fun h => h ▸ normalized_normalizeMessages messages, normalizeMessages_of_normalized⟩

theorem normalizeMessages_idem (messages : List WindowMessagePayload) :
    normalizeMessages (normalizeMessages messages) = normalizeMessages messages :=
  normalizeMessages_of_normalized (normalized_normalizeMessages messages)

theorem mem_map_normalizeMessages (messages : List WindowMessagePayload) (id : ℤ) :
    id ∈ (normalizeMessages messages).map (·.tgMessageId) ↔
      id ∈ messages.map (·.tgMessageId) := by
  unfold normalizeMessages
  rw [mem_map_dedupeSeen, and_iff_left List.not_mem_nil]
  exact ((List.perm_insertionSort chronological messages).map _).mem_iff

theorem normalizeMessages_ne_nil (h : messages ≠ []) : normalizeMessages messages ≠ [] := by
  obtain ⟨m, rest, rfl⟩ := List.exists_cons_of_ne_nil h
  have hmem := (mem_map_normalizeMessages (m :: rest) m.tgMessageId).mpr (List.mem_cons_self ..)
  exact fun hnil => List.not_mem_nil (hnil ▸ hmem)

/-- Of the messages with one id, the earliest is kept. -/
theorem occurredAt_le_of_mem_normalizeMessages {m m' : WindowMessagePayload}
    (h : m ∈ normalizeMessages messages) (h' : m' ∈ messages)
    (hid : m.tgMessageId = m'.tgMessageId) : m.occurredAt ≤ m'.occurredAt :=
  (chronological_of_mem_dedupeSeen (List.pairwise_insertionSort chronological messages) h
    ((List.mem_insertionSort chronological).mpr h') hid).occurredAt_le

/-- Of those that are equally early, the first is kept. -/
theorem find?_of_mem_normalizeMessages {m : WindowMessagePayload}
    (h : m ∈ normalizeMessages messages) : messages.find? (sortKey · = sortKey m) = some m := by
  have hfirst := find?_of_mem_dedupeSeen h
  rw [List.find?_eq_some_iff_append] at hfirst
  obtain ⟨-, earlier, later, hsplit, hearlier⟩ := hfirst
  have hsorted : (messages.insertionSort chronological).find? (sortKey · = sortKey m) = some m := by
    refine List.find?_eq_some_iff_append.mpr
      ⟨decide_eq_true rfl, earlier, later, hsplit, fun m' hm' => ?_⟩
    have hne := hearlier m' hm'
    rw [Bool.not_eq_true', decide_eq_false_iff_not] at hne ⊢
    exact fun hkey => hne (congrArg Prod.snd (toLex.injective hkey))
  rw [← List.head?_filter, ← filter_insertionSort, List.head?_filter]
  exact hsorted

/-- **Normalising is canonical.** -/
theorem normalizeMessages_congr (hperm : messages.Perm messages')
    (hkey : ∀ m ∈ messages, ∀ m' ∈ messages, m.occurredAt = m'.occurredAt →
      m.tgMessageId = m'.tgMessageId → m = m') :
    normalizeMessages messages = normalizeMessages messages' := by
  have hsort := List.perm_insertionSort chronological messages
  have hsort' := List.perm_insertionSort chronological messages'
  have heq : messages.insertionSort chronological = messages'.insertionSort chronological := by
    refine ((hsort.trans hperm).trans hsort'.symm).eq_of_pairwise (fun m m' hm hm' h h' => ?_)
      (List.pairwise_insertionSort ..) (List.pairwise_insertionSort ..)
    obtain ⟨htime, hid⟩ := h.antisymm h'
    exact hkey m (hsort.mem_iff.mp hm) m' (hperm.mem_iff.mpr (hsort'.mem_iff.mp hm')) htime hid
  unfold normalizeMessages
  rw [heq]

/-- What normalising promises: the result does not depend on the order of the messages, as
long as messages with the same time and id are the same; it has each id of the window once,
in order, with the earliest message of the id, of several the one that came first; and
normalising again changes nothing. -/
structure Canonical (normalize : List WindowMessagePayload → ChatType →
    List WindowMessagePayload × MessageFeatureSet) : Prop where
  congr : ∀ messages messages' chatType, messages.Perm messages' →
    (∀ m ∈ messages, ∀ m' ∈ messages, m.occurredAt = m'.occurredAt →
      m.tgMessageId = m'.tgMessageId → m = m') →
    normalize messages chatType = normalize messages' chatType
  distinct : ∀ messages chatType, ((normalize messages chatType).1.map (·.tgMessageId)).Nodup
  ids : ∀ messages chatType id, id ∈ (normalize messages chatType).1.map (·.tgMessageId) ↔
    id ∈ messages.map (·.tgMessageId)
  sorted : ∀ messages chatType, (normalize messages chatType).1.Pairwise chronological
  earliest : ∀ messages chatType, ∀ m ∈ (normalize messages chatType).1,
    (∀ m' ∈ messages, m.tgMessageId = m'.tgMessageId → m.occurredAt ≤ m'.occurredAt) ∧
      messages.find? (sortKey · = sortKey m) = some m
  idem : ∀ messages chatType,
    normalize (normalize messages chatType).1 chatType = normalize messages chatType

theorem canonical_normalizeWindow [CharData] : Canonical normalizeWindow where
  congr messages messages' chatType hperm hkey := by
    unfold normalizeWindow
    rw [normalizeMessages_congr hperm hkey]
  distinct messages _ := (normalized_normalizeMessages messages).distinct
  ids messages _ id := mem_map_normalizeMessages messages id
  sorted messages _ := (normalized_normalizeMessages messages).sorted
  earliest _ _ m hm := ⟨fun _ hm' hid => occurredAt_le_of_mem_normalizeMessages hm hm' hid,
    find?_of_mem_normalizeMessages hm⟩
  idem messages chatType := by
    unfold normalizeWindow
    rw [normalizeMessages_idem]

end Normalize

/-! ## The two events of a window -/

section Events

variable [CharData]

theorem Env.invoke_projectionCommand (env : Env) (s : World) (input : AnalysisInput) :
    (env.invoke s input).projectionCommand.messages = normalizeMessages input.messages := rfl

/-- A run of `_run_analysis` that returns has published every entry. -/
theorem log_of_exec_runAnalysis {env : Env} {input : AnalysisInput} {s s' : World}
    (h : exec env.run (runAnalysis input) s = (.ok (), s')) :
    s'.log = s.log ++ entries input (env.invoke s input) := by
  rw [runAnalysis_eq, await, exec_perform_bind] at h
  cases hfault : env.faults s.calls (.ainvoke input) with
  | true =>
    rw [env.run_error (s := s) rfl hfault] at h
    cases h
  | false =>
    rw [env.run_ainvoke_ok hfault, andThen_ok] at h
    rcases env.noFault_or_first s.draw.tick.calls ((entries input (env.invoke s input)).map .xadd) with
      hpub | ⟨before, c, after, hsplit, hpub, hc⟩
    · rw [exec_publish_ok env hpub] at h
      cases h
      rfl
    · obtain ⟨published, rest, hentries, rfl, hrest⟩ := List.map_eq_append_iff.mp hsplit
      obtain ⟨entry, later, rfl, rfl, -⟩ := List.map_eq_cons_iff.mp hrest
      rw [List.length_map] at hc
      rw [hentries, exec_publish_error env hpub hc] at h
      cases h

/-- Without failures it returns. -/
theorem exec_runAnalysis_of_calm (env : Env) (hcalm : ∀ n c, env.faults n c = false)
    (input : AnalysisInput) (s : World) :
    ∃ s', exec env.run (runAnalysis input) s = (.ok (), s') := by
  rw [runAnalysis_eq, await, exec_perform_bind, env.run_ainvoke_ok (hcalm _ _), andThen_ok,
    exec_publish_ok env (Env.noFault_of_forall hcalm _ _)]
  exact ⟨_, rfl⟩

/-- The announcement of a window agrees with its projection. -/
def Agree (chatType : ChatType) (event : TelegramPreprocessedEvent) (command : ProjectionCommand) :
    Prop :=
  event.messages = command.messages ∧
    event.features = computeMessageFeatures event.messages chatType

theorem agree_iff (env : Env) (s : World) (input : AnalysisInput) :
    Agree input.chatType (preprocessedEvent input (env.invoke s input))
        (env.invoke s input).projectionCommand ↔ Normalized input.messages := by
  have hfeatures : (preprocessedEvent input (env.invoke s input)).features =
      computeMessageFeatures (normalizeMessages input.messages) input.chatType := rfl
  have hmessages : (preprocessedEvent input (env.invoke s input)).messages = input.messages := rfl
  unfold Agree
  rw [hfeatures, hmessages, env.invoke_projectionCommand, ← normalizeMessages_eq_self_iff]
  constructor
  · exact fun h => h.1.symm
  · intro h
    exact ⟨h.symm, by rw [h]⟩

/-- **The two events of a window** agree exactly if it was passed on in order and with each
id once. -/
theorem published_agree_iff {env : Env} {input : AnalysisInput} {s s' : World}
    (h : exec env.run (runAnalysis input) s = (.ok (), s')) :
    ∃ event command, s'.preprocessed = s.preprocessed ++ [event] ∧
      s'.projections = s.projections ++ [command] ∧
      event.sourceWindowId = input.sourceWindowId ∧
      command.sourceWindowId = input.sourceWindowId ∧
      (Agree input.chatType event command ↔ Normalized input.messages) := by
  have hlog := log_of_exec_runAnalysis h
  refine ⟨preprocessedEvent input (env.invoke s input), (env.invoke s input).projectionCommand,
    ?_, ?_, rfl, rfl, agree_iff env s input⟩
  · rw [World.preprocessed, hlog, List.filterMap_append, entries_asPreprocessed]
    rfl
  · rw [World.projections, hlog, List.filterMap_append, entries_asProjection]
    rfl

end Events

/-- A window of these messages. -/
def windowInput (messages : List WindowMessagePayload) : AnalysisInput where
  sourceEventId := 1
  sourceWindowId := 2
  tgChatId := 7
  chatType := .private
  messages
  traceId := none

/-- Two messages, the later one first. -/
def outOfOrder : List WindowMessagePayload :=
  [{ tgMessageId := 2, tgSenderId := some 1, text := "b", occurredAt := seconds 1 },
   { tgMessageId := 1, tgSenderId := some 1, text := "a", occurredAt := 0 }]

theorem published_agree_iff_outOfOrder :
    let _ := basicCharData
    ∃ s', exec calmEnv.run (runAnalysis (windowInput outOfOrder)) {} = (.ok (), s') ∧
      ∃ event command, s'.preprocessed = [event] ∧ s'.projections = [command] ∧
        event.sourceWindowId = 2 ∧ command.sourceWindowId = 2 ∧
        (Agree .private event command ↔ Normalized outOfOrder) := by
  let _ := basicCharData
  obtain ⟨s', h⟩ := exec_runAnalysis_of_calm calmEnv (fun _ _ => rfl)
    (windowInput outOfOrder) {}
  exact ⟨s', h, published_agree_iff h⟩

/-- The announcement has the messages as they came, and the projection has them in order. -/
theorem not_agree_outOfOrder :
    let _ := basicCharData
    ∃ s', exec calmEnv.run (runAnalysis (windowInput outOfOrder)) {} = (.ok (), s') ∧
      ∃ event ∈ s'.preprocessed, ∃ command ∈ s'.projections,
        ¬ Agree .private event command := by
  let _ := basicCharData
  obtain ⟨s', h⟩ := exec_runAnalysis_of_calm calmEnv (fun _ _ => rfl)
    (windowInput outOfOrder) {}
  have hlog := log_of_exec_runAnalysis h
  have hsorted : ¬ Normalized outOfOrder := fun hn =>
    absurd (List.rel_of_pairwise_cons hn.sorted (List.mem_singleton_self _)) (by decide)
  refine ⟨s', h, _, ?_, _, ?_, (agree_iff calmEnv {} (windowInput outOfOrder)).not.mpr hsorted⟩
  · rw [World.preprocessed, hlog, List.filterMap_append, entries_asPreprocessed]
    exact List.mem_append_right _ (List.mem_singleton_self _)
  · rw [World.projections, hlog, List.filterMap_append, entries_asProjection]
    exact List.mem_append_right _ (List.mem_singleton_self _)

end Orchestrator
end PersonalIntelligence
