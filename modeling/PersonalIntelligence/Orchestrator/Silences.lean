import PersonalIntelligence.Library.Gaps
import PersonalIntelligence.Library.Runs
import PersonalIntelligence.Orchestrator.FlushFailures
import PersonalIntelligence.Orchestrator.Normalization

/-!
# Silences inside a window

`needs_rollover` compares a new message with the last one that was stored, and a window is
emitted in the order of time.  As long as messages arrive in that order a window has no
silence of `rolloverGap` inside; a message that arrives out of order is only stored without
one if it is close to some message that the window will keep.  That is the condition
`Env.Continues` on a delivery.  A run whose deliveries all meet it emits no command with a
long silence (`unbroken_of_continues`), and a delivery that does not meet it leaves one
behind (`World.Unbroken.continues`).
-/

namespace PersonalIntelligence
namespace Orchestrator

open PyText Resumption Gaps

/-- Any two messages after each other are less than `rolloverGap` apart. -/
def Unbroken (settings : Settings) (messages : List WindowMessagePayload) : Prop :=
  messages.IsChain fun m m' =>
    m'.occurredAt - m.occurredAt < rolloverGap settings.analysisTimeWindowMinutes

instance (settings : Settings) (messages : List WindowMessagePayload) :
    Decidable (Unbroken settings messages) := by
  unfold Unbroken
  infer_instance

theorem rolloverGap_pos (timeWindowMinutes : ℤ) : 0 < rolloverGap timeWindowMinutes := by
  unfold rolloverGap seconds
  omega

/-! ## The times of a window -/

/-- The times of the messages that `normalize_window` keeps. -/
def keptTimes (messages : List WindowMessagePayload) : List Timestamp :=
  (normalizeMessages messages).map (·.occurredAt)

section Times

variable {settings : Settings} {messages : List WindowMessagePayload}
  {payload : WindowMessagePayload}

theorem unbroken_normalizeMessages_iff : Unbroken settings (normalizeMessages messages) ↔
    Gapless (rolloverGap settings.analysisTimeWindowMinutes) (keptTimes messages) := by
  have hsorted : (keptTimes messages).Pairwise (· ≤ ·) :=
    List.pairwise_map.mpr ((normalized_normalizeMessages messages).sorted.imp
      chronological.occurredAt_le)
  rw [← isChain_iff_gapless (rolloverGap_pos _) hsorted, keptTimes, List.isChain_map]
  rfl

/-- A time is kept if it is the earliest of some message. -/
theorem mem_keptTimes {t : Timestamp} : t ∈ keptTimes messages ↔ ∃ m ∈ messages,
    m.occurredAt = t ∧ ∀ m' ∈ messages, m.tgMessageId = m'.tgMessageId →
      m.occurredAt ≤ m'.occurredAt := by
  constructor
  · intro h
    obtain ⟨m, hm, rfl⟩ := List.mem_map.mp h
    exact ⟨m, (normalizeMessages_subperm messages).subset hm, rfl,
      fun m' hm' hid => occurredAt_le_of_mem_normalizeMessages hm hm' hid⟩
  · rintro ⟨m, hm, rfl, hearliest⟩
    obtain ⟨kept, hkept, hid⟩ := List.mem_map.mp
      ((mem_map_normalizeMessages messages m.tgMessageId).mpr (List.mem_map_of_mem hm))
    have hle := hearliest kept ((normalizeMessages_subperm messages).subset hkept) hid.symm
    have hge := occurredAt_le_of_mem_normalizeMessages hkept hm hid
    exact List.mem_map.mpr ⟨kept, hkept, le_antisymm hge hle⟩

/-- A message with a new id adds its time. -/
theorem mem_keptTimes_append (hid : payload.tgMessageId ∉ messages.map (·.tgMessageId))
    {t : Timestamp} :
    t ∈ keptTimes (messages ++ [payload]) ↔ t = payload.occurredAt ∨ t ∈ keptTimes messages := by
  have hne : ∀ m ∈ messages, payload.tgMessageId ≠ m.tgMessageId := fun m hm heq =>
    hid (List.mem_map.mpr ⟨m, hm, heq.symm⟩)
  rw [mem_keptTimes, mem_keptTimes]
  constructor
  · rintro ⟨m, hm, rfl, hearliest⟩
    rcases List.mem_append.mp hm with hm | hm
    · exact .inr ⟨m, hm, rfl, fun m' hm' => hearliest m' (List.mem_append_left _ hm')⟩
    · exact .inl (congrArg (·.occurredAt) (List.mem_singleton.mp hm))
  · rintro (rfl | ⟨m, hm, rfl, hearliest⟩)
    · refine ⟨payload, List.mem_append_right _ (List.mem_singleton_self _), rfl,
        fun m' hm' heq => ?_⟩
      rcases List.mem_append.mp hm' with hm' | hm'
      · exact absurd heq (hne m' hm')
      · exact (congrArg (·.occurredAt) (List.mem_singleton.mp hm')).ge
    · refine ⟨m, List.mem_append_left _ hm, rfl, fun m' hm' heq => ?_⟩
      rcases List.mem_append.mp hm' with hm' | hm'
      · exact hearliest m' hm' heq
      · rw [List.mem_singleton.mp hm'] at heq
        exact absurd heq.symm (hne m hm)

/-- A copy that is not the earliest adds nothing. -/
theorem mem_keptTimes_append_copy {copy : WindowMessagePayload} (hcopy : copy ∈ messages)
    (hid : copy.tgMessageId = payload.tgMessageId) (hle : copy.occurredAt ≤ payload.occurredAt)
    {t : Timestamp} : t ∈ keptTimes (messages ++ [payload]) ↔ t ∈ keptTimes messages := by
  rw [mem_keptTimes, mem_keptTimes]
  constructor
  · rintro ⟨m, hm, rfl, hearliest⟩
    have hold : ∀ m' ∈ messages, m.tgMessageId = m'.tgMessageId → m.occurredAt ≤ m'.occurredAt :=
      fun m' hm' => hearliest m' (List.mem_append_left _ hm')
    rcases List.mem_append.mp hm with hm | hm
    · exact ⟨m, hm, rfl, hold⟩
    · rw [List.mem_singleton.mp hm] at hold ⊢
      have htime := le_antisymm hle (hold copy hcopy hid.symm)
      exact ⟨copy, hcopy, htime, fun m' hm' heq => htime.le.trans (hold m' hm' (hid.symm.trans heq))⟩
  · rintro ⟨m, hm, rfl, hearliest⟩
    refine ⟨m, List.mem_append_left _ hm, rfl, fun m' hm' heq => ?_⟩
    rcases List.mem_append.mp hm' with hm' | hm'
    · exact hearliest m' hm' heq
    · rw [List.mem_singleton.mp hm'] at heq ⊢
      exact (hearliest copy hcopy (heq.trans hid.symm)).trans hle

/-! ## A message more -/

/-- A message that has been stored does not break the silence: there is nothing to be close
to, it is a copy of one that is not later, or it is new and close to one that is kept. -/
def Joins (settings : Settings) (messages : List WindowMessagePayload)
    (payload : WindowMessagePayload) : Prop :=
  messages = [] ∨
    (∃ m ∈ messages, m.tgMessageId = payload.tgMessageId ∧ m.occurredAt ≤ payload.occurredAt) ∨
    (payload.tgMessageId ∉ messages.map (·.tgMessageId) ∧
      ∃ m ∈ normalizeMessages messages, |m.occurredAt - payload.occurredAt| <
        rolloverGap settings.analysisTimeWindowMinutes)

instance : Decidable (Joins settings messages payload) :=
  inferInstanceAs (Decidable (_ ∨ _ ∨ _ ∧ _))

theorem Joins.unbroken (h : Unbroken settings (normalizeMessages messages))
    (hjoins : Joins settings messages payload) :
    Unbroken settings (normalizeMessages (messages ++ [payload])) := by
  rw [unbroken_normalizeMessages_iff] at h ⊢
  by_cases hnil : messages = []
  · subst hnil
    intro x hx y hy hlt
    obtain ⟨m, hm, rfl, -⟩ := mem_keptTimes.mp hx
    obtain ⟨m', hm', rfl, -⟩ := mem_keptTimes.mp hy
    rw [List.mem_singleton.mp hm, List.mem_singleton.mp hm'] at hlt
    exact absurd hlt (lt_irrefl _)
  · rcases hjoins.resolve_left hnil with ⟨copy, hcopy, hid, hle⟩ | ⟨hfresh, m, hm, hclose⟩
    · exact h.congr fun t => mem_keptTimes_append_copy hcopy hid hle
    · have hne : keptTimes messages ≠ [] := fun heq =>
        normalizeMessages_ne_nil hnil (List.map_eq_nil_iff.mp heq)
      refine (h.insert_iff (rolloverGap_pos _) hne fun t => mem_keptTimes_append hfresh).mpr ?_
      exact ⟨m.occurredAt, List.mem_map_of_mem hm, hclose⟩

/-- A message that is not an earlier copy of a stored one has to join it. -/
theorem joins_of_unbroken (h : Unbroken settings (normalizeMessages messages))
    (hcopies : ∀ m ∈ messages, m.tgMessageId = payload.tgMessageId →
      m.occurredAt ≤ payload.occurredAt)
    (hafter : Unbroken settings (normalizeMessages (messages ++ [payload]))) :
    Joins settings messages payload := by
  by_cases hnil : messages = []
  · exact .inl hnil
  · by_cases hfresh : payload.tgMessageId ∈ messages.map (·.tgMessageId)
    · obtain ⟨m, hm, hid⟩ := List.mem_map.mp hfresh
      exact .inr (.inl ⟨m, hm, hid, hcopies m hm hid⟩)
    · rw [unbroken_normalizeMessages_iff] at h hafter
      have hne : keptTimes messages ≠ [] := fun heq =>
        normalizeMessages_ne_nil hnil (List.map_eq_nil_iff.mp heq)
      obtain ⟨t, ht, hclose⟩ := (h.insert_iff (rolloverGap_pos _) hne
        fun t => mem_keptTimes_append hfresh).mp hafter
      obtain ⟨m, hm, rfl⟩ := List.mem_map.mp ht
      exact .inr (.inr ⟨hfresh, m, hm, hclose⟩)

end Times

/-! ## Deliveries -/

/-- No command that has been emitted has a long silence inside, and no window would have. -/
structure World.Unbroken (settings : Settings) (s : World) : Prop where
  emitted : ∀ command ∈ s.projections, Orchestrator.Unbroken settings command.messages
  window : ∀ chat, Orchestrator.Unbroken settings (normalizeMessages (s.window chat))

/-- If the event is new and does not close the window, its message joins it. -/
def Env.Continues (env : Env) (settings : Settings) (s : World) (event : TelegramMessageEvent) :
    Prop :=
  s.isNew event → env.rollsOver settings s event = false →
    Joins settings (env.live s event.tgChatId) event.payload

instance (env : Env) (settings : Settings) (s : World) (event : TelegramMessageEvent) :
    Decidable (env.Continues settings s event) := inferInstanceAs (Decidable (_ ∧ _ → _ → _))

namespace World.Unbroken

variable {settings : Settings} {s s' : World}

theorem start (settings : Settings) : World.Unbroken settings {} where
  emitted _ h := absurd h List.not_mem_nil
  window _ := List.isChain_nil

theorem congr (h : s.Unbroken settings) (hwindow : s'.window = s.window) (hlog : s'.log = s.log) :
    s'.Unbroken settings := by
  obtain ⟨hemitted, hwindows⟩ := h
  unfold World.projections at hemitted
  rw [← hlog] at hemitted
  rw [← hwindow] at hwindows
  exact ⟨hemitted, hwindows⟩

theorem insertProcessed (h : s.Unbroken settings) (eventId : Ident) :
    (s.insertProcessed eventId).Unbroken settings :=
  h.congr (s.insertProcessed_window eventId) (s.insertProcessed_log eventId)

/-- What a flush would emit. -/
theorem live (h : s.Unbroken settings) (env : Env) (chat : ℤ) :
    Orchestrator.Unbroken settings (normalizeMessages (env.live s chat)) := by
  unfold Env.live
  split_ifs
  · exact List.isChain_nil
  · exact h.window chat

theorem stored (h : s.Unbroken settings) (env : Env) {chat : ℤ} {payload : WindowMessagePayload}
    (hjoins : Joins settings (env.live s chat) payload) :
    (env.stored settings s chat payload).Unbroken settings where
  emitted := h.emitted
  window := by
    intro other
    by_cases hother : other = chat
    · subst hother
      rw [Env.stored, World.setWindow_window]
      exact hjoins.unbroken (h.live env other)
    · rw [Env.stored, World.setWindow_window_of_ne _ _ _ _ hother]
      exact h.window other

variable [CharData] {env : Env}

/-- A flush emits the window. -/
theorem flushed (h : s.Unbroken settings) (request : FlushRequest) :
    (env.flushed s request).Unbroken settings where
  emitted := by
    intro command hcommand
    rw [projections_flushed] at hcommand
    rcases List.mem_append.mp hcommand with hold | hnew
    · exact h.emitted command hold
    · rw [List.mem_singleton.mp hnew]
      exact h.live env request.tgChatId
  window := by
    have hwindow : (env.flushed s request).window =
        Function.update s.window request.tgChatId [] := rfl
    intro chat
    rw [hwindow]
    by_cases hchat : chat = request.tgChatId
    · rw [hchat, Function.update_self]
      exact List.isChain_nil
    · rw [Function.update_of_ne hchat]
      exact h.window chat

/-- A flush that raises may have emitted it. -/
theorem flushRaised (h : s.Unbroken settings) {request : FlushRequest}
    (hraised : env.FlushRaised s request s') : s'.Unbroken settings := by
  obtain ⟨-, n, c, published, drawn, calls, -, hpub, -, rfl⟩ := hraised
  obtain ⟨commands, hcommands, hproj⟩ := projections_flushFailed env hpub drawn calls
  refine ⟨fun command hcommand => ?_, h.window⟩
  rw [hproj] at hcommand
  rcases List.mem_append.mp hcommand with hold | hnew
  · exact h.emitted command hold
  · rw [List.mem_singleton.mp (hcommands.subset hnew)]
    exact h.live env request.tgChatId

theorem finish (h : s.Unbroken settings) {event : TelegramMessageEvent}
    (hjoins : Joins settings (env.live s event.tgChatId) event.payload) :
    (env.finish settings s event).2.Unbroken settings := by
  have hstored := h.stored env hjoins
  rcases env.finish_cases settings s event with ⟨-, heq⟩ | ⟨-, heq | hraised⟩
  · rw [heq]
    exact hstored
  · rw [heq]
    exact hstored.flushed event.flushRequest
  · exact hstored.flushRaised hraised

/-- **A delivery that continues its window** leaves no silence. -/
theorem deliver (h : s.Unbroken settings) {event : TelegramMessageEvent}
    (hcontinues : env.Continues settings s event) :
    (env.deliver settings s event).Unbroken settings := by
  by_cases hnew : s.isNew event
  · have hmarked := h.insertProcessed event.eventId
    rcases env.deliver_cases settings hnew with ⟨-, hraised⟩ | ⟨s', hs', heq⟩
    · exact hmarked.flushRaised hraised
    · rw [heq]
      rcases hs' with ⟨-, -, rfl⟩ | ⟨hroll, rfl⟩
      · have hempty : (env.flushed (s.insertProcessed event.eventId) event.flushRequest).window
            event.tgChatId = [] := Function.update_self ..
        have hlive := env.live_sublist (env.flushed (s.insertProcessed event.eventId)
          event.flushRequest) event.tgChatId
        rw [hempty] at hlive
        exact (hmarked.flushed event.flushRequest).finish (.inl (List.sublist_nil.mp hlive))
      · rw [env.rollsOver_insertProcessed] at hroll
        refine hmarked.finish ?_
        rw [env.live_insertProcessed]
        exact hcontinues hnew hroll
  · rw [env.deliver_of_not_new settings hnew]
    exact h

/-- **A delivery that does not continue its window** leaves a silence, if all of its calls
succeed and its message is not an earlier copy of one that is stored. -/
theorem continues (hcalm : ∀ n c, env.faults n c = false) (h : s.Unbroken settings)
    {event : TelegramMessageEvent}
    (hcopies : ∀ m ∈ env.live s event.tgChatId, m.tgMessageId = event.tgMessageId →
      m.occurredAt ≤ event.payload.occurredAt)
    (hafter : (env.deliver settings s event).Unbroken settings) :
    env.Continues settings s event := by
  intro hnew hroll
  refine joins_of_unbroken (h.live env event.tgChatId) hcopies ?_
  rcases env.deliver_cases settings hnew with ⟨-, hfault, -⟩ | ⟨s', hs', heq⟩
  · exact absurd (Env.noFault_of_forall hcalm _ _) hfault
  · rw [heq] at hafter
    rcases hs' with ⟨hroll', -⟩ | ⟨-, rfl⟩
    · rw [env.rollsOver_insertProcessed, hroll] at hroll'
      cases hroll'
    · have hlive := env.live_stored settings (s.insertProcessed event.eventId) event.tgChatId
        event.payload
      rw [env.live_insertProcessed] at hlive
      rcases env.finish_cases settings (s.insertProcessed event.eventId) event with
        ⟨-, hfinish⟩ | ⟨-, hfinish | ⟨hfault, -⟩⟩
      · rw [hfinish] at hafter
        have hstored := hafter.live env event.tgChatId
        rwa [hlive] at hstored
      · -- the flush has emitted the window with the message
        rw [hfinish] at hafter
        have hemitted := hafter.emitted (env.flushCommand (env.stored settings
          (s.insertProcessed event.eventId) event.tgChatId event.payload) event.flushRequest) (by
            rw [projections_flushed]
            exact List.mem_append_right _ (List.mem_singleton_self _))
        rwa [env.flushCommand_messages, TelegramMessageEvent.flushRequest_tgChatId, hlive] at hemitted
      · exact absurd (Env.noFault_of_forall hcalm _ _) hfault

end World.Unbroken

/-! ## Runs -/

section Runs

variable [CharData]

/-- **No long silence in a command**, in a run whose deliveries all continue their windows. -/
theorem unbroken_of_continues (env : Env) (settings : Settings)
    (events : List TelegramMessageEvent)
    (hrun : Runs.Meets (env.deliver settings) (env.Continues settings) {} events) :
    ∀ handled, handled <+: events → ∀ command ∈ (env.deliverAll settings {} handled).projections,
      Unbroken settings command.messages := by
  intro handled hprefix
  have hunbroken := hrun.forall_prefix (I := World.Unbroken settings)
    (fun s event h => h.deliver) (World.Unbroken.start settings) handled hprefix
  exact hunbroken.emitted

end Runs

/-! ## A late message -/

/-- The message of two hours ago comes after the one of now. -/
def swappedEvents : List TelegramMessageEvent := lateEvents.reverse

theorem not_unbroken_swappedEvents :
    ¬ ∀ command ∈ (@Env.deliverAll calmEnv basicCharData { analysisWindowSize := 2 } {}
      swappedEvents).projections, Unbroken { analysisWindowSize := 2 } command.messages := by
  decide +kernel

/-- A message of half an hour ago comes after the one of now. -/
def slightlyLate : List TelegramMessageEvent :=
  [{ eventId := 1, occurredAt := seconds 1800, tgChatId := 7, tgMessageId := 2, text := some "b" },
   { eventId := 2, occurredAt := 0, tgChatId := 7, tgMessageId := 1, text := some "a" }]

theorem unbroken_of_continues_slightlyLate :
    Runs.Meets (@Env.deliver calmEnv basicCharData { analysisWindowSize := 2 })
        (Env.Continues calmEnv { analysisWindowSize := 2 }) {} slightlyLate ∧
      ∀ handled, handled <+: slightlyLate →
        ∀ command ∈ (@Env.deliverAll calmEnv basicCharData { analysisWindowSize := 2 } {}
          handled).projections, Unbroken { analysisWindowSize := 2 } command.messages := by
  have hmeets : Runs.Meets (@Env.deliver calmEnv basicCharData { analysisWindowSize := 2 })
      (Env.Continues calmEnv { analysisWindowSize := 2 }) {} slightlyLate := by decide
  exact ⟨hmeets, @unbroken_of_continues basicCharData calmEnv _ slightlyLate hmeets⟩

end Orchestrator
end PersonalIntelligence
