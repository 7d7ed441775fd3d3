import PersonalIntelligence.Orchestrator.FlushFailures
import PersonalIntelligence.Orchestrator.Normalization

/-!
# Messages that are handled again

The consumer knows an event by its id.  Of a message it knows nothing once the window of
the message is gone: two events for one message, and one event whose row in
`processed_event` is gone, are handled as two messages, and only two copies in one window
become one when the window is normalised.

So a message is analysed a second time if a copy of it is stored after the first one was
emitted.  That is the condition `Env.Repeats` on the stores and the next event, and a
delivery that does not meet it keeps `World.Once`: every message is in at most one
command, and in none as long as it is in a window.
-/

namespace PersonalIntelligence

/-- The command has the message. -/
def ProjectionCommand.Has (command : ProjectionCommand) (chat id : ℤ) : Prop :=
  command.tgChatId = chat ∧ id ∈ command.messages.map (·.tgMessageId)

instance (command : ProjectionCommand) (chat id : ℤ) : Decidable (command.Has chat id) :=
  inferInstanceAs (Decidable (_ ∧ _))

namespace Orchestrator

open PyText Resumption

/-- How many of the emitted commands have the message. -/
def World.emissions (s : World) (chat id : ℤ) : ℕ :=
  s.projections.countP fun command => decide (command.Has chat id)

/-- The message is in the list of its chat. -/
def Env.pending (env : Env) (s : World) (chat id : ℤ) : Prop :=
  id ∈ (env.live s chat).map (·.tgMessageId)

instance (env : Env) (s : World) (chat id : ℤ) : Decidable (env.pending s chat id) :=
  inferInstanceAs (Decidable (_ ∈ _))

/-- The event is new to the consumer, and its message is not: it has been emitted, or it
is in the window that is emitted before the event is stored. -/
def Env.Repeats (env : Env) (settings : Settings) (s : World) (event : TelegramMessageEvent) :
    Prop :=
  s.isNew event ∧ (s.emissions event.tgChatId event.tgMessageId ≠ 0 ∨
    (env.rollsOver settings s event = true ∧ env.pending s event.tgChatId event.tgMessageId))

instance (env : Env) (settings : Settings) (s : World) (event : TelegramMessageEvent) :
    Decidable (env.Repeats settings s event) := inferInstanceAs (Decidable ((_ ∧ _) ∧ (_ ∨ (_ ∧ _))))

/-- Every message has been emitted at most once, and no message of a window at all. -/
structure World.Once (s : World) : Prop where
  emitted : ∀ chat id, s.emissions chat id ≤ 1
  window : ∀ chat id, id ∈ (s.window chat).map (·.tgMessageId) → s.emissions chat id = 0

theorem World.once_start : ({} : World).Once where
  emitted _ _ := Nat.zero_le _
  window _ _ h := absurd h List.not_mem_nil

section Once

variable {s : World}

/-- The invariant is about the windows and the streams. -/
theorem World.Once.congr {s' : World} (h : s.Once) (hwindow : s'.window = s.window)
    (hlog : s'.log = s.log) : s'.Once := by
  have hemissions : s'.emissions = s.emissions := by
    unfold World.emissions World.projections
    rw [hlog]
  constructor
  · intro chat id
    rw [hemissions]
    exact h.emitted chat id
  · intro chat id hid
    rw [hemissions]
    rw [hwindow] at hid
    exact h.window chat id hid

theorem World.Once.insertProcessed (h : s.Once) (eventId : Ident) :
    (s.insertProcessed eventId).Once :=
  h.congr (s.insertProcessed_window eventId) (s.insertProcessed_log eventId)

/-- A message that no command has can be stored. -/
theorem World.Once.stored (h : s.Once) (env : Env) (settings : Settings) {chat : ℤ}
    {payload : WindowMessagePayload} (hfree : s.emissions chat payload.tgMessageId = 0) :
    (env.stored settings s chat payload).Once where
  emitted := h.emitted
  window := by
    intro chat' id hid
    change s.emissions chat' id = 0
    by_cases hchat : chat' = chat
    · subst hchat
      rw [Env.stored, World.setWindow_window, List.map_append, List.mem_append] at hid
      rcases hid with hold | hnew
      · exact h.window chat' id (((env.live_sublist s chat').map _).subset hold)
      · rw [List.mem_singleton.mp hnew]
        exact hfree
    · rw [Env.stored, World.setWindow_window_of_ne _ _ _ _ hchat] at hid
      exact h.window chat' id hid

variable [CharData] {env : Env}

/-- **A flush emits the messages of its window.** -/
theorem emissions_flushed (s : World) (request : FlushRequest) (chat id : ℤ) :
    (env.flushed s request).emissions chat id =
      s.emissions chat id +
        if request.tgChatId = chat ∧ env.pending s request.tgChatId id then 1 else 0 := by
  have hids : (env.flushCommand s request).Has chat id ↔
      request.tgChatId = chat ∧ env.pending s request.tgChatId id := by
    unfold ProjectionCommand.Has Env.pending
    rw [env.flushCommand_tgChatId, env.flushCommand_messages, mem_map_normalizeMessages]
  unfold World.emissions
  rw [projections_flushed, List.countP_append, List.countP_singleton]
  simp only [hids, decide_eq_true_eq]

theorem World.Once.flushed (h : s.Once) (request : FlushRequest) :
    (env.flushed s request).Once where
  emitted := by
    intro chat id
    rw [emissions_flushed]
    split_ifs with hin
    · obtain ⟨rfl, hpending⟩ := hin
      rw [h.window _ _ (((env.live_sublist s _).map _).subset hpending)]
    · exact h.emitted chat id
  window := by
    have hwindow : (env.flushed s request).window =
        Function.update s.window request.tgChatId [] := rfl
    intro chat id hid
    rw [hwindow] at hid
    by_cases hchat : chat = request.tgChatId
    · rw [hchat, Function.update_self] at hid
      exact absurd hid List.not_mem_nil
    · rw [Function.update_of_ne hchat] at hid
      rw [emissions_flushed, if_neg fun hin => hchat hin.1.symm]
      exact h.window chat id hid

/-- A flush with all its calls succeeding. -/
theorem World.Once.flushWindow (hcalm : ∀ n c, env.faults n c = false) (h : s.Once)
    (request : FlushRequest) : (exec env.run (flushWindow request) s).2.Once := by
  rcases flushWindow_cases env s request with ⟨-, hexec⟩ | ⟨-, -, hexec⟩ | ⟨-, hfault, -⟩
  · rw [hexec]
    exact h
  · rw [hexec]
    exact h.flushed request
  · exact absurd (Env.noFault_of_forall hcalm _ _) hfault

/-- Storing a message that no command has, and flushing the window if that fills it. -/
theorem World.Once.finish (hcalm : ∀ n c, env.faults n c = false) (h : s.Once)
    (settings : Settings) {event : TelegramMessageEvent}
    (hfree : s.emissions event.tgChatId event.tgMessageId = 0) :
    (env.finish settings s event).2.Once := by
  have hstored : (env.stored settings s event.tgChatId event.payload).Once :=
    h.stored env settings hfree
  rcases env.finish_cases settings s event with ⟨-, heq⟩ | ⟨-, heq | ⟨hfault, -⟩⟩
  · rw [heq]
    exact hstored
  · rw [heq]
    exact hstored.flushed event.flushRequest
  · exact absurd (Env.noFault_of_forall hcalm _ _) hfault

/-- **A delivery that does not repeat a message** keeps the invariant. -/
theorem World.Once.deliver (hcalm : ∀ n c, env.faults n c = false) (h : s.Once)
    (settings : Settings) {event : TelegramMessageEvent} (hnot : ¬ env.Repeats settings s event) :
    (env.deliver settings s event).Once := by
  by_cases hnew : s.isNew event
  · obtain ⟨hfree, hpending⟩ := not_or.mp fun hor => hnot ⟨hnew, hor⟩
    rw [ne_eq, not_not] at hfree
    have hmarked := h.insertProcessed event.eventId
    have hemissions : (s.insertProcessed event.eventId).emissions = s.emissions := by
      unfold World.emissions World.projections
      rw [World.insertProcessed_log]
    have hlive := env.live_insertProcessed s event.eventId
    rcases env.deliver_cases settings hnew with ⟨-, hfault, -⟩ | ⟨s', hs', heq⟩
    · exact absurd (Env.noFault_of_forall hcalm _ _) hfault
    · rw [heq]
      rcases hs' with ⟨hroll, -, rfl⟩ | ⟨-, rfl⟩
      · refine (hmarked.flushed event.flushRequest).finish hcalm settings ?_
        rw [emissions_flushed, hemissions, hfree, if_neg]
        rintro ⟨-, hin⟩
        unfold Env.pending at hin
        rw [hlive] at hin
        rw [env.rollsOver_insertProcessed] at hroll
        exact hpending ⟨hroll, hin⟩
      · refine hmarked.finish hcalm settings ?_
        rw [hemissions]
        exact hfree
  · rw [env.deliver_of_not_new settings hnew]
    exact h

/-! ## What becomes of a repeated message -/

/-- A flush with all its calls succeeding emits what is pending, and takes nothing back. -/
theorem emissions_flushWindow (hcalm : ∀ n c, env.faults n c = false) (s : World)
    (request : FlushRequest) (id : ℤ) :
    (exec env.run (flushWindow request) s).2.emissions request.tgChatId id =
      s.emissions request.tgChatId id + if env.pending s request.tgChatId id then 1 else 0 := by
  rcases flushWindow_cases env s request with ⟨hnil, hexec⟩ | ⟨-, -, hexec⟩ | ⟨-, hfault, -⟩
  · rw [hexec]
    simp [Env.pending, hnil]
  · rw [hexec]
    simp [emissions_flushed]
  · exact absurd (Env.noFault_of_forall hcalm _ _) hfault

/-- A stored message is emitted by the next flush of its chat at the latest. -/
theorem emissions_finish (hcalm : ∀ n c, env.faults n c = false) (settings : Settings) (s : World)
    (event : TelegramMessageEvent) {request : FlushRequest}
    (hrequest : request.tgChatId = event.tgChatId) :
    s.emissions event.tgChatId event.tgMessageId <
      (exec env.run (flushWindow request) (env.finish settings s event).2).2.emissions
        event.tgChatId event.tgMessageId := by
  have hpending : env.pending (env.stored settings s event.tgChatId event.payload) event.tgChatId
      event.tgMessageId := by
    simp [Env.pending, env.live_stored, TelegramMessageEvent.payload]
  have hsame : (env.stored settings s event.tgChatId event.payload).emissions = s.emissions := rfl
  have hflush := emissions_flushWindow hcalm (env.finish settings s event).2 request event.tgMessageId
  rw [hrequest] at hflush
  rw [hflush]
  rcases env.finish_cases settings s event with ⟨-, heq⟩ | ⟨-, heq | ⟨hfault, -⟩⟩
  · rw [heq, if_pos hpending, hsame]
    omega
  · rw [heq, emissions_flushed, if_pos ⟨rfl, hpending⟩, hsame]
    omega
  · exact absurd (Env.noFault_of_forall hcalm _ _) hfault

/-- **A delivery that repeats a message** has it emitted twice, once the window of its chat
is flushed. -/
theorem two_le_emissions_of_repeats (hcalm : ∀ n c, env.faults n c = false) {settings : Settings}
    {s : World} {event : TelegramMessageEvent} (h : env.Repeats settings s event)
    {request : FlushRequest} (hrequest : request.tgChatId = event.tgChatId) :
    2 ≤ (exec env.run (flushWindow request) (env.deliver settings s event)).2.emissions
      event.tgChatId event.tgMessageId := by
  obtain ⟨hnew, hcase⟩ := h
  obtain ⟨rows, hrows⟩ := s.insertProcessed_eq event.eventId
  rcases env.deliver_cases settings hnew with ⟨-, hfault, -⟩ | ⟨s', hs', heq⟩
  · exact absurd (Env.noFault_of_forall hcalm _ _) hfault
  have hbefore : 1 ≤ s'.emissions event.tgChatId event.tgMessageId := by
    rcases hs' with ⟨hroll, -, rfl⟩ | ⟨hroll, rfl⟩
    · rw [emissions_flushed, hrows]
      rcases hcase with hemitted | ⟨-, hpending⟩
      · exact Nat.le_add_right_of_le (Nat.one_le_iff_ne_zero.mpr hemitted)
      · rw [if_pos ⟨rfl, hpending⟩]
        omega
    · rw [env.rollsOver_insertProcessed] at hroll
      rcases hcase with hemitted | ⟨hroll', -⟩
      · rw [hrows]
        exact Nat.one_le_iff_ne_zero.mpr hemitted
      · rw [hroll'] at hroll
        cases hroll
  have hafter := emissions_finish hcalm settings s' event hrequest
  rw [heq]
  omega

end Once

end Orchestrator
end PersonalIntelligence
