import PersonalIntelligence.Orchestrator.ConsumerRuns
import PersonalIntelligence.Library.Contract
import PersonalIntelligence.Library.Runs
import Mathlib.Data.List.Nodup

/-!
# When a call of a flush raises

`run` catches whatever a handler raises and acknowledges the event, so a failed flush
is not repeated for the event that started it.  Two things are asked of the state it
leaves behind.

*Nothing is lost.*  A message whose event is marked processed should be in the window
of its chat or in a projection command.  The handler marks the event first and stores
the message last, with the flush of the old window in between; so a message is lost
exactly when that flush raises (`noLoss_iff`).  A flush of a full window may raise
without harm, since the message is in the window by then.

*Nothing is published twice.*  A flush that raises leaves its window, and the next
flush publishes the window again under a new id.  Every entry the failed flush had
published stays.  So the failures that do no harm are those before the first entry.
Whether a call raises matters only if the call is made: a run in which no later call of
a flush raises is a run of the environment in which no such call can (`Env.early`), and
there every event keeps what is wanted (`published_once`).

Both rest on `Sourced`, which holds whatever raises: windows and commands hold only
messages of events that have been handled.
-/

namespace PersonalIntelligence
namespace Orchestrator

open PyText Resumption

section Failures

variable [CharData] (env : Env)

/-! ## The command of a flush -/

/-- The command a flush publishes last. -/
def Env.flushCommand (s : World) (request : FlushRequest) : ProjectionCommand :=
  (env.invoke s.draw (env.flushInput s request)).projectionCommand

theorem Env.flushCommand_messages (s : World) (request : FlushRequest) :
    (env.flushCommand s request).messages = normalizeMessages (env.live s request.tgChatId) := rfl

theorem Env.flushCommand_tgChatId (s : World) (request : FlushRequest) :
    (env.flushCommand s request).tgChatId = request.tgChatId := rfl

theorem Env.flushEntries_asProjection (s : World) (request : FlushRequest) :
    (env.flushEntries s request).filterMap StreamEntry.asProjection =
      [env.flushCommand s request] := entries_asProjection _ _

theorem projections_flushed (s : World) (request : FlushRequest) :
    (env.flushed s request).projections = s.projections ++ [env.flushCommand s request] := by
  have hlog : (env.flushed s request).log = s.log ++ env.flushEntries s request := rfl
  unfold World.projections
  rw [hlog, List.filterMap_append, env.flushEntries_asProjection]

/-- A flush that raised may have published its command. -/
theorem projections_flushFailed {s : World} {request : FlushRequest}
    {published : List StreamEntry} (h : published <+: env.flushEntries s request)
    (drawn calls : ℕ) :
    ∃ commands, commands <+: [env.flushCommand s request] ∧
      (s.flushFailed published drawn calls).projections = s.projections ++ commands := by
  refine ⟨published.filterMap StreamEntry.asProjection, ?_, ?_⟩
  · rw [← env.flushEntries_asProjection]
    exact h.filterMap _
  · exact List.filterMap_append ..

/-! ## Where messages come from -/

/-- Windows and commands hold messages of handled events. -/
structure Sourced (s : World) (handled : List TelegramMessageEvent) : Prop where
  window : ∀ chat, (s.window chat).Sublist (acceptedMessages chat handled)
  projected : ∀ command ∈ s.projections,
    command.messages ⊆ acceptedMessages command.tgChatId handled

variable {env} {s : World} {handled : List TelegramMessageEvent}

omit [CharData] in
theorem Sourced.live (h : Sourced s handled) (env : Env) (chat : ℤ) :
    (env.live s chat).Sublist (acceptedMessages chat handled) := by
  unfold Env.live
  split_ifs
  · exact List.nil_sublist _
  · exact h.window chat

/-- The command of a flush is sourced, because the window is. -/
theorem Sourced.flushCommand (h : Sourced s handled) (request : FlushRequest) :
    (env.flushCommand s request).messages ⊆ acceptedMessages request.tgChatId handled :=
  fun _ hp => (h.live env request.tgChatId).subset ((normalizeMessages_subperm _).subset hp)

theorem Sourced.flushed (h : Sourced s handled) (request : FlushRequest) :
    Sourced (env.flushed s request) handled where
  window := by
    intro chat
    by_cases hchat : chat = request.tgChatId
    · subst hchat
      have hnil : (env.flushed s request).window request.tgChatId = [] := Function.update_self ..
      rw [hnil]
      exact List.nil_sublist _
    · have hsame : (env.flushed s request).window chat = s.window chat :=
        Function.update_of_ne hchat ..
      rw [hsame]
      exact h.window chat
  projected := by
    intro command hcommand
    rw [projections_flushed, List.mem_append, List.mem_singleton] at hcommand
    rcases hcommand with hold | rfl
    · exact h.projected command hold
    · exact h.flushCommand request

theorem Sourced.flushRaised (h : Sourced s handled) {request : FlushRequest} {s' : World}
    (hraised : env.FlushRaised s request s') : Sourced s' handled := by
  obtain ⟨-, n, c, published, drawn, calls, -, hpub, -, rfl⟩ := hraised
  obtain ⟨commands, hcommands, hproj⟩ := projections_flushFailed env hpub drawn calls
  refine ⟨h.window, ?_⟩
  intro command hcommand
  rw [hproj, List.mem_append] at hcommand
  rcases hcommand with hold | hnew
  · exact h.projected command hold
  · rw [List.mem_singleton.mp (hcommands.subset hnew)]
    exact h.flushCommand request

omit [CharData] in
theorem Sourced.insertProcessed (h : Sourced s handled) (eventId : Ident) :
    Sourced (s.insertProcessed eventId) handled := by
  obtain ⟨rows, heq⟩ := s.insertProcessed_eq eventId
  rw [heq]
  exact ⟨h.window, h.projected⟩

omit [CharData] in
theorem Sourced.append (h : Sourced s handled) (later : List TelegramMessageEvent) :
    Sourced s (handled ++ later) where
  window := by
    intro chat
    rw [acceptedMessages_append]
    exact (h.window chat).trans (List.sublist_append_left _ _)
  projected := by
    intro command hcommand
    rw [acceptedMessages_append]
    exact List.subset_append_of_subset_left _ (h.projected command hcommand)

omit [CharData] in
theorem Sourced.stored (h : Sourced s handled) (env : Env) (settings : Settings)
    {event : TelegramMessageEvent} (hacc : event.accepted = true) :
    Sourced (env.stored settings s event.tgChatId event.payload) (handled ++ [event]) where
  window := by
    intro chat
    rw [acceptedMessages_append]
    by_cases hchat : chat = event.tgChatId
    · subst hchat
      rw [acceptedMessages_singleton hacc, Env.stored, World.setWindow_window]
      exact (h.live env _).append (List.Sublist.refl _)
    · rw [Env.stored, World.setWindow_window_of_ne _ _ _ _ hchat]
      exact (h.window chat).trans (List.sublist_append_left _ _)
  projected := (h.append [event]).projected

/-- **One event**, whatever raises. -/
theorem Sourced.deliver (h : Sourced s handled) (settings : Settings)
    (event : TelegramMessageEvent) :
    Sourced (env.deliver settings s event) (handled ++ [event]) := by
  by_cases hnew : s.isNew event
  · have hmarked := h.insertProcessed event.eventId
    rcases env.deliver_cases settings hnew with ⟨-, hraised⟩ | ⟨s', hs', heq⟩
    · exact (hmarked.flushRaised hraised).append [event]
    · have hsourced : Sourced s' handled := by
        rcases hs' with ⟨-, -, rfl⟩ | ⟨-, rfl⟩
        · exact hmarked.flushed _
        · exact hmarked
      have hstored := hsourced.stored env settings hnew.1
      rw [heq]
      rcases env.finish_cases settings s' event with ⟨-, hfin⟩ | ⟨-, hfin | hfin⟩
      · rw [hfin]
        exact hstored
      · rw [hfin]
        exact hstored.flushed _
      · exact hstored.flushRaised hfin
  · rw [env.deliver_of_not_new settings hnew]
    exact h.append [event]

/-- **A sequence of events**, whatever raises. -/
theorem sourced_deliverAll (env : Env) (settings : Settings)
    (events : List TelegramMessageEvent) : Sourced (env.deliverAll settings {} events) events := by
  induction events using List.reverseRecOn with
  | nil =>
    constructor
    · exact fun chat => List.nil_sublist _
    · intro command hcommand
      simp [Env.deliverAll, World.projections] at hcommand
  | append_singleton events event ih =>
    rw [env.deliverAll_append]
    exact ih.deliver settings event

/-! ## Nothing is lost -/

/-- The message is in the window of the chat, or a command for the chat has it. -/
def World.Holds (s : World) (chat : ℤ) (payload : WindowMessagePayload) : Prop :=
  payload ∈ s.window chat ∨
    ∃ command ∈ s.projections, command.tgChatId = chat ∧ payload ∈ command.messages

/-- The message of every processed event is kept somewhere. -/
def NoLoss (s : World) (events : List TelegramMessageEvent) : Prop :=
  ∀ event ∈ events, event.accepted = true → s.isProcessed event.eventId = true →
    s.Holds event.tgChatId event.payload

/-- If handling the event starts with a flush of the old window, then no call of that
flush raises. -/
def Env.RolloverSucceeds (env : Env) (settings : Settings) (s : World)
    (event : TelegramMessageEvent) : Prop :=
  env.rollsOver settings s event = true →
    env.NoFault s.calls (env.flushCalls s event.flushRequest)

omit [CharData] in
theorem World.Holds.insertProcessed {chat : ℤ} {payload : WindowMessagePayload}
    (h : s.Holds chat payload) (id : Ident) : (s.insertProcessed id).Holds chat payload := by
  obtain ⟨rows, heq⟩ := s.insertProcessed_eq id
  rw [heq]
  exact h

/-- A flush that goes through moves the window into its command. -/
theorem World.Holds.flushed {chat : ℤ} {payload : WindowMessagePayload} {request : FlushRequest}
    (h : s.Holds chat payload) (hexp : env.expires = false)
    (hids : ((s.window request.tgChatId).map (·.tgMessageId)).Nodup) :
    (env.flushed s request).Holds chat payload := by
  have hlive : env.live s request.tgChatId = s.window request.tgChatId := by
    simp [Env.live, hexp]
  rcases h with hwindow | ⟨command, hcommand, hrest⟩
  · by_cases hchat : chat = request.tgChatId
    · subst hchat
      refine .inr ⟨env.flushCommand s request, ?_, env.flushCommand_tgChatId s request, ?_⟩
      · rw [projections_flushed]
        exact List.mem_append_right _ (List.mem_singleton_self _)
      · rw [env.flushCommand_messages, hlive]
        exact (normalizeMessages_perm hids).symm.subset hwindow
    · left
      have hsame : (env.flushed s request).window chat = s.window chat :=
        Function.update_of_ne hchat ..
      rwa [hsame]
  · refine .inr ⟨command, ?_, hrest⟩
    rw [projections_flushed]
    exact List.mem_append_left _ hcommand

/-- A flush that raised has taken nothing away. -/
theorem World.Holds.flushRaised {chat : ℤ} {payload : WindowMessagePayload} {s' : World}
    {request : FlushRequest} (h : s.Holds chat payload)
    (hraised : env.FlushRaised s request s') : s'.Holds chat payload := by
  obtain ⟨-, n, c, published, drawn, calls, -, hpub, -, rfl⟩ := hraised
  obtain ⟨commands, -, hproj⟩ := projections_flushFailed env hpub drawn calls
  rcases h with hwindow | ⟨command, hcommand, hrest⟩
  · exact .inl hwindow
  · refine .inr ⟨command, ?_, hrest⟩
    rw [hproj]
    exact List.mem_append_left _ hcommand

omit [CharData] in
theorem World.Holds.stored {chat : ℤ} {payload : WindowMessagePayload} (h : s.Holds chat payload)
    (hexp : env.expires = false) (settings : Settings) (event : TelegramMessageEvent) :
    (env.stored settings s event.tgChatId event.payload).Holds chat payload := by
  rcases h with hwindow | hcommand
  · left
    unfold Env.stored
    by_cases hchat : chat = event.tgChatId
    · subst hchat
      rw [World.setWindow_window]
      refine List.mem_append_left _ ?_
      simpa [Env.live, hexp] using hwindow
    · rwa [World.setWindow_window_of_ne _ _ _ _ hchat]
  · exact .inr hcommand

/-- No two events of a chat are about the same message. -/
def DistinctMessages (events : List TelegramMessageEvent) : Prop :=
  (events.map fun event => (event.tgChatId, event.tgMessageId)).Nodup

instance (events : List TelegramMessageEvent) : Decidable (DistinctMessages events) :=
  inferInstanceAs (Decidable (List.Nodup _))

omit [CharData] in
theorem DistinctMessages.acceptedMessages {events : List TelegramMessageEvent}
    (h : DistinctMessages events) (chat : ℤ) :
    ((acceptedMessages chat events).map (·.tgMessageId)).Nodup := by
  have hids : ((Orchestrator.acceptedMessages chat events).map (·.tgMessageId)) =
      (events.filter fun event => event.accepted && decide (event.tgChatId = chat)).map
        (·.tgMessageId) := by
    rw [Orchestrator.acceptedMessages, List.map_map]
    rfl
  rw [hids]
  have hsub := (h.sublist (List.filter_sublist.map _) :
    ((events.filter fun event => event.accepted && decide (event.tgChatId = chat)).map
      fun event => (event.tgChatId, event.tgMessageId)).Nodup)
  refine List.Nodup.of_map (fun id => (chat, id)) ?_
  rw [List.map_map]
  refine (congrArg List.Nodup (List.map_congr_left fun event hevent => ?_)).mp hsub
  have hchat := (List.mem_filter.mp hevent).2
  simp only [Bool.and_eq_true, decide_eq_true_eq] at hchat
  simp [hchat.2]

omit [CharData] in
/-- With distinct messages a window has distinct ids. -/
theorem Sourced.nodup_window (h : Sourced s handled) (hmsgs : DistinctMessages handled)
    (chat : ℤ) : ((s.window chat).map (·.tgMessageId)).Nodup :=
  (hmsgs.acceptedMessages chat).sublist ((h.window chat).map _)

/-- Storing an event keeps what was held and holds the event's own message. -/
theorem holds_finish (hexp : env.expires = false) (settings : Settings) (h : Sourced s handled)
    {event : TelegramMessageEvent} (hacc : event.accepted = true)
    (hmsgs : DistinctMessages (handled ++ [event])) :
    (env.finish settings s event).2.Holds event.tgChatId event.payload ∧
      ∀ chat payload, s.Holds chat payload →
        (env.finish settings s event).2.Holds chat payload := by
  have hnew : (env.stored settings s event.tgChatId event.payload).Holds event.tgChatId
      event.payload := by
    left
    rw [Env.stored, World.setWindow_window]
    exact List.mem_append_right _ (List.mem_singleton_self _)
  have hold : ∀ chat payload, s.Holds chat payload →
      (env.stored settings s event.tgChatId event.payload).Holds chat payload :=
    fun _ _ hp => hp.stored hexp settings event
  have hids := (h.stored env settings hacc).nodup_window hmsgs event.tgChatId
  rcases env.finish_cases settings s event with ⟨-, hfin⟩ | ⟨-, hfin | hfin⟩
  · rw [hfin]
    exact ⟨hnew, hold⟩
  · rw [hfin]
    exact ⟨hnew.flushed hexp hids, fun chat payload hp => (hold chat payload hp).flushed hexp hids⟩
  · exact ⟨hnew.flushRaised hfin, fun chat payload hp => (hold chat payload hp).flushRaised hfin⟩

/-- **One event that is not lost.** -/
theorem holds_deliver (hexp : env.expires = false) (settings : Settings) (h : Sourced s handled)
    {event : TelegramMessageEvent} (hnew : s.isNew event)
    (hmsgs : DistinctMessages (handled ++ [event]))
    (hroll : env.RolloverSucceeds settings s event) :
    (env.deliver settings s event).Holds event.tgChatId event.payload ∧
      ∀ chat payload, s.Holds chat payload →
        (env.deliver settings s event).Holds chat payload := by
  have hmarked := h.insertProcessed event.eventId
  rcases env.deliver_cases settings hnew with ⟨hdue, hfault, -⟩ | ⟨s', hs', heq⟩
  · rw [env.rollsOver_insertProcessed] at hdue
    rw [env.flushCalls_insertProcessed, World.insertProcessed_calls] at hfault
    exact absurd (hroll hdue) hfault
  · have hkept : Sourced s' handled ∧
        ∀ chat payload, s.Holds chat payload → s'.Holds chat payload := by
      rcases hs' with ⟨-, -, rfl⟩ | ⟨-, rfl⟩
      · refine ⟨hmarked.flushed _, fun chat payload hp => ?_⟩
        exact (hp.insertProcessed _).flushed hexp
          (hmarked.nodup_window (hmsgs.sublist (List.sublist_append_left _ _ |>.map _)) _)
      · exact ⟨hmarked, fun chat payload hp => hp.insertProcessed _⟩
    obtain ⟨hself, hold⟩ := holds_finish hexp settings hkept.1 hnew.1 hmsgs
    rw [heq]
    exact ⟨hself, fun chat payload hp => hold chat payload (hkept.2 chat payload hp)⟩

/-- **An event that is lost.**  If the flush of the old window raises, the message of
the event is nowhere. -/
theorem not_holds_deliver (settings : Settings) (h : Sourced s handled)
    {event : TelegramMessageEvent} (hnew : s.isNew event)
    (hmsgs : DistinctMessages (handled ++ [event]))
    (hroll : ¬ env.RolloverSucceeds settings s event) :
    ¬ (env.deliver settings s event).Holds event.tgChatId event.payload := by
  obtain ⟨hdue, hfault⟩ := Classical.not_imp.mp hroll
  have hmarked := h.insertProcessed event.eventId
  -- a message of an earlier event has another id
  have hother : event.payload ∉ acceptedMessages event.tgChatId handled := by
    intro hmem
    have hids := hmsgs.acceptedMessages event.tgChatId
    rw [acceptedMessages_append, acceptedMessages_singleton hnew.1, List.map_append,
      List.nodup_append] at hids
    exact hids.2.2 _ (List.mem_map_of_mem hmem) _ (List.mem_singleton_self _) rfl
  rcases env.deliver_cases settings hnew with ⟨-, hraised⟩ | ⟨s', hs', -⟩
  · have hsourced := hmarked.flushRaised hraised
    rintro (hwindow | ⟨command, hcommand, hchat, hmem⟩)
    · exact hother ((hsourced.window _).subset hwindow)
    · exact hother (hchat ▸ hsourced.projected command hcommand hmem)
  · rw [env.rollsOver_insertProcessed, env.flushCalls_insertProcessed] at hs'
    rcases hs' with ⟨-, hno, -⟩ | ⟨hno, -⟩
    · exact absurd hno hfault
    · rw [hdue] at hno
      cases hno

/-- An accepted event is new when its turn comes. -/
theorem isNew_deliverAll (env : Env) (settings : Settings) {before after : List TelegramMessageEvent}
    {event : TelegramMessageEvent}
    (hids : ((before ++ event :: after).map (·.eventId)).Nodup) (hacc : event.accepted = true) :
    (env.deliverAll settings {} before).isNew event := by
  refine ⟨hacc, ?_⟩
  rw [Bool.eq_false_iff, ne_eq, env.isProcessed_deliverAll]
  rintro ⟨other, hother, -, hid⟩
  rw [List.map_append, List.map_cons, List.nodup_append] at hids
  exact hids.2.2 _ (List.mem_map_of_mem hother) _ (List.mem_cons_self ..) hid

omit [CharData] in
theorem DistinctMessages.upTo {before after : List TelegramMessageEvent}
    {event : TelegramMessageEvent} (hmsgs : DistinctMessages (before ++ event :: after)) :
    DistinctMessages (before ++ [event]) := by
  refine hmsgs.sublist (List.Sublist.map _ ?_)
  exact List.Sublist.append_left (List.singleton_sublist.mpr (List.mem_cons_self ..)) before

/-- **A run that loses nothing**: as long as every flush of an old window goes through, the
message of every accepted event is somewhere. -/
theorem holds_deliverAll (hexp : env.expires = false) (settings : Settings)
    {events : List TelegramMessageEvent} (hids : (events.map (·.eventId)).Nodup)
    (hmsgs : DistinctMessages events)
    (hroll : ∀ before event after, events = before ++ event :: after → event.accepted = true →
      env.RolloverSucceeds settings (env.deliverAll settings {} before) event)
    (before after : List TelegramMessageEvent) (heq : events = before ++ after) :
    ∀ event ∈ before, event.accepted = true →
      (env.deliverAll settings {} before).Holds event.tgChatId event.payload := by
  induction before using List.reverseRecOn generalizing after with
  | nil => simp
  | append_singleton before last ih =>
    intro event hevent hacc
    have heq' : events = before ++ last :: after := by rw [heq, List.append_assoc]; rfl
    rw [env.deliverAll_append]
    by_cases hlast : last.accepted = true
    · obtain ⟨hself, hold⟩ := holds_deliver hexp settings
        (sourced_deliverAll env settings before)
        (isNew_deliverAll env settings (heq' ▸ hids) hlast)
        (DistinctMessages.upTo (heq' ▸ hmsgs)) (hroll before last after heq' hlast)
      rcases List.mem_append.mp hevent with hbefore | hself'
      · exact hold _ _ (ih _ heq' event hbefore hacc)
      · rw [List.mem_singleton.mp hself']
        exact hself
    · rw [env.deliver_of_not_new settings fun h => hlast h.1]
      rcases List.mem_append.mp hevent with hbefore | hself'
      · exact ih _ heq' event hbefore hacc
      · rw [List.mem_singleton.mp hself'] at hacc
        exact absurd hacc hlast

/-- **When no message is lost.**  Take any events with distinct ids and distinct
messages, any settings and any assignment of failures, and let no key expire.  Nothing
is lost at any state between two events exactly when, at every accepted event, the
flush of the old window, if there is one, goes through. -/
theorem noLoss_iff (hexp : env.expires = false) (settings : Settings)
    {events : List TelegramMessageEvent} (hids : (events.map (·.eventId)).Nodup)
    (hmsgs : DistinctMessages events) :
    (∀ before after, events = before ++ after →
        NoLoss (env.deliverAll settings {} before) events) ↔
      ∀ before event after, events = before ++ event :: after → event.accepted = true →
        env.RolloverSucceeds settings (env.deliverAll settings {} before) event := by
  constructor
  · intro hno before event after heq hacc
    by_contra hroll
    have hlost := not_holds_deliver settings (sourced_deliverAll env settings before)
      (isNew_deliverAll env settings (heq ▸ hids) hacc) (DistinctMessages.upTo (heq ▸ hmsgs)) hroll
    have hstate := hno (before ++ [event]) after (by rw [heq, List.append_assoc]; rfl)
    rw [env.deliverAll_append] at hstate
    refine hlost (hstate event ?_ hacc ?_)
    · rw [heq]
      exact List.mem_append_right _ (List.mem_cons_self ..)
    · rw [env.isProcessed_deliver]
      exact .inl ⟨hacc, rfl⟩
  · intro hroll before after heq event hevent hacc hproc
    obtain ⟨other, hother, -, hid⟩ := (env.isProcessed_deliverAll settings before _).mp hproc
    have hsame : other = event := by
      refine List.inj_on_of_nodup_map hids ?_ hevent hid
      rw [heq]
      exact List.mem_append_left _ hother
    exact holds_deliverAll hexp settings hids hmsgs hroll before after heq event (hsame ▸ hother)
      hacc

/-! ## Nothing is published twice -/

/-- In this environment only the analysis and the first publication of a flush raise. -/
def Env.FailsEarly (env : Env) : Prop := ∀ n c, env.faults n c = true → c.opensFlush = true

/-- A message that two windows of a chat have in common belongs to two events. -/
def PublishedOnce (s : World) (events : List TelegramMessageEvent) : Prop :=
  ∀ command ∈ s.projections, ∀ command' ∈ s.projections,
    command.sourceWindowId ≠ command'.sourceWindowId → command.tgChatId = command'.tgChatId →
    ∀ payload ∈ command.messages, payload ∈ command'.messages →
      ∃ event ∈ events, ∃ event' ∈ events, event ≠ event' ∧
        (event.tgChatId = command.tgChatId ∧ event.payload = payload) ∧
        event'.tgChatId = command.tgChatId ∧ event'.payload = payload

/-- Every window that an entry names has its command. -/
def WindowsProjected (s : World) : Prop :=
  ∀ entry ∈ s.log, ∃ command ∈ s.projections, command.sourceWindowId = entry.sourceWindowId

/-- The messages in the commands for a chat. -/
def World.projected (s : World) (chat : ℤ) : List WindowMessagePayload :=
  (s.projections.filter (·.tgChatId = chat)).flatMap (·.messages)

/-- No message is in the commands and the window of its chat more often than it was
accepted. -/
def AtMostOnce (s : World) (handled : List TelegramMessageEvent) : Prop :=
  ∀ chat payload, (s.projected chat).count payload + (s.window chat).count payload ≤
    (acceptedMessages chat handled).count payload

theorem AtMostOnce.flushed (h : AtMostOnce s handled) (request : FlushRequest) :
    AtMostOnce (env.flushed s request) handled := by
  intro chat payload
  have hold := h chat payload
  unfold World.projected at hold ⊢
  rw [projections_flushed, List.filter_append, List.flatMap_append, List.count_append]
  by_cases hchat : chat = request.tgChatId
  · subst hchat
    have hnil : (env.flushed s request).window request.tgChatId = [] := Function.update_self ..
    have hmoved : (env.flushCommand s request).messages.count payload ≤
        (s.window request.tgChatId).count payload := by
      rw [env.flushCommand_messages]
      exact ((normalizeMessages_subperm _).count_le payload).trans
        ((env.live_sublist s _).count_le payload)
    rw [hnil, List.filter_cons_of_pos (by simp [env.flushCommand_tgChatId])]
    simp only [List.filter_nil, List.flatMap_singleton, List.count_nil, Nat.add_zero]
    exact (Nat.add_le_add_left hmoved _).trans hold
  · have hsame : (env.flushed s request).window chat = s.window chat :=
      Function.update_of_ne hchat ..
    rw [hsame, List.filter_cons_of_neg (by simp [env.flushCommand_tgChatId, Ne.symm hchat])]
    simpa using hold

omit [CharData] in
theorem AtMostOnce.stored (h : AtMostOnce s handled) (settings : Settings)
    {event : TelegramMessageEvent} (hacc : event.accepted = true) :
    AtMostOnce (env.stored settings s event.tgChatId event.payload) (handled ++ [event]) := by
  intro chat payload
  have hold := h chat payload
  have hproj : (env.stored settings s event.tgChatId event.payload).projected = s.projected := rfl
  rw [hproj, acceptedMessages_append, List.count_append, Env.stored]
  by_cases hchat : chat = event.tgChatId
  · subst hchat
    have hlive := (env.live_sublist s event.tgChatId).count_le payload
    rw [World.setWindow_window, acceptedMessages_singleton hacc, List.count_append]
    omega
  · rw [World.setWindow_window_of_ne _ _ _ _ hchat]
    omega

omit [CharData] in
theorem AtMostOnce.append (h : AtMostOnce s handled) (later : List TelegramMessageEvent) :
    AtMostOnce s (handled ++ later) := by
  intro chat payload
  rw [acceptedMessages_append, List.count_append]
  exact (h chat payload).trans (Nat.le_add_right _ _)

/-- A failure before the first entry leaves the streams and the windows as they were. -/
theorem Env.FailsEarly.of_flushRaised (hearly : env.FailsEarly) {request : FlushRequest}
    {s' : World} (hraised : env.FlushRaised s request s') :
    s'.log = s.log ∧ s'.window = s.window := by
  obtain ⟨-, n, c, published, drawn, calls, hc, -, hopens, rfl⟩ := hraised
  refine ⟨?_, rfl⟩
  rw [World.flushFailed, hopens (hearly n c hc), List.append_nil]

/-- Both properties as one: what each step of a run keeps. -/
structure Orderly (s : World) (handled : List TelegramMessageEvent) : Prop where
  once : AtMostOnce s handled
  projected : WindowsProjected s

omit [CharData] in
theorem Orderly.congr {s' : World} (h : Orderly s handled) (hlog : s'.log = s.log)
    (hwindow : s'.window = s.window) : Orderly s' handled := by
  obtain ⟨honce, hproj⟩ := h
  unfold AtMostOnce WindowsProjected World.projected World.projections at *
  rw [← hlog] at honce hproj
  rw [← hwindow] at honce
  exact ⟨honce, hproj⟩

/-- The entries of a flush name the window of its command. -/
theorem sourceWindowId_of_mem_flushEntries {request : FlushRequest} {entry : StreamEntry}
    (h : entry ∈ env.flushEntries s request) :
    (env.flushCommand s request).sourceWindowId = entry.sourceWindowId := by
  simp only [Env.flushEntries, entries, List.cons_append, List.mem_append, List.mem_cons,
    List.mem_map, List.not_mem_nil, or_false] at h
  rcases h with rfl | rfl | ⟨_, -, rfl⟩ | rfl <;> rfl

theorem Orderly.flushed (h : Orderly s handled) (request : FlushRequest) :
    Orderly (env.flushed s request) handled where
  once := h.once.flushed request
  projected := by
    intro entry hentry
    have hlog : (env.flushed s request).log = s.log ++ env.flushEntries s request := rfl
    rw [hlog, List.mem_append] at hentry
    rw [projections_flushed]
    rcases hentry with hold | hnew
    · obtain ⟨command, hcommand, hid⟩ := h.projected entry hold
      exact ⟨command, List.mem_append_left _ hcommand, hid⟩
    · exact ⟨_, List.mem_append_right _ (List.mem_singleton_self _),
        sourceWindowId_of_mem_flushEntries hnew⟩

/-- **One event**, when flushes fail early. -/
theorem Orderly.deliver (h : Orderly s handled) (hearly : env.FailsEarly) (settings : Settings)
    (event : TelegramMessageEvent) :
    Orderly (env.deliver settings s event) (handled ++ [event]) := by
  by_cases hnew : s.isNew event
  · have hmarked : Orderly (s.insertProcessed event.eventId) handled :=
      h.congr (s.insertProcessed_log _) (s.insertProcessed_window _)
    rcases env.deliver_cases settings hnew with ⟨-, hraised⟩ | ⟨s', hs', heq⟩
    · obtain ⟨hlog, hwindow⟩ := hearly.of_flushRaised hraised
      have hkept := hmarked.congr hlog hwindow
      exact ⟨hkept.once.append [event], hkept.projected⟩
    · have horderly : Orderly s' handled := by
        rcases hs' with ⟨-, -, rfl⟩ | ⟨-, rfl⟩
        · exact hmarked.flushed _
        · exact hmarked
      have hstored : Orderly (env.stored settings s' event.tgChatId event.payload)
          (handled ++ [event]) := ⟨horderly.once.stored settings hnew.1, horderly.projected⟩
      rw [heq]
      rcases env.finish_cases settings s' event with ⟨-, hfin⟩ | ⟨-, hfin | hfin⟩
      · rw [hfin]
        exact hstored
      · rw [hfin]
        exact hstored.flushed _
      · obtain ⟨hlog, hwindow⟩ := hearly.of_flushRaised hfin
        exact hstored.congr hlog hwindow
  · rw [env.deliver_of_not_new settings hnew]
    exact ⟨h.once.append [event], h.projected⟩

/-- **A sequence of events**, when flushes fail early. -/
theorem orderly_deliverAll (hearly : env.FailsEarly) (settings : Settings)
    (events : List TelegramMessageEvent) : Orderly (env.deliverAll settings {} events) events := by
  induction events using List.reverseRecOn with
  | nil =>
    constructor
    · intro chat payload
      simp [Env.deliverAll, World.projected, World.projections]
    · intro entry hentry
      simp [Env.deliverAll] at hentry
  | append_singleton events event ih =>
    rw [env.deliverAll_append]
    exact ih.deliver hearly settings event

omit [CharData] in
/-- Two commands that share a message count it twice. -/
theorem two_le_count_projected {command command' : ProjectionCommand}
    (h : command ∈ s.projections) (h' : command' ∈ s.projections) (hne : command ≠ command')
    (hchat : command.tgChatId = command'.tgChatId) {payload : WindowMessagePayload}
    (hp : payload ∈ command.messages) (hp' : payload ∈ command'.messages) :
    2 ≤ (s.projected command.tgChatId).count payload := by
  have hmem : command ∈ s.projections.filter (·.tgChatId = command.tgChatId) :=
    List.mem_filter.mpr ⟨h, by simp⟩
  have hmem' : command' ∈ s.projections.filter (·.tgChatId = command.tgChatId) :=
    List.mem_filter.mpr ⟨h', by simp [hchat]⟩
  unfold World.projected
  obtain ⟨before, after, heq⟩ := List.append_of_mem hmem
  rw [heq] at hmem' ⊢
  have hpos := List.count_pos_iff.mpr hp
  rw [List.flatMap_append, List.flatMap_cons, List.count_append, List.count_append]
  rcases List.mem_append.mp hmem' with hb | ha
  · have hpos' : 0 < (before.flatMap (·.messages)).count payload :=
      List.count_pos_iff.mpr (List.mem_flatMap.mpr ⟨command', hb, hp'⟩)
    omega
  · have ha' := (List.mem_cons.mp ha).resolve_left (Ne.symm hne)
    have hpos' : 0 < (after.flatMap (·.messages)).count payload :=
      List.count_pos_iff.mpr (List.mem_flatMap.mpr ⟨command', ha', hp'⟩)
    omega

omit [CharData] in
/-- A message accepted twice belongs to two events. -/
theorem exists_two_events {events : List TelegramMessageEvent}
    (hids : (events.map (·.eventId)).Nodup) {chat : ℤ} {payload : WindowMessagePayload}
    (h : 2 ≤ (acceptedMessages chat events).count payload) :
    ∃ event ∈ events, ∃ event' ∈ events, event ≠ event' ∧
      (event.tgChatId = chat ∧ event.payload = payload) ∧
      event'.tgChatId = chat ∧ event'.payload = payload := by
  let having := events.filter fun event =>
    (event.accepted && decide (event.tgChatId = chat)) && decide (event.payload = payload)
  have hlen : 2 ≤ having.length := by
    refine h.trans (le_of_eq ?_)
    rw [acceptedMessages, List.count_eq_countP, List.countP_map, List.countP_eq_length_filter,
      List.filter_filter]
    refine congrArg List.length (List.filter_congr fun event _ => ?_)
    simp [Bool.and_comm, beq_eq_decide]
  have hnodup : having.Nodup := (List.Nodup.of_map _ hids).filter _
  have hmem : ∀ event ∈ having, event ∈ events ∧ event.tgChatId = chat ∧
      event.payload = payload := by
    intro event hevent
    obtain ⟨hin, hprop⟩ := List.mem_filter.mp hevent
    simp only [Bool.and_eq_true, decide_eq_true_eq] at hprop
    exact ⟨hin, hprop.1.2, hprop.2⟩
  obtain ⟨event, event', rest, heq⟩ : ∃ event event' rest, having = event :: event' :: rest := by
    rcases having with _ | ⟨event, _ | ⟨event', rest⟩⟩
    · simp at hlen
    · simp at hlen
    · exact ⟨event, event', rest, rfl⟩
  rw [heq] at hnodup hmem
  obtain ⟨hin, hprop⟩ := hmem event (by simp)
  obtain ⟨hin', hprop'⟩ := hmem event' (by simp)
  refine ⟨event, hin, event', hin', fun hsame => ?_, hprop, hprop'⟩
  rw [hsame] at hnodup
  simp at hnodup

/-- As long as only early calls raise in an environment, what is published is published
once. -/
theorem published_of_failsEarly (hearly : env.FailsEarly) (settings : Settings)
    {events : List TelegramMessageEvent} (hids : (events.map (·.eventId)).Nodup) :
    PublishedOnce (env.deliverAll settings {} events) events ∧
      WindowsProjected (env.deliverAll settings {} events) := by
  obtain ⟨honce, hproj⟩ := orderly_deliverAll hearly settings events
  refine ⟨?_, hproj⟩
  intro command h command' h' hne hchat payload hp hp'
  have htwo := two_le_count_projected h h' (fun heq => hne (congrArg _ heq)) hchat hp hp'
  exact exists_two_events hids
    ((htwo.trans (Nat.le_add_right _ _)).trans (honce command.tgChatId payload))

/-! ## Failures of a run

A failure that is never met says nothing about a run, so the condition is on the calls
that the handler of each event makes.  A run that meets it is a run of the environment
in which the other calls of a flush do not raise at all. -/

/-- Of the calls made for the event, none raises but the analysis and the first
publication of a flush. -/
def Env.RaisesEarly (env : Env) (settings : Settings) (s : World)
    (event : TelegramMessageEvent) : Prop :=
  ¬ (handleMessage settings event).Raised env.run (fun c => c.opensFlush = false) s

instance (env : Env) (settings : Settings) (s : World) (event : TelegramMessageEvent) :
    Decidable (env.RaisesEarly settings s event) := inferInstanceAs (Decidable (¬ _))

/-- The environment in which only the analysis and the first publication raise. -/
def Env.early (env : Env) : Env :=
  { env with faults := fun n c => env.faults n c && c.opensFlush }

omit [CharData] in
theorem Env.failsEarly_early (env : Env) : env.early.FailsEarly :=
  fun _ _ h => (Bool.and_eq_true_iff.mp h).2

/-- The two environments differ where a late call raises. -/
theorem Env.run_early (env : Env) (c : Cmd) (s : World) :
    env.run c s = env.early.run c s ∨
      (c.opensFlush = false ∧ ∃ e, (env.run c s).1 = .error e) := by
  have hsame : env.faults s.calls c = env.early.faults s.calls c →
      env.run c s = env.early.run c s := by
    intro h
    cases c <;> simp only [Env.run, Env.fallible, h] <;> rfl
  cases hopens : c.opensFlush with
  | true => exact .inl (hsame (by simp [Env.early, hopens]))
  | false =>
    cases hfault : env.faults s.calls c with
    | false => exact .inl (hsame (by simp [Env.early, hfault]))
    | true =>
      cases hmay : c.mayRaise with
      | true => exact .inr ⟨rfl, .callFailed, by rw [env.run_error hmay hfault]⟩
      | false =>
        refine .inl ?_
        cases c <;> first | rfl | cases hmay

theorem Env.RaisesEarly.deliver {settings : Settings} {event : TelegramMessageEvent}
    (h : env.RaisesEarly settings s event) :
    env.deliver settings s event = env.early.deliver settings s event := by
  rw [env.deliver_eq, env.early.deliver_eq, exec_congr_of_not_raised env.run_early h]

/-- **When windows are published once.**  Take any events with distinct ids, any settings
and any failures, and let no call of a flush that is made raise, except for analyses and
first publications.  Then at every state between two events, a message that two windows
have in common belongs to two events, and every window named in a stream has a command. -/
theorem published_once (settings : Settings) {events : List TelegramMessageEvent}
    (hids : (events.map (·.eventId)).Nodup)
    (hrun : Runs.Meets (env.deliver settings) (env.RaisesEarly settings) {} events) :
    ∀ before after, events = before ++ after →
      PublishedOnce (env.deliverAll settings {} before) before ∧
        WindowsProjected (env.deliverAll settings {} before) := by
  rintro before after rfl
  have hsame : env.deliverAll settings {} before = env.early.deliverAll settings {} before :=
    hrun.of_append.foldl_congr fun _ _ h => h.deliver
  rw [hsame]
  rw [List.map_append] at hids
  exact published_of_failsEarly env.failsEarly_early settings hids.of_append_left

end Failures

/-! ## Two silent hours and a full window -/

/-- Two messages of one chat, two hours apart. -/
def lateEvents : List TelegramMessageEvent :=
  [{ eventId := 1, occurredAt := 0, tgChatId := 7, tgMessageId := 1, text := some "a" },
   { eventId := 2, occurredAt := seconds 7200, tgChatId := 7, tgMessageId := 2, text := some "b" }]

/-- The environment in which one call raises. -/
def failingAt (n : ℕ) : Env := { calmEnv with faults := fun call _ => call == n }

theorem noLoss_iff_lateEvents :
    (∀ before after, lateEvents = before ++ after →
        NoLoss (@Env.deliverAll calmEnv basicCharData {} {} before) lateEvents) ↔
      ∀ before event after, lateEvents = before ++ event :: after → event.accepted = true →
        @Env.RolloverSucceeds basicCharData calmEnv {}
          (@Env.deliverAll calmEnv basicCharData {} {} before) event :=
  @noLoss_iff basicCharData calmEnv rfl {} lateEvents (by decide) (by decide)

/-- The second message starts with a flush of the first.  If the analysis raises there,
the second event is processed and its message is nowhere. -/
theorem not_noLoss_lateEvents :
    (lateEvents.map (·.eventId)).Nodup ∧ DistinctMessages lateEvents ∧
      ¬ NoLoss (@Env.deliverAll (failingAt 0) basicCharData {} {} lateEvents) lateEvents := by
  refine ⟨by decide, by decide, fun h => ?_⟩
  have hlast := h lateEvents[1] (by decide) (by decide) (by decide)
  have hwindow : (@Env.deliverAll (failingAt 0) basicCharData {} {} lateEvents).window 7 =
      [lateEvents[0].payload] := by decide
  have hproj : (@Env.deliverAll (failingAt 0) basicCharData {} {} lateEvents).projections = [] := by
    decide
  rcases hlast with hmem | ⟨command, hcommand, -⟩
  · change _ ∈ (@Env.deliverAll (failingAt 0) basicCharData {} {} lateEvents).window 7 at hmem
    rw [hwindow] at hmem
    revert hmem
    decide
  · rw [hproj] at hcommand
    cases hcommand

/-- The first analysis raises, and so would every call from the twelfth on. -/
def failingEarly : Env := { calmEnv with faults := fun call _ => call == 0 || 11 ≤ call }

theorem published_once_lateEvents :
    PublishedOnce (@Env.deliverAll failingEarly basicCharData { analysisWindowSize := 1 } {}
        lateEvents) lateEvents ∧
      WindowsProjected (@Env.deliverAll failingEarly basicCharData { analysisWindowSize := 1 } {}
        lateEvents) :=
  @published_once basicCharData failingEarly { analysisWindowSize := 1 } lateEvents (by decide)
    (by decide) lateEvents [] (List.append_nil _).symm

/-- With windows of one message: if the deletion after the first flush raises, the next
flush publishes the first message again; if the second publication raises, a window is
announced and never projected. -/
theorem not_published_once_lateEvents :
    (lateEvents.map (·.eventId)).Nodup ∧
      ¬ PublishedOnce (@Env.deliverAll (failingAt 4) basicCharData { analysisWindowSize := 1 } {}
        lateEvents) lateEvents ∧
      ¬ WindowsProjected (@Env.deliverAll (failingAt 2) basicCharData { analysisWindowSize := 1 } {}
        (lateEvents.take 1)) := by
  refine ⟨by decide, fun h => ?_, fun h => ?_⟩
  · have hproj : (@Env.deliverAll (failingAt 4) basicCharData { analysisWindowSize := 1 } {}
        lateEvents).projections.map (fun command => (command.sourceWindowId, command.tgChatId,
          command.messages)) =
        ([(0, 7, [lateEvents[0].payload]),
          (2, 7, [lateEvents[0].payload]), (4, 7, [lateEvents[1].payload])] :
          List (Ident × ℤ × List WindowMessagePayload)) := by
      decide
    obtain ⟨first, rest, hlist, hfirst, hrest⟩ := List.map_eq_cons_iff.mp hproj
    obtain ⟨second, rest', rfl, hsecond, -⟩ := List.map_eq_cons_iff.mp hrest
    simp only [Prod.mk.injEq] at hfirst hsecond
    obtain ⟨hid, hchat, hmessages⟩ := hfirst
    obtain ⟨hid', hchat', hmessages'⟩ := hsecond
    have hpair := h first (by rw [hlist]; simp) second (by rw [hlist]; simp)
      (by rw [hid, hid']; decide) (by rw [hchat, hchat']) lateEvents[0].payload
      (by rw [hmessages]; simp) (by rw [hmessages']; simp)
    rw [hchat] at hpair
    revert hpair
    decide
  · have hlog : (@Env.deliverAll (failingAt 2) basicCharData { analysisWindowSize := 1 } {}
        (lateEvents.take 1)).log ≠ [] := by decide
    have hproj : (@Env.deliverAll (failingAt 2) basicCharData { analysisWindowSize := 1 } {}
        (lateEvents.take 1)).projections = [] := by decide
    obtain ⟨entry, hentry⟩ := List.exists_mem_of_ne_nil _ hlog
    obtain ⟨command, hcommand, -⟩ := h entry hentry
    rw [hproj] at hcommand
    cases hcommand

end Orchestrator
end PersonalIntelligence
