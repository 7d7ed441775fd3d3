import PersonalIntelligence.Orchestrator.WindowPartition

/-!
# The expiry of a window key

Every push gives the window key a fresh time to live of `max(minutes * 60, 3600)`
seconds.  The flush of a silent chat waits for the next message and for a pause of at
least `max(60, minutes * 60)` seconds.  So the two rules race: a pause that is long
enough for the key to expire is long enough for a rollover too, and the rollover then
finds an empty list.

`World.content` is what a chat still has, the flushed windows followed by the list a
command would find.  Handling a message adds it to the content as it stands at that
time (`added_deliver`); what is lost is lost between two messages, by the clock alone.
`kept_iff_inTime` says when: a timeline keeps its messages exactly when every message
that finds unflushed messages comes before their key has expired.
-/

namespace PersonalIntelligence
namespace Orchestrator

open PyText Resumption

section Expiry

variable [CharData] (env : Env)

/-- One message, handled at the wall-clock time of its `occurred_at`. -/
def Env.deliverInTime (settings : Settings) (s : World) (event : TelegramMessageEvent) : World :=
  env.deliver settings (s.at event.payload.occurredAt) event

/-- A timeline of messages, each handled at its own time. -/
def Env.liveRun (settings : Settings) (events : List TelegramMessageEvent) : World :=
  events.foldl (env.deliverInTime settings) {}

/-- The messages a chat still has: flushed windows, then the live list. -/
def World.content (env : Env) (s : World) (chat : ℤ) : List WindowMessagePayload :=
  (s.windows chat).flatten ++ env.live s chat

/-- Accepted messages of one chat, each with an event id of its own. -/
structure Timeline (chat : ℤ) (events : List TelegramMessageEvent) : Prop where
  accepted : ∀ event ∈ events, event.accepted = true
  chat_eq : ∀ event ∈ events, event.tgChatId = chat
  ids : (events.map (·.eventId)).Nodup

/-- The message comes before the key of the unflushed messages has expired. -/
def InTime (settings : Settings) (s : World) (event : TelegramMessageEvent) : Prop :=
  ∀ last ∈ (s.window event.tgChatId).getLast?,
    event.payload.occurredAt - last.occurredAt ≤ windowTtl settings

/-- What is asked once a message has been handled: everything stored so far is in a
flushed window or in the live list, and if the message was due to roll the old window
over, then that window has been flushed. -/
structure Kept (settings : Settings) (s : World) (stored : List WindowMessagePayload)
    (event : TelegramMessageEvent) : Prop where
  all : (stored ++ [event.payload]).Subperm
    ((env.deliverInTime settings s event).content env event.tgChatId)
  rolled : ∀ last ∈ (s.window event.tgChatId).getLast?,
    breaks settings last event.payload = true →
      s.window event.tgChatId ∈ (env.deliverInTime settings s event).windows event.tgChatId

variable {env} {s : World}

/-! ## The content of a chat -/

variable (env s) in
theorem content_flushed (request : FlushRequest) :
    (env.flushed s request).content env request.tgChatId = s.content env request.tgChatId := by
  have hlive : env.live (env.flushed s request) request.tgChatId = [] := by
    refine List.sublist_nil.mp ?_
    have hnil : (env.flushed s request).window request.tgChatId = [] := Function.update_self ..
    rw [← hnil]
    unfold Env.live
    split_ifs
    · exact List.nil_sublist _
    · exact List.Sublist.refl _
  unfold World.content
  rw [World.windows_flushed, if_pos rfl, hlive]
  simp

omit [CharData] in
theorem content_stored (settings : Settings) (chat : ℤ) (payload : WindowMessagePayload) :
    (env.stored settings s chat payload).content env chat = s.content env chat ++ [payload] := by
  have hwindows : (env.stored settings s chat payload).windows = s.windows := rfl
  unfold World.content
  rw [hwindows, env.live_stored, List.append_assoc]

omit [CharData] in
variable (env s) in
theorem content_insertProcessed (eventId : Ident) (chat : ℤ) :
    (s.insertProcessed eventId).content env chat = s.content env chat := by
  obtain ⟨rows, heq⟩ := s.insertProcessed_eq eventId
  rw [heq]
  rfl

theorem not_flushRaised (hfaults : ∀ n c, env.faults n c = false) {request : FlushRequest}
    {s' : World} : ¬ env.FlushRaised s request s' := by
  rintro ⟨-, n, c, _, _, _, hc, -⟩
  rw [hfaults] at hc
  cases hc

/-- What a handled message has done to its chat: it is the last of the content, no
flushed window is gone, and if the key holds anything then the message is its last
element and the key expires a time to live from now. -/
structure Added (env : Env) (settings : Settings) (event : TelegramMessageEvent)
    (s s' : World) : Prop where
  content : s'.content env event.tgChatId = s.content env event.tgChatId ++ [event.payload]
  windows : s.windows event.tgChatId <+: s'.windows event.tgChatId
  now : s'.now = s.now
  key : ∀ last ∈ (s'.window event.tgChatId).getLast?, last = event.payload ∧
    s'.deadline event.tgChatId = some (s.now + windowTtl settings)

theorem added_finish (hfaults : ∀ n c, env.faults n c = false) (settings : Settings) (s : World)
    (event : TelegramMessageEvent) : Added env settings event s (env.finish settings s event).2 := by
  rcases env.finish_cases settings s event with ⟨-, h⟩ | ⟨-, h | h⟩
  · rw [h]
    refine ⟨content_stored settings _ _, List.prefix_refl _, rfl, fun last hlast => ?_⟩
    rw [Env.stored, World.setWindow_window, List.getLast?_concat, Option.mem_some_iff] at hlast
    exact ⟨hlast.symm, World.setWindow_deadline ..⟩
  · rw [h]
    refine ⟨?_, ?_, rfl, fun last hlast => ?_⟩
    · exact (content_flushed env _ event.flushRequest).trans (content_stored settings _ _)
    · rw [World.windows_flushed]
      exact List.prefix_append _ _
    · have hnil : (env.flushed (env.stored settings s event.tgChatId event.payload)
          event.flushRequest).window event.tgChatId = [] := Function.update_self ..
      rw [hnil] at hlast
      cases hlast
  · exact absurd h (not_flushRaised hfaults)

/-- **One message** is added to the content as it stands.  If it rolls over the live
window, that window is among the flushed ones. -/
theorem added_deliver (hfaults : ∀ n c, env.faults n c = false) (settings : Settings)
    {event : TelegramMessageEvent} (hnew : s.isNew event) :
    Added env settings event s (env.deliver settings s event) ∧
      (env.rollsOver settings s event = true →
        env.live s event.tgChatId ∈ (env.deliver settings s event).windows event.tgChatId) := by
  have hroll := env.rollsOver_insertProcessed settings s event event.eventId
  have hcontent := content_insertProcessed env s event.eventId event.tgChatId
  have hwindows : (s.insertProcessed event.eventId).windows = s.windows := by
    obtain ⟨rows, heq⟩ := s.insertProcessed_eq event.eventId
    rw [heq]
    rfl
  have hnow := s.insertProcessed_now event.eventId
  rcases env.deliver_cases settings hnew with ⟨-, h⟩ | ⟨s', hs', heq⟩
  · exact absurd h (not_flushRaised hfaults)
  · obtain ⟨hfin, hpre, hfnow, hkey⟩ := added_finish hfaults settings s' event
    rw [heq]
    rcases hs' with ⟨-, -, rfl⟩ | ⟨hno, rfl⟩
    · have hflushed := content_flushed env (s.insertProcessed event.eventId) event.flushRequest
      have hclosed := World.windows_flushed env (s.insertProcessed event.eventId)
        event.flushRequest event.tgChatId
      rw [hwindows, if_pos event.flushRequest_tgChatId, env.live_insertProcessed] at hclosed
      refine ⟨⟨?_, ?_, hfnow.trans hnow, ?_⟩, fun _ => ?_⟩
      · rw [hfin, ← hcontent]
        exact congrArg (· ++ [event.payload]) hflushed
      · refine List.IsPrefix.trans ?_ hpre
        rw [hclosed]
        exact List.prefix_append _ _
      · intro last hlast
        rw [← hnow]
        exact hkey last hlast
      · refine hpre.subset ?_
        rw [hclosed]
        exact List.mem_append_right _ (List.mem_singleton_self _)
    · refine ⟨⟨?_, ?_, hfnow.trans hnow, ?_⟩, fun hdue => ?_⟩
      · rw [hfin, hcontent]
      · rw [← hwindows]
        exact hpre
      · intro last hlast
        rw [← hnow]
        exact hkey last hlast
      · rw [hroll, hdue] at hno
        cases hno

/-! ## A timeline -/

/-- Between two messages: the clock stands at the last message, and the key holds
unflushed messages until a time to live after the last of them. -/
structure Clocked (settings : Settings) (chat : ℤ) (s : World) : Prop where
  deadline : ∀ last ∈ (s.window chat).getLast?,
    s.deadline chat = some (last.occurredAt + windowTtl settings) ∧ s.now = last.occurredAt

variable {settings : Settings} {chat : ℤ}

omit [CharData] in
/-- Between two messages no key has expired. -/
theorem Clocked.live_eq (h : Clocked settings chat s) : env.live s chat = s.window chat := by
  have httl := windowTtl_pos settings
  cases hlast : (s.window chat).getLast? with
  | none =>
    rw [List.getLast?_eq_none_iff] at hlast
    exact (List.sublist_nil.mp (hlast ▸ env.live_sublist s chat)).trans hlast.symm
  | some last =>
    obtain ⟨hdeadline, hnow⟩ := h.deadline last hlast
    refine env.live_of_not_expired fun d hd => ?_
    rw [hdeadline, Option.mem_some_iff] at hd
    rw [← hd, hnow]
    exact le_add_of_nonneg_right httl.le

omit [CharData] in
/-- A message in time finds the window. -/
theorem Clocked.live_at {event : TelegramMessageEvent} (h : Clocked settings event.tgChatId s)
    (env : Env) (hin : InTime settings s event) :
    env.live (s.at event.payload.occurredAt) event.tgChatId = s.window event.tgChatId := by
  cases hlast : (s.window event.tgChatId).getLast? with
  | none =>
    rw [List.getLast?_eq_none_iff] at hlast
    have hsub := env.live_sublist (s.at event.payload.occurredAt) event.tgChatId
    exact (List.sublist_nil.mp (hlast ▸ hsub)).trans hlast.symm
  | some last =>
    have hpause := hin last hlast
    refine env.live_of_not_expired fun d hd => ?_
    have hd' : d ∈ s.deadline event.tgChatId := hd
    rw [(h.deadline last hlast).1, Option.mem_some_iff] at hd'
    rw [← hd']
    exact sub_le_iff_le_add'.mp hpause

omit [CharData] in
/-- A message that is late finds nothing. -/
theorem Clocked.live_at_late (hexp : env.expires = true) {event : TelegramMessageEvent}
    (h : Clocked settings event.tgChatId s) (hlate : ¬ InTime settings s event) :
    env.live (s.at event.payload.occurredAt) event.tgChatId = [] ∧
      s.window event.tgChatId ≠ [] := by
  obtain ⟨last, hlast⟩ := not_forall.mp hlate
  obtain ⟨hlast, hpause⟩ := Classical.not_imp.mp hlast
  constructor
  · refine if_pos ⟨hexp, ?_⟩
    change (s.deadline event.tgChatId).any (· < event.payload.occurredAt) = true
    rw [(h.deadline last hlast).1, Option.any_some, decide_eq_true_eq]
    exact lt_of_not_ge fun hle => hpause (sub_le_iff_le_add'.mpr hle)
  · intro hnil
    rw [hnil] at hlast
    cases hlast

omit [CharData] in
theorem content_at_length_le (h : Clocked settings chat s) (now : Timestamp) :
    ((s.at now).content env chat).length ≤ (s.content env chat).length := by
  have hwindows : (s.at now).windows = s.windows := rfl
  have hsub := (env.live_sublist (s.at now) chat).length_le
  unfold World.content
  rw [hwindows, h.live_eq, List.length_append, List.length_append]
  exact Nat.add_le_add_left hsub _

/-- The state of a timeline. -/
structure Running (env : Env) (settings : Settings) (chat : ℤ)
    (before : List TelegramMessageEvent) : Prop where
  clocked : Clocked settings chat (env.liveRun settings before)
  length_le : ((env.liveRun settings before).content env chat).length ≤ before.length

variable (env) in
theorem liveRun_append (settings : Settings) (before : List TelegramMessageEvent)
    (event : TelegramMessageEvent) :
    env.liveRun settings (before ++ [event]) =
      env.deliverInTime settings (env.liveRun settings before) event := List.foldl_concat ..

variable (env) in
theorem isProcessed_liveRun (settings : Settings) (events : List TelegramMessageEvent)
    (id : Ident) : (env.liveRun settings events).isProcessed id = true ↔
      ∃ event ∈ events, event.accepted = true ∧ event.eventId = id := by
  induction events using List.reverseRecOn with
  | nil => simp [Env.liveRun, World.isProcessed]
  | append_singleton events event ih =>
    have hat : ((env.liveRun settings events).at event.payload.occurredAt).isProcessed id =
        (env.liveRun settings events).isProcessed id := rfl
    rw [liveRun_append, Env.deliverInTime, env.isProcessed_deliver, hat, ih]
    simp [or_comm]

/-- The next message of a timeline is new. -/
theorem Timeline.isNew (env : Env) (settings : Settings)
    {events before after : List TelegramMessageEvent} {event : TelegramMessageEvent}
    (h : Timeline chat events) (heq : events = before ++ event :: after) :
    ((env.liveRun settings before).at event.payload.occurredAt).isNew event := by
  refine ⟨h.accepted event (by simp [heq]), ?_⟩
  rw [Bool.eq_false_iff, ne_eq]
  change ¬ (env.liveRun settings before).isProcessed event.eventId = true
  rw [isProcessed_liveRun]
  rintro ⟨other, hother, -, hid⟩
  have hids := h.ids
  rw [heq, List.map_append, List.map_cons, List.nodup_append] at hids
  exact hids.2.2 _ (List.mem_map_of_mem hother) _ (List.mem_cons_self ..) hid

omit [CharData] in
/-- Handling a message of the timeline leaves the clock at the message. -/
theorem Added.clocked {event : TelegramMessageEvent} {s' : World}
    (h : Added env settings event (s.at event.payload.occurredAt) s') :
    Clocked settings event.tgChatId s' where
  deadline := by
    intro last hlast
    obtain ⟨rfl, hdeadline⟩ := h.key last hlast
    exact ⟨hdeadline, h.now⟩

variable (env) in
/-- **A timeline, message by message.** -/
theorem running (hfaults : ∀ n c, env.faults n c = false) (settings : Settings)
    {events : List TelegramMessageEvent} (h : Timeline chat events) :
    ∀ before after, events = before ++ after → Running env settings chat before := by
  intro before
  induction before using List.reverseRecOn with
  | nil =>
    intro after _
    refine ⟨⟨fun last hlast => ?_⟩, ?_⟩
    · simp [Env.liveRun] at hlast
    · simp [Env.liveRun, World.content, World.windows, World.preprocessed, Env.live]
  | append_singleton before event ih =>
    intro after heq
    have heq' : events = before ++ event :: after := by rw [heq, List.append_assoc]; rfl
    obtain ⟨hclocked, hlen⟩ := ih _ heq'
    have hchat : event.tgChatId = chat := h.chat_eq event (by simp [heq'])
    subst hchat
    have hadded := (added_deliver hfaults settings (h.isNew env settings heq')).1
    constructor
    · rw [liveRun_append]
      exact hadded.clocked
    · rw [liveRun_append, Env.deliverInTime, hadded.content, List.length_append,
        List.length_append]
      exact Nat.add_le_add_right ((content_at_length_le hclocked _).trans hlen) _

variable (env) in
/-- While the messages come in time, the content is what has been stored. -/
theorem content_of_inTime (hfaults : ∀ n c, env.faults n c = false) (settings : Settings)
    {events : List TelegramMessageEvent} (h : Timeline chat events)
    (hin : ∀ before event after, events = before ++ event :: after →
      InTime settings (env.liveRun settings before) event) :
    ∀ before after, events = before ++ after →
      (env.liveRun settings before).content env chat = before.map (·.payload) := by
  intro before
  induction before using List.reverseRecOn with
  | nil =>
    intro after _
    simp [Env.liveRun, World.content, World.windows, World.preprocessed, Env.live]
  | append_singleton before event ih =>
    intro after heq
    have heq' : events = before ++ event :: after := by rw [heq, List.append_assoc]; rfl
    have hchat : event.tgChatId = chat := h.chat_eq event (by simp [heq'])
    subst hchat
    have hclocked := (running env hfaults settings h _ _ heq').clocked
    have hadded := (added_deliver hfaults settings (h.isNew env settings heq')).1
    have hsame : ((env.liveRun settings before).at event.payload.occurredAt).content env
        event.tgChatId = (env.liveRun settings before).content env event.tgChatId := by
      unfold World.content
      rw [hclocked.live_at env (hin _ _ _ heq'), hclocked.live_eq]
      rfl
    rw [liveRun_append, Env.deliverInTime, hadded.content, hsame, ih _ heq', List.map_append]
    rfl

/-- **When a timeline keeps its messages.**  For every timeline of a chat and all
settings: after each message, everything stored so far is flushed or live, and a window
that was due to roll over has been flushed, exactly when each message that finds
unflushed messages comes within a time to live of the last of them. -/
theorem kept_iff_inTime (hfaults : ∀ n c, env.faults n c = false) (hexp : env.expires = true)
    (settings : Settings) {events : List TelegramMessageEvent} (h : Timeline chat events) :
    (∀ before event after, events = before ++ event :: after →
        Kept env settings (env.liveRun settings before) (before.map (·.payload)) event) ↔
      ∀ before event after, events = before ++ event :: after →
        InTime settings (env.liveRun settings before) event := by
  constructor
  · intro hkept before event after heq
    by_contra hlate
    have hchat : event.tgChatId = chat := h.chat_eq event (by simp [heq])
    subst hchat
    obtain ⟨hclocked, hlen⟩ := running env hfaults settings h _ _ heq
    obtain ⟨hgone, hne⟩ := hclocked.live_at_late hexp hlate
    have hadded := (added_deliver hfaults settings (h.isNew env settings heq)).1
    have hall := (hkept before event after heq).all.length_le
    rw [Env.deliverInTime, hadded.content] at hall
    have hpos := List.length_pos_iff.mpr hne
    have hwindows : ((env.liveRun settings before).at event.payload.occurredAt).windows =
        (env.liveRun settings before).windows := rfl
    unfold World.content at hall hlen
    rw [hgone, hwindows] at hall
    rw [hclocked.live_eq] at hlen
    simp only [List.length_append, List.length_map, List.length_singleton, List.length_nil] at *
    omega
  · intro hin before event after heq
    have hchat : event.tgChatId = chat := h.chat_eq event (by simp [heq])
    subst hchat
    have hclocked := (running env hfaults settings h _ _ heq).clocked
    have hlive := hclocked.live_at env (hin _ _ _ heq)
    have hrolled := (added_deliver hfaults settings (h.isNew env settings heq)).2
    constructor
    · have hcontent := content_of_inTime env hfaults settings h hin (before ++ [event]) after
        (by rw [heq, List.append_assoc]; rfl)
      rw [liveRun_append, List.map_append] at hcontent
      rw [hcontent]
      exact List.Subperm.refl _
    · intro last hlast hbreaks
      rw [hlive] at hrolled
      refine hrolled ?_
      unfold Env.rollsOver rolloverDue
      rw [hlive, hlast]
      exact hbreaks

end Expiry

/-! ## A night of silence -/

/-- The stores with key expiry and nothing else that fails. -/
def expiringEnv : Env := { calmEnv with expires := true }

/-- Two messages, two hours apart, with a window of an hour. -/
def quietEvents : List TelegramMessageEvent :=
  [{ eventId := 1, occurredAt := 0, tgChatId := 7, tgMessageId := 1, text := some "a" },
   { eventId := 2, occurredAt := seconds 7200, tgChatId := 7, tgMessageId := 2, text := some "b" }]

theorem quietEvents_timeline : Timeline 7 quietEvents where
  accepted := by decide
  chat_eq := by decide
  ids := by decide

theorem kept_iff_inTime_quietEvents :
    (∀ before event after, quietEvents = before ++ event :: after →
        @Kept basicCharData expiringEnv {} (@Env.liveRun basicCharData expiringEnv {} before)
          (before.map (·.payload)) event) ↔
      ∀ before event after, quietEvents = before ++ event :: after →
        InTime {} (@Env.liveRun basicCharData expiringEnv {} before) event :=
  @kept_iff_inTime basicCharData expiringEnv 7 (fun _ _ => rfl) rfl {} quietEvents
    quietEvents_timeline

/-- The second message rolls the first one over, an hour after its key has expired: the
first message is in no window, and no list. -/
theorem not_kept_quietEvents :
    Timeline 7 quietEvents ∧
      ¬ @Kept basicCharData expiringEnv {} (@Env.liveRun basicCharData expiringEnv {}
        (quietEvents.take 1)) [quietEvents[0].payload] quietEvents[1] := by
  let _ := basicCharData
  refine ⟨quietEvents_timeline, fun h => ?_⟩
  have hlen : (@World.content expiringEnv (@Env.deliverInTime basicCharData expiringEnv {}
      (@Env.liveRun basicCharData expiringEnv {} (quietEvents.take 1)) quietEvents[1])
      quietEvents[1].tgChatId).length = 1 := by decide
  have hall := h.all.length_le
  rw [hlen] at hall
  exact absurd hall (by decide)

end Orchestrator
end PersonalIntelligence
