import PersonalIntelligence.Library.Protocol
import PersonalIntelligence.Orchestrator.ConsumerRuns
import PersonalIntelligence.Orchestrator.WindowPartition

/-!
# The live consumer and the backfill as processes

Both processes run `_handle_message` and `_flush_window` on the same stores.  Here the
window protocol of one chat is written down as a protocol of phases: a phase is the
events a process has still to ask for, and how far it is with the one at hand.

The live consumer (`consume_follows`) and the backfill (`runBackfill_follows`) keep to
the protocol.  It forgets what the interleavings do not depend on: when a rollover is
due, what an analysis answers, how many signals a window has.
-/

namespace PersonalIntelligence
namespace Orchestrator

open PyText Resumption

/-! ## Phases -/

/-- How far a process is. -/
inductive Stage where
  /-- Between two events. -/
  | idle
  /-- `SELECT` found no row of the event. -/
  | selected (event : TelegramMessageEvent)
  /-- The row of the event has been inserted. -/
  | marked (event : TelegramMessageEvent)
  /-- A flush begins; the event, if there is one, will be stored after it. -/
  | due (next : Option TelegramMessageEvent)
  /-- The flush has read the messages; `published` once the streams have got them. -/
  | flushing (next : Option TelegramMessageEvent) (messages : List WindowMessagePayload)
    (published : Bool)
  /-- The event is about to be stored. -/
  | ready (event : TelegramMessageEvent)
  | pushed
  | measured
  deriving DecidableEq, Repr

/-- The stage after a flush. -/
def Stage.resume : Option TelegramMessageEvent → Stage
  | none => .idle
  | some event => .ready event

/-- The accepted events a process has still to ask for, and its stage. -/
structure Phase where
  todo : List TelegramMessageEvent
  stage : Stage
  deriving DecidableEq, Repr

/-- The window protocol of a chat. -/
inductive WindowStep (chat : ℤ) : Protocol Cmd Ans Phase
  | seen (event todo) : WindowStep chat ⟨event :: todo, .idle⟩ (.selectProcessed event.eventId)
      true ⟨todo, .idle⟩
  | unseen (event todo) : WindowStep chat ⟨event :: todo, .idle⟩ (.selectProcessed event.eventId)
      false ⟨todo, .selected event⟩
  | mark (event todo) : WindowStep chat ⟨todo, .selected event⟩ (.insertProcessed event.eventId)
      () ⟨todo, .marked event⟩
  | keep (event todo messages) : WindowStep chat ⟨todo, .marked event⟩ (.lrange chat) messages
      ⟨todo, .ready event⟩
  | rollover (event todo messages) : WindowStep chat ⟨todo, .marked event⟩ (.lrange chat) messages
      ⟨todo, .due (some event)⟩
  | empty (next todo) : WindowStep chat ⟨todo, .due next⟩ (.lrange chat) []
      ⟨todo, .resume next⟩
  | read (next todo messages) : WindowStep chat ⟨todo, .due next⟩ (.lrange chat) messages
      ⟨todo, .flushing next messages false⟩
  | name (next todo messages windowId) :
      WindowStep chat ⟨todo, .flushing next messages false⟩ .uuid4 windowId
        ⟨todo, .flushing next messages false⟩
  | analyse (next todo messages input state) :
      WindowStep chat ⟨todo, .flushing next messages false⟩ (.ainvoke input) state
        ⟨todo, .flushing next messages false⟩
  | announce (next todo) (event : TelegramPreprocessedEvent) (h : event.tgChatId = chat) :
      WindowStep chat ⟨todo, .flushing next event.messages false⟩ (.xadd (.preprocessed event)) ()
        ⟨todo, .flushing next event.messages true⟩
  | publish (next todo messages) (entry : StreamEntry) (h : entry.asPreprocessed = none) :
      WindowStep chat ⟨todo, .flushing next messages true⟩ (.xadd entry) ()
        ⟨todo, .flushing next messages true⟩
  | clear (next todo messages) : WindowStep chat ⟨todo, .flushing next messages true⟩
      (.delete chat) () ⟨todo, .resume next⟩
  | push (event todo) : WindowStep chat ⟨todo, .ready event⟩ (.rpush chat event.payload) ()
      ⟨todo, .pushed⟩
  | expire (todo ttl) : WindowStep chat ⟨todo, .pushed⟩ (.expire chat ttl) () ⟨todo, .measured⟩
  | fits (todo size) : WindowStep chat ⟨todo, .measured⟩ (.llen chat) size ⟨todo, .idle⟩
  | full (todo size) : WindowStep chat ⟨todo, .measured⟩ (.llen chat) size ⟨todo, .due none⟩
  | residual (messages) : WindowStep chat ⟨[], .idle⟩ (.lrange chat) messages ⟨[], .due none⟩
  | done (messages) : WindowStep chat ⟨[], .idle⟩ (.lrange chat) messages ⟨[], .idle⟩

/-! ## The functions keep to the protocol -/

section Follows

variable {chat : ℤ}

/-- The program ends in the phase. -/
abbrev EndsAt {α : Type} (g : Phase) : α → Phase → Prop := fun _ g' => g' = g

theorem follows_publish (next : Option TelegramMessageEvent) (todo : List TelegramMessageEvent)
    (messages : List WindowMessagePayload) :
    ∀ es : List StreamEntry, (∀ entry ∈ es, entry.asPreprocessed = none) →
      (publish es).Follows (WindowStep chat) (EndsAt ⟨todo, .flushing next messages true⟩)
        ⟨todo, .flushing next messages true⟩
  | [], _ => Prog.follows_ret.mpr rfl
  | entry :: rest, h => by
    refine Prog.follows_perform_bind fun _ => ⟨_, .publish next todo messages entry ?_, ?_⟩
    · exact h entry (List.mem_cons_self ..)
    · exact follows_publish next todo messages rest fun e he => h e (List.mem_cons_of_mem _ he)

/-- `_run_analysis` announces the messages it was given, once. -/
theorem follows_runAnalysis (next : Option TelegramMessageEvent)
    (todo : List TelegramMessageEvent) (input : AnalysisInput) (hchat : input.tgChatId = chat) :
    (runAnalysis input).Follows (WindowStep chat)
      (EndsAt ⟨todo, .flushing next input.messages true⟩)
      ⟨todo, .flushing next input.messages false⟩ := by
  rw [runAnalysis_eq]
  refine Prog.follows_perform_bind fun state => ⟨_, .analyse next todo _ input state, ?_⟩
  rw [entries, List.cons_append, List.cons_append, publish]
  refine Prog.follows_perform_bind fun _ =>
    ⟨_, .announce next todo (preprocessedEvent input state) hchat, ?_⟩
  refine follows_publish next todo _ _ fun entry hentry => ?_
  simp only [List.mem_cons, List.mem_append, List.mem_map, List.not_mem_nil, or_false] at hentry
  rcases hentry with rfl | ⟨_, -, rfl⟩ | rfl <;> rfl

theorem follows_flushWindow (next : Option TelegramMessageEvent)
    (todo : List TelegramMessageEvent) (request : FlushRequest) (hchat : request.tgChatId = chat) :
    (flushWindow request).Follows (WindowStep chat) (EndsAt ⟨todo, .resume next⟩)
      ⟨todo, .due next⟩ := by
  subst hchat
  unfold flushWindow
  refine Prog.follows_perform_bind fun messages => ?_
  by_cases hnil : messages = []
  · subst hnil
    refine ⟨_, .empty next todo, ?_⟩
    rw [if_pos rfl]
    exact Prog.follows_ret.mpr rfl
  · refine ⟨_, .read next todo messages, ?_⟩
    rw [if_neg hnil]
    refine Prog.follows_perform_bind fun windowId => ⟨_, .name next todo messages windowId, ?_⟩
    refine (follows_runAnalysis next todo (request.input messages windowId) rfl).bind
      fun _ g' hg => ?_
    subst hg
    exact Prog.follows_perform (Cmd.delete request.tgChatId)
      fun _ => ⟨_, .clear next todo messages, rfl⟩

/-- `_handle_message` of an event it does not ignore. -/
theorem follows_handleMessage (settings : Settings) {event : TelegramMessageEvent}
    (todo : List TelegramMessageEvent) (hacc : event.accepted = true)
    (hchat : event.tgChatId = chat) :
    (handleMessage settings event).Follows (WindowStep chat) (EndsAt ⟨todo, .idle⟩)
      ⟨event :: todo, .idle⟩ := by
  subst hchat
  have hstore : (do
      let size ← storeWindowMessage settings event.tgChatId event.payload
      if settings.analysisWindowSize ≤ size then
        flushWindow event.flushRequest).Follows (WindowStep event.tgChatId) (EndsAt ⟨todo, .idle⟩)
      ⟨todo, .ready event⟩ := by
    unfold storeWindowMessage
    simp only [bind_assoc]
    refine Prog.follows_perform_bind fun _ => ⟨_, .push event todo, ?_⟩
    refine Prog.follows_perform_bind fun _ => ⟨_, .expire todo _, ?_⟩
    refine Prog.follows_perform_bind fun size => ?_
    by_cases hfull : settings.analysisWindowSize ≤ size
    · refine ⟨_, .full todo size, ?_⟩
      rw [if_pos hfull]
      exact follows_flushWindow none todo event.flushRequest rfl
    · refine ⟨_, .fits todo size, ?_⟩
      rw [if_neg hfull]
      exact Prog.follows_ret.mpr rfl
  unfold handleMessage
  rw [hacc]
  refine Prog.follows_perform_bind fun processed => ?_
  cases processed with
  | true => exact ⟨_, .seen event todo, Prog.follows_ret.mpr rfl⟩
  | false =>
    refine ⟨_, .unseen event todo, Prog.follows_perform_bind fun _ => ⟨_, .mark event todo,
      Prog.follows_perform_bind fun messages => ?_⟩⟩
    by_cases hroll : rolloverDue settings messages event.payload = true
    · refine ⟨_, .rollover event todo messages, ?_⟩
      rw [if_pos hroll]
      refine (follows_flushWindow (some event) todo event.flushRequest rfl).bind fun _ g' hg => ?_
      subst hg
      exact hstore
    · refine ⟨_, .keep event todo messages, ?_⟩
      rw [if_neg hroll]
      exact hstore

end Follows

theorem handleMessage_of_not_accepted (settings : Settings) {event : TelegramMessageEvent}
    (hacc : event.accepted = false) : handleMessage settings event = pure () := by
  unfold handleMessage
  rw [hacc]
  rfl

/-! ## The two processes -/

/-- `run`: the events one by one, each in its own `try`. -/
def consume (settings : Settings) (events : List TelegramMessageEvent) : Handling Unit :=
  forM events fun event => attempt (handleMessage settings event)

/-- Alone, the live consumer delivers its events. -/
theorem exec_consume [CharData] (env : Env) (settings : Settings) :
    ∀ (events : List TelegramMessageEvent) (s : World),
      exec env.run (consume settings events) s = (.ok (), env.deliverAll settings s events)
  | [], s => rfl
  | event :: rest, s => by
    have ih := exec_consume env settings rest
    have hattempt : exec env.run (attempt (handleMessage settings event)) s =
        (.ok (), env.deliver settings s event) := by
      unfold attempt Env.deliver attempt
      rw [exec_tryCatch]
      rcases exec env.run (handleMessage settings event) s with ⟨_ | _, _⟩ <;> rfl
    unfold consume at ih ⊢
    rw [List.forM_cons, exec_bind, hattempt, andThen_ok, ih, env.deliverAll_cons]

/-- The accepted events among those a process handles. -/
def accepted (events : List TelegramMessageEvent) : List TelegramMessageEvent :=
  events.filter (·.accepted)

variable {chat : ℤ}

/-- Handling an event takes it off the list, whether it is accepted or not. -/
theorem follows_handleMessage_cons (settings : Settings) {event : TelegramMessageEvent}
    (rest : List TelegramMessageEvent) (hchat : event.tgChatId = chat) :
    (handleMessage settings event).Follows (WindowStep chat) (EndsAt ⟨accepted rest, .idle⟩)
      ⟨accepted (event :: rest), .idle⟩ := by
  unfold accepted
  cases hacc : event.accepted with
  | true =>
    rw [List.filter_cons_of_pos hacc]
    exact follows_handleMessage settings _ hacc hchat
  | false =>
    rw [List.filter_cons_of_neg (by simp [hacc]), handleMessage_of_not_accepted settings hacc]
    exact Prog.follows_ret.mpr rfl

/-- What a process is left with once the last event is handled. -/
abbrev Done {α : Type} : α → Phase → Prop := EndsAt ⟨[], .idle⟩

theorem consume_follows (settings : Settings) {events : List TelegramMessageEvent}
    (h : ∀ event ∈ events, event.tgChatId = chat) :
    (consume settings events).Follows (WindowStep chat) Done ⟨accepted events, .idle⟩ := by
  induction events with
  | nil => exact Prog.follows_ret.mpr rfl
  | cons event rest ih =>
    have hattempt : (attempt (handleMessage settings event)).Follows (WindowStep chat)
        (EndsAt ⟨accepted rest, .idle⟩) ⟨accepted (event :: rest), .idle⟩ :=
      (follows_handleMessage_cons settings rest (h event (List.mem_cons_self ..))).tryCatch
    unfold consume
    rw [List.forM_cons]
    refine hattempt.bind fun _ g' hg => ?_
    subst hg
    exact ih fun e he => h e (List.mem_cons_of_mem _ he)

theorem follows_countHandled (settings : Settings) {event : TelegramMessageEvent}
    (rest : List TelegramMessageEvent) (stats : BackfillStats) (hchat : event.tgChatId = chat) :
    (countHandled settings event stats).Follows (WindowStep chat) (EndsAt ⟨accepted rest, .idle⟩)
      ⟨accepted (event :: rest), .idle⟩ := by
  unfold countHandled
  apply Prog.Follows.tryCatch
  exact (follows_handleMessage_cons settings rest hchat).bind fun _ g' hg => Prog.follows_ret.mpr hg

/-- The replay handles the selected events; it has only seen their chat. -/
theorem follows_replayEvents (settings : Settings) {args : BackfillArgs}
    (hrun : args.dryRun = false) (events : List TelegramMessageEvent) (stats : BackfillStats)
    (seen : LastSeen) (h : ∀ event ∈ events.filter args.replays, event.tgChatId = chat)
    (hseen : ∀ c ∈ seen.map (·.1), c = chat) :
    (replayEvents settings args events stats seen).Follows (WindowStep chat)
      (fun r g => (∀ c ∈ r.2.map (·.1), c = chat) ∧ g = ⟨[], .idle⟩)
      ⟨accepted (events.filter args.replays), .idle⟩ := by
  induction events generalizing stats seen with
  | nil => exact Prog.follows_ret.mpr ⟨hseen, rfl⟩
  | cons event rest ih =>
    cases hskip : args.replays event with
    | false =>
      rw [replayEvents_skip hskip, List.filter_cons_of_neg (by simp [hskip])]
      rw [List.filter_cons_of_neg (by simp [hskip])] at h
      exact ih _ seen h hseen
    | true =>
      rw [List.filter_cons_of_pos hskip] at h ⊢
      rw [replayEvents_handle hskip hrun]
      have hchat := h event (List.mem_cons_self ..)
      have hhandle := follows_countHandled settings (rest.filter args.replays)
        { stats with scanned := stats.scanned + 1 } hchat
      refine hhandle.bind fun stats' g' hg => ?_
      subst hg
      refine ih stats' _ (fun e he => h e (List.mem_cons_of_mem _ he)) fun c hc => ?_
      rcases (LastSeen.keys_set _ _ _ c).mp hc with rfl | hc
      · exact hchat
      · exact hseen c hc

theorem follows_residual {seen : LastSeen} (counts : ℕ × ℕ) (h : ∀ c ∈ seen.map (·.1), c = chat) :
    (flushResidualWindows seen counts).Follows (WindowStep chat) Done ⟨[], .idle⟩ := by
  induction seen generalizing counts with
  | nil => exact Prog.follows_ret.mpr rfl
  | cons head rest ih =>
    obtain ⟨tgChatId, lastEvent⟩ := head
    obtain rfl : tgChatId = chat := h tgChatId (List.mem_cons_self ..)
    have hrest := fun counts' => ih counts' fun c hc => h c (List.mem_cons_of_mem _ hc)
    have hflush := follows_flushWindow none [] (residualRequest tgChatId lastEvent) rfl
    rw [flushResidualWindows]
    refine Prog.follows_perform_bind fun messages => ?_
    by_cases hnil : messages = []
    · refine ⟨_, .done messages, ?_⟩
      rw [if_pos hnil]
      exact hrest counts
    · have hcounted : (tryCatch
          (do
            flushWindow (residualRequest tgChatId lastEvent)
            pure (counts.1 + 1, counts.2))
          fun _ => pure (counts.1, counts.2 + 1) : Handling (ℕ × ℕ)).Follows
          (WindowStep tgChatId) Done ⟨[], .due none⟩ := by
        apply Prog.Follows.tryCatch
        exact hflush.bind fun _ g' hg => Prog.follows_ret.mpr hg
      refine ⟨_, .residual messages, ?_⟩
      rw [if_neg hnil]
      refine hcounted.bind fun counts' g' hg => ?_
      subst hg
      exact hrest counts'

/-- The events a backfill hands to `_handle_message`: none in a dry run. -/
def BackfillArgs.replayed (args : BackfillArgs) (stream : List TelegramMessageEvent) :
    List TelegramMessageEvent := if args.dryRun then [] else args.selected stream

theorem replayEvents_dryRun (settings : Settings) {args : BackfillArgs} (hrun : args.dryRun = true) :
    ∀ (events : List TelegramMessageEvent) (stats : BackfillStats) (seen : LastSeen),
      ∃ result, replayEvents settings args events stats seen = pure result
  | [], _, _ => ⟨_, rfl⟩
  | event :: rest, stats, seen => by
    unfold replayEvents
    simp only [hrun]
    split_ifs
    · exact replayEvents_dryRun settings hrun rest _ _
    · exact replayEvents_dryRun settings hrun rest _ _

theorem runBackfill_follows (settings : Settings) (args : BackfillArgs)
    {stream : List TelegramMessageEvent}
    (h : ∀ event ∈ args.replayed stream, event.tgChatId = chat) :
    (runBackfill settings args stream).Follows (WindowStep chat) Done
      ⟨accepted (args.replayed stream), .idle⟩ := by
  unfold runBackfill
  unfold BackfillArgs.replayed at h ⊢
  cases hrun : args.dryRun with
  | true =>
    obtain ⟨⟨stats, seen⟩, hreplay⟩ :=
      replayEvents_dryRun settings hrun (iterEvents args.maxEvents stream) {} []
    rw [hreplay]
    exact Prog.follows_ret.mpr rfl
  | false =>
    rw [hrun] at h
    have hreplay := follows_replayEvents settings hrun _ {} [] h (by simp)
    refine hreplay.bind fun result g' hg => ?_
    obtain ⟨hseen, rfl⟩ := hg
    exact (follows_residual (0, 0) hseen).bind fun counts g' hg => Prog.follows_ret.mpr hg

end Orchestrator
end PersonalIntelligence
