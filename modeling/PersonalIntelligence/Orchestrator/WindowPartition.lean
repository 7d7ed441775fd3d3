import PersonalIntelligence.Library.Segmentation
import PersonalIntelligence.Orchestrator.Backfill
import PersonalIntelligence.Orchestrator.ConsumerRuns

/-!
# Windows partition the accepted stream

While no call fails and no key expires, the consumer cuts the accepted messages of
each chat into windows by the two rules of `Segmentation`: a window is closed when it
is full, and it is closed early when the next message comes after too long a silence.

The abstraction is `World.cut`: for one chat, the windows passed to `_run_analysis` so
far and the list in Redis.  Handling one new event is one `push` of the abstract scan in
the event's chat and nothing in any other (`cut_deliver`); flushing the residual windows
is `close` in every chat that was seen.  What is known of scans then holds of the
backfill (`runBackfill_partition`).
-/

namespace PersonalIntelligence
namespace Orchestrator

open PyText Resumption Segmentation

/-- No call raises and no key expires. -/
structure Env.Reliable (env : Env) : Prop where
  faults : ∀ n c, env.faults n c = false
  expires : env.expires = false

/-- The new message comes too late for the window of the old one. -/
def breaks (settings : Settings) (old new : WindowMessagePayload) : Bool :=
  needsRollover old.occurredAt new.occurredAt settings.windowStrategy
    settings.analysisTimeWindowMinutes

/-- The scan of a chat, as the stores show it. -/
def World.cut (s : World) (chat : ℤ) : Cut WindowMessagePayload := ⟨s.windows chat, s.window chat⟩

section Reliable

variable [CharData] {env : Env}

omit [CharData] in
theorem Env.Reliable.live_eq (henv : env.Reliable) (s : World) (chat : ℤ) :
    env.live s chat = s.window chat := by
  unfold Env.live
  rw [if_neg]
  rintro ⟨h, -⟩
  rw [henv.expires] at h
  cases h

omit [CharData] in
theorem Env.Reliable.noFault (henv : env.Reliable) (n : ℕ) (cmds : List Cmd) :
    env.NoFault n cmds := Env.noFault_of_forall henv.faults n cmds

omit [CharData] in
@[simp] theorem World.cut_insertProcessed (s : World) (eventId : Ident) (chat : ℤ) :
    (s.insertProcessed eventId).cut chat = s.cut chat := by
  unfold World.cut World.windows World.preprocessed
  rw [World.insertProcessed_log, World.insertProcessed_window]

/-- The windows after a flush that went through. -/
theorem World.windows_flushed (env : Env) (s : World) (request : FlushRequest) (chat : ℤ) :
    (env.flushed s request).windows chat =
      s.windows chat ++ if request.tgChatId = chat then [env.live s chat] else [] := by
  have hlog : (env.flushed s request).log = s.log ++ env.flushEntries s request := rfl
  unfold World.windows World.preprocessed
  rw [hlog, List.filterMap_append, Env.flushEntries, entries_asPreprocessed, List.filter_append,
    List.map_append]
  congr 1
  by_cases h : request.tgChatId = chat
  · subst h
    simp [preprocessedEvent, Env.flushInput, FlushRequest.input]
  · simp [preprocessedEvent, Env.flushInput, FlushRequest.input, h]

/-- A flush closes the scan of its chat and leaves the others alone. -/
theorem exec_flushWindow_reliable (henv : env.Reliable) (s : World) (request : FlushRequest) :
    ∃ s', exec env.run (flushWindow request) s = (.ok (), s') ∧
      s'.cut request.tgChatId = (s.cut request.tgChatId).close ∧
      ∀ chat, chat ≠ request.tgChatId → s'.cut chat = s.cut chat := by
  by_cases hnil : s.window request.tgChatId = []
  · refine ⟨s, exec_flushWindow_nil env (by rw [henv.live_eq, hnil]), ?_, fun _ _ => rfl⟩
    unfold World.cut
    rw [hnil, Cut.close_nil]
  · have hwindow : (env.flushed s request).window =
        Function.update s.window request.tgChatId [] := rfl
    refine ⟨_, exec_flushWindow_ok env (by rwa [henv.live_eq]) (henv.noFault _ _), ?_, ?_⟩
    · unfold World.cut
      rw [World.windows_flushed, henv.live_eq, if_pos rfl, hwindow, Function.update_self, Cut.close,
        if_neg hnil]
    · intro chat hchat
      unfold World.cut
      rw [World.windows_flushed, if_neg (Ne.symm hchat), hwindow, Function.update_of_ne hchat,
        List.append_nil]

/-! ## One event -/

omit [CharData] in
/-- A stored message is the last of the open segment. -/
theorem cut_stored (henv : env.Reliable) (settings : Settings) (s : World)
    (event : TelegramMessageEvent) :
    (env.stored settings s event.tgChatId event.payload).cut event.tgChatId =
        ⟨s.windows event.tgChatId, s.window event.tgChatId ++ [event.payload]⟩ ∧
      ∀ chat, chat ≠ event.tgChatId →
        (env.stored settings s event.tgChatId event.payload).cut chat = s.cut chat := by
  have hwindows : (env.stored settings s event.tgChatId event.payload).windows = s.windows := rfl
  constructor
  · unfold World.cut
    rw [hwindows, Env.stored, World.setWindow_window, henv.live_eq]
  · intro chat hchat
    unfold World.cut
    rw [hwindows, Env.stored, World.setWindow_window_of_ne _ _ _ _ hchat]

omit [CharData] in
theorem World.cut_append (size : ℤ) (s : World) (chat : ℤ) (payload : WindowMessagePayload) :
    (s.cut chat).append size payload =
      if size ≤ ((s.window chat).length + 1 : ℕ) then
        ⟨s.windows chat ++ [s.window chat ++ [payload]], []⟩
      else ⟨s.windows chat, s.window chat ++ [payload]⟩ := by
  simp [World.cut, Cut.append]

/-- Storing a message, and flushing the window if that fills it, is `append`. -/
theorem cut_finish (henv : env.Reliable) (settings : Settings) (s : World)
    (event : TelegramMessageEvent) :
    (env.finish settings s event).2.cut event.tgChatId =
        (s.cut event.tgChatId).append settings.analysisWindowSize event.payload ∧
      ∀ chat, chat ≠ event.tgChatId →
        (env.finish settings s event).2.cut chat = s.cut chat := by
  obtain ⟨hstored, hother⟩ := cut_stored henv settings s event
  unfold Env.finish
  rw [henv.live_eq, World.cut_append]
  split_ifs with hfull
  · obtain ⟨s', hexec, hclose, hsame⟩ := exec_flushWindow_reliable henv
      (env.stored settings s event.tgChatId event.payload) event.flushRequest
    rw [hexec]
    refine ⟨?_, fun chat hchat => (hsame chat hchat).trans (hother chat hchat)⟩
    refine hclose.trans ?_
    change ((env.stored settings s event.tgChatId event.payload).cut event.tgChatId).close = _
    rw [hstored, Cut.close, if_neg (List.append_ne_nil_of_right_ne_nil _ (List.cons_ne_nil _ _))]
  · exact ⟨hstored, hother⟩

/-- **One event.**  A new event is pushed onto the scan of its chat. -/
theorem cut_deliver (henv : env.Reliable) (settings : Settings) {s : World}
    {event : TelegramMessageEvent} (hnew : s.isNew event) :
    (env.deliver settings s event).cut event.tgChatId =
        (s.cut event.tgChatId).push settings.analysisWindowSize (breaks settings)
          event.payload ∧
      ∀ chat, chat ≠ event.tgChatId →
        (env.deliver settings s event).cut chat = s.cut chat := by
  have hbroken : env.rollsOver settings (s.insertProcessed event.eventId) event =
      (s.cut event.tgChatId).broken (breaks settings) event.payload := by
    unfold Env.rollsOver rolloverDue Cut.broken World.cut breaks
    rw [henv.live_eq, World.insertProcessed_window]
  rw [env.deliver_eq, exec_handleMessage env hnew, hbroken, Cut.push]
  split_ifs with hroll
  · obtain ⟨s', hexec, hclose, hsame⟩ := exec_flushWindow_reliable henv
      (s.insertProcessed event.eventId) event.flushRequest
    obtain ⟨happend, hother⟩ := cut_finish henv settings s' event
    replace hclose : s'.cut event.tgChatId = (s.cut event.tgChatId).close := by
      rw [← World.cut_insertProcessed s event.eventId]
      exact hclose
    rw [hexec, andThen_ok, happend, hclose]
    refine ⟨rfl, fun chat hchat => ?_⟩
    rw [hother chat hchat, hsame chat hchat, World.cut_insertProcessed]
  · obtain ⟨happend, hother⟩ :=
      cut_finish henv settings (s.insertProcessed event.eventId) event
    rw [World.cut_insertProcessed] at happend
    refine ⟨happend, fun chat hchat => ?_⟩
    rw [hother chat hchat, World.cut_insertProcessed]

/-! ## All events -/

/-- **A sequence of events.**  With distinct, unprocessed ids, the scan of a chat reads
the chat's accepted messages. -/
theorem cut_deliverAll (henv : env.Reliable) (settings : Settings) (chat : ℤ) :
    ∀ {events : List TelegramMessageEvent} {s : World}, (events.map (·.eventId)).Nodup →
      (∀ event ∈ events, s.isProcessed event.eventId = false) →
      (env.deliverAll settings s events).cut chat =
        (acceptedMessages chat events).foldl
          (Cut.push settings.analysisWindowSize (breaks settings)) (s.cut chat)
  | [], _, _, _ => rfl
  | event :: rest, s, hids, hfresh => by
    rw [List.map_cons, List.nodup_cons] at hids
    have hrest : ∀ later ∈ rest,
        (env.deliver settings s event).isProcessed later.eventId = false := by
      intro later hlater
      rw [Bool.eq_false_iff, ne_eq, env.isProcessed_deliver]
      rintro (⟨-, heq⟩ | hproc)
      · exact hids.1 (heq ▸ List.mem_map_of_mem hlater)
      · rw [hfresh later (List.mem_cons_of_mem _ hlater)] at hproc
        cases hproc
    have ih := cut_deliverAll henv settings chat hids.2 hrest
    rw [env.deliverAll_cons, ih]
    unfold acceptedMessages
    by_cases hacc : event.accepted = true
    · have hnew : s.isNew event := ⟨hacc, hfresh event (List.mem_cons_self ..)⟩
      obtain ⟨hpush, hother⟩ := cut_deliver henv settings hnew
      by_cases hchat : event.tgChatId = chat
      · subst hchat
        simp [hacc, hpush]
      · simp [hchat, hother chat (Ne.symm hchat)]
    · rw [env.deliver_of_not_new settings fun hnew => hacc hnew.1]
      simp [hacc]

/-! ## The backfill -/

/-- The events a backfill replays. -/
def BackfillArgs.selected (args : BackfillArgs) (stream : List TelegramMessageEvent) :
    List TelegramMessageEvent := (iterEvents args.maxEvents stream).filter args.replays

variable (env) in
/-- Whether the handler raises or not, the event has been delivered. -/
theorem exec_countHandled (settings : Settings) (s : World) (event : TelegramMessageEvent)
    (stats : BackfillStats) :
    ∃ stats', exec env.run (countHandled settings event stats) s =
      (.ok stats', env.deliver settings s event) := by
  unfold countHandled
  rw [exec_tryCatch, exec_bind, env.deliver_eq]
  rcases exec env.run (handleMessage settings event) s with ⟨_ | _, _⟩
  · exact ⟨_, rfl⟩
  · exact ⟨_, rfl⟩

variable (env) in
/-- The loop over the events is the loop of `run` over those that are not skipped, and
remembers their chats. -/
theorem exec_replayEvents (settings : Settings) {args : BackfillArgs} (hrun : args.dryRun = false) :
    ∀ (events : List TelegramMessageEvent) (stats : BackfillStats) (seen : LastSeen) (s : World),
      ∃ stats' seen', exec env.run (replayEvents settings args events stats seen) s =
          (.ok (stats', seen'), env.deliverAll settings s (events.filter args.replays)) ∧
        ∀ chat, chat ∈ seen'.map (·.1) ↔
          chat ∈ seen.map (·.1) ∨ ∃ event ∈ events.filter args.replays, event.tgChatId = chat
  | [], stats, seen, s => ⟨stats, seen, rfl, fun chat => by simp⟩
  | event :: rest, stats, seen, s => by
    cases hskip : args.replays event with
    | false =>
      obtain ⟨stats', seen', hrest, hseen⟩ := exec_replayEvents settings hrun rest
        { stats with scanned := stats.scanned + 1, skipped := stats.skipped + 1 } seen s
      rw [replayEvents_skip hskip, List.filter_cons_of_neg (by simp [hskip])]
      exact ⟨stats', seen', hrest, hseen⟩
    | true =>
      obtain ⟨stats₁, hexec⟩ := exec_countHandled env settings s event
        { stats with scanned := stats.scanned + 1 }
      obtain ⟨stats', seen', hrest, hseen⟩ := exec_replayEvents settings hrun rest stats₁
        (LastSeen.set event.tgChatId event seen) (env.deliver settings s event)
      rw [replayEvents_handle hskip hrun, exec_bind, hexec, andThen_ok,
        List.filter_cons_of_pos hskip, env.deliverAll_cons]
      refine ⟨stats', seen', hrest, fun chat => ?_⟩
      rw [hseen, LastSeen.keys_set, List.exists_mem_cons_iff, eq_comm, or_right_comm, or_comm]

/-- The residual flush closes the scan of every chat it is given. -/
theorem exec_flushResidualWindows (henv : env.Reliable) :
    ∀ (seen : LastSeen) (counts : ℕ × ℕ) (s : World),
      ∃ counts' s', exec env.run (flushResidualWindows seen counts) s = (.ok counts', s') ∧
        (∀ chat ∈ seen.map (·.1), s'.cut chat = (s.cut chat).close) ∧
        ∀ chat, chat ∉ seen.map (·.1) → s'.cut chat = s.cut chat
  | [], counts, s => ⟨counts, s, rfl, by simp, fun _ _ => rfl⟩
  | (tgChatId, lastEvent) :: rest, counts, s => by
    obtain ⟨s₁, counts₁, hhead, hclose₁, hsame₁⟩ : ∃ s₁ counts₁,
        exec env.run (flushResidualWindows ((tgChatId, lastEvent) :: rest) counts) s =
          exec env.run (flushResidualWindows rest counts₁) s₁ ∧
        s₁.cut tgChatId = (s.cut tgChatId).close ∧
        ∀ chat, chat ≠ tgChatId → s₁.cut chat = s.cut chat := by
      rw [flushResidualWindows, loadWindowMessages, await, exec_perform_bind, env.run_lrange,
        andThen_ok, henv.live_eq]
      split_ifs with hnil
      · refine ⟨s, counts, rfl, ?_, fun _ _ => rfl⟩
        unfold World.cut
        rw [hnil, Cut.close_nil]
      · obtain ⟨s', hexec, hclose, hsame⟩ := exec_flushWindow_reliable henv s
          (residualRequest tgChatId lastEvent)
        refine ⟨s', (counts.1 + 1, counts.2), ?_, hclose, hsame⟩
        rw [exec_bind, exec_tryCatch, exec_bind, hexec]
        rfl
    obtain ⟨counts', s', hexec, hclose, hsame⟩ := exec_flushResidualWindows henv rest counts₁ s₁
    refine ⟨counts', s', hhead.trans hexec, fun chat hchat => ?_, fun chat hchat => ?_⟩
    · have hfirst : (s₁.cut chat).close = (s.cut chat).close := by
        by_cases h : chat = tgChatId
        · rw [h, hclose₁, Cut.close_close]
        · rw [hsame₁ chat h]
      by_cases hmem : chat ∈ rest.map (·.1)
      · rw [hclose chat hmem, hfirst]
      · have heq : chat = tgChatId := (List.mem_cons.mp hchat).resolve_right hmem
        rw [hsame chat hmem, heq, hclose₁]
    · rw [List.map_cons, List.mem_cons, not_or] at hchat
      rw [hsame chat hchat.2, hsame₁ chat hchat.1]

/-- **The backfill partitions the stream.**  Let the calls succeed, the keys not expire,
and the events a backfill selects have distinct ids that are not processed yet.  From
empty windows and streams, the windows of each chat are then the segments of the
chat's accepted messages in arrival order, and afterwards no window has messages. -/
theorem runBackfill_partition (henv : env.Reliable) (settings : Settings) {args : BackfillArgs}
    (hrun : args.dryRun = false) {stream : List TelegramMessageEvent} {s : World}
    (hids : ((args.selected stream).map (·.eventId)).Nodup)
    (hfresh : ∀ event ∈ args.selected stream, s.isProcessed event.eventId = false)
    (hlog : s.log = []) (hempty : ∀ chat, s.window chat = []) (chat : ℤ) :
    IsSegmentation settings.analysisWindowSize (breaks settings)
        (acceptedMessages chat (args.selected stream))
        ((exec env.run (runBackfill settings args stream) s).2.windows chat) ∧
      (exec env.run (runBackfill settings args stream) s).2.window chat = [] := by
  obtain ⟨stats, seen, hreplay, hseen⟩ :=
    exec_replayEvents env settings hrun (iterEvents args.maxEvents stream) {} [] s
  rw [← BackfillArgs.selected] at hreplay hseen
  obtain ⟨counts, s', hflush, hclose, hsame⟩ := exec_flushResidualWindows henv seen (0, 0)
    (env.deliverAll settings s (args.selected stream))
  have hfinal : (exec env.run (runBackfill settings args stream) s).2 = s' := by
    rw [runBackfill, exec_bind, hreplay, andThen_ok]
    dsimp only
    rw [if_neg (by simp [hrun]), exec_bind, hflush]
    rfl
  have hstart : s.cut chat = {} := by
    simp [World.cut, World.windows, World.preprocessed, hlog, hempty]
  have hscan := cut_deliverAll henv settings chat hids hfresh
  rw [hstart] at hscan
  have hvalid := (Cut.valid_empty settings.analysisWindowSize (breaks settings)).foldl
    (acceptedMessages chat (args.selected stream))
  rw [← hscan, List.nil_append] at hvalid
  have hcut : s'.cut chat = ((env.deliverAll settings s (args.selected stream)).cut chat).close := by
    by_cases hchat : chat ∈ seen.map (·.1)
    · exact hclose chat hchat
    · have hnone := mt (hseen chat).mpr hchat
      rw [not_or] at hnone
      rw [hsame chat hchat, hscan, acceptedMessages_eq_nil hnone.2]
      rfl
  rw [hfinal]
  have hopened : (s'.cut chat).opened = [] := by rw [hcut, Cut.close_opened]
  have hclosed : (s'.cut chat).closed =
      ((env.deliverAll settings s (args.selected stream)).cut chat).close.closed := by rw [hcut]
  refine ⟨?_, hopened⟩
  have hseg := hvalid.isSegmentation_close
  rw [← hclosed] at hseg
  exact hseg

end Reliable

/-- Three messages of one chat and one of another. -/
def fourEvents : List TelegramMessageEvent :=
  [{ eventId := 1, occurredAt := 0, tgChatId := 7, tgMessageId := 1, text := some "a" },
   { eventId := 2, occurredAt := seconds 1, tgChatId := 8, tgMessageId := 1, text := some "b" },
   { eventId := 3, occurredAt := seconds 2, tgChatId := 7, tgMessageId := 2, text := some "c" },
   { eventId := 4, occurredAt := seconds 3, tgChatId := 7, tgMessageId := 3, text := some "d" }]

theorem calmEnv_reliable : calmEnv.Reliable := ⟨fun _ _ => rfl, rfl⟩

/-- Windows of two messages: the third of the chat is in a window of its own. -/
def pairs : Settings := { analysisWindowSize := 2 }

theorem runBackfill_partition_fourEvents :
    (IsSegmentation 2 (breaks pairs) (acceptedMessages 7 (BackfillArgs.selected {} fourEvents))
        ((exec (@Env.run calmEnv basicCharData) (runBackfill pairs {} fourEvents) {}).2.windows 7) ∧
      (exec (@Env.run calmEnv basicCharData) (runBackfill pairs {} fourEvents) {}).2.window 7 =
        []) ∧
    ((exec (@Env.run calmEnv basicCharData) (runBackfill pairs {} fourEvents) {}).2.windows 7).map
      List.length = [2, 1] :=
  ⟨@runBackfill_partition basicCharData calmEnv calmEnv_reliable pairs {} rfl fourEvents {}
    (by decide) (fun _ _ => rfl) rfl (fun _ => rfl) 7, by decide⟩

end Orchestrator
end PersonalIntelligence
