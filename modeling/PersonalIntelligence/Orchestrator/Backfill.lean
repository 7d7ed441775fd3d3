import PersonalIntelligence.Orchestrator.Consumer
import Mathlib.Data.List.Infix

/-!
# `ai_orchestrator/backfill.py`

The backfill replays the stream of Telegram messages through the consumer's own
`_handle_message` and then flushes what is left in the windows of the chats it has
seen.  A chat is flushed on behalf of the last of its events.
-/

namespace PersonalIntelligence
namespace Orchestrator

open PyText Resumption

/-- `BackfillStats`. -/
structure BackfillStats where
  scanned : ℕ := 0
  skipped : ℕ := 0
  handled : ℕ := 0
  flushed : ℕ := 0
  failed : ℕ := 0
  deriving DecidableEq, Repr

/-- The arguments of `_parse_args`, with their defaults. -/
structure BackfillArgs where
  excludeChatId : List ℤ := []
  maxEvents : ℕ := 0
  skipObviousTestData : Bool := false
  dryRun : Bool := false
  deriving DecidableEq, Repr

/-- `last_seen_by_chat`: a dictionary keeps the place of a key it has. -/
abbrev LastSeen := List (ℤ × TelegramMessageEvent)

/-- `last_seen_by_chat[tg_chat_id] = event`. -/
def LastSeen.set (tgChatId : ℤ) (event : TelegramMessageEvent) : LastSeen → LastSeen
  | [] => [(tgChatId, event)]
  | (chat, old) :: rest =>
    if chat = tgChatId then (chat, event) :: rest else (chat, old) :: LastSeen.set tgChatId event rest

/-- `_is_obvious_test_event`. -/
def isObviousTestEvent (event : TelegramMessageEvent) : Bool :=
  let text := strip (event.text.getD "")
  if event.tgChatId = 990001 then true
  else if event.tgSenderUsername ∈ [some "owner", some "partner"] then true
  else decide ("Message ".toList <+: text.toList ∧ "normal project sync".toList <:+: text.toList)

/-- `_iter_events`, on the entries of the stream. -/
def iterEvents (maxEvents : ℕ) (stream : List TelegramMessageEvent) :
    List TelegramMessageEvent := if 0 < maxEvents then stream.take maxEvents else stream

/-- The flush of a chat on behalf of its last event. -/
def residualRequest (tgChatId : ℤ) (lastEvent : TelegramMessageEvent) : FlushRequest where
  tgChatId
  sourceEventId := lastEvent.eventId
  chatType := lastEvent.chatType
  traceId := lastEvent.traceId

/-- `_flush_residual_windows`, with the two counts it returns. -/
def flushResidualWindows : LastSeen → ℕ × ℕ → Handling (ℕ × ℕ)
  | [], counts => pure counts
  | (tgChatId, lastEvent) :: rest, counts => do
    let messages ← loadWindowMessages tgChatId
    if messages = [] then flushResidualWindows rest counts
    else do
      let counts ← tryCatch
        (do
          flushWindow (residualRequest tgChatId lastEvent)
          pure (counts.1 + 1, counts.2))
        fun _ => pure (counts.1, counts.2 + 1)
      flushResidualWindows rest counts

/-- The event is replayed, and not skipped. -/
def BackfillArgs.replays (args : BackfillArgs) (event : TelegramMessageEvent) : Bool :=
  !(args.excludeChatId.contains event.tgChatId ||
    (args.skipObviousTestData && isObviousTestEvent event))

/-- The loop of `_run_backfill` over the events. -/
def replayEvents (settings : Settings) (args : BackfillArgs) :
    List TelegramMessageEvent → BackfillStats → LastSeen → Handling (BackfillStats × LastSeen)
  | [], stats, lastSeen => pure (stats, lastSeen)
  | event :: rest, stats, lastSeen =>
    let stats := { stats with scanned := stats.scanned + 1 }
    if !args.replays event then
      replayEvents settings args rest { stats with skipped := stats.skipped + 1 } lastSeen
    else
      let lastSeen := LastSeen.set event.tgChatId event lastSeen
      if args.dryRun then replayEvents settings args rest stats lastSeen
      else do
        let stats ← tryCatch
          (do
            handleMessage settings event
            pure { stats with handled := stats.handled + 1 })
          fun _ => pure { stats with failed := stats.failed + 1 }
        replayEvents settings args rest stats lastSeen

section Replay

variable {settings : Settings} {args : BackfillArgs} {event : TelegramMessageEvent}
  {rest : List TelegramMessageEvent} {stats : BackfillStats} {lastSeen : LastSeen}

theorem replayEvents_skip (h : args.replays event = false) :
    replayEvents settings args (event :: rest) stats lastSeen =
      replayEvents settings args rest
        { stats with scanned := stats.scanned + 1, skipped := stats.skipped + 1 } lastSeen := by
  simp [replayEvents, h]

/-- The `try` of the loop around one event, with the counts it keeps. -/
def countHandled (settings : Settings) (event : TelegramMessageEvent) (stats : BackfillStats) :
    Handling BackfillStats :=
  tryCatch
    (do
      handleMessage settings event
      pure { stats with handled := stats.handled + 1 })
    fun _ => pure { stats with failed := stats.failed + 1 }

theorem replayEvents_handle (h : args.replays event = true) (hrun : args.dryRun = false) :
    replayEvents settings args (event :: rest) stats lastSeen = (do
      let stats ← countHandled settings event { stats with scanned := stats.scanned + 1 }
      replayEvents settings args rest stats (LastSeen.set event.tgChatId event lastSeen)) := by
  simp [replayEvents, countHandled, h, hrun]

end Replay

/-- `_run_backfill`. -/
def runBackfill (settings : Settings) (args : BackfillArgs)
    (stream : List TelegramMessageEvent) : Handling BackfillStats := do
  let (stats, lastSeen) ← replayEvents settings args (iterEvents args.maxEvents stream) {} []
  if args.dryRun then pure stats
  else do
    let (flushed, flushFailed) ← flushResidualWindows lastSeen (0, 0)
    pure { stats with flushed, failed := stats.failed + flushFailed }

/-! ## The chats seen -/

theorem LastSeen.keys_set (chat : ℤ) (event : TelegramMessageEvent) :
    ∀ seen : LastSeen, ∀ c, c ∈ (LastSeen.set chat event seen).map (·.1) ↔
      c = chat ∨ c ∈ seen.map (·.1)
  | [], c => by simp [LastSeen.set]
  | (c', old) :: rest, c => by
    unfold LastSeen.set
    split_ifs with h
    · simp [h]
    · have ih := LastSeen.keys_set chat event rest c
      simp only [List.map_cons, List.mem_cons, ih]
      exact or_left_comm

end Orchestrator
end PersonalIntelligence
