import PersonalIntelligence.Library.Calendar
import PersonalIntelligence.Library.Formatting
import PersonalIntelligence.Storage.S3Client

/-!
# `telegram_ingestor/handlers.py`

What becomes of a message that Telegram delivers: its JSON is put into the raw bucket, if
there is one, and an event is appended to the stream of Telegram messages.  A put that
raises leaves the event without a key.  The event gets a new id, whatever the message.

The handler is a program over `Cmd`: the clock, the generator of ULIDs, the calls of the
object store and `XADD`.  How `aiogram` dumps a message is left to the environment.
-/

namespace PersonalIntelligence
namespace Ingestor

open Resumption Storage

/-! ## Messages -/

/-- `aiogram.types.User`. -/
structure User where
  id : ℤ
  username : Option String := none
  fullName : String
  deriving DecidableEq, Repr

/-- `aiogram.types.Chat`. -/
structure Chat where
  id : ℤ
  type : String
  title : Option String := none
  fullName : String := ""
  deriving DecidableEq, Repr

/-- `aiogram.types.Message`.  Of an attachment only its presence is read. -/
structure Message where
  messageId : ℤ
  chat : Chat
  fromUser : Option User := none
  date : Option Timestamp
  text : Option String := none
  caption : Option String := none
  photo : Bool := false
  video : Bool := false
  voice : Bool := false
  audio : Bool := false
  document : Bool := false
  sticker : Bool := false
  videoNote : Bool := false
  replyToMessage : Option ℤ := none
  forwardOrigin : Bool := false
  deriving DecidableEq, Repr

/-- `a or b`, of optional strings. -/
def orElse (a b : Option String) : Option String := if a.any (· ≠ "") then a else b

/-- `_media_type`. -/
def mediaType (message : Message) : Option String :=
  if message.photo then some "photo"
  else if message.video then some "video"
  else if message.voice then some "voice"
  else if message.audio then some "audio"
  else if message.document then some "document"
  else if message.sticker then some "sticker"
  else if message.videoNote then some "video_note"
  else none

/-- `_normalize_chat_type`, on the string or on the value of the enumeration. -/
def normalizeChatType : String → ChatType
  | "private" => .private
  | "group" => .group
  | "supergroup" => .supergroup
  | "channel" => .channel
  | _ => .private

/-- The format string of `_s3_key`. -/
def formatKey (date : Calendar.Date) (chatId messageId : ℤ) : String :=
  Int.repr date.year ++ "/" ++ Formatting.pad2 date.month ++ "/" ++ Formatting.pad2 date.day ++ "/" ++
    Int.repr chatId ++ "/" ++ Int.repr messageId ++ ".json"

/-! ## The handler -/

/-- What the ingestor waits for. -/
inductive Cmd where
  /-- `datetime.now(UTC)`. -/
  | now
  /-- `ULID()`. -/
  | ulid
  | s3 (call : Storage.Cmd)
  | xadd (event : TelegramMessageEvent)
  deriving DecidableEq, Repr

/-- What each command answers. -/
abbrev Ans : Cmd → Type
  | .now => Timestamp
  | .ulid => Ident
  | .s3 call => Storage.Ans call
  | .xadd _ => Unit

abbrev Ingesting := Prog Cmd Ans Exc

/-- One command, awaited where it stands. -/
abbrev await (c : Cmd) : Ingesting (Ans c) := Prog.perform c

/-- A method of the client of the object store. -/
abbrev viaS3 {α : Type} (method : Storing α) : Ingesting α := method.embed .s3 fun _ => id

/-- `_s3_key`. -/
def s3Key (chatId messageId : ℤ) (date : Option Timestamp) : Ingesting String := do
  let ts ← match date with
    | some ts => pure ts
    | none => await .now
  pure (formatKey (Calendar.dateOf ts) chatId messageId)

/-- The `TelegramMessageEvent` of a message. -/
def messageEvent (message : Message) (rawKey : Option String) (eventId : Ident)
    (occurredAt : Timestamp) : TelegramMessageEvent where
  eventId
  occurredAt
  tgChatId := message.chat.id
  tgMessageId := message.messageId
  tgSenderId := message.fromUser.map (·.id)
  tgSenderUsername := message.fromUser.bind (·.username)
  tgSenderName := message.fromUser.map (·.fullName)
  chatTitle := orElse message.chat.title (some message.chat.fullName)
  chatType := normalizeChatType message.chat.type
  text := orElse message.text message.caption
  mediaType := mediaType message
  replyToMessageId := message.replyToMessage
  viaBusinessBot := true
  isForwarded := message.forwardOrigin
  tgDate := message.date
  rawS3Key := rawKey

/-- The `try` around `put_raw`, which leaves `raw_key`. -/
def storeRaw (s3 : S3Client) (storageKey : String) (body : Bytes) : Ingesting (Option String) :=
  if s3.isConfigured then
    tryCatch
      (do
        let _ ← viaS3 (s3.putRaw storageKey body)
        pure (some storageKey))
      fun _ => pure none
  else pure none

/-- `on_business_message`; `serialized` is `_serialize_message_json(message)`. -/
def onBusinessMessage (s3 : S3Client) (serialized : Bytes) (message : Message) :
    Ingesting Unit := do
  let storageKey ← s3Key message.chat.id message.messageId message.date
  let rawKey ← storeRaw s3 storageKey serialized
  let eventId ← await .ulid
  let occurredAt ← await .now
  await (.xadd (messageEvent message rawKey eventId occurredAt))

/-! ## What the commands do -/

/-- What the ingestor reads and writes. -/
structure World where
  now : Timestamp := 0
  /-- The next ULID. -/
  drawn : Ident := 0
  objects : Buckets := fun _ _ => none
  /-- The entries of `STREAM_TELEGRAM_MESSAGE`. -/
  stream : List TelegramMessageEvent := []
  /-- How many calls have been made that may raise. -/
  calls : ℕ := 0

namespace World

/-- The clock shows `now`. -/
def «at» (s : World) (now : Timestamp) : World := { s with now }

/-- The call has been made. -/
def tick (s : World) : World := { s with calls := s.calls + 1 }

end World

/-- Which calls raise, given how many were made. -/
structure Env where
  faults : ℕ → Cmd → Bool := fun _ _ => false

namespace Env

variable (env : Env)

/-- What the commands do.  A call that raises has no effect. -/
def run : Handler Cmd Ans Exc World
  | .now, s => (.ok s.now, s)
  | .ulid, s => (.ok s.drawn, { s with drawn := s.drawn + 1 })
  | .s3 call, s =>
    if env.faults s.calls (.s3 call) then (.error .callFailed, s.tick)
    else ((call.effect s.objects).1, { s.tick with objects := (call.effect s.objects).2 })
  | .xadd event, s =>
    if env.faults s.calls (.xadd event) then (.error .callFailed, s.tick)
    else (.ok (), { s.tick with stream := s.stream ++ [event] })

/-- One update of Telegram, received at the time `now`.  What the handler raises is logged
by the dispatcher. -/
def receive (s3 : S3Client) (s : World) (serialized : Bytes) (message : Message)
    (now : Timestamp) : World :=
  (exec env.run (onBusinessMessage s3 serialized message) (s.at now)).2

end Env

/-! ## The outcome -/

section Outcome

variable (env : Env) (s3 : S3Client) (serialized : Bytes) (message : Message)

/-- The key that `_s3_key` computes. -/
def World.storageKey (s : World) (message : Message) : String :=
  formatKey (Calendar.dateOf (message.date.getD s.now)) message.chat.id message.messageId

/-- The put of the raw message. -/
def putCall (storageKey : String) : Cmd :=
  .s3 (.putObject s3.bucketRaw ("raw/" ++ storageKey) serialized "application/json")

theorem exec_s3Key (s : World) :
    exec env.run (s3Key message.chat.id message.messageId message.date) s =
      (.ok (s.storageKey message), s) := by
  unfold s3Key World.storageKey
  cases message.date with
  | some ts => rfl
  | none => rfl

/-- What `storeRaw` leaves: the key if the object was put. -/
theorem exec_storeRaw (s : World) (storageKey : String) :
    exec env.run (storeRaw s3 storageKey serialized) s =
      if s3.isConfigured = false then (.ok none, s)
      else if env.faults s.calls (putCall s3 serialized storageKey) then (.ok none, s.tick)
      else (.ok (some storageKey),
        { s.tick with
          objects := s.objects.set s3.bucketRaw ("raw/" ++ storageKey)
            (some ⟨serialized, "application/json"⟩) }) := by
  have hput : exec env.run (viaS3 (s3.putRaw storageKey serialized)) s =
      if env.faults s.calls (putCall s3 serialized storageKey) then (.error .callFailed, s.tick)
      else (.ok ("raw/" ++ storageKey),
        { s.tick with
          objects := s.objects.set s3.bucketRaw ("raw/" ++ storageKey)
            (some ⟨serialized, "application/json"⟩) }) := by
    rw [exec_embed]
    unfold S3Client.putRaw S3Client.putBucketObject Storage.await
    rw [exec_perform_bind]
    cases hfault : env.faults s.calls (putCall s3 serialized storageKey) with
    | false =>
      unfold putCall at hfault
      simp only [Handler.restrict, Env.run, hfault]
      rfl
    | true =>
      unfold putCall at hfault
      simp only [Handler.restrict, Env.run, hfault]
      rfl
  unfold storeRaw
  cases s3.isConfigured with
  | false => rfl
  | true =>
    simp only [if_true, Bool.true_eq_false, if_false]
    rw [exec_tryCatch, exec_bind, hput]
    split_ifs
    · rfl
    · rfl

/-- **One message.**  It becomes one event of the stream with a new id, unless `XADD`
raises. -/
theorem exec_onBusinessMessage (s : World) :
    ∃ rawKey s₁, exec env.run (storeRaw s3 (s.storageKey message) serialized) s = (.ok rawKey, s₁) ∧
      s₁.now = s.now ∧ s₁.drawn = s.drawn ∧ s₁.stream = s.stream ∧
      exec env.run (onBusinessMessage s3 serialized message) s =
        env.run (.xadd (messageEvent message rawKey s.drawn s.now))
          { s₁ with drawn := s.drawn + 1 } := by
  have hstore := exec_storeRaw env s3 serialized s (s.storageKey message)
  obtain ⟨rawKey, s₁, hexec, hnow, hdrawn, hstream⟩ : ∃ rawKey s₁,
      exec env.run (storeRaw s3 (s.storageKey message) serialized) s = (.ok rawKey, s₁) ∧
        s₁.now = s.now ∧ s₁.drawn = s.drawn ∧ s₁.stream = s.stream := by
    rw [hstore]
    split_ifs
    · exact ⟨_, _, rfl, rfl, rfl, rfl⟩
    · exact ⟨_, _, rfl, rfl, rfl, rfl⟩
    · exact ⟨_, _, rfl, rfl, rfl, rfl⟩
  refine ⟨rawKey, s₁, hexec, hnow, hdrawn, hstream, ?_⟩
  unfold onBusinessMessage
  rw [exec_bind, exec_s3Key, andThen_ok, exec_bind, hexec, andThen_ok, exec_perform_bind]
  simp only [Env.run, andThen_ok, exec_perform_bind, exec_perform]
  rw [hnow, hdrawn]

end Outcome

end Ingestor
end PersonalIntelligence
