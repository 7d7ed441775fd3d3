import PersonalIntelligence.Memory.ProjectedTables
import PersonalIntelligence.Orchestrator.Normalization

/-!
# Reprocessing a stored window

`_handle_reprocess` reads the messages of a window back from its row and analyses them
again.  They are JSON there, and what the driver makes of the column may be a list or a
text of it, which `_coerce_window_messages` decodes.  The JSON of a message is a parameter
(`JsonCodec`), and what the code relies on is that it comes back as the message
(`JsonCodec.RoundTrips`).

What is analysed again comes out as it was stored (`Operates.reprocess`).  This is about
the two services together: `ai-orchestrator` analyses a window under a new id, or one that
it reads from the table, with the type of the chat that it finds there;
`memory-projector` stores the type of a window with the first projection, and messages
and features with each.
-/

namespace PersonalIntelligence
namespace Memory

open PyText Resumption
open Orchestrator (AnalysisInput computeMessageFeatures normalizeWindow normalizeMessages)

/-! ## Decoding -/

/-- What `json.loads` may return. -/
inductive JsonValue where
  | null
  | bool (value : Bool)
  | number (value : ℚ)
  | str (text : String)
  | list (items : List JsonValue)
  | object (fields : List (String × JsonValue))

/-- `json.loads`, with `none` for a `JSONDecodeError`, and the JSON of a message. -/
structure JsonCodec where
  loads : String → Option JsonValue
  modelDump : WindowMessagePayload → JsonValue
  modelValidate : JsonValue → Except Exc WindowMessagePayload

/-- `ReprocessWindowCommand`. -/
structure ReprocessWindowCommand where
  commandId : Ident
  windowId : Ident
  traceId : Option String := none
  deriving DecidableEq, Repr

/-- `SELECT tg_chat_id, chat_type, messages FROM analysis_window`, with what the driver
makes of the last column. -/
structure WindowRecord where
  tgChatId : ℤ
  chatType : ChatType
  messages : JsonValue

namespace JsonCodec

variable (codec : JsonCodec)

/-- The loop of `_coerce_json_value`. -/
def coerceTimes (raw : JsonValue) : ℕ → JsonValue → JsonValue
  | 0, current => current
  | n + 1, .str text =>
    match codec.loads text with
    | some value => coerceTimes raw n value
    | none => raw
  | _ + 1, current => current

/-- `_coerce_json_value`. -/
def coerceJsonValue (raw : JsonValue) : JsonValue := codec.coerceTimes raw 3 raw

/-- `_coerce_window_messages`. -/
def coerceWindowMessages : JsonValue → Except Exc (List WindowMessagePayload)
  | .null => .ok []
  | raw =>
    match codec.coerceJsonValue raw with
    | .list items => items.mapM codec.modelValidate
    | _ => .ok []

/-- `_handle_reprocess`, up to what it calls `_run_analysis` with, if it does: `processed`
is what `_is_processed` answers, and `fetched` the row. -/
def handleReprocess (processed : Bool) (fetched : Option WindowRecord)
    (command : ReprocessWindowCommand) : Except Exc (Option AnalysisInput) :=
  if processed then .ok none
  else
    match fetched with
    | none => .ok none
    | some row => do
      let messages ← codec.coerceWindowMessages row.messages
      return some
        { sourceEventId := command.commandId
          sourceWindowId := command.windowId
          tgChatId := row.tgChatId
          chatType := row.chatType
          messages
          traceId := command.traceId }

theorem handleReprocess_row (row : WindowRecord) (command : ReprocessWindowCommand) :
    codec.handleReprocess false (some row) command =
      (codec.coerceWindowMessages row.messages).map fun messages => some
        { sourceEventId := command.commandId
          sourceWindowId := command.windowId
          tgChatId := row.tgChatId
          chatType := row.chatType
          messages
          traceId := command.traceId } := by
  cases hmessages : codec.coerceWindowMessages row.messages <;>
  · unfold handleReprocess
    rw [if_neg Bool.false_ne_true]
    dsimp only
    rw [hmessages]
    rfl

/-- A value, encoded `n` times. -/
inductive Encodes (value : JsonValue) : ℕ → JsonValue → Prop
  | zero : Encodes value 0 value
  | succ {n : ℕ} {raw : JsonValue} {text : String} (hloads : codec.loads text = some raw)
    (hraw : Encodes value n raw) : Encodes value (n + 1) (.str text)

/-- The messages come back: `raw` is their list, encoded three times at most, and each
comes back from its item. -/
structure RoundTrips (messages : List WindowMessagePayload) (raw : JsonValue) : Prop where
  list : ∃ n ≤ 3, codec.Encodes (.list (messages.map codec.modelDump)) n raw
  item : ∀ m ∈ messages, codec.modelValidate (codec.modelDump m) = .ok m

variable {codec} {messages : List WindowMessagePayload} {raw current value : JsonValue}

theorem Encodes.coerceTimes {n : ℕ} (h : codec.Encodes value n current)
    (hvalue : ∀ text, value ≠ .str text) {k : ℕ} (hk : n ≤ k) :
    codec.coerceTimes raw k current = value := by
  induction h generalizing k with
  | zero =>
    cases k with
    | zero => rfl
    | succ k =>
      cases value with
      | str text => exact absurd rfl (hvalue text)
      | null | bool | number | list | object => rfl
  | succ hloads _ ih =>
    cases k with
    | zero => omega
    | succ k =>
      unfold JsonCodec.coerceTimes
      rw [hloads]
      exact ih (by omega)

theorem mapM_modelDump (h : ∀ m ∈ messages, codec.modelValidate (codec.modelDump m) = .ok m) :
    (messages.map codec.modelDump).mapM codec.modelValidate = .ok messages := by
  induction messages with
  | nil => rfl
  | cons m rest ih =>
    have hrest := ih fun m' hm' => h m' (List.mem_cons_of_mem _ hm')
    rw [List.map_cons, List.mapM_cons, h m List.mem_cons_self, hrest]
    rfl

/-- **Decoding** what was encoded. -/
theorem RoundTrips.coerceWindowMessages (h : codec.RoundTrips messages raw) :
    codec.coerceWindowMessages raw = .ok messages := by
  obtain ⟨n, hn, hraw⟩ := h.list
  have hcoerce : codec.coerceJsonValue raw = .list (messages.map codec.modelDump) :=
    hraw.coerceTimes (fun _ => nofun) hn
  have hitems : (messages.map codec.modelDump).mapM codec.modelValidate = .ok messages :=
    mapM_modelDump h.item
  unfold JsonCodec.coerceWindowMessages
  cases hraw with
  | zero | succ =>
    dsimp only
    rw [hcoerce]
    exact hitems

end JsonCodec

/-! ## The two services -/

/-- What the two services have done to the windows: `s` are the stores, and `accepted` the
windows that `ai-orchestrator` set out to analyse, under a new id or again.  A command that
was built for one of them may be delivered at any time, once, several times or never. -/
inductive Operates [CharData] (codec : JsonCodec) (orchestrator : Orchestrator.Env) (env : Env)
    (settings : Settings) : World → List AnalysisInput → Prop
  | start (mentions : List Mention) (annotations : List RelationshipAnnotation)
    (owners : List OwnerProfile) :
    Operates codec orchestrator env settings (World.start mentions annotations owners) []
  | analyse {s : World} {accepted : List AnalysisInput} (input : AnalysisInput)
    (h : Operates codec orchestrator env settings s accepted)
    (hnew : ∀ earlier ∈ accepted, earlier.sourceWindowId ≠ input.sourceWindowId) :
    Operates codec orchestrator env settings s (input :: accepted)
  | reprocess {s : World} {accepted : List AnalysisInput} {row : AnalysisWindow} {raw : JsonValue}
    {command : ReprocessWindowCommand} {input : AnalysisInput}
    (h : Operates codec orchestrator env settings s accepted) (hrow : row ∈ s.db.analysisWindow)
    (hid : row.id = command.windowId)
    (hinput : codec.handleReprocess false (some ⟨row.tgChatId, row.chatType, raw⟩) command =
      .ok (some input)) :
    Operates codec orchestrator env settings s (input :: accepted)
  | deliver {s : World} {accepted : List AnalysisInput} {input : AnalysisInput}
    (entry : StreamEntry) (now : Timestamp) (o : Orchestrator.World)
    (h : Operates codec orchestrator env settings s accepted) (hinput : input ∈ accepted)
    (hcommand : entry.command = (orchestrator.invoke o input).projectionCommand) :
    Operates codec orchestrator env settings (env.deliver settings s (entry, now)) accepted

/-- A window has one type of chat, and its row what normalising makes of its messages. -/
structure Reprocessable [CharData] (s : World) (accepted : List AnalysisInput) : Prop where
  closed : s.tx = none
  agree : ∀ input ∈ accepted, ∀ input' ∈ accepted,
    input.sourceWindowId = input'.sourceWindowId → input.chatType = input'.chatType
  rows : ∀ row ∈ s.db.analysisWindow, ∃ input ∈ accepted,
    input.sourceWindowId = row.id ∧ input.chatType = row.chatType
  stored : ∀ row ∈ s.db.analysisWindow,
    normalizeWindow row.messages row.chatType = (row.messages, row.features)

section Invariant

variable [CharData] {codec : JsonCodec} {orchestrator : Orchestrator.Env} {env : Env}
  {settings : Settings} {s : World} {accepted : List AnalysisInput}

namespace Reprocessable

/-- A window that is accepted under the type it has, or as a new one. -/
theorem accept (h : Reprocessable s accepted) {input : AnalysisInput}
    (hagree : ∀ earlier ∈ accepted, earlier.sourceWindowId = input.sourceWindowId →
      earlier.chatType = input.chatType) : Reprocessable s (input :: accepted) where
  closed := h.closed
  agree a ha b hb hid := by
    rcases List.mem_cons.mp ha with rfl | hearlier
    · rcases List.mem_cons.mp hb with rfl | hearlier'
      · rfl
      · exact (hagree b hearlier' hid.symm).symm
    · rcases List.mem_cons.mp hb with rfl | hearlier'
      · exact hagree a hearlier hid
      · exact h.agree a hearlier b hearlier' hid
  rows row hrow := by
    obtain ⟨earlier, hearlier, hsame⟩ := h.rows row hrow
    exact ⟨earlier, List.mem_cons_of_mem _ hearlier, hsame⟩
  stored := h.stored

/-- A delivery. -/
theorem deliver (h : Reprocessable s accepted) {input : AnalysisInput} (hinput : input ∈ accepted)
    {entry : StreamEntry} (now : Timestamp) {o : Orchestrator.World}
    (hcommand : entry.command = (orchestrator.invoke o input).projectionCommand) :
    Reprocessable (env.deliver settings s (entry, now)) accepted := by
  have hclosed := env.deliver_closed settings h.closed (entry, now)
  rcases @Env.deliver_cases _ env settings s h.closed (entry, now) with hp | hpass
  · have hwindows := hp.analysisWindow h.closed
    have hid : entry.command.sourceWindowId = input.sourceWindowId := by
      rw [hcommand]
      rfl
    have hmessages : entry.command.messages = normalizeMessages input.messages := by
      rw [hcommand]
      rfl
    have hfeatures : entry.command.features =
        computeMessageFeatures (normalizeMessages input.messages) input.chatType := by
      rw [hcommand]
      rfl
    have htype : entry.command.features.chatType = input.chatType := by
      rw [hfeatures]
      exact Orchestrator.computeMessageFeatures_chatType _ _
    have hnormal : normalizeWindow entry.command.messages input.chatType =
        (entry.command.messages, entry.command.features) := by
      rw [hmessages, hfeatures]
      exact Orchestrator.canonical_normalizeWindow.idem input.messages input.chatType
    refine ⟨hclosed, h.agree, ?_, ?_⟩
    · rw [hwindows]
      refine Table.forall_upsert h.rows ?_ ⟨input, hinput, hid.symm, htype.symm⟩
      rintro old - hkey ⟨earlier, hearlier, hearlierId, hold⟩
      exact ⟨earlier, hearlier, hearlierId.trans hkey, hold⟩
    · rw [hwindows]
      refine Table.forall_upsert h.stored (fun old hold hkey _ => ?_) ?_
      · obtain ⟨earlier, hearlier, hearlierId, hstored⟩ := h.rows old hold
        have hsame : input.chatType = old.chatType := by
          refine (h.agree input hinput earlier hearlier ?_).trans hstored
          exact hid.symm.trans (hkey.symm.trans hearlierId.symm)
        rw [hsame] at hnormal
        exact hnormal
      · rw [← htype] at hnormal
        exact hnormal
  · refine ⟨hclosed, h.agree, ?_, ?_⟩
    · rw [hpass.db]
      exact h.rows
    · rw [hpass.db]
      exact h.stored

end Reprocessable

omit [CharData] in
/-- What a window is analysed with again. -/
theorem handleReprocess_eq {command : ReprocessWindowCommand} {record : WindowRecord}
    {input : AnalysisInput}
    (h : codec.handleReprocess false (some record) command = .ok (some input)) :
    input.sourceWindowId = command.windowId ∧ input.chatType = record.chatType := by
  rw [codec.handleReprocess_row] at h
  cases hmessages : codec.coerceWindowMessages record.messages with
  | error e =>
    rw [hmessages] at h
    cases h
  | ok messages =>
    rw [hmessages] at h
    cases h
    exact ⟨rfl, rfl⟩

/-- **The two services** keep windows as normalising leaves them. -/
theorem Operates.reprocessable (h : Operates codec orchestrator env settings s accepted) :
    Reprocessable s accepted := by
  induction h with
  | start mentions annotations owners =>
    exact ⟨rfl, fun _ h => absurd h List.not_mem_nil, fun _ h => absurd h List.not_mem_nil,
      fun _ h => absurd h List.not_mem_nil⟩
  | analyse input h hnew ih =>
    exact ih.accept fun earlier hearlier hid => absurd hid (hnew earlier hearlier)
  | reprocess h hrow hid hinput ih =>
    obtain ⟨hwindow, htype⟩ := handleReprocess_eq hinput
    obtain ⟨first, hfirst, hfirstId, hfirstType⟩ := ih.rows _ hrow
    refine ih.accept fun earlier hearlier hearlierId => ?_
    calc earlier.chatType = first.chatType := by
          refine ih.agree earlier hearlier first hfirst ?_
          rw [hearlierId, hwindow, ← hid, hfirstId]
      _ = _ := hfirstType.trans htype.symm
  | deliver entry now o h hinput hcommand ih => exact ih.deliver hinput now hcommand

end Invariant

/-- **Normalising is canonical, and reprocessing reproduces it**: a row that is read back
and analysed again leaves the graph with the messages and features of the row. -/
theorem canonical_and_reprocessed [CharData] (codec : JsonCodec) (orchestrator : Orchestrator.Env)
    (env : Env) (settings : Settings) :
    Orchestrator.Canonical normalizeWindow ∧
      ∀ s accepted, Operates codec orchestrator env settings s accepted →
        ∀ row ∈ s.db.analysisWindow, ∀ raw, codec.RoundTrips row.messages raw →
          ∀ command : ReprocessWindowCommand, ∃ input,
            codec.handleReprocess false (some ⟨row.tgChatId, row.chatType, raw⟩) command =
                .ok (some input) ∧
              ∀ o, (orchestrator.invoke o input).messages = row.messages ∧
                (orchestrator.invoke o input).features = row.features := by
  refine ⟨Orchestrator.canonical_normalizeWindow, fun s accepted h row hrow raw hraw command => ?_⟩
  have hstored := h.reprocessable.stored row hrow
  rw [codec.handleReprocess_row, hraw.coerceWindowMessages]
  refine ⟨_, rfl, fun o => ?_⟩
  exact ⟨congrArg Prod.fst hstored, congrArg Prod.snd hstored⟩

/-- The text of the column for a window of two messages. -/
def storedText : String :=
  "[\x7b\"tg_message_id\": 1, \"tg_sender_id\": 11, \"tg_sender_name\": null, " ++
    "\"tg_sender_username\": null, \"text\": \"привет\", \"reply_to_message_id\": null, " ++
    "\"media_type\": null, \"is_forwarded\": false, \"occurred_at\": \"1970-01-01T00:00:00Z\"\x7d, " ++
    "\x7b\"tg_message_id\": 2, \"tg_sender_id\": 11, \"tg_sender_name\": null, " ++
    "\"tg_sender_username\": null, \"text\": \"снова\", \"reply_to_message_id\": null, " ++
    "\"media_type\": null, \"is_forwarded\": false, \"occurred_at\": \"1970-01-01T00:00:01Z\"\x7d]"

/-- The messages in it. -/
def firstStored : WindowMessagePayload :=
  { tgMessageId := 1, tgSenderId := some 11, text := "привет", occurredAt := 0 }

def secondStored : WindowMessagePayload :=
  { tgMessageId := 2, tgSenderId := some 11, text := "снова", occurredAt := seconds 1 }

/-- An item in it. -/
def storedItem (tgMessageId : ℚ) (text occurredAt : String) : JsonValue :=
  .object [("tg_message_id", .number tgMessageId), ("tg_sender_id", .number 11),
    ("tg_sender_name", .null), ("tg_sender_username", .null), ("text", .str text),
    ("reply_to_message_id", .null), ("media_type", .null), ("is_forwarded", .bool false),
    ("occurred_at", .str occurredAt)]

def firstItem : JsonValue := storedItem 1 "привет" "1970-01-01T00:00:00Z"

def secondItem : JsonValue := storedItem 2 "снова" "1970-01-01T00:00:01Z"

/-- The codec on that text. -/
def basicCodec : JsonCodec where
  loads text := if text = storedText then some (.list [firstItem, secondItem]) else none
  modelDump message := if message.tgMessageId = 1 then firstItem else secondItem
  modelValidate
    | .object ((_, .number tgMessageId) :: _) =>
      .ok (if tgMessageId = 1 then firstStored else secondStored)
    | _ => .error .validation

theorem basicCodec_loads :
    basicCodec.loads storedText = some (.list [firstItem, secondItem]) := by
  simp [basicCodec]

/-- A window whose messages come twice and out of order, stored and read back. -/
theorem canonical_and_reprocessed_storedMessages :
    let _ := basicCharData
    ∃ row : AnalysisWindow, row.messages = [firstStored, secondStored] ∧ ∃ input,
      basicCodec.handleReprocess false (some ⟨row.tgChatId, row.chatType, .str storedText⟩)
          ⟨102, 2, none⟩ = .ok (some input) ∧
        ∀ o, (Orchestrator.calmEnv.invoke o input).messages = row.messages ∧
          (Orchestrator.calmEnv.invoke o input).features = row.features := by
  let _ := basicCharData
  have hstart : Operates basicCodec Orchestrator.calmEnv {} {} (World.start [] [] []) [] :=
    .start [] [] []
  have haccepted := Operates.analyse
    (Orchestrator.windowInput [secondStored, firstStored, secondStored]) hstart
    fun _ h => absurd h List.not_mem_nil
  have hdelivered := Operates.deliver
    { id := 1
      command := (Orchestrator.calmEnv.invoke {} (Orchestrator.windowInput
        [secondStored, firstStored, secondStored])).projectionCommand } 61 {} haccepted
    List.mem_cons_self rfl
  generalize hs : Env.deliver _ _ _ _ = s at hdelivered
  have hrow : ∃ row ∈ s.db.analysisWindow, row.messages = [firstStored, secondStored] := by
    rw [← hs]
    decide
  obtain ⟨row, hmem, hmessages⟩ := hrow
  refine ⟨row, hmessages, ?_⟩
  refine (canonical_and_reprocessed basicCodec Orchestrator.calmEnv {} {}).2 s _ hdelivered row hmem
    (.str storedText) ⟨⟨1, by omega, ?_⟩, ?_⟩ ⟨102, 2, none⟩
  · rw [hmessages]
    exact .succ basicCodec_loads .zero
  · rw [hmessages]
    intro m hm
    rcases List.mem_cons.mp hm with rfl | hm
    · rfl
    · rw [List.mem_singleton.mp hm]
      rfl

end Memory
end PersonalIntelligence
