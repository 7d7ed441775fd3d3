import PersonalIntelligence.Contracts.Events
import PersonalIntelligence.Library.Regex
import PersonalIntelligence.Library.Rounding

/-!
# `ai_orchestrator/preprocessing.py`

What is read off a window without a language model: when a window is closed by
time (`needsRollover`), and the feature set of its messages
(`computeMessageFeatures`).

A gap between two instants is kept in microseconds and compared with a threshold
in the same unit; `timedelta.total_seconds` is exact on the range where the two
readings could differ by less than the threshold's own granularity.
-/

namespace PersonalIntelligence
namespace Orchestrator

open PyText Regex

/-! ## Rollover -/

/-- The silence that closes a window, `max(60, time_window_minutes * 60)` seconds. -/
def rolloverGap (timeWindowMinutes : ℤ) : ℤ := seconds (max 60 (timeWindowMinutes * 60))

/-- `needs_rollover`. -/
def needsRollover (lastOccurredAt occurredAt : Timestamp) (strategy : String)
    (timeWindowMinutes : ℤ) : Bool :=
  if strategy ∉ ["by_time_window", "hybrid"] then false
  else decide (rolloverGap timeWindowMinutes ≤ occurredAt - lastOccurredAt)

/-! ## Pauses -/

/-- The pauses, in seconds, between a message and an answer to it by another
sender; a pause that would be negative is not counted. -/
def latencies (messages : List WindowMessagePayload) : List ℚ :=
  (messages.zip messages.tail).filterMap fun (prev, msg) =>
    if msg.tgSenderId ≠ prev.tgSenderId ∧ 0 ≤ msg.occurredAt - prev.occurredAt then
      some ((msg.occurredAt - prev.occurredAt : ℤ) / 1000000)
    else none

/-! ## Patterns and word lists -/

section Patterns

variable [CharData]

def isLatinOrDigit (c : Char) : Bool := asciiLetter c || asciiDigit c

/-- `[A-Za-z\u0400-\u04FF0-9]`. -/
def isWordStart (c : Char) : Bool :=
  isLatinOrDigit c || (0x400 ≤ c.toNat && c.toNat ≤ 0x4FF)

def isWordRest (c : Char) : Bool := isWordStart c || c == '_' || c == '-'

/-- `(?<!\w)@([A-Za-z0-9_]{3,32})`. -/
def handleRe : Pat :=
  .seq (.notBehind isWord) (.seq (.lit "@")
    (.group 1 (.rep true 3 (some 32) (.cls fun c => isLatinOrDigit c || c == '_'))))

/-- `\b[A-Za-z0-9._%+-]+@[A-Za-z0-9.-]+\.[A-Za-z]{2,}\b`. -/
def emailRe : Pat :=
  .seq (.boundary isWord)
    (.seq (.atLeast 1 fun c => isLatinOrDigit c || "._%+-".toList.contains c)
      (.seq (.lit "@")
        (.seq (.atLeast 1 fun c => isLatinOrDigit c || c == '.' || c == '-')
          (.seq (.lit ".") (.seq (.atLeast 2 asciiLetter) (.boundary isWord))))))

/-- `(?<!\w)\+?\d[\d\-\s()]{7,}\d`. -/
def phoneRe : Pat :=
  .seq (.notBehind isWord) (.seq (.opt (.lit "+")) (.seq (.cls CharData.isDecimal)
    (.seq (.atLeast 7 fun c => CharData.isDecimal c || isSpace c || "-()".toList.contains c)
      (.cls CharData.isDecimal))))

/-- `https?://[^\s]+`, ignoring case. -/
def linkRe : Pat :=
  .seq (.litIgnoreCase "http") (.seq (.opt (.litIgnoreCase "s"))
    (.seq (.lit "://") (.atLeast 1 fun c => !isSpace c)))

/-- `[A-Za-z\u0400-\u04FF0-9][A-Za-z\u0400-\u04FF0-9_-]{2,}`. -/
def wordRe : Pat := .seq (.cls isWordStart) (.atLeast 2 isWordRest)

def positiveHints : List String :=
  ["спасибо", "thanks", "great", "отлично", "супер", "ok", "done"]

def negativeHints : List String :=
  ["срочно", "urgent", "проблема", "ошибка", "fail", "плохо", "не успеваю"]

def stopwords : List String :=
  ["это", "как", "для", "with", "that", "this", "что", "если", "будет", "нужно", "please",
    "from", "have", "just", "when", "your", "about", "http", "https"]

/-- `_normalized_words` on one text: the folded words that are neither stop words
nor numbers. -/
def normalizedWords (text : String) : List String :=
  ((findall wordRe text).map casefold).filter fun w => !(stopwords.contains w || isDigit w)

/-- `_compact_phone`. -/
def compactPhone (value : List Char) : String :=
  String.ofList (value.filter CharData.isDecimal)

/-! ## Features -/

/-- `_sentiment_hint`. -/
def sentimentHint (positiveHits negativeHits : ℕ) : SentimentHint :=
  if positiveHits ≠ 0 ∧ negativeHits ≠ 0 then .mixed
  else if negativeHits ≠ 0 then .negative
  else if positiveHits ≠ 0 then .positive
  else .neutral

/-- `compute_message_features`, with the default `window_kind`. -/
def computeMessageFeatures (messages : List WindowMessagePayload) (chatType : ChatType) :
    MessageFeatureSet :=
  if messages = [] then { chatType }
  else
    let participantIds := messages.filterMap (·.tgSenderId)
    let texts := messages.map (·.text)
    let words := texts.flatMap normalizedWords
    let pauses := latencies messages
    { chatType
      messageCount := messages.length
      participantCount := (sortedIntSet participantIds).length
      participantTgIds := sortedIntSet participantIds
      authorActivity := counter (participantIds.map toString)
      mentionHandles := sortedSet (texts.flatMap fun text =>
        (finditer handleRe text).map fun m => String.ofList (m.group 1))
      links := sortedSet (texts.flatMap (findall linkRe))
      emails := sortedSet (texts.flatMap (findall emailRe))
      phones := sortedSet (texts.flatMap fun text =>
        (finditer phoneRe text).map fun m => compactPhone m.text)
      keywordCandidates := (mostCommon 8 (counter words)).map (·.1)
      sentimentHint := sentimentHint (words.countP (positiveHints.contains ·))
        (words.countP (negativeHints.contains ·))
      attachmentCount := messages.countP fun m => m.mediaType.any (· ≠ "")
      forwardedCount := messages.countP (·.isForwarded)
      replyCount := messages.countP (·.replyToMessageId.isSome)
      medianResponseLatencySec :=
        if pauses = [] then none else some (Rounding.round3 (Rounding.median pauses)) }

/-- The type of the chat is passed on. -/
theorem computeMessageFeatures_chatType (messages : List WindowMessagePayload)
    (chatType : ChatType) : (computeMessageFeatures messages chatType).chatType = chatType := by
  unfold computeMessageFeatures
  split_ifs <;> rfl

/-- `summarize_messages`, with the default `limit_chars`. -/
def summarizeMessages (messages : List WindowMessagePayload) : String :=
  let parts := (messages.take 6).map fun msg =>
    let speaker :=
      if msg.tgSenderId.any (· ≠ 0) then
        if msg.tgSenderName.any (· ≠ "") then msg.tgSenderName.getD ""
        else s!"tg:{msg.tgSenderId.getD 0}"
      else "неизвестный"
    s!"{speaker}: {strip msg.text}"
  let summary := " | ".intercalate (parts.filter fun item => !isBlank item)
  if summary.length ≤ 360 then summary else ellipsis summary 357

/-- One minus the overlap of two sets of words, listed without repetition. -/
def wordDrift (first second : List String) : ℚ :=
  if first = [] ∨ second = [] then 0
  else
    let overlap := first.filter (· ∈ second)
    let union := first ++ second.filter (· ∉ first)
    Rounding.round3 (1 - overlap.length / union.length)

/-- `topic_drift_score`: how little the words of the two halves overlap. -/
def topicDriftScore (messages : List WindowMessagePayload) : ℚ :=
  if messages.length < 2 then 0
  else
    let midpoint := (messages.length + 1) / 2
    wordDrift ((messages.take midpoint).flatMap (normalizedWords ·.text)).dedup
      ((messages.drop midpoint).flatMap (normalizedWords ·.text)).dedup

/-! ## Ranges -/

omit [CharData] in
/-- An overlap is part of the union, so the drift is a proportion. -/
theorem wordDrift_mem_unit (first second : List String) : UnitRange (wordDrift first second) := by
  unfold wordDrift
  split_ifs
  · exact ⟨le_refl _, by norm_num⟩
  · have hle : ((first.filter (· ∈ second)).length : ℚ) ≤
        (first ++ second.filter (· ∉ first)).length := by
      have h := List.length_filter_le (· ∈ second) first
      rw [List.length_append]
      exact_mod_cast h.trans (Nat.le_add_right _ _)
    have h0 : (0 : ℚ) ≤ (first.filter (· ∈ second)).length /
        (first ++ second.filter (· ∉ first)).length := by positivity
    have h1 := div_le_one_of_le₀ hle (Nat.cast_nonneg _)
    exact Rounding.round3_mem_unit (by linarith) (by linarith)

/-- The drift score is in the range a signal may have. -/
theorem topicDriftScore_mem_unit (messages : List WindowMessagePayload) :
    UnitRange (topicDriftScore messages) := by
  unfold topicDriftScore
  split_ifs
  · exact ⟨le_refl _, by norm_num⟩
  · exact wordDrift_mem_unit _ _

end Patterns

end Orchestrator
end PersonalIntelligence
