import PersonalIntelligence.Orchestrator.Preprocessing

/-!
# `ai_orchestrator/llm.py`

The analysis of one window: ask the two providers in turn, accept the first reply
that parses and validates, and fall back on a heuristic analysis of the features.

A provider is whatever it answers to a prompt: it may be unavailable, raise, or
reply with any text.  `json.loads` followed by `StructuredAnalysisResult
.model_validate` is the parameter `modelValidate` of a configuration; it raises or
returns a record whose constraints hold.  Everything after the reply, the
sanitising, the translation round and the heuristics, is the code's own.
-/

namespace PersonalIntelligence
namespace Orchestrator

open PyText Regex

/-- What a provider is asked. -/
inductive Prompt where
  /-- `_user_prompt`: analyse this window. -/
  | analysis (sourceWindowId : Ident) (messages : List WindowMessagePayload)
      (features : MessageFeatureSet)
  /-- `_translation_user_prompt`: translate this result. -/
  | translation (result : StructuredAnalysisResult)

/-- `OpenAICompatTextClient`, as its behaviour. -/
structure Provider where
  isAvailable : Bool
  completeText : Prompt → Except Exc String

/-- `AnalysisRouter` with the settings it reads. -/
structure AnalysisRouter where
  wormsoft : Provider
  polza : Provider
  /-- `json.loads` and `model_validate` on the JSON block of a reply. -/
  modelValidate : String → Except Exc ValidatedResult
  analysisOutputLanguage : String

/-! ## Heuristics -/

section Heuristics

variable [CharData]

/-- `\b(todo|...)\b`, ignoring case. -/
def taskHintRe : Pat :=
  .seq (.boundary isWord) (.seq
    (.anyIgnoreCase ["todo", "нужно", "сделай", "please", "надо", "дедлайн", "срок"])
    (.boundary isWord))

/-- `_heuristic_task_title`. -/
def heuristicTaskTitle (text : String) : String :=
  let cleaned := compact (strip text)
  if cleaned = "" then "Нужен follow-up по сообщению"
  else if cleaned.length ≤ 84 then s!"Нужно проверить: {cleaned}"
  else s!"Нужно проверить: {ellipsis cleaned 81}"

/-- The number of messages of the most active sender. -/
def dominantCount (features : MessageFeatureSet) : ℕ :=
  (features.authorActivity.map (·.2)).foldr max 0

/-- The number of messages that have a sender. -/
def senderCount (features : MessageFeatureSet) : ℕ := (features.authorActivity.map (·.2)).sum

def responsiveness (features : MessageFeatureSet) : ℚ :=
  let latency := features.medianResponseLatencySec.getD 0
  if latency ≤ 0 then 1 else max 0 (min 1 (1 - min latency 7200 / 7200))

def initiativeBalance (features : MessageFeatureSet) : ℚ :=
  if features.authorActivity = [] then 0
  else 1 - min 1 (dominantCount features / max (senderCount features : ℚ) 1 - 1 / 2)

def friction (features : MessageFeatureSet) : ℚ :=
  match features.sentimentHint with
  | .negative => 7 / 10
  | .mixed => 1 / 2
  | _ => 1 / 5

def health (features : MessageFeatureSet) : ℚ :=
  max 0 (min 1 ((responsiveness features + initiativeBalance features +
    (1 - friction features)) / 3))

def activity (features : MessageFeatureSet) : ℚ :=
  max 0 (min 1 (features.messageCount / 20))

/-- The six signals of `_heuristic_signals`, before their constructors have looked
at the scores. -/
def signalDrafts (messages : List WindowMessagePayload) (features : MessageFeatureSet) :
    List AnalyticsSignal :=
  let evidence := (messages.take 3).map (·.tgMessageId)
  [{ kind := .responsiveness
     score := Rounding.round3 (responsiveness features)
     summary := "Оценка построена по паузам между ответами собеседников."
     evidenceMessageIds := evidence
     payload := .medianResponseLatencySec (features.medianResponseLatencySec.getD 0) },
   { kind := .initiativeBalance
     score := Rounding.round3 (max (initiativeBalance features) 0)
     summary := "Оценка построена по распределению активности между участниками окна."
     evidenceMessageIds := evidence
     payload := .authorActivity features.authorActivity },
   { kind := .topicDrift
     score := Rounding.round3 (topicDriftScore messages)
     summary :=
       "Оценка построена по пересечению ключевых слов между первой и второй половиной окна."
     evidenceMessageIds := evidence
     payload := .keywordCandidates features.keywordCandidates },
   { kind := .friction
     score := Rounding.round3 (min (max (friction features) 0) 1)
     summary := "Оценка построена по тону сообщений и признакам негативной срочности."
     evidenceMessageIds := evidence
     payload := .sentimentHint features.sentimentHint },
   { kind := .conversationHealth
     score := Rounding.round3 (health features)
     summary :=
       "Сводная оценка на основе отзывчивости, баланса инициативы и уровня напряжения."
     evidenceMessageIds := evidence },
   { kind := .activity
     score := Rounding.round3 (activity features)
     summary := "Оценка построена по количеству сообщений внутри окна."
     evidenceMessageIds := evidence
     payload := .messageCount features.messageCount }]

/-- `_heuristic_signals`. -/
def heuristicSignals (messages : List WindowMessagePayload) (features : MessageFeatureSet) :
    Except Exc (List AnalyticsSignal) :=
  (signalDrafts messages features).mapM (·.validate)

/-- A claim of `_heuristic_analysis`: they all cite the first message. -/
def contactClaim (messages : List WindowMessagePayload) (kind : ClaimKind)
    (predicate object claim caveat : String) (confidence : ℚ) : StructuredClaim :=
  { kind, predicate, object := some object, claim, confidence
    evidenceMessageIds := [(messages.head?.map (·.tgMessageId)).getD 0]
    caveats := [caveat] }

def heuristicClaims (messages : List WindowMessagePayload) (features : MessageFeatureSet) :
    List StructuredClaim :=
  (features.emails.map fun email =>
    contactClaim messages .contact "shared_email" email
      s!"В переписке был передан адрес электронной почты: {email}."
      "Извлечено детерминированным preprocessing без семантической интерпретации."
      (72 / 100)) ++
  (features.phones.map fun phone =>
    contactClaim messages .contact "shared_phone" phone
      s!"В переписке был передан номер телефона: {phone}."
      "Извлечено детерминированным preprocessing без семантической интерпретации."
      (7 / 10)) ++
  ((features.links.take 3).map fun link =>
    contactClaim messages .fact "shared_link" link
      s!"В переписке была отправлена ссылка: {link}."
      "Ссылка встречается в текущем окне сообщений."
      (68 / 100))

def heuristicTasks (messages : List WindowMessagePayload) : List StructuredTask :=
  ((messages.filter fun msg => (search taskHintRe msg.text).isSome).take 3).map fun msg =>
    { title := heuristicTaskTitle msg.text
      priority := 3
      confidence := 55 / 100
      evidenceMessageIds := [msg.tgMessageId]
      caveats := ["Задача выделена эвристически, без подтверждения внешней LLM."] }

/-- `_heuristic_analysis`. -/
def heuristicAnalysis (sourceWindowId : Ident) (messages : List WindowMessagePayload)
    (features : MessageFeatureSet) : Except Exc StructuredAnalysisResult := do
  let signals ← heuristicSignals messages features
  return {
    sourceWindowId
    summary := summarizeMessages messages
    topics := features.keywordCandidates.take 5
    participants := features.participantTgIds
    claims := heuristicClaims messages features
    tasks := heuristicTasks messages
    analyticsSignals := signals
    confidence := 58 / 100
    caveats := ["Результат сформирован без ответа внешней LLM."] }

end Heuristics

/-! ## The reply of a provider -/

/-- `min(max(x, 0.0), 1.0)`. -/
def clampUnit (x : ℚ) : ℚ := min (max x 0) 1

/-- The evidence that names messages of the window. -/
def windowEvidence (messages : List WindowMessagePayload) (ids : List ℤ) : List ℤ :=
  ids.filter (· ∈ messages.map (·.tgMessageId))

/-- The claims that still have evidence. -/
def safeClaims (messages : List WindowMessagePayload) (claims : List StructuredClaim) :
    List StructuredClaim :=
  (claims.filter fun c => windowEvidence messages c.evidenceMessageIds ≠ []).map fun c =>
    { c with
      confidence := clampUnit c.confidence
      evidenceMessageIds := windowEvidence messages c.evidenceMessageIds }

/-- The tasks that still have evidence. -/
def safeTasks (messages : List WindowMessagePayload) (tasks : List StructuredTask) :
    List StructuredTask :=
  (tasks.filter fun t => windowEvidence messages t.evidenceMessageIds ≠ []).map fun t =>
    { t with
      priority := min (max t.priority 1) 5
      confidence := clampUnit t.confidence
      evidenceMessageIds := windowEvidence messages t.evidenceMessageIds }

/-- The signals, all of which stay. -/
def safeSignals (messages : List WindowMessagePayload) (signals : List AnalyticsSignal) :
    List AnalyticsSignal :=
  signals.map fun s =>
    { s with
      score := clampUnit s.score
      evidenceMessageIds := windowEvidence messages s.evidenceMessageIds }

section Reply

variable [CharData]

/-- `_sanitize_result`: the heuristic signals stand in for missing ones. -/
def sanitizeResult (result : StructuredAnalysisResult) (messages : List WindowMessagePayload)
    (features : MessageFeatureSet) : Except Exc StructuredAnalysisResult := do
  let signals ←
    if safeSignals messages result.analyticsSignals = [] then heuristicSignals messages features
    else pure (safeSignals messages result.analyticsSignals)
  return { result with
    claims := safeClaims messages result.claims
    tasks := safeTasks messages result.tasks
    analyticsSignals := signals
    confidence := clampUnit result.confidence }

/-- `\{.*\}` with `re.DOTALL`. -/
def jsonRe : Pat := .seq (.lit "\x7b") (.seq (.rep true 0 none (.cls fun _ => true)) (.lit "\x7d"))

/-- The JSON block of a reply, if it has one. -/
def jsonBlock (raw : String) : Option String :=
  (search jsonRe raw).map fun m => String.ofList m.text

/-- `_human_readable_texts`. -/
def humanReadableTexts (result : StructuredAnalysisResult) : List String :=
  let texts := [result.summary] ++ result.topics ++ result.caveats ++
    (result.claims.flatMap fun c => [c.claim, c.subject.getD "", c.object.getD ""] ++ c.caveats) ++
    (result.tasks.flatMap fun t => [t.title, t.description.getD ""] ++ t.caveats) ++
    result.analyticsSignals.map (·.summary)
  texts.filter fun text => !isBlank text

/-- `_looks_mostly_latin`. -/
def looksMostlyLatin (text : String) : Bool :=
  let folded := fun c => String.ofList (CharData.casefold c)
  let latin := text.toList.countP fun c => decide ("a" ≤ folded c ∧ folded c ≤ "z")
  let cyrillic := text.toList.countP fun c =>
    decide ("а" ≤ folded c ∧ folded c ≤ "я") || c == 'Ё' || c == 'ё'
  decide (3 ≤ latin ∧ cyrillic < latin)

namespace AnalysisRouter

variable (router : AnalysisRouter)

/-- `_parse_analysis_payload`. -/
def parseAnalysisPayload (raw : String) (sourceWindowId : Ident)
    (messages : List WindowMessagePayload) (features : MessageFeatureSet) :
    Except Exc StructuredAnalysisResult :=
  match jsonBlock raw with
  | none => heuristicAnalysis sourceWindowId messages features
  | some block => do
    let result ← router.modelValidate block
    sanitizeResult { result.val with sourceWindowId } messages features

/-- `_needs_russian_translation`. -/
def needsRussianTranslation (result : StructuredAnalysisResult) : Bool :=
  if casefold (strip router.analysisOutputLanguage) ≠ "ru" then false
  else (humanReadableTexts result).any looksMostlyLatin

/-- The body of the `try` in `analyze`: one provider's answer. -/
def ask (client : Provider) (sourceWindowId : Ident) (messages : List WindowMessagePayload)
    (features : MessageFeatureSet) : Except Exc StructuredAnalysisResult := do
  let raw ← client.completeText (.analysis sourceWindowId messages features)
  let result ← router.parseAnalysisPayload raw sourceWindowId messages features
  if router.needsRussianTranslation result then
    let translatedRaw ← client.completeText (.translation result)
    let translated ←
      router.parseAnalysisPayload translatedRaw sourceWindowId messages features
    if !router.needsRussianTranslation translated then return translated
  return result

/-- The loop of `analyze` over the clients; any exception moves on to the next. -/
def askInTurn (sourceWindowId : Ident) (messages : List WindowMessagePayload)
    (features : MessageFeatureSet) : List Provider → Except Exc StructuredAnalysisResult
  | [] => heuristicAnalysis sourceWindowId messages features
  | client :: rest =>
    if !client.isAvailable then askInTurn sourceWindowId messages features rest
    else
      match router.ask client sourceWindowId messages features with
      | .ok result => .ok result
      | .error _ => askInTurn sourceWindowId messages features rest

/-- `AnalysisRouter.analyze`. -/
def analyze (sourceWindowId : Ident) (messages : List WindowMessagePayload)
    (features : MessageFeatureSet) : Except Exc StructuredAnalysisResult :=
  router.askInTurn sourceWindowId messages features [router.wormsoft, router.polza]

end AnalysisRouter

end Reply

end Orchestrator
end PersonalIntelligence
