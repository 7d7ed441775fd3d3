import PersonalIntelligence.Contracts.Events
import PersonalIntelligence.Library.Calendar
import PersonalIntelligence.Library.Regex
import PersonalIntelligence.Library.Rounding

/-!
# `task_extractor/rules.py`

Which messages are tasks: a message with the wording of a promise or of a request is a
`TaskCandidate`, and one with the wording of a resolution may close a task.  A candidate is
due when the text says so.

`dateparser` is optional and is not part of the repository.  It is the parameter
`SearchDates`: not installed, or a function that finds dates in a text or raises.

A `datetime` is the time on its own clock and the offset of that clock from UTC, if it is
known.  `replace` and the sum with a `timedelta` change the clock time.
-/

namespace PersonalIntelligence
namespace Tasks

open PyText Regex

/-! ## Times -/

/-- A `datetime`. -/
structure DateTime where
  wall : ℤ
  utcOffset : Option ℤ := none
  deriving DecidableEq, Repr

namespace DateTime

variable (t : DateTime)

/-- The instant, of an aware `datetime`. -/
def instant : Timestamp := t.wall - t.utcOffset.getD 0

/-- `t if t.tzinfo else t.replace(tzinfo=...)`. -/
def withOffset (utcOffset : Option ℤ) : DateTime :=
  if t.utcOffset.isSome then t else { t with utcOffset }

/-- `t + timedelta(days=n)`. -/
def addDays (n : ℤ) : DateTime := { t with wall := t.wall + n * Calendar.dayLength }

/-- `t.replace(day=d)`. -/
def replaceDay (d : ℕ) : DateTime :=
  { t with
    wall := Calendar.combine { Calendar.dateOf t.wall with day := d } (Calendar.timeOfDay t.wall) }

/-- `t.replace(hour=h, minute=0, second=0, microsecond=0)`. -/
def replaceHour (h : ℤ) : DateTime :=
  { t with wall := Calendar.combine (Calendar.dateOf t.wall) (seconds (h * 3600)) }

/-- `t.weekday()`: Monday is `0`. -/
def weekday : ℤ := (Calendar.toOrdinal (Calendar.dateOf t.wall) + 6) % 7

end DateTime

/-- `dateparser.search.search_dates`, if it is installed: the dates it finds in a text. -/
abbrev SearchDates := Option (String → DateTime → Except Exc (List DateTime))

/-! ## Wordings -/

inductive TaskKind where
  | promise
  | request
  deriving DecidableEq, Repr

/-- `TaskCandidate`. -/
structure TaskCandidate where
  kind : TaskKind
  title : String
  description : String
  dueAt : Option DateTime
  priority : ℤ
  confidence : ℚ
  evidence : String
  deriving DecidableEq, Repr

section Patterns

variable [CharData]

/-- `\b...\b`. -/
def wholeWords (body : Pat) : Pat :=
  .seq (.boundary isWord) (.seq body (.boundary isWord))

/-- `\s+`. -/
def spaces : Pat := .atLeast 1 isSpace

def promisePatterns : List Pat :=
  [.litIgnoreCase "сделаю", .litIgnoreCase "пришлю", .litIgnoreCase "отправлю",
    .litIgnoreCase "закину", .litIgnoreCase "согласую", .litIgnoreCase "уточню",
    .litIgnoreCase "подготовлю", .litIgnoreCase "добью", .litIgnoreCase "доделаю",
    .litIgnoreCase "переведу",
    .seq (.alt (.litIgnoreCase "i")
        (.seq (.litIgnoreCase "i") (.seq (.opt (.cls ("' ".toList.contains ·)))
          (.litIgnoreCase "ll"))))
      (.seq spaces (.seq (.opt (.seq (.litIgnoreCase "will") spaces))
        (.anyIgnoreCase ["send", "prepare", "check", "share", "update"]))),
    .seq (.litIgnoreCase "will") (.seq spaces
      (.anyIgnoreCase ["send", "prepare", "check", "share", "update"])),
    .litIgnoreCase "let me check"].map wholeWords

def requestPatterns : List Pat :=
  [.seq (.anyIgnoreCase ["нужно", "надо"]) (.seq spaces
      (.anyIgnoreCase ["сделать", "отправить", "прислать", "проверить", "подготовить",
        "согласовать", "сканировать", "перевести", "написать"])),
    .seq (.litIgnoreCase "отправь") (.seq (.opt (.litIgnoreCase "те"))
      (.opt (.seq spaces (.litIgnoreCase "мне")))),
    .seq (.litIgnoreCase "пришли") (.seq (.opt (.litIgnoreCase "те"))
      (.opt (.seq spaces (.litIgnoreCase "мне")))),
    .seq (.litIgnoreCase "напиш") (.anyIgnoreCase ["и", "ешь", "ите"]),
    .seq (.litIgnoreCase "проверь") (.opt (.litIgnoreCase "те")),
    .seq (.litIgnoreCase "скинь") (.opt (.litIgnoreCase "те")),
    .litIgnoreCase "сможешь", .litIgnoreCase "can you", .litIgnoreCase "could you",
    .seq (.litIgnoreCase "please") (.seq spaces
      (.anyIgnoreCase ["send", "share", "check", "review", "prepare"])),
    .litIgnoreCase "send me",
    .seq (.litIgnoreCase "need to") (.seq spaces
      (.anyIgnoreCase ["send", "share", "check", "review", "prepare"]))].map wholeWords

def resolutionPatterns : List Pat :=
  [.litIgnoreCase "сделал", .litIgnoreCase "сделано", .litIgnoreCase "готово",
    .litIgnoreCase "готов", .litIgnoreCase "вот ссылка", .litIgnoreCase "done",
    .litIgnoreCase "completed", .litIgnoreCase "sent"].map wholeWords

def promiseRe : Pat := .anyOf promisePatterns

def requestRe : Pat := .anyOf requestPatterns

def resolutionRe : Pat := .anyOf resolutionPatterns

end Patterns

/-! ## Candidates -/

/-- `_normalize_text`. -/
def normalizeText (text : String) : String :=
  strip (String.ofList (collapseFrom false text.toList))

/-- `_make_title`. -/
def makeTitle (text : String) : String :=
  let title := stripChars " .,:;!-".toList text
  if title.length ≤ 80 then title else ellipsis title 77

section Candidates

variable [CharData]

/-- `detect_resolution`. -/
def detectResolution (text : String) : Bool :=
  let normalized := normalizeText text
  !normalized.isEmpty && (search resolutionRe normalized).isSome

/-- `_extract_due_at_fallback`. -/
def extractDueAtFallback (text : String) (base : DateTime) : Option DateTime :=
  let lowered := lower text
  if occursIn "завтра" lowered || occursIn "tomorrow" lowered then some (base.addDays 1)
  else if occursIn "eod" lowered then some (base.replaceHour 18)
  else if occursIn "eow" lowered then
    some ((base.addDays (max 0 (4 - base.weekday))).replaceHour 18)
  else if occursIn "eom" lowered then
    let nextMonth := ((base.replaceDay 28).addDays 4).replaceDay 1
    some ((nextMonth.addDays (-1)).replaceHour 18)
  else none

/-- `_extract_due_at`.  `clock` is `datetime.now`. -/
def extractDueAt (searchDates : SearchDates) (clock : Timestamp) (text : String)
    (now : Option DateTime) : Option DateTime :=
  let base := (now.getD ⟨clock, some 0⟩).withOffset (some 0)
  let fallback := extractDueAtFallback text base
  match searchDates with
  | none => fallback
  | some findDates =>
    match findDates text base with
    | .error _ => none
    | .ok found =>
      ((found.map (·.withOffset base.utcOffset)).find? fun parsed =>
        base.instant ≤ parsed.instant).or fallback

/-- The wording of a task, and how sure it makes that there is one. -/
def wording (normalized : String) : Option (TaskKind × ℚ) :=
  if (search promiseRe normalized).isSome then some (.promise, 65 / 100)
  else if (search requestRe normalized).isSome then some (.request, 55 / 100)
  else none

/-- `extract_task_candidate`. -/
def extractTaskCandidate (searchDates : SearchDates) (clock : Timestamp) (text : String)
    (now : Option DateTime) : Option TaskCandidate :=
  let source := strip text
  let normalized := normalizeText source
  if source.isEmpty || normalized.length < 8 then none
  else
    match wording normalized with
    | none => none
    | some (kind, confidence) =>
      let dueAt := extractDueAt searchDates clock normalized now
      some
        { kind
          title := makeTitle normalized
          description := normalized
          dueAt
          priority := if dueAt.isSome then 3 else 2
          confidence := Rounding.round3 (if dueAt.isSome then max confidence (70 / 100)
            else confidence)
          evidence := upTo normalized 400 }

end Candidates

end Tasks
end PersonalIntelligence
