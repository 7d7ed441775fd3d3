import PersonalIntelligence.Contracts.Events
import PersonalIntelligence.Library.FirstMatch

/-!
# `pil_llm`: the summary in a reply

`parse_summary_payload` makes a `SummaryPayload` of whatever text a language model has
replied with.  Code fences are taken off, the text from the first brace to the last is
parsed as JSON, and if that fails, or there is no closing brace, the fields are looked for
one by one with regular expressions.  What is found goes through three normalisers.

`json.loads` is a parameter: it returns a value or raises `JSONDecodeError`.  So is `str`
on lists, dictionaries and floats.
-/

namespace PersonalIntelligence
namespace Llm

open PyText Regex

/-! ## Values of `json.loads` -/

inductive JsonValue where
  | null
  | bool (value : Bool)
  | int (value : ℤ)
  /-- A float, which is zero or not. -/
  | float (repr : String) (isZero : Bool)
  | string (value : String)
  | array (items : List JsonValue)
  /-- A dictionary, as its items. -/
  | object (fields : List (String × JsonValue))

namespace JsonValue

/-- `bool(value)`. -/
def truthy : JsonValue → Bool
  | null => false
  | bool value => value
  | int value => value ≠ 0
  | float _ isZero => !isZero
  | string value => !value.isEmpty
  | array items => !items.isEmpty
  | object fields => !fields.isEmpty

end JsonValue

/-- What the standard library does with JSON. -/
structure Json where
  /-- `json.loads`, where it does not raise `JSONDecodeError`. -/
  loads : String → Option JsonValue
  /-- `str` of a list or a dictionary. -/
  str : JsonValue → String

/-- `str(value)`. -/
def Json.toStr (json : Json) : JsonValue → String
  | .null => "None"
  | .bool value => if value then "True" else "False"
  | .int value => toString value
  | .float repr _ => repr
  | .string value => value
  | value => json.str value

/-- `str(value or default)`, where the value may be missing. -/
def Json.strOr (json : Json) (value : Option JsonValue) (default : String) : String :=
  match value with
  | some value => if value.truthy then json.toStr value else default
  | none => default

/-! ## The payload -/

structure SummaryPayload where
  topics : List String := []
  sentiment : SentimentHint := .neutral
  summary : String := ""
  tasks : List String := []
  deriving DecidableEq, Repr

/-- The keyword arguments of `parse_summary_payload`, none of them negative. -/
structure Limits where
  maxSummaryChars : ℕ := 350
  maxTopics : ℕ := 5
  maxTasks : ℕ := 5
  deriving DecidableEq, Repr

/-- A member of `_VALID_SENTIMENTS`. -/
def parseSentiment : String → Option SentimentHint
  | "positive" => some .positive
  | "negative" => some .negative
  | "neutral" => some .neutral
  | "mixed" => some .mixed
  | _ => none

def noSummary : String := "No summary generated."

/-! ## Patterns -/

section Patterns

/-- `\s*`. -/
def spaces : Pat := .atLeast 0 isSpace

/-- `.*` and `.*?` under `re.DOTALL`. -/
def anything (greedy : Bool) : Pat := .rep greedy 0 none (.cls fun _ => true)

/-- `^` under `re.MULTILINE`. -/
def lineStart : Pat := .notBehind (· ≠ '\n')

/-- `$` under `re.MULTILINE`. -/
def lineEnd : Pat :=
  .look fun _ ahead => match ahead with
    | c :: _ => c == '\n'
    | [] => true

/-- `$`: the end, or the last character if it is a newline. -/
def textEnd : Pat := .look fun _ ahead => ahead == [] || ahead == ['\n']

/-- `_JSON_BLOCK_RE`, `\{.*\}`. -/
def jsonBlockRe : Pat := .seq (.lit "\x7b") (.seq (anything true) (.lit "\x7d"))

/-- `_CODE_FENCE_RE`, three backticks with what is around them, at the start or at the end
of a line. -/
def codeFenceRe [CharData] : Pat :=
  .alt
    (.seq lineStart (.seq spaces (.seq (.lit "```") (.seq (.opt (.litIgnoreCase "json")) spaces))))
    (.seq spaces (.seq (.lit "```") (.seq spaces lineEnd)))

/-- What ends the value in `_SUMMARY_FIELD_RE`. -/
def summaryEnd : Pat :=
  .alt
    (.seq (.lit "\"") (.seq spaces (.seq (.lit ",") (.seq spaces (.seq (.lit "\"")
      (.seq (.anyOf [.lit "topics", .lit "tasks", .lit "sentiment"]) (.lit "\"")))))))
    (.alt (.seq (.lit "\"") (.seq spaces (.lit "\x7d"))) textEnd)

/-- `"name"\s*:\s*`. -/
def fieldName (name : String) (rest : Pat) : Pat :=
  .seq (.lit ("\"" ++ name ++ "\"")) (.seq spaces (.seq (.lit ":") (.seq spaces rest)))

/-- `_SUMMARY_FIELD_RE`; the value is group 1. -/
def summaryFieldRe : Pat :=
  fieldName "summary" (.seq (.lit "\"") (.seq (.group 1 (anything false)) summaryEnd))

/-- `_LIST_FIELD_TEMPLATES[name]`; the items are group 1. -/
def listFieldRe (name : String) : Pat :=
  fieldName name (.seq (.lit "[") (.seq (.group 1 (anything false)) (.lit "]")))

/-- `"((?:\\.|[^"])*)"`. -/
def listItemRe : Pat :=
  .seq (.lit "\"") (.seq
    (.group 1 (.rep true 0 none
      (.alt (.seq (.lit "\\") (.cls (· ≠ '\n'))) (.cls (· ≠ '"'))))) (.lit "\""))

end Patterns

/-! ## Normalisers -/

section Normalisers

variable [CharData]

/-- The text of a list item, as `_normalize_list` reads it. -/
def itemText (json : Json) (item : JsonValue) : String :=
  stripChars " ,.;:-".toList (compact (json.strOr (some item) ""))

/-- The loop of `_normalize_list`. -/
def normalizeListFrom (json : Json) (limit : ℕ) :
    List JsonValue → (seen normalized : List String) → List String
  | [], _, normalized => normalized
  | item :: rest, seen, normalized =>
    let text := itemText json item
    if text.isEmpty then normalizeListFrom json limit rest seen normalized
    else
      let lowered := casefold text
      if lowered ∈ seen then normalizeListFrom json limit rest seen normalized
      else
        let normalized := normalized ++ [upTo text 120]
        if limit ≤ normalized.length then normalized
        else normalizeListFrom json limit rest (seen ++ [lowered]) normalized

/-- `_normalize_list`. -/
def normalizeList (json : Json) (value : Option JsonValue) (limit : ℕ) : List String :=
  match value with
  | some (.array items) => normalizeListFrom json limit items [] []
  | _ => []

/-- `_truncate`.  A limit below three makes `limit - 3` an index from the end. -/
def truncate (text : String) (limit : ℕ) : String :=
  let compacted := compact text
  if compacted.length ≤ limit then compacted
  else ellipsis compacted (if 3 ≤ limit then limit - 3 else compacted.length + limit - 3)

/-- `_strip_code_fences`. -/
def stripCodeFences (text : String) : String := strip (sub codeFenceRe text)

end Normalisers

/-! ## Recovery -/

section Recovery

variable (json : Json)

/-- `f'"{value}"'`. -/
def quoted (value : String) : String := "\"" ++ value ++ "\""

/-- `_parse_list_items`. -/
def parseListItems (rawItems : String) : List JsonValue :=
  (finditer listItemRe rawItems).filterMap fun m =>
    json.loads (quoted (String.ofList (m.group 1)))

/-- The field of `_SUMMARY_FIELD_RE`. -/
def partialSummary (text : String) : List (String × JsonValue) :=
  match search summaryFieldRe text with
  | some m =>
    let rawValue := strip (String.ofList (m.group 1))
    [("summary", (json.loads (quoted rawValue)).getD (.string rawValue))]
  | none => []

/-- A field of `_LIST_FIELD_TEMPLATES`. -/
def partialList (name text : String) : List (String × JsonValue) :=
  match search (listFieldRe name) text with
  | some m => [(name, .array (parseListItems json (String.ofList (m.group 1))))]
  | none => []

/-- `_extract_partial_summary_fields`. -/
def extractPartialSummaryFields (text : String) : List (String × JsonValue) :=
  partialSummary json text ++ partialList json "topics" text ++ partialList json "tasks" text

/-- What `parse_summary_payload` reads from the text: the fields of the JSON object, or those
that can be recovered. -/
def summaryData (text : String) : List (String × JsonValue) :=
  match search jsonBlockRe text with
  | some m =>
    let block := String.ofList m.text
    match json.loads block with
    | some (.object fields) => fields
    | some _ => []
    | none => extractPartialSummaryFields json block
  | none =>
    if occursIn "\"summary\"" text || occursIn "\"topics\"" text || occursIn "\"tasks\"" text then
      extractPartialSummaryFields json text
    else []

variable [CharData]

/-- The text that `parse_summary_payload` works on. -/
def summaryText (rawText : String) : String := stripCodeFences (strip rawText)

/-- `parse_summary_payload`. -/
def parseSummaryPayload (rawText : String) (limits : Limits) : SummaryPayload :=
  let text := summaryText rawText
  let fallback := if text.isEmpty then noSummary else text
  let data := summaryData json text
  if data.isEmpty then { summary := truncate fallback limits.maxSummaryChars }
  else
    let sentiment := lower (strip (json.strOr (data.lookup "sentiment") "neutral"))
    let summary := truncate (json.strOr (data.lookup "summary") fallback) limits.maxSummaryChars
    { topics := normalizeList json (data.lookup "topics") limits.maxTopics
      sentiment := (parseSentiment sentiment).getD .neutral
      summary := if summary.isEmpty then noSummary else summary
      tasks := normalizeList json (data.lookup "tasks") limits.maxTasks }

end Recovery

end Llm
end PersonalIntelligence
