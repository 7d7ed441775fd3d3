import PersonalIntelligence.Llm.SummaryNormal

/-!
# Reading back a summary

A payload that the normalisers leave as it is can be written as a JSON object on one line
and read back, whatever text without braces there is around it: all of the object is found,
and each of the normalisers is the identity (`parseSummaryPayload_encoded`).
-/

namespace PersonalIntelligence
namespace Llm

open PyText Regex

theorem upTo_eq_self {text : String} {n : ℕ} (h : text.length ≤ n) : upTo text n = text := by
  rw [upTo, List.take_of_length_le (by rwa [String.length_toList]), String.ofList_toList]

theorem truncate_canonical {text : String} {limit : ℕ} (hcompact : compact text = text)
    (h : text.length ≤ limit) : truncate text limit = text := by
  unfold truncate
  dsimp only
  rw [hcompact, if_pos h]

section Canonical

variable [CharData]

/-- A list that `_normalize_list` leaves as it is. -/
structure CanonicalList (limit : ℕ) (entries : List String) : Prop where
  length : entries.length ≤ limit
  clean : ∀ entry ∈ entries, Clean entry
  short : ∀ entry ∈ entries, entry.length ≤ 120
  distinct : entries.Pairwise fun x y => casefold x ≠ casefold y

/-- A payload that is left as it is.  That the sentiment is valid is part of its type. -/
structure Canonical (limits : Limits) (payload : SummaryPayload) : Prop where
  nonempty : payload.summary ≠ ""
  compact : PyText.compact payload.summary = payload.summary
  length : payload.summary.length ≤ limits.maxSummaryChars
  topics : CanonicalList limits.maxTopics payload.topics
  tasks : CanonicalList limits.maxTasks payload.tasks

theorem normalizeList_canonical (json : Json) {limit : ℕ} {entries : List String}
    (h : CanonicalList limit entries) :
    normalizeList json (some (.array (entries.map .string))) limit = entries := by
  rcases Nat.eq_zero_or_pos limit with rfl | hlimit
  · obtain rfl := List.eq_nil_of_length_eq_zero (Nat.le_zero.mp h.length)
    rfl
  · have hkept : keptTexts json (some (.array (entries.map .string))) limit = entries := by
      rw [keptTexts, distinctTexts_clean json h.clean h.distinct fun _ _ => List.not_mem_nil]
      exact List.take_of_length_le h.length
    rw [normalizeList_eq json _ hlimit, hkept]
    exact (List.map_congr_left fun entry hentry => upTo_eq_self (h.short entry hentry)).trans
      (List.map_id' entries)

end Canonical

/-! ## Encodings -/

def sentimentText : SentimentHint → String
  | .positive => "positive"
  | .negative => "negative"
  | .neutral => "neutral"
  | .mixed => "mixed"

/-- The items of a payload. -/
def payloadFields (payload : SummaryPayload) : List (String × JsonValue) :=
  [("topics", .array (payload.topics.map .string)),
    ("sentiment", .string (sentimentText payload.sentiment)),
    ("summary", .string payload.summary),
    ("tasks", .array (payload.tasks.map .string))]

/-- A JSON object on one line that says what the payload says, in some order. -/
structure Encoded (json : Json) (payload : SummaryPayload) (text : List Char) : Prop where
  object : ∃ middle, text = '\x7b' :: (middle ++ ['\x7d'])
  line : '\n' ∉ text
  loads : ∃ fields, json.loads (String.ofList text) = some (.object fields) ∧
    fields.Perm (payloadFields payload)

theorem lookup_eq_some_of_mem {α : Type} {key : String} {value : α}
    {fields : List (String × α)} (hkeys : (fields.map Prod.fst).Nodup)
    (h : (key, value) ∈ fields) : fields.lookup key = some value := by
  induction fields with
  | nil => cases h
  | cons field rest ih =>
    obtain ⟨name, v⟩ := field
    rw [List.map_cons, List.nodup_cons] at hkeys
    rcases List.mem_cons.mp h with heq | hrest
    · obtain ⟨rfl, rfl⟩ := Prod.mk.inj heq
      exact List.lookup_cons_self
    · have hne : (key == name) = false := by
        refine beq_eq_false_iff_ne.mpr ?_
        rintro rfl
        exact hkeys.1 (List.mem_map.mpr ⟨(_, value), hrest, rfl⟩)
      rw [List.lookup_cons, hne]
      exact ih hkeys.2 hrest

/-- The order of the items does not matter. -/
theorem lookup_of_perm {payload : SummaryPayload} {fields : List (String × JsonValue)}
    (h : fields.Perm (payloadFields payload)) {key : String} {value : JsonValue}
    (hmem : (key, value) ∈ payloadFields payload) : fields.lookup key = some value := by
  have hkeys : ((payloadFields payload).map Prod.fst).Nodup := by
    simp [payloadFields]
  refine lookup_eq_some_of_mem ?_ (h.mem_iff.mpr hmem)
  exact (h.map Prod.fst).nodup_iff.mpr hkeys

section Decoding

variable [CharData]

theorem lower_of_ascii (hascii : Ascii) {s : String} (h : ∀ c ∈ s.toList, c.toNat < 128) :
    lower s = String.ofList (s.toList.map asciiLower) := by
  unfold lower
  congr 1
  rw [List.map_eq_flatMap]
  exact List.flatMap_congr fun c hc => hascii.lower c (h c hc)

/-- A sentiment can be read back. -/
theorem parseSentiment_sentimentText (hascii : Ascii) (sentiment : SentimentHint) :
    parseSentiment (lower (strip (sentimentText sentiment))) = some sentiment := by
  have hstrip : strip (sentimentText sentiment) = sentimentText sentiment := by
    cases sentiment with
    | positive | negative | neutral | mixed => decide
  have hlower : lower (sentimentText sentiment) = sentimentText sentiment := by
    rw [lower_of_ascii hascii]
    · cases sentiment with
      | positive | negative | neutral | mixed => decide
    · cases sentiment with
      | positive | negative | neutral | mixed => exact List.all_iff_forall_prop.mp (by decide)
  rw [hstrip, hlower]
  cases sentiment with
  | positive | negative | neutral | mixed => rfl

/-- **A payload can be read back** from an object on one line, whatever text without braces
there is before and after it.  Code fences are such text. -/
theorem parseSummaryPayload_encoded (hascii : Ascii) (json : Json) {limits : Limits}
    {payload : SummaryPayload} (hpayload : Canonical limits payload) {text : List Char}
    (htext : Encoded json payload text) {before after : List Char} (hbefore : BraceFree before)
    (hafter : BraceFree after) :
    parseSummaryPayload json (String.ofList (before ++ text ++ after)) limits = payload := by
  obtain ⟨middle, rfl⟩ := htext.object
  obtain ⟨fields, hloads, hperm⟩ := htext.loads
  have hline : '\n' ∉ middle := fun hmem => htext.line (by simp [hmem])
  have hdata := summaryData_object hascii hbefore hline hafter hloads
  have hne : fields ≠ [] := by
    rintro rfl
    exact List.cons_ne_nil _ _ hperm.nil_eq.symm
  have htopics : fields.lookup "topics" = some (.array (payload.topics.map .string)) :=
    lookup_of_perm hperm (by simp [payloadFields])
  have hsentiment : fields.lookup "sentiment" =
      some (.string (sentimentText payload.sentiment)) :=
    lookup_of_perm hperm (by simp [payloadFields])
  have hsummary : fields.lookup "summary" = some (.string payload.summary) :=
    lookup_of_perm hperm (by simp [payloadFields])
  have htasks : fields.lookup "tasks" = some (.array (payload.tasks.map .string)) :=
    lookup_of_perm hperm (by simp [payloadFields])
  have hword : sentimentText payload.sentiment ≠ "" := by
    cases payload.sentiment with
    | positive | negative | neutral | mixed => decide
  rw [parseSummaryPayload_of_ne_nil json _ limits hdata hne]
  dsimp only
  rw [htopics, hsentiment, hsummary, htasks, strOr_string json hword,
    strOr_string json hpayload.nonempty, parseSentiment_sentimentText hascii,
    normalizeList_canonical json hpayload.topics, normalizeList_canonical json hpayload.tasks,
    truncate_canonical hpayload.compact hpayload.length,
    if_neg (mt String.isEmpty_iff.mp hpayload.nonempty)]
  rfl

end Decoding

/-! ## A fenced reply -/

def fenced : SummaryPayload where
  topics := ["Shell"]
  sentiment := .positive
  summary := "Run ```ls``` \x7bnow\x7d"
  tasks := []

def fencedItems : List Char :=
  ("\"sentiment\": \"positive\", \"topics\": [\"Shell\"], " ++
    "\"summary\": \"Run ```ls``` \x7bnow\x7d\", \"tasks\": []").toList

def fencedText : List Char := '\x7b' :: (fencedItems ++ ['\x7d'])

def fencedParser : Json :=
  parserOf (String.ofList fencedText) (.object [("sentiment", .string "positive"),
    ("topics", .array [.string "Shell"]), ("summary", .string "Run ```ls``` \x7bnow\x7d"),
    ("tasks", .array [])])

theorem parseSummaryPayload_fenced :
    let _ := basicCharData
    parseSummaryPayload fencedParser (String.ofList ("Here:\n```json\n".toList ++ fencedText ++
      "\n```\nAnything else?".toList)) {} = fenced := by
  intro _
  have hcanonical : Canonical {} fenced := by
    refine ⟨by decide, by decide, by decide, ⟨by decide, ?_, by decide, ?_⟩,
      ⟨by decide, ?_, by decide, ?_⟩⟩
    · intro entry hentry
      obtain rfl := List.mem_singleton.mp hentry
      exact ⟨by decide, by decide, fun c hc => by obtain rfl := Option.some.inj hc; decide,
        fun c hc => by obtain rfl := Option.some.inj hc; decide⟩
    · exact List.pairwise_singleton _ _
    · exact fun entry hentry => absurd hentry List.not_mem_nil
    · exact List.Pairwise.nil
  have hencoded : Encoded fencedParser fenced fencedText :=
    ⟨⟨fencedItems, rfl⟩, by decide, _, loads_parserOf _ _, List.Perm.swap _ _ _⟩
  exact parseSummaryPayload_encoded ascii_basicCharData fencedParser hcanonical hencoded
    ⟨by decide, by decide⟩ ⟨by decide, by decide⟩

end Llm
end PersonalIntelligence
