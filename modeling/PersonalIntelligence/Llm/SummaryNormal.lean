import PersonalIntelligence.Llm.Fences
import Mathlib.Data.Finset.Card

/-!
# The form of a payload

Whatever the reply is, the summary of the payload is tidy, not empty and not too long, and
the lists have no more entries than they may, none of them empty or longer than 120
characters.  `_normalize_list` leaves out an item whose text repeats that of another one up
to case, and cuts the entries after that.  So it can only be the cut that makes two entries
the same up to case.

When it does is a matter of the items that the reply has (`Discernible`).  Those that become
entries are the ones with a text that no item before them has, as long as there is room.  By
an induction over the items from the right (`pairwise_distinctTexts_iff`) the entries are
different exactly if no two of these items agree in the first 120 characters; so they are if
no text is longer than that (`Discernible.of_short`).
-/

namespace PersonalIntelligence
namespace Llm

open PyText Regex

/-! ## Summaries -/

theorem tidy_noSummary : Tidy noSummary.toList ∧ noSummary ≠ "" ∧ noSummary.length = 21 := by
  have hchain : noSummary.toList.IsChain fun a b => isSpace a = false ∨ isSpace b = false := by
    decide
  refine ⟨⟨?_, ?_, hchain⟩, by decide, by decide⟩
  · intro c hc
    obtain rfl := Option.some.inj hc
    decide
  · intro c hc
    obtain rfl := Option.some.inj hc
    decide

theorem truncate_ne_empty {text : String} (h : compact text ≠ "") (limit : ℕ) :
    truncate text limit ≠ "" := by
  unfold truncate
  dsimp only
  by_cases hshort : (compact text).length ≤ limit
  · rw [if_pos hshort]
    exact h
  · rw [if_neg hshort, ellipsis, Ne, String.ofList_eq_empty_iff, List.append_eq_nil_iff, not_and]
    exact fun _ => by decide

theorem truncate_spec (text : String) {limit : ℕ} (hlimit : 4 ≤ limit) :
    Tidy (truncate text limit).toList ∧ (truncate text limit).length ≤ limit := by
  unfold truncate
  dsimp only
  by_cases hshort : (compact text).length ≤ limit
  · rw [if_pos hshort]
    exact ⟨tidy_compact text, hshort⟩
  · have hne : compact text ≠ "" := by
      intro hempty
      rw [hempty] at hshort
      exact hshort (Nat.zero_le limit)
    obtain ⟨htidy, hlength⟩ := tidy_ellipsis (tidy_compact text) hne (n := limit - 3) (by omega)
    rw [if_neg hshort, if_pos (by omega)]
    exact ⟨htidy, by omega⟩

/-! ## Lists -/

section Lists

variable [CharData] (json : Json)

/-- The texts of the items, without empty ones and without those that repeat an earlier one
up to case. -/
def distinctTexts : List JsonValue → (seen : List String) → List String
  | [], _ => []
  | item :: rest, seen =>
    if itemText json item = "" ∨ casefold (itemText json item) ∈ seen then distinctTexts rest seen
    else itemText json item :: distinctTexts rest (seen ++ [casefold (itemText json item)])

/-- The texts of which `_normalize_list` makes its entries. -/
def keptTexts (value : Option JsonValue) (limit : ℕ) : List String :=
  match value with
  | some (.array items) => (distinctTexts json items []).take limit
  | _ => []

theorem ne_empty_of_mem_distinctTexts {items : List JsonValue} {seen : List String}
    {text : String} (h : text ∈ distinctTexts json items seen) : text ≠ "" := by
  induction items generalizing seen with
  | nil => cases h
  | cons item rest ih =>
    unfold distinctTexts at h
    split_ifs at h with hskip
    · exact ih h
    · rcases List.mem_cons.mp h with rfl | h
      · exact fun hempty => hskip (.inl hempty)
      · exact ih h

/-- The loop makes the entries of the texts. -/
theorem normalizeListFrom_eq {limit : ℕ} (items : List JsonValue) {seen normalized : List String}
    (h : normalized.length < limit) :
    normalizeListFrom json limit items seen normalized = normalized ++
      ((distinctTexts json items seen).take (limit - normalized.length)).map (upTo · 120) := by
  induction items generalizing seen normalized with
  | nil => simp [normalizeListFrom, distinctTexts]
  | cons item rest ih =>
    unfold normalizeListFrom distinctTexts
    dsimp only
    by_cases hempty : itemText json item = ""
    · rw [if_pos (String.isEmpty_iff.mpr hempty), if_pos (.inl hempty)]
      exact ih h
    by_cases hseen : casefold (itemText json item) ∈ seen
    · rw [if_neg (mt String.isEmpty_iff.mp hempty), if_pos hseen, if_pos (.inr hseen)]
      exact ih h
    rw [if_neg (mt String.isEmpty_iff.mp hempty), if_neg hseen, if_neg (not_or.mpr ⟨hempty, hseen⟩)]
    obtain ⟨room, hroom⟩ : ∃ room, limit - normalized.length = room + 1 :=
      Nat.exists_eq_succ_of_ne_zero (by omega)
    rw [hroom, List.take_succ_cons, List.map_cons]
    have hlength : (normalized ++ [upTo (itemText json item) 120]).length =
        normalized.length + 1 := List.length_append
    split_ifs with hfull
    · obtain rfl : room = 0 := by omega
      rw [List.take_zero, List.map_nil]
    · have hleft : limit - (normalized ++ [upTo (itemText json item) 120]).length = room := by omega
      rw [ih (by omega), hleft, List.append_assoc, List.singleton_append]

/-- The entries are the kept texts, cut. -/
theorem normalizeList_eq (value : Option JsonValue) {limit : ℕ} (hlimit : 1 ≤ limit) :
    normalizeList json value limit = (keptTexts json value limit).map (upTo · 120) := by
  cases value with
  | none => rfl
  | some value =>
    cases value with
    | array items => exact normalizeListFrom_eq json items hlimit
    | _ => rfl

/-- No more entries than allowed, none of them empty or too long, and no two of them the
same up to case. -/
structure NormalList (limit : ℕ) (entries : List String) : Prop where
  length : entries.length ≤ limit
  entry : ∀ entry ∈ entries, entry ≠ "" ∧ entry.length ≤ 120
  distinct : entries.Pairwise fun x y => casefold x ≠ casefold y

theorem NormalList.ne_of_eq_pair {limit : ℕ} {entries : List String}
    (h : NormalList limit entries) {x y : String} (heq : entries = [x, y]) :
    casefold x ≠ casefold y := by
  subst heq
  exact List.rel_of_pairwise_cons h.distinct (List.mem_singleton_self y)

/-! ### The items that become entries -/

/-- The item has a text, and no item before it has the same up to case. -/
def IsNew (before : List JsonValue) (item : JsonValue) : Prop :=
  itemText json item ≠ "" ∧ ∀ other ∈ before, itemText json other ≠ "" →
    casefold (itemText json other) ≠ casefold (itemText json item)

/-- How many different texts the items have, up to case. -/
def differentTexts (items : List JsonValue) : ℕ :=
  ((items.filter (itemText json · ≠ "")).map fun item => casefold (itemText json item)).toFinset.card

/-- Two items that are new, and come while there is room for an entry, are told apart by
their first 120 characters. -/
def Discernible (items : List JsonValue) (limit : ℕ) : Prop :=
  ∀ before x between y after, items = before ++ x :: between ++ y :: after →
    IsNew json before x → IsNew json (before ++ x :: between) y →
      differentTexts json (before ++ x :: between) < limit →
        casefold (upTo (itemText json x) 120) ≠ casefold (upTo (itemText json y) 120)

theorem distinctTexts_append (items later : List JsonValue) (seen : List String) :
    distinctTexts json (items ++ later) seen = distinctTexts json items seen ++
      distinctTexts json later (seen ++ (distinctTexts json items seen).map casefold) := by
  induction items generalizing seen with
  | nil => simp [distinctTexts]
  | cons item rest ih =>
    rw [List.cons_append, distinctTexts, distinctTexts]
    split_ifs
    · exact ih seen
    · rw [ih, List.cons_append, List.map_cons, List.append_assoc, List.singleton_append]

/-- The texts that are seen are those of the items. -/
theorem mem_map_casefold_distinctTexts {items : List JsonValue} {seen : List String} {key : String} :
    key ∈ seen ++ (distinctTexts json items seen).map casefold ↔ key ∈ seen ∨
      ∃ item ∈ items, itemText json item ≠ "" ∧ casefold (itemText json item) = key := by
  induction items generalizing seen with
  | nil => simp [distinctTexts]
  | cons item rest ih =>
    rw [distinctTexts, List.exists_mem_cons_iff]
    split_ifs with hskip
    · rw [ih]
      refine ⟨Or.imp_right .inr, ?_⟩
      rintro (hseen | ⟨hne, rfl⟩ | hrest)
      · exact .inl hseen
      · exact .inl (hskip.resolve_left hne)
      · exact .inr hrest
    · have hne : itemText json item ≠ "" := fun hempty => hskip (.inl hempty)
      rw [List.map_cons, ← List.singleton_append, ← List.append_assoc, ih, List.mem_append,
        List.mem_singleton, or_assoc]
      refine or_congr_right (or_congr_left ?_)
      exact ⟨fun heq => ⟨hne, heq.symm⟩, fun h => h.2.symm⟩

/-- One more item: it is kept if it is new. -/
theorem distinctTexts_concat [∀ items item, Decidable (IsNew json items item)]
    (items : List JsonValue) (item : JsonValue) :
    distinctTexts json (items ++ [item]) [] = distinctTexts json items [] ++
      if IsNew json items item then [itemText json item] else [] := by
  have hnew : IsNew json items item ↔ ¬ (itemText json item = "" ∨
      casefold (itemText json item) ∈ [] ++ (distinctTexts json items []).map casefold) := by
    rw [mem_map_casefold_distinctTexts, not_or, or_iff_right List.not_mem_nil]
    refine and_congr_right fun _ => ?_
    constructor
    · rintro h ⟨other, hother, hne, heq⟩
      exact h other hother hne heq
    · exact fun h other hother hne heq => h ⟨other, hother, hne, heq⟩
  rw [distinctTexts_append]
  refine congrArg _ ?_
  rw [distinctTexts, distinctTexts]
  split_ifs with hskip hkeep hkeep
  · exact absurd hskip (hnew.mp hkeep)
  · rfl
  · rfl
  · exact absurd (hnew.mpr hskip) hkeep

/-- The texts that are kept are those of the new items. -/
theorem mem_distinctTexts_iff {items : List JsonValue} {text : String} :
    text ∈ distinctTexts json items [] ↔ ∃ before item after, items = before ++ item :: after ∧
      IsNew json before item ∧ itemText json item = text := by
  classical
  induction items using List.reverseRecOn with
  | nil => simp [distinctTexts]
  | append_singleton items last ih =>
    rw [distinctTexts_concat, List.mem_append, ih]
    constructor
    · rintro (⟨before, item, after, rfl, hnew, htext⟩ | hlast)
      · exact ⟨before, item, after ++ [last], by simp, hnew, htext⟩
      · split_ifs at hlast with hnew
        · exact ⟨items, last, [], rfl, hnew, (List.mem_singleton.mp hlast).symm⟩
        · cases hlast
    · rintro ⟨before, item, after, heq, hnew, htext⟩
      rcases List.eq_nil_or_concat after with rfl | ⟨after, final, rfl⟩
      · obtain ⟨rfl, hitem⟩ := List.append_inj' heq rfl
        obtain rfl := List.singleton_inj.mp hitem
        rw [if_pos hnew, htext]
        exact .inr (List.mem_singleton_self text)
      · rw [List.concat_eq_append, ← List.cons_append, ← List.append_assoc] at heq
        exact .inl ⟨before, item, after, (List.append_inj' heq rfl).1, hnew, htext⟩

/-- There are as many of them as there are different texts. -/
theorem length_distinctTexts (items : List JsonValue) :
    (distinctTexts json items []).length = differentTexts json items := by
  have hnodup : ((distinctTexts json items []).map casefold).Nodup := by
    classical
    induction items using List.reverseRecOn with
    | nil => exact List.nodup_nil
    | append_singleton items last ih =>
      rw [distinctTexts_concat]
      split_ifs with hnew
      · rw [List.map_append, List.map_singleton]
        refine List.nodup_append.mpr ⟨ih, List.nodup_singleton _, fun key hkey key' hkey' heq => ?_⟩
        obtain rfl := List.mem_singleton.mp hkey'
        have hseen := (@mem_map_casefold_distinctTexts _ json items [] key).mp hkey
        rcases hseen with h | ⟨other, ho, hne, hk⟩
        · cases h
        · exact hnew.2 other ho hne (hk.trans heq)
      · rwa [List.append_nil]
  rw [← List.length_map casefold, ← List.toFinset_card_of_nodup hnodup, differentTexts]
  congr 1
  ext key
  have hkey := @mem_map_casefold_distinctTexts _ json items [] key
  rw [List.nil_append, or_iff_right List.not_mem_nil] at hkey
  rw [List.mem_toFinset, List.mem_toFinset, hkey, List.mem_map]
  constructor
  · rintro ⟨item, hitem, hne, heq⟩
    exact ⟨item, List.mem_filter.mpr ⟨hitem, decide_eq_true hne⟩, heq⟩
  · rintro ⟨item, hitem, heq⟩
    obtain ⟨hitem, hne⟩ := List.mem_filter.mp hitem
    exact ⟨item, hitem, of_decide_eq_true hne, heq⟩

/-- One more item in a list of items. -/
theorem discernible_concat {items : List JsonValue} {last : JsonValue} {limit : ℕ} :
    Discernible json (items ++ [last]) limit ↔ Discernible json items limit ∧
      (IsNew json items last → differentTexts json items < limit →
        ∀ text ∈ distinctTexts json items [],
          casefold (upTo text 120) ≠ casefold (upTo (itemText json last) 120)) := by
  constructor
  · intro h
    refine ⟨fun before x between y after heq => ?_, fun hnew hroom text htext => ?_⟩
    · exact h before x between y (after ++ [last]) (by rw [heq]; simp)
    · obtain ⟨before, x, between, rfl, hx, rfl⟩ := (mem_distinctTexts_iff json).mp htext
      exact h before x between last [] (by simp) hx hnew hroom
  · rintro ⟨hitems, hlast⟩ before x between y after heq hx hy hroom
    rcases List.eq_nil_or_concat after with rfl | ⟨after, final, rfl⟩
    · obtain ⟨rfl, hlasteq⟩ := List.append_inj' heq rfl
      obtain rfl := List.singleton_inj.mp hlasteq
      exact hlast hy hroom _ ((mem_distinctTexts_iff json).mpr ⟨before, x, between, rfl, hx, rfl⟩)
    · rw [List.concat_eq_append, ← List.cons_append, ← List.append_assoc] at heq
      exact hitems before x between y after (List.append_inj' heq rfl).1 hx hy hroom

/-- **The entries are different** exactly if the items are discernible. -/
theorem pairwise_distinctTexts_iff (items : List JsonValue) (limit : ℕ) :
    ((distinctTexts json items []).take limit).Pairwise
        (fun x y => casefold (upTo x 120) ≠ casefold (upTo y 120)) ↔
      Discernible json items limit := by
  classical
  induction items using List.reverseRecOn with
  | nil => simp [distinctTexts, Discernible]
  | append_singleton items last ih =>
    rw [distinctTexts_concat, discernible_concat, ← ih, ← length_distinctTexts]
    split_ifs with hnew
    · rw [imp_iff_right hnew]
      rcases lt_or_ge (distinctTexts json items []).length limit with hroom | hfull
      · rw [imp_iff_right hroom, List.take_of_length_le hroom.le,
          List.take_of_length_le (by rw [List.length_append]; exact hroom), List.pairwise_append]
        refine and_congr_right fun _ => ?_
        simp
      · rw [List.take_append_of_le_length hfull]
        exact (and_iff_left fun hroom => absurd hroom hfull.not_gt).symm
    · rw [List.append_nil]
      exact (and_iff_left fun h => absurd h hnew).symm

variable {json} in
/-- Texts of at most 120 characters are not cut. -/
theorem Discernible.of_short {items : List JsonValue} (limit : ℕ)
    (h : ∀ item ∈ items, (itemText json item).length ≤ 120) : Discernible json items limit := by
  have hwhole : ∀ item ∈ items, upTo (itemText json item) 120 = itemText json item := by
    intro item hitem
    have hlength : (itemText json item).toList.length ≤ 120 :=
      (String.length_toList ..).trans_le (h item hitem)
    rw [upTo, List.take_of_length_le hlength, String.ofList_toList]
  rintro before x between y after rfl hx hy -
  rw [hwhole x (by simp), hwhole y (by simp)]
  exact hy.2 x (by simp) hx.1

theorem ne_empty_of_mem_keptTexts {value : Option JsonValue} {limit : ℕ} {text : String}
    (h : text ∈ keptTexts json value limit) : text ≠ "" := by
  cases value with
  | none => cases h
  | some value =>
    cases value with
    | array items => exact ne_empty_of_mem_distinctTexts json (List.mem_of_mem_take h)
    | _ => cases h

theorem length_keptTexts (value : Option JsonValue) (limit : ℕ) :
    (keptTexts json value limit).length ≤ limit := by
  cases value with
  | none => exact Nat.zero_le limit
  | some value =>
    cases value with
    | array items => exact List.length_take_le limit _
    | _ => exact Nat.zero_le limit

/-- The items of a field: those of its list, if it is one. -/
def itemsOf : Option JsonValue → List JsonValue
  | some (.array items) => items
  | _ => []

theorem keptTexts_eq (value : Option JsonValue) (limit : ℕ) :
    keptTexts json value limit = (distinctTexts json (itemsOf value) []).take limit := by
  cases value with
  | none => exact List.take_nil.symm
  | some value =>
    cases value with
    | array items => rfl
    | _ => exact List.take_nil.symm

theorem normalList_iff (value : Option JsonValue) {limit : ℕ} (hlimit : 1 ≤ limit) :
    NormalList limit (normalizeList json value limit) ↔
      Discernible json (itemsOf value) limit := by
  rw [normalizeList_eq json value hlimit, ← pairwise_distinctTexts_iff, ← keptTexts_eq]
  constructor
  · intro h
    have hdistinct := h.distinct
    rw [List.pairwise_map] at hdistinct
    exact hdistinct
  · intro h
    refine ⟨?_, ?_, ?_⟩
    · rw [List.length_map]
      exact length_keptTexts json value limit
    · intro entry hentry
      obtain ⟨text, htext, rfl⟩ := List.mem_map.mp hentry
      have hne := mt String.toList_eq_nil_iff.mp (ne_empty_of_mem_keptTexts json htext)
      unfold upTo
      constructor
      · rw [Ne, String.ofList_eq_empty_iff]
        simpa using hne
      · rw [String.length_ofList]
        exact List.length_take_le 120 _
    · rw [List.pairwise_map]
      exact h

/-! ### Texts that stay as they are -/

/-- Compact, and with nothing to strip. -/
structure Clean (text : String) : Prop where
  nonempty : text ≠ ""
  compact : PyText.compact text = text
  head : ∀ c ∈ text.toList.head?, c ∉ " ,.;:-".toList
  last : ∀ c ∈ text.toList.getLast?, c ∉ " ,.;:-".toList

omit [CharData] in
theorem strOr_string {text default : String} (h : text ≠ "") :
    json.strOr (some (.string text)) default = text := by
  have htruthy : (JsonValue.string text).truthy = true := by
    have hempty := mt String.isEmpty_iff.mp h
    simpa [JsonValue.truthy] using hempty
  unfold Json.strOr
  dsimp only
  rw [if_pos htruthy, Json.toStr]

omit [CharData] in
theorem itemText_clean {text : String} (h : Clean text) :
    itemText json (.string text) = text := by
  rw [itemText, strOr_string json h.nonempty, h.compact, stripChars_eq_self h.head h.last]

theorem distinctTexts_clean {texts seen : List String} (hclean : ∀ text ∈ texts, Clean text)
    (hdistinct : texts.Pairwise fun x y => casefold x ≠ casefold y)
    (hseen : ∀ text ∈ texts, casefold text ∉ seen) :
    distinctTexts json (texts.map .string) seen = texts := by
  induction texts generalizing seen with
  | nil => rfl
  | cons text rest ih =>
    obtain ⟨hfirst, hrest⟩ := List.pairwise_cons.mp hdistinct
    have htext := hclean text List.mem_cons_self
    rw [List.map_cons, distinctTexts, itemText_clean json htext, if_neg, ih]
    · exact fun t ht => hclean t (List.mem_cons_of_mem text ht)
    · exact hrest
    · intro t ht
      rw [List.mem_append, List.mem_singleton, not_or]
      exact ⟨hseen t (List.mem_cons_of_mem text ht), (hfirst t ht).symm⟩
    · rw [not_or]
      exact ⟨htext.nonempty, hseen text List.mem_cons_self⟩

end Lists

/-! ## Payloads -/

section Payloads

variable [CharData]

/-- The form of a payload.  That the sentiment is one of four is part of its type. -/
structure NormalForm (limits : Limits) (payload : SummaryPayload) : Prop where
  nonempty : payload.summary ≠ ""
  tidy : Tidy payload.summary.toList
  length : payload.summary.length ≤ limits.maxSummaryChars
  topics : NormalList limits.maxTopics payload.topics
  tasks : NormalList limits.maxTasks payload.tasks

variable (json : Json) (rawText : String)

/-- What stands in for a missing summary. -/
def fallback : String :=
  if (summaryText rawText).isEmpty then noSummary else summaryText rawText

/-- The payload if nothing could be read. -/
theorem parseSummaryPayload_of_empty (limits : Limits)
    (h : summaryData json (summaryText rawText) = []) :
    parseSummaryPayload json rawText limits =
      { summary := truncate (fallback rawText) limits.maxSummaryChars } := by
  unfold parseSummaryPayload
  dsimp only
  rw [if_pos (List.isEmpty_iff.mpr h)]
  rfl

/-- The payload of the fields that could be read. -/
theorem parseSummaryPayload_of_ne_nil (limits : Limits) {data : List (String × JsonValue)}
    (h : summaryData json (summaryText rawText) = data) (hne : data ≠ []) :
    parseSummaryPayload json rawText limits =
      let sentiment := lower (strip (json.strOr (data.lookup "sentiment") "neutral"))
      let summary :=
        truncate (json.strOr (data.lookup "summary") (fallback rawText)) limits.maxSummaryChars
      { topics := normalizeList json (data.lookup "topics") limits.maxTopics
        sentiment := (parseSentiment sentiment).getD .neutral
        summary := if summary.isEmpty then noSummary else summary
        tasks := normalizeList json (data.lookup "tasks") limits.maxTasks } := by
  unfold parseSummaryPayload
  dsimp only
  rw [h, if_neg (mt List.isEmpty_iff.mp hne)]
  rfl

/-- The lists of a payload.  If nothing could be read they are empty. -/
theorem lists_parseSummaryPayload (limits : Limits) :
    (parseSummaryPayload json rawText limits).topics =
        normalizeList json ((summaryData json (summaryText rawText)).lookup "topics")
          limits.maxTopics ∧
      (parseSummaryPayload json rawText limits).tasks =
        normalizeList json ((summaryData json (summaryText rawText)).lookup "tasks")
          limits.maxTasks := by
  by_cases hdata : summaryData json (summaryText rawText) = []
  · rw [parseSummaryPayload_of_empty json rawText limits hdata, hdata]
    exact ⟨rfl, rfl⟩
  · rw [parseSummaryPayload_of_ne_nil json rawText limits rfl hdata]
    dsimp only
    exact ⟨rfl, rfl⟩

/-- The text that stands in for a missing summary is not blank. -/
theorem compact_fallback_ne_empty : compact (fallback rawText) ≠ "" := by
  unfold fallback
  split_ifs with hempty
  · exact compact_ne_empty (c := 'N') (by decide) (by decide)
  · exact compact_strip_ne_empty (mt String.isEmpty_iff.mpr hempty)

/-- The summary of a payload is always what it should be. -/
theorem summary_parseSummaryPayload {limits : Limits} (h : 21 ≤ limits.maxSummaryChars) :
    Tidy (parseSummaryPayload json rawText limits).summary.toList ∧
      (parseSummaryPayload json rawText limits).summary ≠ "" ∧
      (parseSummaryPayload json rawText limits).summary.length ≤ limits.maxSummaryChars := by
  have hspec := fun text => truncate_spec text (show 4 ≤ limits.maxSummaryChars by omega)
  by_cases hdata : summaryData json (summaryText rawText) = []
  · rw [parseSummaryPayload_of_empty json rawText limits hdata]
    dsimp only
    obtain ⟨htidy, hlength⟩ := hspec (fallback rawText)
    exact ⟨htidy, truncate_ne_empty (compact_fallback_ne_empty rawText) _, hlength⟩
  · rw [parseSummaryPayload_of_ne_nil json rawText limits rfl hdata]
    dsimp only
    split_ifs with hsummary
    · obtain ⟨htidy, hnonempty, hlength⟩ := tidy_noSummary
      exact ⟨htidy, hnonempty, hlength.trans_le h⟩
    · obtain ⟨htidy, hlength⟩ := hspec _
      exact ⟨htidy, mt String.isEmpty_iff.mpr hsummary, hlength⟩

/-- The items of a field of the reply. -/
def replyItems (field : String) : List JsonValue :=
  itemsOf ((summaryData json (summaryText rawText)).lookup field)

/-- **The form of a payload.**  A reply is made a payload in normal form exactly if the items
of its topics, and those of its tasks, are told apart by their first 120 characters. -/
theorem parseSummaryPayload_normalForm_iff (limits : Limits)
    (hsummary : 21 ≤ limits.maxSummaryChars) (htopics : 1 ≤ limits.maxTopics)
    (htasks : 1 ≤ limits.maxTasks) :
    NormalForm limits (parseSummaryPayload json rawText limits) ↔
      Discernible json (replyItems json rawText "topics") limits.maxTopics ∧
        Discernible json (replyItems json rawText "tasks") limits.maxTasks := by
  obtain ⟨heqTopics, heqTasks⟩ := lists_parseSummaryPayload json rawText limits
  unfold replyItems
  rw [← normalList_iff json _ htopics, ← normalList_iff json _ htasks, ← heqTopics, ← heqTasks]
  constructor
  · exact fun h => ⟨h.topics, h.tasks⟩
  · rintro ⟨htopics', htasks'⟩
    obtain ⟨htidy, hnonempty, hlength⟩ := summary_parseSummaryPayload json rawText hsummary
    exact ⟨hnonempty, htidy, hlength, htopics', htasks'⟩

end Payloads

/-! ## Two replies -/

/-- A parser that knows what one text says. -/
def parserOf (text : String) (value : JsonValue) : Json where
  loads s := if s = text then some value else none
  str _ := ""

theorem loads_parserOf (text : String) (value : JsonValue) :
    (parserOf text value).loads text = some value :=
  if_pos rfl

def trips : String := "\x7b\"topics\": [\"Trip\", \"TRIP\", \"Berlin\"]\x7d"

def tripsValue : JsonValue :=
  .object [("topics", .array [.string "Trip", .string "TRIP", .string "Berlin"])]

/-- Short topics are fine. -/
theorem normalForm_trips :
    let _ := basicCharData
    NormalForm {} (parseSummaryPayload (parserOf trips tripsValue) trips {}) := by
  let _ := basicCharData
  have hshort : (∀ item ∈ replyItems (parserOf trips tripsValue) trips "topics",
        (itemText (parserOf trips tripsValue) item).length ≤ 120) ∧
      ∀ item ∈ replyItems (parserOf trips tripsValue) trips "tasks",
        (itemText (parserOf trips tripsValue) item).length ≤ 120 := by
    decide +kernel
  exact (parseSummaryPayload_normalForm_iff (parserOf trips tripsValue) trips {} (by decide)
    (by decide) (by decide)).mpr ⟨.of_short 5 hshort.1, .of_short 5 hshort.2⟩

/-- Two topics of 121 characters, -/
def beginning : List Char := List.replicate 120 'a'

def longTopics : List String :=
  [String.ofList (beginning ++ ['b']), String.ofList (beginning ++ ['c'])]

def longItems : List Char :=
  "\"topics\": [\"".toList ++ beginning ++ "b\", \"".toList ++ beginning ++ "c\"]".toList

def longReply : String := String.ofList ('\x7b' :: (longItems ++ ['\x7d']))

def longParser : Json :=
  parserOf longReply (.object [("topics", .array (longTopics.map .string))])

theorem clean_longTopics : ∀ text ∈ longTopics, Clean text := by
  have hclean : ∀ c, isSpace c = false → c ∉ " ,.;:-".toList →
      Clean (String.ofList (beginning ++ [c])) := by
    intro c hspace hstrip
    have hword : ∀ d ∈ beginning ++ [c], isSpace d = false := by
      intro d hd
      rcases List.mem_append.mp hd with hd | hd
      · rw [List.eq_of_mem_replicate hd]
        decide
      · rwa [List.mem_singleton.mp hd]
    refine ⟨?_, ?_, ?_, ?_⟩
    · rw [Ne, String.ofList_eq_empty_iff]
      simp
    · refine compact_of_spaced ⟨Tidy.of_word hword, fun d hd hd' => ?_⟩
      rw [hword d hd] at hd'
      cases hd'
    · rw [String.toList_ofList]
      intro d hd
      obtain rfl : d = 'a' := Option.some.inj hd.symm
      decide
    · rw [String.toList_ofList]
      simpa using hstrip
  intro text htext
  have hcases : text = String.ofList (beginning ++ ['b']) ∨
      text = String.ofList (beginning ++ ['c']) := by
    simpa [longTopics] using htext
  rcases hcases with rfl | rfl
  · exact hclean 'b' (by decide) (by decide)
  · exact hclean 'c' (by decide) (by decide)

/-- that are the same in the payload. -/
theorem not_normalForm_longReply :
    let _ := basicCharData
    ¬ NormalForm {} (parseSummaryPayload longParser longReply {}) := by
  intro _ h
  have hdata : summaryData longParser (summaryText longReply) =
      [("topics", .array (longTopics.map .string))] := by
    have hline : '\n' ∉ longItems := by decide
    have hloads : longParser.loads longReply =
        some (.object [("topics", .array (longTopics.map .string))]) := loads_parserOf longReply _
    have hobject := @summaryData_object basicCharData ascii_basicCharData longParser [] longItems []
      ⟨List.not_mem_nil, List.not_mem_nil⟩ hline ⟨List.not_mem_nil, List.not_mem_nil⟩ _ hloads
    rwa [List.nil_append, List.append_nil] at hobject
  have htexts : distinctTexts longParser (longTopics.map .string) [] = longTopics := by
    refine distinctTexts_clean longParser clean_longTopics ?_ fun _ _ => List.not_mem_nil
    refine List.pairwise_pair.mpr fun heq => ?_
    rw [casefold, casefold, String.toList_ofList, String.toList_ofList, String.ofList_inj] at heq
    exact absurd heq (by decide)
  have htopics : (parseSummaryPayload longParser longReply {}).topics =
      [String.ofList beginning, String.ofList beginning] := by
    rw [(lists_parseSummaryPayload longParser longReply {}).1, hdata]
    have hkept : keptTexts longParser (some (.array (longTopics.map .string))) 5 = longTopics := by
      rw [keptTexts, htexts]
      rfl
    refine (normalizeList_eq longParser _ (by decide)).trans ?_
    refine (congrArg (List.map (upTo · 120)) hkept).trans ?_
    simp only [longTopics, List.map_cons, List.map_nil, upTo, String.toList_ofList]
    rfl
  exact h.topics.ne_of_eq_pair htopics rfl

end Llm
end PersonalIntelligence
