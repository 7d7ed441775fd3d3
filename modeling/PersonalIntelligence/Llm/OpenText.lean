import PersonalIntelligence.Llm.CutFields
import Mathlib.Data.List.Infix

/-!
# Fields of an open text

What `_extract_partial_summary_fields` makes of a text without a closing brace.  A list that
has arrived is read up to the first bracket in it (`lookup_list`).  The summary is read right
if the next key has arrived (`lookup_summary`); otherwise nothing ends its value but the end
of the text, and its closing quote is taken for a part of it (`lookup_summary_cut`).
-/

namespace PersonalIntelligence
namespace Llm

open PyText Regex

/-! ## Tokens -/

theorem textOf_append (ts ts' : List Token) : textOf (ts ++ ts') = textOf ts ++ textOf ts' :=
  List.flatMap_append

theorem textOf_nil : textOf [] = [] := rfl

theorem textOf_cons (t : Token) (ts : List Token) : textOf (t :: ts) = t.text ++ textOf ts :=
  List.flatMap_cons

/-! ## The fields of an open text -/

theorem occursIn_ofList {needle : String} {a b : List Char} :
    occursIn needle (String.ofList (a ++ (needle.toList ++ b))) = true := by
  unfold occursIn
  rw [String.toList_ofList, List.any_eq_true]
  exact ⟨needle.toList ++ b, (List.mem_tails _ _).mpr ⟨a, rfl⟩, List.isPrefixOf_iff_prefix.mpr
    (List.prefix_append _ _)⟩

/-- Whitespace is at neither end of an open text that does not end with some. -/
theorem strip_append_quote {body rest : List Char} (hspaced : Spaced body)
    (hlast : ∀ c ∈ rest.getLast?, isSpace c = false) :
    strip (String.ofList (body ++ '"' :: rest)) = String.ofList (body ++ '"' :: rest) := by
  refine strip_eq_self ?_ ?_
  · intro c hc
    rcases eq_or_ne body [] with rfl | hne
    · obtain rfl : '"' = c := Option.some.inj hc
      decide
    · rw [List.head?_append_of_ne_nil _ hne] at hc
      exact hspaced.tidy.head c hc
  · intro c hc
    rw [List.getLast?_append_of_ne_nil _ (List.cons_ne_nil _ _)] at hc
    cases rest with
    | nil =>
      obtain rfl : '"' = c := Option.some.inj hc
      decide
    | cons d rest =>
      rw [List.getLast?_cons_cons] at hc
      exact hlast c hc

section Fields

variable (json : Json) {text : String}

/-- Without a closing brace the fields are looked for one by one. -/
theorem summaryData_open {a b : List Char}
    (hopen : '\x7d' ∉ a ++ ("\"summary\"".toList ++ b)) :
    summaryData json (String.ofList (a ++ ("\"summary\"".toList ++ b))) =
      extractPartialSummaryFields json (String.ofList (a ++ ("\"summary\"".toList ++ b))) := by
  rw [summaryData, search_jsonBlock_eq_none hopen]
  dsimp only
  rw [if_pos]
  rw [occursIn_ofList, Bool.true_or, Bool.true_or]

variable {json}

/-- The value of the summary. -/
theorem lookup_partialSummary {m : Match} (h : search summaryFieldRe text = some m)
    {raw : String} (hraw : strip (String.ofList (m.group 1)) = raw) :
    (extractPartialSummaryFields json text).lookup "summary" =
      some ((json.loads (quoted raw)).getD (.string raw)) := by
  subst hraw
  unfold extractPartialSummaryFields partialSummary
  rw [h]
  rfl

/-- The list of a name. -/
theorem lookup_partialList {name : String} (hname : name = "topics" ∨ name = "tasks")
    {m : Match} (h : search (listFieldRe name) text = some m) :
    (extractPartialSummaryFields json text).lookup name =
      some (.array (parseListItems json (String.ofList (m.group 1)))) := by
  have hkeys : ∀ field ∈ partialSummary json text, field.1 = "summary" := by
    unfold partialSummary
    cases search summaryFieldRe text with
    | none => exact fun field h => absurd h List.not_mem_nil
    | some m => exact fun field h => by rw [List.mem_singleton.mp h]
  have hlist : ∀ other, ∀ field ∈ partialList json other text, field.1 = other := by
    intro other
    unfold partialList
    cases search (listFieldRe other) text with
    | none => exact fun field h => absurd h List.not_mem_nil
    | some m => exact fun field h => by rw [List.mem_singleton.mp h]
  have hnone : ∀ {fields : List (String × JsonValue)} {other : String}, other ≠ name →
      (∀ field ∈ fields, field.1 = other) → fields.lookup name = none := by
    intro fields other hne hfields
    rw [List.lookup_eq_none_iff]
    intro field hfield
    rw [hfields field hfield]
    simpa using hne.symm
  have hfound : (partialList json name text).lookup name =
      some (.array (parseListItems json (String.ofList (m.group 1)))) := by
    rw [partialList, h]
    exact List.lookup_cons_self
  unfold extractPartialSummaryFields
  rw [List.lookup_append, List.lookup_append]
  rcases hname with rfl | rfl
  · rw [hnone (by decide) hkeys, hfound]
    rfl
  · rw [hnone (by decide) hkeys, hnone (by decide) (hlist "topics"), hfound]
    rfl

/-- The brackets of a list are those of its strings. -/
theorem bracket_mem_itemsText {items : List Item} {gap : List Char}
    (hgaps : ∀ item ∈ items, Gap item.gap ∧ Gap item.gapAfter) (hgap : Gap gap) :
    ']' ∈ itemsText items gap ↔ ∃ item ∈ items, ']' ∈ item.body := by
  have hbracket : ∀ {w : List Char}, Gap w → ']' ∉ w := fun hw => hw.notMem (by decide)
  induction items with
  | nil =>
    refine iff_of_false (hbracket hgap) ?_
    rintro ⟨item, hitem, -⟩
    cases hitem
  | cons item rest ih =>
    obtain ⟨hitem, hafter⟩ := hgaps item List.mem_cons_self
    have hrest : ']' ∈ itemsText rest gap ↔ ∃ item ∈ rest, ']' ∈ item.body :=
      ih fun i hi => hgaps i (List.mem_cons_of_mem item hi)
    rw [itemsText_cons, List.exists_mem_cons_iff, ← hrest]
    split_ifs with hnil
    · subst hnil
      simp [hbracket hitem, hbracket hgap, itemsText, itemTokens, textOf]
    · simp [hbracket hitem, hbracket hafter]

/-- Strings in a list are no keys. -/
theorem keyFree_itemTokens {name : String} {gap : List Char} {ts : List Token}
    (hts : KeyFree name ts) (items : List Item) :
    KeyFree name (itemTokens items ++ .mark gap ']' :: ts) := by
  induction items with
  | nil => exact hts
  | cons item rest ih =>
    have hbracket : ']' = ':' → ¬ name.toList <:+ item.body := fun h => absurd h (by decide)
    have hcomma : ',' = ':' → ¬ name.toList <:+ item.body := fun h => absurd h (by decide)
    cases rest with
    | nil => exact ⟨⟨_, _, _, rfl, hbracket⟩, hts⟩
    | cons next rest => exact ⟨⟨_, _, _, rfl, hcomma⟩, ih⟩

/-- The text of a list ends at its first closing bracket, which is its own one if there is none
in the strings. -/
theorem exists_firstBracket {items : List Item} {gap : List Char}
    (hgaps : ∀ item ∈ items, Gap item.gap ∧ Gap item.gapAfter) (hgap : Gap gap)
    (rest : List Char) :
    ∃ inner tail, itemsText items gap ++ ']' :: rest = inner ++ ']' :: tail ∧ ']' ∉ inner ∧
      ((∀ item ∈ items, ']' ∉ item.body) → inner = itemsText items gap) ∧
      ((∃ item ∈ items, ']' ∈ item.body) →
        ∃ tail', itemsText items gap = inner ++ ']' :: tail') := by
  have hiff := bracket_mem_itemsText hgaps hgap
  by_cases hmem : ']' ∈ itemsText items gap
  · obtain ⟨inner, tail, heq, hnot⟩ := List.eq_append_cons_of_mem hmem
    refine ⟨inner, tail ++ ']' :: rest, by rw [heq]; simp, hnot, fun hall => ?_, fun _ => ⟨_, heq⟩⟩
    obtain ⟨item, hitem, hin⟩ := hiff.mp hmem
    exact absurd hin (hall item hitem)
  · exact ⟨_, rest, rfl, hmem, fun _ => rfl, fun h => absurd (hiff.mpr h) hmem⟩

/-- **A list that has arrived** is read right if there is no closing bracket in its strings,
and else only the beginning of it. -/
theorem lookup_list (hstrict : StringsStrict json) {name : String}
    (hname : name = "topics" ∨ name = "tasks") {before : List Token}
    (hok : ∀ t ∈ before, t.Ok) (hfree : KeyFree name before) {w w' w'' gap rest : List Char}
    (hw : Gap w ∧ Gap w' ∧ Gap w'' ∧ Gap gap) {values : List String} {items : List Item}
    (hvalues : List.Forall₂ (fun value item => EncodesString json value item.body) values items)
    (hgaps : ∀ item ∈ items, Gap item.gap ∧ Gap item.gapAfter) :
    ∃ found, (extractPartialSummaryFields json (String.ofList (textOf before ++ w ++
      '"' :: (name.toList ++ '"' :: (w' ++ ':' :: (w'' ++ '[' ::
        (itemsText items gap ++ ']' :: rest))))))).lookup name =
          some (.array (found.map .string)) ∧
      ((∀ item ∈ items, ']' ∉ item.body) → found = values) ∧
      ((∃ item ∈ items, ']' ∈ item.body) → ∃ k < values.length, found = values.take k) := by
  obtain ⟨hw, hw', hw'', hgap⟩ := hw
  have hkey : KeyName name := by
    rcases hname with rfl | rfl
    · exact keyName_topics
    · exact keyName_tasks
  obtain ⟨inner, tail, htail, hinner, hwhole, hcut⟩ := exists_firstBracket hgaps hgap rest
  have hnone : NoMatch (listFieldRe name) [] (textOf before ++ w) ('"' :: (name.toList ++
      '"' :: (w' ++ ':' :: (w'' ++ '[' :: (inner ++ ']' :: tail))))) :=
    (noMatch_tokens hkey hok hfree).append (noMatch_of_noQuote (hw.notMem (by decide)))
  obtain ⟨m, hsearch, hgroup⟩ := search_listField hnone hw'.isSpace hw''.isSpace hinner
  rw [← htail] at hsearch
  have hlookup := @lookup_partialList json _ _ hname _ hsearch
  rw [hgroup, parseListItems_ofList] at hlookup
  by_cases hall : ∀ item ∈ items, ']' ∉ item.body
  · refine ⟨values, ?_, fun _ => rfl, fun ⟨item, hitem, hmem⟩ => absurd hmem (hall item hitem)⟩
    rw [hlookup, hwhole hall, parseListItems_items hvalues hgaps hgap]
  · push Not at hall
    obtain ⟨tail', heq⟩ := hcut hall
    obtain ⟨k, hk, hread⟩ := parseListItems_cut hvalues hgaps hgap hstrict [] heq hinner
    refine ⟨values.take k, ?_, fun h => ?_, fun _ => ⟨k, hk, rfl⟩⟩
    · rw [hlookup, hread]
    · obtain ⟨item, hitem, hmem⟩ := hall
      exact absurd hmem (h item hitem)

/-! ### The summary -/

/-- The value does not end at a place in the body. -/
theorem not_summaryEnd_in_body {b x y rest behind : List Char} {groups : List (ℕ × List Char)}
    (hb : Body b) (heq : b = x ++ y) (hy : y ≠ []) (hopen : '\x7d' ∉ y ++ '"' :: rest)
    (hrest : ∀ c ∈ rest.head?, asciiLetter c = false) (q : Place) :
    q ∉ summaryEnd.ways ⟨behind, y ++ '"' :: rest, groups⟩ := by
  intro hq
  obtain ⟨c, y, rfl⟩ := List.exists_cons_of_ne_nil hy
  rcases ahead_of_summaryEnd hq with ⟨w, w', name, tail, hspaces, hname, hahead⟩ | hmem | hnil | hline
  · -- an escaped quote; the next one is the end of the string
    obtain ⟨rfl, hnext⟩ := List.cons.inj hahead
    obtain ⟨-, -, -, hy'⟩ := hb.split_quote heq
    have hplain : '"' ∉ w ++ ',' :: w' ∧ '\\' ∉ w ++ ',' :: w' := by
      have hnot : ∀ d, isSpace d = false → d ≠ ',' → d ∉ w ++ ',' :: w' := by
        intro d hd hcomma hmem
        have hmem' : d ∈ w ++ w' := by simpa [hcomma] using hmem
        rw [hspaces d hmem'] at hd
        cases hd
      exact ⟨hnot _ (by decide) (by decide), hnot _ (by decide) (by decide)⟩
    have hsplit : y ++ '"' :: rest = (w ++ ',' :: w') ++ '"' :: (name.toList ++ '"' :: tail) := by
      rw [List.append_assoc, List.cons_append]
      exact hnext
    obtain ⟨-, rfl⟩ := hy'.cancel_plain hplain hsplit
    obtain ⟨n, ns, hn⟩ := List.exists_cons_of_ne_nil hname.nonempty
    have hletter := hname.letter n (by simp [hn])
    rw [hrest n (by simp [hn])] at hletter
    cases hletter
  · exact hopen hmem
  · cases hnil
  · have hlength := congrArg List.length hline
    simp at hlength

theorem Gap.head_not_letter {w rest : List Char} {c : Char} (h : Gap w)
    (hc : asciiLetter c = false) : ∀ d ∈ (w ++ c :: rest).head?, asciiLetter d = false := by
  have hall : ∀ d ∈ [' ', '\t', '\n', '\r'], asciiLetter d = false :=
    List.all_iff_forall_prop.mp (by decide)
  intro d hd
  cases w with
  | nil =>
    obtain rfl : c = d := Option.some.inj hd
    exact hc
  | cons d' w =>
    obtain rfl : d' = d := Option.some.inj hd
    exact hall d' (h d' List.mem_cons_self)

/-- Text before the quote that ends the next key has not enough quotes to end the value. -/
theorem not_summaryEnd_behind_body {w₃ w₄ x y rest behind : List Char}
    {groups : List (ℕ × List Char)} (hgaps' : Gap w₃ ∧ Gap w₄)
    (hrest : rest <+: w₃ ++ ',' :: (w₄ ++ '"' :: "topics".toList))
    (heq : '"' :: rest = x ++ y) (hy : y ≠ []) (hopen : '\x7d' ∉ rest)
    (hlast : ∀ c ∈ rest.getLast?, isSpace c = false) (q : Place) :
    q ∉ summaryEnd.ways ⟨behind, y, groups⟩ := by
  intro hq
  have hsuffix : y <:+ '"' :: rest := ⟨x, heq.symm⟩
  rcases ahead_of_summaryEnd hq with ⟨w, w', name, tail, -, -, hahead⟩ | hmem | hnil | hline
  · have hnoQuote : ∀ {w : List Char}, Gap w → w.count '"' = 0 :=
      fun hw => List.count_eq_zero.mpr (hw.notMem (by decide))
    have hcount : ('"' :: rest).count '"' ≤ 2 := by
      have hle := hrest.sublist.count_le '"'
      rw [List.count_append, hnoQuote hgaps'.1, List.count_cons_of_ne (by decide),
        List.count_append, hnoQuote hgaps'.2, List.count_cons_self] at hle
      rw [List.count_cons_self]
      have htopics : "topics".toList.count '"' = 0 := by decide
      omega
    have hcount' : 3 ≤ y.count '"' := by
      rw [show y = _ from hahead]
      simp only [List.count_cons_self, List.count_append, List.count_cons_of_ne,
        ne_eq, Char.reduceEq, not_false_eq_true]
      omega
    have hle := hsuffix.sublist.count_le '"'
    omega
  · rcases List.mem_cons.mp (hsuffix.subset hmem) with h | h
    · exact absurd h (by decide)
    · exact hopen h
  · exact hy hnil
  · have hend : ('"' :: rest).getLast? = some '\n' := by
      rw [heq, show y = ['\n'] from hline, List.getLast?_append_of_ne_nil _ (by simp)]
      rfl
    cases rest with
    | nil => exact absurd (Option.some.inj hend) (by decide)
    | cons c rest =>
      rw [List.getLast?_cons_cons] at hend
      exact absurd (hlast '\n' hend) (by decide)

variable {value : String} {w₀ w₁ w₂ w₃ w₄ body : List Char}
  (hbody : EncodesString json value body) (hvalue : Spaced value.toList)
  (hgaps : Gap w₀ ∧ Gap w₁ ∧ Gap w₂) (hgaps' : Gap w₃ ∧ Gap w₄)

include hbody hvalue hgaps hgaps'

/-- **A summary that the next key follows** is read right. -/
theorem lookup_summary {rest : List Char}
    (hopen : '\x7d' ∉ body ++ '"' :: (w₃ ++ ',' :: (w₄ ++ '"' :: ("topics".toList ++ '"' :: rest)))) :
    (extractPartialSummaryFields json (String.ofList ('\x7b' :: w₀ ++ '"' :: ("summary".toList ++
      '"' :: (w₁ ++ ':' :: (w₂ ++ '"' :: (body ++ '"' :: (w₃ ++ ',' :: (w₄ ++
        '"' :: ("topics".toList ++ '"' :: rest)))))))))).lookup "summary" =
          some (.string value) := by
  obtain ⟨hw₀, hw₁, hw₂⟩ := hgaps
  have hquote : '"' ∉ '\x7b' :: w₀ := by
    simpa using hw₀.notMem (c := '"') (by decide)
  have hearlier : ∀ x y, y ≠ [] → body = x ++ y → ∀ behind groups q,
      q ∉ summaryEnd.ways ⟨behind, y ++ '"' :: (w₃ ++ ',' :: (w₄ ++
        '"' :: ("topics".toList ++ '"' :: rest))), groups⟩ := by
    intro x y hy hxy behind groups q
    refine not_summaryEnd_in_body hbody.chars.body hxy hy (fun hmem => hopen ?_)
      (hgaps'.1.head_not_letter (by decide)) q
    rw [hxy, List.append_assoc]
    exact List.mem_append_right x hmem
  obtain ⟨m, hsearch, hgroup⟩ := search_summaryField hquote hw₁.isSpace hw₂.isSpace hearlier
    fun behind groups => first_summaryEnd_key hgaps'.1.isSpace hgaps'.2.isSpace rest
  have hspaced := hbody.chars.spaced hvalue
  have hstrip : strip (String.ofList (m.group 1)) = String.ofList body := by
    rw [hgroup, strip_eq_self hspaced.tidy.head hspaced.tidy.last]
  rw [lookup_partialSummary hsearch hstrip, hbody.loads]
  rfl

/-- **Without the next key** the quote and what is behind it are taken for a part of the
summary. -/
theorem lookup_summary_cut (hstrict : StringsStrict json) {rest : List Char}
    (hrest : rest <+: w₃ ++ ',' :: (w₄ ++ '"' :: "topics".toList))
    (hopen : '\x7d' ∉ body ++ '"' :: rest) (hlast : ∀ c ∈ rest.getLast?, isSpace c = false) :
    (extractPartialSummaryFields json (String.ofList ('\x7b' :: w₀ ++ '"' :: ("summary".toList ++
      '"' :: (w₁ ++ ':' :: (w₂ ++ '"' :: (body ++ '"' :: rest))))))).lookup "summary" =
        some (.string (String.ofList (body ++ '"' :: rest))) := by
  obtain ⟨hw₀, hw₁, hw₂⟩ := hgaps
  have hquote : '"' ∉ '\x7b' :: w₀ := by
    simpa using hw₀.notMem (c := '"') (by decide)
  have hhead : ∀ c ∈ rest.head?, asciiLetter c = false := by
    intro c hc
    have hletter := @Gap.head_not_letter w₃ (w₄ ++ '"' :: "topics".toList) ',' hgaps'.1 (by decide)
    obtain ⟨tail, htail⟩ := hrest
    rw [← htail, List.head?_append_of_ne_nil] at hletter
    · exact hletter c hc
    · rintro rfl
      cases hc
  have hearlier : ∀ x y, y ≠ [] → body ++ '"' :: rest = x ++ y → ∀ behind groups q,
      q ∉ summaryEnd.ways ⟨behind, y ++ [], groups⟩ := by
    intro x y hy hxy behind groups q
    rw [List.append_nil]
    rw [List.mem_append, not_or] at hopen
    have hopen' : '\x7d' ∉ rest := fun hmem => hopen.2 (List.mem_cons_of_mem _ hmem)
    rcases List.append_eq_append_iff.mp hxy with ⟨x', rfl, hx'⟩ | ⟨y', rfl, rfl⟩
    · exact not_summaryEnd_behind_body hgaps' hrest hx' hy hopen' hlast q
    · rcases eq_or_ne y' [] with rfl | hy'
      · exact not_summaryEnd_behind_body hgaps' (x := []) hrest rfl hy
          hopen' hlast q
      · refine not_summaryEnd_in_body hbody.chars.body rfl hy' ?_ hhead q
        rw [List.mem_append, not_or]
        exact ⟨fun hmem => hopen.1 (List.mem_append_right x hmem), hopen.2⟩
  obtain ⟨m, hsearch, hgroup⟩ := search_summaryField hquote hw₁.isSpace hw₂.isSpace hearlier
    fun behind groups => ⟨_, first_summaryEnd_nil, rfl⟩
  rw [List.append_nil] at hsearch
  have hstrip : strip (String.ofList (m.group 1)) = String.ofList (body ++ '"' :: rest) := by
    rw [hgroup, strip_append_quote (hbody.chars.spaced hvalue) hlast]
  rw [lookup_partialSummary hsearch hstrip, hstrict _ hbody.chars.body.not_append_quote]
  rfl

end Fields

end Llm
end PersonalIntelligence
