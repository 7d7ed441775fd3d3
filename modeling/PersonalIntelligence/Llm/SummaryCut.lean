import PersonalIntelligence.Llm.OpenText

/-!
# A reply that was cut off

What is read from a proper beginning of the text of an object that goes at least to the quote
behind the summary.  There is no closing brace in it, so its fields are looked for one by
one.

The summary is read right if the key that follows it has arrived, and otherwise its own
closing quote and what follows it are taken for a part of it
(`lookup_summary`).  A list that has arrived is read right if there is no closing bracket in
one of its strings (`lookup_list`).
-/

namespace PersonalIntelligence
namespace Llm

open PyText Regex

/-! ## The text -/

/-- No fence begins in a token. -/
theorem noFence_token [CharData] {t : Token} (h : t.Ok) (behind rest : List Char) :
    NoMatch codeFenceRe behind t.text rest := by
  cases t with
  | mark gap c =>
    obtain ⟨hspace, -, htick, -⟩ := mark_spec c h.2
    exact noFence_spaces h.1.isSpace hspace htick
  | literal gap body =>
    have hquote : NoMatch codeFenceRe behind (gap ++ ['"']) (body ++ ['"'] ++ rest) :=
      noFence_spaces h.1.isSpace (by decide) (by decide)
    have hline : NoMatch codeFenceRe ((gap ++ ['"']).reverse ++ behind) (body ++ ['"']) rest := by
      rw [List.reverse_append, List.append_assoc]
      exact noFence_line (by decide) h.2.noNewline (by decide) (by decide)
    have htext : (Token.literal gap body).text = gap ++ ['"'] ++ (body ++ ['"']) := by
      simp [Token.text]
    rw [htext]
    exact hquote.append hline

theorem noFence_tokens [CharData] {ts : List Token} (h : ∀ t ∈ ts, t.Ok) (behind rest : List Char) :
    NoMatch codeFenceRe behind (textOf ts) rest := by
  induction ts generalizing behind with
  | nil => exact fun x y hy hxy => absurd (List.append_eq_nil_iff.mp hxy.symm).2 hy
  | cons t ts ih =>
    rw [textOf_cons]
    exact (noFence_token (h t List.mem_cons_self) behind _).append
      (ih (fun t' ht' => h t' (List.mem_cons_of_mem t ht')) _)

theorem text_last {t : Token} (h : t.Ok) :
    ∃ init c, t.text = init ++ [c] ∧ isSpace c = false := by
  cases t with
  | mark gap c => exact ⟨gap, c, rfl, (mark_spec c h.2).1⟩
  | literal gap body => exact ⟨gap ++ '"' :: body, '"', by simp [Token.text], by decide⟩

/-- The beginning of an object is solid. -/
theorem solid_tokens [CharData] {ts : List Token}
    (h : ∀ t ∈ Token.mark [] '\x7b' :: ts, t.Ok) :
    Solid (textOf (Token.mark [] '\x7b' :: ts)) where
  noFence := noFence_tokens h
  head := ⟨textOf ts, rfl⟩
  last := by
    obtain ⟨init, t, heq⟩ := (List.eq_nil_or_concat (Token.mark [] '\x7b' :: ts)).resolve_left
      (List.cons_ne_nil _ _)
    rw [heq] at h ⊢
    obtain ⟨init', c, htext, hc⟩ := text_last (h t (by simp))
    refine ⟨textOf init ++ init', c, ?_, hc⟩
    rw [List.concat_eq_append, textOf_append, textOf_cons, htext]
    simp [textOf]

/-- A token without a closing brace. -/
def Token.Open : Token → Prop
  | mark _ c => c ≠ '\x7d'
  | literal _ body => '\x7d' ∉ body

theorem notMem_textOf {ts : List Token} (h : ∀ t ∈ ts, t.Ok ∧ t.Open) : '\x7d' ∉ textOf ts := by
  intro hmem
  obtain ⟨t, ht, hmem⟩ := List.mem_flatMap.mp hmem
  obtain ⟨hok, hopen⟩ := h t ht
  cases t with
  | mark gap c =>
    have hgap := hok.1.notMem (c := '\x7d') (by decide)
    rw [Token.text, List.mem_append, List.mem_singleton] at hmem
    exact hmem.elim hgap fun heq => hopen heq.symm
  | literal gap body =>
    have hgap := hok.1.notMem (c := '\x7d') (by decide)
    have hbody : '\x7d' ∉ body := hopen
    simp [Token.text, hgap, hbody] at hmem

/-! ## The text of an object -/

theorem itemTokens_all {P : Token → Prop} {items : List Item}
    (hliteral : ∀ item ∈ items, P (.literal item.gap item.body))
    (hmark : ∀ item ∈ items, P (.mark item.gapAfter ',')) : ∀ t ∈ itemTokens items, P t := by
  induction items with
  | nil => exact fun t ht => absurd ht List.not_mem_nil
  | cons item rest ih =>
    have hrest := ih (fun i hi => hliteral i (List.mem_cons_of_mem item hi))
      fun i hi => hmark i (List.mem_cons_of_mem item hi)
    have hfirst := hliteral item List.mem_cons_self
    cases rest with
    | nil => exact List.forall_mem_singleton.mpr hfirst
    | cons next rest =>
      exact List.forall_mem_cons.mpr ⟨hfirst,
        List.forall_mem_cons.mpr ⟨hmark item List.mem_cons_self, hrest⟩⟩

theorem exists_value_of_mem {json : Json} {values : List String} {items : List Item}
    (h : List.Forall₂ (fun value item => EncodesString json value item.body) values items)
    {item : Item} (hitem : item ∈ items) :
    ∃ value ∈ values, EncodesString json value item.body := by
  induction h with
  | nil => cases hitem
  | cons hvalue _ ih =>
    rcases List.mem_cons.mp hitem with rfl | hitem
    · exact ⟨_, List.mem_cons_self, hvalue⟩
    · obtain ⟨value, hmem, hvalue⟩ := ih hitem
      exact ⟨value, List.mem_cons_of_mem _ hmem, hvalue⟩

/-- The strings of the payload have no braces. -/
def Braceless (payload : SummaryPayload) : Prop :=
  ∀ text ∈ payload.summary :: (payload.topics ++ payload.tasks), BraceFree text.toList

section Encoding

variable {json : Json} {payload : SummaryPayload} {e : ObjectText}

theorem EncodesString.open {value : String} {body : List Char}
    (h : EncodesString json value body) (hvalue : BraceFree value.toList) : '\x7d' ∉ body := by
  intro hmem
  rcases h.chars.mem hmem with hmem | hmem
  · exact hvalue.2 hmem
  · exact (escapeAlphabet_spec _ hmem).2.2 rfl

variable (he : EncodesPayload json payload e)

include he

theorem body_of_item {item : Item} (h : item ∈ e.topics ++ e.tasks) :
    ∃ value ∈ payload.topics ++ payload.tasks, EncodesString json value item.body := by
  rcases List.mem_append.mp h with h | h
  · obtain ⟨value, hmem, hvalue⟩ := exists_value_of_mem he.topics h
    exact ⟨value, List.mem_append_left _ hmem, hvalue⟩
  · obtain ⟨value, hmem, hvalue⟩ := exists_value_of_mem he.tasks h
    exact ⟨value, List.mem_append_right _ hmem, hvalue⟩

end Encoding

/-- What holds of all the tokens. -/
theorem throughTasks_all {P : Token → Prop} {e : ObjectText} (hfirst : P (.mark [] '\x7b'))
    (hmark : ∀ i, ∀ c ∈ "[]:,".toList, P (.mark (e.gaps i) c))
    (hkey : ∀ i, ∀ name ∈ ["summary", "topics", "tasks"], P (.literal (e.gaps i) name.toList))
    (hsummary : P (.literal (e.gaps 2) e.summary))
    (hitem : ∀ item ∈ e.topics ++ e.tasks,
      P (.literal item.gap item.body) ∧ P (.mark item.gapAfter ',')) :
    ∀ t ∈ e.throughTasks, P t := by
  have htopics : ∀ t ∈ itemTokens e.topics, P t :=
    itemTokens_all (fun item h => (hitem item (List.mem_append_left _ h)).1)
      fun item h => (hitem item (List.mem_append_left _ h)).2
  have htasks : ∀ t ∈ itemTokens e.tasks, P t :=
    itemTokens_all (fun item h => (hitem item (List.mem_append_right _ h)).1)
      fun item h => (hitem item (List.mem_append_right _ h)).2
  have hcolon := fun i => hmark i ':' (by decide)
  have hcomma := fun i => hmark i ',' (by decide)
  have hopen := fun i => hmark i '[' (by decide)
  have hclose := fun i => hmark i ']' (by decide)
  have hsummaryKey := hkey 0 "summary" (by decide)
  have htopicsKey := hkey 4 "topics" (by decide)
  have htasksKey := hkey 9 "tasks" (by decide)
  intro t ht
  simp only [ObjectText.throughTasks, ObjectText.throughTopics, ObjectText.throughTopicsKey,
    ObjectText.throughSummary, List.mem_append, List.mem_cons, List.not_mem_nil, or_false] at ht
  rcases ht with (((((((rfl | rfl | rfl | rfl) | rfl | rfl) | rfl | rfl) | ht) | rfl) |
    rfl | rfl | rfl | rfl) | ht) | rfl
  · exact hfirst
  · exact hsummaryKey
  · exact hcolon 1
  · exact hsummary
  · exact hcomma 3
  · exact htopicsKey
  · exact hcolon 5
  · exact hopen 6
  · exact htopics t ht
  · exact hclose 7
  · exact hcomma 8
  · exact htasksKey
  · exact hcolon 10
  · exact hopen 11
  · exact htasks t ht
  · exact hclose 12

section Encoding

variable {json : Json} {payload : SummaryPayload} {e : ObjectText}
  (he : EncodesPayload json payload e) (hbraces : Braceless payload)

include he hbraces

theorem ok_tokens : ∀ t ∈ e.throughTasks, t.Ok ∧ t.Open := by
  refine throughTasks_all ?_ ?_ ?_ ?_ ?_
  · exact ⟨⟨fun _ hc => absurd hc List.not_mem_nil, by decide⟩,
      (by decide : '\x7b' ≠ '\x7d')⟩
  · intro i c hc
    have hmark : ∀ c ∈ "[]:,".toList, c ∈ "\x7b\x7d[]:,".toList ∧ c ≠ '\x7d' :=
      List.all_iff_forall_prop.mp (by decide)
    exact ⟨⟨he.gap i, (hmark c hc).1⟩, (hmark c hc).2⟩
  · intro i name hname
    have hkey : ∀ name ∈ ["summary", "topics", "tasks"],
        (name.toList.all fun c => decide (c ≠ '"' ∧ c ≠ '\\' ∧ 32 ≤ c.toNat)) = true ∧
          '\x7d' ∉ name.toList := by
      decide
    obtain ⟨hplain, hopen⟩ := hkey name hname
    exact ⟨⟨he.gap i, Body.of_plain (List.all_iff_forall_prop.mp hplain)⟩, hopen⟩
  · exact ⟨⟨he.gap 2, he.summary.chars.body⟩, he.summary.open (hbraces _ List.mem_cons_self)⟩
  · intro item hitem
    obtain ⟨value, hmem, hvalue⟩ := body_of_item he hitem
    obtain ⟨hgap, hafter⟩ := he.itemGap item hitem
    refine ⟨⟨⟨hgap, hvalue.chars.body⟩, hvalue.open (hbraces _ ?_)⟩, ⟨hafter, by decide⟩,
      (by decide : ',' ≠ '\x7d')⟩
    exact List.mem_cons_of_mem _ hmem

end Encoding

/-! ## What is worked on -/

/-- The pieces follow each other. -/
theorem ObjectText.stages (e : ObjectText) :
    e.throughSummary <+: e.throughTopicsKey ∧ e.throughTopicsKey <+: e.throughTopics ∧
      e.throughTopics <+: e.throughTasks := by
  refine ⟨List.prefix_append _ _, ?_, ?_⟩
  · rw [throughTopics, List.append_assoc, List.append_assoc]
    exact List.prefix_append _ _
  · rw [throughTasks, List.append_assoc, List.append_assoc]
    exact List.prefix_append _ _

theorem textOf_mono {ts ts' : List Token} (h : ts <+: ts') : textOf ts <+: textOf ts' := by
  obtain ⟨rest, rfl⟩ := h
  rw [textOf_append]
  exact List.prefix_append _ _

/-- A beginning of the text of an object that goes to the quote behind the summary, but not
to the end. -/
structure CutOff (e : ObjectText) (text : List Char) : Prop where
  beginning : text <+: textOf e.tokens
  proper : text ≠ textOf e.tokens
  summary : textOf e.throughSummary <+: text

section Text

variable [CharData] (hascii : Ascii) {json : Json} {payload : SummaryPayload} {e : ObjectText}
  (he : EncodesPayload json payload e) (hbraces : Braceless payload) {text : List Char}
  (htext : CutOff e text)

include he hbraces htext

omit [CharData] in
/-- The closing brace is missing. -/
theorem cutOff_open : '\x7d' ∉ text := by
  obtain ⟨rest, hrest⟩ := htext.beginning
  have hne : rest ≠ [] := by
    rintro rfl
    exact htext.proper (by rw [← hrest, List.append_nil])
  have htokens : textOf e.throughTasks ++ e.gaps 13 ++ ['\x7d'] = text ++ rest := by
    rw [hrest, ObjectText.tokens, textOf_append]
    simp [textOf, Token.text]
  obtain ⟨t, -, hopen⟩ := split_concat hne htokens
  intro hmem
  have hmem' : '\x7d' ∈ textOf e.throughTasks ++ e.gaps 13 := by
    rw [hopen]
    exact List.mem_append_left _ hmem
  rcases List.mem_append.mp hmem' with h | h
  · exact notMem_textOf (ok_tokens he hbraces) h
  · exact (he.gap 13).notMem (by decide) h

include hascii

/-- The text that is worked on, if some of the tokens have arrived. -/
theorem summaryText_cutOff {ts : List Token} (hts : ts <+: e.throughTasks) (hne : ts ≠ [])
    (harrived : textOf ts <+: text) :
    ∃ rest rest', text = textOf ts ++ rest ∧ rest'.Sublist rest ∧
      ('`' ∉ rest → rest' = rstrip rest) ∧ '\x7d' ∉ textOf ts ++ rest' ∧
      summaryText (String.ofList text) = String.ofList (textOf ts ++ rest') := by
  obtain ⟨rest, rfl⟩ := harrived
  have hok : ∀ t ∈ ts, t.Ok := fun t ht => (ok_tokens he hbraces t (hts.subset ht)).1
  have hsolid : Solid (textOf ts) := by
    obtain ⟨t, ts, rfl⟩ := List.exists_cons_of_ne_nil hne
    obtain ⟨tail, htail⟩ := hts
    obtain rfl : t = .mark [] '\x7b' := (List.cons.inj htail).1
    exact solid_tokens hok
  obtain ⟨before', rest', hbefore, hrest, htick, heq⟩ := summaryText_solid hascii hsolid [] rest
  obtain rfl := List.sublist_nil.mp hbefore
  refine ⟨rest, rest', rfl, hrest, htick, ?_, heq⟩
  have hopen := cutOff_open he hbraces htext
  rw [List.mem_append, not_or] at hopen ⊢
  exact ⟨hopen.1, fun hmem => hopen.2 (hrest.subset hmem)⟩

end Text

/-! ## Truncation -/

/-- The summary is what `_truncate` makes of a longer text: it is as long as it may be, ends
in three dots and begins like its encoding. -/
structure Coincides (value : String) (body : List Char) (limit : ℕ) : Prop where
  length : value.length = limit
  dots : ∃ u, value.toList = u ++ "...".toList ∧ u <+: body ∧
    ∀ c ∈ u.getLast?, isSpace c = false

/-- Nothing is stripped from the text in front of the dots, since the encoding has no more
spaces than the summary. -/
theorem nil_of_spaces_at_cut {value : String} {body u r : List Char}
    (hbody : EncodesChars value.toList body) (hv : u ++ "...".toList = value.toList)
    (hnext : ∀ c s, r = c :: s → u ++ [c] <+: body)
    (hspaces : ∀ c ∈ r, isSpace c = true) : r = [] := by
  by_contra hr
  obtain ⟨c, s, rfl⟩ := List.exists_cons_of_ne_nil hr
  have hcount : (u ++ [c]).countP isSpace ≤ value.toList.countP isSpace :=
    (hnext c s rfl).sublist.countP_le.trans hbody.countP_isSpace_le
  rw [← hv, List.countP_append, List.countP_append, List.countP_singleton,
    if_pos (hspaces c List.mem_cons_self)] at hcount
  have hdots : "...".toList.countP isSpace = 0 := by decide
  omega

/-- What is cut out of a longer text that begins like the encoding, with three dots, is the
summary only by coincidence. -/
theorem ellipsis_eq_iff {value : String} {body long : List Char} {limit n : ℕ}
    (hbody : EncodesChars value.toList body) (hstart : body <+: long)
    (hlimit : value.length ≤ limit) (hlong : limit < long.length)
    (hn : 3 ≤ limit → n = limit - 3) :
    ellipsis (String.ofList long) n = value ↔ Coincides value body limit := by
  have hle := hbody.length_le
  rw [String.length_toList] at hle
  rw [ellipsis, String.toList_ofList]
  constructor
  · intro heq
    have hv := congrArg String.toList heq
    rw [String.toList_ofList] at hv
    obtain ⟨r, htake, hspaces⟩ := rstrip_append_spaces (long.take n)
    have hlast := getLast_rstrip (long.take n)
    generalize rstrip (long.take n) = u at hv htake hlast
    have hlength : u.length + 3 = value.length := by
      rw [← String.length_toList, ← hv, List.length_append]
      rfl
    obtain rfl := hn (by omega)
    have hbegin : u ++ r <+: long := htake ▸ List.take_prefix _ _
    have hu : u <+: body :=
      List.prefix_of_prefix_length_le ((List.prefix_append u r).trans hbegin) hstart (by omega)
    obtain rfl : r = [] := by
      refine nil_of_spaces_at_cut hbody hv (fun c s hr => ?_) hspaces
      refine List.prefix_of_prefix_length_le ?_ hstart ?_
      · refine List.IsPrefix.trans ⟨s, ?_⟩ hbegin
        rw [hr, List.append_assoc, List.singleton_append]
      · rw [List.length_append, List.length_singleton]
        omega
    refine ⟨?_, u, hv.symm, hu, hlast⟩
    have hwhole := congrArg List.length htake
    rw [List.append_nil, List.length_take] at hwhole
    omega
  · rintro ⟨hlength, u, hv, hu, hlast⟩
    have hsum : u.length + 3 = limit := by
      rw [← hlength, ← String.length_toList, hv, List.length_append]
      rfl
    have htake : long.take (limit - 3) = u := by
      rw [← hsum, Nat.add_sub_cancel]
      exact (List.prefix_iff_eq_take.mp (hu.trans hstart)).symm
    rw [hn (by omega), htake, rstrip_eq_self hlast, ← hv, String.ofList_toList]

/-- If the closing quote is taken for a part of the summary, the result is the summary only by
coincidence. -/
theorem truncate_quote_iff {value : String} {body rest : List Char} {limit : ℕ}
    (hbody : EncodesChars value.toList body) (hvalue : Spaced value.toList) (hne : value ≠ "")
    (hlimit : value.length ≤ limit) :
    truncate (String.ofList (body ++ '"' :: rest)) limit = value ↔
      Coincides value body limit := by
  have hle := hbody.length_le
  rw [String.length_toList] at hle
  have hbodyNe : body ≠ [] := by
    rintro rfl
    exact hne (String.toList_eq_nil_iff.mp hbody.eq_nil)
  obtain ⟨rest', hcompact⟩ := compact_append_cons (hbody.spaced hvalue) hbodyNe
    (show isSpace '"' = false by decide) rest
  have hlonger : body.length < (body ++ '"' :: rest').length := by
    rw [List.length_append, List.length_cons]
    omega
  unfold truncate
  dsimp only
  rw [hcompact, String.length_ofList]
  by_cases hshort : (body ++ '"' :: rest').length ≤ limit
  · rw [if_pos hshort]
    refine iff_of_false (fun heq => ?_) fun h => ?_
    · have hlength := congrArg String.length heq
      rw [String.length_ofList] at hlength
      omega
    · have hlength := h.length
      omega
  · rw [if_neg hshort]
    exact ellipsis_eq_iff hbody (List.prefix_append _ _) hlimit (not_le.mp hshort) fun h => if_pos h

/-! ## What is read -/

section Read

variable [CharData] {json : Json} {rawText : String}

/-- The summary of the payload, if one was read. -/
theorem summary_of_lookup {limits : Limits} {summary : String}
    (h : (summaryData json (summaryText rawText)).lookup "summary" = some (.string summary))
    (hne : compact summary ≠ "") :
    (parseSummaryPayload json rawText limits).summary =
      truncate summary limits.maxSummaryChars := by
  have hdata : summaryData json (summaryText rawText) ≠ [] := by
    intro hnil
    rw [hnil] at h
    cases h
  have hsummary : summary ≠ "" := by
    rintro rfl
    exact hne rfl
  rw [parseSummaryPayload_of_ne_nil json rawText limits rfl hdata]
  dsimp only
  rw [h, strOr_string json hsummary,
    if_neg (mt String.isEmpty_iff.mp (truncate_ne_empty hne limits.maxSummaryChars))]

/-- A list of the payload is right if it was read whole, and not if some of it is missing. -/
theorem normalizeList_found {limit : ℕ} {entries found : List String}
    (h : CanonicalList limit entries) {P : Prop} (hwhole : P → found = entries)
    (hcut : ¬ P → ∃ k < entries.length, found = entries.take k) :
    normalizeList json (some (.array (found.map .string))) limit = entries ↔ P := by
  by_cases hP : P
  · refine iff_of_true ?_ hP
    rw [hwhole hP, normalizeList_canonical json h]
  · refine iff_of_false (fun heq => ?_) hP
    obtain ⟨k, hk, rfl⟩ := hcut hP
    have hsub : (entries.take k).Sublist entries := List.take_sublist k entries
    have hcanonical : CanonicalList limit (entries.take k) :=
      ⟨hsub.length_le.trans h.length, fun e he => h.clean e (hsub.subset he),
        fun e he => h.short e (hsub.subset he), h.distinct.sublist hsub⟩
    rw [normalizeList_canonical json hcanonical] at heq
    have hlength := congrArg List.length heq
    rw [List.length_take] at hlength
    omega

end Read

/-! ## The theorem -/

section Cut

variable [CharData] (hascii : Ascii) {json : Json} {limits : Limits} {payload : SummaryPayload}
  {e : ObjectText} (he : EncodesPayload json payload e) (hbraces : Braceless payload)
  {text : List Char} (htext : CutOff e text)

include hascii he hbraces htext

/-- The fields are looked for one by one. -/
theorem summaryData_cutOff :
    summaryData json (summaryText (String.ofList text)) =
      extractPartialSummaryFields json (summaryText (String.ofList text)) := by
  obtain ⟨hkey, htopics, htasks⟩ := e.stages
  obtain ⟨rest, rest', -, -, -, hopen, heq⟩ := summaryText_cutOff hascii he hbraces htext
    (hkey.trans (htopics.trans htasks)) (List.cons_ne_nil _ _) htext.summary
  have hkey : textOf e.throughSummary ++ rest' = '\x7b' :: e.gaps 0 ++
      ("\"summary\"".toList ++ (e.gaps 1 ++ ':' :: (e.gaps 2 ++ '"' :: (e.summary ++
        '"' :: rest')))) := by
    simp [ObjectText.throughSummary, textOf, Token.text]
  rw [hkey] at hopen heq
  rw [heq, summaryData_open json hopen]

/-- What is behind the summary, if the next key has not arrived: it ends before the quote
behind the key. -/
theorem summaryText_beforeTopics (hnot : ¬ textOf e.throughTopicsKey <+: text) :
    ∃ rest, summaryText (String.ofList text) = String.ofList (textOf e.throughSummary ++ rest) ∧
      '\x7d' ∉ textOf e.throughSummary ++ rest ∧
      rest <+: e.gaps 3 ++ ',' :: (e.gaps 4 ++ '"' :: "topics".toList) ∧
      ∀ c ∈ rest.getLast?, isSpace c = false := by
  obtain ⟨hkey, htopics, htasks⟩ := e.stages
  obtain ⟨rest, rest', htextEq, -, htick, hopen, heq⟩ := summaryText_cutOff hascii he hbraces
    htext (hkey.trans (htopics.trans htasks)) (List.cons_ne_nil _ _) htext.summary
  have hkeyText : textOf e.throughTopicsKey = textOf e.throughSummary ++
      ((e.gaps 3 ++ ',' :: (e.gaps 4 ++ '"' :: "topics".toList)) ++ ['"']) := by
    rw [ObjectText.throughTopicsKey, textOf_append]
    simp [textOf, Token.text]
  have hrest : rest <+: e.gaps 3 ++ ',' :: (e.gaps 4 ++ '"' :: "topics".toList) := by
    have hbefore : text <+: textOf e.throughTopicsKey := by
      refine (List.prefix_or_prefix_of_prefix htext.beginning
        (textOf_mono ((htopics.trans htasks).trans (List.prefix_append _ _)))).resolve_right hnot
    rw [hkeyText, htextEq, List.prefix_append_right_inj, List.prefix_concat_iff] at hbefore
    refine hbefore.resolve_left fun hall => hnot ?_
    rw [hkeyText, htextEq, hall]
  obtain rfl : rest' = rstrip rest := by
    refine htick fun hmem => ?_
    have hmem' := hrest.subset hmem
    have htick' : ∀ i, '`' ∉ e.gaps i := fun i => (he.gap i).notMem (by decide)
    simp [htick'] at hmem'
  exact ⟨rstrip rest, heq, hopen, (List.rdropWhile_prefix isSpace rest).trans hrest,
    getLast_rstrip rest⟩

variable (hstrict : StringsStrict json)

include hstrict

/-- When a list is read right, if it is there: `ts` are the tokens through the list, and
`before` those in front of its key. -/
theorem list_cut_iff {name : String} (hname : name = "topics" ∨ name = "tasks")
    {ts before : List Token} (hts : ts <+: e.throughTasks) (hne : ts ≠ [])
    (harrived : textOf ts <+: text) (hbefore : before <+: e.throughTasks)
    (hfree : KeyFree name before) {w w' w'' gap : List Char}
    (hw : Gap w ∧ Gap w' ∧ Gap w'' ∧ Gap gap) {values : List String} {items : List Item}
    (hitems : items ⊆ e.topics ++ e.tasks)
    (hvalues : List.Forall₂ (fun value item => EncodesString json value item.body) values items)
    (hform : ∀ rest, textOf ts ++ rest = textOf before ++ w ++ '"' :: (name.toList ++
      '"' :: (w' ++ ':' :: (w'' ++ '[' :: (itemsText items gap ++ ']' :: rest)))))
    {limit : ℕ} (hcanonical : CanonicalList limit values) :
    normalizeList json ((summaryData json (summaryText (String.ofList text))).lookup name) limit =
      values ↔ ∀ item ∈ items, ']' ∉ item.body := by
  obtain ⟨rest, rest', -, -, -, -, heq⟩ := summaryText_cutOff hascii he hbraces htext hts hne
    harrived
  have hok : ∀ t ∈ before, t.Ok := fun t ht => (ok_tokens he hbraces t (hbefore.subset ht)).1
  obtain ⟨found, hlookup, hwhole, hcut⟩ := @lookup_list json hstrict _ hname _ hok hfree _ _ _ _
    rest' hw _ _ hvalues fun item hitem => he.itemGap item (hitems hitem)
  rw [← hform, ← heq, ← summaryData_cutOff hascii he hbraces htext] at hlookup
  rw [hlookup]
  exact normalizeList_found hcanonical hwhole fun h => hcut (by push Not at h; exact h)

variable (hpayload : Canonical limits payload)

include hpayload

/-- When the summary is read right. -/
theorem summary_cut_iff :
    (parseSummaryPayload json (String.ofList text) limits).summary = payload.summary ↔
      textOf e.throughTopicsKey <+: text ∨
        Coincides payload.summary e.summary limits.maxSummaryChars := by
  obtain ⟨hkey, htopics, htasks⟩ := e.stages
  have hgaps : Gap (e.gaps 0) ∧ Gap (e.gaps 1) ∧ Gap (e.gaps 2) := ⟨he.gap 0, he.gap 1, he.gap 2⟩
  have hgaps' : Gap (e.gaps 3) ∧ Gap (e.gaps 4) := ⟨he.gap 3, he.gap 4⟩
  have hvalue : Spaced payload.summary.toList := by
    rw [← hpayload.compact]
    exact spaced_compact _
  have hdata := @summaryData_cutOff _ hascii json _ _ he hbraces _ htext
  have hsuffix : ∀ t : List Char, t <:+ '\x7b' :: e.gaps 0 ++ '"' :: ("summary".toList ++
      '"' :: (e.gaps 1 ++ ':' :: (e.gaps 2 ++ '"' :: t))) := fun t =>
    ⟨'\x7b' :: e.gaps 0 ++ '"' :: ("summary".toList ++ '"' :: (e.gaps 1 ++ ':' ::
      (e.gaps 2 ++ ['"']))), by simp⟩
  by_cases harrived : textOf e.throughTopicsKey <+: text
  · -- the next key is there
    refine iff_of_true ?_ (.inl harrived)
    obtain ⟨rest, rest', -, -, -, hopen, heq⟩ := summaryText_cutOff hascii he hbraces htext
      (htopics.trans htasks) (List.cons_ne_nil _ _) harrived
    have hform : textOf e.throughTopicsKey ++ rest' = '\x7b' :: e.gaps 0 ++ '"' ::
        ("summary".toList ++ '"' :: (e.gaps 1 ++ ':' :: (e.gaps 2 ++ '"' :: (e.summary ++
          '"' :: (e.gaps 3 ++ ',' :: (e.gaps 4 ++ '"' :: ("topics".toList ++
            '"' :: rest'))))))) := by
      simp [ObjectText.throughTopicsKey, ObjectText.throughSummary, textOf, Token.text]
    rw [hform] at hopen heq
    have hlookup := @lookup_summary json _ _ _ _ _ _ _ he.summary hvalue hgaps hgaps' rest'
      fun hmem => hopen ((hsuffix _).subset hmem)
    rw [← heq, ← hdata] at hlookup
    rw [summary_of_lookup hlookup (by rw [hpayload.compact]; exact hpayload.nonempty),
      truncate_canonical hpayload.compact hpayload.length]
  · obtain ⟨rest', heq, hopen, hprefix, hlast⟩ :=
      summaryText_beforeTopics hascii he hbraces htext harrived
    have hform : textOf e.throughSummary ++ rest' = '\x7b' :: e.gaps 0 ++ '"' ::
        ("summary".toList ++ '"' :: (e.gaps 1 ++ ':' :: (e.gaps 2 ++ '"' :: (e.summary ++
          '"' :: rest')))) := by
      simp [ObjectText.throughSummary, textOf, Token.text]
    rw [hform] at hopen heq
    have hlookup := lookup_summary_cut he.summary hvalue hgaps hgaps' hstrict hprefix
      (fun hmem => hopen ((hsuffix _).subset hmem)) hlast
    rw [← heq, ← hdata] at hlookup
    have hcompact : compact (String.ofList (e.summary ++ '"' :: rest')) ≠ "" :=
      compact_ne_empty (c := '"') (by simp) (by decide)
    rw [summary_of_lookup hlookup hcompact, truncate_quote_iff he.summary.chars hvalue
      hpayload.nonempty hpayload.length]
    exact ⟨.inr, fun h => h.resolve_left harrived⟩

/-- When the topics are read right, if they are there. -/
theorem topics_cut_iff (harrived : textOf e.throughTopics <+: text) :
    (parseSummaryPayload json (String.ofList text) limits).topics = payload.topics ↔
      ∀ item ∈ e.topics, ']' ∉ item.body := by
  obtain ⟨hkey, htopics, htasks⟩ := e.stages
  have hbefore : e.throughSummary ++ [.mark (e.gaps 3) ','] <+: e.throughTasks :=
    List.IsPrefix.trans ⟨[.literal (e.gaps 4) "topics".toList], by
      simp [ObjectText.throughTopicsKey]⟩ (htopics.trans htasks)
  have hfree : KeyFree "topics" (e.throughSummary ++ [.mark (e.gaps 3) ',']) :=
    ⟨⟨_, _, _, rfl, fun _ => by decide⟩, ⟨_, _, _, rfl, fun h => absurd h (by decide)⟩, trivial⟩
  rw [(lists_parseSummaryPayload json _ limits).1]
  refine list_cut_iff hascii he hbraces htext hstrict (.inl rfl) htasks
    (List.cons_ne_nil _ _) harrived hbefore hfree ⟨he.gap 4, he.gap 5, he.gap 6, he.gap 7⟩
    (List.subset_append_left _ _) he.topics (fun rest => ?_) hpayload.topics
  simp [ObjectText.throughTopics, ObjectText.throughTopicsKey, textOf_append, textOf_cons,
    textOf_nil, itemsText, Token.text]

/-- When the tasks are. -/
theorem tasks_cut_iff (harrived : textOf e.throughTasks <+: text) :
    (parseSummaryPayload json (String.ofList text) limits).tasks = payload.tasks ↔
      ∀ item ∈ e.tasks, ']' ∉ item.body := by
  have hbefore : e.throughTopics ++ [.mark (e.gaps 8) ','] <+: e.throughTasks := by
    rw [ObjectText.throughTasks, List.append_assoc, List.append_assoc]
    exact (List.prefix_append_right_inj _).mpr ⟨_, rfl⟩
  have hfree : KeyFree "tasks" (e.throughTopics ++ [.mark (e.gaps 8) ',']) := by
    have htokens : e.throughTopics ++ [.mark (e.gaps 8) ','] =
        (e.throughTopicsKey ++ [.mark (e.gaps 5) ':', .mark (e.gaps 6) '[']) ++
          (itemTokens e.topics ++ .mark (e.gaps 7) ']' :: [.mark (e.gaps 8) ',']) := by
      simp [ObjectText.throughTopics]
    rw [htokens]
    refine KeyFree.append ?_ (keyFree_itemTokens (show KeyFree "tasks"
      [.mark (e.gaps 8) ','] from trivial) e.topics)
    exact ⟨⟨_, _, _, rfl, fun _ => by decide⟩, ⟨_, _, _, rfl, fun h => absurd h (by decide)⟩,
      ⟨_, _, _, rfl, fun _ => by decide⟩, trivial⟩
  rw [(lists_parseSummaryPayload json _ limits).2]
  refine list_cut_iff hascii he hbraces htext hstrict (.inr rfl) List.prefix_rfl
    (List.cons_ne_nil _ _) harrived hbefore hfree ⟨he.gap 9, he.gap 10, he.gap 11, he.gap 12⟩
    (List.subset_append_right _ _) he.tasks (fun rest => ?_) hpayload.tasks
  simp [ObjectText.throughTasks, textOf_append, textOf_cons, textOf_nil, itemsText, Token.text]

/-- What has arrived whole is in the payload as it was. -/
def Faithful (payload : SummaryPayload) (e : ObjectText) (text : List Char)
    (found : SummaryPayload) : Prop :=
  found.summary = payload.summary ∧
    (textOf e.throughTopics <+: text → found.topics = payload.topics) ∧
    (textOf e.throughTasks <+: text → found.tasks = payload.tasks)

/-- **A reply that was cut off** behind the summary is read right exactly if the key behind
the summary is there, or the summary coincides with what becomes of it, and no string of a
list that is there has a closing bracket in it. -/
theorem parseSummaryPayload_cut_iff :
    Faithful payload e text (parseSummaryPayload json (String.ofList text) limits) ↔
      (textOf e.throughTopicsKey <+: text ∨
        Coincides payload.summary e.summary limits.maxSummaryChars) ∧
      (textOf e.throughTopics <+: text → ∀ item ∈ e.topics, ']' ∉ item.body) ∧
      (textOf e.throughTasks <+: text → ∀ item ∈ e.tasks, ']' ∉ item.body) := by
  refine and_congr ?_ (and_congr ?_ ?_)
  · exact summary_cut_iff hascii he hbraces htext hstrict hpayload
  · exact forall_congr' fun h => topics_cut_iff hascii he hbraces htext hstrict hpayload h
  · exact forall_congr' fun h => tasks_cut_iff hascii he hbraces htext hstrict hpayload h

end Cut

/-! ## A cut behind the summary and one behind the topics -/

def berlin : SummaryPayload := { summary := "Trip to Berlin", topics := ["Trip"] }

def berlinText : ObjectText where
  gaps i := if i ∈ [2, 4, 6, 9, 11] then [' '] else []
  summary := "Trip to Berlin".toList
  topics := [⟨[], "Trip".toList, []⟩]
  tasks := []

def berlinParser : Json where
  loads s :=
    if s = quoted "Trip to Berlin" then some (.string "Trip to Berlin")
    else if s = quoted "Trip" then some (.string "Trip")
    else none
  str _ := ""

theorem strict_berlinParser : StringsStrict berlinParser := by
  have hne : ∀ {s : String}, (∀ c ∈ s.toList, c ≠ '"' ∧ c ≠ '\\' ∧ 32 ≤ c.toNat) →
      ∀ b, ¬ Body b → quoted (String.ofList b) ≠ quoted s := by
    intro s hs b hb heq
    have hlist := congrArg String.toList heq
    simp only [quoted, String.toList_append, String.toList_ofList] at hlist
    refine hb ?_
    rw [List.append_cancel_left (List.append_cancel_right hlist)]
    exact Body.of_plain hs
  intro b hb
  unfold berlinParser
  dsimp only
  rw [if_neg (hne (List.all_iff_forall_prop.mp (by decide)) b hb),
    if_neg (hne (List.all_iff_forall_prop.mp (by decide)) b hb)]

theorem loads_berlin :
    berlinParser.loads (quoted "Trip to Berlin") = some (.string "Trip to Berlin") := by
  unfold berlinParser
  dsimp only
  rw [if_pos rfl]

theorem loads_trip : berlinParser.loads (quoted "Trip") = some (.string "Trip") := by
  have hother : quoted "Trip" ≠ quoted "Trip to Berlin" := by decide
  unfold berlinParser
  dsimp only
  rw [if_neg hother, if_pos rfl]

theorem berlin_encoded :
    let _ := basicCharData
    Canonical {} berlin ∧ EncodesPayload berlinParser berlin berlinText ∧ Braceless berlin := by
  intro _
  have hplain : ∀ {v : List Char}, (∀ c ∈ v, c ≠ '"' ∧ c ≠ '\\' ∧ 32 ≤ c.toNat) →
      EncodesChars v v := by
    intro v hv
    induction v with
    | nil => exact .nil
    | cons c rest ih =>
      obtain ⟨hq, hs, hc⟩ := hv c List.mem_cons_self
      exact .plain hq hs hc (ih fun d hd => hv d (List.mem_cons_of_mem c hd))
  have hgap : ∀ i, Gap (berlinText.gaps i) := by
    intro i
    unfold berlinText
    dsimp only
    split_ifs
    · exact fun c hc => by simp [List.mem_singleton.mp hc]
    · exact fun c hc => absurd hc List.not_mem_nil
  refine ⟨⟨by decide, by decide, by decide, ⟨by decide, ?_, by decide, ?_⟩,
    ⟨by decide, ?_, by decide, ?_⟩⟩,
    ⟨hgap, ?_, ⟨hplain (List.all_iff_forall_prop.mp (by decide)), ?_⟩, ?_, .nil⟩, ?_⟩
  · intro entry hentry
    obtain rfl := List.mem_singleton.mp hentry
    exact ⟨by decide, by decide, fun c hc => by obtain rfl := Option.some.inj hc; decide,
      fun c hc => by obtain rfl := Option.some.inj hc; decide⟩
  · exact List.pairwise_singleton _ _
  · exact fun entry hentry => absurd hentry List.not_mem_nil
  · exact List.Pairwise.nil
  · intro item hitem
    obtain rfl : item = ⟨[], "Trip".toList, []⟩ := List.mem_singleton.mp hitem
    exact ⟨fun c hc => absurd hc List.not_mem_nil, fun c hc => absurd hc List.not_mem_nil⟩
  · have hbody : String.ofList berlinText.summary = "Trip to Berlin" := String.ofList_toList
    rw [hbody]
    exact loads_berlin
  · have hbody : String.ofList "Trip".toList = "Trip" := String.ofList_toList
    refine .cons ⟨hplain (List.all_iff_forall_prop.mp (by decide)), ?_⟩ .nil
    rw [hbody]
    exact loads_trip
  · intro text htext
    have hcases : text = "Trip to Berlin" ∨ text = "Trip" := by simpa [berlin] using htext
    rcases hcases with rfl | rfl
    · exact ⟨by decide, by decide⟩
    · exact ⟨by decide, by decide⟩

/-- Where the topics are whole, they and the summary are read right. -/
theorem faithful_berlin :
    let _ := basicCharData
    Faithful berlin berlinText (textOf berlinText.throughTopics)
      (parseSummaryPayload berlinParser
        (String.ofList (textOf berlinText.throughTopics)) {}) := by
  let _ := basicCharData
  obtain ⟨hcanonical, hencoded, hbraces⟩ := berlin_encoded
  have hcut : CutOff berlinText (textOf berlinText.throughTopics) :=
    ⟨by decide, by decide, by decide⟩
  refine (parseSummaryPayload_cut_iff ascii_basicCharData hencoded hbraces hcut
    strict_berlinParser hcanonical).mpr ⟨.inl (by decide), fun _ => ?_, fun _ => ?_⟩
  · decide
  · decide

/-- A reply that ends with the quote behind the summary. -/
theorem not_faithful_berlin :
    let _ := basicCharData
    (Canonical {} berlin ∧ EncodesPayload berlinParser berlin berlinText ∧ Braceless berlin) ∧
      StringsStrict berlinParser ∧ CutOff berlinText (textOf berlinText.throughSummary) ∧
      ¬ Faithful berlin berlinText (textOf berlinText.throughSummary)
        (parseSummaryPayload berlinParser
          (String.ofList (textOf berlinText.throughSummary)) {}) := by
  intro _
  refine ⟨berlin_encoded, strict_berlinParser, ⟨by decide, by decide, by decide⟩, fun h => ?_⟩
  have hsummary : (parseSummaryPayload berlinParser
      (String.ofList (textOf berlinText.throughSummary)) {}).summary = "Trip to Berlin\"" := by
    decide
  exact absurd (hsummary.symm.trans h.1) (by decide)

end Llm
end PersonalIntelligence
