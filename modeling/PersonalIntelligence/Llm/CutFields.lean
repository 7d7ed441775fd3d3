import PersonalIntelligence.Llm.JsonText

/-!
# Fields of a text that was cut off

What the regular expressions for single fields find in the text of an object of which only
the beginning is there.  A key is found where it stands and nowhere before (`noMatch_literal`):
a string can have the name of a key between its quotes, but no colon follows it.  A list is
read up to its first closing bracket, be it in a string (`parseListItems_items`,
`parseListItems_cut`), and the summary up to the first place where the next key follows or
the text ends.
-/

namespace PersonalIntelligence
namespace Llm

open PyText Regex Pat

/-! ## Keys -/

/-- Where a field can begin. -/
theorem ahead_of_field {name : String} {r : Pat} {p q : Place}
    (h : q ∈ (fieldName name r).ways p) :
    ∃ w rest, (∀ c ∈ w, isSpace c = true) ∧
      p.ahead = '"' :: (name.toList ++ '"' :: (w ++ ':' :: rest)) := by
  obtain ⟨m₁, hm₁, hq⟩ := mem_ways_seq.mp h
  obtain ⟨m₂, hm₂, hq⟩ := mem_ways_seq.mp hq
  obtain ⟨m₃, hm₃, -⟩ := mem_ways_seq.mp hq
  obtain ⟨w, hw, hpass⟩ := passes_spaces hm₂
  refine ⟨w, m₃.ahead, hw, ?_⟩
  rw [(passes_of_mem_ways_lit hm₁).ahead, hpass.ahead, (passes_of_mem_ways_lit hm₃).ahead]
  simp

/-- Text without quotes has no key. -/
theorem noMatch_of_noQuote {name : String} {r : Pat} {behind u v : List Char} (h : '"' ∉ u) :
    NoMatch (fieldName name r) behind u v := by
  intro x y hy hxy q hq
  obtain ⟨w, rest, -, hahead⟩ := ahead_of_field hq
  obtain ⟨c, y, rfl⟩ := List.exists_cons_of_ne_nil hy
  obtain ⟨rfl, -⟩ := List.cons.inj hahead
  exact h (by simp [hxy])

/-- The name of a key: letters. -/
structure KeyName (name : String) : Prop where
  nonempty : name.toList ≠ []
  letter : ∀ c ∈ name.toList, asciiLetter c = true

theorem keyName_topics : KeyName "topics" := ⟨by decide, List.all_iff_forall_prop.mp (by decide)⟩

theorem keyName_tasks : KeyName "tasks" := ⟨by decide, List.all_iff_forall_prop.mp (by decide)⟩

theorem keyName_sentiment : KeyName "sentiment" :=
  ⟨by decide, List.all_iff_forall_prop.mp (by decide)⟩

theorem KeyName.body {name : String} (h : KeyName name) : Body name.toList := by
  refine Body.of_plain fun c hc => ?_
  have hletter := h.letter c hc
  refine ⟨?_, ?_, ?_⟩
  · rintro rfl
    cases hletter
  · rintro rfl
    cases hletter
  · simp only [asciiLetter, Bool.or_eq_true, Bool.and_eq_true, decide_eq_true_eq] at hletter
    omega

theorem KeyName.not_isSpace {name : String} (h : KeyName name) :
    ∀ c ∈ name.toList, isSpace c = false := by
  intro c hc
  have hletter := h.letter c hc
  simp only [asciiLetter, Bool.or_eq_true, Bool.and_eq_true, decide_eq_true_eq] at hletter
  rw [Bool.eq_false_iff]
  intro hspace
  simp only [isSpace, Bool.or_eq_true, Bool.and_eq_true, decide_eq_true_eq, beq_iff_eq] at hspace
  omega

/-- What follows a string is whitespace and a mark, a colon only behind another key. -/
structure Follows (name : String) (body v : List Char) : Prop where
  next : ∃ w c rest, v = w ++ c :: rest ∧ Gap w ∧ c ∈ "\x7b\x7d[]:,".toList ∧
    (c = ':' → ¬ name.toList <:+ body)

theorem Follows.of_suffix {name : String} {body body' v : List Char} (h : Follows name body v)
    (hsuffix : body' <:+ body) : Follows name body' v := by
  obtain ⟨w, c, rest, hv, hw, hc, hcolon⟩ := h.next
  exact ⟨w, c, rest, hv, hw, hc, fun heq hname => hcolon heq (hname.trans hsuffix)⟩

section NoKey

variable {name : String} (hname : KeyName name) {r : Pat} {behind body v : List Char}

include hname

/-- No key begins at a quote that is followed by a body and does not begin a key, -/
theorem not_field_at_body (hbody : Body body) (hv : Follows name body v) (q : Place) :
    q ∉ (fieldName name r).ways ⟨behind, '"' :: (body ++ '"' :: v), []⟩ := by
  intro hq
  obtain ⟨w, rest, hw, hahead⟩ := ahead_of_field hq
  obtain ⟨rfl, rfl⟩ := hbody.cancel_quote hname.body (List.cons.inj hahead).2
  obtain ⟨w', c, rest', hnext, hw', hc, hcolon⟩ := hv.next
  have hstrip := congrArg lstrip hnext
  rw [lstrip_append (by decide), lstrip_append (mark_spec c hc).1, lstrip, lstrip,
    List.dropWhile_eq_nil_iff.mpr hw, List.dropWhile_eq_nil_iff.mpr hw'.isSpace] at hstrip
  exact hcolon (List.cons.inj hstrip).1.symm List.suffix_rfl

/-- nor at the quote behind a string. -/
theorem not_field_behind (hv : Follows name body v) (q : Place) :
    q ∉ (fieldName name r).ways ⟨behind, '"' :: v, []⟩ := by
  intro hq
  obtain ⟨w, rest, -, hahead⟩ := ahead_of_field hq
  obtain ⟨w', c, rest', rfl, hw', hc, -⟩ := hv.next
  obtain ⟨n, ns, hn⟩ := List.exists_cons_of_ne_nil hname.nonempty
  have hmem : n ∈ name.toList := by simp [hn]
  rw [hn, List.cons_append] at hahead
  obtain ⟨-, hahead⟩ := List.cons.inj hahead
  cases w' with
  | nil =>
    obtain ⟨rfl, -⟩ := List.cons.inj hahead
    have hletter := hname.letter c hmem
    rw [(mark_spec c hc).2.2.2] at hletter
    cases hletter
  | cons d w' =>
    obtain ⟨rfl, -⟩ := List.cons.inj hahead
    have hspace := hw'.isSpace d List.mem_cons_self
    rw [hname.not_isSpace d hmem] at hspace
    cases hspace

/-- No key begins in a string that is not a key. -/
theorem noMatch_literal (hbody : Body body) (hv : Follows name body v) :
    NoMatch (fieldName name r) behind ('"' :: (body ++ ['"'])) v := by
  have hahead : ∀ t : List Char, '"' :: t ++ ['"'] ++ v = '"' :: (t ++ '"' :: v) := by simp
  intro x y hy hxy q hq
  cases x with
  | nil =>
    obtain rfl : '"' :: body ++ ['"'] = y := hxy
    rw [hahead] at hq
    exact not_field_at_body hname hbody hv q hq
  | cons c x =>
    obtain ⟨t, rfl, rfl⟩ := split_concat hy (List.cons.inj hxy).2
    cases t with
    | nil => exact not_field_behind hname hv q hq
    | cons d t =>
      obtain ⟨w, rest, -, hfield⟩ := ahead_of_field hq
      obtain ⟨rfl, -⟩ := List.cons.inj hfield
      -- the quote is escaped, and what follows it is a body again
      obtain ⟨u, -, -, ht⟩ := hbody.split_quote rfl
      have hsuffix : t <:+ x ++ '"' :: t := ⟨x ++ ['"'], by simp⟩
      rw [hahead] at hq
      exact not_field_at_body hname ht (hv.of_suffix hsuffix) q hq

end NoKey

/-- Every string is followed by a mark, a key with this name not by a colon. -/
def KeyFree (name : String) : List Token → Prop
  | [] => True
  | .mark _ _ :: rest => KeyFree name rest
  | .literal _ body :: rest =>
    (∃ w c rest', rest = .mark w c :: rest' ∧ (c = ':' → ¬ name.toList <:+ body)) ∧
      KeyFree name rest

theorem KeyFree.append {name : String} {ts ts' : List Token} (h : KeyFree name ts)
    (h' : KeyFree name ts') : KeyFree name (ts ++ ts') := by
  induction ts with
  | nil => exact h'
  | cons t ts ih =>
    cases t with
    | mark w c => exact ih h
    | literal w body =>
      obtain ⟨⟨w', c, rest, rfl, hcolon⟩, hrest⟩ := h
      exact ⟨⟨w', c, rest ++ ts', rfl, hcolon⟩, ih hrest⟩

/-- No key begins in such tokens. -/
theorem noMatch_tokens {name : String} (hname : KeyName name) {r : Pat} {behind v : List Char}
    {ts : List Token} (hok : ∀ t ∈ ts, t.Ok) (h : KeyFree name ts) :
    NoMatch (fieldName name r) behind (textOf ts) v := by
  have hgap : ∀ {w : List Char}, Gap w → '"' ∉ w := by
    intro w hw hmem
    have hspace := hw.isSpace _ hmem
    cases hspace
  induction ts generalizing behind with
  | nil => exact noMatch_of_noQuote List.not_mem_nil
  | cons t ts ih =>
    have hrest : ∀ t ∈ ts, t.Ok := fun t' ht' => hok t' (List.mem_cons_of_mem t ht')
    have hfirst := hok t List.mem_cons_self
    cases t with
    | mark w c =>
      refine NoMatch.append ?_ (ih hrest h)
      refine noMatch_of_noQuote ?_
      rw [Token.text, List.mem_append, List.mem_singleton, not_or]
      exact ⟨hgap hfirst.1, (mark_spec c hfirst.2).2.1.symm⟩
    | literal w body =>
      obtain ⟨⟨w', c, rest, rfl, hcolon⟩, hfree⟩ := h
      have hmark := hrest _ List.mem_cons_self
      refine NoMatch.append (NoMatch.append (noMatch_of_noQuote (hgap hfirst.1)) ?_)
        (ih hrest hfree)
      refine noMatch_literal hname hfirst.2 ⟨w', c, textOf rest ++ v, ?_, hmark.1, hmark.2, hcolon⟩
      simp [textOf, Token.text, List.flatMap]

/-! ## What a field has -/

section Fields

variable {behind w w' v : List Char} {groups : List (ℕ × List Char)}

theorem first_spaces {k : Place → Option Place} {result : Place}
    (hw : ∀ c ∈ w, isSpace c = true) (hv : ∀ c ∈ v.head?, isSpace c = false)
    (hk : k ⟨w.reverse ++ behind, v, groups⟩ = some result) :
    first spaces k ⟨behind, w ++ v, groups⟩ = some result := by
  refine first_greedy hw ?_ hk
  intro x hx hspace q hpass
  obtain ⟨c, x, rfl⟩ := List.exists_cons_of_ne_nil hx
  have hhead : c ∈ v.head? := by
    rw [show v = c :: x ++ q.ahead from hpass.ahead]
    rfl
  have hc := hspace c List.mem_cons_self
  rw [hv c hhead] at hc
  cases hc

/-- The field is there if its value is, wherever that stands. -/
theorem first_field {name : String} {r : Pat} {P : Place → Prop}
    (hw : ∀ c ∈ w, isSpace c = true) (hw' : ∀ c ∈ w', isSpace c = true)
    (hv : ∀ c ∈ v.head?, isSpace c = false)
    (hr : ∀ behind, ∃ q, first r some ⟨behind, v, groups⟩ = some q ∧ P q) :
    ∃ q, first (fieldName name r) some ⟨behind,
      '"' :: (name.toList ++ '"' :: (w ++ ':' :: (w' ++ v))), groups⟩ = some q ∧ P q := by
  have hlit : '"' :: (name.toList ++ '"' :: (w ++ ':' :: (w' ++ v))) =
      ("\"" ++ name ++ "\"").toList ++ (w ++ (":".toList ++ (w' ++ v))) := by simp
  obtain ⟨q, hq, hP⟩ := hr (w'.reverse ++ (":".toList.reverse ++ (w.reverse ++
    (("\"" ++ name ++ "\"").toList.reverse ++ behind))))
  refine ⟨q, ?_, hP⟩
  rw [fieldName, first_seq, hlit, first_lit, first_seq]
  refine first_spaces hw ?_ ?_
  · intro c hc
    obtain rfl : ':' = c := Option.some.inj hc
    decide
  · rw [first_seq, first_lit, first_seq]
    exact first_spaces hw' hv hq

/-- The first closing bracket ends a list. -/
theorem search_listField {name : String} {u items rest : List Char}
    (hu : NoMatch (listFieldRe name) [] u
      ('"' :: (name.toList ++ '"' :: (w ++ ':' :: (w' ++ '[' :: (items ++ ']' :: rest))))))
    (hw : ∀ c ∈ w, isSpace c = true) (hw' : ∀ c ∈ w', isSpace c = true) (hitems : ']' ∉ items) :
    ∃ m, search (listFieldRe name) (String.ofList (u ++
      '"' :: (name.toList ++ '"' :: (w ++ ':' :: (w' ++ '[' :: (items ++ ']' :: rest)))))) =
        some m ∧ m.group 1 = items := by
  obtain ⟨q, hq, hgroups⟩ := @first_field u.reverse w w' ('[' :: (items ++ ']' :: rest)) [] name
    (.seq (.lit "[") (.seq (.group 1 (anything false)) (.lit "]")))
    (fun q => q.groups = [(1, items)]) hw hw'
    (fun c hc => by obtain rfl : '[' = c := Option.some.inj hc; decide)
    fun behind => by
      refine ⟨⟨']' :: (items.reverse ++ '[' :: behind), rest, [(1, items)]⟩, ?_, rfl⟩
      rw [first_seq]
      refine (first_lit "[" (items ++ ']' :: rest)).trans ?_
      rw [first_seq, first_group]
      refine first_lazy (fun _ _ => rfl) ?_ ?_
      · intro x y hy hxy
        refine first_eq_none fun q hq => ?_
        obtain ⟨c, y, rfl⟩ := List.exists_cons_of_ne_nil hy
        have hahead : c :: y ++ ']' :: rest = ']' :: q.ahead := (passes_of_mem_ways_lit hq).ahead
        obtain ⟨rfl, -⟩ := List.cons.inj hahead
        exact absurd (by simp [hxy]) hitems
      · refine (first_lit "]" rest).trans ?_
        rw [show (⟨"[".toList.reverse ++ behind, items ++ ']' :: rest, []⟩ : Place).ahead =
          items ++ ']' :: rest from rfl, take_length_sub]
        rfl
  exact ⟨_, search_append hu hq, by rw [Match.group, hgroups]; rfl⟩

/-! ### The summary -/

/-- Where the value of the summary can end. -/
theorem ahead_of_summaryEnd {p q : Place} (h : q ∈ summaryEnd.ways p) :
    (∃ w w' name rest, (∀ c ∈ w ++ w', isSpace c = true) ∧ KeyName name ∧
      p.ahead = '"' :: (w ++ ',' :: (w' ++ '"' :: (name.toList ++ '"' :: rest)))) ∨
      '\x7d' ∈ p.ahead ∨ p.ahead = [] ∨ p.ahead = ['\n'] := by
  rcases mem_ways_alt.mp h with h | h
  · obtain ⟨m₁, hm₁, h⟩ := mem_ways_seq.mp h
    obtain ⟨m₂, hm₂, h⟩ := mem_ways_seq.mp h
    obtain ⟨m₃, hm₃, h⟩ := mem_ways_seq.mp h
    obtain ⟨m₄, hm₄, h⟩ := mem_ways_seq.mp h
    obtain ⟨m₅, hm₅, h⟩ := mem_ways_seq.mp h
    obtain ⟨m₆, hm₆, hm₇⟩ := mem_ways_seq.mp h
    obtain ⟨w, hw, hpass⟩ := passes_spaces hm₂
    obtain ⟨w', hw', hpass'⟩ := passes_spaces hm₄
    obtain ⟨name, hname, hlit⟩ : ∃ name, KeyName name ∧ m₆ ∈ (lit name).ways m₅ := by
      rcases mem_ways_alt.mp hm₆ with h | h
      · exact ⟨"topics", keyName_topics, h⟩
      · rcases mem_ways_alt.mp h with h | h
        · exact ⟨"tasks", keyName_tasks, h⟩
        · exact ⟨"sentiment", keyName_sentiment, h⟩
    refine .inl ⟨w, w', name, q.ahead, List.forall_mem_append.mpr ⟨hw, hw'⟩, hname, ?_⟩
    rw [(passes_of_mem_ways_lit hm₁).ahead, hpass.ahead, (passes_of_mem_ways_lit hm₃).ahead,
      hpass'.ahead, (passes_of_mem_ways_lit hm₅).ahead, (passes_of_mem_ways_lit hlit).ahead,
      (passes_of_mem_ways_lit hm₇).ahead]
    rfl
  · rcases mem_ways_alt.mp h with h | h
    · obtain ⟨m₁, hm₁, h⟩ := mem_ways_seq.mp h
      obtain ⟨m₂, hm₂, hm₃⟩ := mem_ways_seq.mp h
      obtain ⟨w, -, hpass⟩ := passes_spaces hm₂
      right; left
      rw [(passes_of_mem_ways_lit hm₁).ahead, hpass.ahead, (passes_of_mem_ways_lit hm₃).ahead]
      simp
    · obtain ⟨-, hend⟩ := mem_ways_look.mp h
      rw [Bool.or_eq_true, beq_iff_eq, beq_iff_eq] at hend
      exact .inr (.inr hend)

/-- The value ends where the next key follows, -/
theorem first_summaryEnd_key (hw : ∀ c ∈ w, isSpace c = true) (hw' : ∀ c ∈ w', isSpace c = true)
    (rest : List Char) :
    ∃ q, first summaryEnd some ⟨behind,
      '"' :: (w ++ ',' :: (w' ++ '"' :: ("topics".toList ++ '"' :: rest))), groups⟩ = some q ∧
        q.groups = groups := by
  have hquote : ∀ c ∈ ('"' :: ("topics".toList ++ '"' :: rest)).head?, isSpace c = false := by
    intro c hc
    obtain rfl : '"' = c := Option.some.inj hc
    decide
  have hcomma : ∀ c ∈ (',' :: (w' ++ '"' :: ("topics".toList ++ '"' :: rest))).head?,
      isSpace c = false := by
    intro c hc
    obtain rfl : ',' = c := Option.some.inj hc
    decide
  refine ⟨⟨"\"".toList.reverse ++ ("topics".toList.reverse ++ ("\"".toList.reverse ++
    (w'.reverse ++ (",".toList.reverse ++ (w.reverse ++ ("\"".toList.reverse ++ behind)))))),
    rest, groups⟩, ?_, rfl⟩
  rw [summaryEnd, first_alt]
  refine Option.or_eq_some_iff.mpr (.inl ?_)
  rw [first_seq]
  refine (first_lit "\"" _).trans ?_
  rw [first_seq]
  refine first_spaces hw hcomma ?_
  rw [first_seq]
  refine (first_lit "," _).trans ?_
  rw [first_seq]
  refine first_spaces hw' hquote ?_
  rw [first_seq]
  refine (first_lit "\"" _).trans ?_
  rw [first_seq]
  refine (first_alt _ _ _).trans (Option.or_eq_some_iff.mpr (.inl ?_))
  exact (first_lit "topics" _).trans (first_lit "\"" rest)

/-- and where the text ends. -/
theorem first_summaryEnd_nil :
    first summaryEnd some ⟨behind, [], groups⟩ = some ⟨behind, [], groups⟩ := by
  have hnone : ∀ r, first (.seq (.lit "\"") r) some ⟨behind, [], groups⟩ = none := by
    intro r
    refine first_eq_none fun q hq => ?_
    obtain ⟨m, hm, -⟩ := mem_ways_seq.mp hq
    cases (passes_of_mem_ways_lit hm).ahead
  rw [summaryEnd, first_alt, first_alt, hnone, hnone, Option.none_or, Option.none_or]
  exact first_look rfl

/-- The value of the summary goes to the first place where it can end. -/
theorem search_summaryField {u value rest : List Char} (hu : '"' ∉ u)
    (hw : ∀ c ∈ w, isSpace c = true) (hw' : ∀ c ∈ w', isSpace c = true)
    (hearlier : ∀ x y, y ≠ [] → value = x ++ y → ∀ behind groups q,
      q ∉ summaryEnd.ways ⟨behind, y ++ rest, groups⟩)
    (hend : ∀ behind groups, ∃ q, first summaryEnd some ⟨behind, rest, groups⟩ = some q ∧
      q.groups = groups) :
    ∃ m, search summaryFieldRe (String.ofList (u ++ '"' :: ("summary".toList ++
      '"' :: (w ++ ':' :: (w' ++ '"' :: (value ++ rest)))))) = some m ∧ m.group 1 = value := by
  obtain ⟨q, hq, hgroups⟩ := @first_field u.reverse w w' ('"' :: (value ++ rest)) [] "summary"
    (.seq (.lit "\"") (.seq (.group 1 (anything false)) summaryEnd))
    (fun q => q.groups = [(1, value)]) hw hw'
    (fun c hc => by obtain rfl : '"' = c := Option.some.inj hc; decide)
    fun behind => by
      obtain ⟨q, hq, hgroups⟩ := hend (value.reverse ++ '"' :: behind) [(1, value)]
      refine ⟨q, ?_, hgroups⟩
      rw [first_seq]
      refine (first_lit "\"" (value ++ rest)).trans ?_
      rw [first_seq, first_group]
      refine first_lazy (fun _ _ => rfl) ?_ ?_
      · exact fun x y hy hxy => first_eq_none fun q hq => absurd hq (hearlier x y hy hxy _ _ q)
      · rw [show (⟨"\"".toList.reverse ++ behind, value ++ rest, []⟩ : Place).ahead =
          value ++ rest from rfl, take_length_sub]
        exact hq
  exact ⟨_, search_append (noMatch_of_noQuote hu) hq, by rw [Match.group, hgroups]; rfl⟩

end Fields

/-! ## The items of a list -/

/-- An escape begins with a backslash. -/
theorem notMem_escapePair {c : Char} (hc : c ≠ '\\') {behind rest : List Char}
    {groups : List (ℕ × List Char)} (q : Place) :
    q ∉ (Pat.seq (.lit "\\") (.cls (· ≠ '\n'))).ways ⟨behind, c :: rest, groups⟩ := by
  intro hq
  obtain ⟨m, hm, -⟩ := mem_ways_seq.mp hq
  have hahead : c :: rest = '\\' :: m.ahead := (passes_of_mem_ways_lit hm).ahead
  exact hc (List.cons.inj hahead).1

/-- What a string is found by. -/
theorem first_body {k : Place → Option Place} {result : Place} {behind b rest : List Char}
    {groups : List (ℕ × List Char)} (hb : Body b)
    (hk : k ⟨b.reverse ++ behind, '"' :: rest, groups⟩ = some result) :
    first (.rep true 0 none
      (.alt (.seq (.lit "\\") (.cls (· ≠ '\n'))) (.cls (· ≠ '"')))) k
        ⟨behind, b ++ '"' :: rest, groups⟩ = some result := by
  induction hb generalizing behind with
  | nil =>
    have hnone : ∀ k : Place → Option Place, first (.alt (.seq (.lit "\\") (.cls (· ≠ '\n')))
        (.cls (· ≠ '"'))) k ⟨behind, '"' :: rest, groups⟩ = none := by
      intro k
      refine first_eq_none fun q hq => ?_
      rcases mem_ways_alt.mp hq with hq | hq
      · exact absurd hq (notMem_escapePair (by decide) q)
      · obtain ⟨c, hc, hpass⟩ := passes_of_mem_ways_cls hq
        have hahead : '"' :: rest = c :: q.ahead := hpass.ahead
        obtain ⟨rfl, -⟩ := List.cons.inj hahead
        exact absurd hc (by decide)
    rw [List.nil_append, first_rep]
    dsimp only
    rw [hnone, if_pos rfl, Option.none_or]
    exact hk
  | @plain c b hquote hbackslash _ _ ih =>
    have hrest := @ih (c :: behind) (by simpa using hk)
    have hnone : ∀ k : Place → Option Place, first (.seq (.lit "\\") (.cls (· ≠ '\n'))) k
        ⟨behind, c :: (b ++ '"' :: rest), groups⟩ = none := fun k =>
      first_eq_none fun q hq => absurd hq (notMem_escapePair hbackslash q)
    rw [List.cons_append, first_rep]
    dsimp only
    rw [if_pos rfl, first_alt, hnone, Option.none_or, first_cls (by simpa using hquote),
      if_pos (by simp), hrest, Option.some_or]
  | @escape c b hc _ ih =>
    have hrest := @ih (c :: '\\' :: behind) (by simpa using hk)
    have hline : decide (c ≠ '\n') = true := by
      have hall : ∀ c ∈ escapeChars, decide (c ≠ '\n') = true :=
        List.all_iff_forall_prop.mp (by decide)
      exact hall c hc
    have hfirst : ∀ k : Place → Option Place, first (.seq (.lit "\\") (.cls (· ≠ '\n'))) k
        ⟨behind, '\\' :: c :: (b ++ '"' :: rest), groups⟩ =
          k ⟨c :: '\\' :: behind, b ++ '"' :: rest, groups⟩ := by
      intro k
      rw [first_seq]
      exact (first_lit "\\" (c :: (b ++ '"' :: rest))).trans (first_cls hline _)
    rw [List.cons_append, List.cons_append, first_rep]
    dsimp only
    rw [if_pos rfl, first_alt, hfirst, if_pos (by grind), hrest, Option.some_or,
      Option.some_or]

/-- A string is matched whole. -/
theorem matchAt_listItem {behind b rest : List Char} (hb : Body b) :
    ∃ m q, matchAt listItemRe ⟨behind, '"' :: (b ++ '"' :: rest), []⟩ = some (m, q) ∧
      m.group 1 = b ∧ q.ahead = rest ∧ q.behind = '"' :: (b.reverse ++ '"' :: behind) := by
  have hfirst : first listItemRe some ⟨behind, '"' :: (b ++ '"' :: rest), []⟩ =
      some ⟨'"' :: (b.reverse ++ '"' :: behind), rest, [(1, b)]⟩ := by
    rw [listItemRe, first_seq]
    refine (first_lit "\"" (b ++ '"' :: rest)).trans ?_
    rw [first_seq, first_group]
    refine first_body hb ?_
    refine (first_lit "\"" rest).trans ?_
    rw [show (⟨"\"".toList.reverse ++ behind, b ++ '"' :: rest, []⟩ : Place).ahead =
      b ++ '"' :: rest from rfl, take_length_sub]
    rfl
  exact ⟨_, _, matchAt_eq_some hfirst, rfl, rfl, rfl⟩

/-- What is matched stands between two quotes. -/
theorem ahead_of_listItem {p q : Place} (h : q ∈ listItemRe.ways p) :
    ∃ u groups, p.ahead = '"' :: (u ++ '"' :: q.ahead) ∧ q.groups = (1, u) :: groups := by
  obtain ⟨m₁, hm₁, h⟩ := mem_ways_seq.mp h
  obtain ⟨m₂, hm₂, hm₃⟩ := mem_ways_seq.mp h
  obtain ⟨t, ht, rfl⟩ := List.mem_map.mp hm₂
  obtain ⟨u, -, hpass⟩ := passes_of_mem_ways (only_true _) ht
  refine ⟨u, t.groups, ?_, ?_⟩
  · rw [(passes_of_mem_ways_lit hm₁).ahead, hpass.ahead]
    exact congrArg (fun v => '"' :: (u ++ v)) (passes_of_mem_ways_lit hm₃).ahead
  · rw [groups_of_mem_ways_lit hm₃, hpass.ahead, take_length_sub]

/-- Text without quotes has no string. -/
theorem noItem_of_noQuote {behind u v : List Char} (h : '"' ∉ u) :
    NoMatch listItemRe behind u v := by
  intro x y hy hxy q hq
  obtain ⟨w, _, hahead, -⟩ := ahead_of_listItem hq
  obtain ⟨c, y, rfl⟩ := List.exists_cons_of_ne_nil hy
  obtain ⟨rfl, -⟩ := List.cons.inj hahead
  exact h (by simp [hxy])

theorem scanAll_noQuote {behind u : List Char} (h : '"' ∉ u) :
    scanAll listItemRe ⟨behind, u, []⟩ = [] := by
  refine scanAll_eq_nil (noItem_of_noQuote h) fun q hq => ?_
  obtain ⟨w, _, hahead, -⟩ := ahead_of_listItem hq
  cases hahead

/-- A match that begins at a quote behind which there is only a body. -/
theorem group_of_body {behind b : List Char} (hb : Body b) {m : Match} {q : Place}
    (h : matchAt listItemRe ⟨behind, '"' :: b, []⟩ = some (m, q)) :
    Body q.ahead ∧ q.ahead.length < b.length ∧ ∃ u, Body u ∧ m.group 1 = u ++ ['\\'] := by
  obtain ⟨hmem, hgroups⟩ := mem_ways_of_matchAt h
  obtain ⟨w, groups, hahead, hq⟩ := ahead_of_listItem hmem
  obtain ⟨-, rfl⟩ := List.cons.inj hahead
  obtain ⟨u, rfl, hu, hrest⟩ := hb.split_quote rfl
  refine ⟨hrest, ?_, u, hu, ?_⟩
  · rw [List.length_append, List.length_cons]
    omega
  · rw [Match.group, hgroups, hq]
    rfl

/-- What can be matched in a body, or in a string without its last quote, ends in the middle
of an escape sequence. -/
theorem scanAll_body (n : ℕ) {behind b : List Char} (hn : b.length < n) (hb : Body b) :
    (∀ m ∈ scanAll listItemRe ⟨behind, b, []⟩, ∃ u, Body u ∧ m.group 1 = u ++ ['\\']) ∧
      ∀ m ∈ scanAll listItemRe ⟨behind, '"' :: b, []⟩, ∃ u, Body u ∧
        m.group 1 = u ++ ['\\'] := by
  induction n generalizing behind b with
  | zero => exact absurd hn (Nat.not_lt_zero _)
  | succ n ih =>
    have hskip : ∀ {behind rest : List Char} {c : Char}, c ≠ '"' →
        scanAll listItemRe ⟨behind, c :: rest, []⟩ =
          scanAll listItemRe ⟨c :: behind, rest, []⟩ := by
      intro behind rest c hc
      exact scanAll_skip (u := [c]) (noItem_of_noQuote (by simpa using hc.symm))
    have hbody : ∀ {behind : List Char}, ∀ m ∈ scanAll listItemRe ⟨behind, b, []⟩,
        ∃ u, Body u ∧ m.group 1 = u ++ ['\\'] := by
      intro behind
      cases hb with
      | nil =>
        rw [scanAll_noQuote List.not_mem_nil]
        exact fun m hm => absurd hm List.not_mem_nil
      | plain hquote _ _ hrest =>
        rw [hskip hquote]
        exact (ih (Nat.lt_of_succ_lt_succ hn) hrest).1
      | @escape c rest _ hrest =>
        rw [hskip (by decide)]
        have hshort : rest.length < n := by
          rw [List.length_cons, List.length_cons] at hn
          omega
        by_cases hc : c = '"'
        · rw [hc]
          exact (ih hshort hrest).2
        · rw [hskip hc]
          exact (ih hshort hrest).1
    refine ⟨hbody, ?_⟩
    cases hmatch : matchAt listItemRe ⟨behind, '"' :: b, []⟩ with
    | none =>
      rw [scanAll_of_none hmatch]
      exact hbody
    | some result =>
      obtain ⟨m, q⟩ := result
      obtain ⟨hrest, hlt, hm⟩ := group_of_body hb hmatch
      rw [scanAll_match hmatch (by dsimp only [List.length_cons]; omega)]
      exact List.forall_mem_cons.mpr ⟨hm, (ih (by omega) hrest).1⟩

/-! ### Lists that are there and lists that are not -/

section ParseItems

variable (json : Json)

/-- The strings among the matches. -/
def decoded (ms : List Match) : List JsonValue :=
  ms.filterMap fun m => json.loads (quoted (String.ofList (m.group 1)))

theorem parseListItems_ofList (items : List Char) :
    parseListItems json (String.ofList items) = decoded json (scanAll listItemRe ⟨[], items, []⟩) := by
  rw [parseListItems, finditer_ofList]
  rfl

/-- The text of a list between its brackets. -/
def itemsText (items : List Item) (gap : List Char) : List Char := textOf (itemTokens items) ++ gap

/-- The text of a list begins with its first string. -/
theorem itemsText_cons (item : Item) (rest : List Item) (gap : List Char) :
    itemsText (item :: rest) gap = item.gap ++ '"' :: (item.body ++ '"' ::
      if rest = [] then gap else item.gapAfter ++ ',' :: itemsText rest gap) := by
  unfold itemsText
  cases rest with
  | nil => simp [itemTokens, textOf, Token.text]
  | cons next rest => simp [itemTokens, textOf, Token.text, List.flatMap_cons]

variable {json}

/-- A string in a list is read, and then what follows it. -/
theorem decoded_string {value : String} {body : List Char} (h : EncodesString json value body)
    {w : List Char} (hw : '"' ∉ w) (behind rest : List Char) :
    ∃ behind', decoded json (scanAll listItemRe ⟨behind, w ++ '"' :: (body ++ '"' :: rest), []⟩) =
      .string value :: decoded json (scanAll listItemRe ⟨behind', rest, []⟩) := by
  obtain ⟨m, q, hmatch, hgroup, hahead, -⟩ :=
    @matchAt_listItem (w.reverse ++ behind) body rest h.chars.body
  refine ⟨q.behind, ?_⟩
  have hlt : q.ahead.length < ('"' :: (body ++ '"' :: rest)).length := by
    rw [hahead, List.length_cons, List.length_append, List.length_cons]
    omega
  rw [scanAll_skip (noItem_of_noQuote hw), scanAll_match hmatch hlt, decoded, List.filterMap_cons,
    hgroup, h.loads, hahead]
  rfl

theorem decoded_skip {w : List Char} (hw : '"' ∉ w) (behind rest : List Char) :
    ∃ behind', decoded json (scanAll listItemRe ⟨behind, w ++ rest, []⟩) =
      decoded json (scanAll listItemRe ⟨behind', rest, []⟩) :=
  ⟨_, congrArg (decoded json) (scanAll_skip (noItem_of_noQuote hw))⟩

theorem Gap.notMem {w : List Char} (h : Gap w) {c : Char} (hc : PyText.isSpace c = false) :
    c ∉ w := by
  intro hmem
  rw [h.isSpace c hmem] at hc
  cases hc

variable {values : List String} {items : List Item} {gap : List Char}
  (h : List.Forall₂ (fun value item => EncodesString json value item.body) values items)
  (hgaps : ∀ item ∈ items, Gap item.gap ∧ Gap item.gapAfter) (hgap : Gap gap)

include h hgaps hgap

/-- **A whole list** is read as it is. -/
theorem parseListItems_items (behind : List Char) :
    decoded json (scanAll listItemRe ⟨behind, itemsText items gap, []⟩) = values.map .string := by
  have hnoQuote : ∀ {w : List Char}, Gap w → '"' ∉ w := fun hw => hw.notMem (by decide)
  induction h generalizing behind with
  | nil =>
    rw [show itemsText [] gap = gap from rfl, scanAll_noQuote (hnoQuote hgap)]
    rfl
  | @cons value item values rest hvalue hrest ih =>
    obtain ⟨hitem, hafter⟩ := hgaps item List.mem_cons_self
    obtain ⟨behind', hread⟩ := decoded_string hvalue (hnoQuote hitem) behind
      (if rest = [] then gap else item.gapAfter ++ ',' :: itemsText rest gap)
    rw [itemsText_cons, hread, List.map_cons]
    congr 1
    split_ifs with hnil
    · subst hnil
      obtain rfl := List.forall₂_nil_right_iff.mp hrest
      rw [scanAll_noQuote (hnoQuote hgap)]
      rfl
    · have hcomma : '"' ∉ item.gapAfter ++ [','] := by simpa using hnoQuote hafter
      obtain ⟨behind'', hskip⟩ := @decoded_skip json _ hcomma behind' (itemsText rest gap)
      rw [List.append_assoc, List.singleton_append] at hskip
      rw [hskip]
      exact ih (fun i hi => hgaps i (List.mem_cons_of_mem item hi)) behind''

/-- **A list with a closing bracket in a string** is read up to the string before. -/
theorem parseListItems_cut (hstrict : StringsStrict json) (behind : List Char)
    {found rest : List Char} (heq : itemsText items gap = found ++ ']' :: rest)
    (hfound : ']' ∉ found) :
    ∃ k < values.length,
      decoded json (scanAll listItemRe ⟨behind, found, []⟩) = (values.take k).map .string := by
  have hbracket : ∀ {w : List Char}, Gap w → ']' ∉ w := fun hw => hw.notMem (by decide)
  induction h generalizing behind found with
  | nil =>
    have hmem : ']' ∈ gap := by
      rw [show gap = itemsText [] gap from rfl, heq]
      simp
    exact absurd hmem (hbracket hgap)
  | @cons value item values items hvalue hitems ih =>
    obtain ⟨hitem, hafter⟩ := hgaps item List.mem_cons_self
    have hquote : '"' ∉ item.gap := hitem.notMem (by decide)
    rw [itemsText_cons] at heq
    obtain ⟨t, rfl, hbody⟩ : ∃ t, found = item.gap ++ '"' :: t ∧ item.body ++ '"' :: (if items = []
        then gap else item.gapAfter ++ ',' :: itemsText items gap) = t ++ ']' :: rest := by
      have hnot : ']' ∉ item.gap ++ ['"'] := by simpa using hbracket hitem
      obtain ⟨t, hfound', ht⟩ := split_before hnot (heq.symm.trans (List.append_cons _ _ _))
      exact ⟨t, by rw [hfound', List.append_assoc, List.singleton_append], ht⟩
    by_cases hmem : ']' ∈ item.body
    · -- the list ends in this string
      obtain ⟨u, u', hu, hnot⟩ := List.eq_append_cons_of_mem hmem
      obtain rfl : t = u := by
        rw [hu, List.append_assoc, List.cons_append] at hbody
        obtain ⟨x, rfl, hx⟩ := split_before hnot hbody.symm
        cases x with
        | nil => exact List.append_nil u
        | cons c x =>
          obtain ⟨rfl, -⟩ := List.cons.inj hx
          exact absurd (by simp) hfound
      have hleft : Body t := hvalue.chars.body.left hu (by decide)
      obtain ⟨behind', hskip⟩ := @decoded_skip json _ hquote behind ('"' :: t)
      refine ⟨0, Nat.succ_pos _, ?_⟩
      rw [hskip]
      refine List.filterMap_eq_nil_iff.mpr fun m hm => ?_
      obtain ⟨b, hb, hgroup⟩ := (scanAll_body _ (Nat.lt_succ_self _) hleft).2 m hm
      rw [hgroup]
      exact hstrict _ hb.not_append_backslash
    · -- and otherwise behind the string
      have hnot : ']' ∉ item.body ++ ['"'] := by simpa using hmem
      obtain ⟨t, rfl, htail⟩ := split_before hnot (hbody.symm.trans (List.append_cons _ _ _))
      rw [List.append_assoc, List.singleton_append] at hfound ⊢
      obtain ⟨behind', hread⟩ := decoded_string hvalue hquote behind t
      rw [hread]
      split_ifs at htail with hnil
      · exact absurd (by rw [htail]; simp) (hbracket hgap)
      · have hcomma : ']' ∉ item.gapAfter ++ [','] := by simpa using hbracket hafter
        have hcomma' : '"' ∉ item.gapAfter ++ [','] := by
          simpa using hafter.notMem (c := '"') (by decide)
        obtain ⟨t, rfl, hitems'⟩ := split_before hcomma (htail.symm.trans (List.append_cons _ _ _))
        obtain ⟨behind'', hskip⟩ := @decoded_skip json _ hcomma' behind' t
        obtain ⟨k, hk, hcut⟩ := ih (fun i hi => hgaps i (List.mem_cons_of_mem item hi)) behind''
          hitems' fun hmem => hfound (by simp [hmem])
        refine ⟨k + 1, Nat.succ_lt_succ hk, ?_⟩
        rw [hskip, hcut, List.take_succ_cons, List.map_cons]

end ParseItems

end Llm
end PersonalIntelligence
