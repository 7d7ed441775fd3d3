import PersonalIntelligence.Llm.SummaryRoundTrip

/-!
# JSON text

The grammar of the strings of JSON, what a text of an object with the fields of a summary
looks like, and how the quotes in such a text are told apart: a quote in the body of a string
stands behind a backslash that begins an escape sequence (`Body.split_quote`), and every
other quote begins or ends a string (`Body.cancel_quote`).
-/

namespace PersonalIntelligence
namespace Llm

open PyText

/-! ## Strings -/

/-- What can follow a backslash. -/
def escapeChars : List Char := "\"\\/bfnrtu".toList

/-- What can stand between the quotes of a string.  Of the escape sequences with `u` only the
beginning is looked at. -/
inductive Body : List Char → Prop
  | nil : Body []
  | plain {c : Char} {b : List Char} (quote : c ≠ '"') (backslash : c ≠ '\\')
      (control : 32 ≤ c.toNat) (rest : Body b) : Body (c :: b)
  | escape {c : Char} {b : List Char} (escapable : c ∈ escapeChars) (rest : Body b) :
      Body ('\\' :: c :: b)

namespace Body

theorem append {b b' : List Char} (h : Body b) (h' : Body b') : Body (b ++ b') := by
  induction h with
  | nil => exact h'
  | plain hq hs hc _ ih => exact plain hq hs hc ih
  | escape hc _ ih => exact escape hc ih

/-- How a body begins. -/
theorem cons {c : Char} {b : List Char} (h : Body (c :: b)) :
    (c ≠ '"' ∧ c ≠ '\\' ∧ Body b) ∨
      (c = '\\' ∧ ∃ d rest, b = d :: rest ∧ d ∈ escapeChars ∧ Body rest) := by
  cases h with
  | plain hq hs _ hrest => exact .inl ⟨hq, hs, hrest⟩
  | escape hd hrest => exact .inr ⟨rfl, _, _, rfl, hd, hrest⟩

/-- Text without quotes and backslashes. -/
theorem of_plain {b : List Char} (h : ∀ c ∈ b, c ≠ '"' ∧ c ≠ '\\' ∧ 32 ≤ c.toNat) : Body b := by
  induction b with
  | nil => exact nil
  | cons c rest ih =>
    obtain ⟨hq, hs, hc⟩ := h c List.mem_cons_self
    exact plain hq hs hc (ih fun d hd => h d (List.mem_cons_of_mem c hd))

/-- The first part of a body is one, unless it ends in a backslash. -/
theorem left {b u v : List Char} {c : Char} (h : Body b) (heq : b = u ++ c :: v)
    (hc : c ∉ escapeChars) : Body u := by
  induction h generalizing u with
  | nil => simp at heq
  | @plain d rest hq hs hd _ ih =>
    cases u with
    | nil => exact nil
    | cons e u =>
      obtain ⟨rfl, hrest⟩ := List.cons.inj heq
      exact plain hq hs hd (ih hrest)
  | @escape d rest hd _ ih =>
    rcases u with - | ⟨e, - | ⟨e', u⟩⟩
    · exact nil
    · obtain ⟨-, hrest⟩ := List.cons.inj heq
      obtain ⟨rfl, -⟩ := List.cons.inj hrest
      exact absurd hd hc
    · obtain ⟨rfl, htail⟩ := List.cons.inj heq
      obtain ⟨rfl, htail'⟩ := List.cons.inj htail
      exact escape hd (ih htail')

/-- A quote in a body is escaped, and another body follows. -/
theorem split_quote {b u v : List Char} (h : Body b) (heq : b = u ++ '"' :: v) :
    ∃ u', u = u' ++ ['\\'] ∧ Body u' ∧ Body v := by
  induction h generalizing u with
  | nil => simp at heq
  | @plain d rest hq hs hd _ ih =>
    cases u with
    | nil => exact absurd (List.cons.inj heq).1 hq
    | cons e u =>
      obtain ⟨rfl, hrest⟩ := List.cons.inj heq
      obtain ⟨u', rfl, hu', hv⟩ := ih hrest
      exact ⟨d :: u', rfl, plain hq hs hd hu', hv⟩
  | @escape d rest hd hrest ih =>
    rcases u with - | ⟨e, - | ⟨e', u⟩⟩
    · exact absurd (List.cons.inj heq).1 (by decide)
    · obtain ⟨rfl, hquote⟩ := List.cons.inj heq
      obtain ⟨rfl, rfl⟩ := List.cons.inj hquote
      exact ⟨[], rfl, nil, hrest⟩
    · obtain ⟨rfl, htail⟩ := List.cons.inj heq
      obtain ⟨rfl, htail'⟩ := List.cons.inj htail
      obtain ⟨u', rfl, hu', hv⟩ := ih htail'
      exact ⟨'\\' :: d :: u', rfl, escape hd hu', hv⟩

/-- The first quote that is not escaped ends the string. -/
theorem cancel_quote {b b' v v' : List Char} (h : Body b) (h' : Body b')
    (heq : b ++ '"' :: v = b' ++ '"' :: v') : b = b' ∧ v = v' := by
  induction h generalizing b' with
  | nil =>
    cases h' with
    | nil => exact ⟨rfl, (List.cons.inj heq).2⟩
    | plain hq => exact absurd (List.cons.inj heq).1.symm hq
    | escape => exact absurd (List.cons.inj heq).1 (by decide)
  | @plain d rest hq hs hd _ ih =>
    cases h' with
    | nil => exact absurd (List.cons.inj heq).1 hq
    | plain _ _ _ hrest' =>
      obtain ⟨rfl, htail⟩ := List.cons.inj heq
      obtain ⟨rfl, rfl⟩ := ih hrest' htail
      exact ⟨rfl, rfl⟩
    | escape => exact absurd (List.cons.inj heq).1 hs
  | @escape d rest hd hrest ih =>
    cases h' with
    | nil => exact absurd (List.cons.inj heq).1 (by decide)
    | plain _ hs => exact absurd (List.cons.inj heq).1.symm hs
    | escape _ hrest' =>
      obtain ⟨-, htail⟩ := List.cons.inj heq
      obtain ⟨rfl, htail'⟩ := List.cons.inj htail
      obtain ⟨rfl, rfl⟩ := ih hrest' htail'
      exact ⟨rfl, rfl⟩

/-- The same where the other text has neither quotes nor backslashes. -/
theorem cancel_plain {b u v v' : List Char} (h : Body b) (hu : '"' ∉ u ∧ '\\' ∉ u)
    (heq : b ++ '"' :: v = u ++ '"' :: v') : b = u ∧ v = v' := by
  induction h generalizing u with
  | nil =>
    cases u with
    | nil => exact ⟨rfl, (List.cons.inj heq).2⟩
    | cons c u =>
      obtain ⟨rfl, -⟩ := List.cons.inj heq
      exact absurd List.mem_cons_self hu.1
  | @plain d rest hq _ _ _ ih =>
    cases u with
    | nil => exact absurd (List.cons.inj heq).1 hq
    | cons c u =>
      obtain ⟨rfl, htail⟩ := List.cons.inj heq
      obtain ⟨rfl, rfl⟩ := ih ⟨fun h => hu.1 (List.mem_cons_of_mem _ h),
        fun h => hu.2 (List.mem_cons_of_mem _ h)⟩ htail
      exact ⟨rfl, rfl⟩
  | @escape d rest _ _ _ =>
    cases u with
    | nil => exact absurd (List.cons.inj heq).1 (by decide)
    | cons c u =>
      obtain ⟨rfl, -⟩ := List.cons.inj heq
      exact absurd List.mem_cons_self hu.2

theorem noNewline {b : List Char} (h : Body b) : '\n' ∉ b := by
  induction h with
  | nil => exact List.not_mem_nil
  | plain _ _ hc _ ih =>
    refine fun hmem => (List.mem_cons.mp hmem).elim ?_ ih
    rintro rfl
    exact absurd hc (by decide)
  | escape hc _ ih =>
    refine fun hmem => (List.mem_cons.mp hmem).elim (by decide) fun hmem => ?_
    refine (List.mem_cons.mp hmem).elim ?_ ih
    rintro rfl
    exact absurd hc (by decide)

/-- A body does not end in the middle of an escape sequence, -/
theorem not_append_backslash {b : List Char} (h : Body b) : ¬ Body (b ++ ['\\']) := by
  intro h'
  induction h with
  | nil =>
    rcases h'.cons with ⟨-, hs, -⟩ | ⟨-, d, rest, hnil, -⟩
    · exact hs rfl
    · cases hnil
  | plain _ hs _ _ ih =>
    rcases h'.cons with ⟨-, -, hrest⟩ | ⟨heq, -⟩
    · exact ih hrest
    · exact hs heq
  | escape _ _ ih =>
    rcases h'.cons with ⟨-, hs, -⟩ | ⟨-, d, rest, heq, -, hrest⟩
    · exact hs rfl
    · obtain ⟨-, rfl⟩ := List.cons.inj heq
      exact ih hrest

/-- and does not go on behind the quote that ends it. -/
theorem not_append_quote {b v : List Char} (h : Body b) : ¬ Body (b ++ '"' :: v) := by
  intro h'
  obtain ⟨u, rfl, hu, -⟩ := h'.split_quote rfl
  exact hu.not_append_backslash h

end Body

/-! ## Encodings of strings -/

def hexDigits : List Char := "0123456789abcdefABCDEF".toList

/-- The number that hexadecimal digits stand for. -/
def hexValue (digits : List Char) : ℕ :=
  digits.foldl (fun n c =>
    16 * n + if asciiDigit c then c.toNat - 48 else (asciiLower c).toNat - 87) 0

/-- Four hexadecimal digits. -/
structure HexUnit (digits : List Char) (n : ℕ) : Prop where
  length : digits.length = 4
  digit : ∀ c ∈ digits, c ∈ hexDigits
  value : hexValue digits = n

/-- The ways to escape a character. -/
inductive Escape : Char → List Char → Prop
  | short {c x : Char} (h : (c, x) ∈ [('"', '"'), ('\\', '\\'), ('/', '/'), ('\x08', 'b'),
      ('\x0c', 'f'), ('\n', 'n'), ('\r', 'r'), ('\t', 't')]) : Escape c ['\\', x]
  | unicode {c : Char} {digits : List Char} (h : HexUnit digits c.toNat) :
      Escape c ('\\' :: 'u' :: digits)
  /-- Two surrogates. -/
  | pair {c : Char} {digits digits' : List Char} {high low : ℕ} (hhigh : HexUnit digits high)
      (hlow : HexUnit digits' low) (hrange : 0xD800 ≤ high ∧ high < 0xDC00)
      (hrange' : 0xDC00 ≤ low ∧ low < 0xE000)
      (h : c.toNat = 0x10000 + 0x400 * (high - 0xD800) + (low - 0xDC00)) :
      Escape c ('\\' :: 'u' :: (digits ++ '\\' :: 'u' :: digits'))

/-- A text between quotes encodes a string. -/
inductive EncodesChars : List Char → List Char → Prop
  | nil : EncodesChars [] []
  | plain {c : Char} {v b : List Char} (quote : c ≠ '"') (backslash : c ≠ '\\')
      (control : 32 ≤ c.toNat) (rest : EncodesChars v b) : EncodesChars (c :: v) (c :: b)
  | escape {c : Char} {e v b : List Char} (h : Escape c e) (rest : EncodesChars v b) :
      EncodesChars (c :: v) (e ++ b)

/-- The characters of escape sequences. -/
def escapeAlphabet : List Char := '\\' :: (escapeChars ++ hexDigits)

/-- Escape sequences have no whitespace and no braces. -/
theorem escapeAlphabet_spec : ∀ c ∈ escapeAlphabet,
    isSpace c = false ∧ c ≠ '\x7b' ∧ c ≠ '\x7d' :=
  List.all_iff_forall_prop.mp (by decide)

theorem Escape.spec {c : Char} {e : List Char} (h : Escape c e) :
    Body e ∧ e ≠ [] ∧ ∀ d ∈ e, d ∈ escapeAlphabet := by
  have hdigits : ∀ {digits : List Char} {n : ℕ}, HexUnit digits n →
      Body digits ∧ ∀ d ∈ digits, d ∈ escapeAlphabet := by
    intro digits n h
    have hplain : ∀ d ∈ hexDigits, d ≠ '"' ∧ d ≠ '\\' ∧ 32 ≤ d.toNat :=
      List.all_iff_forall_prop.mp (by decide)
    refine ⟨Body.of_plain fun d hd => hplain d (h.digit d hd), fun d hd => ?_⟩
    exact List.mem_cons_of_mem _ (List.mem_append_right _ (h.digit d hd))
  have hbackslash : '\\' ∈ escapeAlphabet := by decide
  have hu : 'u' ∈ escapeAlphabet := by decide
  have hu' : 'u' ∈ escapeChars := by decide
  cases h with
  | @short x h =>
    have hx : x ∈ escapeChars := by
      have hall : ∀ p ∈ [('"', '"'), ('\\', '\\'), ('/', '/'), ('\x08', 'b'), ('\x0c', 'f'),
          ('\n', 'n'), ('\r', 'r'), ('\t', 't')], p.2 ∈ escapeChars := by
        decide
      exact hall _ h
    refine ⟨Body.escape hx Body.nil, List.cons_ne_nil _ _, ?_⟩
    exact List.forall_mem_cons.mpr ⟨hbackslash, List.forall_mem_singleton.mpr
      (List.mem_cons_of_mem _ (List.mem_append_left _ hx))⟩
  | unicode h =>
    obtain ⟨hbody, hmem⟩ := hdigits h
    refine ⟨Body.escape hu' hbody, List.cons_ne_nil _ _, ?_⟩
    exact List.forall_mem_cons.mpr ⟨hbackslash, List.forall_mem_cons.mpr ⟨hu, hmem⟩⟩
  | pair hhigh hlow _ _ _ =>
    obtain ⟨hbody, hmem⟩ := hdigits hhigh
    obtain ⟨hbody', hmem'⟩ := hdigits hlow
    refine ⟨Body.escape hu' (hbody.append (Body.escape hu' hbody')), List.cons_ne_nil _ _, ?_⟩
    refine List.forall_mem_cons.mpr ⟨hbackslash, List.forall_mem_cons.mpr ⟨hu, ?_⟩⟩
    refine List.forall_mem_append.mpr ⟨hmem, ?_⟩
    exact List.forall_mem_cons.mpr ⟨hbackslash, List.forall_mem_cons.mpr ⟨hu, hmem'⟩⟩

namespace EncodesChars

variable {v b : List Char}

theorem body (h : EncodesChars v b) : Body b := by
  induction h with
  | nil => exact Body.nil
  | plain hq hs hc _ ih => exact Body.plain hq hs hc ih
  | escape h _ ih => exact h.spec.1.append ih

/-- A body has no other characters than the string and escape sequences. -/
theorem mem (h : EncodesChars v b) {c : Char} (hc : c ∈ b) : c ∈ v ∨ c ∈ escapeAlphabet := by
  induction h with
  | nil => cases hc
  | plain _ _ _ _ ih =>
    rcases List.mem_cons.mp hc with rfl | hc
    · exact .inl List.mem_cons_self
    · exact (ih hc).imp_left (List.mem_cons_of_mem _)
  | escape h _ ih =>
    rcases List.mem_append.mp hc with hc | hc
    · exact .inr (h.spec.2.2 c hc)
    · exact (ih hc).imp_left (List.mem_cons_of_mem _)

theorem length_le (h : EncodesChars v b) : v.length ≤ b.length := by
  induction h with
  | nil => exact le_rfl
  | plain _ _ _ _ ih => exact Nat.succ_le_succ ih
  | escape h _ ih =>
    have hpos := List.length_pos_iff.mpr h.spec.2.1
    rw [List.length_cons, List.length_append]
    omega

/-- The whitespace of a body is that of the string. -/
theorem countP_isSpace_le (h : EncodesChars v b) : b.countP isSpace ≤ v.countP isSpace := by
  induction h with
  | nil => exact le_rfl
  | plain _ _ _ _ ih =>
    rw [List.countP_cons, List.countP_cons]
    exact Nat.add_le_add_right ih _
  | escape h _ ih =>
    have hnone : List.countP isSpace _ = 0 := List.countP_eq_zero.mpr fun d hd =>
      Bool.eq_false_iff.mp (escapeAlphabet_spec d (h.spec.2.2 d hd)).1
    rw [List.countP_append, hnone, Nat.zero_add, List.countP_cons]
    omega

theorem head_isSpace (h : EncodesChars v b) {c : Char} (hc : c ∈ b.head?)
    (hspace : isSpace c = true) : c ∈ v.head? := by
  cases h with
  | nil => cases hc
  | plain => exact hc
  | @escape c' e v b he _ =>
    obtain ⟨-, hne, hmem⟩ := he.spec
    rw [List.head?_append_of_ne_nil _ hne] at hc
    rw [(escapeAlphabet_spec c (hmem c (List.mem_of_head? hc))).1] at hspace
    cases hspace

theorem eq_nil (h : EncodesChars v []) : v = [] :=
  List.eq_nil_of_length_eq_zero (Nat.le_zero.mp h.length_le)

theorem getLast_isSpace (h : EncodesChars v b) (hv : ∀ c ∈ v.getLast?, isSpace c = false) :
    ∀ c ∈ b.getLast?, isSpace c = false := by
  -- what the last character is depends on what follows the first one
  have hnext : ∀ {c : Char} {v b : List Char}, EncodesChars v b → b ≠ [] →
      (c :: v).getLast? = v.getLast? := by
    intro c v b h hb
    cases h with
    | nil => exact absurd rfl hb
    | plain => exact List.getLast?_cons_cons
    | escape => exact List.getLast?_cons_cons
  induction h with
  | nil => exact hv
  | @plain c v b hq hs hc hrest ih =>
    rcases eq_or_ne b [] with rfl | hb
    · obtain rfl := hrest.eq_nil
      exact hv
    · obtain ⟨d, b, rfl⟩ := List.exists_cons_of_ne_nil hb
      rw [hnext hrest hb] at hv
      rw [List.getLast?_cons_cons]
      exact ih hv
  | @escape c e v b he hrest ih =>
    rcases eq_or_ne b [] with rfl | hb
    · rw [List.append_nil]
      exact fun d hd => (escapeAlphabet_spec d (he.spec.2.2 d (List.mem_of_getLast? hd))).1
    · rw [hnext hrest hb] at hv
      rw [List.getLast?_append_of_ne_nil _ hb]
      exact ih hv

/-- A body is as spaced as the string. -/
theorem spaced (h : EncodesChars v b) (hv : Spaced v) : Spaced b where
  tidy :=
    { head := by
        intro c hc
        by_contra hspace
        rw [Bool.not_eq_false] at hspace
        rw [hv.tidy.head c (h.head_isSpace hc hspace)] at hspace
        cases hspace
      last := h.getLast_isSpace hv.tidy.last
      chain := by
        have hchain := hv.tidy.chain
        clear hv
        induction h with
        | nil => exact hchain
        | @plain c v b hq hs hc hrest ih =>
          obtain ⟨hfirst, hchain⟩ := List.isChain_cons.mp hchain
          refine List.isChain_cons.mpr ⟨fun d hd => ?_, ih hchain⟩
          cases hspace : isSpace d with
          | false => exact .inr rfl
          | true =>
            rw [← hspace]
            exact hfirst d (hrest.head_isSpace hd hspace)
        | @escape c e v b he hrest ih =>
          have hword : ∀ d ∈ e, isSpace d = false :=
            fun d hd => (escapeAlphabet_spec d (he.spec.2.2 d hd)).1
          refine List.isChain_append.mpr ⟨(Tidy.of_word hword).chain, ih hchain.tail, ?_⟩
          exact fun d hd _ _ => .inl (hword d (List.mem_of_getLast? hd)) }
  space c hc hspace := by
    rcases h.mem hc with hmem | hmem
    · exact hv.space c hmem hspace
    · rw [(escapeAlphabet_spec c hmem).1] at hspace
      cases hspace

end EncodesChars

/-! ## The text of an object -/

/-- Whitespace of JSON. -/
def Gap (w : List Char) : Prop := ∀ c ∈ w, c ∈ [' ', '\t', '\n', '\r']

theorem Gap.isSpace {w : List Char} (h : Gap w) : ∀ c ∈ w, PyText.isSpace c = true := by
  have hall : ∀ c ∈ [' ', '\t', '\n', '\r'], PyText.isSpace c = true :=
    List.all_iff_forall_prop.mp (by decide)
  exact fun c hc => hall c (h c hc)

/-- A token with the whitespace before it. -/
inductive Token where
  | mark (gap : List Char) (c : Char)
  | literal (gap body : List Char)

def Token.text : Token → List Char
  | mark gap c => gap ++ [c]
  | literal gap body => gap ++ '"' :: (body ++ ['"'])

/-- The tokens of an object with strings and lists in it. -/
def Token.Ok : Token → Prop
  | mark gap c => Gap gap ∧ c ∈ "\x7b\x7d[]:,".toList
  | literal gap body => Gap gap ∧ Body body

/-- Marks are neither whitespace nor quotes nor what strings are made of. -/
theorem mark_spec : ∀ c ∈ "\x7b\x7d[]:,".toList,
    isSpace c = false ∧ c ≠ '"' ∧ c ≠ '`' ∧ asciiLetter c = false :=
  List.all_iff_forall_prop.mp (by decide)

def textOf (tokens : List Token) : List Char := tokens.flatMap Token.text

/-- A string in a list, with the whitespace before it and before the comma behind it. -/
structure Item where
  gap : List Char
  body : List Char
  gapAfter : List Char

/-- The items of a list with commas between them. -/
def itemTokens : List Item → List Token
  | [] => []
  | [item] => [.literal item.gap item.body]
  | item :: rest => .literal item.gap item.body :: .mark item.gapAfter ',' :: itemTokens rest

/-- The strings and the whitespace of an object with a summary, topics and tasks. -/
structure ObjectText where
  gaps : ℕ → List Char
  summary : List Char
  topics : List Item
  tasks : List Item

namespace ObjectText

variable (e : ObjectText)

/-- The object up to the quote behind the summary, -/
def throughSummary : List Token :=
  [.mark [] '\x7b', .literal (e.gaps 0) "summary".toList, .mark (e.gaps 1) ':',
    .literal (e.gaps 2) e.summary]

/-- up to the quote behind the next key, -/
def throughTopicsKey : List Token :=
  e.throughSummary ++ [.mark (e.gaps 3) ',', .literal (e.gaps 4) "topics".toList]

/-- up to the bracket behind the topics, -/
def throughTopics : List Token :=
  e.throughTopicsKey ++ [.mark (e.gaps 5) ':', .mark (e.gaps 6) '['] ++ itemTokens e.topics ++
    [.mark (e.gaps 7) ']']

/-- up to the bracket behind the tasks, -/
def throughTasks : List Token :=
  e.throughTopics ++ [.mark (e.gaps 8) ',', .literal (e.gaps 9) "tasks".toList,
    .mark (e.gaps 10) ':', .mark (e.gaps 11) '['] ++ itemTokens e.tasks ++
    [.mark (e.gaps 12) ']']

/-- and the whole of it. -/
def tokens : List Token := e.throughTasks ++ [.mark (e.gaps 13) '\x7d']

end ObjectText

/-- A text between quotes encodes a string, and `json.loads` reads it so. -/
structure EncodesString (json : Json) (value : String) (body : List Char) : Prop where
  chars : EncodesChars value.toList body
  loads : json.loads (quoted (String.ofList body)) = some (.string value)

/-- The text of an object encodes a payload, the sentiment apart. -/
structure EncodesPayload (json : Json) (payload : SummaryPayload) (e : ObjectText) : Prop where
  gap : ∀ i, Gap (e.gaps i)
  itemGap : ∀ item ∈ e.topics ++ e.tasks, Gap item.gap ∧ Gap item.gapAfter
  summary : EncodesString json payload.summary e.summary
  topics : List.Forall₂ (fun value item => EncodesString json value item.body) payload.topics
    e.topics
  tasks : List.Forall₂ (fun value item => EncodesString json value item.body) payload.tasks
    e.tasks

/-- `json.loads` accepts nothing between quotes but the body of a string. -/
def StringsStrict (json : Json) : Prop :=
  ∀ b, ¬ Body b → json.loads (quoted (String.ofList b)) = none

end Llm
end PersonalIntelligence
