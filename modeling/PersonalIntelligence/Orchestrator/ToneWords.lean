import PersonalIntelligence.Orchestrator.Preprocessing
import PersonalIntelligence.Library.Tokens

/-!
# Tone words

The sentiment hint of a window is what the words of two lists decide.  They are compared with the
tokens of `_WORD_RE`, and a token has at least three characters and no whitespace: two of the
fourteen words cannot be found (`not_dead_of_mem_findall`), although nothing keeps a message from
containing them.

What the expression finds is known from `Library.Tokens`.  A word that stands between whitespace
is a token if it is spelled in the characters of the expression (`mem_wordTokens_of_spelled`),
so that the hint misses one only if its polarity has no token at all (`toneDetected_iff`).
-/

namespace PersonalIntelligence
namespace Orchestrator

open PyText Regex

/-! ## Polarities -/

inductive Polarity where
  | positive
  | negative
  deriving DecidableEq, Repr

/-- `_POSITIVE_HINTS` and `_NEGATIVE_HINTS`. -/
def hintWords : Polarity → List String
  | .positive => positiveHints
  | .negative => negativeHints

/-- The hint of a window in which one polarity was found alone. -/
def Polarity.hint : Polarity → SentimentHint
  | .positive => .positive
  | .negative => .negative

/-- The hint says that the polarity was found. -/
def Shows (hint : SentimentHint) (p : Polarity) : Prop := hint = .mixed ∨ hint = p.hint

theorem shows_sentimentHint (positiveHits negativeHits : ℕ) (p : Polarity) :
    Shows (sentimentHint positiveHits negativeHits) p ↔
      (match p with
        | .positive => positiveHits
        | .negative => negativeHits) ≠ 0 := by
  unfold sentimentHint Shows Polarity.hint
  cases p
  · split_ifs <;> simp_all
  · split_ifs <;> simp_all

/-- No hint is a stop word, and all have a letter. -/
theorem hintWords_ordinary : ∀ {p : Polarity} {h : String}, h ∈ hintWords p →
    stopwords.contains h = false ∧
      h.toList.any (fun c => asciiLetter c || russianLetter c) = true
  | .positive, h, hmem => by
    have hall : ∀ h ∈ positiveHints, stopwords.contains h = false ∧
        h.toList.any (fun c => asciiLetter c || russianLetter c) = true := by decide
    exact hall h hmem
  | .negative, h, hmem => by
    have hall : ∀ h ∈ negativeHints, stopwords.contains h = false ∧
        h.toList.any (fun c => asciiLetter c || russianLetter c) = true := by decide
    exact hall h hmem

/-! ## Occurrences -/

/-- The word stands in the text between whitespace or the ends of the text. -/
def Delimited (w : List Char) (text : String) : Prop :=
  ∃ a b, text.toList = a ++ w ++ b ∧ (∀ c ∈ a.getLast?, isSpace c = true) ∧
    ∀ c ∈ b.head?, isSpace c = true

/-- The word is spelled in the characters of `_WORD_RE`, and is long enough. -/
structure Spelled (w : List Char) : Prop where
  length : 3 ≤ w.length
  head : ∀ c ∈ w.head?, isWordStart c = true
  rest : ∀ c ∈ w, isWordRest c = true

theorem isWordRest_of_isWordStart {c : Char} (h : isWordStart c = true) : isWordRest c = true := by
  rw [isWordRest, h, Bool.true_or, Bool.true_or]

theorem isWordRest_of_isSpace {c : Char} (h : isSpace c = true) : isWordRest c = false := by
  rw [Bool.eq_false_iff]
  intro hrest
  simp only [isWordRest, Bool.or_eq_true, beq_iff_eq] at hrest
  rcases hrest with (hstart | rfl) | rfl
  · simp only [isWordStart, isLatinOrDigit, asciiLetter, asciiDigit, Bool.or_eq_true,
      Bool.and_eq_true, decide_eq_true_eq] at hstart
    simp only [isSpace, Bool.or_eq_true, Bool.and_eq_true, decide_eq_true_eq, beq_iff_eq] at h
    omega
  · revert h
    decide
  · revert h
    decide

/-- The tokens of `_WORD_RE`: of each run of its characters the end from the first letter or
digit on, if that is three characters long. -/
def wordTokens (text : String) : List (List Char) := tokens isWordStart isWordRest 2 text.toList

theorem findall_wordRe (text : String) :
    findall wordRe text = (wordTokens text).map String.ofList :=
  findall_tokenRe (fun _ h => isWordRest_of_isWordStart h) text

/-- A word that stands by itself is a token if it is spelled like one. -/
theorem mem_wordTokens_of_spelled {w : List Char} {text : String} (hw : Spelled w)
    (h : Delimited w text) : w ∈ wordTokens text := by
  obtain ⟨a, b, htext, ha, hb⟩ := h
  rw [wordTokens, htext]
  exact mem_tokens (fun c hc => isWordRest_of_isSpace (ha c hc))
    (fun c hc => isWordRest_of_isSpace (hb c hc)) hw.rest hw.head hw.length

/-! ## What is shown -/

section Tones

variable [CharData]

/-- What every release of the database says of letters: they are not digits. -/
structure LettersNotDigits : Prop where
  not_isDigit : ∀ c : Char, (asciiLetter c || russianLetter c) = true → CharData.isDigit c = false

/-- A hint is kept by the filters behind the expression. -/
theorem keeps_hint (hletters : LettersNotDigits) {p : Polarity} {h : String}
    (hmem : h ∈ hintWords p) : (!(stopwords.contains h || isDigit h)) = true := by
  obtain ⟨hstop, hletter⟩ := hintWords_ordinary hmem
  obtain ⟨c, hc, hletter⟩ := List.any_eq_true.mp hletter
  have hall : h.toList.all CharData.isDigit = false :=
    List.all_eq_false.mpr ⟨c, hc, by rw [hletters.not_isDigit c hletter]; exact Bool.false_ne_true⟩
  rw [hstop, isDigit, hall, Bool.and_false, Bool.or_false, Bool.not_false]

/-- The words that are counted, before they are compared. -/
theorem mem_normalizedWords_iff {p : Polarity} (hletters : LettersNotDigits) {text h : String}
    (hmem : h ∈ hintWords p) :
    h ∈ normalizedWords text ↔ ∃ token ∈ findall wordRe text, casefold token = h := by
  rw [normalizedWords, List.mem_filter, List.mem_map]
  exact and_iff_left (keeps_hint hletters hmem)

/-- A message has a hint of the polarity as a token. -/
def HasToken (p : Polarity) (text : String) : Prop :=
  ∃ token ∈ findall wordRe text, casefold token ∈ hintWords p

/-- **The hint** shows the polarities of which there is a token. -/
theorem shows_iff (hletters : LettersNotDigits) (messages : List WindowMessagePayload)
    (chatType : ChatType) (p : Polarity) :
    Shows (computeMessageFeatures messages chatType).sentimentHint p ↔
      ∃ m ∈ messages, HasToken p m.text := by
  have hhits : (((messages.map (·.text)).flatMap normalizedWords).countP
      ((hintWords p).contains ·)) ≠ 0 ↔ ∃ m ∈ messages, HasToken p m.text := by
    rw [← Nat.pos_iff_ne_zero, List.countP_pos_iff]
    constructor
    · rintro ⟨h, hword, hhint⟩
      obtain ⟨text, htext, hword⟩ := List.mem_flatMap.mp hword
      obtain ⟨m, hm, rfl⟩ := List.mem_map.mp htext
      have hmem := List.contains_iff_mem.mp hhint
      obtain ⟨token, htoken, rfl⟩ := (mem_normalizedWords_iff hletters hmem).mp hword
      exact ⟨m, hm, token, htoken, hmem⟩
    · rintro ⟨m, hm, token, htoken, hmem⟩
      exact ⟨casefold token, List.mem_flatMap.mpr ⟨m.text, List.mem_map_of_mem hm,
        (mem_normalizedWords_iff hletters hmem).mpr ⟨token, htoken, rfl⟩⟩,
        List.contains_iff_mem.mpr hmem⟩
  unfold computeMessageFeatures
  split_ifs with hnil
  · subst hnil
    cases p <;> simp [Shows, Polarity.hint]
  · rw [← hhits, shows_sentimentHint]
    cases p
    · rfl
    · rfl

theorem hasToken_iff {p : Polarity} {text : String} : HasToken p text ↔
    ∃ w ∈ wordTokens text, casefold (String.ofList w) ∈ hintWords p := by
  simp only [HasToken, findall_wordRe, List.mem_map, exists_exists_and_eq_and]

/-- What the hint of a window says of the tone words in it. -/
structure ToneDetected (messages : List WindowMessagePayload) (chatType : ChatType) : Prop where
  /-- A word that stands by itself in a message, in any letter case, is noticed. -/
  noticed : ∀ p, ∀ m ∈ messages, ∀ w, Delimited w m.text →
    casefold (String.ofList w) ∈ hintWords p →
      Shows (computeMessageFeatures messages chatType).sentimentHint p
  /-- What is shown is there. -/
  founded : ∀ p, Shows (computeMessageFeatures messages chatType).sentimentHint p →
    ∃ m ∈ messages, HasToken p m.text

/-- **Tone words are noticed** exactly if for each that stands by itself without being spelled in
at least three characters of the expression, the window has a token of its polarity. -/
theorem toneDetected_iff (hletters : LettersNotDigits) (messages : List WindowMessagePayload)
    (chatType : ChatType) : ToneDetected messages chatType ↔
      ∀ p, ∀ m ∈ messages, ∀ w, Delimited w m.text →
        casefold (String.ofList w) ∈ hintWords p → ¬ Spelled w →
          ∃ m' ∈ messages, ∃ w' ∈ wordTokens m'.text,
            casefold (String.ofList w') ∈ hintWords p := by
  constructor
  · intro h p m hm w hw hhint _
    obtain ⟨m', hm', htoken⟩ := h.founded p (h.noticed p m hm w hw hhint)
    exact ⟨m', hm', hasToken_iff.mp htoken⟩
  · intro h
    refine ⟨fun p m hm w hw hhint => (shows_iff hletters messages chatType p).mpr ?_,
      fun p => (shows_iff hletters messages chatType p).mp⟩
    by_cases hspelled : Spelled w
    · exact ⟨m, hm, hasToken_iff.mpr ⟨w, mem_wordTokens_of_spelled hspelled hw, hhint⟩⟩
    · obtain ⟨m', hm', w', hw', hhint'⟩ := h p m hm w hw hhint hspelled
      exact ⟨m', hm', hasToken_iff.mpr ⟨w', hw', hhint'⟩⟩

/-! ## Words that are never found -/

theorem length_le_casefold (hfolds : Folds) {w : List Char}
    (hw : ∀ c ∈ w, isSpace c = false) : w.length ≤ (w.flatMap CharData.casefold).length := by
  induction w with
  | nil => exact Nat.le_refl 0
  | cons c w ih =>
    have hc := List.length_pos_iff.mpr (hfolds.word c (hw c List.mem_cons_self)).1
    have hrest := ih fun d hd => hw d (List.mem_cons_of_mem c hd)
    rw [List.length_cons, List.flatMap_cons, List.length_append]
    omega

/-- **Dead hints**: what the expression finds is too long for the one and has no space. -/
theorem not_dead_of_mem_findall (hfolds : Folds) {token text : String}
    (h : token ∈ findall wordRe text) :
    casefold token ≠ "ok" ∧ casefold token ≠ "не успеваю" := by
  rw [findall_wordRe] at h
  obtain ⟨w, hw, rfl⟩ := List.mem_map.mp h
  obtain ⟨hlength, hrest⟩ := of_mem_tokens hw
  have hspace : ∀ c ∈ w, isSpace c = false := by
    intro c hc
    by_contra hspace
    rw [Bool.not_eq_false] at hspace
    exact absurd (hrest c hc) (Bool.eq_false_iff.mp (isWordRest_of_isSpace hspace))
  have hfold : (casefold (String.ofList w)).toList = w.flatMap CharData.casefold := by
    rw [casefold, String.toList_ofList, String.toList_ofList]
  constructor
  · intro hok
    have hle := length_le_casefold hfolds hspace
    rw [← hfold, hok] at hle
    have htwo : "ok".toList.length = 2 := by decide
    omega
  · intro hlate
    have hmem : ' ' ∈ w.flatMap CharData.casefold := by
      rw [← hfold, hlate]
      decide
    obtain ⟨c, hc, hfolded⟩ := List.mem_flatMap.mp hmem
    have hnot := (hfolds.word c (hspace c hc)).2 ' ' hfolded
    exact absurd hnot (by decide)

end Tones

theorem lettersNotDigits_basicCharData : @LettersNotDigits basicCharData := by
  refine @LettersNotDigits.mk basicCharData fun c hc => Bool.eq_false_iff.mpr fun hdigit => ?_
  simp only [asciiLetter, russianLetter, Bool.or_eq_true, Bool.and_eq_true, decide_eq_true_eq,
    beq_iff_eq] at hc
  have hrange : asciiDigit c = true := hdigit
  simp only [asciiDigit, Bool.and_eq_true, decide_eq_true_eq] at hrange
  omega

/-- A window in which both polarities have a token. -/
theorem toneDetected_of_both :
    let _ := basicCharData
    ToneDetected [{ tgMessageId := 1, text := "OK thanks! Urgent", occurredAt := 0 }] .private := by
  intro _
  refine (@toneDetected_iff basicCharData lettersNotDigits_basicCharData _ _).mpr
    fun p m hm w _ _ _ => ⟨_, List.mem_singleton_self _, ?_⟩
  cases p
  · exact ⟨"thanks".toList, by decide, by decide⟩
  · exact ⟨"Urgent".toList, by decide, by decide⟩

/-- The message is a positive hint, and the window is neutral. -/
theorem ok_is_neutral :
    let _ := basicCharData
    let window := [{ tgMessageId := 1, text := "ok", occurredAt := 0 }]
    "ok" ∈ hintWords .positive ∧ Delimited "ok".toList "ok" ∧ casefold "ok" = "ok" ∧
      (computeMessageFeatures window .private).sentimentHint = .neutral ∧
      ¬ ToneDetected window .private := by
  intro _ window
  have hdelimited : Delimited "ok".toList "ok" := ⟨[], [], by decide, by simp, by simp⟩
  have hneutral : (computeMessageFeatures window .private).sentimentHint = .neutral := by
    decide +kernel
  refine ⟨by decide, hdelimited, by decide, hneutral, fun h => ?_⟩
  have hshows := h.noticed .positive _ (List.mem_singleton_self _) _ hdelimited (by decide)
  rw [hneutral] at hshows
  exact absurd hshows (by unfold Shows; decide)

end Orchestrator
end PersonalIntelligence
