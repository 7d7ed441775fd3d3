import PersonalIntelligence.Library.PyText
import PersonalIntelligence.Library.Slug
import Mathlib.Data.List.Chain
import Mathlib.Data.List.DropRight

/-!
# Spacing

What `" ".join(s.split())` makes of a text: words without whitespace, with one space between
two of them.  `Tidy` is what can be said of the result without naming the words, and it
survives what a text that is too long goes through, a cut, `rstrip` and three dots at the
end.
-/

namespace PyText

/-- No leading, trailing or repeated whitespace. -/
structure Tidy (cs : List Char) : Prop where
  head : ∀ c ∈ cs.head?, isSpace c = false
  last : ∀ c ∈ cs.getLast?, isSpace c = false
  chain : cs.IsChain fun a b => isSpace a = false ∨ isSpace b = false

/-- What `rstrip` leaves does not end in whitespace. -/
theorem getLast_rstrip (cs : List Char) : ∀ c ∈ (rstrip cs).getLast?, isSpace c = false := by
  intro c hc
  have hne : rstrip cs ≠ [] := by
    rintro hnil
    rw [hnil] at hc
    cases hc
  rw [List.getLast?_eq_some_getLast hne, Option.mem_some_iff] at hc
  rw [← hc]
  exact Bool.eq_false_iff.mpr (List.rdropWhile_last_not isSpace cs hne)

namespace Tidy

variable {cs ds : List Char}

theorem nil : Tidy [] := ⟨by simp, by simp, List.IsChain.nil⟩

/-- A word is tidy. -/
theorem of_word {w : List Char} (h : ∀ c ∈ w, isSpace c = false) : Tidy w where
  head c hc := h c (List.mem_of_head? hc)
  last c hc := h c (List.mem_of_getLast? hc)
  chain := by
    rw [List.isChain_iff_getElem]
    exact fun i hi => .inl (h _ (List.getElem_mem _))

/-- One space between two tidy texts. -/
theorem append_space (h : Tidy cs) (h' : Tidy ds) (hcs : cs ≠ []) (hds : ds ≠ []) :
    Tidy (cs ++ ' ' :: ds) where
  head c hc := h.head c (by rwa [List.head?_append_of_ne_nil _ hcs] at hc)
  last c hc := by
    rw [List.getLast?_append_of_ne_nil _ (List.cons_ne_nil _ _),
      List.getLast?_cons_of_ne_nil hds] at hc
    exact h'.last c hc
  chain := by
    refine List.isChain_append.mpr ⟨h.chain, List.isChain_cons.mpr ⟨?_, h'.chain⟩, ?_⟩
    · exact fun d hd => .inr (h'.head d hd)
    · exact fun c hc d hd => .inl (h.last c hc)

/-- Something without whitespace at the end. -/
theorem append_word {w : List Char} (h : Tidy cs) (hcs : cs ≠ []) (hw : w ≠ [])
    (hword : ∀ c ∈ w, isSpace c = false) : Tidy (cs ++ w) where
  head c hc := h.head c (by rwa [List.head?_append_of_ne_nil _ hcs] at hc)
  last c hc := by
    rw [List.getLast?_append_of_ne_nil _ hw] at hc
    exact hword c (List.mem_of_getLast? hc)
  chain := List.isChain_append.mpr ⟨h.chain, (of_word hword).chain,
    fun c hc d hd => .inr (hword d (List.mem_of_head? hd))⟩

/-- The beginning of a tidy text, without the space at its end. -/
theorem rstrip_of_prefix (h : Tidy cs) (hds : ds <+: cs) : Tidy (rstrip ds) where
  head c hc := by
    have hprefix : rstrip ds <+: cs := (List.rdropWhile_prefix _ ds).trans hds
    cases hr : rstrip ds with
    | nil =>
      rw [hr] at hc
      cases hc
    | cons d rest =>
      rw [hr] at hc hprefix
      obtain ⟨tail, rfl⟩ := hprefix
      exact h.head c hc
  last := getLast_rstrip ds
  chain := h.chain.infix ((List.rdropWhile_prefix _ ds).trans hds).isInfix

end Tidy

/-! ## Stripping -/

theorem dropWhile_append {p : Char → Bool} {c : Char} (hc : p c = false) (cs rest : List Char) :
    (cs ++ c :: rest).dropWhile p = cs.dropWhile p ++ c :: rest := by
  induction cs with
  | nil => rw [List.nil_append, List.dropWhile_cons_of_neg (by simp [hc]), List.dropWhile_nil,
      List.nil_append]
  | cons d cs ih =>
    rw [List.cons_append, List.dropWhile_cons, List.dropWhile_cons]
    split_ifs
    · exact ih
    · rw [List.cons_append]

theorem rdropWhile_append {p : Char → Bool} {c : Char} (hc : p c = false) (cs rest : List Char) :
    (cs ++ c :: rest).rdropWhile p = cs ++ c :: rest.rdropWhile p := by
  have hreverse : (cs ++ c :: rest).reverse = rest.reverse ++ c :: cs.reverse := by simp
  unfold List.rdropWhile
  rw [hreverse, dropWhile_append hc]
  simp

/-- What follows the first character that is not whitespace stays. -/
theorem lstrip_append {c : Char} (hc : isSpace c = false) (cs rest : List Char) :
    lstrip (cs ++ c :: rest) = lstrip cs ++ c :: rest :=
  dropWhile_append hc cs rest

/-- What stands before the last character that is not whitespace stays. -/
theorem rstrip_append {c : Char} (hc : isSpace c = false) (cs rest : List Char) :
    rstrip (cs ++ c :: rest) = cs ++ c :: rstrip rest :=
  rdropWhile_append hc cs rest

/-- There is nothing to strip. -/
theorem stripChars_eq_self {chars : List Char} {s : String}
    (hhead : ∀ c ∈ s.toList.head?, c ∉ chars) (hlast : ∀ c ∈ s.toList.getLast?, c ∉ chars) :
    stripChars chars s = s := by
  have hleft : s.toList.dropWhile (chars.contains ·) = s.toList := by
    cases hs : s.toList with
    | nil => rfl
    | cons c rest =>
      rw [hs] at hhead
      exact List.dropWhile_cons_of_neg (by simpa using hhead c rfl)
  have hright : (s.toList.reverse.dropWhile (chars.contains ·)).reverse = s.toList := by
    rcases List.eq_nil_or_concat s.toList with hs | ⟨init, c, hs⟩
    · rw [hs]
      rfl
    · rw [List.concat_eq_append] at hs
      rw [hs] at hlast ⊢
      have hc : ¬ (chars.contains c) = true := by simpa using hlast c (by simp)
      rw [List.reverse_append, List.reverse_singleton, List.singleton_append,
        List.dropWhile_cons_of_neg hc]
      simp
  unfold stripChars
  dsimp only
  rw [hleft, hright, String.ofList_toList]

/-- What it takes off is whitespace. -/
theorem rstrip_append_spaces (cs : List Char) :
    ∃ r, cs = rstrip cs ++ r ∧ ∀ c ∈ r, isSpace c = true := by
  refine ⟨(cs.reverse.takeWhile isSpace).reverse, ?_, fun c hc => ?_⟩
  · rw [rstrip, ← List.reverse_append, List.takeWhile_append_dropWhile, List.reverse_reverse]
  · exact List.mem_takeWhile_imp (List.mem_reverse.mp hc)

theorem rstrip_eq_self {cs : List Char} (h : ∀ c ∈ cs.getLast?, isSpace c = false) :
    rstrip cs = cs := by
  rcases List.eq_nil_or_concat cs with rfl | ⟨init, c, rfl⟩
  · rfl
  · rw [List.concat_eq_append] at h ⊢
    exact rstrip_append (h c (by simp)) init []

theorem lstrip_eq_self {cs : List Char} (h : ∀ c ∈ cs.head?, isSpace c = false) :
    lstrip cs = cs := by
  cases cs with
  | nil => rfl
  | cons c rest => exact lstrip_append (h c rfl) [] rest

theorem strip_eq_self {cs : List Char} (hhead : ∀ c ∈ cs.head?, isSpace c = false)
    (hlast : ∀ c ∈ cs.getLast?, isSpace c = false) :
    strip (String.ofList cs) = String.ofList cs := by
  rw [strip, String.toList_ofList, lstrip_eq_self hhead, rstrip_eq_self hlast]

/-- What is left of a text begins with a character that is not dropped. -/
theorem head_dropWhile (p : Char → Bool) (cs : List Char) :
    ∀ c ∈ (cs.dropWhile p).head?, p c = false := by
  intro c hc
  have hne : cs.dropWhile p ≠ [] := List.ne_nil_of_mem (List.mem_of_mem_head? hc)
  rw [List.head?_eq_some_head hne, Option.mem_some_iff] at hc
  rw [← hc]
  exact List.head_dropWhile_not p hne

theorem strip_strip (s : String) : strip (strip s) = strip s := by
  refine strip_eq_self (fun c hc => head_dropWhile isSpace s.toList c ?_) (getLast_rstrip _)
  obtain ⟨rest, hrest⟩ := List.rdropWhile_prefix isSpace (lstrip s.toList)
  change c ∈ (lstrip s.toList).head?
  rw [← hrest]
  exact List.mem_head?_append_of_mem_head? hc

theorem rstrip_idem (cs : List Char) : rstrip (rstrip cs) = rstrip cs :=
  List.rdropWhile_idempotent isSpace cs

theorem lstrip_sublist (cs : List Char) : (lstrip cs).Sublist cs := List.dropWhile_sublist isSpace

theorem rstrip_sublist (cs : List Char) : (rstrip cs).Sublist cs :=
  (List.rdropWhile_prefix isSpace cs).sublist

/-! ## Words -/

theorem split_eq_words (s : List Char) : split s = Slug.words (fun c => !isSpace c) s := by
  simp only [split, Slug.words, Bool.not_not]

/-- The words of `split` have no whitespace, and something else. -/
theorem mem_split {s w : List Char} (h : w ∈ split s) : w ≠ [] ∧ ∀ c ∈ w, isSpace c = false := by
  rw [split_eq_words] at h
  exact ⟨Slug.ne_nil_of_mem_words h, fun c hc => by simpa using Slug.keep_of_mem_words h c hc⟩

theorem mem_of_mem_split {s w : List Char} (h : w ∈ split s) : ∀ c ∈ w, c ∈ s := by
  rw [split_eq_words] at h
  exact fun c hc => (Slug.mem_of_mem_splitOnP (List.mem_of_mem_filter h) c hc).1

theorem intercalate_cons_ne_nil {w : List Char} (hw : w ≠ []) (words : List (List Char)) :
    [' '].intercalate (w :: words) ≠ [] := by
  cases words with
  | nil => rwa [List.intercalate_singleton]
  | cons w' rest =>
    rw [List.intercalate_cons_cons]
    simp [hw]

theorem tidy_intercalate : ∀ {words : List (List Char)},
    (∀ w ∈ words, w ≠ [] ∧ ∀ c ∈ w, isSpace c = false) → Tidy ([' '].intercalate words)
  | [], _ => Tidy.nil
  | [w], h => by
    rw [List.intercalate_singleton]
    exact Tidy.of_word (h w (List.mem_singleton_self _)).2
  | w :: w' :: rest, h => by
    have hw := h w List.mem_cons_self
    have hrest : ∀ v ∈ w' :: rest, v ≠ [] ∧ ∀ c ∈ v, isSpace c = false :=
      fun v hv => h v (List.mem_cons_of_mem w hv)
    have htail := tidy_intercalate hrest
    have hne := intercalate_cons_ne_nil (hrest w' List.mem_cons_self).1 rest
    rw [List.intercalate_cons_cons]
    simpa using (Tidy.of_word hw.2).append_space htail hw.1 hne

/-- There are words in a text that is not blank. -/
theorem split_eq_nil_iff {s : List Char} : split s = [] ↔ ∀ c ∈ s, isSpace c = true := by
  rw [split_eq_words]
  induction s with
  | nil => simp [Slug.words]
  | cons c rest ih =>
    cases hc : isSpace c with
    | true =>
      have hwords : Slug.words (fun c => !isSpace c) (c :: rest) =
          Slug.words (fun c => !isSpace c) rest := by
        unfold Slug.words
        rw [Slug.splitOnP_cons_drop (by simp [hc])]
        simp
      rw [hwords]
      simpa [hc] using ih
    | false =>
      obtain ⟨w, ws, heq⟩ := @Slug.splitOnP_eq_cons _ (fun c => !isSpace c) rest
      unfold Slug.words
      rw [Slug.splitOnP_cons_keep (by simp [hc]) heq]
      simp [hc]

/-- `" ".join(s.split())` is tidy. -/
theorem tidy_compact (s : String) : Tidy (compact s).toList := by
  unfold compact
  rw [String.toList_ofList]
  exact tidy_intercalate fun _ => mem_split

/-- Tidy, with no whitespace but the space. -/
structure Spaced (cs : List Char) : Prop where
  tidy : Tidy cs
  space : ∀ c ∈ cs, isSpace c = true → c = ' '

theorem mem_intercalate {c : Char} : ∀ {words : List (List Char)},
    c ∈ [' '].intercalate words → c = ' ' ∨ ∃ w ∈ words, c ∈ w
  | [], h => by simp at h
  | [w], h => by
    rw [List.intercalate_singleton] at h
    exact .inr ⟨w, List.mem_singleton_self w, h⟩
  | w :: w' :: rest, h => by
    rw [List.intercalate_cons_cons, List.append_assoc, List.mem_append, List.mem_append,
      List.mem_singleton] at h
    rcases h with hw | rfl | htail
    · exact .inr ⟨w, List.mem_cons_self, hw⟩
    · exact .inl rfl
    · exact (mem_intercalate htail).imp_right fun ⟨v, hv, hc⟩ => ⟨v, List.mem_cons_of_mem w hv, hc⟩

/-- Words with a space between two of them have no other whitespace. -/
theorem spaced_intercalate {words : List (List Char)}
    (h : ∀ w ∈ words, w ≠ [] ∧ ∀ c ∈ w, isSpace c = false) : Spaced ([' '].intercalate words) where
  tidy := tidy_intercalate h
  space c hc hspace := by
    refine (mem_intercalate hc).resolve_right fun ⟨w, hw, hmem⟩ => ?_
    rw [(h w hw).2 c hmem] at hspace
    cases hspace

/-- `" ".join(s.split())` is spaced, -/
theorem spaced_compact (s : String) : Spaced (compact s).toList := by
  unfold compact
  rw [String.toList_ofList]
  exact spaced_intercalate fun _ => mem_split

theorem squeeze_word {c : Char} (hc : isSpace c = false) (inRun : Bool) (rest : List Char) :
    Slug.squeeze (fun c => !isSpace c) ' ' inRun (c :: rest) =
      c :: Slug.squeeze (fun c => !isSpace c) ' ' false rest := by
  simp [Slug.squeeze, hc]

/-- and what is spaced so already stays. -/
theorem squeeze_of_spaced {cs : List Char} {inRun : Bool} (hne : cs ≠ [])
    (hlast : ∀ c ∈ cs.getLast?, isSpace c = false)
    (hchain : cs.IsChain fun a b => isSpace a = false ∨ isSpace b = false)
    (hspace : ∀ c ∈ cs, isSpace c = true → c = ' ')
    (hrun : inRun = true → ∀ c ∈ cs.head?, isSpace c = false) (rest : List Char) :
    Slug.squeeze (fun c => !isSpace c) ' ' inRun (cs ++ rest) =
      cs ++ Slug.squeeze (fun c => !isSpace c) ' ' false rest := by
  induction cs generalizing inRun with
  | nil => exact absurd rfl hne
  | cons c cs ih =>
    have htail : ∀ d ∈ cs, isSpace d = true → d = ' ' :=
      fun d hd => hspace d (List.mem_cons_of_mem c hd)
    cases hc : isSpace c with
    | false =>
      rw [List.cons_append, squeeze_word hc, List.cons_append]
      cases cs with
      | nil => rfl
      | cons d cs =>
        rw [ih (List.cons_ne_nil _ _) (by simpa using hlast) hchain.tail htail
          (fun h => by cases h)]
    | true =>
      obtain rfl : c = ' ' := hspace c List.mem_cons_self hc
      obtain rfl : inRun = false := by
        cases inRun with
        | false => rfl
        | true =>
          rw [hrun rfl ' ' rfl] at hc
          cases hc
      cases cs with
      | nil =>
        rw [hlast ' ' rfl] at hc
        cases hc
      | cons d cs =>
        have hd : isSpace d = false :=
          ((List.isChain_cons_cons.mp hchain).1.resolve_left (by simp [hc]))
        have hgap : ∀ rest, Slug.squeeze (fun c => !isSpace c) ' ' false (' ' :: rest) =
            ' ' :: Slug.squeeze (fun c => !isSpace c) ' ' true rest := by
          simp [Slug.squeeze, hc]
        rw [List.cons_append, hgap, ih (List.cons_ne_nil _ _) (by simpa using hlast) hchain.tail
          htail (fun _ e he => by obtain rfl := Option.some.inj he; exact hd)]
        rfl

theorem compact_eq (cs : List Char) : compact (String.ofList cs) = String.ofList
    ((Slug.squeeze (fun c => !isSpace c) ' ' true cs).rdropWhile (· = ' ')) := by
  rw [compact, String.toList_ofList, split_eq_words, ← (Slug.rstrip_squeeze (by decide) _).1]
  rfl

theorem squeeze_append {cs : List Char} (h : Spaced cs) (hne : cs ≠ []) (rest : List Char) :
    Slug.squeeze (fun c => !isSpace c) ' ' true (cs ++ rest) =
      cs ++ Slug.squeeze (fun c => !isSpace c) ' ' false rest :=
  squeeze_of_spaced hne h.tidy.last h.tidy.chain h.space (fun _ => h.tidy.head) rest

/-- A spaced text is compact, -/
theorem compact_of_spaced {cs : List Char} (h : Spaced cs) :
    compact (String.ofList cs) = String.ofList cs := by
  rcases List.eq_nil_or_concat cs with rfl | ⟨init, c, rfl⟩
  · rfl
  · have hspace : isSpace c = false := h.tidy.last c (by simp)
    have hc : decide (c = ' ') = false := by
      rw [decide_eq_false_iff_not]
      rintro rfl
      cases hspace
    have hsqueeze := squeeze_append h (by simp) []
    rw [List.append_nil, Slug.squeeze, List.append_nil] at hsqueeze
    rw [compact_eq, hsqueeze, List.concat_eq_append, rdropWhile_append hc, List.rdropWhile_nil]

/-- and it stays where it is if no whitespace follows. -/
theorem compact_append_cons {cs : List Char} (h : Spaced cs) (hne : cs ≠ []) {c : Char}
    (hspace : isSpace c = false) (rest : List Char) :
    ∃ rest', compact (String.ofList (cs ++ c :: rest)) = String.ofList (cs ++ c :: rest') := by
  have hc : decide (c = ' ') = false := by
    rw [decide_eq_false_iff_not]
    rintro rfl
    cases hspace
  refine ⟨(Slug.squeeze (fun c => !isSpace c) ' ' false rest).rdropWhile (· = ' '), ?_⟩
  rw [compact_eq, squeeze_append h hne, squeeze_word hspace, rdropWhile_append hc]

theorem compact_ne_empty {s : String} {c : Char} (hc : c ∈ s.toList) (hspace : isSpace c = false) :
    compact s ≠ "" := by
  have hwords : split s.toList ≠ [] := by
    rw [Ne, split_eq_nil_iff]
    intro hall
    rw [hall c hc] at hspace
    cases hspace
  obtain ⟨w, words, heq⟩ := List.exists_cons_of_ne_nil hwords
  have hw : w ≠ [] := (mem_split (heq ▸ List.mem_cons_self : w ∈ split s.toList)).1
  unfold compact
  rw [heq, Ne, String.ofList_eq_empty_iff]
  exact intercalate_cons_ne_nil hw words

/-- A stripped text that is not empty has something to compact. -/
theorem compact_strip_ne_empty {s : String} (h : strip s ≠ "") : compact (strip s) ≠ "" := by
  have hne : rstrip (lstrip s.toList) ≠ [] := by
    intro hnil
    exact h (by rw [strip, hnil])
  refine compact_ne_empty (c := (rstrip (lstrip s.toList)).getLast hne) ?_ ?_
  · rw [strip, String.toList_ofList]
    exact List.getLast_mem hne
  · exact Bool.eq_false_iff.mpr (List.rdropWhile_last_not isSpace _ hne)

/-- The first `n` characters of a compacted text, with dots after them. -/
theorem tidy_ellipsis {s : String} (h : Tidy s.toList) (hne : s ≠ "") {n : ℕ} (hn : 0 < n) :
    Tidy (ellipsis s n).toList ∧ (ellipsis s n).length ≤ n + 3 := by
  obtain ⟨c, rest, hs⟩ := List.exists_cons_of_ne_nil (mt String.toList_eq_nil_iff.mp hne)
  have hspace : isSpace c = false := h.head c (by rw [hs]; rfl)
  have hprefix : s.toList.take n <+: s.toList := List.take_prefix n s.toList
  have hkept : rstrip (s.toList.take n) ≠ [] := by
    intro hnil
    have hall := List.rdropWhile_eq_nil_iff.mp hnil
    obtain ⟨m, rfl⟩ := Nat.exists_eq_succ_of_ne_zero hn.ne'
    rw [hs, List.take_succ_cons] at hall
    rw [hall c List.mem_cons_self] at hspace
    cases hspace
  have hdots : ∀ c ∈ "...".toList, isSpace c = false :=
    List.all_iff_forall_prop.mp (by decide)
  unfold ellipsis
  refine ⟨?_, ?_⟩
  · rw [String.toList_ofList]
    exact (h.rstrip_of_prefix hprefix).append_word hkept (by decide) hdots
  · rw [String.length_ofList, List.length_append]
    have hle : (rstrip (s.toList.take n)).length ≤ n :=
      ((List.rdropWhile_prefix _ _).length_le).trans (List.length_take_le n _)
    exact Nat.add_le_add_right hle 3

end PyText
