import Mathlib.Data.List.Basic

/-!
# Slugs

A slug is made of a text by writing one separator for every run of characters that it
cannot have, and none at either end.  What is left of the text is the list of its words
(`strip_squeeze`), and no more and no less can be read off the slug (`slug_inj`).
-/

namespace Slug

variable {α : Type} {keep : α → Bool} {sep : α}

/-- One separator for each run of other characters; `inRun` says that it has been written. -/
def squeeze (keep : α → Bool) (sep : α) : (inRun : Bool) → List α → List α
  | _, [] => []
  | inRun, c :: rest =>
    if keep c then c :: squeeze keep sep false rest
    else if inRun then squeeze keep sep true rest
    else sep :: squeeze keep sep true rest

/-- No separators at either end. -/
def strip [DecidableEq α] (sep : α) (s : List α) : List α :=
  ((s.dropWhile (· = sep)).reverse.dropWhile (· = sep)).reverse

/-- The maximal runs of characters that are kept. -/
def words (keep : α → Bool) (s : List α) : List (List α) :=
  (s.splitOnP fun c => !keep c).filter (· ≠ [])

/-! ## The words of a text -/

theorem splitOnP_eq_cons (s : List α) :
    ∃ w ws, s.splitOnP (fun c => !keep c) = w :: ws :=
  List.exists_cons_of_ne_nil (List.splitOnP_ne_nil _ _)

/-- A character that is kept begins the first word, -/
theorem splitOnP_cons_keep {c : α} (hc : keep c = true) {s w : List α} {ws : List (List α)}
    (h : s.splitOnP (fun c => !keep c) = w :: ws) :
    (c :: s).splitOnP (fun c => !keep c) = (c :: w) :: ws := by
  rw [List.splitOnP_cons_eq_if_modifyHead, hc, h]
  rfl

/-- and another one ends it. -/
theorem splitOnP_cons_drop {c : α} (hc : keep c = false) (s : List α) :
    (c :: s).splitOnP (fun c => !keep c) = [] :: s.splitOnP (fun c => !keep c) := by
  rw [List.splitOnP_cons_eq_if_modifyHead, hc]
  rfl

theorem ne_nil_of_mem_words {s w : List α} (h : w ∈ words keep s) : w ≠ [] := by
  simpa using (List.mem_filter.mp h).2

/-- What lies between two separators is of the text, and has none of them. -/
theorem mem_of_mem_splitOnP {s w : List α} (h : w ∈ s.splitOnP fun c => !keep c) :
    ∀ c ∈ w, c ∈ s ∧ keep c = true := by
  induction s generalizing w with
  | nil =>
    obtain rfl : w = [] := by simpa using h
    exact fun c hc => absurd hc List.not_mem_nil
  | cons c rest ih =>
    obtain ⟨w₀, ws, heq⟩ := @splitOnP_eq_cons _ keep rest
    cases hc : keep c with
    | true =>
      rw [splitOnP_cons_keep hc heq] at h
      rw [heq] at ih
      rcases List.mem_cons.mp h with rfl | hw
      · intro d hd
        rcases List.mem_cons.mp hd with rfl | hd
        · exact ⟨List.mem_cons_self, hc⟩
        · exact (ih List.mem_cons_self d hd).imp_left (List.mem_cons_of_mem c)
      · exact fun d hd => (ih (List.mem_cons_of_mem _ hw) d hd).imp_left (List.mem_cons_of_mem c)
    | false =>
      rw [splitOnP_cons_drop hc] at h
      rcases List.mem_cons.mp h with rfl | hw
      · exact fun d hd => absurd hd List.not_mem_nil
      · exact fun d hd => (ih hw d hd).imp_left (List.mem_cons_of_mem c)

/-- Words have no other characters. -/
theorem keep_of_mem_words {s w : List α} (h : w ∈ words keep s) : ∀ c ∈ w, keep c = true :=
  fun c hc => (mem_of_mem_splitOnP (List.mem_of_mem_filter h) c hc).2

/-- Joined with a separator and some padding, pieces are read back with the padding. -/
theorem splitOnP_intercalate {p : α → Bool} {pad : List α} (hsep : p sep = true)
    (hpad : ∀ c ∈ pad, p c = false) : ∀ (ahead w : List α) (ws : List (List α)),
    (∀ v ∈ ahead :: w :: ws, ∀ c ∈ v, p c = false) →
      (ahead ++ (sep :: pad).intercalate (w :: ws)).splitOnP p =
        (ahead ++ w) :: ws.map (pad ++ ·)
  | ahead, w, [], h => by
    rw [List.intercalate_singleton, List.map_nil]
    refine List.splitOnP_eq_singleton fun c hc => ?_
    rcases List.mem_append.mp hc with hc | hc
    · exact h ahead List.mem_cons_self c hc
    · exact h w (List.mem_cons_of_mem _ List.mem_cons_self) c hc
  | ahead, w, w' :: ws, h => by
    have hw : ∀ c ∈ ahead ++ w, p c = false := by
      intro c hc
      rcases List.mem_append.mp hc with hc | hc
      · exact h ahead List.mem_cons_self c hc
      · exact h w (List.mem_cons_of_mem _ List.mem_cons_self) c hc
    have htail := splitOnP_intercalate hsep hpad pad w' ws fun v hv => by
      rcases List.mem_cons.mp hv with rfl | hv
      · exact hpad
      · exact h v (List.mem_cons_of_mem _ (List.mem_cons_of_mem _ hv))
    have hsplit : ahead ++ (sep :: pad).intercalate (w :: w' :: ws) =
        (ahead ++ w) ++ sep :: (pad ++ (sep :: pad).intercalate (w' :: ws)) := by
      rw [List.intercalate_cons_cons]
      simp
    rw [hsplit, List.splitOnP_append_cons_of_forall_mem hw sep hsep, htail, List.map_cons]

/-! ## Stripping -/

section Strip

variable [DecidableEq α]

/-- Stripping on the right. -/
def rstrip (sep : α) (s : List α) : List α := (s.reverse.dropWhile (· = sep)).reverse

theorem rstrip_cons_of_ne {c : α} (hc : c ≠ sep) (s : List α) :
    rstrip sep (c :: s) = c :: rstrip sep s := by
  unfold rstrip
  rw [List.reverse_cons, List.dropWhile_append]
  split_ifs with hs
  · rw [List.isEmpty_iff.mp hs, List.dropWhile_cons_of_neg (by simpa using hc)]
    rfl
  · rw [List.reverse_append]
    rfl

theorem rstrip_cons_sep (s : List α) :
    rstrip sep (sep :: s) = if rstrip sep s = [] then [] else sep :: rstrip sep s := by
  unfold rstrip
  rw [List.reverse_cons, List.dropWhile_append]
  cases hs : s.reverse.dropWhile (· = sep) with
  | nil => simp
  | cons d rest => simp

theorem dropWhile_squeeze_true (hsep : keep sep = false) (s : List α) :
    (squeeze keep sep true s).dropWhile (· = sep) = squeeze keep sep true s := by
  induction s with
  | nil => rfl
  | cons c rest ih =>
    unfold squeeze
    rw [if_pos rfl]
    split_ifs with hc
    · refine List.dropWhile_cons_of_neg fun heq => ?_
      rw [of_decide_eq_true heq, hsep] at hc
      cases hc
    · exact ih

/-- A run of other characters at the beginning leaves nothing once it is stripped. -/
theorem dropWhile_squeeze_false (hsep : keep sep = false) (s : List α) :
    (squeeze keep sep false s).dropWhile (· = sep) = squeeze keep sep true s := by
  cases s with
  | nil => rfl
  | cons c rest =>
    cases hc : keep c with
    | true =>
      have heq : squeeze keep sep false (c :: rest) = squeeze keep sep true (c :: rest) := by
        simp only [squeeze, hc, if_true]
      rw [heq, dropWhile_squeeze_true hsep]
    | false =>
      have hfalse : squeeze keep sep false (c :: rest) = sep :: squeeze keep sep true rest := by
        simp [squeeze, hc]
      have htrue : squeeze keep sep true (c :: rest) = squeeze keep sep true rest := by
        simp [squeeze, hc]
      rw [hfalse, htrue, List.dropWhile_cons_of_pos (by simp), dropWhile_squeeze_true hsep]

end Strip

/-! ## A slug and its words -/

/-- What follows the first word of a slug. -/
def others (sep : α) (ws : List (List α)) : List α :=
  if ws = [] then [] else sep :: [sep].intercalate ws

theorem intercalate_cons (w : List α) (ws : List (List α)) :
    [sep].intercalate (w :: ws) = w ++ others sep ws := by
  unfold others
  split_ifs with hws
  · rw [hws, List.intercalate_singleton, List.append_nil]
  · rw [List.intercalate_cons_of_ne_nil hws, List.append_assoc]
    rfl

theorem intercalate_words_eq_nil_iff {ws : List (List α)} (hws : ∀ w ∈ ws, w ≠ []) :
    [sep].intercalate ws = [] ↔ ws = [] := by
  cases ws with
  | nil => exact iff_of_true rfl rfl
  | cons w ws =>
    rw [intercalate_cons]
    refine iff_of_false (fun h => ?_) (List.cons_ne_nil _ _)
    exact hws w List.mem_cons_self (List.append_eq_nil_iff.mp h).1

section Words

variable [DecidableEq α]

/-- After a run of other characters the words of the rest follow; else the first of them is
the end of a word. -/
theorem rstrip_squeeze (hsep : keep sep = false) (s : List α) :
    rstrip sep (squeeze keep sep true s) = [sep].intercalate (words keep s) ∧
      ∀ w ws, s.splitOnP (fun c => !keep c) = w :: ws →
        rstrip sep (squeeze keep sep false s) = w ++ others sep (ws.filter (· ≠ [])) := by
  induction s with
  | nil =>
    refine ⟨rfl, fun w ws h => ?_⟩
    obtain ⟨rfl, rfl⟩ := List.cons.inj (List.splitOnP_nil.symm.trans h)
    rfl
  | cons c rest ih =>
    obtain ⟨htrue, hfalse⟩ := ih
    obtain ⟨w, ws, heq⟩ := @splitOnP_eq_cons _ keep rest
    cases hc : keep c with
    | true =>
      have hne : c ≠ sep := by
        rintro rfl
        rw [hsep] at hc
        cases hc
      have hboth : ∀ inRun, rstrip sep (squeeze keep sep inRun (c :: rest)) =
          (c :: w) ++ others sep (ws.filter (· ≠ [])) := by
        intro inRun
        rw [squeeze, if_pos hc, rstrip_cons_of_ne hne, hfalse w ws heq]
        rfl
      have hpieces := splitOnP_cons_keep hc heq
      refine ⟨?_, fun w' ws' h => ?_⟩
      · rw [hboth, words, hpieces, List.filter_cons_of_pos (by simp), intercalate_cons]
      · obtain ⟨rfl, rfl⟩ := List.cons.inj (hpieces.symm.trans h)
        exact hboth false
    | false =>
      have hwords : words keep (c :: rest) = words keep rest := by
        rw [words, splitOnP_cons_drop hc]
        rfl
      refine ⟨?_, fun w' ws' h => ?_⟩
      · rw [hwords, ← htrue]
        simp [squeeze, hc]
      · obtain ⟨rfl, rfl⟩ := List.cons.inj ((splitOnP_cons_drop hc rest).symm.trans h)
        have hsqueeze : squeeze keep sep false (c :: rest) = sep :: squeeze keep sep true rest := by
          simp [squeeze, hc]
        rw [hsqueeze, rstrip_cons_sep, htrue, List.nil_append]
        have hnil := @intercalate_words_eq_nil_iff _ sep (words keep rest)
          fun w hw => ne_nil_of_mem_words hw
        unfold others
        simp only [hnil]
        rfl

/-- **A slug** is its words, with separators between them. -/
theorem strip_squeeze (hsep : keep sep = false) (s : List α) :
    strip sep (squeeze keep sep false s) = [sep].intercalate (words keep s) := by
  have hstrip : strip sep (squeeze keep sep false s) =
      rstrip sep ((squeeze keep sep false s).dropWhile (· = sep)) := rfl
  rw [hstrip, dropWhile_squeeze_false hsep]
  exact (rstrip_squeeze hsep s).1

/-- The words can be read off the slug. -/
theorem filter_splitOn_intercalate (hsep : keep sep = false) (s : List α) :
    (([sep].intercalate (words keep s)).splitOn sep).filter (· ≠ []) = words keep s := by
  by_cases hnil : words keep s = []
  · rw [hnil]
    rfl
  · rw [List.splitOn_intercalate sep (fun w hw hmem => ?_) hnil]
    · exact List.filter_eq_self.mpr fun w hw => by simpa using ne_nil_of_mem_words hw
    · rw [keep_of_mem_words hw sep hmem] at hsep
      cases hsep

/-- **Texts have the same slug exactly if they have the same words.** -/
theorem slug_inj (hsep : keep sep = false) {s s' : List α} :
    strip sep (squeeze keep sep false s) = strip sep (squeeze keep sep false s') ↔
      words keep s = words keep s' := by
  rw [strip_squeeze hsep, strip_squeeze hsep]
  constructor
  · intro h
    rw [← filter_splitOn_intercalate hsep s, h, filter_splitOn_intercalate hsep]
  · intro h
    rw [h]

/-- A slug has the characters that are kept, and the separator. -/
theorem mem_slug (hsep : keep sep = false) {s : List α} {c : α}
    (h : c ∈ strip sep (squeeze keep sep false s)) : keep c = true ∨ c = sep := by
  rw [strip_squeeze hsep] at h
  have hwords : ∀ ws : List (List α), (∀ w ∈ ws, ∀ c ∈ w, keep c = true) →
      c ∈ [sep].intercalate ws → keep c = true ∨ c = sep := by
    intro ws hws hc
    induction ws with
    | nil => cases hc
    | cons w ws ih =>
      rw [intercalate_cons, List.mem_append] at hc
      rcases hc with hc | hc
      · exact .inl (hws w List.mem_cons_self c hc)
      · unfold others at hc
        split_ifs at hc
        · cases hc
        · rcases List.mem_cons.mp hc with rfl | hc
          · exact .inr rfl
          · exact ih (fun w hw => hws w (List.mem_cons_of_mem _ hw)) hc
  exact hwords _ (fun w hw => keep_of_mem_words hw) h

end Words

end Slug
