import PersonalIntelligence.Library.Spacing
import PersonalIntelligence.Llm.Summary

/-!
# Fences and braces

What becomes of a piece of a reply that is stripped, freed of code fences and searched for a
JSON object.  A fence is whitespace and three backticks, at the beginning or at the end of a
line, so no fence begins in a piece that can be read without meeting one of the two
(`NoMatch codeFenceRe`): where the whitespace ends in something else than a backtick
(`noFence_spaces`), or where the line goes on behind the backticks (`noFence_line`).
-/

namespace PersonalIntelligence
namespace Llm

open PyText Regex Pat

/-! ## Where there is no fence -/

theorem passes_spaces {p q : Place} (h : q ∈ spaces.ways p) :
    ∃ u, (∀ c ∈ u, isSpace c = true) ∧ Passes p u q :=
  passes_of_mem_ways (r := spaces) (fun _ h => h) h

/-- The end of a fence at the end of a line. -/
theorem lineEnd_iff {p q : Place} :
    q ∈ lineEnd.ways p ↔ q = p ∧ ∀ c ∈ p.ahead.head?, c = '\n' := by
  rw [lineEnd, mem_ways_look]
  cases p.ahead with
  | nil => simp
  | cons c rest => simp

section Fence

variable [CharData]

/-- Both kinds of fence are whitespace and then backticks. -/
theorem ahead_of_fence {p q : Place} (h : q ∈ codeFenceRe.ways p) :
    ∃ u rest, (∀ c ∈ u, isSpace c = true) ∧ p.ahead = u ++ '`' :: rest := by
  have hticks : ∀ {r : Pat} {p q : Place}, q ∈ (seq spaces (seq (lit "```") r)).ways p →
      ∃ u rest, (∀ c ∈ u, isSpace c = true) ∧ p.ahead = u ++ '`' :: rest := by
    intro r p q h
    obtain ⟨m, hm, hq⟩ := mem_ways_seq.mp h
    obtain ⟨m', hm', -⟩ := mem_ways_seq.mp hq
    obtain ⟨u, hu, hpass⟩ := passes_spaces hm
    have hlit := (passes_of_mem_ways_lit hm').ahead
    exact ⟨u, '`' :: '`' :: m'.ahead, hu, by rw [hpass.ahead, hlit]; rfl⟩
  rcases mem_ways_alt.mp h with h | h
  · obtain ⟨m, hm, hq⟩ := mem_ways_seq.mp h
    obtain ⟨rfl, -⟩ := mem_ways_look.mp hm
    exact hticks hq
  · exact hticks h

/-- No fence begins in whitespace that ends in something else than a backtick. -/
theorem noFence_spaces {behind w rest : List Char} {d : Char} (hw : ∀ c ∈ w, isSpace c = true)
    (hspace : isSpace d = false) (hd : d ≠ '`') : NoMatch codeFenceRe behind (w ++ [d]) rest := by
  intro x y hy hxy q hq
  obtain ⟨t, rfl, rfl⟩ := split_concat hy hxy
  obtain ⟨u, rest', hu, hfence⟩ := ahead_of_fence hq
  have hstrip := congrArg lstrip hfence
  dsimp only at hstrip
  rw [List.append_assoc, List.singleton_append, lstrip_append hspace, lstrip_append (by decide),
    lstrip, lstrip, List.dropWhile_eq_nil_iff.mpr fun c hc => hw c (List.mem_append_right x hc),
    List.dropWhile_eq_nil_iff.mpr hu] at hstrip
  exact hd (List.cons.inj hstrip).1

/-- No fence begins in the middle of a line that goes on behind what may be backticks. -/
theorem noFence_line {behind u rest : List Char} {c d : Char} (hc : c ≠ '\n') (hu : '\n' ∉ u)
    (hspace : isSpace d = false) (hd : d ≠ '`') :
    NoMatch codeFenceRe (c :: behind) (u ++ [d]) rest := by
  intro x y hy hxy q hq
  obtain ⟨t, rfl, rfl⟩ := split_concat hy hxy
  rw [List.mem_append, not_or] at hu
  rcases mem_ways_alt.mp hq with hq | hq
  · -- the character behind this place is no newline
    obtain ⟨m, hm, -⟩ := mem_ways_seq.mp hq
    obtain ⟨-, hline⟩ := mem_ways_look.mp hm
    dsimp only at hline
    rcases List.eq_nil_or_concat x with rfl | ⟨x, e, rfl⟩
    · simp [hc] at hline
    · have he : e ≠ '\n' := fun he => hu.1 (by simp [he])
      simp [he] at hline
  · -- whitespace and backticks end before `d`, and what comes next is no newline
    obtain ⟨z, hz, m, hpass, hm⟩ : ∃ z, d ∉ z ∧ ∃ m, Passes
        ⟨x.reverse ++ c :: behind, t ++ [d] ++ rest, []⟩ z m ∧ q ∈ lineEnd.ways m := by
      obtain ⟨m₁, hm₁, hq⟩ := mem_ways_seq.mp hq
      obtain ⟨m₂, hm₂, hq⟩ := mem_ways_seq.mp hq
      obtain ⟨m₃, hm₃, hq⟩ := mem_ways_seq.mp hq
      obtain ⟨z₁, hz₁, hpass₁⟩ := passes_spaces hm₁
      obtain ⟨z₃, hz₃, hpass₃⟩ := passes_spaces hm₃
      have hnot : ∀ {z : List Char}, (∀ c ∈ z, isSpace c = true) → d ∉ z := by
        intro z hz hmem
        rw [hz d hmem] at hspace
        cases hspace
      refine ⟨_, ?_, m₃, (hpass₁.trans (passes_of_mem_ways_lit hm₂)).trans hpass₃, hq⟩
      simp only [List.mem_append, not_or]
      exact ⟨⟨hnot hz₁, by simp [hd]⟩, hnot hz₃⟩
    have hahead := hpass.ahead
    rw [List.append_assoc] at hahead
    obtain ⟨t', rfl, hrest⟩ := split_before hz hahead
    have hend := (lineEnd_iff.mp hm).2
    rw [hrest] at hend
    cases t' with
    | nil =>
      obtain rfl : d = '\n' := hend d rfl
      cases hspace
    | cons e t' =>
      obtain rfl : e = '\n' := hend e rfl
      exact hu.2 (by simp)

end Fence

/-! ## A piece without a fence -/

section Solid

variable [CharData]

/-- An object, or the beginning of one, in which no fence can begin. -/
structure Solid (piece : List Char) : Prop where
  noFence : ∀ behind rest, NoMatch codeFenceRe behind piece rest
  head : ∃ rest, piece = '\x7b' :: rest
  last : ∃ init c, piece = init ++ [c] ∧ isSpace c = false

/-- The characters that a fence can have. -/
def fenceChar (c : Char) : Bool :=
  isSpace c || c == '`' || "json".toList.any fun d => CharData.sameIgnoringCase d c

theorem only_codeFenceRe : Only fenceChar codeFenceRe := by
  have hspaces : Only fenceChar spaces := fun c hc => by simp [fenceChar, hc]
  have hticks : Only fenceChar (lit "```") := only_lit fun c hc => by
    obtain rfl : c = '`' := by simpa using hc
    simp [fenceChar]
  have hjson : Only fenceChar (litIgnoreCase "json") := only_litIgnoreCase fun c hc d hd => by
    rw [fenceChar, List.any_eq_true.mpr ⟨c, hc, hd⟩, Bool.or_true]
  exact ⟨⟨trivial, hspaces, hticks, hjson, hspaces⟩, hspaces, hticks, hspaces, trivial⟩

theorem not_fenceChar_brace (hascii : Ascii) : fenceChar '\x7b' = false := by
  have hjson : ("json".toList.any fun d => CharData.sameIgnoringCase d '\x7b') = false := by
    rw [List.any_eq_false]
    intro d hd hsame
    have hd' : d = 'j' ∨ d = 's' ∨ d = 'o' ∨ d = 'n' := by simpa using hd
    rcases hd' with rfl | rfl | rfl | rfl
    all_goals
      rw [hascii.sameIgnoringCase _ _ (by decide) (by decide)] at hsame
      exact absurd hsame (by decide)
  rw [fenceChar, hjson]
  decide

/-- The text that is worked on: the piece, with what is left of the text around it.  Without
backticks behind the piece, that is everything but the whitespace at the end. -/
theorem summaryText_solid (hascii : Ascii) {piece : List Char} (hpiece : Solid piece)
    (before after : List Char) :
    ∃ before' after', before'.Sublist before ∧ after'.Sublist after ∧
      ('`' ∉ after → after' = rstrip after) ∧
      summaryText (String.ofList (before ++ piece ++ after)) =
        String.ofList (before' ++ piece ++ after') := by
  obtain ⟨rest, hhead⟩ := hpiece.head
  obtain ⟨init, c, hlast, hc⟩ := hpiece.last
  have hstrip : ∀ a b : List Char, strip (String.ofList (a ++ piece ++ b)) =
      String.ofList (lstrip a ++ piece ++ rstrip b) := by
    intro a b
    have hleft : lstrip (a ++ piece ++ b) = lstrip a ++ piece ++ b := by
      rw [hhead, List.append_assoc, List.cons_append, lstrip_append (by decide),
        List.append_assoc, List.cons_append]
    have hright : rstrip (lstrip a ++ piece ++ b) = lstrip a ++ piece ++ rstrip b := by
      have heq : ∀ b, lstrip a ++ piece ++ b = (lstrip a ++ init) ++ c :: b := by simp [hlast]
      rw [heq, rstrip_append hc, heq]
    rw [strip, String.toList_ofList, hleft, hright]
  obtain ⟨before', fuel, hbefore, hfuel, hwithout⟩ :=
    @without_before codeFenceRe [] [] fenceChar only_codeFenceRe (lstrip before)
      (rest ++ rstrip after) '\x7b' (not_fenceChar_brace hascii) _ (Nat.lt_succ_self _)
  rw [← List.cons_append, ← hhead] at hfuel hwithout
  rw [without_append (hpiece.noFence _ _) hfuel] at hwithout
  rw [List.length_append] at hfuel
  set after' := without codeFenceRe (fuel - piece.length) ⟨piece.reverse ++
    ((lstrip before).reverse ++ []), rstrip after, []⟩ with hafter'
  have hafter : after'.Sublist after := (without_sublist _ _).trans (rstrip_sublist after)
  refine ⟨lstrip before', rstrip after', ?_, ?_, ?_, ?_⟩
  · exact (lstrip_sublist _).trans (hbefore.trans (lstrip_sublist before))
  · exact (rstrip_sublist _).trans hafter
  · intro htick
    have hself : after' = rstrip after := by
      refine without_eq_self ?_ (by omega)
      intro x y hy hxy q hq
      obtain ⟨u, tail, -, hahead⟩ := ahead_of_fence hq
      have hmem : '`' ∈ y ++ [] := by
        rw [show y ++ [] = u ++ '`' :: tail from hahead]
        exact List.mem_append_cons_self
      refine htick ((rstrip_sublist after).subset ?_)
      rw [hxy]
      exact List.mem_append_right x (by simpa using hmem)
    rw [hself, rstrip_idem]
  · rw [summaryText, hstrip, stripCodeFences, sub, String.toList_ofList, List.append_assoc,
      hwithout, ← List.append_assoc, hstrip]

end Solid

/-! ## Braces -/

/-- Text without braces. -/
def BraceFree (text : List Char) : Prop := '\x7b' ∉ text ∧ '\x7d' ∉ text

theorem BraceFree.sublist {text text' : List Char} (h : BraceFree text)
    (hsub : text'.Sublist text) : BraceFree text' :=
  ⟨fun hmem => h.1 (hsub.subset hmem), fun hmem => h.2 (hsub.subset hmem)⟩

/-- An object begins with a brace and has one that closes it. -/
theorem ahead_of_jsonBlock {p q : Place} (h : q ∈ jsonBlockRe.ways p) :
    ∃ u, p.ahead = '\x7b' :: u ++ '\x7d' :: q.ahead := by
  obtain ⟨m₁, hm₁, hq⟩ := mem_ways_seq.mp h
  obtain ⟨m₂, hm₂, hq⟩ := mem_ways_seq.mp hq
  obtain ⟨u, -, hpass⟩ := passes_of_mem_ways (only_true _) hm₂
  refine ⟨u, ?_⟩
  rw [(passes_of_mem_ways_lit hm₁).ahead, hpass.ahead, (passes_of_mem_ways_lit hq).ahead]
  rfl

/-- Between text without braces, the object is found whole. -/
theorem search_jsonBlock {before after : List Char} (middle : List Char)
    (hbefore : BraceFree before) (hafter : BraceFree after) :
    search jsonBlockRe (String.ofList (before ++ '\x7b' :: (middle ++ '\x7d' :: after))) =
      some ⟨'\x7b' :: (middle ++ ['\x7d']), []⟩ := by
  have hnone : NoMatch jsonBlockRe [] before ('\x7b' :: (middle ++ '\x7d' :: after)) := by
    intro x y hy hxy q hq
    obtain ⟨u, hahead⟩ := ahead_of_jsonBlock hq
    obtain ⟨c, rest, rfl⟩ := List.exists_cons_of_ne_nil hy
    obtain ⟨rfl, -⟩ := List.cons.inj hahead
    exact hbefore.1 (by rw [hxy]; simp)
  have hfirst : first jsonBlockRe some
      ⟨before.reverse, '\x7b' :: (middle ++ '\x7d' :: after), []⟩ =
        some ⟨'\x7d' :: (middle.reverse ++ '\x7b' :: before.reverse), after, []⟩ := by
    rw [jsonBlockRe, first_seq]
    refine (first_lit "\x7b" (middle ++ '\x7d' :: after)).trans ?_
    rw [first_seq]
    refine first_greedy (fun _ _ => rfl) ?_ (first_lit "\x7d" after)
    -- there is no closing brace behind the last one
    intro x hx _ q hpass
    refine first_eq_none fun t ht => ?_
    have hahead := hpass.ahead
    rw [(passes_of_mem_ways_lit ht).ahead] at hahead
    obtain ⟨c, rest, rfl⟩ := List.exists_cons_of_ne_nil hx
    obtain ⟨-, hrest⟩ := List.cons.inj hahead
    exact absurd (by rw [hrest]; simp) hafter.2
  have hpiece : '\x7b' :: (middle ++ '\x7d' :: after) =
      '\x7b' :: (middle ++ ['\x7d']) ++ after := by simp
  rw [search_append hnone hfirst, hpiece, take_length_sub]

/-- Text without a closing brace has no object. -/
theorem search_jsonBlock_eq_none {text : List Char} (h : '\x7d' ∉ text) :
    search jsonBlockRe (String.ofList text) = none := by
  refine search_eq_none ?_ ?_
  · intro x y _ hxy q hq
    obtain ⟨u, hahead⟩ := ahead_of_jsonBlock hq
    have hmem : '\x7d' ∈ y ++ [] := by
      rw [show y ++ [] = _ from hahead]
      simp
    rw [List.append_nil] at hmem
    exact h (hxy ▸ List.mem_append_right x hmem)
  · intro q hq
    obtain ⟨u, hahead⟩ := ahead_of_jsonBlock hq
    cases hahead

/-! ## Objects -/

section Objects

variable [CharData]

/-- An object on one line, whatever it says, is solid. -/
theorem solid_object {middle : List Char} (hline : '\n' ∉ middle) :
    Solid ('\x7b' :: (middle ++ ['\x7d'])) where
  noFence behind rest := by
    have hopen : NoMatch codeFenceRe behind ['\x7b'] (middle ++ ['\x7d'] ++ rest) :=
      noFence_spaces (w := []) (by simp) (by decide) (by decide)
    exact hopen.append (noFence_line (by decide) hline (by decide) (by decide))
  head := ⟨_, rfl⟩
  last := ⟨'\x7b' :: middle, '\x7d', by simp, by decide⟩

/-- **An object in a reply.**  Text without braces before and after an object on one line,
such as a code fence, does not change what is read from it. -/
theorem summaryData_object (hascii : Ascii) {json : Json} {before middle after : List Char}
    (hbefore : BraceFree before) (hline : '\n' ∉ middle) (hafter : BraceFree after)
    {fields : List (String × JsonValue)}
    (hloads : json.loads (String.ofList ('\x7b' :: (middle ++ ['\x7d']))) =
      some (.object fields)) :
    summaryData json (summaryText
      (String.ofList (before ++ '\x7b' :: (middle ++ ['\x7d']) ++ after))) = fields := by
  obtain ⟨before', after', hbefore', hafter', -, htext⟩ :=
    summaryText_solid hascii (solid_object hline) before after
  have hsearch := search_jsonBlock middle (hbefore.sublist hbefore') (hafter.sublist hafter')
  have hpiece : before' ++ '\x7b' :: (middle ++ ['\x7d']) ++ after' =
      before' ++ '\x7b' :: (middle ++ '\x7d' :: after') := by simp
  rw [htext, hpiece, summaryData, hsearch]
  dsimp only
  rw [hloads]

end Objects

end Llm
end PersonalIntelligence
