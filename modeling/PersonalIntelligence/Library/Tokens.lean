import PersonalIntelligence.Library.FirstMatch
import PersonalIntelligence.Library.Spacing
import Mathlib.Data.List.TakeWhile

/-!
# Tokens

`[start][rest]{n,}` finds the tokens of a text: a first character of one class and at least `n`
of a wider one.  A match goes on to the end of the run of the wider class, and it begins at the
first place in the run where it may.  So every run has at most one token, its end from the first
character of the narrower class on (`tokens`), and `findall` returns these (`findall_tokenRe`).
-/

namespace Regex

open Pat

/-- `[start][rest]{n,}`. -/
def tokenRe (start rest : Char → Bool) (n : ℕ) : Pat := seq (cls start) (atLeast n rest)

/-- The ends of the runs, from the first character on that can begin a token. -/
def tokens (start rest : Char → Bool) (n : ℕ) (cs : List Char) : List (List Char) :=
  ((cs.splitOnP fun c => !rest c).map fun run => run.dropWhile fun c => !start c).filter
    (n < ·.length)

variable {start rest : Char → Bool} {n : ℕ}

/-! ## Runs -/

section Run

variable {u v behind : List Char} {groups : List (ℕ × List Char)}

theorem ways_cls_of_head (hv : ∀ c ∈ v.head?, rest c = false) :
    (cls rest).ways ⟨behind, v, groups⟩ = [] := by
  cases v with
  | nil => rfl
  | cons c v => simp [ways, hv c rfl]

/-- Where a run of characters ends, no further round is possible. -/
theorem rounds_end (hv : ∀ c ∈ v.head?, rest c = false) (fuel n : ℕ) :
    rounds (cls rest).ways true fuel n none ⟨behind, v, groups⟩ =
      if n = 0 then [⟨behind, v, groups⟩] else [] := by
  cases fuel with
  | zero => rfl
  | succ fuel =>
    unfold rounds
    rw [ways_cls_of_head hv]
    simp

theorem rounds_cons {c : Char} (hc : rest c = true) (fuel n : ℕ) :
    rounds (cls rest).ways true (fuel + 1) n none ⟨behind, c :: u, groups⟩ =
      rounds (cls rest).ways true fuel (n - 1) none ⟨c :: behind, u, groups⟩ ++
        if n = 0 then [⟨behind, c :: u, groups⟩] else [] := by
  conv_lhs => unfold rounds
  simp [ways, hc]

/-- The first way to repeat goes to the end of the run, if it is long enough. -/
theorem head_rounds (hu : ∀ c ∈ u, rest c = true) (hv : ∀ c ∈ v.head?, rest c = false)
    {fuel : ℕ} (hfuel : u.length ≤ fuel) (n : ℕ) :
    (rounds (cls rest).ways true fuel n none ⟨behind, u ++ v, groups⟩).head? =
      if n ≤ u.length then some ⟨u.reverse ++ behind, v, groups⟩ else none := by
  induction u generalizing behind fuel n with
  | nil =>
    rw [List.nil_append, rounds_end hv]
    by_cases hn : n = 0
    · rw [if_pos hn, if_pos (by omega)]
      rfl
    · rw [if_neg hn, if_neg (by simpa using hn)]
      rfl
  | cons c u ih =>
    obtain ⟨fuel, rfl⟩ := Nat.exists_eq_succ_of_ne_zero (Nat.ne_zero_of_lt hfuel)
    rw [List.length_cons] at hfuel
    have hrest : ∀ d ∈ u, rest d = true := fun d hd => hu d (List.mem_cons_of_mem c hd)
    rw [List.cons_append, Nat.succ_eq_add_one, rounds_cons (hu c List.mem_cons_self),
      List.head?_append, ih hrest (Nat.le_of_succ_le_succ hfuel) (n - 1)]
    have hbehind : (c :: u).reverse ++ behind = u.reverse ++ c :: behind := by simp
    rw [hbehind, List.length_cons]
    by_cases hn : n ≤ u.length + 1
    · rw [if_pos hn, if_pos (by omega), Option.some_or]
    · rw [if_neg hn, if_neg (by omega), if_neg (by omega)]
      rfl

theorem ways_tokenRe_cons {c : Char} (hc : start c = true) :
    (tokenRe start rest n).ways ⟨behind, c :: u, groups⟩ =
      (atLeast n rest).ways ⟨c :: behind, u, groups⟩ := by
  simp [tokenRe, ways, hc]

theorem matchAt_eq_head (r : Pat) (ahead : List Char) :
    matchAt r ⟨behind, ahead, groups⟩ = (r.ways ⟨behind, ahead, []⟩).head?.map fun q =>
      (⟨ahead.take (ahead.length - q.ahead.length), q.groups⟩, q) := by
  unfold matchAt
  dsimp only
  cases r.ways ⟨behind, ahead, []⟩ with
  | nil => rfl
  | cons q _ => rfl

/-- A token is matched at its first character, to the end of the run. -/
theorem matchAt_token {c : Char} (hc : start c = true) (hu : ∀ c ∈ u, rest c = true)
    (hv : ∀ c ∈ v.head?, rest c = false) :
    matchAt (tokenRe start rest n) ⟨behind, c :: (u ++ v), groups⟩ =
      if n ≤ u.length then some (⟨c :: u, []⟩, ⟨(c :: u).reverse ++ behind, v, []⟩) else none := by
  have hfuel : u.length ≤ (u ++ v).length := by simp
  rw [matchAt_eq_head, ways_tokenRe_cons hc, atLeast, ways, head_rounds hu hv hfuel n]
  split_ifs
  · have hbehind : (c :: u).reverse ++ behind = u.reverse ++ c :: behind := by simp
    rw [Option.map_some, ← List.cons_append, take_length_sub, hbehind]
  · rfl

theorem matchAt_of_not_start {c : Char} (hc : start c = false) :
    matchAt (tokenRe start rest n) ⟨behind, c :: u, groups⟩ = none := by
  refine matchAt_eq_none fun q hq => ?_
  obtain ⟨m, hm, -⟩ := mem_ways_seq.mp hq
  simp [ways, hc] at hm

/-! ## All tokens -/

/-- The token of a run. -/
def runToken (start : Char → Bool) (n : ℕ) (run : List Char) : List (List Char) :=
  [run.dropWhile fun c => !start c].filter (n < ·.length)

/-- A run gives at most the one token. -/
theorem scanAll_run (hu : ∀ c ∈ u, rest c = true) (hv : ∀ c ∈ v.head?, rest c = false) :
    (scanAll (tokenRe start rest n) ⟨behind, u ++ v, []⟩).map (·.text) =
      runToken start n u ++
        (scanAll (tokenRe start rest n) ⟨u.reverse ++ behind, v, []⟩).map (·.text) := by
  induction u generalizing behind with
  | nil => simp [runToken]
  | cons c u ih =>
    have hrest : ∀ d ∈ u, rest d = true := fun d hd => hu d (List.mem_cons_of_mem c hd)
    have hbehind : (c :: u).reverse ++ behind = u.reverse ++ c :: behind := by simp
    cases hc : start c with
    | false =>
      rw [List.cons_append, scanAll_of_none (matchAt_of_not_start hc), ih hrest, hbehind]
      simp [runToken, hc]
    | true =>
      have htoken : runToken start n (c :: u) = if n ≤ u.length then [c :: u] else [] := by
        simp only [runToken, List.dropWhile_cons, hc, Bool.not_true, Bool.false_eq_true, if_false,
          List.filter_cons, List.filter_nil, List.length_cons, decide_eq_true_eq, Nat.lt_succ_iff]
      have hmatch : matchAt (tokenRe start rest n) ⟨behind, c :: (u ++ v), []⟩ = _ :=
        matchAt_token hc hrest hv
      rw [htoken]
      split_ifs at hmatch ⊢ with hn
      · have hlt : v.length < (c :: (u ++ v)).length := by
          rw [List.length_cons, List.length_append]
          omega
        rw [List.cons_append, scanAll_match hmatch hlt, List.map_cons, List.singleton_append]
      · -- Too short from here on, and so it is from anywhere later.
        have hshort : runToken start n u = [] := by
          have hle := (List.dropWhile_sublist (l := u) fun c => !start c).length_le
          refine List.filter_eq_nil_iff.mpr fun run hrun => ?_
          rw [List.mem_singleton.mp hrun, decide_eq_true_eq]
          omega
        rw [List.cons_append, scanAll_of_none hmatch, ih hrest, hbehind, hshort]

end Run

/-- A text is a run of the class and what begins outside of it. -/
theorem exists_run (rest : Char → Bool) (cs : List Char) :
    ∃ u v, cs = u ++ v ∧ (∀ c ∈ u, rest c = true) ∧ ∀ c ∈ v.head?, rest c = false :=
  ⟨cs.takeWhile rest, cs.dropWhile rest, List.takeWhile_append_dropWhile.symm,
    fun _ hc => List.mem_takeWhile_imp hc, PyText.head_dropWhile rest cs⟩

theorem tokens_run {u : List Char} (hu : ∀ c ∈ u, rest c = true) :
    tokens start rest n u = runToken start n u := by
  rw [tokens, List.splitOnP_eq_singleton fun c hc => by rw [hu c hc, Bool.not_true]]
  rfl

theorem tokens_append_cons (a b : List Char) {c : Char} (hc : rest c = false) :
    tokens start rest n (a ++ c :: b) = tokens start rest n a ++ tokens start rest n b := by
  rw [tokens, List.splitOnP_append_cons _ _ (by rw [hc, Bool.not_false]), List.map_append,
    List.filter_append]
  rfl

theorem scanAll_tokenRe (hstart : ∀ c, start c = true → rest c = true) (cs behind : List Char) :
    (scanAll (tokenRe start rest n) ⟨behind, cs, []⟩).map (·.text) = tokens start rest n cs := by
  induction hlength : cs.length using Nat.strong_induction_on generalizing cs behind with
  | _ m ih =>
    obtain ⟨u, v, rfl, hu, hv⟩ := exists_run rest cs
    rw [scanAll_run hu hv]
    cases v with
    | nil =>
      have hend : scanAll (tokenRe start rest n) ⟨u.reverse ++ behind, [], []⟩ = [] :=
        scanAll_eq_nil (fun x y hy hxy => absurd (List.append_eq_nil_iff.mp hxy.symm).2 hy)
          (by simp [tokenRe, ways])
      rw [hend, List.append_nil, tokens_run hu, List.map_nil, List.append_nil]
    | cons d v =>
      have hd : rest d = false := hv d rfl
      have hnot : start d = false := Bool.eq_false_iff.mpr fun h => by
        rw [hstart d h] at hd
        cases hd
      have hlt : v.length < m := by
        rw [← hlength, List.length_append, List.length_cons]
        omega
      rw [scanAll_of_none (matchAt_of_not_start hnot), ih v.length hlt v _ rfl,
        tokens_append_cons u v hd, tokens_run hu]

/-- **The tokens of a text** are what the expression finds. -/
theorem findall_tokenRe (hstart : ∀ c, start c = true → rest c = true) (s : String) :
    findall (tokenRe start rest n) s = (tokens start rest n s.toList).map String.ofList := by
  have h := finditer_ofList (tokenRe start rest n) s.toList
  rw [String.ofList_toList] at h
  rw [findall, h, ← scanAll_tokenRe hstart s.toList [], List.map_map]
  rfl

theorem of_mem_tokens {w cs : List Char} (h : w ∈ tokens start rest n cs) :
    n < w.length ∧ ∀ c ∈ w, rest c = true := by
  obtain ⟨hmem, hlength⟩ := List.mem_filter.mp h
  obtain ⟨run, hrun, rfl⟩ := List.mem_map.mp hmem
  exact ⟨of_decide_eq_true hlength, fun c hc =>
    (Slug.mem_of_mem_splitOnP hrun c ((List.dropWhile_sublist _).mem hc)).2⟩

/-- A run that is a token all of it. -/
theorem mem_tokens {a w b : List Char} (ha : ∀ c ∈ a.getLast?, rest c = false)
    (hb : ∀ c ∈ b.head?, rest c = false) (hrest : ∀ c ∈ w, rest c = true)
    (hhead : ∀ c ∈ w.head?, start c = true) (hlength : n < w.length) :
    w ∈ tokens start rest n (a ++ w ++ b) := by
  have hw : w ∈ tokens start rest n w := by
    rw [tokens_run hrest, runToken]
    cases w with
    | nil => cases hlength
    | cons c w => simpa [hhead c rfl] using hlength
  have hwb : w ∈ tokens start rest n (w ++ b) := by
    cases b with
    | nil => rwa [List.append_nil]
    | cons d b =>
      rw [tokens_append_cons w b (hb d rfl)]
      exact List.mem_append_left _ hw
  rcases List.eq_nil_or_concat a with rfl | ⟨init, d, rfl⟩
  · exact hwb
  · rw [List.concat_eq_append] at ha ⊢
    rw [List.append_assoc, List.append_assoc, List.singleton_append,
      tokens_append_cons init (w ++ b) (ha d (by simp))]
    exact List.mem_append_right _ hwb

end Regex
