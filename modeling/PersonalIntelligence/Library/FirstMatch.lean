import PersonalIntelligence.Library.Regex

/-!
# The first way to match

The engine's answer is the first of the ways in which a pattern can match, so what follows a
pattern can be read as a continuation: `first a k` tries the ways of `a` in their order until
`k` accepts one.  Sequencing is then nesting (`first_seq`), an alternative is tried if the
former fails (`first_alt`), a greedy repetition asks its continuation behind the longest run
first (`first_greedy`) and a lazy one at one place after the other (`first_lazy`).

That a pattern does not match is shown the other way round: whatever way there is passes some
text (`Passes`), and the text ahead is not of that form.

A search is the first place at which the pattern matches (`search_append`), and `without` is
what `sub("", ...)` leaves of a text.
-/

namespace Regex

open Pat

variable {α : Type}

/-! ## Ways -/

/-- From one place to another, with the text between them. -/
structure Passes (p : Place) (u : List Char) (q : Place) : Prop where
  ahead : p.ahead = u ++ q.ahead
  behind : q.behind = u.reverse ++ p.behind

namespace Passes

variable {p q r : Place} {u v : List Char}

theorem refl (p : Place) : Passes p [] p := ⟨rfl, rfl⟩

theorem trans (h : Passes p u q) (h' : Passes q v r) : Passes p (u ++ v) r where
  ahead := by rw [h.ahead, h'.ahead, List.append_assoc]
  behind := by rw [h'.behind, h.behind, List.reverse_append, List.append_assoc]

theorem length_le (h : Passes p u q) : q.ahead.length ≤ p.ahead.length := by
  rw [h.ahead, List.length_append]
  exact Nat.le_add_left _ _

end Passes

/-- Text that `d` does not belong to ends before it. -/
theorem split_before {d : Char} {u v w rest : List Char} (hd : d ∉ w)
    (h : u ++ d :: v = w ++ rest) : ∃ t, u = w ++ t ∧ rest = t ++ d :: v := by
  rcases List.append_eq_append_iff.mp h with ⟨x, rfl, hx⟩ | ⟨x, hx, hrest⟩
  · cases x with
    | nil => exact ⟨[], by simp, by simpa using hx.symm⟩
    | cons e x =>
      obtain ⟨rfl, -⟩ := List.cons.inj hx
      exact absurd (by simp) hd
  · exact ⟨x, hx, hrest⟩

/-- The last character of a text ends its last part. -/
theorem split_concat {d : Char} {u x y : List Char} (hy : y ≠ []) (h : u ++ [d] = x ++ y) :
    ∃ t, y = t ++ [d] ∧ u = x ++ t := by
  obtain ⟨t, e, rfl⟩ : ∃ t e, y = t ++ [e] := ⟨_, _, (List.dropLast_append_getLast hy).symm⟩
  rw [← List.append_assoc] at h
  obtain ⟨hu, he⟩ := List.append_inj' h rfl
  obtain rfl : d = e := (List.cons.inj he).1
  exact ⟨t, rfl, hu⟩

theorem mem_ways_seq {a b : Pat} {p q : Place} :
    q ∈ (seq a b).ways p ↔ ∃ m ∈ a.ways p, q ∈ b.ways m :=
  List.mem_flatMap

theorem mem_ways_alt {a b : Pat} {p q : Place} :
    q ∈ (alt a b).ways p ↔ q ∈ a.ways p ∨ q ∈ b.ways p :=
  List.mem_append

theorem mem_ways_look {t : List Char → List Char → Bool} {p q : Place} :
    q ∈ (look t).ways p ↔ q = p ∧ t p.behind p.ahead = true := by
  unfold ways
  split_ifs with h
  · simp [h]
  · simp [h]

theorem exists_of_mem_ways_group {n : ℕ} {a : Pat} {p q : Place} (h : q ∈ (group n a).ways p) :
    ∃ m ∈ a.ways p, q.ahead = m.ahead ∧ q.behind = m.behind := by
  obtain ⟨m, hm, rfl⟩ := List.mem_map.mp h
  exact ⟨m, hm, rfl, rfl⟩

theorem passes_of_mem_ways_cls {f : Char → Bool} {p q : Place} (h : q ∈ (cls f).ways p) :
    ∃ c, f c = true ∧ Passes p [c] q := by
  obtain ⟨behind, ahead, groups⟩ := p
  cases ahead with
  | nil => cases h
  | cons c rest =>
    unfold ways at h
    dsimp only at h
    split_ifs at h with hc
    · obtain rfl := List.mem_singleton.mp h
      exact ⟨c, hc, rfl, rfl⟩
    · cases h

/-- A literal passes its text. -/
theorem passes_of_mem_ways_lit {s : String} {p q : Place} (h : q ∈ (lit s).ways p) :
    Passes p s.toList q := by
  unfold lit at h
  generalize s.toList = cs at h ⊢
  induction cs generalizing p with
  | nil =>
    obtain rfl := List.mem_singleton.mp h
    exact Passes.refl q
  | cons c rest ih =>
    obtain ⟨m, hm, hq⟩ := mem_ways_seq.mp h
    obtain ⟨d, hd, hpass⟩ := passes_of_mem_ways_cls hm
    obtain rfl : d = c := beq_iff_eq.mp hd
    exact hpass.trans (ih hq)

theorem groups_of_mem_ways_lit {s : String} {p q : Place} (h : q ∈ (lit s).ways p) :
    q.groups = p.groups := by
  unfold lit at h
  generalize s.toList = cs at h
  induction cs generalizing p with
  | nil =>
    obtain rfl := List.mem_singleton.mp h
    rfl
  | cons c rest ih =>
    obtain ⟨m, hm, hq⟩ := mem_ways_seq.mp h
    obtain ⟨behind, ahead, groups⟩ := p
    refine (ih hq).trans ?_
    cases ahead with
    | nil => cases hm
    | cons d ahead =>
      unfold ways at hm
      dsimp only at hm
      split_ifs at hm
      · rw [List.mem_singleton.mp hm]
      · cases hm

/-! ### Repetitions -/

/-- Without text ahead there is no round that passes any. -/
theorem rounds_of_ahead_nil {one : Place → List Place} {greedy : Bool} {min : ℕ}
    {max : Option ℕ} {p : Place} (h : p.ahead.length = 0) (fuel : ℕ) :
    rounds one greedy fuel min max p = if min = 0 then [p] else [] := by
  cases fuel with
  | zero => rfl
  | succ fuel =>
    have hnone : ((one p).flatMap fun q =>
        if q.ahead.length < p.ahead.length then
          rounds one greedy fuel (min - 1) (max.map (· - 1)) q else []) = [] := by
      rw [List.flatMap_eq_nil_iff]
      intro q _
      rw [if_neg (by omega)]
    unfold rounds
    dsimp only
    rw [hnone, ite_self, List.append_nil, List.nil_append, ite_self]

/-- More fuel than there is text makes no difference. -/
theorem rounds_fuel {one : Place → List Place} {greedy : Bool} {fuel fuel' min : ℕ}
    {max : Option ℕ} {p : Place} (h : p.ahead.length ≤ fuel) (h' : p.ahead.length ≤ fuel') :
    rounds one greedy fuel min max p = rounds one greedy fuel' min max p := by
  induction fuel generalizing fuel' min max p with
  | zero => rw [rounds_of_ahead_nil (Nat.le_zero.mp h), rounds_of_ahead_nil (Nat.le_zero.mp h)]
  | succ fuel ih =>
    cases fuel' with
    | zero =>
      rw [rounds_of_ahead_nil (Nat.le_zero.mp h'), rounds_of_ahead_nil (Nat.le_zero.mp h')]
    | succ fuel' =>
      have hnext : ∀ q : Place,
          (if q.ahead.length < p.ahead.length then
            rounds one greedy fuel (min - 1) (max.map (· - 1)) q else []) =
            if q.ahead.length < p.ahead.length then
              rounds one greedy fuel' (min - 1) (max.map (· - 1)) q else [] := by
        intro q
        split_ifs with hq
        · exact ih (by omega) (by omega)
        · rfl
      unfold rounds
      simp only [hnext]

/-- Another round, or none. -/
theorem ways_rep (greedy : Bool) (a : Pat) (p : Place) :
    (rep greedy 0 none a).ways p =
      let more := (a.ways p).flatMap fun q =>
        if q.ahead.length < p.ahead.length then (rep greedy 0 none a).ways q else []
      if greedy then more ++ [p] else p :: more := by
  have hnext : ∀ q : Place,
      (if q.ahead.length < p.ahead.length then
        rounds a.ways greedy p.ahead.length 0 none q else []) =
        if q.ahead.length < p.ahead.length then (rep greedy 0 none a).ways q else [] := by
    intro q
    split_ifs with hq
    · exact rounds_fuel (by omega) le_rfl
    · rfl
  have hrounds : (rep greedy 0 none a).ways p =
      rounds a.ways greedy (p.ahead.length + 1) 0 none p :=
    rounds_fuel le_rfl (Nat.le_succ _)
  rw [hrounds]
  unfold rounds
  dsimp only [Nat.zero_sub, Option.map_none]
  simp only [hnext, reduceCtorEq, if_true, if_false, List.singleton_append]

/-! ### What a pattern can pass -/

/-- No class of the pattern takes another character. -/
def Only (f : Char → Bool) : Pat → Prop
  | cls g => ∀ c, g c = true → f c = true
  | eps => True
  | seq a b => Only f a ∧ Only f b
  | alt a b => Only f a ∧ Only f b
  | rep _ _ _ a => Only f a
  | look _ => True
  | group _ a => Only f a

theorem passes_of_mem_rounds {one : Place → List Place} {f : Char → Bool}
    (hone : ∀ {p q : Place}, q ∈ one p → ∃ u, (∀ c ∈ u, f c = true) ∧ Passes p u q)
    {greedy : Bool} {fuel min : ℕ} {max : Option ℕ} {p q : Place}
    (h : q ∈ rounds one greedy fuel min max p) :
    ∃ u, (∀ c ∈ u, f c = true) ∧ Passes p u q := by
  have hstop : ∀ {min : ℕ} {p : Place}, q ∈ (if min = 0 then [p] else []) →
      ∃ u, (∀ c ∈ u, f c = true) ∧ Passes p u q := by
    intro min p h
    split_ifs at h with hmin
    · obtain rfl := List.mem_singleton.mp h
      exact ⟨[], by simp, Passes.refl q⟩
    · cases h
  induction fuel generalizing min max p with
  | zero => exact hstop h
  | succ fuel ih =>
    have hmore : q ∈ (one p).flatMap (fun m => if m.ahead.length < p.ahead.length then
        rounds one greedy fuel (min - 1) (max.map (· - 1)) m else []) →
          ∃ u, (∀ c ∈ u, f c = true) ∧ Passes p u q := by
      intro h
      obtain ⟨m, hm, hq⟩ := List.mem_flatMap.mp h
      split_ifs at hq with hlt
      · obtain ⟨u, hu, hpass⟩ := hone hm
        obtain ⟨v, hv, hpass'⟩ := ih hq
        exact ⟨u ++ v, List.forall_mem_append.mpr ⟨hu, hv⟩, hpass.trans hpass'⟩
      · cases hq
    have hcases : q ∈ (if max = some 0 then [] else (one p).flatMap fun m =>
        if m.ahead.length < p.ahead.length then
          rounds one greedy fuel (min - 1) (max.map (· - 1)) m else []) ∨
        q ∈ (if min = 0 then [p] else []) := by
      unfold rounds at h
      cases greedy
      · exact (List.mem_append.mp h).symm
      · exact List.mem_append.mp h
    rcases hcases with h | h
    · split_ifs at h with hmax
      · cases h
      · exact hmore h
    · exact hstop h

/-- Every way passes some text, of characters that the pattern takes. -/
theorem passes_of_mem_ways {f : Char → Bool} {r : Pat} (hr : Only f r) {p q : Place}
    (h : q ∈ r.ways p) : ∃ u, (∀ c ∈ u, f c = true) ∧ Passes p u q := by
  induction r generalizing p q with
  | cls g =>
    obtain ⟨c, hc, hpass⟩ := passes_of_mem_ways_cls h
    exact ⟨[c], by simpa using hr c hc, hpass⟩
  | eps =>
    obtain rfl := List.mem_singleton.mp h
    exact ⟨[], by simp, Passes.refl q⟩
  | seq a b iha ihb =>
    obtain ⟨m, hm, hq⟩ := mem_ways_seq.mp h
    obtain ⟨u, hu, hpass⟩ := iha hr.1 hm
    obtain ⟨v, hv, hpass'⟩ := ihb hr.2 hq
    exact ⟨u ++ v, List.forall_mem_append.mpr ⟨hu, hv⟩, hpass.trans hpass'⟩
  | alt a b iha ihb => exact (mem_ways_alt.mp h).elim (iha hr.1) (ihb hr.2)
  | rep greedy min max a ih => exact passes_of_mem_rounds (ih hr) h
  | look t =>
    obtain ⟨rfl, -⟩ := mem_ways_look.mp h
    exact ⟨[], by simp, Passes.refl q⟩
  | group n a ih =>
    obtain ⟨m, hm, hahead, hbehind⟩ := exists_of_mem_ways_group h
    obtain ⟨u, hu, hpass⟩ := ih hr hm
    exact ⟨u, hu, hpass.ahead.trans (by rw [hahead]), hbehind.trans hpass.behind⟩

theorem only_lit {f : Char → Bool} {s : String} (h : ∀ c ∈ s.toList, f c = true) :
    Only f (lit s) := by
  unfold lit
  generalize s.toList = cs at h ⊢
  induction cs with
  | nil => trivial
  | cons c rest ih =>
    refine ⟨fun d hd => ?_, ih fun d hd => h d (List.mem_cons_of_mem c hd)⟩
    obtain rfl : d = c := beq_iff_eq.mp hd
    exact h d List.mem_cons_self

theorem only_litIgnoreCase [PyText.CharData] {f : Char → Bool} {s : String}
    (h : ∀ c ∈ s.toList, ∀ d, PyText.CharData.sameIgnoringCase c d = true → f d = true) :
    Only f (litIgnoreCase s) := by
  unfold litIgnoreCase
  generalize s.toList = cs at h ⊢
  induction cs with
  | nil => trivial
  | cons c rest ih =>
    exact ⟨h c List.mem_cons_self, ih fun d hd => h d (List.mem_cons_of_mem c hd)⟩

/-- A pattern passes some text, whatever it is. -/
theorem only_true (r : Pat) : Only (fun _ => true) r := by
  induction r with
  | cls _ => exact fun _ _ => rfl
  | eps | look _ => trivial
  | seq _ _ iha ihb | alt _ _ iha ihb => exact ⟨iha, ihb⟩
  | rep _ _ _ _ ih | group _ _ ih => exact ih

/-! ## Continuations -/

/-- The answer of the continuation at the first place where it accepts. -/
def first (r : Pat) (k : Place → Option α) (p : Place) : Option α := (r.ways p).findSome? k

section First

variable {k : Place → Option α} {behind : List Char} {groups : List (ℕ × List Char)}

/-- Nothing is accepted where no way leads. -/
theorem first_eq_none {r : Pat} {p : Place} (h : ∀ q ∈ r.ways p, k q = none) :
    first r k p = none :=
  List.findSome?_eq_none_iff.mpr h

theorem findSome?_flatMap {β γ : Type} (f : β → List γ) (g : γ → Option α) (l : List β) :
    (l.flatMap f).findSome? g = l.findSome? fun x => (f x).findSome? g := by
  induction l with
  | nil => rfl
  | cons x rest ih =>
    rw [List.flatMap_cons, List.findSome?_append, ih, List.findSome?_cons]
    cases (f x).findSome? g with
    | none => rfl
    | some _ => rfl

theorem first_seq (a b : Pat) (p : Place) : first (seq a b) k p = first a (first b k) p :=
  findSome?_flatMap b.ways k (a.ways p)

theorem first_alt (a b : Pat) (p : Place) :
    first (alt a b) k p = (first a k p).or (first b k p) :=
  List.findSome?_append

theorem first_cls {f : Char → Bool} {c : Char} (hc : f c = true) (rest : List Char) :
    first (cls f) k ⟨behind, c :: rest, groups⟩ = k ⟨c :: behind, rest, groups⟩ := by
  simp [first, ways, hc]

theorem first_look {t : List Char → List Char → Bool} {p : Place}
    (h : t p.behind p.ahead = true) : first (look t) k p = k p := by
  simp [first, ways, h]

theorem first_group (n : ℕ) (a : Pat) (p : Place) :
    first (group n a) k p = first a (fun q =>
      k { q with groups := (n, p.ahead.take (p.ahead.length - q.ahead.length)) :: q.groups }) p := by
  simp only [first, ways, List.findSome?_map]
  rfl

theorem first_lit (s : String) (rest : List Char) :
    first (lit s) k ⟨behind, s.toList ++ rest, groups⟩ =
      k ⟨s.toList.reverse ++ behind, rest, groups⟩ := by
  unfold lit
  induction s.toList generalizing behind with
  | nil => simp [first, ways]
  | cons c cs ih =>
    rw [List.foldr_cons, first_seq, List.cons_append, first_cls (f := (· == c)) (beq_self_eq_true c), ih,
      List.reverse_cons, List.append_assoc, List.singleton_append]

/-- A repetition tries another round and stopping, in the one order or in the other. -/
theorem first_rep (greedy : Bool) (a : Pat) (p : Place) :
    first (rep greedy 0 none a) k p =
      let more := first a (fun q =>
        if q.ahead.length < p.ahead.length then first (rep greedy 0 none a) k q else none) p
      if greedy then more.or (k p) else (k p).or more := by
  have hnext : ∀ q : Place,
      (if q.ahead.length < p.ahead.length then (rep greedy 0 none a).ways q else []).findSome? k =
        if q.ahead.length < p.ahead.length then first (rep greedy 0 none a) k q else none := by
    intro q
    split_ifs
    · rfl
    · rfl
  have hstop : [p].findSome? k = k p := by
    rw [List.findSome?_singleton]
  unfold first at hnext ⊢
  rw [ways_rep]
  dsimp only
  cases greedy
  · rw [if_neg Bool.false_ne_true, if_neg Bool.false_ne_true, ← List.singleton_append,
      List.findSome?_append, hstop, findSome?_flatMap]
    simp only [hnext]
  · rw [if_pos rfl, if_pos rfl, List.findSome?_append, hstop, findSome?_flatMap]
    simp only [hnext]

/-- A greedy run of characters goes as far as it may: to the last place where the
continuation accepts. -/
theorem first_greedy {f : Char → Bool} {u v : List Char} {result : α}
    (hu : ∀ c ∈ u, f c = true)
    (hlater : ∀ x, x ≠ [] → (∀ c ∈ x, f c = true) →
      ∀ q, Passes ⟨u.reverse ++ behind, v, groups⟩ x q → k q = none)
    (hk : k ⟨u.reverse ++ behind, v, groups⟩ = some result) :
    first (rep true 0 none (cls f)) k ⟨behind, u ++ v, groups⟩ = some result := by
  induction u generalizing behind with
  | nil =>
    rw [first_rep]
    dsimp only
    rw [if_pos rfl, first_eq_none, Option.none_or]
    · exact hk
    · intro q hq
      split_ifs with hlt
      · refine first_eq_none fun t ht => ?_
        obtain ⟨c, hc, hpass⟩ := passes_of_mem_ways_cls hq
        obtain ⟨x, hx, hpass'⟩ := passes_of_mem_ways (r := rep true 0 none (cls f))
          (fun _ h => h) ht
        exact hlater (c :: x) (List.cons_ne_nil _ _) (List.forall_mem_cons.mpr ⟨hc, hx⟩) t
          (hpass.trans hpass')
      · rfl
  | cons c u ih =>
    have hrest : first (rep true 0 none (cls f)) k ⟨c :: behind, u ++ v, groups⟩ =
        some result := by
      have hbehind : (c :: u).reverse ++ behind = u.reverse ++ c :: behind := by simp
      rw [hbehind] at hlater hk
      exact ih (fun d hd => hu d (List.mem_cons_of_mem c hd)) hlater hk
    rw [first_rep]
    dsimp only
    rw [if_pos rfl, List.cons_append, first_cls (hu c List.mem_cons_self), if_pos (by simp),
      hrest, Option.some_or]

/-- A lazy run of characters goes to the first place where the continuation accepts. -/
theorem first_lazy {f : Char → Bool} {u v : List Char} {result : α} (hu : ∀ c ∈ u, f c = true)
    (hearlier : ∀ x y, y ≠ [] → u = x ++ y →
      k ⟨x.reverse ++ behind, y ++ v, groups⟩ = none)
    (hk : k ⟨u.reverse ++ behind, v, groups⟩ = some result) :
    first (rep false 0 none (cls f)) k ⟨behind, u ++ v, groups⟩ = some result := by
  induction u generalizing behind with
  | nil =>
    rw [first_rep]
    dsimp only
    rw [if_neg Bool.false_ne_true]
    exact Option.or_eq_some_iff.mpr (.inl hk)
  | cons c u ih =>
    have hhere : k ⟨behind, c :: u ++ v, groups⟩ = none :=
      hearlier [] (c :: u) (List.cons_ne_nil _ _) rfl
    have hbehind : ∀ x : List Char, (c :: x).reverse ++ behind = x.reverse ++ c :: behind := by
      simp
    have hrest : first (rep false 0 none (cls f)) k ⟨c :: behind, u ++ v, groups⟩ =
        some result := by
      refine ih (fun d hd => hu d (List.mem_cons_of_mem c hd)) ?_ ?_
      · intro x y hy hxy
        rw [← hbehind]
        exact hearlier (c :: x) y hy (by rw [hxy, List.cons_append])
      · rw [← hbehind]
        exact hk
    rw [first_rep]
    dsimp only
    rw [if_neg Bool.false_ne_true, hhere, Option.none_or, List.cons_append,
      first_cls (hu c List.mem_cons_self), if_pos (by simp), hrest]

end First

/-! ## Searching -/

theorem matchAt_eq_some {r : Pat} {behind ahead : List Char} {groups : List (ℕ × List Char)}
    {q : Place} (h : first r some ⟨behind, ahead, []⟩ = some q) :
    matchAt r ⟨behind, ahead, groups⟩ =
      some (⟨ahead.take (ahead.length - q.ahead.length), q.groups⟩, q) := by
  unfold first at h
  unfold matchAt
  dsimp only
  cases hways : r.ways ⟨behind, ahead, []⟩ with
  | nil =>
    rw [hways] at h
    cases h
  | cons t rest =>
    rw [hways, List.findSome?_cons] at h
    obtain rfl := Option.some.inj h
    rfl

theorem matchAt_eq_none {r : Pat} {behind ahead : List Char} {groups : List (ℕ × List Char)}
    (h : ∀ q, q ∉ r.ways ⟨behind, ahead, []⟩) : matchAt r ⟨behind, ahead, groups⟩ = none := by
  unfold matchAt
  rw [List.eq_nil_iff_forall_not_mem.mpr h]

/-- A match is one of the ways. -/
theorem mem_ways_of_matchAt {r : Pat} {p q : Place} {m : Match} (h : matchAt r p = some (m, q)) :
    q ∈ r.ways { p with groups := [] } ∧ m.groups = q.groups := by
  unfold matchAt at h
  cases hways : r.ways { p with groups := [] } with
  | nil =>
    rw [hways] at h
    cases h
  | cons t rest =>
    rw [hways] at h
    obtain ⟨rfl, rfl⟩ := Prod.mk.inj (Option.some.inj h)
    exact ⟨List.mem_cons_self, rfl⟩

/-- What a match passes. -/
theorem passes_of_matchAt {f : Char → Bool} {r : Pat} (hr : Only f r) {p q : Place} {m : Match}
    (h : matchAt r p = some (m, q)) : ∃ u, (∀ c ∈ u, f c = true) ∧ Passes p u q := by
  obtain ⟨u, hu, hpass⟩ := passes_of_mem_ways hr (mem_ways_of_matchAt h).1
  exact ⟨u, hu, hpass.ahead, hpass.behind⟩

/-- The pattern matches nowhere in the text `u` before `v`. -/
def NoMatch (r : Pat) (behind u v : List Char) : Prop :=
  ∀ x y, y ≠ [] → u = x ++ y → ∀ q, q ∉ r.ways ⟨x.reverse ++ behind, y ++ v, []⟩

theorem NoMatch.tail {r : Pat} {behind u v : List Char} {c : Char}
    (h : NoMatch r behind (c :: u) v) : NoMatch r (c :: behind) u v := by
  intro x y hy hxy q hq
  have hbehind : (c :: x).reverse ++ behind = x.reverse ++ c :: behind := by simp
  refine h (c :: x) y hy (by rw [hxy, List.cons_append]) q ?_
  rw [hbehind]
  exact hq

theorem NoMatch.head {r : Pat} {behind u v : List Char} {c : Char}
    {groups : List (ℕ × List Char)} (h : NoMatch r behind (c :: u) v) :
    matchAt r ⟨behind, c :: (u ++ v), groups⟩ = none :=
  matchAt_eq_none (h [] (c :: u) (List.cons_ne_nil _ _) rfl)

/-- Text without a match can be put together. -/
theorem NoMatch.append {r : Pat} {behind u u' v : List Char} (h : NoMatch r behind u (u' ++ v))
    (h' : NoMatch r (u.reverse ++ behind) u' v) : NoMatch r behind (u ++ u') v := by
  intro x y hy hxy q hq
  rcases List.append_eq_append_iff.mp hxy.symm with ⟨z, rfl, rfl⟩ | ⟨z, rfl, rfl⟩
  · rcases eq_or_ne z [] with rfl | hz
    · refine h' [] u' hy rfl q ?_
      simpa using hq
    · refine h x z hz rfl q ?_
      rwa [← List.append_assoc]
  · refine h' z y hy rfl q ?_
    simpa using hq

theorem scan_of_none {r : Pat} {behind rest : List Char} {c : Char}
    {groups : List (ℕ × List Char)} (h : matchAt r ⟨behind, c :: rest, groups⟩ = none)
    (fuel : ℕ) :
    scan r (fuel + 1) ⟨behind, c :: rest, groups⟩ = scan r fuel ⟨c :: behind, rest, []⟩ := by
  conv_lhs => unfold scan
  rw [h]

theorem scan_append {r : Pat} {behind u v : List Char} (h : NoMatch r behind u v) {fuel : ℕ}
    (hfuel : (u ++ v).length < fuel) :
    scan r fuel ⟨behind, u ++ v, []⟩ = scan r (fuel - u.length) ⟨u.reverse ++ behind, v, []⟩ := by
  induction u generalizing behind fuel with
  | nil => rfl
  | cons c u ih =>
    obtain ⟨fuel, rfl⟩ := Nat.exists_eq_succ_of_ne_zero (Nat.ne_zero_of_lt hfuel)
    have hlength : (c :: u).length = u.length + 1 := rfl
    have hbehind : (c :: u).reverse ++ behind = u.reverse ++ c :: behind := by simp
    rw [List.cons_append, List.length_cons] at hfuel
    rw [List.cons_append, scan_of_none h.head, ih h.tail (by omega), hlength, hbehind,
      Nat.succ_eq_add_one, Nat.add_sub_add_right]

/-- What a match has passed. -/
theorem take_length_sub (u v : List Char) : (u ++ v).take ((u ++ v).length - v.length) = u := by
  rw [List.length_append, Nat.add_sub_cancel, List.take_left]

/-- The first match. -/
theorem search_append {r : Pat} {u v : List Char} (h : NoMatch r [] u v) {q : Place}
    (hq : first r some ⟨u.reverse, v, []⟩ = some q) :
    search r (String.ofList (u ++ v)) =
      some ⟨v.take (v.length - q.ahead.length), q.groups⟩ := by
  unfold search finditer
  rw [String.toList_ofList, scan_append h (Nat.lt_succ_self _), List.append_nil]
  obtain ⟨fuel, hfuel⟩ : ∃ fuel, (u ++ v).length + 1 - u.length = fuel + 1 :=
    ⟨v.length, by rw [List.length_append]; omega⟩
  rw [hfuel]
  unfold scan
  rw [matchAt_eq_some hq]
  dsimp only
  split_ifs with hlt
  · rfl
  · cases v with
    | nil => rfl
    | cons c rest => rfl

theorem search_eq_none {r : Pat} {u : List Char} (h : NoMatch r [] u [])
    (hend : ∀ q, q ∉ r.ways ⟨u.reverse, [], []⟩) : search r (String.ofList u) = none := by
  have hscan := scan_append h (Nat.lt_succ_self _)
  unfold search finditer
  rw [String.toList_ofList]
  rw [List.append_nil] at hscan
  rw [hscan, List.append_nil]
  obtain ⟨fuel, hfuel⟩ : ∃ fuel, u.length + 1 - u.length = fuel + 1 := ⟨0, by omega⟩
  rw [hfuel]
  unfold scan
  rw [matchAt_eq_none hend]
  rfl

/-! ### All matches -/

theorem scan_succ (r : Pat) (fuel : ℕ) (p : Place) :
    scan r (fuel + 1) p =
      match matchAt r p with
      | some (m, q) =>
        if q.ahead.length < p.ahead.length then m :: scan r fuel q
        else
          match p.ahead with
          | [] => [m]
          | c :: rest => m :: scan r fuel ⟨c :: p.behind, rest, []⟩
      | none =>
        match p.ahead with
        | [] => []
        | c :: rest => scan r fuel ⟨c :: p.behind, rest, []⟩ :=
  rfl

/-- More fuel than there is text makes no difference. -/
theorem scan_fuel {r : Pat} {fuel fuel' : ℕ} {p : Place} (h : p.ahead.length < fuel)
    (h' : p.ahead.length < fuel') : scan r fuel p = scan r fuel' p := by
  induction fuel generalizing fuel' p with
  | zero => exact absurd h (Nat.not_lt_zero _)
  | succ fuel ih =>
    obtain ⟨fuel', rfl⟩ := Nat.exists_eq_succ_of_ne_zero (Nat.ne_zero_of_lt h')
    have hnext : ∀ c rest, p.ahead = c :: rest →
        scan r fuel ⟨c :: p.behind, rest, []⟩ = scan r fuel' ⟨c :: p.behind, rest, []⟩ := by
      intro c rest hahead
      rw [hahead, List.length_cons] at h h'
      exact ih (Nat.lt_of_succ_lt_succ h) (Nat.lt_of_succ_lt_succ h')
    rw [scan_succ, scan_succ]
    cases matchAt r p with
    | none =>
      cases hahead : p.ahead with
      | nil => rfl
      | cons c rest => exact hnext c rest hahead
    | some result =>
      obtain ⟨m, q⟩ := result
      dsimp only
      split_ifs with hlt
      · exact congrArg (m :: ·) (ih (by omega) (by omega))
      · cases hahead : p.ahead with
        | nil => rfl
        | cons c rest => exact congrArg (m :: ·) (hnext c rest hahead)

/-- All matches from a place on. -/
def scanAll (r : Pat) (p : Place) : List Match := scan r (p.ahead.length + 1) p

theorem finditer_ofList (r : Pat) (cs : List Char) :
    finditer r (String.ofList cs) = scanAll r ⟨[], cs, []⟩ := by
  rw [finditer, String.toList_ofList]
  rfl

theorem scanAll_skip {r : Pat} {behind u v : List Char} (h : NoMatch r behind u v) :
    scanAll r ⟨behind, u ++ v, []⟩ = scanAll r ⟨u.reverse ++ behind, v, []⟩ := by
  unfold scanAll
  dsimp only
  rw [scan_append h (Nat.lt_succ_self _)]
  refine scan_fuel ?_ (Nat.lt_succ_self _)
  rw [List.length_append]
  dsimp only
  omega

theorem scanAll_match {r : Pat} {p q : Place} {m : Match} (h : matchAt r p = some (m, q))
    (hlt : q.ahead.length < p.ahead.length) :
    scanAll r p = m :: scanAll r ⟨q.behind, q.ahead, []⟩ := by
  have hgroups : ∀ fuel, scan r fuel q = scan r fuel ⟨q.behind, q.ahead, []⟩ := by
    intro fuel
    cases fuel with
    | zero => rfl
    | succ fuel => rfl
  unfold scanAll
  rw [scan_succ, h]
  dsimp only
  rw [if_pos hlt, hgroups]
  exact congrArg (m :: ·) (scan_fuel hlt (Nat.lt_succ_self _))

theorem scanAll_of_none {r : Pat} {behind rest : List Char} {c : Char}
    (h : matchAt r ⟨behind, c :: rest, []⟩ = none) :
    scanAll r ⟨behind, c :: rest, []⟩ = scanAll r ⟨c :: behind, rest, []⟩ :=
  scan_of_none h _

/-- Text in which there is no match. -/
theorem scanAll_eq_nil {r : Pat} {behind u : List Char} (h : NoMatch r behind u [])
    (hend : ∀ q, q ∉ r.ways ⟨u.reverse ++ behind, [], []⟩) :
    scanAll r ⟨behind, u, []⟩ = [] := by
  rw [← List.append_nil u, scanAll_skip h, scanAll, scan_succ, matchAt_eq_none hend]

/-! ## Removing -/

/-- `pattern.sub("", text)`, from a place on: what is left of the text ahead. -/
def without (r : Pat) : (fuel : ℕ) → Place → List Char
  | 0, _ => []
  | fuel + 1, p =>
    match p.ahead with
    | [] => []
    | c :: rest =>
      match matchAt r p with
      | some (_, q) =>
        if q.ahead.length < p.ahead.length then without r fuel q
        else c :: without r fuel ⟨c :: p.behind, rest, []⟩
      | none => c :: without r fuel ⟨c :: p.behind, rest, []⟩

/-- `pattern.sub("", text)`. -/
def sub (r : Pat) (text : String) : String :=
  String.ofList (without r (text.toList.length + 1) ⟨[], text.toList, []⟩)

section Without

variable {r : Pat} {behind : List Char} {groups : List (ℕ × List Char)}

/-- The groups of the last match do not matter. -/
theorem without_groups (fuel : ℕ) (ahead : List Char) :
    without r fuel ⟨behind, ahead, groups⟩ = without r fuel ⟨behind, ahead, []⟩ := by
  cases fuel with
  | zero => rfl
  | succ fuel => rfl

theorem without_cons (fuel : ℕ) (c : Char) (rest : List Char) :
    without r (fuel + 1) ⟨behind, c :: rest, groups⟩ =
      match matchAt r ⟨behind, c :: rest, groups⟩ with
      | some (_, q) =>
        if q.ahead.length < (c :: rest).length then without r fuel q
        else c :: without r fuel ⟨c :: behind, rest, []⟩
      | none => c :: without r fuel ⟨c :: behind, rest, []⟩ :=
  rfl

theorem without_of_none {c : Char} {rest : List Char}
    (h : matchAt r ⟨behind, c :: rest, groups⟩ = none) (fuel : ℕ) :
    without r (fuel + 1) ⟨behind, c :: rest, groups⟩ =
      c :: without r fuel ⟨c :: behind, rest, []⟩ := by
  rw [without_cons, h]

/-- What is left is part of the text. -/
theorem without_sublist (fuel : ℕ) (p : Place) : (without r fuel p).Sublist p.ahead := by
  induction fuel generalizing p with
  | zero => exact List.nil_sublist _
  | succ fuel ih =>
    unfold without
    split
    · exact List.nil_sublist _
    · rename_i c rest hahead
      have hnext : (c :: without r fuel ⟨c :: p.behind, rest, []⟩).Sublist p.ahead := by
        rw [hahead]
        exact (ih _).cons_cons c
      split
      · rename_i m q hmatch
        obtain ⟨u, -, hpass⟩ := passes_of_matchAt (only_true r) hmatch
        split_ifs with hlt
        · refine (ih q).trans ?_
          rw [hpass.ahead]
          exact List.sublist_append_right u q.ahead
        · exact hnext
      · exact hnext

/-- Text without a match stays. -/
theorem without_append {u v : List Char} (h : NoMatch r behind u v) {fuel : ℕ}
    (hfuel : (u ++ v).length < fuel) :
    without r fuel ⟨behind, u ++ v, groups⟩ =
      u ++ without r (fuel - u.length) ⟨u.reverse ++ behind, v, []⟩ := by
  induction u generalizing behind groups fuel with
  | nil => exact without_groups fuel v
  | cons c u ih =>
    obtain ⟨fuel, rfl⟩ := Nat.exists_eq_succ_of_ne_zero (Nat.ne_zero_of_lt hfuel)
    have hlength : (c :: u).length = u.length + 1 := rfl
    have hbehind : (c :: u).reverse ++ behind = u.reverse ++ c :: behind := by simp
    rw [List.cons_append, List.length_cons] at hfuel
    rw [List.cons_append, without_of_none h.head, ih h.tail (by omega), hlength, hbehind,
      Nat.succ_eq_add_one, Nat.add_sub_add_right, List.cons_append]

/-- All of a text without a match stays. -/
theorem without_eq_self {u : List Char} (h : NoMatch r behind u []) {fuel : ℕ}
    (hfuel : u.length < fuel) : without r fuel ⟨behind, u, groups⟩ = u := by
  have hwithout := @without_append r behind groups u [] h fuel (by rwa [List.append_nil])
  rw [List.append_nil] at hwithout
  rw [hwithout]
  cases fuel - u.length with
  | zero => exact List.append_nil u
  | succ fuel => exact List.append_nil u

/-- A character that the pattern does not take ends every match before it. -/
theorem without_before {f : Char → Bool} (hr : Only f r) {u v : List Char} {d : Char}
    (hd : f d = false) {fuel : ℕ} (hfuel : (u ++ d :: v).length < fuel) :
    ∃ u' fuel', u'.Sublist u ∧ (d :: v).length < fuel' ∧
      without r fuel ⟨behind, u ++ d :: v, groups⟩ =
        u' ++ without r fuel' ⟨u.reverse ++ behind, d :: v, []⟩ := by
  induction fuel generalizing u behind groups with
  | zero => exact absurd hfuel (Nat.not_lt_zero _)
  | succ fuel ih =>
    cases u with
    | nil => exact ⟨[], fuel + 1, List.nil_sublist _, hfuel, without_groups _ _⟩
    | cons c u =>
      have hbehind : (c :: u).reverse ++ behind = u.reverse ++ c :: behind := by simp
      have hnext : ∃ u' fuel', u'.Sublist (c :: u) ∧ (d :: v).length < fuel' ∧
          c :: without r fuel ⟨c :: behind, u ++ d :: v, []⟩ =
            u' ++ without r fuel' ⟨(c :: u).reverse ++ behind, d :: v, []⟩ := by
        obtain ⟨u', fuel', hu', hfuel', heq⟩ := @ih (c :: behind) [] u (by simpa using hfuel)
        exact ⟨c :: u', fuel', hu'.cons_cons c, hfuel', by rw [heq, hbehind, List.cons_append]⟩
      rw [List.cons_append, without_cons]
      cases hmatch : matchAt r ⟨behind, c :: (u ++ d :: v), groups⟩ with
      | none => exact hnext
      | some result =>
        obtain ⟨m, q⟩ := result
        dsimp only
        split_ifs with hlt
        · obtain ⟨w, hw, hpass⟩ := passes_of_matchAt hr hmatch
          -- the match ends before `d`, and the rest of `u` is still ahead
          obtain ⟨rest, hrest, hahead⟩ : ∃ rest, c :: u = w ++ rest ∧ q.ahead = rest ++ d :: v := by
            refine split_before (fun hmem => ?_) hpass.ahead
            rw [hw d hmem] at hd
            cases hd
          have hq : q = ⟨w.reverse ++ behind, rest ++ d :: v, q.groups⟩ := by
            rw [← hahead]
            exact congrArg (fun b => (⟨b, q.ahead, q.groups⟩ : Place)) hpass.behind
          have hshorter : (rest ++ d :: v).length < fuel := by
            rw [← hahead]
            simp only [List.cons_append, List.length_cons] at hlt hfuel
            omega
          obtain ⟨u', fuel', hu', hfuel', hwithout⟩ :=
            @ih (w.reverse ++ behind) q.groups rest hshorter
          refine ⟨u', fuel', ?_, hfuel', ?_⟩
          · rw [hrest]
            exact hu'.trans (List.sublist_append_right w rest)
          · rw [hq, hwithout, hrest, List.reverse_append, List.append_assoc]
        · exact hnext

end Without

end Regex
