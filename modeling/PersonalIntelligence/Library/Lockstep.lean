import PersonalIntelligence.Library.Resumption

/-!
# Two runs in lockstep

A statement about two runs of one program, on states that differ in something the program
is not to reveal, is proved by running the two side by side.  A `Correspondence` says which
call of the second run goes with a call of the first, and which answers go together.
`Lockstep` relates two programs that make corresponding calls as long as their answers
correspond.  It is seen in the two texts by the rules for sequencing, catching and single
calls, and it relates their runs (`Lockstep.exec`).
-/

namespace Resumption

universe u v

/-- The calls and the answers of the second run that go with those of the first. -/
structure Correspondence (Cmd : Type) (Ans : Cmd → Type) where
  cmd : Cmd → Cmd
  ans : (c : Cmd) → Ans c → Ans (cmd c) → Prop

/-- The outcomes of two runs, which return both or raise the same. -/
inductive SameOutcome {ε α β : Type} (post : α → β → Prop) : Except ε α → Except ε β → Prop
  | ok {a : α} {b : β} (h : post a b) : SameOutcome post (.ok a) (.ok b)
  | error (e : ε) : SameOutcome post (.error e) (.error e)

variable {Cmd : Type} {Ans : Cmd → Type} {ε α β γ δ : Type} {R : Correspondence Cmd Ans}

namespace Prog

/-- The programs make corresponding calls, as long as the answers correspond, and end
alike. -/
def Lockstep (R : Correspondence Cmd Ans) (post : α → β → Prop) :
    Prog Cmd Ans ε α → Prog Cmd Ans ε β → Prop
  | ret a, q => ∃ b, q = ret b ∧ post a b
  | raise e, q => q = raise e
  | call c k, q => ∃ k', q = call (R.cmd c) k' ∧
      (∀ e, (k (.error e)).Lockstep R post (k' (.error e))) ∧
      ∀ a a', R.ans c a a' → (k (.ok a)).Lockstep R post (k' (.ok a'))

theorem lockstep_ret {post : α → β → Prop} {a : α} {b : β} (h : post a b) :
    (ret a : Prog Cmd Ans ε α).Lockstep R post (ret b) := ⟨b, rfl, h⟩

theorem lockstep_raise {post : α → β → Prop} (e : ε) :
    (raise e : Prog Cmd Ans ε α).Lockstep R post (raise e) := rfl

/-- The rule of sequencing. -/
theorem Lockstep.bind {mid : α → β → Prop} {post : γ → δ → Prop} {f : α → Prog Cmd Ans ε γ}
    {g : β → Prog Cmd Ans ε δ} : ∀ {p : Prog Cmd Ans ε α} {q : Prog Cmd Ans ε β},
      p.Lockstep R mid q → (∀ a b, mid a b → (f a).Lockstep R post (g b)) →
        (p >>= f).Lockstep R post (q >>= g)
  | ret _, _, ⟨b, rfl, hab⟩, hf => hf _ b hab
  | raise _, _, rfl, _ => rfl
  | call _ _, _, ⟨k', rfl, herr, hk⟩, hf =>
    ⟨fun r => k' r >>= g, rfl, fun e => (herr e).bind hf, fun a a' ha => (hk a a' ha).bind hf⟩

/-- The rule of a call followed by the rest of the program. -/
theorem lockstep_perform_bind {post : γ → δ → Prop} (c : Cmd) {f : Ans c → Prog Cmd Ans ε γ}
    {g : Ans (R.cmd c) → Prog Cmd Ans ε δ}
    (h : ∀ a a', R.ans c a a' → (f a).Lockstep R post (g a')) :
    (perform c >>= f).Lockstep R post (perform (R.cmd c) >>= g) :=
  ⟨_, rfl, fun e => lockstep_raise e, h⟩

theorem lockstep_perform (c : Cmd) {post : Ans c → Ans (R.cmd c) → Prop}
    (h : ∀ a a', R.ans c a a' → post a a') :
    (perform c : Prog Cmd Ans ε (Ans c)).Lockstep R post (perform (R.cmd c)) :=
  ⟨_, rfl, fun e => lockstep_raise e, fun a a' ha => lockstep_ret (h a a' ha)⟩

/-- The rule of catching. -/
theorem Lockstep.tryCatch {post : α → β → Prop} {f : ε → Prog Cmd Ans ε α}
    {g : ε → Prog Cmd Ans ε β} (hf : ∀ e, (f e).Lockstep R post (g e)) :
    ∀ {p : Prog Cmd Ans ε α} {q : Prog Cmd Ans ε β}, p.Lockstep R post q →
      (MonadExcept.tryCatch p f).Lockstep R post (MonadExcept.tryCatch q g)
  | ret _, _, ⟨b, rfl, hab⟩ => ⟨b, rfl, hab⟩
  | raise e, _, rfl => hf e
  | call _ _, _, ⟨k', rfl, herr, hk⟩ =>
    ⟨fun r => MonadExcept.tryCatch (k' r) g, rfl, fun e => (herr e).tryCatch hf,
      fun a a' ha => (hk a a' ha).tryCatch hf⟩

/-- The rule of transactions. -/
theorem Lockstep.transaction {post : α → β → Prop} {begin commit rollback begin' commit'
    rollback' : Prog Cmd Ans ε Unit} {p : Prog Cmd Ans ε α} {q : Prog Cmd Ans ε β}
    (hbegin : begin.Lockstep R (fun _ _ => True) begin')
    (hcommit : commit.Lockstep R (fun _ _ => True) commit')
    (hrollback : rollback.Lockstep R (fun _ _ => True) rollback') (hp : p.Lockstep R post q) :
    (Prog.transaction begin commit rollback p).Lockstep R post
      (Prog.transaction begin' commit' rollback' q) := by
  refine hbegin.bind fun _ _ _ => Lockstep.tryCatch (fun e => ?_) ?_
  · exact hrollback.bind fun _ _ _ => lockstep_raise e
  · exact hp.bind fun a b hab => hcommit.bind fun _ _ _ => lockstep_ret hab

-- From here on two programs are seen to be in lockstep by the rules alone.
attribute [irreducible] Lockstep

end Prog

variable {σ : Type u} {τ : Type v} {h : Handler Cmd Ans ε σ} {h' : Handler Cmd Ans ε τ}

/-- **Two programs in lockstep** have runs that end alike, in states related as corresponding
calls relate them. -/
theorem Prog.Lockstep.exec {I : σ → τ → Prop} {post : α → β → Prop}
    (hI : ∀ c s t, I s t → I (h c s).2 (h' (R.cmd c) t).2 ∧
      SameOutcome (R.ans c) (h c s).1 (h' (R.cmd c) t).1) :
    ∀ {p : Prog Cmd Ans ε α} {q : Prog Cmd Ans ε β}, p.Lockstep R post q → ∀ {s t}, I s t →
      I (Resumption.exec h p s).2 (Resumption.exec h' q t).2 ∧
        SameOutcome post (Resumption.exec h p s).1 (Resumption.exec h' q t).1 := by
  intro p
  induction p with
  | ret a =>
    intro q hpq s t hst
    unfold Prog.Lockstep at hpq
    obtain ⟨b, rfl, hab⟩ := hpq
    exact ⟨hst, .ok hab⟩
  | raise e =>
    intro q hpq s t hst
    unfold Prog.Lockstep at hpq
    obtain rfl := hpq
    exact ⟨hst, .error e⟩
  | call c k ih =>
    intro q hpq s t hst
    unfold Prog.Lockstep at hpq
    obtain ⟨k', rfl, herr, hk⟩ := hpq
    obtain ⟨hst', hanswer⟩ := hI c s t hst
    rw [exec_call, exec_call]
    cases hr : (h c s).1 with
    | ok a =>
      rw [hr] at hanswer
      cases hr' : (h' (R.cmd c) t).1 with
      | ok a' =>
        rw [hr'] at hanswer
        cases hanswer with
        | ok ha => exact ih _ (hk a a' ha) hst'
      | error e' =>
        rw [hr'] at hanswer
        cases hanswer
    | error e =>
      rw [hr] at hanswer
      cases hr' : (h' (R.cmd c) t).1 with
      | ok a' =>
        rw [hr'] at hanswer
        cases hanswer
      | error e' =>
        rw [hr'] at hanswer
        cases hanswer with
        | error => exact ih _ (herr e) hst'

end Resumption
