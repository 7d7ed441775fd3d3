import PersonalIntelligence.Library.Resumption

/-!
# Contracts of programs

What is proved about the state a program leaves behind mostly depends on the calls it
can make, and not on their order.  A `Contract` says which calls these are and how they
are answered, and a program that `Keeps` it is seen to do so in its text, by the rules
for sequencing, catching and single calls.  In every run such a program keeps what its
calls keep (`Keeps.exec_invariant`).

Most of a handler catches nothing.  Such a program is `Straight`, and returns exactly if
no call raises and it raises nothing itself (`Straight.exec_cases`).  `Raised` says of
any program that a call of a run raises.  It speaks about the environment only, so a
condition on a run can be put in terms of it.
-/

namespace Resumption

universe u

/-- What a program may do, and what it may expect. -/
structure Contract (Cmd : Type) (Ans : Cmd → Type) (ε : Type) where
  /-- The calls it may make. -/
  allowed : Cmd → Prop
  /-- The answers it may expect. -/
  answers : (c : Cmd) → Ans c → Prop := fun _ _ => True
  /-- The exceptions of its own. -/
  raises : ε → Prop := fun _ => False

variable {Cmd : Type} {Ans : Cmd → Type} {ε α β : Type} {σ : Type u}

namespace Prog

/-- The program only makes calls of the contract, and a result is as in `post`. -/
def Keeps (C : Contract Cmd Ans ε) (post : α → Prop) : Prog Cmd Ans ε α → Prop
  | ret a => post a
  | raise _ => True
  | call c k => C.allowed c ∧ (∀ e, (k (.error e)).Keeps C post) ∧
      ∀ a, C.answers c a → (k (.ok a)).Keeps C post

/-- The program keeps the contract, raises what the contract says and lets the exceptions
of its calls through. -/
def Straight (C : Contract Cmd Ans ε) (post : α → Prop) : Prog Cmd Ans ε α → Prop
  | ret a => post a
  | raise e => C.raises e
  | call c k => C.allowed c ∧ (∀ e, k (.error e) = raise e) ∧
      ∀ a, C.answers c a → (k (.ok a)).Straight C post

/-- In the run from `s`, one of the calls in `bad` raises. -/
def Raised (h : Handler Cmd Ans ε σ) (bad : Cmd → Prop) : Prog Cmd Ans ε α → σ → Prop
  | ret _, _ => False
  | raise _, _ => False
  | call c k, s => (bad c ∧ ∃ e, (h c s).1 = .error e) ∨ (k (h c s).1).Raised h bad (h c s).2

/-- Whether a call raises can be found out by running the program. -/
instance decidableRaised (h : Handler Cmd Ans ε σ) (bad : Cmd → Prop) [DecidablePred bad] :
    ∀ (p : Prog Cmd Ans ε α) (s : σ), Decidable (p.Raised h bad s)
  | ret _, _ => .isFalse id
  | raise _, _ => .isFalse id
  | call c k, s =>
    have : Decidable (∃ e, (h c s).1 = .error e) :=
      match (h c s).1 with
      | .ok _ => .isFalse fun ⟨_, he⟩ => by cases he
      | .error e => .isTrue ⟨e, rfl⟩
    have := decidableRaised h bad (k (h c s).1) (h c s).2
    inferInstanceAs (Decidable (_ ∨ _))

section Text

variable {C : Contract Cmd Ans ε}

/-! ## Straight programs -/

theorem straight_ret {post : α → Prop} {a : α} :
    (ret a : Prog Cmd Ans ε α).Straight C post ↔ post a := Iff.rfl

theorem straight_raise {post : α → Prop} {e : ε} :
    (raise e : Prog Cmd Ans ε α).Straight C post ↔ C.raises e := Iff.rfl

/-- The rule of sequencing. -/
theorem Straight.bind {mid : α → Prop} {post : β → Prop} {f : α → Prog Cmd Ans ε β} :
    ∀ {p : Prog Cmd Ans ε α}, p.Straight C mid →
      (∀ a, mid a → (f a).Straight C post) → (p >>= f).Straight C post
  | ret a, hp, hf => hf a hp
  | raise _, hp, _ => hp
  | call _ _, ⟨hc, herr, hk⟩, hf => by
    refine ⟨hc, fun e => ?_, fun a ha => (hk a ha).bind hf⟩
    dsimp only
    rw [herr]
    rfl

theorem straight_perform_bind {post : β → Prop} {c : Cmd} {f : Ans c → Prog Cmd Ans ε β}
    (hc : C.allowed c) (hf : ∀ a, C.answers c a → (f a).Straight C post) :
    (perform c >>= f).Straight C post := ⟨hc, fun _ => rfl, hf⟩

theorem straight_perform (c : Cmd) {post : Ans c → Prop} (hc : C.allowed c)
    (hpost : ∀ a, C.answers c a → post a) :
    (perform c : Prog Cmd Ans ε (Ans c)).Straight C post := ⟨hc, fun _ => rfl, hpost⟩

/-- The rule of consequence. -/
theorem Straight.mono {post post' : α → Prop} (hp : ∀ a, post a → post' a) :
    ∀ {p : Prog Cmd Ans ε α}, p.Straight C post → p.Straight C post'
  | ret a, h => hp a h
  | raise _, h => h
  | call _ _, ⟨hc, herr, hk⟩ => ⟨hc, herr, fun a ha => (hk a ha).mono hp⟩

/-- A contract that allows more. -/
theorem Straight.weaken {C' : Contract Cmd Ans ε} {post : α → Prop}
    (ha : ∀ c, C.allowed c → C'.allowed c) (hans : ∀ c a, C'.answers c a → C.answers c a)
    (hr : ∀ e, C.raises e → C'.raises e) :
    ∀ {p : Prog Cmd Ans ε α}, p.Straight C post → p.Straight C' post
  | ret _, h => h
  | raise e, h => hr e h
  | call c _, ⟨hc, herr, hk⟩ =>
    ⟨ha c hc, herr, fun a h => (hk a (hans c a h)).weaken ha hans hr⟩

/-- The rule of a loop over a list. -/
theorem straight_forM {γ : Type} {xs : List γ} {body : γ → Prog Cmd Ans ε PUnit}
    (h : ∀ x ∈ xs, (body x).Straight C fun _ => True) :
    (forM xs body).Straight C fun _ => True := by
  induction xs with
  | nil => exact trivial
  | cons x rest ih =>
    rw [List.forM_cons]
    exact (h x (List.mem_cons_self ..)).bind fun _ _ =>
      ih fun y hy => h y (List.mem_cons_of_mem _ hy)

/-! ## Programs that keep a contract -/

theorem keeps_ret {post : α → Prop} {a : α} :
    (ret a : Prog Cmd Ans ε α).Keeps C post ↔ post a := Iff.rfl

theorem keeps_raise {post : α → Prop} {e : ε} : (raise e : Prog Cmd Ans ε α).Keeps C post :=
  trivial

theorem Keeps.bind {mid : α → Prop} {post : β → Prop} {f : α → Prog Cmd Ans ε β} :
    ∀ {p : Prog Cmd Ans ε α}, p.Keeps C mid →
      (∀ a, mid a → (f a).Keeps C post) → (p >>= f).Keeps C post
  | ret a, hp, hf => hf a hp
  | raise _, _, _ => trivial
  | call _ _, ⟨hc, herr, hk⟩, hf =>
    ⟨hc, fun e => (herr e).bind hf, fun a ha => (hk a ha).bind hf⟩

/-- The rule of catching. -/
theorem Keeps.tryCatch {post : α → Prop} {handle : ε → Prog Cmd Ans ε α}
    (hh : ∀ e, (handle e).Keeps C post) : ∀ {p : Prog Cmd Ans ε α}, p.Keeps C post →
      (MonadExcept.tryCatch p handle).Keeps C post
  | ret _, hp => hp
  | raise e, _ => hh e
  | call _ _, ⟨hc, herr, hk⟩ =>
    ⟨hc, fun e => (herr e).tryCatch hh, fun a ha => (hk a ha).tryCatch hh⟩

theorem keeps_perform_bind {post : β → Prop} {c : Cmd} {f : Ans c → Prog Cmd Ans ε β}
    (hc : C.allowed c) (hf : ∀ a, C.answers c a → (f a).Keeps C post) :
    (perform c >>= f).Keeps C post := ⟨hc, fun _ => trivial, hf⟩

theorem keeps_perform (c : Cmd) {post : Ans c → Prop} (hc : C.allowed c)
    (hpost : ∀ a, C.answers c a → post a) :
    (perform c : Prog Cmd Ans ε (Ans c)).Keeps C post := ⟨hc, fun _ => trivial, hpost⟩

theorem Keeps.weaken {C' : Contract Cmd Ans ε} {post : α → Prop}
    (ha : ∀ c, C.allowed c → C'.allowed c) (hans : ∀ c a, C'.answers c a → C.answers c a) :
    ∀ {p : Prog Cmd Ans ε α}, p.Keeps C post → p.Keeps C' post
  | ret _, h => h
  | raise _, _ => trivial
  | call c _, ⟨hc, herr, hk⟩ =>
    ⟨ha c hc, fun e => (herr e).weaken ha hans, fun a h => (hk a (hans c a h)).weaken ha hans⟩

/-- The rule of consequence. -/
theorem Keeps.mono {post post' : α → Prop} (hp : ∀ a, post a → post' a) :
    ∀ {p : Prog Cmd Ans ε α}, p.Keeps C post → p.Keeps C post'
  | ret a, h => hp a h
  | raise _, _ => trivial
  | call _ _, ⟨hc, herr, hk⟩ => ⟨hc, fun e => (herr e).mono hp, fun a ha => (hk a ha).mono hp⟩

/-- Finished programs keep every contract. -/
theorem keeps_of_finished : ∀ {p : Prog Cmd Ans ε α}, p.finished → p.Keeps C fun _ => True
  | ret _, _ => trivial
  | raise _, _ => trivial
  | call _ _, h => by cases h

/-- The next call is allowed, -/
theorem Keeps.head {post : α → Prop} {c : Cmd} {k : Except ε (Ans c) → Prog Cmd Ans ε α}
    (h : (call c k).Keeps C post) : C.allowed c := h.1

/-- and so is what follows it. -/
theorem Keeps.next {post : α → Prop} {c : Cmd} {k : Except ε (Ans c) → Prog Cmd Ans ε α}
    (hans : ∀ a, C.answers c a) (h : (call c k).Keeps C post) (r : Except ε (Ans c)) :
    (k r).Keeps C post := by
  obtain ⟨-, herr, hk⟩ := h
  cases r with
  | ok a => exact hk a (hans a)
  | error e => exact herr e

/-- A straight program keeps a contract that allows as much and expects as much. -/
theorem Straight.keeps {C' : Contract Cmd Ans ε} {post : α → Prop}
    (ha : ∀ c, C.allowed c → C'.allowed c) (hans : ∀ c a, C'.answers c a → C.answers c a) :
    ∀ {p : Prog Cmd Ans ε α}, p.Straight C post → p.Keeps C' post
  | ret _, h => h
  | raise _, _ => trivial
  | call c _, ⟨hc, herr, hk⟩ => by
    refine ⟨ha c hc, fun e => ?_, fun a h => (hk a (hans c a h)).keeps ha hans⟩
    rw [herr]
    exact keeps_raise

/-! ## Programs up to a call -/

section Until

variable {before act : Cmd → Prop}

/-- The program makes calls of `before`, then one of `act`, and keeps the contract from
there on.  It may keep the contract earlier, without a call of `act`. -/
def Until (before act : Cmd → Prop) (C : Contract Cmd Ans ε) : Prog Cmd Ans ε α → Prop
  | ret _ => True
  | raise _ => True
  | call c k => (before c ∧ ∀ r, (k r).Until before act C) ∨
      (act c ∧ ∀ r, (k r).Keeps C fun _ => True) ∨ (call c k).Keeps C fun _ => True

theorem Keeps.until {post : α → Prop} {p : Prog Cmd Ans ε α} (h : p.Keeps C post) :
    p.Until before act C := by
  cases p with
  | ret a => exact trivial
  | raise e => exact trivial
  | call c k =>
    obtain ⟨hc, herr, hk⟩ := h
    exact .inr (.inr ⟨hc, fun e => (herr e).mono fun _ _ => trivial,
      fun a ha => (hk a ha).mono fun _ _ => trivial⟩)

theorem Until.head {c : Cmd} {k : Except ε (Ans c) → Prog Cmd Ans ε α}
    (h : (call c k).Until before act C) : before c ∨ act c ∨ C.allowed c := by
  rcases h with ⟨hc, -⟩ | ⟨hc, -⟩ | h
  · exact .inl hc
  · exact .inr (.inl hc)
  · exact .inr (.inr h.head)

theorem Until.next {c : Cmd} {k : Except ε (Ans c) → Prog Cmd Ans ε α}
    (hans : ∀ a, C.answers c a) (h : (call c k).Until before act C) (r : Except ε (Ans c)) :
    (k r).Until before act C := by
  rcases h with ⟨-, hk⟩ | ⟨-, hk⟩ | h
  · exact hk r
  · exact (hk r).until
  · exact (h.next hans r).until

theorem until_perform_bind_before {c : Cmd} {f : Ans c → Prog Cmd Ans ε β} (hc : before c)
    (hf : ∀ a, (f a).Until before act C) : (perform c >>= f).Until before act C := by
  refine .inl ⟨hc, fun r => ?_⟩
  cases r with
  | ok a => exact hf a
  | error e => exact trivial

theorem until_perform_bind_act {c : Cmd} {f : Ans c → Prog Cmd Ans ε β} (hc : act c)
    (hf : ∀ a, (f a).Keeps C fun _ => True) : (perform c >>= f).Until before act C := by
  refine .inr (.inl ⟨hc, fun r => ?_⟩)
  cases r with
  | ok a => exact hf a
  | error e => exact keeps_raise

/-- A program whose exceptions are handled within the contract. -/
theorem Until.tryCatch {handle : ε → Prog Cmd Ans ε α}
    (hh : ∀ e, (handle e).Keeps C fun _ => True) :
    ∀ {p : Prog Cmd Ans ε α}, p.Until before act C →
      (MonadExcept.tryCatch p handle).Until before act C
  | ret _, _ => trivial
  | raise e, _ => (hh e).until
  | call _ _, hp => by
    rcases hp with ⟨hc, hk⟩ | ⟨hc, hk⟩ | hp
    · exact .inl ⟨hc, fun r => (hk r).tryCatch hh⟩
    · exact .inr (.inl ⟨hc, fun r => (hk r).tryCatch hh⟩)
    · exact (hp.tryCatch hh).until

/-- What follows keeps the contract. -/
theorem Until.bind {f : α → Prog Cmd Ans ε β} (hf : ∀ a, (f a).Keeps C fun _ => True) :
    ∀ {p : Prog Cmd Ans ε α}, p.Until before act C → (p >>= f).Until before act C
  | ret a, _ => (hf a).until
  | raise _, _ => trivial
  | call _ _, hp => by
    rcases hp with ⟨hc, hk⟩ | ⟨hc, hk⟩ | hp
    · exact .inl ⟨hc, fun r => (hk r).bind hf⟩
    · exact .inr (.inl ⟨hc, fun r => (hk r).bind fun a _ => hf a⟩)
    · exact (hp.bind fun a _ => hf a).until

end Until

end Text

-- From here on a program is seen to be so by the rules alone.
attribute [irreducible] Keeps Straight

end Prog

/-! ## Runs -/

section Runs

open Prog

variable {h : Handler Cmd Ans ε σ} {bad : Cmd → Prop}

/-- A sequence returns if both parts do. -/
theorem exec_bind_eq_ok {p : Prog Cmd Ans ε α} {f : α → Prog Cmd Ans ε β} {s s' : σ} {b : β} :
    exec h (p >>= f) s = (.ok b, s') ↔
      ∃ a s₁, exec h p s = (.ok a, s₁) ∧ exec h (f a) s₁ = (.ok b, s') := by
  rw [exec_bind]
  rcases exec h p s with ⟨_ | a, s₁⟩
  · simp
  · simp

theorem raised_ret {a : α} {s : σ} : ¬ (ret a : Prog Cmd Ans ε α).Raised h bad s := id

theorem raised_bind (p : Prog Cmd Ans ε α) (f : α → Prog Cmd Ans ε β) (s : σ) :
    (p >>= f).Raised h bad s ↔ p.Raised h bad s ∨
      ∃ a s', exec h p s = (.ok a, s') ∧ (f a).Raised h bad s' := by
  induction p generalizing s with
  | ret a =>
    refine ⟨fun hf => .inr ⟨a, s, rfl, hf⟩, ?_⟩
    rintro (hp | ⟨b, s', heq, hf⟩)
    · exact hp.elim
    · cases heq
      exact hf
  | raise e =>
    refine ⟨fun hr => hr.elim, ?_⟩
    rintro (hp | ⟨b, s', heq, hf⟩)
    · exact hp.elim
    · cases heq
  | call c k ih =>
    rw [call_bind, Raised, Raised, ih, or_assoc]
    rfl

theorem raised_tryCatch (p : Prog Cmd Ans ε α) (g : ε → Prog Cmd Ans ε α) (s : σ) :
    (MonadExcept.tryCatch p g).Raised h bad s ↔ p.Raised h bad s ∨
      ∃ e s', exec h p s = (.error e, s') ∧ (g e).Raised h bad s' := by
  induction p generalizing s with
  | ret a =>
    refine ⟨fun hr => hr.elim, ?_⟩
    rintro (hp | ⟨b, s', heq, hf⟩)
    · exact hp.elim
    · cases heq
  | raise e =>
    refine ⟨fun hf => .inr ⟨e, s, rfl, hf⟩, ?_⟩
    rintro (hp | ⟨b, s', heq, hf⟩)
    · exact hp.elim
    · cases heq
      exact hf
  | call c k ih =>
    have hcall : MonadExcept.tryCatch (call c k) g =
        call c fun r => MonadExcept.tryCatch (k r) g := rfl
    rw [hcall, Raised, Raised, ih, or_assoc]
    rfl

theorem raised_perform (c : Cmd) (s : σ) :
    (perform c : Prog Cmd Ans ε (Ans c)).Raised h bad s ↔ bad c ∧ ∃ e, (h c s).1 = .error e := by
  unfold perform Raised
  refine ⟨?_, .inl⟩
  rintro (hc | hk)
  · exact hc
  · cases hr : (h c s).1 with
    | ok a =>
      rw [hr] at hk
      exact hk.elim
    | error e =>
      rw [hr] at hk
      exact hk.elim

section Sequences

variable {p : Prog Cmd Ans ε α} {f : α → Prog Cmd Ans ε β} {c : Cmd}
  {k : Ans c → Prog Cmd Ans ε β} {s s' : σ} {a : α} {b : Ans c} {e : ε}

theorem raised_bind_of_ok (hp : exec h p s = (.ok a, s')) :
    (p >>= f).Raised h bad s ↔ p.Raised h bad s ∨ (f a).Raised h bad s' := by
  rw [raised_bind, hp]
  refine or_congr_right ⟨?_, fun hf => ⟨a, s', rfl, hf⟩⟩
  rintro ⟨b, s₁, heq, hf⟩
  cases heq
  exact hf

theorem raised_bind_of_error (hp : exec h p s = (.error e, s')) :
    (p >>= f).Raised h bad s ↔ p.Raised h bad s := by
  rw [raised_bind, hp]
  refine ⟨?_, .inl⟩
  rintro (hr | ⟨b, s₁, heq, -⟩)
  · exact hr
  · cases heq

theorem raised_perform_of_ok (hc : h c s = (.ok b, s')) :
    ¬ (perform c : Prog Cmd Ans ε (Ans c)).Raised h bad s := by
  rw [raised_perform, hc]
  rintro ⟨-, e, he⟩
  cases he

theorem raised_perform_of_error (hbad : bad c) (hc : h c s = (.error e, s')) :
    (perform c : Prog Cmd Ans ε (Ans c)).Raised h bad s := by
  rw [raised_perform, hc]
  exact ⟨hbad, e, rfl⟩

theorem raised_perform_bind_of_ok (hc : h c s = (.ok b, s')) :
    (perform c >>= k).Raised h bad s ↔ (k b).Raised h bad s' := by
  rw [raised_bind_of_ok ((exec_perform h c s).trans hc)]
  exact or_iff_right (raised_perform_of_ok hc)

theorem raised_perform_bind_of_error (hbad : bad c) (hc : h c s = (.error e, s')) :
    (perform c >>= k).Raised h bad s := by
  rw [raised_bind]
  exact .inl (raised_perform_of_error hbad hc)

end Sequences

variable {C : Contract Cmd Ans ε} {post : α → Prop}

/-- The answers of the environment are the ones a contract expects. -/
def Answers (h : Handler Cmd Ans ε σ) (C : Contract Cmd Ans ε) : Prop :=
  ∀ c s a, (h c s).1 = .ok a → C.answers c a

/-- What a program returns is as its text says. -/
theorem Prog.Keeps.post_of_exec (hans : Answers h C) :
    ∀ {p : Prog Cmd Ans ε α}, p.Keeps C post → ∀ {s a s'}, exec h p s = (.ok a, s') → post a
  | ret b, hp, s, a, s', heq => by
    cases heq
    exact keeps_ret.mp hp
  | raise e, _, s, a, s', heq => by cases heq
  | call c k, hp, s, a, s', heq => by
    unfold Keeps at hp
    obtain ⟨-, herr, hk⟩ := hp
    rw [exec_call] at heq
    cases hr : (h c s).1 with
    | ok b =>
      rw [hr] at heq
      exact (hk b (hans c s b hr)).post_of_exec hans heq
    | error e =>
      rw [hr] at heq
      exact (herr e).post_of_exec hans heq

/-- **The invariant rule of contracts.**  Whether the program returns or raises, what the
allowed calls keep is kept. -/
theorem Prog.Keeps.exec_invariant (hans : Answers h C) {I : σ → Prop}
    (hI : ∀ c s, C.allowed c → I s → I (h c s).2) :
    ∀ {p : Prog Cmd Ans ε α}, p.Keeps C post → ∀ {s}, I s → I (exec h p s).2
  | ret _, _, _, hs => hs
  | raise _, _, _, hs => hs
  | call c k, hp, s, hs => by
    unfold Keeps at hp
    obtain ⟨hc, herr, hk⟩ := hp
    rw [exec_call]
    have hs' := hI c s hc hs
    cases hr : (h c s).1 with
    | ok a => exact (hk a (hans c s a hr)).exec_invariant hans hI hs'
    | error e => exact (herr e).exec_invariant hans hI hs'

/-- A program that makes no call of a kind does not see one raise. -/
theorem Prog.Keeps.not_raised (hans : Answers h C) (hbad : ∀ c, C.allowed c → ¬ bad c) :
    ∀ {p : Prog Cmd Ans ε α}, p.Keeps C post → ∀ s, ¬ p.Raised h bad s
  | ret _, _, _ => raised_ret
  | raise _, _, _ => id
  | call c k, hp, s => by
    unfold Keeps at hp
    obtain ⟨hc, herr, hk⟩ := hp
    rintro (⟨hb, -⟩ | hlater)
    · exact hbad c hc hb
    · cases hr : (h c s).1 with
      | ok a =>
        rw [hr] at hlater
        exact (hk a (hans c s a hr)).not_raised hans hbad _ hlater
      | error e =>
        rw [hr] at hlater
        exact (herr e).not_raised hans hbad _ hlater

/-- **Programs and environments that agree.**  Two environments may differ in the calls in
`bad`, where the first one raises.  A run of the first in which no such call raises is a
run of the second. -/
theorem exec_congr_of_not_raised {h' : Handler Cmd Ans ε σ}
    (hagree : ∀ c s, h c s = h' c s ∨ (bad c ∧ ∃ e, (h c s).1 = .error e)) :
    ∀ {p : Prog Cmd Ans ε α} {s : σ}, ¬ p.Raised h bad s → exec h p s = exec h' p s
  | ret _, _, _ => rfl
  | raise _, _, _ => rfl
  | call c k, s, hno => by
    rw [Raised, not_or] at hno
    have hcall : h c s = h' c s := (hagree c s).resolve_right hno.1
    rw [exec_call, exec_call, ← hcall]
    exact exec_congr_of_not_raised hagree hno.2

/-- A straight program that returns has not seen any call raise. -/
theorem Prog.Straight.not_raised_of_ok (hans : Answers h C) :
    ∀ {p : Prog Cmd Ans ε α}, p.Straight C post → ∀ {s a s'}, exec h p s = (.ok a, s') →
      ¬ p.Raised h bad s
  | ret _, _, _, _, _, _ => raised_ret
  | raise _, _, _, _, _, _ => id
  | call c k, hp, s, a, s', heq => by
    unfold Straight at hp
    obtain ⟨-, herr, hk⟩ := hp
    rw [exec_call] at heq
    rw [Raised]
    cases hr : (h c s).1 with
    | ok b =>
      rw [hr] at heq
      rintro (⟨-, e, he⟩ | hlater)
      · cases he
      · exact (hk b (hans c s b hr)).not_raised_of_ok hans heq hlater
    | error e =>
      rw [hr, herr] at heq
      cases heq

/-- **A straight program without exceptions of its own** returns exactly if no call
raises. -/
theorem Prog.Straight.exec_cases (hans : Answers h C) (hraises : ∀ e, ¬ C.raises e)
    (hbad : ∀ c, C.allowed c → bad c) :
    ∀ {p : Prog Cmd Ans ε α}, p.Straight C post → ∀ s,
      (¬ p.Raised h bad s ∧ ∃ a s', exec h p s = (.ok a, s') ∧ post a) ∨
        (p.Raised h bad s ∧ ∃ e s', exec h p s = (.error e, s'))
  | ret a, hp, s => .inl ⟨raised_ret, a, s, rfl, straight_ret.mp hp⟩
  | raise e, hp, s => absurd (straight_raise.mp hp) (hraises e)
  | call c k, hp, s => by
    unfold Straight at hp
    obtain ⟨hc, herr, hk⟩ := hp
    rw [exec_call, Raised]
    cases hr : (h c s).1 with
    | ok a =>
      rcases (hk a (hans c s a hr)).exec_cases hans hraises hbad (h c s).2 with
        ⟨hno, hret⟩ | ⟨hyes, hraise⟩
      · refine .inl ⟨?_, hret⟩
        rintro (⟨-, e, he⟩ | hlater)
        · cases he
        · exact hno hlater
      · exact .inr ⟨.inr hyes, hraise⟩
    | error e =>
      refine .inr ⟨.inl ⟨hbad c hc, e, rfl⟩, e, (h c s).2, ?_⟩
      rw [herr]
      rfl

/-! ## Programs that report failures

Nothing of such a program hides that a call of `bad` has raised: it may catch the
exception, but it does not go on to return. -/

/-- If a call in `bad` raises, the program does not return. -/
def Prog.Reports (h : Handler Cmd Ans ε σ) (bad : Cmd → Prop) (p : Prog Cmd Ans ε α) : Prop :=
  ∀ ⦃s a s'⦄, exec h p s = (.ok a, s') → ¬ p.Raised h bad s

section Reports

theorem reports_ret (a : α) : (ret a : Prog Cmd Ans ε α).Reports h bad := fun _ _ _ _ => raised_ret

theorem reports_raise (e : ε) : (raise e : Prog Cmd Ans ε α).Reports h bad := fun _ _ _ _ => id

theorem reports_perform (c : Cmd) : (perform c : Prog Cmd Ans ε (Ans c)).Reports h bad := by
  intro s a s' heq
  rw [exec_perform] at heq
  rw [raised_perform, heq]
  rintro ⟨-, e, he⟩
  cases he

/-- The rule of sequencing. -/
theorem Prog.Reports.bind {p : Prog Cmd Ans ε α} {f : α → Prog Cmd Ans ε β}
    (hp : p.Reports h bad) (hf : ∀ a, (f a).Reports h bad) : (p >>= f).Reports h bad := by
  intro s b s' heq
  obtain ⟨a, s₁, hfirst, hrest⟩ := exec_bind_eq_ok.mp heq
  rw [raised_bind_of_ok hfirst, not_or]
  exact ⟨hp hfirst, hf a hrest⟩

/-- A program that makes no call of the kind has nothing to report. -/
theorem Prog.Keeps.reports {p : Prog Cmd Ans ε α} (hp : p.Keeps C post) (hans : Answers h C)
    (hbad : ∀ c, C.allowed c → ¬ bad c) : p.Reports h bad :=
  fun s _ _ _ => hp.not_raised hans hbad s

/-- A transaction throws on what its body and its end have raised. -/
theorem reports_transaction {begin commit rollback : Prog Cmd Ans ε Unit}
    {body : Prog Cmd Ans ε α} (hbegin : begin.Reports h bad) (hbody : body.Reports h bad)
    (hcommit : commit.Reports h bad) :
    (Prog.transaction begin commit rollback body).Reports h bad := by
  refine hbegin.bind fun _ s a s' heq => ?_
  have hall : (body >>= fun result => commit >>= fun _ => pure result).Reports h bad :=
    hbody.bind fun result => hcommit.bind fun _ => reports_ret result
  rw [exec_tryCatch] at heq
  rw [raised_tryCatch, not_or]
  rcases hexec : exec h (body >>= fun result => commit >>= fun _ => pure result) s with
    ⟨e | b, s₁⟩
  · -- the rollback ends with a throw
    rw [hexec] at heq
    obtain ⟨_, s₂, -, hthrow⟩ := exec_bind_eq_ok.mp heq
    cases hthrow
  · refine ⟨hall hexec, ?_⟩
    rintro ⟨e, s₂, herror, -⟩
    cases herror

end Reports

end Runs

end Resumption
