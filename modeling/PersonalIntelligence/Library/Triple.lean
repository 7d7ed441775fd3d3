import PersonalIntelligence.Library.Contract

/-!
# Triples

A program that raises leaves a state behind as well, so a triple has two postconditions:
what holds with the result it returns, and what holds where it raises.  A contract gives a
triple (`Keeps.triple`), and triples are put together along the program text.

A triple is about states only.  Where it matters which calls have raised, the handler is
watched: `Handler.watching` puts into the state whether a call of some kind has raised
(`seen_exec_watching_iff`), and the postconditions can mention it.
-/

namespace Resumption

open Prog

variable {Cmd : Type} {Ans : Cmd → Type} {ε α β : Type}

section Triples

variable {σ : Type}

/-- From a state of `P` the program returns as in `Q` or raises in a state of `E`. -/
def Triple (h : Handler Cmd Ans ε σ) (P : σ → Prop) (p : Prog Cmd Ans ε α) (Q : α → σ → Prop)
    (E : σ → Prop) : Prop :=
  ∀ s, P s →
    (∃ a s', exec h p s = (.ok a, s') ∧ Q a s') ∨ ∃ e s', exec h p s = (.error e, s') ∧ E s'

variable {h : Handler Cmd Ans ε σ} {P P' E E' : σ → Prop} {Q Q' : α → σ → Prop}

theorem triple_ret {a : α} (hP : ∀ s, P s → Q a s) :
    Triple h P (ret a : Prog Cmd Ans ε α) Q E := fun s hs => .inl ⟨a, s, rfl, hP s hs⟩

theorem triple_raise {e : ε} (hP : ∀ s, P s → E s) :
    Triple h P (raise e : Prog Cmd Ans ε α) Q E := fun s hs => .inr ⟨e, s, rfl, hP s hs⟩

/-- The rule of consequence. -/
theorem Triple.conseq {p : Prog Cmd Ans ε α} (hp : Triple h P p Q E) (hP : ∀ s, P' s → P s)
    (hQ : ∀ a s, Q a s → Q' a s) (hE : ∀ s, E s → E' s) : Triple h P' p Q' E' := by
  intro s hs
  rcases hp s (hP s hs) with ⟨a, s', hexec, ha⟩ | ⟨e, s', hexec, he⟩
  · exact .inl ⟨a, s', hexec, hQ a s' ha⟩
  · exact .inr ⟨e, s', hexec, hE s' he⟩

/-- The rule of sequencing. -/
theorem Triple.bind {p : Prog Cmd Ans ε α} {f : α → Prog Cmd Ans ε β} {R : β → σ → Prop}
    (hp : Triple h P p Q E) (hf : ∀ a, Triple h (Q a) (f a) R E) : Triple h P (p >>= f) R E := by
  intro s hs
  rw [exec_bind]
  rcases hp s hs with ⟨a, s', hexec, ha⟩ | ⟨e, s', hexec, he⟩
  · rw [hexec]
    exact hf a s' ha
  · rw [hexec]
    exact .inr ⟨e, s', rfl, he⟩

/-- The rule of a single call. -/
theorem triple_perform {c : Cmd} {Q : Ans c → σ → Prop}
    (hc : ∀ s, P s →
      (∃ a s', h c s = (.ok a, s') ∧ Q a s') ∨ ∃ e s', h c s = (.error e, s') ∧ E s') :
    Triple h P (perform c : Prog Cmd Ans ε (Ans c)) Q E := by
  intro s hs
  rw [exec_perform]
  exact hc s hs

/-- The rule of catching. -/
theorem Triple.tryCatch {p : Prog Cmd Ans ε α} {handle : ε → Prog Cmd Ans ε α}
    (hp : Triple h P p Q E) (hh : ∀ e, Triple h E (handle e) Q E') :
    Triple h P (MonadExcept.tryCatch p handle) Q E' := by
  intro s hs
  rw [exec_tryCatch]
  rcases hp s hs with ⟨a, s', hexec, ha⟩ | ⟨e, s', hexec, he⟩
  · rw [hexec]
    exact .inl ⟨a, s', rfl, ha⟩
  · rw [hexec]
    exact hh e s' he

/-- What the calls of a contract keep is a triple of every program that keeps the contract. -/
theorem Prog.Keeps.triple {C : Contract Cmd Ans ε} {post : α → Prop} (hans : Answers h C)
    {I : σ → Prop} (hI : ∀ c s, C.allowed c → I s → I (h c s).2) {p : Prog Cmd Ans ε α}
    (hp : p.Keeps C post) : Triple h I p (fun a s => post a ∧ I s) I := by
  intro s hs
  have hinv := hp.exec_invariant hans hI hs
  rcases hexec : exec h p s with ⟨e | a, s'⟩
  · rw [hexec] at hinv
    exact .inr ⟨e, s', rfl, hinv⟩
  · rw [hexec] at hinv
    exact .inl ⟨a, s', rfl, hp.post_of_exec hans hexec, hinv⟩

/-- The state a program leaves behind, whichever way it ends. -/
theorem Triple.final {p : Prog Cmd Ans ε α} (hp : Triple h P p (fun _ => E) E) {s : σ} (hs : P s) :
    E (exec h p s).2 := by
  rcases hp s hs with ⟨a, s', hexec, hs'⟩ | ⟨e, s', hexec, hs'⟩
  · rwa [hexec]
  · rwa [hexec]

/-- The rule of transactions: what is left when the body or the commit raises is rolled
back. -/
theorem Triple.transaction {begin commit rollback : Prog Cmd Ans ε Unit} {p : Prog Cmd Ans ε α}
    {B F : σ → Prop} (hbegin : Triple h P begin (fun _ => B) E) (hp : Triple h B p Q F)
    (hcommit : ∀ a, Triple h (Q a) commit (fun _ => Q' a) F)
    (hrollback : Triple h F rollback (fun _ => E) E) :
    Triple h P (Prog.transaction begin commit rollback p) Q' E := by
  refine hbegin.bind fun _ => Triple.tryCatch (E := F) ?_ fun e => ?_
  · exact hp.bind fun a => (hcommit a).bind fun _ => triple_ret fun _ hs => hs
  · exact hrollback.bind fun _ => triple_raise fun _ hs => hs

end Triples

/-! ## What has raised -/

section Watching

variable {σ : Type} (h : Handler Cmd Ans ε σ) (bad : Cmd → Prop) [DecidablePred bad]

/-- A handler that also remembers whether a call in `bad` has raised. -/
def Handler.watching : Handler Cmd Ans ε (σ × Bool) :=
  h.noting fun c answer _ seen => seen || (decide (bad c) && !answer.isOk)

theorem watching_of_ok {c : Cmd} {a : Ans c} {s s' : σ} (hc : h c s = (.ok a, s')) (seen : Bool) :
    h.watching bad c (s, seen) = (.ok a, (s', seen)) := by
  simp [Handler.watching, Handler.noting, hc, Except.isOk, Except.toBool]

theorem watching_of_error {c : Cmd} {e : ε} {s s' : σ} (hc : h c s = (.error e, s'))
    (seen : Bool) : h.watching bad c (s, seen) = (.error e, (s', seen || decide (bad c))) := by
  simp [Handler.watching, Handler.noting, hc, Except.isOk, Except.toBool]

/-- The program runs as it does unwatched. -/
theorem exec_watching (p : Prog Cmd Ans ε α) (t : σ × Bool) :
    (exec (h.watching bad) p t).2.1 = (exec h p t.1).2 := (exec_noting h _ p t).2

/-- It is remembered whether a call in `bad` raises. -/
theorem seen_exec_watching_iff : ∀ (p : Prog Cmd Ans ε α) (s : σ) (seen : Bool),
    (exec (h.watching bad) p (s, seen)).2.2 = true ↔ seen = true ∨ p.Raised h bad s
  | ret a, s, seen => (or_iff_left id).symm
  | raise e, s, seen => (or_iff_left id).symm
  | call c k, s, seen => by
    rw [exec_call, Raised]
    rcases hc : h c s with ⟨e | a, s'⟩
    · rw [watching_of_error h bad hc, seen_exec_watching_iff (k (.error e)) s', Bool.or_eq_true,
        decide_eq_true_eq, or_assoc]
      simp
    · rw [watching_of_ok h bad hc, seen_exec_watching_iff (k (.ok a)) s']
      simp

/-- What has been seen stays seen. -/
theorem triple_seen (p : Prog Cmd Ans ε α) :
    Triple (h.watching bad) (fun t => t.2 = true) p (fun _ t => t.2 = true)
      (fun t => t.2 = true) := by
  rintro ⟨s, seen⟩ hseen
  have hlater := (seen_exec_watching_iff h bad p s seen).mpr (.inl hseen)
  rcases hexec : exec (h.watching bad) p (s, seen) with ⟨e | a, t⟩
  · rw [hexec] at hlater
    exact .inr ⟨e, t, rfl, hlater⟩
  · rw [hexec] at hlater
    exact .inl ⟨a, t, rfl, hlater⟩

end Watching

end Resumption
