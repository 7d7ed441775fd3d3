import PersonalIntelligence.Library.Resumption

/-!
# Protocols of programs

To reason about an interleaving one wants to know what each program may do next, and
not how its text arrives there.  A protocol is that knowledge: phases, and for each
phase the calls a program may make in it, with the phase each answer leads to.

`Prog.Follows` says that a program keeps to a protocol from a phase on.  It is proved
once, along the program text, by the rules for sequencing, catching and single calls.
After that an interleaving is a walk of phases (`System.follows_step`), and an invariant
of the shared state and the phases is checked call by call (`System.walk_invariant`)
without the text of any program.

Only calls that succeed are considered: a protocol describes the runs in which the
environment answers.
-/

namespace Resumption

variable {Cmd : Type} {Ans : Cmd → Type} {ε α β Γ : Type}

/-- In the phase `g` the call `c` may be made, and the answer `a` leads to `g'`. -/
abbrev Protocol (Cmd : Type) (Ans : Cmd → Type) (Γ : Type) :=
  Γ → (c : Cmd) → Ans c → Γ → Prop

namespace Prog

variable {P : Protocol Cmd Ans Γ}

/-- From the phase `g` on, every call of the program is one the protocol allows, and the
program ends with a result and a phase as in `post`. -/
def Follows (P : Protocol Cmd Ans Γ) (post : α → Γ → Prop) : Prog Cmd Ans ε α → Γ → Prop
  | ret a, g => post a g
  | raise _, _ => False
  | call c k, g => ∀ a, ∃ g', P g c a g' ∧ (k (.ok a)).Follows P post g'

theorem follows_ret {post : α → Γ → Prop} {a : α} {g : Γ} :
    (ret a : Prog Cmd Ans ε α).Follows P post g ↔ post a g := Iff.rfl

theorem not_follows_raise {post : α → Γ → Prop} {e : ε} {g : Γ} :
    ¬ (raise e : Prog Cmd Ans ε α).Follows P post g := id

theorem follows_call {post : α → Γ → Prop} {c : Cmd}
    {k : Except ε (Ans c) → Prog Cmd Ans ε α} {g : Γ} :
    (call c k).Follows P post g ↔ ∀ a, ∃ g', P g c a g' ∧ (k (.ok a)).Follows P post g' := Iff.rfl

/-- The rule of sequencing. -/
theorem Follows.bind {mid : α → Γ → Prop} {post : β → Γ → Prop} {f : α → Prog Cmd Ans ε β} :
    ∀ {p : Prog Cmd Ans ε α} {g : Γ}, p.Follows P mid g →
      (∀ a g', mid a g' → (f a).Follows P post g') → (p >>= f).Follows P post g
  | ret a, g, hp, hf => hf a g hp
  | raise e, _, hp, _ => hp.elim
  | call c k, g, hp, hf => fun a => by
    obtain ⟨g', hstep, hk⟩ := hp a
    exact ⟨g', hstep, hk.bind hf⟩

/-- The rule of a call followed by the rest of the program. -/
theorem follows_perform_bind {post : β → Γ → Prop} {c : Cmd} {f : Ans c → Prog Cmd Ans ε β}
    {g : Γ} (h : ∀ a, ∃ g', P g c a g' ∧ (f a).Follows P post g') :
    (perform c >>= f).Follows P post g := h

theorem follows_perform (c : Cmd) {post : Ans c → Γ → Prop} {g : Γ}
    (h : ∀ a, ∃ g', P g c a g' ∧ post a g') :
    (perform c : Prog Cmd Ans ε (Ans c)).Follows P post g := h

/-- A program that does not raise leaves nothing to catch. -/
theorem Follows.tryCatch {post : α → Γ → Prop} {handle : ε → Prog Cmd Ans ε α} :
    ∀ {p : Prog Cmd Ans ε α} {g : Γ}, p.Follows P post g →
      (MonadExcept.tryCatch p handle).Follows P post g
  | ret _, _, hp => hp
  | raise _, _, hp => hp.elim
  | call _ _, _, hp => fun a => by
    obtain ⟨g', hstep, hk⟩ := hp a
    exact ⟨g', hstep, hk.tryCatch⟩

/-- The rule of consequence. -/
theorem Follows.mono {post post' : α → Γ → Prop} (h : ∀ a g, post a g → post' a g) :
    ∀ {p : Prog Cmd Ans ε α} {g : Γ}, p.Follows P post g → p.Follows P post' g
  | ret a, g, hp => h a g hp
  | raise _, _, hp => hp.elim
  | call _ _, _, hp => fun a => by
    obtain ⟨g', hstep, hk⟩ := hp a
    exact ⟨g', hstep, hk.mono h⟩

-- From here on a program is followed by the rules, and not by computing its text.
attribute [irreducible] Follows

end Prog

namespace System

universe u

variable {ι : Type} [DecidableEq ι] {σ : Type u} {P : Protocol Cmd Ans Γ} {post : α → Γ → Prop}
  {h : Handler Cmd Ans ε σ}

/-- Each program keeps to the protocol from its phase on. -/
def Follows (P : Protocol Cmd Ans Γ) (post : α → Γ → Prop) (y : System ι Cmd Ans ε α σ)
    (phase : ι → Γ) : Prop := ∀ i, (y.thread i).Follows P post (phase i)

/-- **One call of an interleaving** moves one phase along the protocol. -/
theorem follows_step {y : System ι Cmd Ans ε α σ} {phase : ι → Γ} (hy : y.Follows P post phase)
    {i : ι} {c : Cmd} (hi : (y.thread i).head? = some c) {a : Ans c}
    (ha : (h c y.shared).1 = .ok a) :
    ∃ g', P (phase i) c a g' ∧ (y.step h i).shared = (h c y.shared).2 ∧
      (y.step h i).Follows P post (Function.update phase i g') := by
  cases hp : y.thread i with
  | ret b => rw [hp] at hi; cases hi
  | raise e => rw [hp] at hi; cases hi
  | call d k =>
    rw [hp] at hi
    obtain rfl : d = c := Option.some.inj hi
    have hfollows := hy i
    rw [hp, Prog.follows_call] at hfollows
    obtain ⟨g', hstep, hk⟩ := hfollows a
    rw [step_of_call hp, ha]
    refine ⟨g', hstep, rfl, fun j => ?_⟩
    change Prog.Follows P post (Function.update y.thread i (k (.ok a)) j)
      (Function.update phase i g' j)
    by_cases hj : j = i
    · subst hj
      rw [Function.update_self, Function.update_self]
      exact hk
    · rw [Function.update_of_ne hj, Function.update_of_ne hj]
      exact hy j

omit [DecidableEq ι] in
/-- A finished program is in a phase in which it may end. -/
theorem Follows.post_of_finished {y : System ι Cmd Ans ε α σ} {phase : ι → Γ}
    (hy : y.Follows P post phase) {i : ι} (hi : (y.thread i).finished) :
    ∃ a, post a (phase i) := by
  have hfollows := hy i
  cases hp : y.thread i with
  | ret a =>
    rw [hp, Prog.follows_ret] at hfollows
    exact ⟨a, hfollows⟩
  | raise e =>
    rw [hp] at hfollows
    exact absurd hfollows Prog.not_follows_raise
  | call c k =>
    rw [hp] at hi
    cases hi

omit [DecidableEq ι] in
/-- A program in a phase in which it may not end waits for a call the phase allows, if
calls have answers at all. -/
theorem Follows.head_of_phase {y : System ι Cmd Ans ε α σ} {phase : ι → Γ}
    (hy : y.Follows P post phase) (hans : ∀ c, Nonempty (Ans c)) {i : ι}
    (hi : ∀ a, ¬ post a (phase i)) :
    ∃ c, (y.thread i).head? = some c ∧ ∃ a g', P (phase i) c a g' := by
  have hfollows := hy i
  cases hp : y.thread i with
  | ret a =>
    rw [hp, Prog.follows_ret] at hfollows
    exact absurd hfollows (hi a)
  | raise e =>
    rw [hp] at hfollows
    exact absurd hfollows Prog.not_follows_raise
  | call c k =>
    rw [hp, Prog.follows_call] at hfollows
    obtain ⟨a⟩ := hans c
    obtain ⟨g', hg', -⟩ := hfollows a
    exact ⟨c, rfl, a, g', hg'⟩

variable {τ : Type} {move : σ → τ → σ}

/-- Every step of the schedule is taken where `permitted` holds of the system and the
stepping program. -/
def AllSteps (h : Handler Cmd Ans ε σ) (move : σ → τ → σ)
    (permitted : System ι Cmd Ans ε α σ → ι → Prop) :
    List (ι × τ) → System ι Cmd Ans ε α σ → Prop
  | [], _ => True
  | x :: rest, y => permitted (y.moved move x.2) x.1 ∧
      AllSteps h move permitted rest (y.stepAt h move x)

instance instDecidableAllSteps {permitted : System ι Cmd Ans ε α σ → ι → Prop}
    [∀ y i, Decidable (permitted y i)] :
    ∀ (schedule : List (ι × τ)) (y : System ι Cmd Ans ε α σ),
      Decidable (AllSteps h move permitted schedule y)
  | [], _ => isTrue trivial
  | x :: rest, y =>
    match instDecidableAllSteps rest (y.stepAt h move x) with
    | isTrue hrest =>
      if hhere : permitted (y.moved move x.2) x.1 then isTrue ⟨hhere, hrest⟩
      else isFalse fun h => hhere h.1
    | isFalse hrest => isFalse fun h => hrest h.2

/-- **The invariant rule of interleavings.**  Let the environment answer every call, and
let it move the shared state between the calls.  An invariant of the shared state and
the phases that its moves keep, and that is kept by every call the protocol allows where
`permitted` holds, holds after every schedule whose steps are all permitted. -/
theorem walk_invariant {permitted : System ι Cmd Ans ε α σ → ι → Prop}
    (hok : ∀ c s, ∃ a, (h c s).1 = .ok a) {I : σ → (ι → Γ) → Prop}
    (hmove : ∀ s t phase, I s phase → I (move s t) phase)
    (hstep : ∀ (y : System ι Cmd Ans ε α σ) (phase : ι → Γ) (i : ι) (c : Cmd) (a : Ans c) (g' : Γ),
      y.Follows P post phase → I y.shared phase → permitted y i →
      (y.thread i).head? = some c → (h c y.shared).1 = .ok a → P (phase i) c a g' →
      I (h c y.shared).2 (Function.update phase i g')) :
    ∀ (schedule : List (ι × τ)) (y : System ι Cmd Ans ε α σ) (phase : ι → Γ),
      y.Follows P post phase → I y.shared phase → AllSteps h move permitted schedule y →
      ∃ phase', (schedule.foldl (stepAt h move) y).Follows P post phase' ∧
        I (schedule.foldl (stepAt h move) y).shared phase' := by
  intro schedule
  induction schedule with
  | nil => exact fun y phase hy hI _ => ⟨phase, hy, hI⟩
  | cons x rest ih =>
    rintro y phase hy hI ⟨hhere, hlater⟩
    have hmoved : (y.moved move x.2).Follows P post phase := hy
    have hImoved : I (y.moved move x.2).shared phase := hmove y.shared x.2 phase hI
    obtain ⟨phase', hfollows, hI'⟩ : ∃ phase', (y.stepAt h move x).Follows P post phase' ∧
        I (y.stepAt h move x).shared phase' := by
      cases hi : ((y.moved move x.2).thread x.1).head? with
      | none =>
        rw [stepAt, step_of_finished hi]
        exact ⟨phase, hmoved, hImoved⟩
      | some c =>
        obtain ⟨a, ha⟩ := hok c (y.moved move x.2).shared
        obtain ⟨g', hg', hshared, hfollows⟩ := follows_step hmoved hi ha
        refine ⟨_, hfollows, ?_⟩
        rw [stepAt, hshared]
        exact hstep _ phase x.1 c a g' hmoved hImoved hhere hi ha hg'
    exact ih _ phase' hfollows hI' hlater

end System

end Resumption
