import Mathlib.Data.List.Basic
import Mathlib.Logic.Function.Basic

/-!
# Programs that wait for their environment

A service handler is a sequence of calls to stores it does not own.  Between two
calls it computes; at a call it hands over control and gets back either an answer
or an exception.  `Prog` is that shape and nothing else: a program is finished, has
raised, or waits for the outcome of one call.

One program text then has several meanings, and all of them are read off the same
inductive type.

* `exec` runs a program alone against a handler of the commands.  It is a monad
  morphism (`exec_bind`, `exec_tryCatch`), so a sequential run is computed by
  rewriting along the program text.
* `System.stepAt`, folded over a schedule, runs several programs against one shared
  state, one call at a time, and lets the environment move between the calls.
  `head?` is the call a program waits for, which is all an observer of an interleaving
  can see of it.

Exceptions are part of the program and not of the handler: a call returns an
`Except`, and `perform` is the code that lets an exception through.  A handler may
therefore raise after any effect it likes, and what the program does about it is
decided by the program's own `tryCatch`.
-/

namespace Resumption

universe u

/-- A program over the commands `Cmd`, a command `c` being answered in `Ans c`. -/
inductive Prog (Cmd : Type) (Ans : Cmd → Type) (ε : Type) (α : Type) where
  | ret : α → Prog Cmd Ans ε α
  | raise : ε → Prog Cmd Ans ε α
  | call : (c : Cmd) → (Except ε (Ans c) → Prog Cmd Ans ε α) → Prog Cmd Ans ε α

namespace Prog

variable {Cmd : Type} {Ans : Cmd → Type} {ε α β : Type}

/-- Sequencing: an exception skips the rest. -/
def bind : Prog Cmd Ans ε α → (α → Prog Cmd Ans ε β) → Prog Cmd Ans ε β
  | ret a, f => f a
  | raise e, _ => raise e
  | call c k, f => call c fun r => (k r).bind f

/-- The exception handler sees the exceptions of the program and of its calls. -/
def tryCatch : Prog Cmd Ans ε α → (ε → Prog Cmd Ans ε α) → Prog Cmd Ans ε α
  | ret a, _ => ret a
  | raise e, h => h e
  | call c k, h => call c fun r => (k r).tryCatch h

instance : Monad (Prog Cmd Ans ε) where
  pure := ret
  bind := bind

instance : MonadExceptOf ε (Prog Cmd Ans ε) where
  throw := raise
  tryCatch := tryCatch

/-- One call whose exception is not caught on the spot. -/
def perform (c : Cmd) : Prog Cmd Ans ε (Ans c) :=
  call c fun
    | .ok a => ret a
    | .error e => raise e

/-- A transaction: an exception, of the commit too, rolls back. -/
def transaction (begin commit rollback : Prog Cmd Ans ε Unit) (body : Prog Cmd Ans ε α) :
    Prog Cmd Ans ε α := do
  begin
  MonadExcept.tryCatch
    (do
      let result ← body
      commit
      pure result)
    fun e => do
      rollback
      throw e

/-- The call a program waits for. -/
def head? : Prog Cmd Ans ε α → Option Cmd
  | call c _ => some c
  | _ => none

/-- A program that has returned or raised. -/
def finished (p : Prog Cmd Ans ε α) : Prop := p.head? = none

instance (p : Prog Cmd Ans ε α) : Decidable p.finished :=
  decidable_of_iff (p.head?.isNone = true) Option.isNone_iff_eq_none

@[simp] theorem pure_eq (a : α) : (pure a : Prog Cmd Ans ε α) = ret a := rfl

@[simp] theorem throw_eq (e : ε) : (throw e : Prog Cmd Ans ε α) = raise e := rfl

@[simp] theorem ret_bind (a : α) (f : α → Prog Cmd Ans ε β) : (ret a >>= f) = f a := rfl

@[simp] theorem raise_bind (e : ε) (f : α → Prog Cmd Ans ε β) :
    ((raise e : Prog Cmd Ans ε α) >>= f) = raise e := rfl

@[simp] theorem call_bind (c : Cmd) (k : Except ε (Ans c) → Prog Cmd Ans ε α)
    (f : α → Prog Cmd Ans ε β) :
    (call c k >>= f) = call c fun r => k r >>= f := rfl

@[simp] theorem head?_ret (a : α) : (ret a : Prog Cmd Ans ε α).head? = none := rfl

@[simp] theorem head?_raise (e : ε) : (raise e : Prog Cmd Ans ε α).head? = none := rfl

@[simp] theorem head?_call (c : Cmd) (k : Except ε (Ans c) → Prog Cmd Ans ε α) :
    (call c k).head? = some c := rfl

theorem bind_assoc {γ : Type} (p : Prog Cmd Ans ε α) (f : α → Prog Cmd Ans ε β)
    (g : β → Prog Cmd Ans ε γ) : (p >>= f) >>= g = p >>= fun a => f a >>= g := by
  induction p with
  | ret a => rfl
  | raise e => rfl
  | call c k ih => exact congrArg (call c) (funext fun r => ih r)

theorem bind_ret (p : Prog Cmd Ans ε α) : p >>= ret = p := by
  induction p with
  | ret a => rfl
  | raise e => rfl
  | call c k ih => exact congrArg (call c) (funext fun r => ih r)

instance : LawfulMonad (Prog Cmd Ans ε) :=
  LawfulMonad.mk' _ (fun p => bind_ret p) (fun _ _ => rfl) (fun p f g => bind_assoc p f g)

end Prog

/-! ## Running one program alone -/

/-- What a command does to the state `σ`, and what it answers. -/
abbrev Handler (Cmd : Type) (Ans : Cmd → Type) (ε : Type) (σ : Type u) : Type u :=
  (c : Cmd) → σ → Except ε (Ans c) × σ

section Exec

variable {Cmd : Type} {Ans : Cmd → Type} {ε α β : Type} {σ : Type u}

/-- The run of a program against a handler.  The state is kept when the program
raises: what was written before the exception stays written. -/
def exec (h : Handler Cmd Ans ε σ) : Prog Cmd Ans ε α → σ → Except ε α × σ
  | .ret a, s => (.ok a, s)
  | .raise e, s => (.error e, s)
  | .call c k, s => exec h (k (h c s).1) (h c s).2

variable (h : Handler Cmd Ans ε σ)

@[simp] theorem exec_ret (a : α) (s : σ) :
    exec h (.ret a : Prog Cmd Ans ε α) s = (.ok a, s) := rfl

@[simp] theorem exec_raise (e : ε) (s : σ) :
    exec h (.raise e : Prog Cmd Ans ε α) s = (.error e, s) := rfl

@[simp] theorem exec_call (c : Cmd) (k : Except ε (Ans c) → Prog Cmd Ans ε α) (s : σ) :
    exec h (.call c k) s = exec h (k (h c s).1) (h c s).2 := rfl

/-- What follows a program that has stopped with a result. -/
def andThen (r : Except ε α × σ) (f : α → σ → Except ε β × σ) : Except ε β × σ :=
  match r with
  | (.ok a, s) => f a s
  | (.error e, s) => (.error e, s)

@[simp] theorem andThen_ok (a : α) (s : σ) (f : α → σ → Except ε β × σ) :
    andThen (.ok a, s) f = f a s := rfl

@[simp] theorem andThen_error (e : ε) (s : σ) (f : α → σ → Except ε β × σ) :
    andThen ((.error e, s) : Except ε α × σ) f = (.error e, s) := rfl

/-- What follows a program that has stopped with an exception. -/
def rescue (r : Except ε α × σ) (f : ε → σ → Except ε α × σ) : Except ε α × σ :=
  match r with
  | (.ok a, s) => (.ok a, s)
  | (.error e, s) => f e s

@[simp] theorem rescue_ok (a : α) (s : σ) (f : ε → σ → Except ε α × σ) :
    rescue (.ok a, s) f = (.ok a, s) := rfl

@[simp] theorem rescue_error (e : ε) (s : σ) (f : ε → σ → Except ε α × σ) :
    rescue (.error e, s) f = f e s := rfl

/-- **A run of a sequence is the sequence of the runs.** -/
theorem exec_bind (p : Prog Cmd Ans ε α) (f : α → Prog Cmd Ans ε β) (s : σ) :
    exec h (p >>= f) s = andThen (exec h p s) fun a s' => exec h (f a) s' := by
  induction p generalizing s with
  | ret a => rfl
  | raise e => rfl
  | call c k ih => exact ih _ _

/-- A performed command hands its outcome to the rest of the program. -/
theorem exec_perform_bind (c : Cmd) (f : Ans c → Prog Cmd Ans ε β) (s : σ) :
    exec h (Prog.perform c >>= f) s = andThen (h c s) fun a s' => exec h (f a) s' := by
  rw [exec_bind]
  simp only [Prog.perform, exec_call]
  rcases h c s with ⟨_ | _, _⟩ <;> rfl

theorem exec_perform (c : Cmd) (s : σ) :
    exec h (Prog.perform c : Prog Cmd Ans ε (Ans c)) s = h c s := by
  simp only [Prog.perform, exec_call]
  rcases h c s with ⟨_ | _, _⟩ <;> rfl

theorem exec_tryCatch (p : Prog Cmd Ans ε α) (g : ε → Prog Cmd Ans ε α) (s : σ) :
    exec h (tryCatch p g) s =
      match exec h p s with
      | (.ok a, s') => (.ok a, s')
      | (.error e, s') => exec h (g e) s' := by
  induction p generalizing s with
  | ret a => rfl
  | raise e => rfl
  | call c k ih => exact ih _ _

/-- The run of a transaction, by what becomes of its body. -/
theorem exec_transaction (begin commit rollback : Prog Cmd Ans ε Unit) (body : Prog Cmd Ans ε α)
    (s : σ) :
    exec h (Prog.transaction begin commit rollback body) s =
      andThen (exec h begin s) fun _ s₁ =>
        rescue
          (exec h (do
            let result ← body
            commit
            pure result) s₁)
          fun e s₂ => andThen (exec h rollback s₂) fun _ s₃ => (.error e, s₃) := by
  unfold Prog.transaction
  rw [exec_bind]
  congr 1
  funext _ s₁
  rw [exec_tryCatch]
  rcases exec h (body >>= fun result => commit >>= fun _ => pure result) s₁ with ⟨e | a, s₂⟩
  · exact exec_bind h rollback _ s₂
  · rfl

/-- **The invariant rule.**  What every command keeps, every program keeps,
whether it returns or raises. -/
theorem exec_invariant {I : σ → Prop} (hI : ∀ c s, I s → I (h c s).2)
    (p : Prog Cmd Ans ε α) (s : σ) (hs : I s) : I (exec h p s).2 := by
  induction p generalizing s with
  | ret a => exact hs
  | raise e => exact hs
  | call c k ih => exact ih _ _ (hI c s hs)

end Exec

/-! ## A program of a part of the interface -/

section Embed

variable {Cmd Cmd' : Type} {Ans : Cmd → Type} {Ans' : Cmd' → Type} {ε α : Type} {σ : Type u}

/-- The same program, where its commands are some of the commands of a larger interface. -/
def Prog.embed (f : Cmd → Cmd') (g : ∀ c, Ans' (f c) → Ans c) :
    Prog Cmd Ans ε α → Prog Cmd' Ans' ε α
  | .ret a => .ret a
  | .raise e => .raise e
  | .call c k => .call (f c) fun r => (k (r.map (g c))).embed f g

/-- What a handler of the larger interface does to the commands of the part. -/
def Handler.restrict (h : Handler Cmd' Ans' ε σ) (f : Cmd → Cmd') (g : ∀ c, Ans' (f c) → Ans c) :
    Handler Cmd Ans ε σ := fun c s => ((h (f c) s).1.map (g c), (h (f c) s).2)

/-- The embedded program runs as the program does. -/
theorem exec_embed (h : Handler Cmd' Ans' ε σ) (f : Cmd → Cmd') (g : ∀ c, Ans' (f c) → Ans c)
    (p : Prog Cmd Ans ε α) (s : σ) :
    exec h (p.embed f g) s = exec (h.restrict f g) p s := by
  induction p generalizing s with
  | ret a => rfl
  | raise e => rfl
  | call c k ih => exact ih _ _

end Embed

/-! ## Notes about the calls -/

section Noting

variable {Cmd : Type} {Ans : Cmd → Type} {ε α : Type} {σ τ : Type u}

/-- A handler that also keeps notes of what is called and how it is answered.  No program
can read them. -/
def Handler.noting (h : Handler Cmd Ans ε σ) (note : (c : Cmd) → Except ε (Ans c) → σ → τ → τ) :
    Handler Cmd Ans ε (σ × τ) := fun c s =>
  ((h c s.1).1, ((h c s.1).2, note c (h c s.1).1 s.1 s.2))

/-- A program runs as it does without the notes. -/
theorem exec_noting (h : Handler Cmd Ans ε σ) (note : (c : Cmd) → Except ε (Ans c) → σ → τ → τ)
    (p : Prog Cmd Ans ε α) (s : σ × τ) :
    (exec (h.noting note) p s).1 = (exec h p s.1).1 ∧
      (exec (h.noting note) p s).2.1 = (exec h p s.1).2 := by
  induction p generalizing s with
  | ret a => exact ⟨rfl, rfl⟩
  | raise e => exact ⟨rfl, rfl⟩
  | call c k ih => exact ih _ _

end Noting

/-! ## Running several programs against one state -/

/-- Several programs and the state they share. -/
structure System (ι Cmd : Type) (Ans : Cmd → Type) (ε α : Type) (σ : Type u) where
  /-- The state every program reads and writes. -/
  shared : σ
  /-- What is left of each program. -/
  thread : ι → Prog Cmd Ans ε α

namespace System

variable {ι Cmd : Type} [DecidableEq ι] {Ans : Cmd → Type} {ε α : Type} {σ : Type u}

/-- Program `i` makes the call it waits for; a finished program does nothing. -/
def step (h : Handler Cmd Ans ε σ) (y : System ι Cmd Ans ε α σ) (i : ι) :
    System ι Cmd Ans ε α σ :=
  match y.thread i with
  | .call c k => ⟨(h c y.shared).2, Function.update y.thread i (k (h c y.shared).1)⟩
  | _ => y

/-- The environment changes the shared state. -/
def moved {τ : Type} (y : System ι Cmd Ans ε α σ) (move : σ → τ → σ) (t : τ) :
    System ι Cmd Ans ε α σ := ⟨move y.shared t, y.thread⟩

/-- One entry of a schedule: the environment moves, then a program makes a call. -/
def stepAt {τ : Type} (h : Handler Cmd Ans ε σ) (move : σ → τ → σ) (y : System ι Cmd Ans ε α σ)
    (x : ι × τ) : System ι Cmd Ans ε α σ := (y.moved move x.2).step h x.1

/-- Every program has come to its end. -/
def Quiescent (y : System ι Cmd Ans ε α σ) : Prop := ∀ i, (y.thread i).finished

theorem step_of_call {h : Handler Cmd Ans ε σ} {y : System ι Cmd Ans ε α σ} {i : ι} {c : Cmd}
    {k : Except ε (Ans c) → Prog Cmd Ans ε α} (hi : y.thread i = .call c k) :
    y.step h i = ⟨(h c y.shared).2, Function.update y.thread i (k (h c y.shared).1)⟩ := by
  unfold step
  rw [hi]

theorem step_of_finished {h : Handler Cmd Ans ε σ} {y : System ι Cmd Ans ε α σ} {i : ι}
    (hi : (y.thread i).finished) : y.step h i = y := by
  unfold step
  cases hc : y.thread i with
  | ret a => rfl
  | raise e => rfl
  | call c k =>
    rw [hc] at hi
    exact absurd hi (by simp [Prog.finished])

end System

end Resumption
