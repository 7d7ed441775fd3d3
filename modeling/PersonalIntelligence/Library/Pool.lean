import PersonalIntelligence.Library.Resumption

/-!
# Pools of programs

A service that starts programs as it runs has a pool of them: each with a label, and what
is left of it.  `Pool.advance` lets one of them make its next call.  Programs are added at
the end and are never removed, so a place in the pool is a name.

To go on is to do nothing or to make one call (`Pool.advance_cases`).
-/

namespace Resumption

universe u

variable {Cmd : Type} {Ans : Cmd → Type} {ε α κ : Type} {σ : Type u}

namespace Prog

/-- The next call of a program, if it has one. -/
def next (h : Handler Cmd Ans ε σ) : Prog Cmd Ans ε α → σ → Prog Cmd Ans ε α × σ
  | call c k, s => (k (h c s).1, (h c s).2)
  | ret a, s => (ret a, s)
  | raise e, s => (raise e, s)

end Prog

namespace Pool

variable {h : Handler Cmd Ans ε σ} {pool : List (κ × Prog Cmd Ans ε α)} {i : ℕ} {s : σ}

/-- The program in place `i` makes its next call. -/
def advance (h : Handler Cmd Ans ε σ) (pool : List (κ × Prog Cmd Ans ε α)) (i : ℕ) (s : σ) :
    List (κ × Prog Cmd Ans ε α) × σ :=
  match pool[i]? with
  | none => (pool, s)
  | some (label, p) => (pool.set i (label, (p.next h s).1), (p.next h s).2)

/-- Either nothing happens, or a program makes a call. -/
theorem advance_cases (h : Handler Cmd Ans ε σ) (pool : List (κ × Prog Cmd Ans ε α)) (i : ℕ)
    (s : σ) : advance h pool i s = (pool, s) ∨
      ∃ label c k, pool[i]? = some (label, .call c k) ∧
        advance h pool i s = (pool.set i (label, k (h c s).1), (h c s).2) := by
  unfold advance
  cases hi : pool[i]? with
  | none => exact .inl rfl
  | some entry =>
    obtain ⟨label, p⟩ := entry
    have hsame : ∀ q, p = q → q.next h s = (q, s) →
        (pool.set i (label, (p.next h s).1), (p.next h s).2) = (pool, s) := by
      rintro q rfl hq
      have hlt : i < pool.length := (List.getElem?_eq_some_iff.mp hi).1
      have hget : pool[i] = (label, p) := (List.getElem?_eq_some_iff.mp hi).2
      rw [hq, ← hget, List.set_getElem_self]
    cases p with
    | ret a => exact .inl (hsame _ rfl rfl)
    | raise e => exact .inl (hsame _ rfl rfl)
    | call c k => exact .inr ⟨label, c, k, rfl, rfl⟩

/-- What holds of the programs of a pool, and of what is left of the one that goes on. -/
theorem forall_set {Q : κ × Prog Cmd Ans ε α → Prop} {x : κ × Prog Cmd Ans ε α}
    (hpool : ∀ y ∈ pool, Q y) (hx : Q x) : ∀ y ∈ pool.set i x, Q y := by
  intro y hy
  rcases List.mem_or_eq_of_mem_set hy with hold | rfl
  · exact hpool y hold
  · exact hx

theorem forall_append {Q : κ × Prog Cmd Ans ε α → Prop} {x : κ × Prog Cmd Ans ε α}
    (hpool : ∀ y ∈ pool, Q y) (hx : Q x) : ∀ y ∈ pool ++ [x], Q y := by
  intro y hy
  rcases List.mem_append.mp hy with hold | hnew
  · exact hpool y hold
  · rw [List.mem_singleton.mp hnew]
    exact hx

end Pool

end Resumption
