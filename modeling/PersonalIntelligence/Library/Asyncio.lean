import Mathlib.Data.List.Basic

/-!
# Semaphores and locks of an event loop

`asyncio.Semaphore` and `asyncio.Lock` keep a queue of waiters, each with a future.  A future
is pending until the waiter is woken or its task is cancelled.  What is done in a task between
two suspensions is one step: the methods here are these steps.  `acquire` is in two parts,
what comes before the suspension and what is done when the task goes on (`leave`).

A semaphore takes a permit off its value when it wakes a waiter, and not when the waiter goes
on.  So what is conserved are its permits, the free ones and those on the way to a waiter
(`permits`).
-/

namespace Asyncio

/-- The future of a waiter. -/
inductive Fut where
  | pending
  | woken
  | cancelled
  deriving DecidableEq, Repr

section Queue

variable {ι : Type}

/-- The first waiter whose future is not done is woken, if there is one. -/
def wakeNext : List (ι × Fut) → Option (List (ι × Fut))
  | [] => none
  | (i, .pending) :: rest => some ((i, .woken) :: rest)
  | waiter :: rest => (wakeNext rest).map (waiter :: ·)

/-- The first waiter is woken, unless its future is done. -/
def wakeFirst : List (ι × Fut) → List (ι × Fut)
  | (i, .pending) :: rest => (i, .woken) :: rest
  | waiters => waiters

/-- The number of permits that are on their way. -/
def woken (waiters : List (ι × Fut)) : ℕ := waiters.countP fun w => w.2 = .woken

theorem woken_wakeNext : ∀ {waiters waiters' : List (ι × Fut)},
    wakeNext waiters = some waiters' → woken waiters' = woken waiters + 1
  | [], _, h => by cases h
  | (i, .pending) :: rest, _, h => by
    obtain rfl := Option.some.inj h
    simp [woken]
  | (i, .woken) :: rest, _, h => by
    obtain ⟨rest', hrest, rfl⟩ := Option.map_eq_some_iff.mp h
    have ih := woken_wakeNext hrest
    simp only [woken] at ih
    simp [woken, ih]
  | (i, .cancelled) :: rest, _, h => by
    obtain ⟨rest', hrest, rfl⟩ := Option.map_eq_some_iff.mp h
    have ih := woken_wakeNext hrest
    simp only [woken] at ih
    simp [woken, ih]

theorem keys_wakeNext : ∀ {waiters waiters' : List (ι × Fut)},
    wakeNext waiters = some waiters' → waiters'.map (·.1) = waiters.map (·.1)
  | [], _, h => by cases h
  | (i, .pending) :: rest, _, h => by
    obtain rfl := Option.some.inj h
    rfl
  | (i, .woken) :: rest, _, h => by
    obtain ⟨rest', hrest, rfl⟩ := Option.map_eq_some_iff.mp h
    rw [List.map_cons, List.map_cons, keys_wakeNext hrest]
  | (i, .cancelled) :: rest, _, h => by
    obtain ⟨rest', hrest, rfl⟩ := Option.map_eq_some_iff.mp h
    rw [List.map_cons, List.map_cons, keys_wakeNext hrest]

variable [DecidableEq ι]

/-- The future of a waiter. -/
def futOf (i : ι) (waiters : List (ι × Fut)) : Option Fut :=
  (waiters.find? fun w => w.1 = i).map (·.2)

/-- `self._waiters.remove(fut)`. -/
def remove (i : ι) (waiters : List (ι × Fut)) : List (ι × Fut) :=
  waiters.eraseP fun w => w.1 = i

/-- `fut.cancel()`, which does nothing to a future that is done. -/
def cancelFut (i : ι) (waiters : List (ι × Fut)) : List (ι × Fut) :=
  waiters.map fun w => if w.1 = i ∧ w.2 = .pending then (i, .cancelled) else w

theorem woken_remove {i : ι} {fut : Fut} : ∀ {waiters : List (ι × Fut)},
    futOf i waiters = some fut →
      woken (remove i waiters) + (if fut = .woken then 1 else 0) = woken waiters
  | [], h => by cases h
  | (j, fut') :: rest, h => by
    by_cases hj : j = i
    · obtain rfl : fut' = fut := by simpa [futOf, hj] using h
      simp [remove, woken, hj, List.countP_cons]
    · have hrest : futOf i rest = some fut := by simpa [futOf, hj] using h
      have ih := woken_remove hrest
      simp only [remove, woken] at ih ⊢
      rw [List.eraseP_cons_of_neg (by simpa using hj), List.countP_cons, List.countP_cons]
      omega

theorem keys_remove (i : ι) (waiters : List (ι × Fut)) :
    (remove i waiters).map (·.1) = (waiters.map (·.1)).erase i := by
  induction waiters with
  | nil => rfl
  | cons w rest ih =>
    by_cases hw : w.1 = i
    · simp [remove, hw]
    · rw [remove] at ih ⊢
      rw [List.eraseP_cons_of_neg (by simpa using hw), List.map_cons, List.map_cons,
        List.erase_cons_tail (by simpa using hw), ih]

theorem keys_cancelFut (i : ι) (waiters : List (ι × Fut)) :
    (cancelFut i waiters).map (·.1) = waiters.map (·.1) := by
  rw [cancelFut, List.map_map]
  refine List.map_congr_left fun w _ => ?_
  rw [Function.comp_apply]
  split_ifs with hpending
  · exact hpending.1.symm
  · rfl

theorem woken_cancelFut (i : ι) (waiters : List (ι × Fut)) :
    woken (cancelFut i waiters) = woken waiters := by
  unfold woken cancelFut
  rw [List.countP_map]
  refine List.countP_congr fun w _ => ?_
  rw [Function.comp_apply]
  split_ifs with hpending
  · simp [hpending.2]
  · rfl

end Queue

/-! ## Semaphores -/

/-- `asyncio.Semaphore`. -/
structure Semaphore (ι : Type) where
  value : ℕ
  waiters : List (ι × Fut) := []
  deriving DecidableEq, Repr

namespace Semaphore

variable {ι : Type} {s s' : Semaphore ι}

/-- The permits that no task has: the free ones and those that a waiter is woken for. -/
def permits (s : Semaphore ι) : ℕ := s.value + woken s.waiters

/-- The tasks that wait. -/
def queue (s : Semaphore ι) : List ι := s.waiters.map (·.1)

/-- `locked()`. -/
def locked (s : Semaphore ι) : Bool := s.value = 0 || s.waiters.any fun w => w.2 ≠ .cancelled

/-- `_wake_up_next`. -/
def wakeUpNext (s : Semaphore ι) : Option (Semaphore ι) :=
  (wakeNext s.waiters).map fun waiters => ⟨s.value - 1, waiters⟩

/-- `while self._value > 0: if not self._wake_up_next(): break`, for a value that is given. -/
def wakeUpAll : ℕ → Semaphore ι → Semaphore ι
  | 0, s => s
  | n + 1, s =>
    match s.wakeUpNext with
    | none => s
    | some s' => wakeUpAll n s'

/-- `release`. -/
def release (s : Semaphore ι) : Semaphore ι :=
  let s' : Semaphore ι := { s with value := s.value + 1 }
  s'.wakeUpNext.getD s'

/-- `acquire` up to its suspension: the permit is taken, or the task waits. -/
def acquire (i : ι) (s : Semaphore ι) : Bool × Semaphore ι :=
  if s.locked then (false, { s with waiters := s.waiters ++ [(i, .pending)] })
  else (true, { s with value := s.value - 1 })

theorem permits_wakeUpNext (hvalue : 0 < s.value) (h : s.wakeUpNext = some s') :
    s'.permits = s.permits := by
  obtain ⟨waiters, hwaiters, rfl⟩ := Option.map_eq_some_iff.mp h
  have hwoken := woken_wakeNext hwaiters
  simp only [permits]
  omega

theorem value_wakeUpNext (h : s.wakeUpNext = some s') : s'.value = s.value - 1 := by
  obtain ⟨waiters, -, rfl⟩ := Option.map_eq_some_iff.mp h
  rfl

/-- Waking conserves the permits. -/
theorem permits_wakeUpAll : ∀ {n : ℕ} {s : Semaphore ι}, n ≤ s.value →
    (wakeUpAll n s).permits = s.permits
  | 0, _, _ => rfl
  | n + 1, s, hn => by
    rw [wakeUpAll]
    cases h : s.wakeUpNext with
    | none => rfl
    | some s' =>
      have hvalue := value_wakeUpNext h
      dsimp only
      rw [permits_wakeUpAll (by omega), permits_wakeUpNext (by omega) h]

theorem queue_wakeUpNext (h : s.wakeUpNext = some s') : s'.queue = s.queue := by
  obtain ⟨waiters, hwaiters, rfl⟩ := Option.map_eq_some_iff.mp h
  exact keys_wakeNext hwaiters

theorem queue_wakeUpAll : ∀ (n : ℕ) (s : Semaphore ι), (wakeUpAll n s).queue = s.queue
  | 0, _ => rfl
  | n + 1, s => by
    rw [wakeUpAll]
    cases h : s.wakeUpNext with
    | none => rfl
    | some s' => exact (queue_wakeUpAll n s').trans (queue_wakeUpNext h)

theorem queue_release (s : Semaphore ι) : s.release.queue = s.queue := by
  unfold release
  dsimp only
  cases h : ({ s with value := s.value + 1 } : Semaphore ι).wakeUpNext with
  | none => rfl
  | some s' =>
    show s'.queue = s.queue
    rw [queue_wakeUpNext h]
    rfl

theorem queue_acquire (i : ι) (s : Semaphore ι) :
    (s.acquire i).2.queue = if (s.acquire i).1 then s.queue else s.queue ++ [i] := by
  unfold acquire
  cases s.locked with
  | true => simp [queue]
  | false => simp [queue]

/-- A release makes one permit more. -/
theorem permits_release (s : Semaphore ι) : s.release.permits = s.permits + 1 := by
  have hadded : ({ s with value := s.value + 1 } : Semaphore ι).permits = s.permits + 1 := by
    simp only [permits]
    omega
  unfold release
  dsimp only
  cases h : ({ s with value := s.value + 1 } : Semaphore ι).wakeUpNext with
  | none => exact hadded
  | some s' => exact (permits_wakeUpNext (Nat.succ_pos _) h).trans hadded

/-- The first part of `acquire` takes a permit if it does not wait. -/
theorem permits_acquire (i : ι) (s : Semaphore ι) :
    (s.acquire i).2.permits + (if (s.acquire i).1 then 1 else 0) = s.permits := by
  unfold acquire
  cases hlocked : s.locked with
  | true => simp [permits, woken]
  | false =>
    have hvalue : s.value ≠ 0 := by
      intro hzero
      simp [locked, hzero] at hlocked
    show s.value - 1 + woken s.waiters + 1 = s.value + woken s.waiters
    omega

variable [DecidableEq ι] {i : ι}

/-- `acquire` from its suspension on: a task that is cancelled after it has been woken gives
the permit back. -/
def leave (i : ι) (fut : Fut) (cancelled : Bool) (s : Semaphore ι) : Semaphore ι :=
  let value := if cancelled ∧ fut = .woken then s.value + 1 else s.value
  wakeUpAll value ⟨value, remove i s.waiters⟩

def cancel (i : ι) (s : Semaphore ι) : Semaphore ι :=
  { s with waiters := cancelFut i s.waiters }

/-- A waiter that goes on takes the permit it was woken for, unless it is cancelled. -/
theorem permits_leave {fut : Fut} {cancelled : Bool} (h : futOf i s.waiters = some fut) :
    (s.leave i fut cancelled).permits + (if !cancelled ∧ fut = .woken then 1 else 0) =
      s.permits := by
  have hremoved := woken_remove h
  unfold leave
  dsimp only
  rw [@permits_wakeUpAll _ _ ⟨_, remove i s.waiters⟩ (Nat.le_refl _)]
  simp only [permits]
  cases cancelled <;> cases fut <;> simp at hremoved ⊢ <;> omega

theorem queue_leave (i : ι) (fut : Fut) (cancelled : Bool) (s : Semaphore ι) :
    (s.leave i fut cancelled).queue = s.queue.erase i := by
  unfold leave
  dsimp only
  rw [queue_wakeUpAll]
  exact keys_remove i s.waiters

theorem queue_cancel (i : ι) (s : Semaphore ι) : (s.cancel i).queue = s.queue :=
  keys_cancelFut i s.waiters

theorem permits_cancel (i : ι) (s : Semaphore ι) : (s.cancel i).permits = s.permits := by
  rw [permits, permits, cancel, woken_cancelFut]

end Semaphore

/-! ## Locks -/

/-- `asyncio.Lock`. -/
structure Lock (ι : Type) where
  locked : Bool := false
  waiters : List (ι × Fut) := []
  deriving DecidableEq, Repr

namespace Lock

variable {ι : Type} [DecidableEq ι]

/-- `acquire` up to its suspension. -/
def acquire (i : ι) (l : Lock ι) : Bool × Lock ι :=
  if !l.locked && l.waiters.all fun w => w.2 = .cancelled then (true, { l with locked := true })
  else (false, { l with waiters := l.waiters ++ [(i, .pending)] })

/-- `acquire` from its suspension on: a task that is cancelled passes on that the lock is
free. -/
def leave (i : ι) (cancelled : Bool) (l : Lock ι) : Lock ι :=
  let waiters := remove i l.waiters
  if !cancelled then ⟨true, waiters⟩
  else if l.locked then ⟨true, waiters⟩
  else ⟨false, wakeFirst waiters⟩

/-- `release`. -/
def release (l : Lock ι) : Lock ι := ⟨false, wakeFirst l.waiters⟩

def cancel (i : ι) (l : Lock ι) : Lock ι := { l with waiters := cancelFut i l.waiters }

end Lock

end Asyncio
