import PersonalIntelligence.Llm.RequestSlots

/-!
# Where the permits are

A permit is free, on its way to a call, with a call that has not released it, or lost.  A step
moves permits from one of these places to another and makes none (`Budget.step`), and the only
step that loses one is that a call which is cancelled goes on in the gap, between the
semaphore and the request (`lost_step`).  A permit that is lost stays lost, so the last state
of a run tells whether it has had such a step.
-/

namespace PersonalIntelligence
namespace Llm

open Asyncio

/-! ## Places -/

namespace Stage

/-- The call has acquired its permit and not released it. -/
def holds : Stage → Bool
  | gapQueued | pacing | requesting => true
  | _ => false

/-- The call has ended without releasing its permit. -/
def loses : Stage → Bool
  | ended .cancelledInGap => true
  | _ => false

/-- The semaphore has not got the permit of the call back. -/
def keeps (stage : Stage) : Bool := stage.holds || stage.loses

def hasEnded : Stage → Bool
  | ended _ => true
  | _ => false

/-- The permit of the call. -/
def kept (stage : Stage) : ℕ := if stage.keeps then 1 else 0

theorem not_holds_of_hasEnded {stage : Stage} (h : stage.hasEnded = true) :
    stage.holds = false := by
  cases stage with
  | ended ending => rfl
  | _ => cases h

theorem loses_of_holds {stage : Stage} (h : stage.holds = true) : stage.loses = false := by
  cases stage with
  | queued => cases h
  | ended ending => cases h
  | _ => rfl

theorem kept_of_holds {stage : Stage} (h : stage.holds = true) : stage.kept = 1 := by
  rw [kept, keeps, h]
  rfl

end Stage

namespace Client

variable (client : Client)

/-- `_request_sem._value`. -/
def free : ℕ := client.gate.requestSem.value

/-- The calls between a successful `acquire` and their `release`.  A waiter that has been woken
has its permit, which is free no more. -/
def acquired : ℕ :=
  woken client.gate.requestSem.waiters + client.calls.countP (·.stage.holds)

/-- The permits that are lost. -/
def lost : ℕ := client.calls.countP (·.stage.loses)

/-- **The permits are conserved.** -/
structure Conserved (permits : ℕ) : Prop where
  total : client.free + client.acquired = permits
  idle : (∀ call ∈ client.calls, call.stage.hasEnded = true) → client.free = permits

/-- All permits, with those that are lost; and who waits is a call that waits. -/
structure Budget (permits : ℕ) : Prop where
  total : client.gate.requestSem.permits + client.calls.countP (·.stage.keeps) = permits
  nodup : client.gate.requestSem.queue.Nodup
  queued : ∀ i ∈ client.gate.requestSem.queue, ∃ call, client.calls[i]? = some call ∧
    call.stage = .queued

end Client

/-! ## Counting -/

theorem countP_set_add {p : Call → Bool} {calls : List Call} {i : ℕ} {call : Call}
    (h : calls[i]? = some call) (call' : Call) :
    (calls.set i call').countP p + (if p call then 1 else 0) =
      calls.countP p + (if p call' then 1 else 0) := by
  obtain ⟨hi, rfl⟩ := List.getElem?_eq_some_iff.mp h
  have hle : (if p calls[i] then 1 else 0) ≤ calls.countP p := by
    split_ifs with hp
    · exact List.countP_pos_iff.mpr ⟨_, List.getElem_mem hi, hp⟩
    · exact Nat.zero_le _
  rw [List.countP_set hi]
  omega

theorem countP_keeps (calls : List Call) : calls.countP (·.stage.keeps) =
    calls.countP (·.stage.holds) + calls.countP (·.stage.loses) := by
  induction calls with
  | nil => rfl
  | cons call rest ih =>
    have hcall : (if call.stage.keeps then 1 else 0) =
        (if call.stage.holds then 1 else 0) + if call.stage.loses then 1 else 0 := by
      cases call.stage with
      | ended ending => cases ending <;> rfl
      | _ => rfl
    rw [List.countP_cons, List.countP_cons, List.countP_cons, ih, hcall]
    omega

/-! ## Steps of a call -/

section Steps

variable {interval now started : ℤ} {i : ℕ} {reply : Reply} {cancelled : Bool} {gate gate' : Gate}
  {stage stage' : Stage}

theorem pace_spec (h : pace interval now started gate = (stage', gate')) :
    stage'.holds = true ∧ gate'.requestSem = gate.requestSem := by
  unfold pace at h
  split_ifs at h
  all_goals
    obtain ⟨rfl, rfl⟩ := Prod.mk.inj h
    exact ⟨rfl, rfl⟩

theorem enterGap_spec (h : enterGap interval now started i gate = (stage', gate')) :
    stage'.holds = true ∧ gate'.requestSem = gate.requestSem := by
  unfold enterGap at h
  dsimp only at h
  split_ifs at h
  · have hpace := pace_spec h
    exact hpace
  · obtain ⟨rfl, rfl⟩ := Prod.mk.inj h
    exact ⟨rfl, rfl⟩

/-- A call that acquires a slot takes a permit, or waits for one. -/
theorem acquireRequestSlot_spec
    (h : acquireRequestSlot interval now started i gate = (stage', gate')) :
    gate'.requestSem.permits + stage'.kept = gate.requestSem.permits ∧ stage'.loses = false ∧
      (stage' ≠ .queued ∧ gate'.requestSem.queue = gate.requestSem.queue ∨
        stage' = .queued ∧ gate'.requestSem.queue = gate.requestSem.queue ++ [i]) := by
  have hpermits := Semaphore.permits_acquire i gate.requestSem
  have hqueue := Semaphore.queue_acquire i gate.requestSem
  unfold acquireRequestSlot at h
  dsimp only at h
  split_ifs at h with hacquired
  · obtain ⟨hholds, hsem⟩ := enterGap_spec h
    rw [if_pos hacquired] at hpermits hqueue
    refine ⟨?_, Stage.loses_of_holds hholds, .inl ⟨?_, ?_⟩⟩
    · rw [hsem, Stage.kept_of_holds hholds]
      exact hpermits
    · rintro rfl
      cases hholds
    · rw [hsem]
      exact hqueue
  · obtain ⟨rfl, rfl⟩ := Prod.mk.inj h
    rw [if_neg hacquired] at hpermits hqueue
    exact ⟨hpermits, rfl, .inr ⟨rfl, hqueue⟩⟩

theorem afterQueue_spec {fut : Fut} (hfut : futOf i gate.requestSem.waiters = some fut)
    (hdone : fut ≠ .pending)
    (h : afterQueue interval now started i fut cancelled gate = (stage', gate')) :
    gate'.requestSem.permits + stage'.kept = gate.requestSem.permits ∧ stage'.loses = false ∧
      stage' ≠ .queued ∧ gate'.requestSem.queue = gate.requestSem.queue.erase i := by
  have hpermits := @Semaphore.permits_leave _ _ _ _ _ (cancelled || fut = .cancelled) hfut
  have hqueue := Semaphore.queue_leave i fut (cancelled || fut = .cancelled) gate.requestSem
  unfold afterQueue at h
  dsimp only at h
  split_ifs at h with hinterrupted
  · obtain ⟨rfl, rfl⟩ := Prod.mk.inj h
    have hkept : (Stage.ended .cancelledQueued).kept = 0 := rfl
    refine ⟨?_, rfl, by simp, hqueue⟩
    rw [hkept]
    simpa [hinterrupted] using hpermits
  · obtain ⟨hholds, hsem⟩ := enterGap_spec h
    rw [Bool.not_eq_true] at hinterrupted
    have hwoken : fut = .woken := by
      cases fut with
      | pending => exact absurd rfl hdone
      | woken => rfl
      | cancelled => simp at hinterrupted
    refine ⟨?_, Stage.loses_of_holds hholds, ?_, ?_⟩
    · rw [hsem, Stage.kept_of_holds hholds, ← hpermits, if_pos]
      exact ⟨by rw [hinterrupted]; rfl, hwoken⟩
    · rintro rfl
      cases hholds
    · rw [hsem]
      exact hqueue

theorem afterGapQueue_spec {fut : Fut}
    (h : afterGapQueue interval now started i fut cancelled gate = (stage', gate')) :
    gate'.requestSem = gate.requestSem ∧ stage'.kept = 1 ∧ stage' ≠ .queued ∧
      (stage'.loses = true ↔ fut = .cancelled ∨ cancelled = true) := by
  unfold afterGapQueue at h
  dsimp only at h
  split_ifs at h with hinterrupted
  · obtain ⟨rfl, rfl⟩ := Prod.mk.inj h
    simp only [Bool.or_eq_true, decide_eq_true_eq] at hinterrupted
    exact ⟨rfl, rfl, by simp, iff_of_true rfl hinterrupted.symm⟩
  · obtain ⟨hholds, hsem⟩ := pace_spec h
    simp only [Bool.or_eq_true, decide_eq_true_eq] at hinterrupted
    refine ⟨hsem, Stage.kept_of_holds hholds, ?_, ?_⟩
    · rintro rfl
      cases hholds
    · rw [Stage.loses_of_holds hholds]
      exact iff_of_false Bool.false_ne_true fun h => hinterrupted h.symm

theorem afterPacing_spec (h : afterPacing started reply cancelled gate = (stage', gate')) :
    gate'.requestSem.permits + stage'.kept = gate.requestSem.permits + 1 ∧ stage' ≠ .queued ∧
      gate'.requestSem.queue = gate.requestSem.queue ∧
      (stage'.loses = true ↔ cancelled = true) := by
  unfold afterPacing at h
  dsimp only at h
  split_ifs at h with hcancelled
  · obtain ⟨rfl, rfl⟩ := Prod.mk.inj h
    exact ⟨rfl, by simp, rfl, iff_of_true rfl hcancelled⟩
  · cases reply with
    | raised =>
      obtain ⟨rfl, rfl⟩ := Prod.mk.inj h
      exact ⟨Semaphore.permits_release _, by simp, Semaphore.queue_release _,
        iff_of_false Bool.false_ne_true hcancelled⟩
    | returned =>
      obtain ⟨rfl, rfl⟩ := Prod.mk.inj h
      exact ⟨rfl, by simp, rfl, iff_of_false Bool.false_ne_true hcancelled⟩

/-- The call goes on, cancelled, in the gap. -/
def LosesIn (i : ℕ) (cancelled : Bool) (gate : Gate) : Stage → Prop
  | .gapQueued => futOf i gate.requestGapLock.waiters = some .cancelled ∨
    futOf i gate.requestGapLock.waiters = some .woken ∧ cancelled = true
  | .pacing => cancelled = true
  | _ => False

/-- A call that is behind a queue has been woken or cancelled there. -/
theorem exists_done {α : Type} {fut? : Option Fut} {after : Fut → α} {result : α}
    (h : (match fut? with
      | none | some .pending => none
      | some fut => some (after fut)) = some result) :
    ∃ fut, fut? = some fut ∧ fut ≠ .pending ∧ after fut = result := by
  cases fut? with
  | none => cases h
  | some fut =>
    cases fut with
    | pending => cases h
    | woken => exact ⟨.woken, rfl, by simp, Option.some.inj h⟩
    | cancelled => exact ⟨.cancelled, rfl, by simp, Option.some.inj h⟩

theorem resume_queued
    (h : resume interval now started i reply cancelled gate .queued = some (stage', gate')) :
    ∃ fut, futOf i gate.requestSem.waiters = some fut ∧ fut ≠ .pending ∧
      afterQueue interval now started i fut cancelled gate = (stage', gate') :=
  @exists_done _ _ (fun fut => afterQueue interval now started i fut cancelled gate) _ h

theorem resume_gapQueued
    (h : resume interval now started i reply cancelled gate .gapQueued = some (stage', gate')) :
    ∃ fut, futOf i gate.requestGapLock.waiters = some fut ∧ fut ≠ .pending ∧
      afterGapQueue interval now started i fut cancelled gate = (stage', gate') :=
  @exists_done _ _ (fun fut => afterGapQueue interval now started i fut cancelled gate) _ h

/-- **A call that goes on** moves its permit, and loses it in the gap only. -/
theorem resume_spec
    (h : resume interval now started i reply cancelled gate stage = some (stage', gate')) :
    gate'.requestSem.permits + stage'.kept = gate.requestSem.permits + stage.kept ∧
      stage' ≠ .queued ∧
      gate'.requestSem.queue =
        (if stage = .queued then gate.requestSem.queue.erase i else gate.requestSem.queue) ∧
      stage.loses = false ∧ (stage'.loses = true ↔ LosesIn i cancelled gate stage) := by
  cases stage with
  | queued =>
    obtain ⟨fut, hfut, hdone, hafter⟩ := resume_queued h
    obtain ⟨hpermits, hloses, hstage, hqueue⟩ := afterQueue_spec hfut hdone hafter
    exact ⟨hpermits, hstage, hqueue, rfl, iff_of_false (by simp [hloses]) id⟩
  | gapQueued =>
    obtain ⟨fut, hfut, hdone, hafter⟩ := resume_gapQueued h
    obtain ⟨hsem, hkept, hstage, hloses⟩ := afterGapQueue_spec hafter
    refine ⟨by rw [hsem, hkept]; rfl, hstage, by rw [hsem]; rfl, rfl, hloses.trans ?_⟩
    simp only [LosesIn, hfut, Option.some.injEq]
    cases fut with
    | pending => exact absurd rfl hdone
    | woken => simp
    | cancelled => simp
  | pacing =>
    obtain ⟨hpermits, hstage, hqueue, hloses⟩ := afterPacing_spec (Option.some.inj h)
    exact ⟨hpermits, hstage, hqueue, rfl, hloses⟩
  | requesting =>
    obtain ⟨rfl, rfl⟩ := Prod.mk.inj (Option.some.inj h)
    exact ⟨Semaphore.permits_release _, by simp, Semaphore.queue_release _, rfl,
      iff_of_false Bool.false_ne_true id⟩
  | ended ending => cases h

end Steps

/-! ## Steps of a client -/

/-- The step loses no permit: no call that is cancelled goes on in the gap. -/
def Releases (client : Client) : Event → Prop
  | .resume i _ _ _ =>
    ∀ call ∈ client.calls[i]?, ¬ LosesIn i call.cancelled client.gate call.stage
  | _ => True

/-- What a step does. -/
inductive Moves (interval : ℤ) (client : Client) : Event → Client → Prop
  | idle {event} (h : Releases client event) : Moves interval client event client
  | called {now started stage gate}
      (h : acquireRequestSlot interval now started client.calls.length client.gate =
        (stage, gate)) :
      Moves interval client (.call true now started) ⟨gate, client.calls ++ [⟨stage, false⟩]⟩
  | rejected {now started} : Moves interval client (.call false now started)
      ⟨client.gate, client.calls ++ [⟨.ended .rejected, false⟩]⟩
  | cancelled {i call} (hcall : client.calls[i]? = some call) : Moves interval client (.cancel i)
      ⟨{ client.gate with
          requestSem := client.gate.requestSem.cancel i
          requestGapLock := client.gate.requestGapLock.cancel i },
        client.calls.set i { call with cancelled := true }⟩
  | resumed {i reply now started call stage gate} (hcall : client.calls[i]? = some call)
      (h : resume interval now started i reply call.cancelled client.gate call.stage =
        some (stage, gate)) :
      Moves interval client (.resume i reply now started)
        ⟨gate, client.calls.set i ⟨stage, false⟩⟩

theorem not_losesIn_of_resume_eq_none {interval now started : ℤ} {i : ℕ} {reply : Reply}
    {cancelled : Bool} {gate : Gate} {stage : Stage}
    (h : resume interval now started i reply cancelled gate stage = none) :
    ¬ LosesIn i cancelled gate stage := by
  cases stage with
  | gapQueued =>
    unfold resume at h
    cases hfut : futOf i gate.requestGapLock.waiters with
    | none => simp [LosesIn, hfut]
    | some fut =>
      rw [hfut] at h
      cases fut with
      | pending => simp [LosesIn, hfut]
      | woken => cases h
      | cancelled => cases h
  | pacing => cases h
  | _ => exact id

theorem moves_step (interval : ℤ) (client : Client) (event : Event) :
    Moves interval client event (client.step interval event) := by
  cases event with
  | call admitted now started =>
    cases admitted with
    | false => exact .rejected
    | true => exact .called rfl
  | cancel i =>
    cases hcall : client.calls[i]? with
    | none =>
      simp only [Client.step, hcall]
      refine .idle ?_
      trivial
    | some call =>
      obtain ⟨stage, cancelled⟩ := call
      cases stage with
      | ended ending =>
        simp only [Client.step, hcall]
        refine .idle ?_
        trivial
      | _ =>
        simp only [Client.step, hcall]
        exact .cancelled hcall
  | resume i reply now started =>
    cases hcall : client.calls[i]? with
    | none =>
      simp only [Client.step, hcall]
      refine .idle ?_
      intro call hmem
      rw [hcall] at hmem
      cases hmem
    | some call =>
      cases hresume : resume interval now started i reply call.cancelled client.gate call.stage with
      | none =>
        simp only [Client.step, hcall, hresume]
        refine .idle ?_
        intro call' hmem
        obtain rfl := Option.some.inj (hcall.symm.trans hmem)
        exact not_losesIn_of_resume_eq_none hresume
      | some moved =>
        simp only [Client.step, hcall, hresume]
        exact .resumed hcall hresume

/-- A place in the queue of the semaphore is kept while other calls change. -/
theorem queued_set {calls : List Call} {i j : ℕ} (hne : j ≠ i) (call : Call)
    (h : ∃ c, calls[j]? = some c ∧ c.stage = .queued) :
    ∃ c, (calls.set i call)[j]? = some c ∧ c.stage = .queued := by
  rwa [List.getElem?_set_ne hne.symm]

theorem queued_append {calls : List Call} {j : ℕ} (call : Call)
    (h : ∃ c, calls[j]? = some c ∧ c.stage = .queued) :
    ∃ c, (calls ++ [call])[j]? = some c ∧ c.stage = .queued := by
  obtain ⟨c, hc, hstage⟩ := h
  refine ⟨c, ?_, hstage⟩
  rw [List.getElem?_append_left (List.getElem?_eq_some_iff.mp hc).1, hc]

namespace Client.Budget

variable {interval now started : ℤ} {client : Client} {permits i : ℕ} {call : Call}
  {stage : Stage} {gate : Gate}

/-- A call that acquires a slot takes a permit or the last place in the queue. -/
theorem called (hbudget : client.Budget permits)
    (h : acquireRequestSlot interval now started client.calls.length client.gate =
      (stage, gate)) :
    Budget ⟨gate, client.calls ++ [⟨stage, false⟩]⟩ permits := by
  obtain ⟨htotal, hnodup, hqueued⟩ := hbudget
  obtain ⟨hpermits, -, hqueue⟩ := acquireRequestSlot_spec h
  have hcount : (client.calls ++ [(⟨stage, false⟩ : Call)]).countP (·.stage.keeps) =
      client.calls.countP (·.stage.keeps) + stage.kept := by
    rw [List.countP_append, List.countP_singleton]
    rfl
  have htotal' : gate.requestSem.permits +
      (client.calls ++ [(⟨stage, false⟩ : Call)]).countP (·.stage.keeps) = permits := by
    rw [hcount]
    omega
  rcases hqueue with ⟨-, hqueue⟩ | ⟨rfl, hqueue⟩
  · refine ⟨htotal', by rwa [hqueue], fun j hj => ?_⟩
    rw [hqueue] at hj
    exact queued_append _ (hqueued j hj)
  · refine ⟨htotal', ?_, fun j hj => ?_⟩
    · rw [hqueue, List.nodup_append]
      refine ⟨hnodup, by simp, fun j hj k hk heq => ?_⟩
      obtain ⟨c, hc, -⟩ := hqueued j hj
      have hlt := (List.getElem?_eq_some_iff.mp hc).1
      rw [heq, List.mem_singleton.mp hk] at hlt
      exact absurd hlt (Nat.lt_irrefl _)
    · rw [hqueue] at hj
      rcases List.mem_append.mp hj with hj | hj
      · exact queued_append _ (hqueued j hj)
      · rw [List.mem_singleton.mp hj]
        exact ⟨⟨.queued, false⟩, by simp, rfl⟩

/-- A cancellation moves no permit. -/
theorem cancelled (hbudget : client.Budget permits) (hcall : client.calls[i]? = some call) :
    Budget ⟨{ client.gate with
        requestSem := client.gate.requestSem.cancel i
        requestGapLock := client.gate.requestGapLock.cancel i },
      client.calls.set i { call with cancelled := true }⟩ permits := by
  obtain ⟨htotal, hnodup, hqueued⟩ := hbudget
  have hcount := @countP_set_add (·.stage.keeps) _ _ _ hcall { call with cancelled := true }
  have hqueue := Semaphore.queue_cancel i client.gate.requestSem
  have hpermits := Semaphore.permits_cancel i client.gate.requestSem
  refine ⟨?_, ?_, fun j hj => ?_⟩
  · dsimp only at hcount ⊢
    omega
  · dsimp only
    rwa [hqueue]
  · dsimp only at hj
    rw [hqueue] at hj
    by_cases hij : j = i
    · subst hij
      obtain ⟨c, hc, hstage⟩ := hqueued j hj
      obtain rfl := Option.some.inj (hc.symm.trans hcall)
      have hlt := (List.getElem?_eq_some_iff.mp hc).1
      exact ⟨_, List.getElem?_set_self hlt, hstage⟩
    · exact queued_set hij _ (hqueued j hj)

/-- A call that goes on has left the queue. -/
theorem resumed {reply : Reply} (hbudget : client.Budget permits)
    (hcall : client.calls[i]? = some call)
    (h : resume interval now started i reply call.cancelled client.gate call.stage =
      some (stage, gate)) :
    Budget ⟨gate, client.calls.set i ⟨stage, false⟩⟩ permits := by
  obtain ⟨htotal, hnodup, hqueued⟩ := hbudget
  obtain ⟨hpermits, hstage, hqueue, -, -⟩ := resume_spec h
  have hcount := @countP_set_add (·.stage.keeps) _ _ _ hcall ⟨stage, false⟩
  simp only [Stage.kept] at hpermits
  have hother : ∀ j ∈ gate.requestSem.queue, j ∈ client.gate.requestSem.queue ∧ j ≠ i := by
    intro j hj
    rw [hqueue] at hj
    split_ifs at hj with hwaits
    · exact ⟨List.mem_of_mem_erase hj, fun heq => by
        rw [heq] at hj
        exact (List.Nodup.not_mem_erase hnodup) hj⟩
    · refine ⟨hj, ?_⟩
      rintro rfl
      obtain ⟨c, hc, hqueuedStage⟩ := hqueued j hj
      obtain rfl := Option.some.inj (hc.symm.trans hcall)
      exact hwaits hqueuedStage
  refine ⟨?_, ?_, fun j hj => ?_⟩
  · dsimp only at hcount ⊢
    omega
  · dsimp only
    rw [hqueue]
    split_ifs
    · exact hnodup.erase i
    · exact hnodup
  · obtain ⟨hold, hne⟩ := hother j hj
    exact queued_set hne _ (hqueued j hold)

end Client.Budget

namespace Moves

variable {interval : ℤ} {client client' : Client} {event : Event} {permits : ℕ}

/-- **No step makes permits**, or takes any away from where they are counted. -/
theorem budget (h : Moves interval client event client') (hbudget : client.Budget permits) :
    client'.Budget permits := by
  cases h with
  | idle h => exact hbudget
  | called h => exact hbudget.called h
  | rejected =>
    refine ⟨?_, hbudget.nodup, fun j hj => queued_append _ (hbudget.queued j hj)⟩
    rw [List.countP_append, List.countP_singleton]
    exact hbudget.total
  | cancelled hcall => exact hbudget.cancelled hcall
  | resumed hcall h => exact hbudget.resumed hcall h

/-- **A permit is lost** exactly where a call that is cancelled goes on in the gap. -/
theorem lost (h : Moves interval client event client') :
    (Releases client event → client'.lost = client.lost) ∧
      (¬ Releases client event → client'.lost = client.lost + 1) := by
  cases h with
  | idle h => exact ⟨fun _ => rfl, fun hnot => absurd h hnot⟩
  | called h =>
    obtain ⟨-, hloses, -⟩ := acquireRequestSlot_spec h
    refine ⟨fun _ => ?_, fun hnot => absurd trivial hnot⟩
    simp [Client.lost, hloses]
  | rejected =>
    refine ⟨fun _ => ?_, fun hnot => absurd trivial hnot⟩
    simp [Client.lost, Stage.loses]
  | @cancelled i call hcall =>
    refine ⟨fun _ => ?_, fun hnot => absurd trivial hnot⟩
    have hcount := @countP_set_add (·.stage.loses) _ _ _ hcall { call with cancelled := true }
    exact Nat.add_right_cancel hcount
  | @resumed i reply now started call stage gate hcall h =>
    obtain ⟨-, -, -, hbefore, hloses⟩ := resume_spec h
    have hcount := @countP_set_add (·.stage.loses) _ _ _ hcall ⟨stage, false⟩
    rw [if_neg (by simp [hbefore])] at hcount
    have hreleases : Releases client (.resume i reply now started) ↔
        ¬ LosesIn i call.cancelled client.gate call.stage := by
      simp [Releases, hcall]
    rw [hreleases, ← hloses]
    refine ⟨fun hnot => ?_, fun hnot => ?_⟩
    · rw [if_neg hnot] at hcount
      exact hcount
    · rw [if_pos (not_not.mp hnot)] at hcount
      exact hcount

end Moves

/-! ## Runs -/

namespace Client

variable {client : Client} {permits : ℕ} {interval : ℤ}

theorem Budget.init (permits : ℕ) : (Client.init permits).Budget permits := by
  refine ⟨rfl, List.nodup_nil, fun i hi => ?_⟩
  cases hi

/-- When all calls have ended nobody waits. -/
theorem Budget.waiters_eq_nil (h : client.Budget permits)
    (hover : ∀ call ∈ client.calls, call.stage.hasEnded = true) :
    client.gate.requestSem.waiters = [] := by
  have hqueue : client.gate.requestSem.queue = [] := by
    refine List.eq_nil_iff_forall_not_mem.mpr fun i hi => ?_
    obtain ⟨call, hcall, hstage⟩ := h.queued i hi
    have hended := hover call (List.mem_of_getElem? hcall)
    rw [hstage] at hended
    cases hended
  exact List.map_eq_nil_iff.mp hqueue

theorem Budget.total_with_lost (h : client.Budget permits) :
    client.free + client.acquired + client.lost = permits := by
  have htotal := h.total
  rw [countP_keeps] at htotal
  simp only [Semaphore.permits] at htotal
  simp only [free, acquired, lost]
  omega

theorem Budget.conserved_iff (h : client.Budget permits) :
    client.Conserved permits ↔ client.lost = 0 := by
  have htotal := h.total_with_lost
  constructor
  · intro hconserved
    have hwithout := hconserved.total
    omega
  · intro hlost
    refine ⟨by omega, fun hover => ?_⟩
    have hholds : client.calls.countP (·.stage.holds) = 0 := by
      refine List.countP_eq_zero.mpr fun call hcall => ?_
      rw [Stage.not_holds_of_hasEnded (hover call hcall)]
      exact Bool.false_ne_true
    simp only [acquired, h.waiters_eq_nil hover, hholds, woken, List.countP_nil] at htotal
    omega

/-- **The last state of a run** tells whether a call that was cancelled went on in the gap. -/
theorem conserved_run_iff (interval : ℤ) (permits : ℕ) (events : List Event) :
    ((init permits).run interval events).Conserved permits ↔
      Runs.Meets (step interval) Releases (init permits) events := by
  have hbudget : ∀ client event, Budget client permits →
      (step interval client event).Budget permits :=
    fun client event h => (moves_step interval client event).budget h
  refine @Runs.final_iff_meets _ _ _ (fun client : Client => client.Budget permits ∧ client.lost = 0)
    (fun client : Client => client.Conserved permits) _
    (fun client : Client => client.Budget permits ∧ 0 < client.lost) ?_ ?_ ?_ ?_ ?_ events _
    ⟨Budget.init permits, rfl⟩
  · exact fun client h => h.1.conserved_iff.mpr h.2
  · intro client event h hreleases
    exact ⟨hbudget client event h.1,
      ((moves_step interval client event).lost.1 hreleases).trans h.2⟩
  · intro client event h hnot
    refine ⟨hbudget client event h.1, ?_⟩
    rw [(moves_step interval client event).lost.2 hnot]
    exact Nat.succ_pos _
  · intro client event h
    refine ⟨hbudget client event h.1, ?_⟩
    by_cases hreleases : Releases client event
    · rw [(moves_step interval client event).lost.1 hreleases]
      exact h.2
    · rw [(moves_step interval client event).lost.2 hreleases]
      exact Nat.succ_pos _
  · intro client h hconserved
    exact h.2.ne' (h.1.conserved_iff.mp hconserved)

end Client

theorem chatPermits_eq (maxParallelRequests : ℤ) :
    chatPermits maxParallelRequests = textPermits maxParallelRequests := by
  unfold chatPermits textPermits
  split_ifs with hzero
  · rw [hzero]
    rfl
  · rfl

/-- **The permits of both clients** are conserved in every state of a run exactly if no call that
is cancelled goes on in the gap. -/
theorem permits_conserved_iff (interval maxParallelRequests : ℤ) (events : List Event) :
    (((Client.init (textPermits maxParallelRequests)).run interval events).Conserved
        (max 1 maxParallelRequests).toNat ↔
      Runs.Meets (Client.step interval) Releases (Client.init (textPermits maxParallelRequests))
        events) ∧
    (((Client.init (chatPermits maxParallelRequests)).run interval events).Conserved
        (max 1 maxParallelRequests).toNat ↔
      Runs.Meets (Client.step interval) Releases (Client.init (chatPermits maxParallelRequests))
        events) := by
  rw [chatPermits_eq]
  exact ⟨Client.conserved_run_iff _ _ _, Client.conserved_run_iff _ _ _⟩

/-- A request, and a second one that is cancelled in the sleep before it. -/
def cancelledAsleep : List Event :=
  [.call true 1000 1000, .resume 0 .returned 1050 1050, .call true 1100 1100, .cancel 1,
    .resume 1 .returned 1150 1150]

/-- Both calls have ended, no permit is free, and the next call waits. -/
theorem permit_lost_asleep :
    ((Client.init (textPermits 1)).run 250 cancelledAsleep).calls.map (·.stage) =
        [.ended .requested, .ended .cancelledInGap] ∧
      ((Client.init (textPermits 1)).run 250 cancelledAsleep).free = 0 ∧
      ((Client.init (textPermits 1)).run 250
        (cancelledAsleep ++ [.call true 9000 9000])).calls.map (·.stage) =
          [.ended .requested, .ended .cancelledInGap, .queued] ∧
      ¬ ((Client.init (textPermits 1)).run 250 cancelledAsleep).Conserved (max 1 1 : ℤ).toNat := by
  have hfree : ((Client.init (textPermits 1)).run 250 cancelledAsleep).free = 0 := by decide
  have hover : ∀ call ∈ ((Client.init (textPermits 1)).run 250 cancelledAsleep).calls,
      call.stage.hasEnded = true := by decide
  refine ⟨by decide, hfree, by decide, fun h => ?_⟩
  have hidle := h.idle hover
  rw [hfree] at hidle
  revert hidle
  decide

end Llm
end PersonalIntelligence
