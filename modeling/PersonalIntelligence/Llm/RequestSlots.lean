import PersonalIntelligence.Library.Asyncio
import PersonalIntelligence.Library.Runs
import Mathlib.Algebra.Order.Ring.Int

/-!
# Request slots of the language model clients

`OpenAICompatChatClient` and `OpenAICompatTextClient` share their admission: a semaphore with
one permit for each parallel request, and a lock under which a call sleeps until the last
request is long enough ago.  `_acquire_request_slot` gives the permit back on an `Exception`,
and the caller has `try` and `finally` around the request.  `asyncio.CancelledError` is not an
`Exception`: between the permit and the request, where a call waits for the lock or sleeps,
there is nobody to give the permit back to.

A call goes on where the event loop resumes it.  Its cancellation is requested at any time
before, and raised when it goes on.
-/

namespace PersonalIntelligence
namespace Llm

open Asyncio

/-! ## Calls -/

/-- `max(1, config.max_parallel_requests)`, in `OpenAICompatTextClient`, -/
def textPermits (maxParallelRequests : ℤ) : ℕ := (max 1 maxParallelRequests).toNat

/-- and `max(1, int(max_parallel_requests or 1))`, in `OpenAICompatChatClient`. -/
def chatPermits (maxParallelRequests : ℤ) : ℕ :=
  (max 1 (if maxParallelRequests = 0 then 1 else maxParallelRequests)).toNat

/-- How a call ends. -/
inductive Ending where
  /-- By a check before it asks for a slot. -/
  | rejected
  | cancelledQueued
  | cancelledInGap
  | raisedInGap
  /-- In the request or after it. -/
  | requested
  deriving DecidableEq, Repr

/-- Where a call is suspended: in `acquire` of the semaphore, in `acquire` of the lock, in
`asyncio.sleep` or in the request. -/
inductive Stage where
  | queued
  | gapQueued
  | pacing
  | requesting
  | ended (ending : Ending)
  deriving DecidableEq, Repr

structure Call where
  stage : Stage
  cancelled : Bool := false
  deriving DecidableEq, Repr

/-- `_request_sem`, `_request_gap_lock` and `_last_request_started_at`. -/
structure Gate where
  requestSem : Semaphore ℕ
  requestGapLock : Lock ℕ := {}
  lastRequestStartedAt : ℤ := 0
  deriving DecidableEq, Repr

/-- A client and its calls, which are named by their places. -/
structure Client where
  gate : Gate
  calls : List Call := []
  deriving DecidableEq, Repr

def Client.init (permits : ℕ) : Client := ⟨{ requestSem := ⟨permits, []⟩ }, []⟩

/-! ## Steps of a call -/

/-- How the sleep or the request ends, unless the call is cancelled. -/
inductive Reply where
  | returned
  | raised
  deriving DecidableEq, Repr

section Steps

-- the interval, and the clock when a call looks at it and when it notes the time
variable (interval now started : ℤ) (i : ℕ)

/-- The body of `async with self._request_gap_lock`, up to the sleep or the request. -/
def pace (gate : Gate) : Stage × Gate :=
  if 0 < interval - (now - gate.lastRequestStartedAt) then (.pacing, gate)
  else (.requesting, { gate with
    requestGapLock := gate.requestGapLock.release, lastRequestStartedAt := started })

/-- `async with self._request_gap_lock`. -/
def enterGap (gate : Gate) : Stage × Gate :=
  let (acquired, requestGapLock) := gate.requestGapLock.acquire i
  if acquired then pace interval now started { gate with requestGapLock }
  else (.gapQueued, { gate with requestGapLock })

/-- `_acquire_request_slot`. -/
def acquireRequestSlot (gate : Gate) : Stage × Gate :=
  let (acquired, requestSem) := gate.requestSem.acquire i
  if acquired then enterGap interval now started i { gate with requestSem }
  else (.queued, { gate with requestSem })

/-- `_release_request_slot`. -/
def releaseRequestSlot (gate : Gate) : Gate :=
  { gate with requestSem := gate.requestSem.release }

/-- A call goes on in `acquire` of the semaphore, with a future that is done. -/
def afterQueue (fut : Fut) (cancelled : Bool) (gate : Gate) : Stage × Gate :=
  let interrupted := cancelled || fut = .cancelled
  let gate' := { gate with requestSem := gate.requestSem.leave i fut interrupted }
  if interrupted then (.ended .cancelledQueued, gate') else enterGap interval now started i gate'

/-- A call goes on in `acquire` of the lock, with a future that is done. -/
def afterGapQueue (fut : Fut) (cancelled : Bool) (gate : Gate) : Stage × Gate :=
  let interrupted := cancelled || fut = .cancelled
  let gate' := { gate with requestGapLock := gate.requestGapLock.leave i interrupted }
  -- `except Exception` does not catch the cancellation
  if interrupted then (.ended .cancelledInGap, gate') else pace interval now started gate'

/-- A call goes on in `asyncio.sleep`. -/
def afterPacing (reply : Reply) (cancelled : Bool) (gate : Gate) : Stage × Gate :=
  let gate' := { gate with requestGapLock := gate.requestGapLock.release }
  if cancelled then (.ended .cancelledInGap, gate')
  else match reply with
    | .raised => (.ended .raisedInGap, releaseRequestSlot gate')
    | .returned => (.requesting, { gate' with lastRequestStartedAt := started })

/-- A call goes on from where it is suspended.  It cannot while its future is pending. -/
def resume (reply : Reply) (cancelled : Bool) (gate : Gate) : Stage → Option (Stage × Gate)
  | .queued =>
    match futOf i gate.requestSem.waiters with
    | none | some .pending => none
    | some fut => some (afterQueue interval now started i fut cancelled gate)
  | .gapQueued =>
    match futOf i gate.requestGapLock.waiters with
    | none | some .pending => none
    | some fut => some (afterGapQueue interval now started i fut cancelled gate)
  | .pacing => some (afterPacing started reply cancelled gate)
  -- `finally`, however the request ends
  | .requesting => some (.ended .requested, releaseRequestSlot gate)
  | .ended _ => none

end Steps

/-! ## Runs -/

/-- What the event loop does next. -/
inductive Event where
  /-- A new call; `admitted` says that it passes the checks before it asks for a slot. -/
  | call (admitted : Bool) (now started : ℤ)
  | cancel (i : ℕ)
  | resume (i : ℕ) (reply : Reply) (now started : ℤ)
  deriving DecidableEq, Repr

/-- What cannot happen changes nothing. -/
def Client.step (interval : ℤ) (client : Client) : Event → Client
  | .call admitted now started =>
    if admitted then
      let (stage, gate) := acquireRequestSlot interval now started client.calls.length client.gate
      ⟨gate, client.calls ++ [⟨stage, false⟩]⟩
    else { client with calls := client.calls ++ [⟨.ended .rejected, false⟩] }
  | .cancel i =>
    match client.calls[i]? with
    | none | some ⟨.ended _, _⟩ => client
    | some call =>
      ⟨{ client.gate with
          requestSem := client.gate.requestSem.cancel i
          requestGapLock := client.gate.requestGapLock.cancel i },
        client.calls.set i { call with cancelled := true }⟩
  | .resume i reply now started =>
    match client.calls[i]? with
    | none => client
    | some call =>
      match resume interval now started i reply call.cancelled client.gate call.stage with
      | none => client
      | some (stage, gate) => ⟨gate, client.calls.set i ⟨stage, false⟩⟩

def Client.run (interval : ℤ) (client : Client) (events : List Event) : Client :=
  events.foldl (Client.step interval) client

end Llm
end PersonalIntelligence
