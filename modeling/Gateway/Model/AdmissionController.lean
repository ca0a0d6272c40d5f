import Gateway.Lib.Dict
import Gateway.Lib.Future
import Gateway.Lib.TransitionSystem
import Mathlib.Data.Finset.Basic
import Mathlib.Logic.Function.Basic
import Mathlib.Algebra.Order.Ring.Rat

/-!
# The admission controller

`gateway/admission/controller.py`: bounded per-tenant and global admission with a
ring of tenants that have queued work.

Every section under `self._lock` is free of awaits, so it is one function here,
from the state before it to the state after it. A `_TenantState` is referred to
by its tenant id, a `_Waiter` by the number of the `acquire` call that made it,
and an `AdmissionLease` by its position in the order of grants. Counters are
integers, as in Python. Where the source can raise an error of its own
bookkeeping, the function returns that error (`Fault`).
-/

namespace Gateway

/-- `gateway.auth.tenants.TenantContext`, with the limits its `__post_init__` checks. -/
structure TenantContext where
  tenantId : String
  maxInflight : Int
  maxQueue : Int
  maxInflight_pos : 0 < maxInflight
  maxQueue_nonneg : 0 ≤ maxQueue

/-- A waiter, by the number of the `acquire` call that queued it. -/
abbrev WaiterId := Nat

/-- A lease, by its position in the order of grants. -/
abbrev LeaseId := Nat

/-- The errors `acquire` raises to its caller. -/
inductive AdmissionError
  | admissionTimeout
  | admissionUnavailable
  | gatewayQueueFull
  | tenantQueueFull
deriving DecidableEq, Repr

/-- The errors of broken bookkeeping. -/
inductive AdmissionController.Fault
  /-- `RuntimeError("admission inflight accounting became inconsistent")` -/
  | inflightInconsistent
  /-- `RuntimeError("admission queue accounting became inconsistent")` -/
  | queueInconsistent
  /-- `RuntimeError("attempted to grant admission without capacity")` -/
  | grantWithoutCapacity
  /-- `asyncio.InvalidStateError` from `set_result` or `set_exception` -/
  | invalidState
  /-- `KeyError` from a dictionary or from `set.remove` -/
  | keyError
  /-- `IndexError` from `deque.popleft` -/
  | indexError
  /-- `ValueError` from `deque.remove` -/
  | valueError
deriving DecidableEq, Repr

/-- `_TenantState`. -/
structure TenantState where
  tenant : TenantContext
  inflight : Int
  queue : List WaiterId

/-- `AdmissionLease`, less the clock reading of the grant. -/
structure AdmissionLease where
  tenantId : String
  wasQueued : Bool
  released : Bool
deriving DecidableEq, Repr

/-- The arguments of one `admission_state_changed` call. -/
structure AdmissionStateChanged where
  globalInflight : Int
  globalQueued : Int
  tenants : List (String × Int × Nat)
deriving DecidableEq, Repr

/-- The limits `AdmissionController.__init__` accepts. -/
structure AdmissionLimits where
  globalMaxInflight : Int
  globalMaxQueue : Int
  globalMaxInflight_pos : 0 < globalMaxInflight
  globalMaxQueue_nonneg : 0 ≤ globalMaxQueue

/-- `AdmissionController`, with the futures of its waiters and the leases it
    granted. -/
structure AdmissionController where
  tenants : Dict String TenantState
  limits : AdmissionLimits
  globalInflight : Int
  globalQueued : Int
  activeTenants : List String
  activeTenantIds : Finset String
  closed : Bool
  /-- The calls the attached observer received; `none` without an observer. -/
  observer : Option (List AdmissionStateChanged)
  /-- The future each waiter waits on. -/
  futures : WaiterId → Future LeaseId AdmissionError
  /-- Every lease granted so far, oldest first. -/
  leases : List AdmissionLease

namespace AdmissionController

/-- `_notify_observer`. -/
def notifyObserver (c : AdmissionController) : AdmissionController :=
  { c with
    observer := c.observer.map (· ++ [{
      globalInflight := c.globalInflight
      globalQueued := c.globalQueued
      tenants := c.tenants.entries.map fun p => (p.1, p.2.inflight, p.2.queue.length) }]) }

/-- `set_observer`. -/
def setObserver (c : AdmissionController) (attach : Bool) : AdmissionController :=
  notifyObserver { c with observer := if attach then some [] else none }

/-- `__init__`. The two messages are those of its `ValueError`s. -/
def init (tenants : List TenantContext) (globalMaxInflight globalMaxQueue : Int)
    (queueTimeoutSeconds : Rat) (observed : Bool) : Except String AdmissionController :=
  if h : globalMaxInflight ≤ 0 ∨ globalMaxQueue < 0 ∨ queueTimeoutSeconds ≤ 0 then
    .error "global admission limits are invalid"
  else
    let states := Dict.ofList (tenants.map fun t => (t.tenantId, TenantState.mk t 0 []))
    if states.entries.length ≠ tenants.length then
      .error "tenant IDs must be unique"
    else
      .ok (notifyObserver {
        tenants := states
        limits := ⟨globalMaxInflight, globalMaxQueue, by omega, by omega⟩
        globalInflight := 0
        globalQueued := 0
        activeTenants := []
        activeTenantIds := ∅
        closed := false
        observer := if observed then some [] else none
        futures := fun _ => .pending
        leases := [] })

/-- `waiter.future.done()`. -/
def waiterDone (c : AdmissionController) (w : WaiterId) : Bool := (c.futures w).done

/-- `_can_admit`. -/
def canAdmit (c : AdmissionController) (state : TenantState) : Bool :=
  state.inflight < state.tenant.maxInflight ∧ c.globalInflight < c.limits.globalMaxInflight

/-- `_activate_tenant_locked`. -/
def activateTenantLocked (c : AdmissionController) (tenantId : String) : AdmissionController :=
  if tenantId ∉ c.activeTenantIds then
    { c with
      activeTenants := c.activeTenants ++ [tenantId]
      activeTenantIds := insert tenantId c.activeTenantIds }
  else c

/-- `_deactivate_tenant_locked`. -/
def deactivateTenantLocked (c : AdmissionController) (tenantId : String) :
    Except Fault AdmissionController :=
  if tenantId ∉ c.activeTenantIds then .ok c
  else if tenantId ∈ c.activeTenants then
    .ok { c with
      activeTenantIds := c.activeTenantIds.erase tenantId
      activeTenants := c.activeTenants.erase tenantId }
  else .error .valueError

/-- `_discard_completed_waiters_locked`: the loop drops the heads whose futures
    are done. -/
def discardCompletedWaitersLocked (c : AdmissionController) (tenantId : String)
    (state : TenantState) : AdmissionController :=
  let queue := state.queue.dropWhile c.waiterDone
  let c := { c with
    tenants := c.tenants.modify tenantId ({ · with queue := queue })
    globalQueued := c.globalQueued - (state.queue.length - queue.length : Int) }
  if queue.length < state.queue.length then notifyObserver c else c

/-- `_remove_waiter_locked`: whether the waiter was still queued. -/
def removeWaiterLocked (c : AdmissionController) (tenantId : String) (w : WaiterId) :
    Except Fault (Bool × AdmissionController) :=
  match c.tenants.get? tenantId with
  | none => .error .keyError
  | some state =>
    if w ∈ state.queue then
      let c := { c with
        tenants := c.tenants.modify tenantId ({ · with queue := state.queue.erase w })
        globalQueued := c.globalQueued - 1 }
      if state.queue.erase w = [] then
        (deactivateTenantLocked c tenantId).map fun c => (true, notifyObserver c)
      else .ok (true, notifyObserver c)
    else .ok (false, c)

/-- `_grant_locked`. -/
def grantLocked (c : AdmissionController) (tenantId : String) (wasQueued : Bool) :
    Except Fault (LeaseId × AdmissionController) :=
  match c.tenants.get? tenantId with
  | none => .error .keyError
  | some state =>
    if c.canAdmit state then
      .ok (c.leases.length, notifyObserver
        { c with
          tenants := c.tenants.modify tenantId ({ · with inflight := state.inflight + 1 })
          globalInflight := c.globalInflight + 1
          leases := c.leases ++ [⟨tenantId, wasQueued, false⟩] })
    else .error .grantWithoutCapacity

/-- `future.set_result(lease)`. -/
def setResult (c : AdmissionController) (w : WaiterId) (lease : LeaseId) :
    Except Fault AdmissionController :=
  if c.waiterDone w then .error .invalidState
  else .ok { c with futures := Function.update c.futures w (.result lease) }

/-- The end of the `for` body of `_dispatch_locked`: the live waiter at the head of
    a tenant's queue gets a lease, and the tenant stays in the ring if more wait. -/
def grantHead (c : AdmissionController) (tenantId : String) (waiter : WaiterId)
    (queue : List WaiterId) : Except Fault AdmissionController := do
  let c := { c with
    tenants := c.tenants.modify tenantId ({ · with queue := queue })
    globalQueued := c.globalQueued - 1 }
  let c := if queue ≠ [] then activateTenantLocked c tenantId else c
  let (lease, c) ← grantLocked c tenantId true
  setResult c waiter lease

/-- The `for` body of `_dispatch_locked` once the dead heads are gone: whether it
    granted. -/
def tryHead (c : AdmissionController) (tenantId : String) :
    Except Fault (Bool × AdmissionController) :=
  match c.tenants.get? tenantId with
  | none => .error .keyError
  | some state =>
    match state.queue with
    | [] => .ok (false, c)
    | waiter :: queue =>
      if state.inflight ≥ state.tenant.maxInflight then
        .ok (false, activateTenantLocked c tenantId)
      else (grantHead c tenantId waiter queue).map fun c => (true, c)

/-- The body of the `for` loop of `_dispatch_locked`, for the tenant at the head
    of the ring: whether it granted. -/
def tryCandidate (c : AdmissionController) : Except Fault (Bool × AdmissionController) :=
  match c.activeTenants with
  | [] => .error .indexError
  | tenantId :: rest =>
    if tenantId ∉ c.activeTenantIds then .error .keyError
    else
      match c.tenants.get? tenantId with
      | none => .error .keyError
      | some state =>
        let c := { c with
          activeTenants := rest
          activeTenantIds := c.activeTenantIds.erase tenantId }
        tryHead (discardCompletedWaitersLocked c tenantId state) tenantId

/-- The `for` loop of `_dispatch_locked`: whether one of the next `n` candidates
    was granted. -/
def dispatchRound (c : AdmissionController) : Nat → Except Fault (Bool × AdmissionController)
  | 0 => .ok (false, c)
  | n + 1 => do
    let (granted, c) ← tryCandidate c
    if granted then return (true, c) else dispatchRound c n

/-- The `while` loop of `_dispatch_locked`. Every pass but the last grants, so as
    many passes as there are free slots are enough. -/
def dispatchLoop : Nat → AdmissionController → Except Fault AdmissionController
  | 0, c => .ok c
  | n + 1, c =>
    if c.globalInflight < c.limits.globalMaxInflight ∧ c.activeTenants ≠ [] then do
      let (granted, c) ← dispatchRound c c.activeTenants.length
      if granted then dispatchLoop n c else return c
    else .ok c

/-- `_dispatch_locked`. -/
def dispatchLocked (c : AdmissionController) : Except Fault AdmissionController :=
  if c.closed then .ok c
  else dispatchLoop (c.limits.globalMaxInflight - c.globalInflight).toNat c

/-- `_release_locked`. -/
def releaseLocked (c : AdmissionController) (lease : LeaseId) :
    Except Fault AdmissionController :=
  match c.leases[lease]? with
  | none => .error .keyError
  | some l =>
    if l.released then .ok c
    else
      match c.tenants.get? l.tenantId with
      | none => .error .keyError
      | some state =>
        if state.inflight ≤ 0 ∨ c.globalInflight ≤ 0 then .error .inflightInconsistent
        else
          .ok (notifyObserver
            { c with
              tenants := c.tenants.modify l.tenantId ({ · with inflight := state.inflight - 1 })
              leases := c.leases.set lease { l with released := true }
              globalInflight := c.globalInflight - 1 })

/-- `_release`. -/
def release (c : AdmissionController) (lease : LeaseId) : Except Fault AdmissionController := do
  let c ← releaseLocked c lease
  dispatchLocked c

/-- How the first critical section of `_acquire` ends. -/
inductive Admission
  /-- `return self._grant_locked(state, was_queued=False)` -/
  | granted (lease : LeaseId)
  | raised (e : AdmissionError)
  /-- the waiter is queued and the call goes on to `asyncio.wait_for` -/
  | queued
deriving DecidableEq, Repr

/-- The first critical section of `_acquire`, for the call number `w`. -/
def acquireLocked (c : AdmissionController) (w : WaiterId) (tenantId : String) :
    Except Fault (Admission × AdmissionController) :=
  if c.closed then .ok (.raised .admissionUnavailable, c)
  else if (c.tenants.get? tenantId).isNone then .ok (.raised .admissionUnavailable, c)
  else do
    let c ← dispatchLocked c
    match c.tenants.get? tenantId with
    | none => .error .keyError
    | some state =>
      if state.queue = [] ∧ c.canAdmit state then
        let (lease, c) ← grantLocked c tenantId false
        return (.granted lease, c)
      else if state.queue.length ≥ state.tenant.maxQueue then
        return (.raised .tenantQueueFull, c)
      else if c.globalQueued ≥ c.limits.globalMaxQueue then
        return (.raised .gatewayQueueFull, c)
      else
        let c := { c with
          tenants := c.tenants.modify tenantId ({ · with queue := state.queue ++ [w] })
          globalQueued := c.globalQueued + 1 }
        let c ← dispatchLocked (notifyObserver (activateTenantLocked c tenantId))
        return (.queued, c)

/-- The `except TimeoutError` branch of `_acquire`. -/
def acquireTimedOut (c : AdmissionController) (tenantId : String) (w : WaiterId) :
    Except Fault AdmissionController := do
  let (_, c) ← removeWaiterLocked c tenantId w
  dispatchLocked c

/-- The `except asyncio.CancelledError` branch of `_acquire`: a lease that
    arrived in the waiter's future is given back. -/
def acquireCancelled (c : AdmissionController) (tenantId : String) (w : WaiterId) :
    Except Fault AdmissionController := do
  let (removed, c) ← removeWaiterLocked c tenantId w
  let c ← match removed, c.futures w with
    | false, .result lease => releaseLocked c lease
    | _, _ => .ok c
  dispatchLocked c

/-- Fail one unresolved waiter in `shutdown`. -/
def failWaiter (futures : WaiterId → Future LeaseId AdmissionError) (w : WaiterId) :
    WaiterId → Future LeaseId AdmissionError :=
  if (futures w).done then futures
  else Function.update futures w (.exception .admissionUnavailable)

/-- `shutdown`. -/
def shutdown (c : AdmissionController) : Except Fault AdmissionController :=
  if c.closed then .ok c
  else
    let waiters := c.tenants.values.flatMap (·.queue)
    let c := { c with
      closed := true
      tenants := c.tenants.mapValues ({ · with queue := [] })
      globalQueued := c.globalQueued - waiters.length
      futures := waiters.foldl failWaiter c.futures
      activeTenants := []
      activeTenantIds := ∅ }
    if c.globalQueued ≠ 0 then .error .queueInconsistent else .ok (notifyObserver c)

end AdmissionController

end Gateway
