import Gateway.Model.AdmissionController

/-!
# The tasks around the admission controller

The asyncio side of `AdmissionController.acquire`: every call is a task that
runs until it waits on its waiter's future, and from there one atomic step at a
time. Between two steps any other task may run, so the transition system below
has every interleaving of acquires, releases, deadlines, cancellations and
shutdown.

`asyncio.wait_for` is that of CPython 3.12: a deadline and a cancellation both
cancel the awaited future, and when it has been completed already they are
delivered to the task all the same when it resumes. A deadline alone is turned
into `TimeoutError`, a cancellation is not.
-/

namespace Gateway

open AdmissionController (Fault)

/-- Where an `acquire` call stands. -/
inductive AcquireCall
  /-- suspended in `asyncio.wait_for`: whether the deadline has fired and whether
      the task has been cancelled -/
  | waiting (tenantId : String) (deadlineFired cancelRequested : Bool)
  | returned (lease : LeaseId)
  | raised (e : AdmissionError)
  /-- ended by `asyncio.CancelledError` -/
  | cancelled
deriving DecidableEq, Repr

/-- The controller and the `acquire` calls made on it, oldest first. -/
structure AdmissionSystem where
  controller : AdmissionController
  calls : List AcquireCall

/-- What the event loop or a task does next. -/
inductive AdmissionAction
  /-- a task calls `acquire` for a tenant -/
  | acquire (tenantId : String)
  /-- the queue timeout of a waiting call expires -/
  | deadline (w : WaiterId)
  /-- the task of a waiting call is cancelled -/
  | cancel (w : WaiterId)
  /-- the task of a waiting call resumes -/
  | resume (w : WaiterId)
  /-- a caller releases a lease it was given -/
  | release (lease : LeaseId)
  | shutdown
  | setObserver (attach : Bool)
deriving DecidableEq, Repr

/-- Why a step is not taken: the action is not possible, or the code raises an
    error of its own bookkeeping. -/
inductive AdmissionSystem.StepError
  | disabled
  | fault (f : Fault)
deriving DecidableEq, Repr

/-- How `asyncio.wait_for` ends. -/
inductive WaitFor
  | value (lease : LeaseId)
  | exception (e : AdmissionError)
  | timeoutError
  | cancelledError
deriving DecidableEq, Repr

/-- `asyncio.wait_for` when its task resumes; `none` while the future is pending. -/
def waitFor (future : Future LeaseId AdmissionError) (deadlineFired cancelRequested : Bool) :
    Option WaitFor :=
  if !future.done then none
  else if cancelRequested then some .cancelledError
  else if deadlineFired then some .timeoutError
  else match future with
    | .result lease => some (.value lease)
    | .exception e => some (.exception e)
    | _ => some .cancelledError

namespace AdmissionSystem

/-- The initial systems: a controller that its constructor accepts. -/
def Init (s : AdmissionSystem) : Prop :=
  s.calls = [] ∧ ∃ tenants globalMaxInflight globalMaxQueue queueTimeoutSeconds observed,
    AdmissionController.init tenants globalMaxInflight globalMaxQueue queueTimeoutSeconds
      observed = .ok s.controller

/-- Report an error of the code as the error of a step. -/
def lift {α : Type} : Except Fault α → Except StepError α
  | .ok a => .ok a
  | .error f => .error (.fault f)

/-- `_acquire` from the `await` on: how the call ends. -/
def resumeCall (c : AdmissionController) (w : WaiterId) (tenantId : String)
    (deadlineFired cancelRequested : Bool) :
    Except StepError (AcquireCall × AdmissionController) :=
  match waitFor (c.futures w) deadlineFired cancelRequested with
  | none => .error .disabled
  | some (.value lease) => .ok (.returned lease, c)
  | some (.exception e) => .ok (.raised e, c)
  | some .timeoutError => do
    let c ← lift (c.acquireTimedOut tenantId w)
    return (.raised .admissionTimeout, c)
  | some .cancelledError => do
    let c ← lift (c.acquireCancelled tenantId w)
    return (.cancelled, c)

/-- `_acquire` up to its first suspension. -/
def startCall (c : AdmissionController) (w : WaiterId) (tenantId : String) :
    Except StepError (AcquireCall × AdmissionController) := do
  let (admission, c) ← lift (c.acquireLocked w tenantId)
  match admission with
  | .granted lease => return (.returned lease, c)
  | .raised e => return (.raised e, c)
  | .queued =>
    -- awaiting a future that is done already does not suspend
    if c.waiterDone w then resumeCall c w tenantId false false
    else return (.waiting tenantId false false, c)

/-- Cancel the future a waiting call waits on, and record why. -/
def interrupt (s : AdmissionSystem) (w : WaiterId) (call : AcquireCall) : AdmissionSystem where
  controller := { s.controller with
    futures := Function.update s.controller.futures w (s.controller.futures w).cancel }
  calls := s.calls.set w call

/-- One atomic step. -/
def step (s : AdmissionSystem) : AdmissionAction → Except StepError AdmissionSystem
  | .acquire tenantId => do
    let (call, c) ← startCall s.controller s.calls.length tenantId
    return ⟨c, s.calls ++ [call]⟩
  | .deadline w =>
    match s.calls[w]? with
    | some (.waiting tenantId false cancelRequested) =>
      .ok (s.interrupt w (.waiting tenantId true cancelRequested))
    | _ => .error .disabled
  | .cancel w =>
    match s.calls[w]? with
    | some (.waiting tenantId deadlineFired _) =>
      .ok (s.interrupt w (.waiting tenantId deadlineFired true))
    | _ => .error .disabled
  | .resume w =>
    match s.calls[w]? with
    | some (.waiting tenantId deadlineFired cancelRequested) => do
      let (call, c) ← resumeCall s.controller w tenantId deadlineFired cancelRequested
      return ⟨c, s.calls.set w call⟩
    | _ => .error .disabled
  | .release lease =>
    if .returned lease ∈ s.calls then do
      let c ← lift (s.controller.release lease)
      return { s with controller := c }
    else .error .disabled
  | .shutdown => do
    let c ← lift s.controller.shutdown
    return { s with controller := c }
  | .setObserver attach => .ok { s with controller := s.controller.setObserver attach }

/-- Every interleaving of the steps. -/
def lts : Lts AdmissionSystem AdmissionAction := Lts.ofStep Init step

end AdmissionSystem

end Gateway
