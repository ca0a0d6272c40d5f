import Gateway.Lib.AsyncLock
import Gateway.Lib.TransitionSystem
import Gateway.Model.DynamicBatcher

/-!
# The tasks around the dynamic batcher

The asyncio side of `DynamicBatcher`: the tasks in `submit` and `shutdown`, the timer
tasks and the flush tasks. A task runs until it waits; between two steps any other task
may run.

A task that is cancelled before it has run never runs its body. A task that is cancelled
while it waits gets `CancelledError` when it resumes, also when what it waited for has
come by then. What `generate_batch` comes back with is the environment's choice, and so
is when: it may also come back with a result or an exception after its task was
cancelled. `shutdown` is not cancelled.
-/

namespace Gateway

/-- How a `submit` ends. -/
inductive SubmitOutcome
  | returned (response : Response)
  | raised (e : BatchError)
  /-- `asyncio.CancelledError` -/
  | cancelled
deriving DecidableEq

/-- A `submit` whose item was accepted. -/
structure SubmitCall where
  cancelRequested : Bool
  outcome : Option SubmitOutcome
deriving DecidableEq

/-- Where a `shutdown` stands. -/
inductive ShutdownCall
  /-- `async with self._shutdown_lock` -/
  | locking (waiter : Nat)
  /-- `await asyncio.gather(*timer_tasks, ...)` -/
  | timers (timerTasks : List TimerId) (flushTasks : List FlushId)
  /-- `await asyncio.gather(*flush_tasks, ...)` -/
  | flushes (flushTasks : List FlushId)
  | returned
deriving DecidableEq, Repr

/-- The batcher and the calls made on it. -/
structure BatcherSystem where
  batcher : DynamicBatcher
  /-- One for each item. -/
  submits : List SubmitCall
  shutdownLock : AsyncLock
  shutdowns : List ShutdownCall
  /-- The `generate_batch` calls, by the items whose requests were passed. -/
  calls : List (List ItemId)

/-- What the event loop or a task does next. -/
inductive BatcherAction
  /-- a task calls `submit`; the readings of the clock are those of the item and of the
      batch, should it be detached -/
  | submit (tenantId : String) (request : ChatCompletionRequest) (submittedAt dispatchedAt : Int)
  /-- the task of a `submit` is cancelled -/
  | cancel (i : ItemId)
  /-- the task of a `submit` resumes -/
  | resume (i : ItemId)
  /-- a timer task starts, or resumes after its sleep -/
  | timer (t : TimerId) (now : Int)
  /-- a flush task starts -/
  | flush (f : FlushId)
  /-- `generate_batch` comes back -/
  | answer (f : FlushId) (answer : BatchAnswer)
  /-- the done callback of a timer task -/
  | timerDone (t : TimerId)
  /-- the done callbacks of a flush task -/
  | flushDone (f : FlushId)
  /-- a task calls `shutdown` -/
  | shutdown
  /-- a task in `shutdown` resumes -/
  | resumeShutdown (k : Nat)

/-- Why a step is not taken: the action is not possible, or the code raises an error of
    its own bookkeeping. -/
inductive BatcherSystem.StepError
  | disabled
  | fault (f : DynamicBatcher.Fault)
deriving DecidableEq, Repr

namespace BatcherSystem

/-- The initial systems: a batcher that its constructor accepts. -/
def Init (s : BatcherSystem) : Prop :=
  s.submits = [] ∧ s.shutdownLock = .new ∧ s.shutdowns = [] ∧ s.calls = [] ∧
    ∃ maxSize maxWaitSeconds observed,
      DynamicBatcher.init maxSize maxWaitSeconds observed = some s.batcher

/-- Go on with another batcher. -/
def update (s : BatcherSystem) : Except DynamicBatcher.Fault DynamicBatcher →
    Except StepError BatcherSystem
  | .ok b => .ok { s with batcher := b }
  | .error fault => .error (.fault fault)

/-- A `submit` ends. -/
def endSubmit (s : BatcherSystem) (i : ItemId) (outcome : SubmitOutcome) : BatcherSystem :=
  { s with submits := s.submits.modify i ({ · with outcome := some outcome }) }

/-- The `except asyncio.CancelledError` clause of `submit`. -/
def submitCancelled (s : BatcherSystem) (i : ItemId) : BatcherSystem :=
  { s with batcher := s.batcher.cancelItem i }.endSubmit i .cancelled

/-- `submit` after `await asyncio.shield(item.future)`. -/
def resumeSubmit (s : BatcherSystem) (i : ItemId) (cancelRequested : Bool) :
    Except StepError BatcherSystem :=
  match s.batcher.items[i]? with
  | none => .error .disabled
  | some item =>
    if cancelRequested then .ok (s.submitCancelled i)
    else
      match item.future with
      | .pending => .error .disabled
      | .result response => .ok (s.endSubmit i (.returned response))
      | .exception e => .ok (s.endSubmit i (.raised e))
      | .cancelled => .ok (s.submitCancelled i)

/-- Set the state of a `shutdown`. -/
def setShutdown (s : BatcherSystem) (k : Nat) (call : ShutdownCall) : BatcherSystem :=
  { s with shutdowns := s.shutdowns.set k call }

/-- `shutdown` leaves the shutdown lock and returns. -/
def leaveShutdown (s : BatcherSystem) (k : Nat) : BatcherSystem :=
  { s with shutdownLock := s.shutdownLock.release }.setShutdown k .returned

/-- `shutdown` once it has the shutdown lock. -/
def shutdownSection (s : BatcherSystem) (k : Nat) : Except StepError BatcherSystem :=
  if s.batcher.closed then .ok (s.leaveShutdown k)
  else
    match s.batcher.shutdownLocked with
    | .error fault => .error (.fault fault)
    | .ok ((timerTasks, flushTasks), b) =>
      .ok ({ s with batcher := b }.setShutdown k (.timers timerTasks flushTasks))

/-- Whether the timer tasks are all over. -/
def timersOver (s : BatcherSystem) (ts : List TimerId) : Bool :=
  ts.all fun t => s.batcher.timers[t]?.all fun task => task.state = .finished

/-- Whether the flush tasks are all over. -/
def flushesOver (s : BatcherSystem) (fs : List FlushId) : Bool :=
  fs.all fun f => s.batcher.flushes[f]?.all fun task => task.state = .finished

/-- One step. -/
def step (s : BatcherSystem) : BatcherAction → Except StepError BatcherSystem
  | .submit tenantId request submittedAt dispatchedAt =>
    -- `BatchingUnavailableError`
    if s.batcher.closed then .ok s
    else
      update { s with submits := s.submits ++ [⟨false, none⟩] }
        (s.batcher.submitLocked tenantId request submittedAt dispatchedAt)
  | .cancel i =>
    match s.submits[i]? with
    | some ⟨_, none⟩ => .ok { s with submits := s.submits.set i ⟨true, none⟩ }
    | _ => .error .disabled
  | .resume i =>
    match s.submits[i]? with
    | some ⟨cancelRequested, none⟩ => s.resumeSubmit i cancelRequested
    | _ => .error .disabled
  | .timer t now =>
    match s.batcher.timers[t]? with
    | none => .error .disabled
    | some task =>
      let finished := s.batcher.modifyTimer t ({ · with state := .finished })
      match task.state, task.cancelRequested with
      | .finished, _ => .error .disabled
      | .created, false =>
        .ok { s with batcher := s.batcher.modifyTimer t ({ · with state := .awaiting }) }
      | .awaiting, false => s.update (finished.detachLocked task.batch .timeout (some t) now)
      | _, true => .ok { s with batcher := finished }
  | .flush f =>
    match s.batcher.flushes[f]? with
    | none => .error .disabled
    | some task =>
      if task.state ≠ .created then .error .disabled
      else if task.cancelRequested then
        .ok { s with batcher := s.batcher.modifyFlush f ({ · with state := .finished }) }
      else
        .ok { s with
          batcher := s.batcher.modifyFlush f ({ · with state := .awaiting, started := true })
          calls := s.calls ++ [task.items] }
  | .answer f answer =>
    match s.batcher.flushes[f]? with
    | none => .error .disabled
    | some task =>
      if task.state ≠ .awaiting then .error .disabled
      else s.update (s.batcher.answerFlush f task answer)
  | .timerDone t =>
    if s.batcher.timers[t]?.any fun task => task.state = .finished then
      .ok { s with batcher := s.batcher.modifyTimer t ({ · with tracked := false }) }
    else .error .disabled
  | .flushDone f =>
    if s.batcher.flushes[f]?.any fun task => task.state = .finished then
      .ok { s with batcher := s.batcher.modifyFlush f ({ · with tracked := false }) }
    else .error .disabled
  | .shutdown =>
    match s.shutdownLock.acquire with
    | (none, lock) =>
      -- the section says where the call stands
      shutdownSection { s with shutdownLock := lock, shutdowns := s.shutdowns ++ [.returned] }
        s.shutdowns.length
    | (some waiter, lock) =>
      .ok { s with shutdownLock := lock, shutdowns := s.shutdowns ++ [.locking waiter] }
  | .resumeShutdown k =>
    match s.shutdowns[k]? with
    | some (.locking waiter) =>
      match s.shutdownLock.resume waiter with
      | some (true, lock) => shutdownSection { s with shutdownLock := lock } k
      | _ => .error .disabled
    | some (.timers timerTasks flushTasks) =>
      if s.timersOver timerTasks then .ok (s.setShutdown k (.flushes flushTasks))
      else .error .disabled
    | some (.flushes flushTasks) =>
      if s.flushesOver flushTasks then .ok (s.leaveShutdown k) else .error .disabled
    | _ => .error .disabled

/-- Every interleaving of the steps. -/
def lts : Lts BatcherSystem BatcherAction := Lts.ofStep Init step

end BatcherSystem

end Gateway
