import Gateway.Lib.Coroutine
import Gateway.Lib.TransitionSystem
import Gateway.Model.BackendPool
import Gateway.Model.SSEObserver

/-!
# The tasks around the backend pool

`gateway/routing/pool.py` and `gateway/streaming/relay.py` as tasks of an event
loop: the routed operations, routed streams and their iteration, probes, pool
close, relays and the streaming response. A task runs until it awaits something
that is not there yet; its stack of frames says which functions are waiting. Each
frame is one `await` of the source, and `react` is the code after it.

What a leaf (a backend client, Starlette) does is the environment's choice: any
result and any exception, including `CancelledError` at any await. The release of
an admission lease, which never suspends, is recorded in the history.
-/

namespace Gateway

/-- A task, by its position in the order of creation. -/
abbrev TaskId := Nat

/-- A `StreamingRelay`, by its position in the order of creation. -/
abbrev RelayId := Nat

/-- An async generator of `RoutedBackendStream._iterate`. -/
abbrev IteratorId := Nat

/-- An async generator of `StreamingRelay._iterate`. -/
abbrev RelayIteratorId := Nat

/-- What a raised exception is, as far as the `except` clauses tell. -/
inductive Exc
  /-- one of `_HEALTH_IMPACTING_ERRORS` -/
  | healthImpacting
  /-- `starlette.requests.ClientDisconnect` -/
  | clientDisconnect
  /-- any other `Exception` -/
  | error
  /-- `asyncio.CancelledError` -/
  | cancelled
  /-- any other `BaseException`, such as `GeneratorExit` -/
  | base
deriving DecidableEq, Repr

/-- Whether `except Exception` catches it. -/
def Exc.isException : Exc → Bool
  | .healthImpacting | .clientDisconnect | .error => true
  | .cancelled | .base => false

/-- What an awaited call hands to its caller. -/
inductive Signal
  | returned
  /-- `check_health` returned -/
  | verdict (healthy : Bool)
  /-- an iteration yielded, with the events in the chunk -/
  | chunk (events : List SSEEvent)
  /-- an iteration ended -/
  | stop
  | raised (e : Exc)
deriving DecidableEq, Repr

/-- `StreamOutcome`. -/
inductive StreamOutcome
  | completed
  | cancelled
  | upstreamError
deriving DecidableEq, Repr

/-- A child of an `asyncio.gather`. -/
inductive Child
  | probe (backendId : String)
  | streamClose (stream : StreamId)
  | backendClose (backendId : String)
  | leaseRelease (lease : BackendLeaseId)
deriving DecidableEq, Repr

/-- An `asyncio.gather` that is awaited: the children that have not run yet, the
    tasks of the others, and whether its awaiter was cancelled. -/
structure Gather where
  notStarted : List Child
  children : List TaskId
  cancelled : Bool
deriving DecidableEq, Repr

/-- One `await` of the source. -/
inductive Frame
  /-- `generate`: `await lease.backend.generate(request)` -/
  | generate (lease : BackendLeaseId)
  /-- `generate_batch`: `await lease.backend.generate_batch(requests)` -/
  | batch (lease : BackendLeaseId)
  /-- `stream`: `await lease.backend.stream(request)` -/
  | openStream (lease : BackendLeaseId)
  /-- `stream`: `await routed_stream._finish("error")` -/
  | openRejected
  /-- `_finish`: `async with self._close_lock` -/
  | finishLock (stream : StreamId) (waiter : Nat) (outcome : BackendOutcome)
  /-- `_finish`: `await self._stream.aclose()` -/
  | finishClose (stream : StreamId) (outcome : BackendOutcome)
  /-- `RoutedBackendStream._iterate`: `async for chunk in self._stream` -/
  | iterate (it : IteratorId)
  /-- `RoutedBackendStream._iterate`: `await self._finish(...)` in an `except` or
      `else` clause, with the exception it re-raises -/
  | iterateFinish (it : IteratorId) (reraise : Option Exc)
  /-- `RoutedBackendStream._iterate`: `await self._finish(...)` in the `finally` -/
  | iterateFinally (it : IteratorId) (signal : Signal)
  /-- `StreamingRelay.aclose`: `async with self._close_lock` -/
  | relayLock (relay : RelayId) (waiter : Nat) (outcome : StreamOutcome)
  /-- `StreamingRelay.aclose`: `await self._backend_stream.aclose()` -/
  | relayClose (relay : RelayId) (outcome : StreamOutcome)
  /-- `StreamingRelay._iterate`: `async for chunk in self._backend_stream` -/
  | relayIterate (it : RelayIteratorId)
  /-- `StreamingRelay._iterate`: `await self.aclose(...)` in an `except` or `else`
      clause, with the exception it re-raises -/
  | relayIterateClose (it : RelayIteratorId) (reraise : Option Exc)
  /-- `StreamingRelay._iterate`: `await self.aclose(...)` in the `finally` -/
  | relayIterateFinally (it : RelayIteratorId) (signal : Signal)
  /-- `SSEStreamingResponse.__call__`: `await super().__call__(...)` -/
  | respond (relay : RelayId)
  /-- `SSEStreamingResponse.__call__`: `await self._relay.aclose(...)` in an
      `except` clause -/
  | respondClose (relay : RelayId) (reraise : Option Exc)
  /-- `SSEStreamingResponse.__call__`: `await self._relay.aclose()` in the `finally` -/
  | respondFinally (relay : RelayId) (signal : Signal)
  /-- `probe`: `await slot.backend.check_health()` -/
  | probe (task : TaskId) (backendId : String)
  /-- `probe_once`: `await asyncio.gather(...)` -/
  | probeOnce (gather : Gather)
  /-- `close`: `async with self._close_lock` -/
  | poolLock (waiter : Nat)
  /-- `close`: `await probe_task` -/
  | poolProbe (leases : List BackendLeaseId) (streams : List StreamId)
  /-- `close`: the gather of `stream.aclose()` -/
  | poolStreams (gather : Gather) (leases : List BackendLeaseId)
  /-- `close`: the gather of `slot.backend.close()` -/
  | poolBackends (gather : Gather) (leases : List BackendLeaseId)
  /-- a child of that gather: `await slot.backend.close()` -/
  | backendClose (backendId : String)
  /-- `close`: the gather of `lease.release()` -/
  | poolLeases (gather : Gather)
deriving DecidableEq, Repr

/-- The gather a frame awaits. -/
def Frame.gather : Frame → Option Gather
  | .probeOnce g | .poolStreams g _ | .poolBackends g _ | .poolLeases g => some g
  | _ => none

/-- The frame with another state of its gather. -/
def Frame.withGather (g : Gather) : Frame → Frame
  | .probeOnce _ => .probeOnce g
  | .poolStreams _ leases => .poolStreams g leases
  | .poolBackends _ leases => .poolBackends g leases
  | .poolLeases _ => .poolLeases g
  | frame => frame

/-- Whether the gather of a frame was made with `return_exceptions=True`. -/
def Frame.returnExceptions : Frame → Bool
  | .poolStreams _ _ | .poolBackends _ _ => true
  | _ => false

/-- A task. -/
inductive Task
  /-- on the processor -/
  | running
  | suspended (stack : List Frame)
  | finished (signal : Signal)
deriving DecidableEq, Repr

/-- `RoutedBackendStream`, less its leaf stream. -/
structure RoutedBackendStream where
  lease : BackendLeaseId
  closeLock : AsyncLock
  closed : Bool
deriving DecidableEq, Repr

/-- Where an async generator stands. -/
inductive GeneratorState
  | created
  | running
  /-- at a `yield` -/
  | suspended
  | finished
deriving DecidableEq, Repr

/-- An async generator of `RoutedBackendStream._iterate`. -/
structure RoutedIterator where
  stream : StreamId
  state : GeneratorState
deriving DecidableEq, Repr

/-- `StreamingRelay`. Its admission lease is its own. -/
structure StreamingRelay where
  stream : StreamId
  metricsObserver : Option SSEMetricsObserver
  onOutcome : Bool
  closeLock : AsyncLock
  closed : Bool
deriving DecidableEq, Repr

/-- An async generator of `StreamingRelay._iterate`, with the one it iterates over
    once it has started. -/
structure RelayIterator where
  relay : RelayId
  inner : Option IteratorId
  state : GeneratorState
deriving DecidableEq, Repr

/-- What the history of a run records. -/
inductive StreamEvent
  | selected (backendId : String) (lease : BackendLeaseId)
  /-- a health-impacting error of an operation was recorded -/
  | failed (backendId : String)
  | probeStarted (task : TaskId) (backendId : String)
  | probeCompleted (task : TaskId) (backendId : String) (healthy : Bool)
  | released (lease : BackendLeaseId)
  /-- `_release` raised its `RuntimeError` -/
  | inconsistent (lease : BackendLeaseId)
  /-- `aclose` of a leaf stream was called -/
  | leafClosed (stream : StreamId)
  /-- `close` of a backend client was called -/
  | backendClosed (backendId : String)
  /-- `StreamingRelay.aclose` was entered -/
  | relayCloseEntered (relay : RelayId)
  | admissionReleased (relay : RelayId)
  /-- `finalize` of the relay's metrics observer was called -/
  | metricsFinalized (relay : RelayId)
  /-- `on_outcome` was called -/
  | outcome (relay : RelayId) (outcome : StreamOutcome)
deriving DecidableEq, Repr

/-- The pool, everything that holds its leases, and the tasks. -/
structure StreamSystem where
  pool : BackendPool
  streams : List RoutedBackendStream
  iterators : List RoutedIterator
  relays : List StreamingRelay
  relayIterators : List RelayIterator
  tasks : List Task
  history : List StreamEvent

namespace StreamSystem

/-- A run of a task to its next suspension. -/
abbrev TaskRun := Run StreamSystem Frame Signal

/-- Append to the history. -/
def record (s : StreamSystem) (e : StreamEvent) : StreamSystem :=
  { s with history := s.history ++ [e] }

/-- Update one routed stream. -/
def modifyStream (s : StreamSystem) (r : StreamId)
    (f : RoutedBackendStream → RoutedBackendStream) : StreamSystem :=
  { s with streams := s.streams.modify r f }

/-- Update one relay. -/
def modifyRelay (s : StreamSystem) (i : RelayId) (f : StreamingRelay → StreamingRelay) :
    StreamSystem :=
  { s with relays := s.relays.modify i f }

/-- Leave the `async with self._close_lock` of a routed stream. -/
def unlockStream (s : StreamSystem) (r : StreamId) : StreamSystem :=
  s.modifyStream r fun st => { st with closeLock := st.closeLock.release }

/-- Leave the `async with self._close_lock` of a relay. -/
def unlockRelay (s : StreamSystem) (i : RelayId) : StreamSystem :=
  s.modifyRelay i fun rel => { rel with closeLock := rel.closeLock.release }

/-- Set the state of a routed iterator. -/
def setIterator (s : StreamSystem) (it : IteratorId) (state : GeneratorState) : StreamSystem :=
  { s with iterators := s.iterators.modify it ({ · with state := state }) }

/-- Set the state of a relay iterator. -/
def setRelayIterator (s : StreamSystem) (it : RelayIteratorId) (state : GeneratorState) :
    StreamSystem :=
  { s with relayIterators := s.relayIterators.modify it ({ · with state := state }) }

/-- `_observe_operation`. -/
def observeOperation (s : StreamSystem) (lease : BackendLeaseId) (operation : BackendOperation)
    (outcome : BackendOutcome) : StreamSystem :=
  match s.pool.leases[lease]? with
  | none => s
  | some l => { s with pool := s.pool.observeOperation l.backendId operation outcome }

/-- `_mark_unhealthy` after a health-impacting error of the operation with this lease. -/
def markUnhealthy (s : StreamSystem) (lease : BackendLeaseId) : StreamSystem :=
  match s.pool.leases[lease]? with
  | none => s
  | some l => { s with pool := s.pool.markUnhealthy l.backendId }.record (.failed l.backendId)

/-- `lease.release()`: the system after it, and the exception if it raised. -/
def releaseLease (s : StreamSystem) (lease : BackendLeaseId) : StreamSystem × Option Exc :=
  match s.pool.release lease with
  | .ok pool =>
    if s.pool.leases[lease]?.any (!·.released) then ({ s with pool := pool }.record (.released lease), none)
    else ({ s with pool := pool }, none)
  | .error _ => (s.record (.inconsistent lease), some .error)

/-- End with `signal` after `lease.release()` in a `finally`. -/
def releaseThen (s : StreamSystem) (lease : BackendLeaseId) (signal : Signal) : TaskRun :=
  match s.releaseLease lease with
  | (s, none) => .done s signal
  | (s, some e) => .done s (.raised e)

/-! ## `RoutedBackendStream` -/

/-- `_finish` once it has the close lock. -/
def finishLocked (s : StreamSystem) (r : StreamId) (outcome : BackendOutcome) : TaskRun :=
  match s.streams[r]? with
  | none => .done s .returned
  | some stream =>
    if stream.closed then
      .done (s.unlockStream r) .returned
    else
      .suspend ((s.modifyStream r ({ · with closed := true })).record (.leafClosed r))
        (.finishClose r outcome)

/-- `_finish`. -/
def finish (s : StreamSystem) (r : StreamId) (outcome : BackendOutcome) : TaskRun :=
  match s.streams[r]? with
  | none => .done s .returned
  | some stream =>
    match stream.closeLock.acquire with
    | (none, lock) => finishLocked (s.modifyStream r ({ · with closeLock := lock })) r outcome
    | (some waiter, lock) =>
      .suspend (s.modifyStream r ({ · with closeLock := lock })) (.finishLock r waiter outcome)

/-- `_finish` after `await self._stream.aclose()`: the nested `finally` clauses. -/
def afterFinishClose (s : StreamSystem) (r : StreamId) (outcome : BackendOutcome)
    (signal : Signal) : TaskRun :=
  match s.streams[r]? with
  | none => .done s signal
  | some stream =>
    let finalOutcome := match signal with
      | .raised .cancelled => .cancelled
      | .raised e => if e.isException then .error else outcome
      | _ => outcome
    let (s, raised) := s.releaseLease stream.lease
    let s := { s with pool := s.pool.unregisterStream r }
    let s := s.observeOperation stream.lease .stream finalOutcome
    .done (s.unlockStream r) (match raised, signal with
      | some e, _ => .raised e
      | none, .raised e => .raised e
      | none, _ => .returned)

/-- The end of `RoutedBackendStream._iterate`. -/
def iterateEnd (s : StreamSystem) (it : IteratorId) (signal : Signal) : TaskRun :=
  .done (s.setIterator it .finished) signal

/-- `RoutedBackendStream._iterate` after the `_finish` of its `finally`. -/
def afterIterateFinally (s : StreamSystem) (it : IteratorId) (signal result : Signal) : TaskRun :=
  match result with
  | .raised e => s.iterateEnd it (.raised e)
  | _ => s.iterateEnd it signal

/-- The `finally` of `RoutedBackendStream._iterate`. -/
def iterateFinally (s : StreamSystem) (it : IteratorId) (signal : Signal) : TaskRun :=
  match s.iterators[it]? with
  | none => .done s signal
  | some iterator =>
    if (s.streams[iterator.stream]?).any (!·.closed) then
      (s.finish iterator.stream .cancelled).andThen (.iterateFinally it signal)
        fun s result => s.afterIterateFinally it signal result
    else s.iterateEnd it signal

/-- `RoutedBackendStream._iterate` after the `_finish` of an `except` or `else` clause. -/
def afterIterateFinish (s : StreamSystem) (it : IteratorId) (reraise : Option Exc)
    (result : Signal) : TaskRun :=
  match result, reraise with
  | .raised e, _ => s.iterateFinally it (.raised e)
  | _, some e => s.iterateFinally it (.raised e)
  | _, none => s.iterateFinally it .stop

/-- `RoutedBackendStream._iterate` when the leaf has yielded, ended or raised. -/
def afterIterate (s : StreamSystem) (it : IteratorId) (signal : Signal) : TaskRun :=
  match s.iterators[it]? with
  | none => .done s signal
  | some iterator =>
    let finishThen (s : StreamSystem) (outcome : BackendOutcome) (reraise : Option Exc) : TaskRun :=
      (s.finish iterator.stream outcome).andThen (.iterateFinish it reraise)
        fun s result => s.afterIterateFinish it reraise result
    match signal with
    | .raised .cancelled => finishThen s .cancelled (some .cancelled)
    | .raised .healthImpacting =>
      match s.streams[iterator.stream]? with
      | none => .done s signal
      | some stream => finishThen (s.markUnhealthy stream.lease) .error (some .healthImpacting)
    | .raised .base => s.iterateFinally it (.raised .base)
    | .raised e => finishThen s .error (some e)
    | .stop => finishThen s .success none
    | signal => .done (s.setIterator it .suspended) signal

/-- `__anext__` of a generator of `RoutedBackendStream._iterate`. -/
def iteratorNext (s : StreamSystem) (it : IteratorId) : TaskRun :=
  match s.iterators[it]? with
  | none => .done s .stop
  | some iterator =>
    match iterator.state with
    | .finished => .done s .stop
    -- "asynchronous generator is already running"
    | .running => .done s (.raised .error)
    | .created | .suspended => .suspend (s.setIterator it .running) (.iterate it)

/-- `aclose` of a generator of `RoutedBackendStream._iterate`. -/
def iteratorClose (s : StreamSystem) (it : IteratorId) : TaskRun :=
  match s.iterators[it]? with
  | none => .done s .returned
  | some iterator =>
    match iterator.state with
    | .finished => .done s .returned
    | .running => .done s (.raised .error)
    -- a generator that never ran has nothing to clean up
    | .created => .done (s.setIterator it .finished) .returned
    -- `GeneratorExit` at the `yield` skips the `except` clauses
    | .suspended => (s.setIterator it .running).iterateFinally it (.raised .base)

/-! ## `BackendPool` -/

/-- `generate` and `generate_batch` up to the leaf call. -/
def startOperation (s : StreamSystem) (weight : Int) (frame : BackendLeaseId → Frame) : TaskRun :=
  match s.pool.select weight with
  | .error _ => .done s (.raised .error)
  | .ok (lease, pool) =>
    let s := { s with pool := pool }
    .suspend (match pool.leases[lease]? with
      | some l => s.record (.selected l.backendId lease)
      | none => s) (frame lease)

/-- `generate`. -/
def generate (s : StreamSystem) : TaskRun := s.startOperation 1 .generate

/-- `stream`. -/
def stream (s : StreamSystem) : TaskRun := s.startOperation 1 .openStream

/-- `generate_batch` of `n` requests. -/
def generateBatch (s : StreamSystem) (n : Nat) : TaskRun :=
  -- `BackendCapabilityError`
  if n = 0 then .done s (.raised .error) else s.startOperation n .batch

/-- `generate` and `generate_batch` after the leaf call. -/
def afterOperation (s : StreamSystem) (lease : BackendLeaseId) (operation : BackendOperation)
    (signal : Signal) : TaskRun :=
  match signal with
  | .raised .cancelled => (s.observeOperation lease operation .cancelled).releaseThen lease signal
  | .raised .healthImpacting =>
    ((s.markUnhealthy lease).observeOperation lease operation .error).releaseThen lease signal
  -- no clause catches it; the `finally` still releases
  | .raised .base => s.releaseThen lease signal
  | .raised _ => (s.observeOperation lease operation .error).releaseThen lease signal
  | _ => (s.observeOperation lease operation .success).releaseThen lease .returned

/-- `stream` after the `_finish` of a stream that could not be registered:
    `raise NoHealthyBackendError()`. -/
def afterOpenRejected (s : StreamSystem) (result : Signal) : TaskRun :=
  match result with
  | .raised e => .done s (.raised e)
  | _ => .done s (.raised .error)

/-- `stream` after the leaf call. -/
def afterOpenStream (s : StreamSystem) (lease : BackendLeaseId) (signal : Signal) : TaskRun :=
  match signal with
  | .raised .cancelled => (s.observeOperation lease .stream .cancelled).releaseThen lease signal
  | .raised .healthImpacting =>
    ((s.markUnhealthy lease).observeOperation lease .stream .error).releaseThen lease signal
  | .raised _ => (s.observeOperation lease .stream .error).releaseThen lease signal
  | _ =>
    let r := s.streams.length
    let (registered, pool) := s.pool.registerStream r
    let s := { s with pool := pool, streams := s.streams ++ [⟨lease, .new, false⟩] }
    if registered then .done s .returned
    else (s.finish r .error).andThen .openRejected fun s result => s.afterOpenRejected result

/-- `probe` up to the leaf call. -/
def probe (s : StreamSystem) (task : TaskId) (backendId : String) : TaskRun :=
  .suspend (s.record (.probeStarted task backendId)) (.probe task backendId)

/-- `await self._set_health(slot.backend_id, healthy)` at the end of `probe`. -/
def completeProbe (s : StreamSystem) (task : TaskId) (backendId : String) (healthy : Bool) :
    TaskRun :=
  .done ({ s with pool := s.pool.setHealth backendId healthy }.record
    (.probeCompleted task backendId healthy)) .returned

/-- `probe` after the leaf call. -/
def afterProbe (s : StreamSystem) (task : TaskId) (backendId : String) (signal : Signal) :
    TaskRun :=
  match signal with
  | .verdict healthy => s.completeProbe task backendId healthy
  | .raised e => if e.isException then s.completeProbe task backendId false else .done s (.raised e)
  | _ => .done s .returned

/-- `probe_once`. -/
def probeOnce (s : StreamSystem) : TaskRun :=
  if s.pool.closed then .done s .returned
  else .suspend s (.probeOnce ⟨s.pool.slots.keys.map .probe, [], false⟩)

/-- Leave `close`, releasing its close lock. -/
def leaveClose (s : StreamSystem) (signal : Signal) : TaskRun :=
  .done { s with pool := { s.pool with closeLock := s.pool.closeLock.release } } signal

/-- `close` after the gather of `lease.release()`. -/
def afterPoolLeases (s : StreamSystem) (signal : Signal) : TaskRun :=
  match signal with
  | .raised e => s.leaveClose (.raised e)
  | _ => leaveClose { s with pool := s.pool.finishClose } .returned

/-- `close` after the gather of `slot.backend.close()`. -/
def afterPoolBackends (s : StreamSystem) (leases : List BackendLeaseId) (signal : Signal) :
    TaskRun :=
  match signal with
  | .raised e => s.leaveClose (.raised e)
  | _ =>
    if leases = [] then s.afterPoolLeases .returned
    else .suspend s (.poolLeases ⟨leases.map .leaseRelease, [], false⟩)

/-- `close` after the gather of `stream.aclose()`. -/
def afterPoolStreams (s : StreamSystem) (leases : List BackendLeaseId) (signal : Signal) :
    TaskRun :=
  match signal with
  | .raised e => s.leaveClose (.raised e)
  | _ => .suspend s (.poolBackends ⟨s.pool.slots.keys.map .backendClose, [], false⟩ leases)

/-- `close` after `await probe_task`, which swallows `CancelledError`. -/
def afterPoolProbe (s : StreamSystem) (leases : List BackendLeaseId) (streams : List StreamId)
    (signal : Signal) : TaskRun :=
  let proceed : TaskRun :=
    if streams = [] then s.afterPoolStreams leases .returned
    else .suspend s (.poolStreams ⟨streams.map .streamClose, [], false⟩ leases)
  match signal with
  | .raised .cancelled => proceed
  | .raised e => s.leaveClose (.raised e)
  | _ => proceed

/-- `close` once it has the close lock. Without a probe task there is nothing to await
    and the environment answers at once. -/
def closeLocked (s : StreamSystem) : TaskRun :=
  if s.pool.closed then s.leaveClose .returned
  else
    .suspend { s with pool := { s.pool with closed := true } }
      (.poolProbe
        ((List.range s.pool.leases.length).filter (· ∈ s.pool.activeLeases))
        ((List.range s.streams.length).filter (· ∈ s.pool.activeStreams)))

/-- `close`. -/
def poolClose (s : StreamSystem) : TaskRun :=
  match s.pool.closeLock.acquire with
  | (none, lock) => closeLocked { s with pool := { s.pool with closeLock := lock } }
  | (some waiter, lock) =>
    .suspend { s with pool := { s.pool with closeLock := lock } } (.poolLock waiter)

/-! ## `StreamingRelay` -/

/-- The bookkeeping at the end of `StreamingRelay.aclose`. -/
def settleRelay (s : StreamSystem) (i : RelayId) (finalOutcome : StreamOutcome) : StreamSystem :=
  match s.relays[i]? with
  | none => s
  | some relay =>
    let s := s.modifyRelay i fun rel =>
      { rel with metricsObserver := rel.metricsObserver.map (·.finalize) }
    let s := if relay.metricsObserver.isSome then s.record (.metricsFinalized i) else s
    if relay.onOutcome then s.record (.outcome i finalOutcome) else s

/-- `StreamingRelay.aclose` after `await self._backend_stream.aclose()`. -/
def afterRelayClose (s : StreamSystem) (i : RelayId) (outcome : StreamOutcome) (signal : Signal) :
    TaskRun :=
  -- the `finally` clause
  let s := s.record (.admissionReleased i)
  match signal with
  | .raised e =>
    if e.isException then .done ((s.settleRelay i .upstreamError).unlockRelay i) .returned
    else .done (s.unlockRelay i) (.raised e)
  | _ => .done ((s.settleRelay i outcome).unlockRelay i) .returned

/-- `StreamingRelay.aclose` once it has the close lock. -/
def relayLocked (s : StreamSystem) (i : RelayId) (outcome : StreamOutcome) : TaskRun :=
  match s.relays[i]? with
  | none => .done s .returned
  | some relay =>
    if relay.closed then
      .done (s.unlockRelay i) .returned
    else
      ((s.modifyRelay i ({ · with closed := true })).finish relay.stream .cancelled).andThen
        (.relayClose i outcome) fun s signal => s.afterRelayClose i outcome signal

/-- `StreamingRelay.aclose`. -/
def relayAclose (s : StreamSystem) (i : RelayId) (outcome : StreamOutcome) : TaskRun :=
  match s.relays[i]? with
  | none => .done s .returned
  | some relay =>
    let s := s.record (.relayCloseEntered i)
    match relay.closeLock.acquire with
    | (none, lock) => relayLocked (s.modifyRelay i ({ · with closeLock := lock })) i outcome
    | (some waiter, lock) =>
      .suspend (s.modifyRelay i ({ · with closeLock := lock })) (.relayLock i waiter outcome)

/-- The end of `StreamingRelay._iterate`. -/
def relayIterateEnd (s : StreamSystem) (it : RelayIteratorId) (signal : Signal) : TaskRun :=
  .done (s.setRelayIterator it .finished) signal

/-- `StreamingRelay._iterate` after the `aclose` of its `finally`. -/
def afterRelayIterateFinally (s : StreamSystem) (it : RelayIteratorId) (signal result : Signal) :
    TaskRun :=
  match result with
  | .raised e => s.relayIterateEnd it (.raised e)
  | _ => s.relayIterateEnd it signal

/-- The `finally` of `StreamingRelay._iterate`. -/
def relayIterateFinally (s : StreamSystem) (it : RelayIteratorId) (signal : Signal) : TaskRun :=
  match s.relayIterators[it]? with
  | none => .done s signal
  | some iterator =>
    if (s.relays[iterator.relay]?).any (!·.closed) then
      (s.relayAclose iterator.relay .cancelled).andThen (.relayIterateFinally it signal)
        fun s result => s.afterRelayIterateFinally it signal result
    else s.relayIterateEnd it signal

/-- `StreamingRelay._iterate` after the `aclose` of an `except` or `else` clause. -/
def afterRelayIterateClose (s : StreamSystem) (it : RelayIteratorId) (reraise : Option Exc)
    (result : Signal) : TaskRun :=
  match result, reraise with
  | .raised e, _ => s.relayIterateFinally it (.raised e)
  | _, some e => s.relayIterateFinally it (.raised e)
  | _, none => s.relayIterateFinally it .stop

/-- `StreamingRelay._iterate` when the backend stream has yielded, ended or raised. -/
def afterRelayIterate (s : StreamSystem) (it : RelayIteratorId) (signal : Signal) : TaskRun :=
  match s.relayIterators[it]? with
  | none => .done s signal
  | some iterator =>
    let closeThen (outcome : StreamOutcome) (reraise : Option Exc) : TaskRun :=
      (s.relayAclose iterator.relay outcome).andThen (.relayIterateClose it reraise)
        fun s result => s.afterRelayIterateClose it reraise result
    match signal with
    | .chunk events =>
      .done ((s.modifyRelay iterator.relay fun rel =>
        { rel with metricsObserver := rel.metricsObserver.map (·.observeBytes events) }).setRelayIterator
          it .suspended) (.chunk events)
    | .raised .cancelled => closeThen .cancelled (some .cancelled)
    | .raised .base => s.relayIterateFinally it (.raised .base)
    | .raised _ => closeThen .upstreamError none
    | _ => closeThen .completed none

/-- `__anext__` of a generator of `StreamingRelay._iterate`. -/
def relayNext (s : StreamSystem) (it : RelayIteratorId) : TaskRun :=
  match s.relayIterators[it]? with
  | none => .done s .stop
  | some iterator =>
    let next (s : StreamSystem) (inner : IteratorId) : TaskRun :=
      ((s.setRelayIterator it .running).iteratorNext inner).andThen (.relayIterate it)
        fun s signal => s.afterRelayIterate it signal
    match iterator.state, iterator.inner, s.relays[iterator.relay]? with
    | .finished, _, _ => .done s .stop
    | .running, _, _ => .done s (.raised .error)
    | .suspended, some inner, _ => next s inner
    -- the first `__anext__` makes the iterator of the backend stream
    | .created, _, some relay =>
      let inner := s.iterators.length
      next { s with
        iterators := s.iterators ++ [⟨relay.stream, .created⟩]
        relayIterators := s.relayIterators.modify it ({ · with inner := some inner }) } inner
    | _, _, _ => .done s .stop

/-- `aclose` of a generator of `StreamingRelay._iterate`. -/
def relayIteratorClose (s : StreamSystem) (it : RelayIteratorId) : TaskRun :=
  match s.relayIterators[it]? with
  | none => .done s .returned
  | some iterator =>
    match iterator.state with
    | .finished => .done s .returned
    | .running => .done s (.raised .error)
    | .created => .done (s.setRelayIterator it .finished) .returned
    | .suspended => (s.setRelayIterator it .running).relayIterateFinally it (.raised .base)

/-! ## `SSEStreamingResponse` -/

/-- `__call__` after the `aclose` of its `finally`. -/
def afterRespondFinally (s : StreamSystem) (signal result : Signal) : TaskRun :=
  match result with
  | .raised e => .done s (.raised e)
  | _ => .done s signal

/-- The `finally` of `__call__`. -/
def respondFinally (s : StreamSystem) (i : RelayId) (signal : Signal) : TaskRun :=
  (s.relayAclose i .cancelled).andThen (.respondFinally i signal)
    fun s result => s.afterRespondFinally signal result

/-- `__call__` after the `aclose` of an `except` clause. -/
def afterRespondClose (s : StreamSystem) (i : RelayId) (reraise : Option Exc) (result : Signal) :
    TaskRun :=
  match result, reraise with
  | .raised e, _ => s.respondFinally i (.raised e)
  | _, some e => s.respondFinally i (.raised e)
  | _, none => s.respondFinally i .returned

/-- `__call__` after `await super().__call__(...)`. -/
def afterRespond (s : StreamSystem) (i : RelayId) (signal : Signal) : TaskRun :=
  let closeThen (reraise : Option Exc) : TaskRun :=
    (s.relayAclose i .cancelled).andThen (.respondClose i reraise)
      fun s result => s.afterRespondClose i reraise result
  match signal with
  | .raised .clientDisconnect => closeThen none
  | .raised .cancelled => closeThen (some .cancelled)
  | .raised e => s.respondFinally i (.raised e)
  | _ => s.respondFinally i .returned

/-! ## The event loop -/

/-- The code after each `await`. For a lock, `returned` means that the task has it. -/
def react (s : StreamSystem) (frame : Frame) (signal : Signal) : TaskRun :=
  match frame with
  | .generate lease => s.afterOperation lease .generate signal
  | .batch lease => s.afterOperation lease .batch signal
  | .openStream lease => s.afterOpenStream lease signal
  | .openRejected => s.afterOpenRejected signal
  | .finishLock r _ outcome =>
    match signal with
    | .raised e => .done s (.raised e)
    | _ => s.finishLocked r outcome
  | .finishClose r outcome => s.afterFinishClose r outcome signal
  | .iterate it => s.afterIterate it signal
  | .iterateFinish it reraise => s.afterIterateFinish it reraise signal
  | .iterateFinally it sig => s.afterIterateFinally it sig signal
  | .relayLock i _ outcome =>
    match signal with
    | .raised e => .done s (.raised e)
    | _ => s.relayLocked i outcome
  | .relayClose i outcome => s.afterRelayClose i outcome signal
  | .relayIterate it => s.afterRelayIterate it signal
  | .relayIterateClose it reraise => s.afterRelayIterateClose it reraise signal
  | .relayIterateFinally it sig => s.afterRelayIterateFinally it sig signal
  | .respond i => s.afterRespond i signal
  | .respondClose i reraise => s.afterRespondClose i reraise signal
  | .respondFinally _ sig => s.afterRespondFinally sig signal
  | .probe task backendId => s.afterProbe task backendId signal
  | .probeOnce _ => .done s signal
  | .poolLock _ =>
    match signal with
    | .raised e => .done s (.raised e)
    | _ => s.closeLocked
  | .poolProbe leases streams => s.afterPoolProbe leases streams signal
  | .poolStreams _ leases => s.afterPoolStreams leases signal
  | .poolBackends _ leases => s.afterPoolBackends leases signal
  | .backendClose _ => .done s signal
  | .poolLeases _ => s.afterPoolLeases signal

/-- The calls a task can be started with. -/
inductive Call
  | generate
  | stream
  | generateBatch (n : Nat)
  | iteratorNext (it : IteratorId)
  | iteratorClose (it : IteratorId)
  | streamClose (stream : StreamId)
  | relayNext (it : RelayIteratorId)
  | relayIteratorClose (it : RelayIteratorId)
  | relayClose (relay : RelayId) (outcome : StreamOutcome)
  | respond (relay : RelayId)
  | probeOnce
  | poolClose
deriving DecidableEq, Repr

/-- Run a call to its first suspension. -/
def runCall (s : StreamSystem) : Call → TaskRun
  | .generate => s.generate
  | .stream => s.stream
  | .generateBatch n => s.generateBatch n
  | .iteratorNext it => s.iteratorNext it
  | .iteratorClose it => s.iteratorClose it
  -- `RoutedBackendStream.aclose`
  | .streamClose r => s.finish r .cancelled
  | .relayNext it => s.relayNext it
  | .relayIteratorClose it => s.relayIteratorClose it
  | .relayClose i outcome => s.relayAclose i outcome
  | .respond i => .suspend s (.respond i)
  | .probeOnce => s.probeOnce
  | .poolClose => s.poolClose

/-- Run a child of a gather to its first suspension. -/
def runChild (s : StreamSystem) (task : TaskId) : Child → TaskRun
  | .probe backendId => s.probe task backendId
  | .streamClose r => s.finish r .cancelled
  | .backendClose backendId => .suspend (s.record (.backendClosed backendId)) (.backendClose backendId)
  | .leaseRelease lease => s.releaseThen lease .returned

/-- Whether a leaf call can answer an `await` with this signal. -/
def answers (frame : Frame) (signal : Signal) : Bool :=
  match frame, signal with
  | .generate _, .returned | .batch _, .returned | .openStream _, .returned
  | .finishClose _ _, .returned | .respond _, .returned | .poolProbe _ _, .returned
  | .backendClose _, .returned => true
  | .generate _, .raised _ | .batch _, .raised _ | .openStream _, .raised _
  | .finishClose _ _, .raised _ | .respond _, .raised _ | .poolProbe _ _, .raised _
  | .backendClose _, .raised _ | .iterate _, .raised _ | .probe _ _, .raised _ => true
  | .iterate _, .chunk _ | .iterate _, .stop | .probe _ _, .verdict _ => true
  | _, _ => false

/-- What a task has raised. -/
def raisedBy (s : StreamSystem) (t : TaskId) : Option Exc :=
  match s.tasks[t]? with
  | some (.finished (.raised e)) => some e
  | _ => none

/-- Whether a task is over. -/
def isFinished (s : StreamSystem) (t : TaskId) : Bool :=
  match s.tasks[t]? with
  | some (.finished _) => true
  | _ => false

/-- How an awaited gather ends, if it can end so now. Without `return_exceptions` it
    raises what a child raised, the first one in time. -/
def gatherSignal (s : StreamSystem) (g : Gather) (returnExceptions : Bool)
    (failure : Option Exc) : Option Signal :=
  if g.notStarted ≠ [] then none
  else
    match failure with
    | some e =>
      if !returnExceptions && g.children.any fun t => s.raisedBy t = some e then some (.raised e)
      else none
    | none =>
      if !returnExceptions && g.children.any fun t => (s.raisedBy t).isSome then none
      else if g.children.all s.isFinished then
        some (if g.cancelled then .raised .cancelled else .returned)
      else none

/-- Cancel a task that waits for a lock or a gather. A leaf call that is cancelled
    raises `CancelledError` when it answers. -/
def cancelFrame (s : StreamSystem) (frame : Frame) : Option (StreamSystem × Frame) :=
  match frame with
  | .finishLock r waiter _ =>
    some (s.modifyStream r fun st => { st with closeLock := st.closeLock.cancel waiter }, frame)
  | .relayLock i waiter _ =>
    some (s.modifyRelay i fun rel => { rel with closeLock := rel.closeLock.cancel waiter }, frame)
  | .poolLock waiter =>
    some ({ s with pool := { s.pool with closeLock := s.pool.closeLock.cancel waiter } }, frame)
  -- the children that have not run yet never will
  | frame =>
    match frame.gather with
    | none => none
    | some g => some (s, frame.withGather { g with notStarted := [], cancelled := true })

/-- What a frame that waits for a lock or a gather receives when its task resumes. -/
def wake (s : StreamSystem) (frame : Frame) (failure : Option Exc) :
    Option (StreamSystem × Signal) :=
  let answer : Bool → Signal := fun acquired => if acquired then .returned else .raised .cancelled
  match frame with
  | .finishLock r waiter _ =>
    match (s.streams[r]?).bind (·.closeLock.resume waiter) with
    | some (acquired, lock) =>
      some (s.modifyStream r ({ · with closeLock := lock }), answer acquired)
    | none => none
  | .relayLock i waiter _ =>
    match (s.relays[i]?).bind (·.closeLock.resume waiter) with
    | some (acquired, lock) =>
      some (s.modifyRelay i ({ · with closeLock := lock }), answer acquired)
    | none => none
  | .poolLock waiter =>
    match s.pool.closeLock.resume waiter with
    | some (acquired, lock) =>
      some ({ s with pool := { s.pool with closeLock := lock } }, answer acquired)
    | none => none
  | frame =>
    match frame.gather with
    | none => none
    | some g =>
      match s.gatherSignal g frame.returnExceptions failure with
      | some signal => some (s, signal)
      | none => none

/-- What happens next. -/
inductive StreamAction
  /-- a new task makes a call -/
  | spawn (call : Call)
  /-- the leaf call a task awaits answers -/
  | leaf (task : TaskId) (signal : Signal)
  /-- a task that waits for a lock or a gather is cancelled -/
  | cancel (task : TaskId)
  /-- a task that waits for a lock or a gather resumes; `failure` is what the gather
      raises, if a child made it raise -/
  | resume (task : TaskId) (failure : Option Exc)
  /-- a child of the gather a task awaits runs for the first time -/
  | startChild (task : TaskId) (k : Nat)
  /-- `aiter` of a routed stream -/
  | newIterator (stream : StreamId)
  /-- a relay is made for a routed stream and an admission lease of its own -/
  | newRelay (stream : StreamId) (observed onOutcome : Bool)
  /-- `aiter` of a relay -/
  | newRelayIterator (relay : RelayId)
  | setObserver (attach : Bool)
deriving DecidableEq, Repr

/-- Set a task. -/
def setTask (s : StreamSystem) (t : TaskId) (task : Task) : StreamSystem :=
  { s with tasks := s.tasks.set t task }

/-- Store where a task's run has stopped. -/
def settle (t : TaskId) (run : TaskRun) : StreamSystem :=
  run.state.setTask t (match run.result with
    | .suspended frames => .suspended frames
    | .done signal => .finished signal)

/-- Add a task that is about to run. -/
def addTask (s : StreamSystem) : StreamSystem := { s with tasks := s.tasks ++ [.running] }

/-- Let a suspended task run with a signal for its innermost frame. -/
def runTask (s : StreamSystem) (t : TaskId) (stack : List Frame) (signal : Signal) : StreamSystem :=
  settle t (deliver react (s.setTask t .running) stack signal)

/-- One step; `none` if the action is not possible. -/
def step (s : StreamSystem) : StreamAction → Except Unit StreamSystem
  | .spawn call => .ok (settle s.tasks.length (s.addTask.runCall call))
  | .leaf t signal =>
    match s.tasks[t]? with
    | some (.suspended (frame :: stack)) =>
      if answers frame signal then .ok (s.runTask t (frame :: stack) signal) else .error ()
    | _ => .error ()
  | .cancel t =>
    match s.tasks[t]? with
    | some (.suspended (frame :: stack)) =>
      match s.cancelFrame frame with
      | some (s, frame) => .ok (s.setTask t (.suspended (frame :: stack)))
      | none => .error ()
    | _ => .error ()
  | .resume t failure =>
    match s.tasks[t]? with
    | some (.suspended (frame :: stack)) =>
      match s.wake frame failure with
      | some (s, signal) => .ok (s.runTask t (frame :: stack) signal)
      | none => .error ()
    | _ => .error ()
  | .startChild t k =>
    match s.tasks[t]? with
    | some (.suspended (frame :: stack)) =>
      match frame.gather with
      | none => .error ()
      | some g =>
        match g.notStarted[k]? with
        | none => .error ()
        | some child =>
          let frame := frame.withGather { g with
            notStarted := g.notStarted.eraseIdx k
            children := g.children ++ [s.tasks.length] }
          let s := (s.setTask t (.suspended (frame :: stack))).addTask
          .ok (settle (s.tasks.length - 1) (s.runChild (s.tasks.length - 1) child))
    | _ => .error ()
  | .newIterator r =>
    if r < s.streams.length then .ok { s with iterators := s.iterators ++ [⟨r, .created⟩] }
    else .error ()
  | .newRelay r observed onOutcome =>
    if r < s.streams.length then
      .ok { s with
        relays := s.relays ++
          [⟨r, if observed then some .new else none, onOutcome, .new, false⟩] }
    else .error ()
  | .newRelayIterator i =>
    if i < s.relays.length then
      .ok { s with relayIterators := s.relayIterators ++ [⟨i, none, .created⟩] }
    else .error ()
  | .setObserver attach => .ok { s with pool := s.pool.setObserver attach }

/-- The initial systems: a pool that its constructor accepts, and nothing else. -/
def Init (s : StreamSystem) : Prop :=
  s.streams = [] ∧ s.iterators = [] ∧ s.relays = [] ∧ s.relayIterators = [] ∧ s.tasks = [] ∧
    s.history = [] ∧ ∃ backendIds blank healthIntervalSeconds healthTimeoutSeconds observed,
      BackendPool.init backendIds blank healthIntervalSeconds healthTimeoutSeconds observed =
        .ok s.pool

/-- Every interleaving of the steps. -/
def lts : Lts StreamSystem StreamAction := Lts.ofStep Init step

end StreamSystem

end Gateway
