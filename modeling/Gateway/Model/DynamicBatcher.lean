import Gateway.Lib.Dict
import Gateway.Lib.Future
import Gateway.Model.Backend
import Gateway.Model.ChatSchema

/-!
# The dynamic batcher

`gateway/batching/dynamic.py`: requests with one compatibility key are collected
until there are `max_size` of them or a timer expires, and are then detached as one
upstream batch.

Every section under `self._lock` is free of awaits, so it is one function here. Items,
pending batches, timer tasks and flush tasks are referred to by their position in the
order of creation. `_timer_tasks`, `_flush_tasks` and `_flush_operations` are kept as a
flag of the tasks in them. Where the source can raise an error of its own bookkeeping,
the function returns that error (`Fault`).
-/

namespace Gateway

/-- A `_BatchItem`, by its position in the order of submission. -/
abbrev ItemId := Nat

/-- A `_PendingBatch`, by its position in the order of creation. -/
abbrev BatchId := Nat

/-- A timer task, by its position in the order of creation. -/
abbrev TimerId := Nat

/-- A flush task and its `_FlushOperation`, by their position in the order of detachment. -/
abbrev FlushId := Nat

/-- The exceptions a batch member can get. -/
inductive BatchError
  /-- `BatchingUnavailableError` -/
  | unavailable
  | backend (e : BackendError)
deriving DecidableEq, Repr

/-- What `generate_batch` comes back with. -/
inductive BatchAnswer
  | result (r : BackendBatchResult)
  /-- it returned something that is no `BackendBatchResult` -/
  | foreign
  | raised (e : BackendError)
  /-- `asyncio.CancelledError` -/
  | cancelled
deriving DecidableEq

/-- `FlushReason`. -/
inductive FlushReason
  | size
  | timeout
deriving DecidableEq, Repr

/-- `BatchOutcome`. -/
inductive BatchOutcome
  | success
  | error
  | cancelled
deriving DecidableEq, Repr

/-- `ItemState`. -/
inductive ItemState
  | pending
  | dispatched
  | completed
  | cancelled
deriving DecidableEq, Repr

/-- `_BatchItem`, with the arguments of its `submit` and its key. -/
structure BatchItem where
  tenantId : String
  request : ChatCompletionRequest
  key : String
  submittedAt : Int
  state : ItemState
  future : Future Response BatchError

/-- `_PendingBatch`. -/
structure PendingBatch where
  key : String
  items : List ItemId
  timerTask : Option TimerId
deriving DecidableEq, Repr

/-- Where a task of the batcher stands. -/
inductive TaskState
  /-- it has not run yet -/
  | created
  | awaiting
  | finished
deriving DecidableEq, Repr

/-- A task of `_timer_expired`. -/
structure TimerTask where
  batch : BatchId
  state : TaskState
  cancelRequested : Bool
  /-- it is in `_timer_tasks` -/
  tracked : Bool
deriving DecidableEq, Repr

/-- A task of `_execute_batch`, with its `_FlushOperation`. -/
structure FlushTask where
  items : List ItemId
  flushReason : FlushReason
  started : Bool
  state : TaskState
  cancelRequested : Bool
  /-- it is in `_flush_tasks` and `_flush_operations` -/
  tracked : Bool
  /-- what `generate_batch` came back with -/
  answer : Option BatchAnswer
deriving DecidableEq

/-- The calls the observer receives. -/
inductive BatchObservation
  | stateChanged (pending inflight : Int)
  | dispatched (flushReason : FlushReason) (size : Nat) (waitSeconds : List Int)
  | completed (flushReason : FlushReason) (outcome : BatchOutcome)
  | usage (usageResult : BatchUsage) (completionTokens : Option Int) (memberCount : Nat)
deriving DecidableEq, Repr

/-- The errors of broken bookkeeping. -/
inductive DynamicBatcher.Fault
  /-- `RuntimeError("dynamic batch item state became inconsistent")` -/
  | itemState
  /-- `RuntimeError("dynamic batch inflight accounting became inconsistent")` -/
  | inflight
deriving DecidableEq, Repr

/-- `DynamicBatcher`, with its items, batches and tasks. -/
structure DynamicBatcher where
  maxSize : Nat
  groups : Dict String BatchId
  pending : Int
  inflight : Int
  closed : Bool
  /-- The calls the observer received; `none` without an observer. -/
  observer : Option (List BatchObservation)
  items : List BatchItem
  batches : List PendingBatch
  timers : List TimerTask
  flushes : List FlushTask

/-- `task.cancel()`. -/
def TimerTask.cancel (t : TimerTask) : TimerTask :=
  if t.state = .finished then t else { t with cancelRequested := true }

/-- `task.cancel()`. -/
def FlushTask.cancel (t : FlushTask) : FlushTask :=
  if t.state = .finished then t else { t with cancelRequested := true }

/-- The item is completed, and its future gets a value unless it is done. -/
def BatchItem.complete (item : BatchItem) (value : Future Response BatchError) : BatchItem :=
  { item with
    state := .completed
    future := if item.future.done then item.future else value }

namespace DynamicBatcher

/-- Call the observer, if there is one. -/
def observe (b : DynamicBatcher) (o : BatchObservation) : DynamicBatcher :=
  { b with observer := b.observer.map (· ++ [o]) }

/-- `_notify_state`. -/
def notifyState (b : DynamicBatcher) : DynamicBatcher :=
  b.observe (.stateChanged b.pending b.inflight)

/-- `__init__`; `none` stands for its `ValueError`s. -/
def init (maxSize : Nat) (maxWaitSeconds : Rat) (observed : Bool) : Option DynamicBatcher :=
  if ¬(2 ≤ maxSize ∧ maxSize ≤ 64) then none
  else if ¬(0 < maxWaitSeconds ∧ maxWaitSeconds ≤ 1) then none
  else
    some (notifyState
      { maxSize, groups := .empty, pending := 0, inflight := 0, closed := false
        observer := if observed then some [] else none
        items := [], batches := [], timers := [], flushes := [] })

/-- Update one item. -/
def modifyItem (b : DynamicBatcher) (i : ItemId) (f : BatchItem → BatchItem) : DynamicBatcher :=
  { b with items := b.items.modify i f }

/-- Update one timer task. -/
def modifyTimer (b : DynamicBatcher) (t : TimerId) (f : TimerTask → TimerTask) : DynamicBatcher :=
  { b with timers := b.timers.modify t f }

/-- Update one flush task. -/
def modifyFlush (b : DynamicBatcher) (f : FlushId) (g : FlushTask → FlushTask) : DynamicBatcher :=
  { b with flushes := b.flushes.modify f g }

/-- `batch.timer_task.cancel()`, unless it is the current task. -/
def cancelTimer (b : DynamicBatcher) (timerTask current : Option TimerId) : DynamicBatcher :=
  match timerTask with
  | some t => if some t = current then b else b.modifyTimer t (·.cancel)
  | none => b

/-- The `for` loop of `_detach_locked`. -/
def dispatchItems : List ItemId → List BatchItem → Except Fault (List BatchItem)
  | [], items => .ok items
  | i :: is, items =>
    if items[i]?.any fun item => item.state = .pending then
      dispatchItems is (items.modify i ({ · with state := .dispatched }))
    else .error .itemState

/-- How long the members of a batch have waited. -/
def waits (is : List ItemId) (items : List BatchItem) (dispatchedAt : Int) : List Int :=
  is.map fun i => max 0 (dispatchedAt - (items[i]?.map (·.submittedAt)).getD dispatchedAt)

/-- `_detach_locked` of the group of a batch, once its items are dispatched. -/
def detach (b : DynamicBatcher) (batch : PendingBatch) (dispatched : List BatchItem)
    (flushReason : FlushReason) (current : Option TimerId) (dispatchedAt : Int) : DynamicBatcher :=
  let b := cancelTimer { b with groups := b.groups.erase batch.key } batch.timerTask current
  let b := notifyState
    { b with
      items := dispatched
      pending := b.pending - batch.items.length
      inflight := b.inflight + 1 }
  let b := b.observe
    (.dispatched flushReason batch.items.length (waits batch.items dispatched dispatchedAt))
  { b with
    flushes := b.flushes ++
      [{ items := batch.items, flushReason, started := false, state := .created
         cancelRequested := false, tracked := true, answer := none }] }

/-- `_detach_locked`. -/
def detachLocked (b : DynamicBatcher) (batchId : BatchId) (flushReason : FlushReason)
    (current : Option TimerId) (dispatchedAt : Int) : Except Fault DynamicBatcher :=
  match b.batches[batchId]? with
  | none => .ok b
  | some batch =>
    if b.groups.get? batch.key ≠ some batchId ∨ batch.items = [] then .ok b
    else
      match dispatchItems batch.items b.items with
      | .error fault => .error fault
      | .ok dispatched => .ok (b.detach batch dispatched flushReason current dispatchedAt)

/-- `submit`: the new item. -/
def addItem (b : DynamicBatcher) (tenantId : String) (request : ChatCompletionRequest)
    (submittedAt : Int) : DynamicBatcher :=
  { b with
    items := b.items ++
      [{ tenantId, request, key := compatibilityKey tenantId request, submittedAt
         state := .pending, future := .pending }] }

/-- `submit`: the pending batch of a key, made with its timer if there is none. -/
def ensureBatch (b : DynamicBatcher) (key : String) : BatchId × DynamicBatcher :=
  match b.groups.get? key with
  | some batchId => (batchId, b)
  | none =>
    (b.batches.length,
      { b with
        groups := b.groups.set key b.batches.length
        batches := b.batches ++ [{ key, items := [], timerTask := some b.timers.length }]
        timers := b.timers ++
          [{ batch := b.batches.length, state := .created, cancelRequested := false
             tracked := true }] })

/-- `submit`: the item joins the pending batch. -/
def enqueue (b : DynamicBatcher) (batchId : BatchId) (i : ItemId) : DynamicBatcher :=
  notifyState
    { b with
      batches := b.batches.modify batchId fun batch => { batch with items := batch.items ++ [i] }
      pending := b.pending + 1 }

/-- How many items a pending batch has. -/
def batchSize (b : DynamicBatcher) (batchId : BatchId) : Nat :=
  (b.batches[batchId]?.map (·.items.length)).getD 0

/-- The section of `submit` of an open batcher. -/
def submitLocked (b : DynamicBatcher) (tenantId : String) (request : ChatCompletionRequest)
    (submittedAt dispatchedAt : Int) : Except Fault DynamicBatcher :=
  let (batchId, b₁) :=
    (b.addItem tenantId request submittedAt).ensureBatch (compatibilityKey tenantId request)
  let b₂ := b₁.enqueue batchId b.items.length
  if b.maxSize ≤ b₂.batchSize batchId then b₂.detachLocked batchId .size none dispatchedAt
  else .ok b₂

/-- `_cancel_item`: the item leaves its pending batch. -/
def leaveBatch (b : DynamicBatcher) (i : ItemId) (key : String) : DynamicBatcher :=
  match b.groups.get? key with
  | none => b
  | some batchId =>
    match b.batches[batchId]? with
    | none => b
    | some batch =>
      if i ∈ batch.items then
        let rest := batch.items.erase i
        let b₁ := { b with
          batches := b.batches.set batchId { batch with items := rest }
          pending := b.pending - 1 }
        notifyState
          (if rest = [] then
            cancelTimer { b₁ with groups := b₁.groups.erase key } batch.timerTask none
          else b₁)
      else b

/-- `_cancel_item`. -/
def cancelItem (b : DynamicBatcher) (i : ItemId) : DynamicBatcher :=
  match b.items[i]? with
  | none => b
  | some item =>
    let b₁ :=
      match item.state with
      | .pending => (b.leaveBatch i item.key).modifyItem i ({ · with state := .cancelled })
      | .dispatched => b.modifyItem i ({ · with state := .cancelled })
      | _ => b
    b₁.modifyItem i fun item => { item with future := item.future.cancel }

/-- The `for` loop of `_complete_success`: the items, and how many responses were
    delivered. -/
def completeItems : List (ItemId × Response) → List BatchItem → Except Fault (List BatchItem × Nat)
  | [], items => .ok (items, 0)
  | (i, response) :: rest, items =>
    match items[i]? with
    | none => completeItems rest items
    | some item =>
      match item.state with
      | .cancelled => completeItems rest items
      | .dispatched =>
        match completeItems rest (items.modify i fun item => item.complete (.result response)) with
        | .error fault => .error fault
        | .ok (items, delivered) =>
          .ok (items, if item.future.done then delivered else delivered + 1)
      | _ => .error .itemState

/-- The `for` loop of `_fail_items`. -/
def failItems (e : BatchError) : List ItemId → List BatchItem → Except Fault (List BatchItem)
  | [], items => .ok items
  | i :: is, items =>
    match items[i]? with
    | none => failItems e is items
    | some item =>
      match item.state with
      | .cancelled => failItems e is items
      | .dispatched => failItems e is (items.modify i fun item => item.complete (.exception e))
      | _ => .error .itemState

/-- The `except` clauses of `_execute_batch`. -/
def failBatch (b : DynamicBatcher) (is : List ItemId) (e : BatchError) (outcome : BatchOutcome) :
    Except Fault (BatchOutcome × DynamicBatcher) :=
  match failItems e is b.items with
  | .error fault => .error fault
  | .ok failed => .ok (outcome, { b with items := failed })

/-- `_execute_batch` from the answer of `generate_batch` to its `finally` clause. -/
def resolveBatch (b : DynamicBatcher) (is : List ItemId) :
    BatchAnswer → Except Fault (BatchOutcome × DynamicBatcher)
  | .result r =>
    if r.responses.length ≠ is.length then b.failBatch is (.backend .protocol) .error
    else
      match completeItems (is.zip r.responses) b.items with
      | .error fault => .error fault
      | .ok (completed, delivered) =>
        .ok (.success, observe { b with items := completed }
          (.usage r.usageResult r.aggregateCompletionTokens delivered))
  | .foreign => b.failBatch is (.backend .protocol) .error
  | .raised e => b.failBatch is (.backend e) .error
  | .cancelled => b.failBatch is .unavailable .cancelled

/-- The `finally` clause of `_execute_batch`. -/
def finishFlush (b : DynamicBatcher) (f : FlushId) (task : FlushTask) (answer : BatchAnswer)
    (outcome : BatchOutcome) : Except Fault DynamicBatcher :=
  if b.inflight ≤ 0 then .error .inflight
  else
    .ok ((observe (notifyState { b with inflight := b.inflight - 1 })
      (.completed task.flushReason outcome)).modifyFlush f
        ({ · with state := .finished, answer := some answer }))

/-- `_execute_batch` from the answer of `generate_batch` to its end. -/
def answerFlush (b : DynamicBatcher) (f : FlushId) (task : FlushTask) (answer : BatchAnswer) :
    Except Fault DynamicBatcher :=
  match b.resolveBatch task.items answer with
  | .error fault => .error fault
  | .ok (outcome, b₁) => b₁.finishFlush f task answer outcome

/-- `shutdown`: fail the items of a pending batch. -/
def failPending : List ItemId → DynamicBatcher → DynamicBatcher
  | [], b => b
  | i :: is, b =>
    if b.items[i]?.any fun item => item.state = .pending then
      failPending is
        { b with
          items := b.items.modify i fun item => item.complete (.exception .unavailable)
          pending := b.pending - 1 }
    else failPending is b

/-- `shutdown`: the loop over the pending batches. -/
def closeBatches : List BatchId → DynamicBatcher → DynamicBatcher
  | [], b => b
  | batchId :: rest, b =>
    match b.batches[batchId]? with
    | none => closeBatches rest b
    | some batch => closeBatches rest (failPending batch.items (b.cancelTimer batch.timerTask none))

/-- `shutdown`: fail the items of a detached batch that never starts. -/
def failDetached : List ItemId → List BatchItem → List BatchItem
  | [], items => items
  | i :: is, items =>
    failDetached is (items.modify i fun item =>
      if item.state = .dispatched then item.complete (.exception .unavailable) else item)

/-- `shutdown`: the loop over the flush tasks. The result has the flush reasons of
    those that never start. -/
def cancelFlushes : List FlushId → DynamicBatcher → Except Fault (List FlushReason × DynamicBatcher)
  | [], b => .ok ([], b)
  | f :: fs, b =>
    match b.flushes[f]? with
    | none => cancelFlushes fs b
    | some task =>
      if task.started then cancelFlushes fs (b.modifyFlush f (·.cancel))
      else if b.inflight ≤ 0 then .error .inflight
      else
        match cancelFlushes fs
          { b.modifyFlush f (·.cancel) with
            items := failDetached task.items b.items
            inflight := b.inflight - 1 } with
        | .error fault => .error fault
        | .ok (reasons, b) => .ok (task.flushReason :: reasons, b)

/-- The tasks that are in a tracking set. -/
def trackedIds {α : Type} (tracked : α → Bool) (tasks : List α) : List Nat :=
  (List.range tasks.length).filter fun t => tasks[t]?.any tracked

/-- `shutdown` of an open batcher, up to the point where it waits: the timer tasks and
    the flush tasks it waits for. -/
def shutdownLocked (b : DynamicBatcher) :
    Except Fault ((List TimerId × List FlushId) × DynamicBatcher) :=
  let b₁ := closeBatches b.groups.values { b with closed := true, groups := .empty }
  let flushTasks := trackedIds (·.tracked) b₁.flushes
  match cancelFlushes flushTasks b₁ with
  | .error fault => .error fault
  | .ok (reasons, b₂) =>
    .ok ((trackedIds (·.tracked) b₂.timers, flushTasks),
      reasons.foldl (fun b reason => b.observe (.completed reason .cancelled)) b₂.notifyState)

end DynamicBatcher

end Gateway
