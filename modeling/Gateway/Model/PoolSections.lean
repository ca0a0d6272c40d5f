import Gateway.Lib.TransitionSystem
import Gateway.Model.BackendPool

/-!
# Runs of the backend pool

The sections of `BackendPool` under its lock, as the steps of a transition system: the
operations, the probes and `close` run them in any order. A section that raises leaves the
pool as it is, so only those that return are steps.
-/

namespace Gateway

/-- A section of the pool. -/
inductive PoolSection
  /-- `_select` -/
  | select (weight : Int)
  /-- `_release` -/
  | release (lease : BackendLeaseId)
  /-- `_register_stream` -/
  | registerStream (stream : StreamId)
  /-- `_unregister_stream` -/
  | unregisterStream (stream : StreamId)
  /-- `_set_health` and `_mark_unhealthy` -/
  | setHealth (backendId : String) (healthy : Bool)
  /-- `_observe_operation` -/
  | observeOperation (backendId : String) (operation : BackendOperation) (outcome : BackendOutcome)
  /-- `set_observer` -/
  | setObserver (attach : Bool)
  /-- the first section of `close` -/
  | beginClose
  /-- the last section of `close` -/
  | finishClose

namespace BackendPool

/-- The first section of `close`. -/
def beginClose (p : BackendPool) : BackendPool := { p with closed := true }

/-- One section. -/
def step (p : BackendPool) : PoolSection → Except Error BackendPool
  | .select weight =>
    match p.select weight with
    | .ok (_, p') => .ok p'
    | .error e => .error e
  | .release lease => p.release lease
  | .registerStream stream => .ok (p.registerStream stream).2
  | .unregisterStream stream => .ok (p.unregisterStream stream)
  | .setHealth backendId healthy => .ok (p.setHealth backendId healthy)
  | .observeOperation backendId operation outcome =>
    .ok (p.observeOperation backendId operation outcome)
  | .setObserver attach => .ok (p.setObserver attach)
  | .beginClose => .ok p.beginClose
  | .finishClose => .ok p.finishClose

/-- The pools that the constructor accepts. -/
def Init (p : BackendPool) : Prop :=
  ∃ backendIds blank healthIntervalSeconds healthTimeoutSeconds observed,
    init backendIds blank healthIntervalSeconds healthTimeoutSeconds observed = .ok p

/-- Every order of the sections. -/
def sections : Lts BackendPool PoolSection := Lts.ofStep Init step

/-- The backend of the newest lease. -/
def chosen (p : BackendPool) : String := (p.leases.getLast?.map (·.backendId)).getD ""

/-- The selections of a run, each with the pool that it was made in. -/
def selections : BackendPool → List PoolSection → List (BackendPool × String)
  | _, [] => []
  | p, a :: as =>
    match p.step a with
    | .error _ => []
    | .ok p' =>
      match a with
      | .select _ => (p, p'.chosen) :: selections p' as
      | _ => selections p' as

end BackendPool

end Gateway
