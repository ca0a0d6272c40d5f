import Gateway.Lib.AsyncLock
import Gateway.Lib.Dict
import Mathlib.Data.Finset.Basic

/-!
# The backend pool

`gateway/routing/pool.py`: the slots of a `BackendPool`, its leases and its
registered streams, and the sections under `self._lock`. None of these sections
awaits anything, so each is one function from the state before it to the state
after it. `_slots` and `_slots_by_id` hold the same slots, so they are one
insertion-ordered dictionary. A `BackendLease` is referred to by its position in
the order of selections.
-/

namespace Gateway

/-- A `BackendLease`, by its position in the order of selections. -/
abbrev BackendLeaseId := Nat

/-- A `RoutedBackendStream`, by its position in the order of creation. -/
abbrev StreamId := Nat

/-- `_BackendSlot`, less its client. -/
structure BackendSlot where
  healthy : Option Bool
  inflight : Int
deriving DecidableEq, Repr

/-- `BackendLease`, with the ID of its slot. -/
structure BackendLease where
  backendId : String
  weight : Int
  released : Bool
deriving DecidableEq, Repr

/-- `BackendOperation`. -/
inductive BackendOperation
  | generate
  | stream
  | batch
deriving DecidableEq, Repr

/-- `BackendOutcome`. -/
inductive BackendOutcome
  | success
  | error
  | cancelled
deriving DecidableEq, Repr

/-- The calls of a `BackendPoolObserver`. -/
inductive BackendObservation
  | stateChanged (backends : List (String × Bool × Int))
  | operationObserved (backendId : String) (operation : BackendOperation)
      (outcome : BackendOutcome)
deriving DecidableEq, Repr

/-- `BackendPool`, with every lease it handed out. -/
structure BackendPool where
  slots : Dict String BackendSlot
  cursor : Nat
  closeLock : AsyncLock
  activeLeases : Finset BackendLeaseId
  activeStreams : Finset StreamId
  closed : Bool
  /-- The calls the attached observer received; `none` without an observer. -/
  observer : Option (List BackendObservation)
  /-- Every lease so far, oldest first. -/
  leases : List BackendLease

namespace BackendPool

/-- The errors of the sections. -/
inductive Error
  /-- `NoHealthyBackendError` -/
  | noHealthyBackend
  /-- `ValueError("backend assignment weight must be positive")` -/
  | weightNotPositive
  /-- `RuntimeError("backend inflight accounting became inconsistent")` -/
  | inflightInconsistent
  /-- `KeyError` of a backend ID without a slot -/
  | keyError
deriving DecidableEq, Repr

/-- `_notify_observer`. -/
def notifyObserver (p : BackendPool) : BackendPool :=
  { p with
    observer := p.observer.map (· ++ [.stateChanged (p.slots.entries.map fun s =>
      (s.1, s.2.healthy = some true ∧ !p.closed, s.2.inflight))]) }

/-- `_observe_operation`. -/
def observeOperation (p : BackendPool) (backendId : String) (operation : BackendOperation)
    (outcome : BackendOutcome) : BackendPool :=
  { p with observer := p.observer.map (· ++ [.operationObserved backendId operation outcome]) }

/-- `set_observer`. -/
def setObserver (p : BackendPool) (attach : Bool) : BackendPool :=
  notifyObserver { p with observer := if attach then some [] else none }

/-- `__init__`, for the IDs of the backends. The messages are those of its
    `ValueError`s; `blank` tells the IDs that are empty once stripped. -/
def init (backendIds : List String) (blank : String → Bool)
    (healthIntervalSeconds healthTimeoutSeconds : Rat) (observed : Bool) :
    Except String BackendPool :=
  if backendIds = [] then .error "at least one backend is required"
  else if healthIntervalSeconds ≤ 0 ∨ healthTimeoutSeconds ≤ 0 then
    .error "backend health timing must be positive"
  else if backendIds.any blank then .error "backend IDs must not be blank"
  else
    let slots := Dict.ofList (backendIds.map fun id => (id, BackendSlot.mk none 0))
    if slots.entries.length ≠ backendIds.length then .error "backend IDs must be unique"
    else
      .ok (notifyObserver {
        slots := slots
        cursor := 0
        closeLock := .new
        activeLeases := ∅
        activeStreams := ∅
        closed := false
        observer := if observed then some [] else none
        leases := [] })

/-- `healthy_indices`, with the inflight counts of their slots. -/
def healthyIndices (p : BackendPool) : List (Nat × Int) :=
  p.slots.entries.zipIdx.filterMap fun (s, i) =>
    if s.2.healthy = some true then some (i, s.2.inflight) else none

/-- `selected_index`: the first least loaded healthy slot from the cursor on. -/
def selectedIndex (p : BackendPool) : Option Nat :=
  match (p.healthyIndices.map Prod.snd).min? with
  | none => none
  | some minimumInflight =>
    ((List.range p.slots.entries.length).map fun offset =>
      (p.cursor + offset) % p.slots.entries.length).find? fun index =>
        (index, minimumInflight) ∈ p.healthyIndices

/-- `_select`. -/
def select (p : BackendPool) (weight : Int) : Except Error (BackendLeaseId × BackendPool) :=
  if weight ≤ 0 then .error .weightNotPositive
  else if p.closed then .error .noHealthyBackend
  else
    match p.selectedIndex with
    | none => .error .noHealthyBackend
    | some index =>
      match p.slots.entries[index]? with
      | none => .error .noHealthyBackend
      | some (backendId, _) =>
        .ok (p.leases.length, notifyObserver
          { p with
            slots := p.slots.modify backendId fun s => { s with inflight := s.inflight + weight }
            cursor := (index + 1) % p.slots.entries.length
            activeLeases := insert p.leases.length p.activeLeases
            leases := p.leases ++ [⟨backendId, weight, false⟩] })

/-- `_release`. -/
def release (p : BackendPool) (lease : BackendLeaseId) : Except Error BackendPool :=
  match p.leases[lease]? with
  | none => .error .keyError
  | some l =>
    if l.released then .ok p
    else
      match p.slots.get? l.backendId with
      | none => .error .keyError
      | some slot =>
        if slot.inflight < l.weight then .error .inflightInconsistent
        else
          .ok (notifyObserver
            { p with
              slots := p.slots.modify l.backendId fun s =>
                { s with inflight := s.inflight - l.weight }
              activeLeases := p.activeLeases.erase lease
              leases := p.leases.set lease { l with released := true } })

/-- `_register_stream`: whether the stream was registered. -/
def registerStream (p : BackendPool) (stream : StreamId) : Bool × BackendPool :=
  if p.closed then (false, p)
  else (true, { p with activeStreams := insert stream p.activeStreams })

/-- `_unregister_stream`. -/
def unregisterStream (p : BackendPool) (stream : StreamId) : BackendPool :=
  { p with activeStreams := p.activeStreams.erase stream }

/-- `_set_health`. -/
def setHealth (p : BackendPool) (backendId : String) (healthy : Bool) : BackendPool :=
  if p.closed then p
  else notifyObserver
    { p with slots := p.slots.modify backendId ({ · with healthy := some healthy }) }

/-- `_mark_unhealthy`. -/
def markUnhealthy (p : BackendPool) (backendId : String) : BackendPool :=
  p.setHealth backendId false

/-- The last section of `close`. -/
def finishClose (p : BackendPool) : BackendPool :=
  notifyObserver { p with slots := p.slots.mapValues ({ · with healthy := some false }) }

end BackendPool

end Gateway
