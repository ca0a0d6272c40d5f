import Gateway.Model.StreamTasks
import Gateway.Spec.PoolAccounting

/-!
# What a task can do to the pool, the streams and the relays

A task that runs works on the shared state and on the frames that are alive: it
pops the frames it returns to and pushes those it waits in. `Effect` lists the
single changes a task makes on the way, with the fact that makes each of them safe.
Every function of `StreamTasks` is a sequence of these changes, so an invariant
has to be checked against them only.

Some of the changes are not safe for everything the pool and the relays promise: the
verdict of a probe, leaving `StreamingRelay.aclose` by an exception that is no
`Exception`, the end of an operation, another observer, and what `BackendPool.close`
does. A `Guard` says when a run may make them.

## Key results

- `Effect`: the changes
- `releaseLease_ok`: what a release does
-/

namespace Gateway

/-- The lease that the code after the frame releases, or turns into a stream's. -/
def Frame.lease? : Frame → Option BackendLeaseId
  | .generate l | .batch l | .openStream l => some l
  | _ => none

/-- A frame of `StreamingRelay.aclose` for the relay. -/
def Frame.closesRelay (i : RelayId) : Frame → Bool
  | .relayClose j _ => j = i
  | _ => false

/-- A frame of `_finish` for the stream, in the close of the leaf. -/
def Frame.finishes (r : StreamId) : Frame → Bool
  | .finishClose r' _ => r' = r
  | _ => false

/-- A frame of `_finish`, which runs on the close lock of a routed stream. -/
def Frame.isFinish : Frame → Bool
  | .finishLock _ _ _ | .finishClose _ _ => true
  | _ => false

/-- Whether the code after the frame has something to give back. -/
def Frame.owes : Frame → Bool
  | .generate _ | .batch _ | .openStream _ | .finishClose _ _ | .relayClose _ _ => true
  | _ => false

/-- The frames that functions of `StreamTasks` wait in for other functions of it. The
    others wait for a leaf, a lock or a gather. -/
def Frame.isCaller : Frame → Bool
  | .openRejected | .iterateFinish _ _ | .iterateFinally _ _ | .relayClose _ _
  | .relayIterate _ | .relayIterateClose _ _ | .relayIterateFinally _ _
  | .respondClose _ _ | .respondFinally _ _ => true
  | _ => false

theorem Frame.owes_of_gather {f : Frame} {g : Gather} (h : f.gather = some g) :
    f.owes = false := by
  cases f <;> simp_all [Frame.gather, Frame.owes]

theorem Frame.owes_withGather {f : Frame} {g : Gather} (h : f.gather = some g) (g' : Gather) :
    (f.withGather g').owes = false := by
  cases f <;> simp_all [Frame.gather, Frame.withGather, Frame.owes]

theorem Frame.lease?_of_owes {f : Frame} (h : f.owes = false) : f.lease? = none := by
  cases f <;> simp_all [Frame.owes, Frame.lease?]

theorem Frame.closesRelay_of_owes {f : Frame} (h : f.owes = false) (i : RelayId) :
    f.closesRelay i = false := by
  cases f <;> simp_all [Frame.owes, Frame.closesRelay]

theorem Frame.closesRelay_of_lease? {f : Frame} {l : BackendLeaseId} (h : f.lease? = some l)
    (i : RelayId) : f.closesRelay i = false := by
  cases f <;> simp_all [Frame.lease?, Frame.closesRelay]

theorem Frame.finishes_iff {f : Frame} {r : StreamId} :
    f.finishes r = true ↔ ∃ o, f = .finishClose r o := by
  cases f <;> simp [Frame.finishes]

theorem Frame.finishes_of_owes {f : Frame} (h : f.owes = false) (r : StreamId) :
    f.finishes r = false := by
  cases f <;> simp_all [Frame.owes, Frame.finishes]

theorem Frame.finishes_of_lease? {f : Frame} {l : BackendLeaseId} (h : f.lease? = some l)
    (r : StreamId) : f.finishes r = false := by
  cases f <;> simp_all [Frame.lease?, Frame.finishes]

theorem Frame.ne_finishClose_of_owes {f : Frame} (h : f.owes = false) (r : StreamId)
    (o : BackendOutcome) : Frame.finishClose r o ≠ f := by
  rintro rfl
  exact nomatch h

theorem Frame.ne_finishClose_of_lease? {f : Frame} {l : BackendLeaseId} (h : f.lease? = some l)
    (r : StreamId) (o : BackendOutcome) : Frame.finishClose r o ≠ f := by
  rintro rfl
  exact nomatch h

/-- A frame of `BackendPool.close`. -/
def Frame.isPoolClose : Frame → Bool
  | .poolLock _ | .poolProbe _ _ | .poolStreams _ _ | .poolBackends _ _ | .poolLeases _ => true
  | _ => false

theorem Frame.isPoolClose_of_isCaller {f : Frame} (h : f.isCaller = true) :
    f.isPoolClose = false := by
  cases f <;> simp_all [Frame.isCaller, Frame.isPoolClose]

/-- How an operation is observed, if it is. -/
abbrev OperationCall := Option (BackendOperation × BackendOutcome)

/-- When a run may make the changes that can break a promise. -/
structure Guard where
  /-- a probe of the backend may restore it -/
  verdict : BackendPool → List StreamEvent → TaskId → String → Prop
  /-- `StreamingRelay.aclose` of the relay may be left without its bookkeeping -/
  abandon : RelayId → Prop
  /-- the operation with the lease may end, observed so -/
  ends : BackendLeaseId → OperationCall → Prop
  /-- the stream may be finished as a success -/
  completes : StreamId → Prop
  /-- an observer may be attached or detached -/
  attaches : Prop
  /-- `BackendPool.close` may go on, other than by waiting -/
  shutdown : Prop

/-- The guard that permits everything. -/
def Guard.any : Guard where
  verdict _ _ _ _ := True
  abandon _ := True
  ends _ _ := True
  completes _ := True
  attaches := True
  shutdown := True

namespace BackendPool

/-- The operations the attached observer was told of. -/
def operations (p : BackendPool) : Option (List (String × BackendOperation × BackendOutcome)) :=
  p.observer.map fun calls => calls.filterMap fun
    | .operationObserved backendId operation outcome => some (backendId, operation, outcome)
    | .stateChanged _ => none

@[simp] theorem notifyObserver_operations (p : BackendPool) :
    p.notifyObserver.operations = p.operations := by
  unfold operations notifyObserver
  cases p.observer <;> simp

@[simp] theorem observeOperation_operations (p : BackendPool) (b : String)
    (operation : BackendOperation) (outcome : BackendOutcome) :
    (p.observeOperation b operation outcome).operations =
      p.operations.map (· ++ [(b, operation, outcome)]) := by
  unfold operations observeOperation
  cases p.observer <;> simp

@[simp] theorem setHealth_operations (p : BackendPool) (b : String) (healthy : Bool) :
    (p.setHealth b healthy).operations = p.operations := by
  unfold setHealth
  split
  · rfl
  · rw [notifyObserver_operations]
    rfl

theorem select_operations {p pool : BackendPool} {w : Int} {l : BackendLeaseId}
    (h : p.select w = .ok (l, pool)) : pool.operations = p.operations := by
  unfold select at h
  split at h
  · cases h
  split at h
  · cases h
  split at h
  · cases h
  split at h
  · cases h
  · cases h
    rw [notifyObserver_operations]
    rfl

theorem release_operations {p pool : BackendPool} {l : BackendLeaseId}
    (h : p.release l = .ok pool) : pool.operations = p.operations := by
  unfold release at h
  split at h
  · cases h
  split at h
  · cases h
    rfl
  split at h
  · cases h
  split at h
  · cases h
  · cases h
    rw [notifyObserver_operations]
    rfl

end BackendPool

namespace StreamSystem

/-! ## Readings of a state -/

/-- The routed stream exists and is closed. -/
def streamClosed (s : StreamSystem) (r : StreamId) : Bool := (s.streams[r]?).any (·.closed)

/-- The routed stream exists and is open. -/
def streamOpen (s : StreamSystem) (r : StreamId) : Bool := (s.streams[r]?).any (!·.closed)

/-- The relay exists and is closed. -/
def relayClosed (s : StreamSystem) (i : RelayId) : Bool := (s.relays[i]?).any (·.closed)

/-- The leases somebody has to release: those of operations in their leaf call, and
    those of the routed streams. -/
def holders (s : StreamSystem) (F : List Frame) : List BackendLeaseId :=
  F.filterMap Frame.lease? ++ s.streams.map (·.lease)

section Readings

variable {s : StreamSystem} {r : StreamId} {i : RelayId} {st : RoutedBackendStream}
  {relay : StreamingRelay}

theorem streamClosed_of (h : s.streams[r]? = some st) : s.streamClosed r = st.closed := by
  simp [streamClosed, h]

theorem streamOpen_of (h : s.streams[r]? = some st) : s.streamOpen r = !st.closed := by
  simp [streamOpen, h]

theorem streamClosed_iff : s.streamClosed r = true ↔
    ∃ st, s.streams[r]? = some st ∧ st.closed = true := by
  simp [streamClosed, Option.any_eq_true]

theorem streamOpen_iff : s.streamOpen r = true ↔
    ∃ st, s.streams[r]? = some st ∧ st.closed = false := by
  simp [streamOpen, Option.any_eq_true]

theorem relayClosed_of (h : s.relays[i]? = some relay) : s.relayClosed i = relay.closed := by
  simp [relayClosed, h]

theorem relayClosed_iff : s.relayClosed i = true ↔
    ∃ relay, s.relays[i]? = some relay ∧ relay.closed = true := by
  simp [relayClosed, Option.any_eq_true]

/-- A stream that exists is open or closed. -/
theorem streamOpen_of_lt (h : r < s.streams.length) (hc : s.streamClosed r = false) :
    s.streamOpen r = true := by
  have hst := List.getElem?_eq_getElem h
  rw [streamOpen_of hst]
  rw [streamClosed_of hst] at hc
  simp [hc]

theorem lt_of_streamOpen (h : s.streamOpen r = true) : r < s.streams.length := by
  obtain ⟨st, hst, -⟩ := streamOpen_iff.mp h
  exact (List.getElem?_eq_some_iff.mp hst).1

/-- A stream that does not exist is not closed. -/
theorem streamClosed_of_le (h : s.streams.length ≤ r) : s.streamClosed r = false := by
  simp [streamClosed, List.getElem?_eq_none h]

/-- A relay that does not exist is not closed. -/
theorem relayClosed_of_le (h : s.relays.length ≤ i) : s.relayClosed i = false := by
  simp [relayClosed, List.getElem?_eq_none h]

/-- An open stream is not closed. -/
theorem streamClosed_of_open (h : s.streamOpen r = true) : s.streamClosed r = false := by
  obtain ⟨st, hst, hopen⟩ := streamOpen_iff.mp h
  rw [streamClosed_of hst, hopen]

end Readings

/-! ## What the updates change -/

section Updates

variable {s : StreamSystem} {r : StreamId} {i : RelayId} {e : StreamEvent}
  {f : RoutedBackendStream → RoutedBackendStream} {g : StreamingRelay → StreamingRelay}

@[simp] theorem record_pool : (s.record e).pool = s.pool := rfl
@[simp] theorem record_streams : (s.record e).streams = s.streams := rfl
@[simp] theorem record_relays : (s.record e).relays = s.relays := rfl
@[simp] theorem record_tasks : (s.record e).tasks = s.tasks := rfl
@[simp] theorem record_history : (s.record e).history = s.history ++ [e] := rfl
@[simp] theorem record_streamClosed : (s.record e).streamClosed r = s.streamClosed r := rfl
@[simp] theorem record_streamOpen : (s.record e).streamOpen r = s.streamOpen r := rfl
@[simp] theorem record_relayClosed : (s.record e).relayClosed i = s.relayClosed i := rfl

@[simp] theorem modifyStream_pool : (s.modifyStream r f).pool = s.pool := rfl
@[simp] theorem modifyStream_relays : (s.modifyStream r f).relays = s.relays := rfl
@[simp] theorem modifyStream_tasks : (s.modifyStream r f).tasks = s.tasks := rfl
@[simp] theorem modifyStream_history : (s.modifyStream r f).history = s.history := rfl
@[simp] theorem modifyStream_relayClosed :
    (s.modifyStream r f).relayClosed i = s.relayClosed i := rfl
@[simp] theorem modifyStream_length :
    (s.modifyStream r f).streams.length = s.streams.length := List.length_modify ..

@[simp] theorem modifyRelay_pool : (s.modifyRelay i g).pool = s.pool := rfl
@[simp] theorem modifyRelay_streams : (s.modifyRelay i g).streams = s.streams := rfl
@[simp] theorem modifyRelay_tasks : (s.modifyRelay i g).tasks = s.tasks := rfl
@[simp] theorem modifyRelay_history : (s.modifyRelay i g).history = s.history := rfl
@[simp] theorem modifyRelay_streamClosed :
    (s.modifyRelay i g).streamClosed r = s.streamClosed r := rfl
@[simp] theorem modifyRelay_streamOpen :
    (s.modifyRelay i g).streamOpen r = s.streamOpen r := rfl
@[simp] theorem modifyRelay_length :
    (s.modifyRelay i g).relays.length = s.relays.length := List.length_modify ..

theorem modifyStream_get (r' : StreamId) : (s.modifyStream r f).streams[r']? =
    if r = r' then (s.streams[r']?).map f else s.streams[r']? := by
  simp only [modifyStream, List.getElem?_modify]
  split <;> simp

theorem modifyRelay_get (j : RelayId) : (s.modifyRelay i g).relays[j]? =
    if i = j then (s.relays[j]?).map g else s.relays[j]? := by
  simp only [modifyRelay, List.getElem?_modify]
  split <;> simp

/-- An update that keeps `closed` keeps every stream as closed as it was. -/
theorem modifyStream_streamClosed (hf : ∀ st, (f st).closed = st.closed) (r' : StreamId) :
    (s.modifyStream r f).streamClosed r' = s.streamClosed r' := by
  unfold streamClosed
  rw [modifyStream_get]
  split
  · simp [Option.any_map, hf]
  · rfl

theorem modifyStream_streamOpen (hf : ∀ st, (f st).closed = st.closed) (r' : StreamId) :
    (s.modifyStream r f).streamOpen r' = s.streamOpen r' := by
  unfold streamOpen
  rw [modifyStream_get]
  split
  · simp [Option.any_map, hf]
  · rfl

theorem modifyRelay_relayClosed (hg : ∀ relay, (g relay).closed = relay.closed) (j : RelayId) :
    (s.modifyRelay i g).relayClosed j = s.relayClosed j := by
  unfold relayClosed
  rw [modifyRelay_get]
  split
  · simp [Option.any_map, hg]
  · rfl

/-- An update that keeps the lease keeps the holders. -/
theorem modifyStream_holders (hf : ∀ st, (f st).lease = st.lease) (F : List Frame) :
    (s.modifyStream r f).holders F = s.holders F := by
  have hmap : (s.streams.modify r f).map (·.lease) = s.streams.map (·.lease) := by
    refine List.ext_getElem? fun k => ?_
    rw [List.getElem?_map, List.getElem?_map, List.getElem?_modify]
    split
    · simp [Function.comp_def, hf]
    · simp
  unfold holders modifyStream
  rw [hmap]

/-- Closing a stream closes it and no other. -/
theorem modifyStream_close_streamClosed (hf : ∀ st, (f st).closed = true)
    (hr : r < s.streams.length) (r' : StreamId) :
    (s.modifyStream r f).streamClosed r' = (s.streamClosed r' || r = r') := by
  unfold streamClosed
  rw [modifyStream_get]
  split
  · next heq => simp [← heq, List.getElem?_eq_getElem hr, hf]
  · next hne => simp [hne]

theorem modifyStream_close_streamOpen (hf : ∀ st, (f st).closed = true) (r' : StreamId) :
    (s.modifyStream r f).streamOpen r' = (s.streamOpen r' && r ≠ r') := by
  unfold streamOpen
  rw [modifyStream_get]
  split
  · next heq => simp [heq, Option.any_map, hf]
  · next hne => simp [hne]

theorem modifyRelay_close_relayClosed (hg : ∀ relay, (g relay).closed = true)
    (hi : i < s.relays.length) (j : RelayId) :
    (s.modifyRelay i g).relayClosed j = (s.relayClosed j || i = j) := by
  unfold relayClosed
  rw [modifyRelay_get]
  split
  · next heq => simp [← heq, List.getElem?_eq_getElem hi, hg]
  · next hne => simp [hne]

end Updates

section Appends

variable {s : StreamSystem} {st : RoutedBackendStream} {p : BackendPool}

theorem getElem?_concat_some {α : Type} {xs : List α} {x y : α} {k : Nat}
    (h : (xs ++ [x])[k]? = some y) : xs[k]? = some y ∨ k = xs.length ∧ y = x := by
  rcases Nat.lt_trichotomy k xs.length with hlt | rfl | hgt
  · rw [List.getElem?_append_left hlt] at h
    exact .inl h
  · rw [List.getElem?_concat_length] at h
    exact .inr ⟨rfl, (Option.some.inj h).symm⟩
  · rw [List.getElem?_eq_none (by simpa using Nat.succ_le_of_lt hgt)] at h
    exact nomatch h

theorem append_streamClosed (r : StreamId) :
    StreamSystem.streamClosed { s with pool := p, streams := s.streams ++ [st] } r =
      (s.streamClosed r || (r = s.streams.length && st.closed)) := by
  unfold streamClosed
  rcases Nat.lt_trichotomy r s.streams.length with hlt | rfl | hgt
  · simp [List.getElem?_append_left hlt, Nat.ne_of_lt hlt]
  · simp
  · rw [List.getElem?_eq_none (by simpa using Nat.succ_le_of_lt hgt), List.getElem?_eq_none (Nat.le_of_lt hgt)]
    simp [Nat.ne_of_gt hgt]

theorem append_streamOpen (r : StreamId) :
    StreamSystem.streamOpen { s with pool := p, streams := s.streams ++ [st] } r =
      (s.streamOpen r || (r = s.streams.length && !st.closed)) := by
  unfold streamOpen
  rcases Nat.lt_trichotomy r s.streams.length with hlt | rfl | hgt
  · simp [List.getElem?_append_left hlt, Nat.ne_of_lt hlt]
  · simp
  · rw [List.getElem?_eq_none (by simpa using Nat.succ_le_of_lt hgt), List.getElem?_eq_none (Nat.le_of_lt hgt)]
    simp [Nat.ne_of_gt hgt]

theorem append_relayClosed (relay : StreamingRelay) (i : RelayId) :
    StreamSystem.relayClosed { s with relays := s.relays ++ [relay] } i =
      (s.relayClosed i || (i = s.relays.length && relay.closed)) := by
  unfold relayClosed
  rcases Nat.lt_trichotomy i s.relays.length with hlt | rfl | hgt
  · simp [List.getElem?_append_left hlt, Nat.ne_of_lt hlt]
  · simp
  · rw [List.getElem?_eq_none (by simpa using Nat.succ_le_of_lt hgt), List.getElem?_eq_none (Nat.le_of_lt hgt)]
    simp [Nat.ne_of_gt hgt]

end Appends

/-! ## What a release does -/

/-- The state after `lease.release()`. -/
structure Released (s : StreamSystem) (l : BackendLeaseId) (s' : StreamSystem) : Prop where
  streams : s'.streams = s.streams
  relays : s'.relays = s.relays
  tasks : s'.tasks = s.tasks
  activeStreams : s'.pool.activeStreams = s.pool.activeStreams
  closed : s'.pool.closed = s.pool.closed
  accounts : s'.pool.Accounts
  health : ∀ b, (s'.pool.slots.get? b).map (·.healthy) = (s.pool.slots.get? b).map (·.healthy)
  length : s'.pool.leases.length = s.pool.leases.length
  released : ∀ l', s'.pool.leaseReleased l' = (s.pool.leaseReleased l' || l = l')
  history : s'.history = s.history ++ if s.pool.leaseReleased l then [] else [.released l]
  backends : ∀ l' : BackendLeaseId, (s'.pool.leases[l']?).map BackendLease.backendId =
    (s.pool.leases[l']?).map BackendLease.backendId

/-- `lease.release()` of a lease of the pool does not raise. -/
theorem releaseLease_ok {s : StreamSystem} {l : BackendLeaseId} (h : s.pool.Accounts)
    (hl : l < s.pool.leases.length) :
    ∃ s', s.releaseLease l = (s', none) ∧ Released s l s' ∧
      s'.pool.operations = s.pool.operations := by
  have hlease := List.getElem?_eq_getElem hl
  obtain ⟨pool, hpool, hsame, hchange, hstreams, hclosed⟩ := BackendPool.release_ok h hlease
  have haccounts := h.release hlease hpool
  have hoperations := BackendPool.release_operations hpool
  unfold releaseLease
  rw [hpool, hlease]
  by_cases hreleased : (s.pool.leases[l]).released = true
  · -- the second release of a lease does nothing
    obtain rfl := hsame hreleased
    have hread : s.pool.leaseReleased l = true := by
      simp [BackendPool.leaseReleased, hlease, hreleased]
    refine ⟨s, by simp [hreleased], ⟨rfl, rfl, rfl, rfl, rfl, h, fun _ => rfl, rfl, fun l' => ?_,
      by simp [hread], fun _ => rfl⟩, rfl⟩
    by_cases heq : l = l'
    · simp [← heq, hread]
    · simp [heq]
  · have hfree : (s.pool.leases[l]).released = false := by simpa using hreleased
    obtain ⟨hslots, hleases, -⟩ := hchange hfree
    have hread : s.pool.leaseReleased l = false := by
      simp [BackendPool.leaseReleased, hlease, hfree]
    refine ⟨{ s with pool := pool }.record (.released l), by simp [hfree], ⟨rfl, rfl, rfl, hstreams,
      hclosed, haccounts, fun b => ?_, ?_, fun l' => ?_, by simp [hread], fun l' => ?_⟩, hoperations⟩
    · show (pool.slots.get? b).map _ = _
      rw [hslots, Dict.get?_modify]
      split
      · rw [Option.map_map]
        rfl
      · rfl
    · show pool.leases.length = _
      rw [hleases, List.length_set]
    · show pool.leaseReleased l' = _
      unfold BackendPool.leaseReleased
      rw [hleases, List.getElem?_set]
      by_cases heq : l = l'
      · subst heq
        simp [hl]
      · simp [heq]
    · show (pool.leases[l']?).map _ = _
      rw [hleases, List.getElem?_set]
      by_cases heq : l = l'
      · subst heq
        simp [hl]
      · simp [heq]

/-! ## How an operation ends -/

/-- The system after `_observe_operation`, if it is called. -/
def observeEnd (s : StreamSystem) (l : BackendLeaseId) : OperationCall → StreamSystem
  | none => s
  | some (operation, outcome) => s.observeOperation l operation outcome

/-- The operations the attached observer has been told of then. -/
def reported (s : StreamSystem) (l : BackendLeaseId) (call : OperationCall) :
    Option (List (String × BackendOperation × BackendOutcome)) :=
  match call, s.pool.leases[l]? with
  | some (operation, outcome), some lease =>
    s.pool.operations.map (· ++ [(lease.backendId, operation, outcome)])
  | _, _ => s.pool.operations

theorem observeEnd_operations (s : StreamSystem) (l : BackendLeaseId) (call : OperationCall) :
    (s.observeEnd l call).pool.operations = s.reported l call := by
  unfold observeEnd reported observeOperation
  cases call with
  | none => rfl
  | some c => cases hlease : s.pool.leases[l]? <;> simp

/-- What an observation changes is only what the observer was told. -/
theorem observeEnd_eq (s : StreamSystem) (l : BackendLeaseId) (call : OperationCall) :
    ∃ observer, s.observeEnd l call = { s with pool := { s.pool with observer := observer } } := by
  unfold observeEnd observeOperation
  cases call with
  | none => exact ⟨s.pool.observer, rfl⟩
  | some c =>
    cases s.pool.leases[l]? with
    | none => exact ⟨s.pool.observer, rfl⟩
    | some lease => exact ⟨_, rfl⟩

theorem Released.of_observer {s s' : StreamSystem} {l : BackendLeaseId}
    {observer : Option (List BackendObservation)}
    (h : Released { s with pool := { s.pool with observer := observer } } l s') : Released s l s' :=
  ⟨h.streams, h.relays, h.tasks, h.activeStreams, h.closed, h.accounts, h.health, h.length,
    h.released, h.history, h.backends⟩

/-- An observation after a release. -/
theorem Released.observeEnd {s s' : StreamSystem} {l : BackendLeaseId} (h : Released s l s')
    (call : OperationCall) : Released s l (s'.observeEnd l call) := by
  obtain ⟨observer, heq⟩ := s'.observeEnd_eq l call
  rw [heq]
  exact ⟨h.streams, h.relays, h.tasks, h.activeStreams, h.closed, h.accounts.withObserver, h.health,
    h.length, h.released, h.history, h.backends⟩

/-- A release does not change what is reported of the lease. -/
theorem Released.reported {s s' : StreamSystem} {l : BackendLeaseId} (h : Released s l s')
    (hoperations : s'.pool.operations = s.pool.operations) (call : OperationCall) :
    s'.reported l call = s.reported l call := by
  have hbackend := h.backends l
  unfold StreamSystem.reported
  rw [hoperations]
  cases call with
  | none => rfl
  | some c => cases hlease : s.pool.leases[l]? <;> cases hlease' : s'.pool.leases[l]? <;> simp_all

/-- `generate` and `generate_batch` when the leaf call has ended. -/
def callOf (operation : BackendOperation) : Signal → OperationCall
  | .raised .cancelled => some (operation, .cancelled)
  | .raised .base => none
  | .raised _ => some (operation, .error)
  | _ => some (operation, .success)

/-- The outcome of `_finish` when the leaf stream was closed. -/
def finishOutcome (outcome : BackendOutcome) : Signal → BackendOutcome
  | .raised .cancelled => .cancelled
  | .raised e => if e.isException then .error else outcome
  | _ => outcome

/-- The operation that ends when a frame receives a signal. -/
def ending (s : StreamSystem) (f : Frame) (signal : Signal) :
    Option (BackendLeaseId × OperationCall) :=
  match f, signal with
  | .generate l, signal => some (l, callOf .generate signal)
  | .batch l, signal => some (l, callOf .batch signal)
  | .openStream l, .raised .cancelled => some (l, some (.stream, .cancelled))
  | .openStream l, .raised _ => some (l, some (.stream, .error))
  | .finishClose r outcome, signal =>
    (s.streams[r]?).map fun st => (st.lease, some (.stream, finishOutcome outcome signal))
  | _, _ => none

/-! ## The invariant's frames -/

/-- The pool may release the lease by force: it is closed, and so are all streams. -/
def Releasable (s : StreamSystem) (l : BackendLeaseId) : Prop :=
  s.pool.closed = true ∧ l < s.pool.leases.length ∧ ∀ r, s.streamOpen r = false

/-- What holds while a task waits in a frame. -/
def Phase (s : StreamSystem) : Frame → Prop
  -- whoever waits for a close lock waits for one that is closing already
  | .finishLock r _ _ | .finishClose r _ => s.streamClosed r = true
  | .relayLock i _ _ => s.relayClosed i = true
  | .probeOnce g => ∀ c ∈ g.notStarted, ∃ b, c = .probe b
  -- `close` has every stream that is open on its list
  | .poolProbe leases streams => s.pool.closed = true ∧ (∀ l ∈ leases, l < s.pool.leases.length) ∧
      ∀ r, s.streamOpen r = true → r ∈ streams
  | .poolStreams g leases => s.pool.closed = true ∧ (∀ l ∈ leases, l < s.pool.leases.length) ∧
      (∀ c ∈ g.notStarted, ∃ r, c = .streamClose r) ∧
      (g.cancelled = false → ∀ r, s.streamOpen r = true → .streamClose r ∈ g.notStarted)
  | .poolBackends g leases => (∀ c ∈ g.notStarted, ∃ b, c = .backendClose b) ∧
      ∀ l ∈ leases, s.Releasable l
  | .poolLeases g => ∀ c ∈ g.notStarted, ∃ l, c = .leaseRelease l ∧ s.Releasable l
  | _ => True

/-! ## The changes -/

/-- The states agree in everything the invariants read. -/
structure Same (s s' : StreamSystem) : Prop where
  slots : s'.pool.slots = s.pool.slots
  activeLeases : s'.pool.activeLeases = s.pool.activeLeases
  activeStreams : s'.pool.activeStreams = s.pool.activeStreams
  closed : s'.pool.closed = s.pool.closed
  leases : s'.pool.leases = s.pool.leases
  streams : s'.streams = s.streams
  relays : s'.relays = s.relays
  tasks : s'.tasks = s.tasks
  history : s'.history = s.history

/-- The changes a task makes to the state and to the frames that are alive. -/
inductive Effect (G : Guard) : StreamSystem → List Frame → StreamSystem → List Frame → Prop
  | same {s s' : StreamSystem} {F} (h : Same s s')
      (hoperations : s'.pool.operations = s.pool.operations ∨ G.attaches) : Effect G s F s' F
  | push {s : StreamSystem} {F f} (howes : f.owes = false) (hphase : s.Phase f)
      (hprobe : ∀ k b, f ≠ .probe k b) (hshutdown : f.isPoolClose = true → G.shutdown) :
      Effect G s F s (f :: F)
  | pop {s : StreamSystem} {F f} (howes : f.owes = false)
      (hshutdown : f.isPoolClose = true → G.shutdown) : Effect G s (f :: F) s F
  /-- children of an awaited gather have run, or it was cancelled -/
  | gathered {s : StreamSystem} {F f g g'} (hgather : f.gather = some g)
      (hphase : s.Phase (f.withGather g')) : Effect G s (f :: F) s (f.withGather g' :: F)
  | probeStarted {s : StreamSystem} {F k b} :
      Effect G s F (s.record (.probeStarted k b)) (.probe k b :: F)
  | probed {s : StreamSystem} {F k b healthy}
      (hguard : healthy = true → G.verdict s.pool s.history k b) :
      Effect G s (.probe k b :: F)
        ({ s with pool := s.pool.setHealth b healthy }.record (.probeCompleted k b healthy)) F
  | selected {s : StreamSystem} {F w f} {l : BackendLeaseId} {pool : BackendPool}
      {lease : BackendLease}
      (hsel : s.pool.select w = .ok (l, pool))
      (hlease : pool.leases[l]? = some lease) (hf : f.lease? = some l) :
      Effect G s F ({ s with pool := pool }.record (.selected lease.backendId l)) (f :: F)
  | failed {s : StreamSystem} {F} {l : BackendLeaseId} {lease : BackendLease}
      (hlease : s.pool.leases[l]? = some lease) :
      Effect G s F ({ s with pool := s.pool.markUnhealthy lease.backendId }.record
        (.failed lease.backendId)) F
  | released {s s' : StreamSystem} {F l f call} (hf : f.lease? = some l) (h : Released s l s')
      (hends : G.ends l call) (hoperations : s'.pool.operations = s.reported l call) :
      Effect G s (f :: F) s' F
  /-- `stream` has its stream -/
  | opened {s : StreamSystem} {F l} (hclosed : s.pool.closed = false) :
      Effect G s (.openStream l :: F)
        { s with
          pool := { s.pool with activeStreams := insert s.streams.length s.pool.activeStreams }
          streams := s.streams ++ [⟨l, .new, false⟩] } F
  /-- `stream` has its stream when the pool is closed -/
  | rejected {s : StreamSystem} {F l lock o} (hclosed : s.pool.closed = true)
      (houtcome : o ≠ .success) (hlock : lock.locked = true ∧ lock.Orderly) :
      Effect G s (.openStream l :: F)
        (record { s with streams := s.streams ++ [⟨l, lock, true⟩] }
          (.leafClosed s.streams.length))
        (.finishClose s.streams.length o :: .openRejected :: F)
  | streamLock {s : StreamSystem} {F r} {lock : RoutedBackendStream → AsyncLock}
      (hclosed : s.streamClosed r = true)
      (hlock : ∀ st, s.streams[r]? = some st → st.closeLock.Orderly → (lock st).Orderly ∧
        ((lock st).locked = st.closeLock.locked ∨ F.countP (Frame.finishes r) = 0)) :
      Effect G s F (s.modifyStream r fun st => { st with closeLock := lock st }) F
  | streamClosing {s : StreamSystem} {F r o} {lock : RoutedBackendStream → AsyncLock}
      (hopen : s.streamOpen r = true) (houtcome : o = .success → G.completes r)
      (hlock : ∀ st, (lock st).locked = true ∧ (lock st).Orderly) :
      Effect G s F
        ((s.modifyStream r fun st =>
          { st with closed := true, closeLock := lock st }).record (.leafClosed r))
        (.finishClose r o :: F)
  | streamFinished {s s' : StreamSystem} {F r o st call} (hst : s.streams[r]? = some st)
      (h : Released s st.lease s') (hends : G.ends st.lease call)
      (hoperations : s'.pool.operations = s.reported st.lease call) :
      Effect G s (.finishClose r o :: F) { s' with pool := s'.pool.unregisterStream r } F
  | poolClosing {s : StreamSystem} {F} (hopen : s.pool.closed = false) (hshutdown : G.shutdown) :
      Effect G s F { s with pool := { s.pool with closed := true } } F
  | poolClosed {s : StreamSystem} {F} (hshutdown : G.shutdown) :
      Effect G s F { s with pool := s.pool.finishClose } F
  | noted {s : StreamSystem} {F b} (hshutdown : G.shutdown) :
      Effect G s F (s.record (.backendClosed b)) F
  | forced {s s' : StreamSystem} {F l} (hl : s.Releasable l) (h : Released s l s')
      (hoperations : s'.pool.operations = s.pool.operations) : Effect G s F s' F
  | relayEntered {s : StreamSystem} {F i} (hclosed : s.relayClosed i = true) :
      Effect G s F (s.record (.relayCloseEntered i)) F
  | relayLock {s : StreamSystem} {F i} {lock : StreamingRelay → AsyncLock}
      (hclosed : s.relayClosed i = true) :
      Effect G s F (s.modifyRelay i fun rel => { rel with closeLock := lock rel }) F
  /-- `StreamingRelay.aclose` when its stream is closed already -/
  | relayClosing {s : StreamSystem} {F i o} {relay : StreamingRelay} {lock : StreamingRelay → AsyncLock}
      (hrelay : s.relays[i]? = some relay)
      (hopen : relay.closed = false) (hclosed : s.streamClosed relay.stream = true) :
      Effect G s F
        ((s.record (.relayCloseEntered i)).modifyRelay i fun rel =>
          { rel with closed := true, closeLock := lock rel }) (.relayClose i o :: F)
  /-- `StreamingRelay.aclose` when it closes its stream -/
  | relayStreamClosing {s : StreamSystem} {F i o o'} {relay : StreamingRelay}
      {lock : StreamingRelay → AsyncLock} {slock : RoutedBackendStream → AsyncLock}
      (hrelay : s.relays[i]? = some relay)
      (hopen : relay.closed = false) (hstream : s.streamOpen relay.stream = true)
      (houtcome : o' ≠ .success) (hlock : ∀ st, (slock st).locked = true ∧ (slock st).Orderly) :
      Effect G s F
        ((((s.record (.relayCloseEntered i)).modifyRelay i fun rel =>
          { rel with closed := true, closeLock := lock rel }).modifyStream relay.stream
            fun st => { st with closed := true, closeLock := slock st }).record
              (.leafClosed relay.stream))
        (.finishClose relay.stream o' :: .relayClose i o :: F)
  | relaySettled {s : StreamSystem} {F i o outcome} :
      Effect G s (.relayClose i o :: F)
        ((s.record (.admissionReleased i)).settleRelay i outcome) F
  | relayAbandoned {s : StreamSystem} {F i o} (hguard : G.abandon i) :
      Effect G s (.relayClose i o :: F) (s.record (.admissionReleased i)) F
  | observed {s : StreamSystem} {F i events} :
      Effect G s F
        (s.modifyRelay i fun rel =>
          { rel with metricsObserver := rel.metricsObserver.map (·.observeBytes events) }) F
  | relayMade {s : StreamSystem} {F r} {observed onOutcome : Bool} (hr : r < s.streams.length) :
      Effect G s F
        { s with
          relays := s.relays ++
            [⟨r, if observed then some .new else none, onOutcome, .new, false⟩] } F

theorem Effect.tasks_eq {G : Guard} {s s' : StreamSystem} {F F' : List Frame}
    (h : Effect G s F s' F') : s'.tasks = s.tasks := by
  cases h with
  | same h => exact h.tasks
  | released _ h | streamFinished _ h | forced _ h => exact h.tasks
  | relaySettled =>
    unfold settleRelay
    split
    · rfl
    · dsimp only
      split <;> split <;> rfl
  | _ => rfl

end StreamSystem

end Gateway
