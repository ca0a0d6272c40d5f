import Gateway.Spec.StreamOwnership

/-!
# The observed operations

`_observe_operation` is called in the exception ladders of `generate`,
`generate_batch` and `stream` and at the end of `_finish`. The runs here carry a log of
the operations that have ended, of the leaf iterations that reached their end, and of
when the observer was attached; the observer should have been told of exactly the
operations in the log.

`generate` and `generate_batch` have no clause for an exception that is neither an
`Exception` nor `CancelledError`. `CaughtByLadder` is the condition on a step that no
leaf call raises one there.

## Key results

- `Effect.tally`: every change keeps the log and the observer's calls in step
- `observedOnce_of_caught`: on the runs where the ladders catch everything, every
  operation that has ended was observed once, with its outcome
- `uncaught_unobserved`: a run that loses an observation
-/

namespace Gateway

/-- The operation that can end with the frame. -/
def Frame.operation? : Frame → Option BackendOperation
  | .generate _ => some .generate
  | .batch _ => some .batch
  | .openStream _ | .finishClose _ _ => some .stream
  | _ => none

/-- An operation that has ended. -/
structure EndedOperation where
  lease : BackendLeaseId
  backendId : String
  operation : BackendOperation
  /-- what its last leaf call handed to it -/
  signal : Signal
  /-- how it is observed, if it is -/
  outcome : Option BackendOutcome
deriving DecidableEq, Repr

namespace EndedOperation

/-- The call of `_observe_operation`, if there is one. -/
def call (e : EndedOperation) : OperationCall := e.outcome.map fun outcome => (e.operation, outcome)

/-- What the observer is told. -/
def report (e : EndedOperation) : Option (String × BackendOperation × BackendOutcome) :=
  e.outcome.map fun outcome => (e.backendId, e.operation, outcome)

end EndedOperation

/-- What has happened to the operations in a run. -/
structure OperationLog where
  ended : List EndedOperation
  /-- the streams whose leaf iteration reached its end while they were open -/
  completed : List StreamId
  /-- how many operations had ended when the observer was attached or detached last -/
  since : Nat
deriving DecidableEq, Repr

namespace StreamSystem

/-- The operation that ends with a step. -/
def ended (s : StreamSystem) : StreamAction → Option EndedOperation
  | .leaf t signal =>
    match s.tasks[t]? with
    | some (.suspended (f :: _)) =>
      match f.operation?, s.ending f signal with
      | some operation, some (l, call) => (s.pool.leases[l]?).map fun lease =>
        ⟨l, lease.backendId, operation, signal, call.map Prod.snd⟩
      | _, _ => none
    | _ => none
  | _ => none

/-- The open stream whose leaf iteration reaches its end with a step. -/
def completed (s : StreamSystem) : StreamAction → Option StreamId
  | .leaf t .stop =>
    match s.tasks[t]? with
    | some (.suspended (.iterate it :: _)) =>
      match s.iterators[it]? with
      | some iterator => if s.streamOpen iterator.stream then some iterator.stream else none
      | none => none
    | _ => none
  | _ => none

end StreamSystem

namespace OperationLog

/-- No operation yet. -/
def start : OperationLog := ⟨[], [], 0⟩

/-- What a step adds to the log. -/
def note (log : OperationLog) (s : StreamSystem) (a : StreamSystem.StreamAction) : OperationLog where
  ended := log.ended ++ (s.ended a).toList
  completed := log.completed ++ (s.completed a).toList
  since := match a with
    | .setObserver _ => log.ended.length
    | _ => log.since

/-- The log with another operation that has ended. -/
def record (log : OperationLog) (e : EndedOperation) : OperationLog :=
  { log with ended := log.ended ++ [e] }

end OperationLog

namespace StreamSystem

/-- The runs with their logs. -/
def operationRuns : Lts (StreamSystem × OperationLog) StreamAction :=
  Lts.withHistory Init step .start OperationLog.note

/-- The lease of the operation that can end with the frame. -/
def leaseOf (s : StreamSystem) : Frame → Option BackendLeaseId
  | .generate l | .batch l | .openStream l => some l
  | .finishClose r _ => (s.streams[r]?).map (·.lease)
  | _ => none

/-- The leases of the open streams. -/
def openLeases (s : StreamSystem) : List BackendLeaseId :=
  (s.streams.filter (!·.closed)).map (·.lease)

/-- The leases of the operations that have not ended: those in a leaf call, and the open
    streams. -/
def underway (s : StreamSystem) (F : List Frame) : List BackendLeaseId :=
  F.filterMap s.leaseOf ++ s.openLeases

/-- What is known of an operation that has ended: its backend is the one its lease was
    selected for, `generate` and `generate_batch` succeeded if the leaf returned and were
    cancelled if it was, and a stream succeeded only if its leaf iteration reached its
    end while the stream was open. -/
structure Known (s : StreamSystem) (completed : List StreamId) (e : EndedOperation) : Prop where
  backend : (s.pool.leases[e.lease]?).map BackendLease.backendId = some e.backendId
  success : e.operation ≠ .stream → (e.outcome = some .success ↔ e.signal = .returned)
  cancelled : e.operation ≠ .stream → (e.outcome = some .cancelled ↔ e.signal = .raised .cancelled)
  stream : e.operation = .stream → e.outcome = some .success →
    ∃ r ∈ completed, (s.streams[r]?).map RoutedBackendStream.lease = some e.lease

/-- Every lease belongs to exactly one operation that has ended or to one that is under
    way, and the observer was told once of each that has ended since it was attached. -/
structure ObservedOnce (s : StreamSystem) (log : OperationLog) : Prop where
  once : (log.ended.map (·.lease) ++ s.underway s.frames).Perm (List.range s.pool.leases.length)
  told : ∀ calls, s.pool.operations = some calls →
    calls.map some = (log.ended.drop log.since).map EndedOperation.report
  known : ∀ e ∈ log.ended, s.Known log.completed e

/-- No leaf call of `generate` and `generate_batch` raises an exception that their
    clauses do not catch. -/
def CaughtByLadder (s : StreamSystem) : StreamAction → Prop
  | .leaf t (.raised .base) => ∀ l stack,
    s.tasks[t]? ≠ some (.suspended (.generate l :: stack)) ∧
      s.tasks[t]? ≠ some (.suspended (.batch l :: stack))
  | _ => True

/-! ## The operations that are under way -/

section Underway

variable {s s' : StreamSystem} {F F' : List Frame} {f : Frame} {r : StreamId}
  {l : BackendLeaseId} {st : RoutedBackendStream}

/-- All that decides which operations are under way. -/
def shape (s : StreamSystem) : List (BackendLeaseId × Bool) :=
  s.streams.map fun st => (st.lease, st.closed)

theorem leaseOf_congr (h : s'.streams.map (·.lease) = s.streams.map (·.lease)) :
    s'.leaseOf = s.leaseOf := by
  funext f
  cases f with
  | finishClose r o =>
    show (s'.streams[r]?).map _ = (s.streams[r]?).map _
    rw [← List.getElem?_map, ← List.getElem?_map, h]
  | _ => rfl

theorem underway_congr (h : s'.shape = s.shape) (F : List Frame) :
    s'.underway F = s.underway F := by
  have hleases : s'.streams.map (·.lease) = s.streams.map (·.lease) := by
    have hmap := congrArg (List.map Prod.fst) h
    simpa [shape, Function.comp_def] using hmap
  have hopen : s'.openLeases = s.openLeases := by
    have hfilter := congrArg (fun xs => (xs.filter (!·.2)).map Prod.fst) h
    simpa [shape, openLeases, List.filter_map, Function.comp_def] using hfilter
  unfold underway
  rw [leaseOf_congr hleases, hopen]

/-- An update that keeps the lease and `closed` of a stream. -/
theorem modifyStream_shape {g : RoutedBackendStream → RoutedBackendStream}
    (hg : ∀ st, (g st).lease = st.lease ∧ (g st).closed = st.closed) :
    (s.modifyStream r g).shape = s.shape := by
  apply List.ext_getElem?
  intro k
  unfold shape
  rw [List.getElem?_map, List.getElem?_map, modifyStream_get]
  split
  · simp [Function.comp_def, hg]
  · rfl

theorem underway_cons_none (h : s.leaseOf f = none) : s.underway (f :: F) = s.underway F := by
  simp [underway, h]

theorem underway_cons_some (h : s.leaseOf f = some l) :
    s.underway (f :: F) = l :: s.underway F := by
  simp [underway, h]

theorem leaseOf_of_owes (h : f.owes = false) : s.leaseOf f = none := by
  cases f <;> simp_all [Frame.owes, leaseOf]

theorem leaseOf_of_lease? (h : f.lease? = some l) : s.leaseOf f = some l := by
  cases f <;> simp_all [Frame.lease?, leaseOf]

/-- Closing an open stream hands its operation to the frame that closes it. -/
theorem underway_closing {g : RoutedBackendStream → RoutedBackendStream} {o : BackendOutcome}
    (hst : s.streams[r]? = some st) (hopen : st.closed = false)
    (hg : ∀ st, (g st).lease = st.lease ∧ (g st).closed = true) :
    ((s.modifyStream r g).underway (.finishClose r o :: F)).Perm (s.underway F) := by
  obtain ⟨hr, rfl⟩ := List.getElem?_eq_some_iff.mp hst
  have hset : (s.modifyStream r g).streams = s.streams.set r (g s.streams[r]) := by
    show s.streams.modify r g = _
    exact List.modify_eq_set_getElem? .. |>.trans (by simp [hst])
  have hleases : (s.modifyStream r g).streams.map (·.lease) = s.streams.map (·.lease) := by
    apply List.ext_getElem?
    intro k
    rw [List.getElem?_map, List.getElem?_map, modifyStream_get]
    split
    · simp [Function.comp_def, hg]
    · rfl
  -- all open streams are this one and the others, before and after
  have hbefore : s.openLeases.Perm
      (s.streams[r].lease :: ((s.streams.eraseIdx r).filter (!·.closed)).map (·.lease)) := by
    have hperm := (List.getElem_cons_eraseIdx_perm hr).symm.filter (!·.closed)
    rw [List.filter_cons_of_pos (by simp [hopen])] at hperm
    exact hperm.map _
  have hafter : (s.modifyStream r g).openLeases.Perm
      (((s.streams.eraseIdx r).filter (!·.closed)).map (·.lease)) := by
    have hperm := (List.set_perm_cons_eraseIdx hr (g s.streams[r])).filter (!·.closed)
    rw [List.filter_cons_of_neg (by simp [hg])] at hperm
    unfold openLeases
    rw [hset]
    exact hperm.map _
  have hframe : (s.modifyStream r g).leaseOf (.finishClose r o) = some s.streams[r].lease := by
    rw [leaseOf_congr hleases]
    show (s.streams[r]?).map _ = _
    rw [hst]
    rfl
  rw [underway_cons_some hframe]
  unfold underway
  rw [leaseOf_congr hleases]
  apply List.perm_middle.symm.trans
  exact List.Perm.append_left _ ((hafter.cons _).trans hbefore.symm)

/-- A new stream. -/
theorem underway_append {pool : BackendPool} (hF : ∀ r o, .finishClose r o ∈ F → r < s.streams.length) :
    StreamSystem.underway { s with pool := pool, streams := s.streams ++ [st] } F =
      s.underway F ++ if st.closed then [] else [st.lease] := by
  have hframes : F.filterMap
      (StreamSystem.leaseOf { s with pool := pool, streams := s.streams ++ [st] }) =
      F.filterMap s.leaseOf := by
    apply List.filterMap_congr
    intro f hf
    cases f with
    | finishClose r o =>
      show ((s.streams ++ [st])[r]?).map _ = _
      rw [List.getElem?_append_left (hF r o hf)]
      rfl
    | _ => rfl
  unfold underway
  rw [hframes, List.append_assoc]
  unfold openLeases
  cases hc : st.closed <;> simp [hc]

end Underway

/-! ## What the changes keep -/

section Changes

variable {G : Guard} {s s' : StreamSystem} {F F' : List Frame} {f : Frame} {l : BackendLeaseId}
  {r : StreamId} {log : OperationLog} {e : EndedOperation} {completed : List StreamId}

/-- Leases keep their backends, and streams keep their leases. -/
structure Remembers (s s' : StreamSystem) : Prop where
  leases : ∀ (l : BackendLeaseId) b, (s.pool.leases[l]?).map BackendLease.backendId = some b →
    (s'.pool.leases[l]?).map BackendLease.backendId = some b
  streams : ∀ (r : StreamId) l, (s.streams[r]?).map RoutedBackendStream.lease = some l →
    (s'.streams[r]?).map RoutedBackendStream.lease = some l

theorem Known.remembers (h : s.Known completed e) (hs : Remembers s s') : s'.Known completed e where
  backend := hs.leases _ _ h.backend
  success := h.success
  cancelled := h.cancelled
  stream hstream hout := by
    obtain ⟨r, hr, hlease⟩ := h.stream hstream hout
    exact ⟨r, hr, hs.streams _ _ hlease⟩

theorem Released.remembers (h : Released s l s') : Remembers s s' where
  leases l' b hb := by rwa [h.backends]
  streams r l' hl := by rwa [h.streams]

theorem modifyStream_remembers {g : RoutedBackendStream → RoutedBackendStream}
    (hg : ∀ st, (g st).lease = st.lease) : Remembers s (s.modifyStream r g) where
  leases _ _ := id
  streams r' l hl := by
    rw [modifyStream_get]
    split
    · simpa [Function.comp_def, hg] using hl
    · exact hl

theorem remembers_append {pool : BackendPool} {st : RoutedBackendStream}
    (hpool : pool.leases = s.pool.leases) :
    Remembers s { s with pool := pool, streams := s.streams ++ [st] } where
  leases l b hb := by
    show (pool.leases[l]?).map _ = _
    rwa [hpool]
  streams r l hl := by
    obtain ⟨st', hst', heq⟩ := Option.map_eq_some_iff.mp hl
    show ((s.streams ++ [st])[r]?).map _ = _
    rw [List.getElem?_append_left (List.getElem?_eq_some_iff.mp hst').1, hst', Option.map_some, heq]

theorem Remembers.record (h : Remembers s s') (event : StreamEvent) :
    Remembers s (s'.record event) := ⟨h.leases, h.streams⟩

theorem Effect.remembers (h : Effect G s F s' F') : Remembers s s' := by
  cases h with
  | same h =>
    constructor
    · rw [h.leases]
      exact fun _ _ => id
    · rw [h.streams]
      exact fun _ _ => id
  | selected hsel hlease hf =>
    rename_i w f l pool lease
    obtain ⟨-, -, -, b, slot, -, -, -, hleases, -⟩ := BackendPool.select_ok hsel
    constructor
    · intro l' b' hb'
      obtain ⟨lease', hlease', heq⟩ := Option.map_eq_some_iff.mp hb'
      show (pool.leases[l']?).map _ = _
      rw [hleases, List.getElem?_append_left (List.getElem?_eq_some_iff.mp hlease').1, hlease',
        Option.map_some, heq]
    · exact fun _ _ => id
  | probed | failed =>
    constructor
    · simp [BackendPool.markUnhealthy]
    · exact fun _ _ => id
  | released _ h | forced _ h | streamFinished _ h => exact ⟨h.remembers.leases, h.remembers.streams⟩
  | opened => exact remembers_append rfl
  | rejected =>
    apply Remembers.record
    exact remembers_append rfl
  | streamLock => exact modifyStream_remembers fun _ => rfl
  | streamClosing =>
    apply Remembers.record
    exact modifyStream_remembers fun _ => rfl
  | relayStreamClosing =>
    rename_i relay lock slock _ _ _ _ _
    have hstreams : Remembers s (s.modifyStream relay.stream
        fun st => { st with closed := true, closeLock := slock st }) :=
      modifyStream_remembers fun _ => rfl
    exact ⟨fun _ _ => id, hstreams.streams⟩
  | relaySettled =>
    constructor
    · rw [settleRelay_pool]
      exact fun _ _ => id
    · rw [settleRelay_streams]
      exact fun _ _ => id
  | _ => exact ⟨fun _ _ => id, fun _ _ => id⟩

/-- The log and the observer's calls are in step. -/
structure Tally (log : OperationLog) (s : StreamSystem) (F : List Frame) : Prop where
  good : Good s F
  since : log.since ≤ log.ended.length
  once : (log.ended.map (·.lease) ++ s.underway F).Perm (List.range s.pool.leases.length)
  told : ∀ calls, s.pool.operations = some calls →
    calls = (log.ended.drop log.since).filterMap EndedOperation.report
  completing : ∀ r, .finishClose r .success ∈ F → r ∈ log.completed
  known : ∀ e ∈ log.ended, s.Known log.completed e

/-- The guard of a step with which at most the operation `ending` ends. -/
def endsOnly (completed : List StreamId) (ending : Option EndedOperation) : Guard :=
  { Guard.any with
    ends := fun l call => ∃ e, ending = some e ∧ e.lease = l ∧ e.call = call
    completes := fun r => r ∈ completed
    attaches := False }

/-- A change with which no operation begins or ends. -/
theorem Tally.congr (h : Tally log s F) (hgood : Good s' F') (hs : Remembers s s')
    (hlength : s'.pool.leases.length = s.pool.leases.length)
    (hoperations : s'.pool.operations = s.pool.operations)
    (hunderway : (s'.underway F').Perm (s.underway F))
    (hcompleting : ∀ r, .finishClose r .success ∈ F' → .finishClose r .success ∈ F ∨
      r ∈ log.completed) : Tally log s' F' where
  good := hgood
  since := h.since
  once := by
    rw [hlength]
    exact (List.Perm.append_left _ hunderway).trans h.once
  told := by
    rw [hoperations]
    exact h.told
  completing r hr := (hcompleting r hr).elim (h.completing r) id
  known e he := (h.known e he).remembers hs

/-- What is reported when an operation ends. -/
theorem reported_call (he : s.Known completed e) :
    s.reported e.lease e.call = s.pool.operations.map (· ++ e.report.toList) := by
  obtain ⟨lease, hlease, hbackend⟩ := Option.map_eq_some_iff.mp he.backend
  unfold reported EndedOperation.call EndedOperation.report
  rw [hlease]
  cases e.outcome with
  | none => simp
  | some outcome => simp [hbackend]

/-- An operation ends. -/
theorem Tally.ended (h : Tally log s F) (he : s.Known log.completed e) (hgood : Good s' F')
    (hs : Remembers s s') (hlength : s'.pool.leases.length = s.pool.leases.length)
    (hoperations : s'.pool.operations = s.reported e.lease e.call)
    (hunderway : (e.lease :: s'.underway F').Perm (s.underway F))
    (hcompleting : ∀ r, .finishClose r .success ∈ F' → .finishClose r .success ∈ F) :
    Tally (log.record e) s' F' where
  good := hgood
  since := by
    have hsince := h.since
    show _ ≤ (log.ended ++ [e]).length
    rw [List.length_append]
    exact Nat.le_add_right_of_le hsince
  once := by
    rw [hlength]
    show ((log.ended ++ [e]).map (·.lease) ++ s'.underway F').Perm _
    rw [List.map_append, List.append_assoc]
    exact (List.Perm.append_left _ hunderway).trans h.once
  told := by
    intro calls hcalls
    rw [hoperations, reported_call he] at hcalls
    obtain ⟨before, hbefore, rfl⟩ := Option.map_eq_some_iff.mp hcalls
    show _ = ((log.ended ++ [e]).drop log.since).filterMap _
    rw [h.told before hbefore, List.drop_append_of_le_length h.since, List.filterMap_append]
    cases hreport : e.report <;> simp [hreport]
  completing r hr := h.completing r (hcompleting r hr)
  known e' he' := by
    rcases List.mem_append.mp he' with hold | hnew
    · exact (h.known e' hold).remembers hs
    · rw [List.mem_singleton.mp hnew]
      exact he.remembers hs

/-- The frames that close a stream close one that exists. -/
theorem Good.finishing (h : Good s F) (r : StreamId) (o : BackendOutcome)
    (hf : .finishClose r o ∈ F) : r < s.streams.length := by
  have hclosed : s.streamClosed r = true := h.closing.phase _ hf
  obtain ⟨st, hst, -⟩ := streamClosed_iff.mp hclosed
  exact (List.getElem?_eq_some_iff.mp hst).1

/-- What every change keeps: the log is as it was, or the operation that ends with the
    step has ended. -/
theorem Effect.tally {ending : Option EndedOperation}
    (h : Effect (endsOnly log.completed ending) s F s' F') (hs : Tally log s F)
    (hending : ∀ e, ending = some e → s.Known log.completed e) :
    Tally log s' F' ∨ ∃ e, ending = some e ∧ Tally (log.record e) s' F' := by
  have hgood := h.good hs.good
  have hremembers := h.remembers
  -- frames that neither begin nor end an operation
  have hcons : ∀ {s : StreamSystem} {f : Frame} {F : List Frame}, s.leaseOf f = none →
      (s.underway (f :: F)).Perm (s.underway F) := fun hf => .of_eq (underway_cons_none hf)
  have htail : ∀ {f : Frame} {F : List Frame} (r : StreamId),
      .finishClose r .success ∈ F → .finishClose r .success ∈ f :: F ∨ r ∈ log.completed :=
    fun r hr => .inl (List.mem_cons_of_mem _ hr)
  cases h with
  | same h hoperations =>
    left
    refine hs.congr hgood hremembers (by rw [h.leases]) (hoperations.resolve_right id) (.of_eq ?_)
      fun _ => .inl
    exact underway_congr (by unfold shape; rw [h.streams]) F
  | push howes =>
    left
    refine hs.congr hgood hremembers rfl rfl (hcons (leaseOf_of_owes howes)) fun r hr => .inl ?_
    exact (List.mem_cons.mp hr).resolve_left (Frame.ne_finishClose_of_owes howes r .success)
  | pop howes =>
    left
    exact hs.congr hgood hremembers rfl rfl (hcons (leaseOf_of_owes howes)).symm htail
  | gathered hgather hphase =>
    rename_i F f g g'
    left
    have hafter := leaseOf_of_owes (s := s) (Frame.owes_withGather hgather g')
    have hbefore := leaseOf_of_owes (s := s) (Frame.owes_of_gather hgather)
    refine hs.congr hgood hremembers rfl rfl ((hcons hafter).trans (hcons hbefore).symm)
      fun r hr => .inl (List.mem_cons_of_mem _ ((List.mem_cons.mp hr).resolve_left ?_))
    exact Frame.ne_finishClose_of_owes (Frame.owes_withGather hgather g') r .success
  | probeStarted =>
    left
    exact hs.congr hgood hremembers rfl rfl (hcons rfl) fun r hr => .inl (by simpa using hr)
  | probed =>
    left
    exact hs.congr hgood hremembers (by simp) (by simp) (hcons rfl).symm htail
  | selected hsel hlease hf =>
    rename_i w f l pool lease
    obtain ⟨-, -, rfl, b, slot, -, -, -, hleases, -⟩ := BackendPool.select_ok hsel
    left
    constructor
    case good => exact hgood
    case since => exact hs.since
    case once =>
      have hnew := underway_cons_some (F := F) (leaseOf_of_lease? (s := { s with pool := pool }.record
        (.selected lease.backendId s.pool.leases.length)) hf)
      rw [hnew]
      show List.Perm _ (List.range pool.leases.length)
      rw [hleases, List.length_append, List.length_singleton, List.range_succ]
      exact List.perm_middle.trans ((hs.once.cons _).trans (List.perm_append_singleton _ _).symm)
    case told =>
      have hoperations : pool.operations = s.pool.operations := BackendPool.select_operations hsel
      show ∀ calls, pool.operations = some calls → _
      rw [hoperations]
      exact hs.told
    case completing =>
      intro r hr
      refine hs.completing r ((List.mem_cons.mp hr).resolve_left ?_)
      exact Frame.ne_finishClose_of_lease? hf r .success
    case known => exact fun e he => (hs.known e he).remembers hremembers
  | failed =>
    left
    refine hs.congr hgood hremembers ?_ ?_ (.refl _) fun _ => .inl
    · simp [BackendPool.markUnhealthy]
    · simp [BackendPool.markUnhealthy]
  | released hf h hends hoperations =>
    rename_i l f call
    obtain ⟨e, rfl, rfl, rfl⟩ := hends
    right
    refine ⟨e, rfl, hs.ended (hending e rfl) hgood hremembers h.length hoperations ?_
      fun r hr => List.mem_cons_of_mem _ hr⟩
    have hshape : s'.shape = s.shape := by
      unfold shape
      rw [h.streams]
    rw [underway_cons_some (leaseOf_of_lease? hf), underway_congr hshape]
  | streamFinished hst h hends hoperations =>
    rename_i s'' r o st call
    obtain ⟨e, rfl, hlease, rfl⟩ := hends
    rw [← hlease] at h hoperations
    right
    refine ⟨e, rfl, hs.ended (hending e rfl) hgood hremembers h.length hoperations ?_
      fun r hr => List.mem_cons_of_mem _ hr⟩
    have hframe : s.leaseOf (.finishClose r o) = some e.lease := by
      show (s.streams[r]?).map _ = _
      rw [hst, hlease]
      rfl
    rw [underway_cons_some hframe,
      underway_congr (s := s) (by unfold shape; show s''.streams.map _ = _; rw [h.streams])]
  | opened hclosed =>
    rename_i l
    left
    refine hs.congr hgood hremembers rfl rfl ?_ htail
    rw [underway_append fun r o hf => hs.good.finishing r o (List.mem_cons_of_mem _ hf),
      underway_cons_some (l := l) rfl]
    exact List.perm_append_singleton _ _
  | rejected hclosed houtcome hlock =>
    rename_i F l lock o
    left
    refine hs.congr hgood hremembers rfl rfl ?_ fun r hr => ?_
    · have hframe : leaseOf (record { s with streams := s.streams ++ [⟨l, lock, true⟩] }
          (.leafClosed s.streams.length)) (.finishClose s.streams.length o) = some l := by
        show ((s.streams ++ [_])[s.streams.length]?).map _ = _
        rw [List.getElem?_concat_length]
        rfl
      rw [underway_cons_some hframe, underway_cons_none rfl]
      show List.Perm (l :: StreamSystem.underway
        { s with pool := s.pool, streams := s.streams ++ [⟨l, lock, true⟩] } F) _
      rw [underway_append fun r o hf => hs.good.finishing r o (List.mem_cons_of_mem _ hf),
        underway_cons_some (l := l) rfl]
      simp
    · rcases List.mem_cons.mp hr with heq | hrest
      · exact absurd (Frame.finishClose.inj heq).2.symm houtcome
      · exact .inl (List.mem_cons_of_mem _ ((List.mem_cons.mp hrest).resolve_left (by simp)))
  | streamLock =>
    left
    refine hs.congr hgood hremembers rfl rfl (.of_eq ?_) fun _ => .inl
    apply underway_congr
    apply modifyStream_shape
    exact fun _ => ⟨rfl, rfl⟩
  | streamClosing hopen houtcome hlock =>
    rename_i r o lock
    obtain ⟨st, hst, hc⟩ := streamOpen_iff.mp hopen
    left
    refine hs.congr hgood hremembers rfl rfl ?_ fun r' hr => ?_
    · exact underway_closing (o := o) hst hc fun st => ⟨rfl, rfl⟩
    · rcases List.mem_cons.mp hr with heq | hrest
      · obtain ⟨rfl, rfl⟩ := Frame.finishClose.inj heq
        exact .inr (houtcome rfl)
      · exact .inl hrest
  | relayStreamClosing _ _ hstream houtcome =>
    rename_i i o o' relay lock slock _ _ _
    obtain ⟨st, hst, hc⟩ := streamOpen_iff.mp hstream
    left
    refine hs.congr hgood hremembers rfl rfl ?_ fun r' hr => ?_
    · have hclosing : ((s.modifyStream relay.stream fun st =>
          { st with closed := true, closeLock := slock st }).underway
            (.finishClose relay.stream o' :: .relayClose i o :: F)).Perm
              (s.underway (.relayClose i o :: F)) := underway_closing hst hc fun st => ⟨rfl, rfl⟩
      exact hclosing.trans (hcons rfl)
    · rcases List.mem_cons.mp hr with heq | hrest
      · exact absurd (Frame.finishClose.inj heq).2.symm houtcome
      · exact .inl ((List.mem_cons.mp hrest).resolve_left (by simp))
  | forced _ h hoperations =>
    left
    refine hs.congr hgood hremembers h.length hoperations (.of_eq ?_) fun _ => .inl
    exact underway_congr (by unfold shape; rw [h.streams]) F
  | poolClosed =>
    left
    refine hs.congr hgood hremembers rfl ?_ (.refl _) fun _ => .inl
    show (BackendPool.notifyObserver _).operations = _
    rw [BackendPool.notifyObserver_operations]
    rfl
  | relayClosing =>
    left
    exact hs.congr hgood hremembers rfl rfl (hcons rfl) fun r hr => .inl (by simpa using hr)
  | relaySettled =>
    left
    refine hs.congr hgood hremembers (by simp) (by simp) ?_ htail
    refine List.Perm.trans (.of_eq (underway_congr ?_ F')) (hcons rfl).symm
    unfold shape
    rw [settleRelay_streams]
    rfl
  | relayAbandoned =>
    left
    exact hs.congr hgood hremembers rfl rfl (hcons rfl).symm htail
  | poolClosing | noted | relayEntered | relayLock | observed | relayMade =>
    left
    exact hs.congr hgood hremembers rfl rfl (.refl _) fun _ => .inl

theorem Tally.perm (h : Tally log s F) (hF : F.Perm F') : Tally log s F' where
  good := h.good.perm hF
  since := h.since
  once := by
    have hperm : (s.underway F').Perm (s.underway F) :=
      List.Perm.append_right _ (hF.symm.filterMap _)
    exact (List.Perm.append_left _ hperm).trans h.once
  told := h.told
  completing r hr := h.completing r (hF.mem_iff.mpr hr)
  known := h.known

theorem Tally.tasks (T : List Task) (h : Tally log s F) : Tally log { s with tasks := T } F where
  good := h.good.tasks T
  since := h.since
  once := h.once
  told := h.told
  completing := h.completing
  known e he := ⟨(h.known e he).backend, (h.known e he).success, (h.known e he).cancelled,
    (h.known e he).stream⟩

/-- While no operation ends the log stays as it is. -/
theorem tally_lasting (log : OperationLog) : Lasting (endsOnly log.completed none) (Tally log) where
  good h := h.good
  effect h he := (he.tally h nofun).resolve_right fun ⟨_, hnone, _⟩ => nomatch hnone
  perm := Tally.perm
  tasks := Tally.tasks

/-- No lease is counted twice. -/
theorem Tally.record_once (h : Tally (log.record e) s F) : e.lease ∉ log.ended.map (·.lease) := by
  have hnodup : ((log.ended ++ [e]).map (·.lease) ++ s.underway F).Nodup :=
    h.once.nodup_iff.mpr List.nodup_range
  rw [List.map_append, List.nodup_append] at hnodup
  exact fun hmem => List.disjoint_of_nodup_append hnodup.1 hmem (List.mem_singleton_self _)

/-- Once the operation of the step has ended the log stays as it is. -/
theorem tally_record_lasting (log : OperationLog) (e : EndedOperation) :
    Lasting (endsOnly log.completed (some e)) (Tally (log.record e)) where
  good h := h.good
  effect h he := by
    have hknown := h.known e (List.mem_append_right _ (List.mem_singleton_self _))
    have hstep := @Effect.tally _ _ _ _ (log.record e) (some e) he h fun e' he' =>
      Option.some.inj he' ▸ hknown
    apply hstep.resolve_right
    rintro ⟨e', he', htwice⟩
    obtain rfl := Option.some.inj he'
    apply htwice.record_once
    exact List.mem_map.mpr ⟨e, List.mem_append_right _ (List.mem_singleton_self _), rfl⟩
  perm := Tally.perm
  tasks := Tally.tasks

/-- The operation of the step is about to end, or it has ended. -/
def Ending (log : OperationLog) (e : EndedOperation) (s : StreamSystem) (F : List Frame) : Prop :=
  Tally log s F ∧ s.Known log.completed e ∨ Tally (log.record e) s F

theorem ending_stable (log : OperationLog) (e : EndedOperation) :
    Stable (endsOnly log.completed (some e)) (Ending log e) where
  good h := h.elim (fun h => h.1.good) fun h => h.good
  effect h he := by
    rcases h with ⟨hs, hknown⟩ | hs
    · rcases he.tally hs fun e' he' => Option.some.inj he' ▸ hknown with hsame | ⟨e', he', hended⟩
      · exact .inl ⟨hsame, hknown.remembers he.remembers⟩
      · exact .inr (Option.some.inj he' ▸ hended)
    · exact .inr ((tally_record_lasting log e).effect hs he)

end Changes

/-! ## What the steps keep -/

section Steps

variable {s s' : StreamSystem} {F stack : List Frame} {f : Frame} {l : BackendLeaseId}
  {signal : Signal} {call : OperationCall} {log : OperationLog} {e : EndedOperation} {t : TaskId}
  {a : StreamAction}

/-- An observation names the operation of its frame. -/
theorem operation?_of_ending (h : s.ending f signal = some (l, call)) :
    ∃ operation, f.operation? = some operation ∧
      (call.map Prod.snd).map (fun outcome => (operation, outcome)) = call := by
  have hcallOf : ∀ operation, ((callOf operation signal).map Prod.snd).map
      (fun outcome => (operation, outcome)) = callOf operation signal := by
    intro operation
    unfold callOf
    split <;> rfl
  cases f with
  | generate =>
    obtain ⟨rfl, rfl⟩ := Prod.mk.inj (Option.some.inj h)
    exact ⟨.generate, rfl, hcallOf _⟩
  | batch =>
    obtain ⟨rfl, rfl⟩ := Prod.mk.inj (Option.some.inj h)
    exact ⟨.batch, rfl, hcallOf _⟩
  | openStream =>
    refine ⟨.stream, rfl, ?_⟩
    unfold ending at h
    split at h <;> simp_all
    all_goals
      obtain ⟨-, rfl⟩ := h
      rfl
  | finishClose r o =>
    obtain ⟨st, -, heq⟩ := Option.map_eq_some_iff.mp h
    obtain ⟨rfl, rfl⟩ := Prod.mk.inj heq
    exact ⟨.stream, rfl, rfl⟩
  | _ => exact nomatch h

/-- The lease of an operation that ends is one of the pool's. -/
theorem Good.ending_valid (hg : Good s F) (hf : f ∈ F)
    (h : s.ending f signal = some (l, call)) : l < s.pool.leases.length := by
  have hframe : ∀ l', f.lease? = some l' → l' < s.pool.leases.length := fun l' hl' =>
    hg.leases.valid l' (List.mem_append_left _ (List.mem_filterMap.mpr ⟨f, hf, hl'⟩))
  cases f with
  | generate | batch =>
    obtain ⟨rfl, -⟩ := Prod.mk.inj (Option.some.inj h)
    exact hframe _ rfl
  | openStream l' =>
    unfold ending at h
    split at h <;> simp_all [Frame.lease?]
  | finishClose r o =>
    obtain ⟨st, hst, heq⟩ := Option.map_eq_some_iff.mp h
    obtain ⟨rfl, -⟩ := Prod.mk.inj heq
    exact hg.leases.valid _ (LeasesGood.stream_holder hst)
  | _ => cases h

/-- The operation that ends when a leaf answers. -/
theorem ended_of_ending (hg : Good s s.frames)
    (htask : s.tasks[t]? = some (.suspended (f :: stack)))
    (h : s.ending f signal = some (l, call)) :
    ∃ e, s.ended (.leaf t signal) = some e ∧ e.lease = l ∧ e.call = call := by
  obtain ⟨operation, hoperation, hcall⟩ := operation?_of_ending h
  have hf : f ∈ s.frames :=
    List.mem_flatMap.mpr ⟨_, List.mem_of_getElem? htask, List.mem_cons_self ..⟩
  have hl := hg.ending_valid hf h
  have hlease := List.getElem?_eq_getElem hl
  refine ⟨⟨l, s.pool.leases[l].backendId, operation, signal, call.map Prod.snd⟩, ?_, rfl, hcall⟩
  unfold StreamSystem.ended
  simp only [htask, hoperation, h, hlease, Option.map_some]

/-- What an operation that ends with a step was waiting for. -/
theorem ending_of_ended (h : s.ended a = some e) :
    ∃ t signal f stack call, a = .leaf t signal ∧
      s.tasks[t]? = some (.suspended (f :: stack)) ∧ f.operation? = some e.operation ∧
      s.ending f signal = some (e.lease, call) ∧ e.signal = signal ∧
      e.outcome = call.map Prod.snd ∧
      (s.pool.leases[e.lease]?).map BackendLease.backendId = some e.backendId := by
  unfold StreamSystem.ended at h
  split at h
  · next t signal =>
    split at h
    · next f stack htask =>
      split at h
      · next operation l call hoperation hending =>
        obtain ⟨lease, hlease, rfl⟩ := Option.map_eq_some_iff.mp h
        exact ⟨t, signal, f, stack, call, rfl, htask, hoperation, hending, rfl, rfl, by simp [hlease]⟩
      · exact nomatch h
    · exact nomatch h
  · exact nomatch h

/-- What is known of the operation that ends with a step. -/
theorem Tally.known_of_ended (h : Tally log s s.frames) (hstep : s.step a = .ok s')
    (he : s.ended a = some e) : s.Known log.completed e := by
  obtain ⟨t, signal, f, stack, call, rfl, htask, hoperation, hending, hsignal, hout, hbackend⟩ :=
    ending_of_ended he
  have hanswers : answers f signal = true := by
    by_contra hno
    simp [step, htask, hno] at hstep
  have hcall : ∀ operation, f.operation? = some operation → operation ≠ .stream →
      call = callOf operation signal := by
    intro operation hop hstream
    cases f with
    | generate | batch =>
      obtain rfl := Option.some.inj hop
      exact (Prod.mk.inj (Option.some.inj hending)).2.symm
    | openStream | finishClose => exact absurd (Option.some.inj hop).symm hstream
    | _ => cases hop
  -- the leaf call of `generate` and `generate_batch` returns or raises
  have hleaf : ∀ operation, f.operation? = some operation → operation ≠ .stream →
      signal = .returned ∨ ∃ exc, signal = .raised exc := by
    intro operation hop hstream
    cases f with
    | generate | batch => cases signal <;> simp_all [answers]
    | openStream | finishClose => exact absurd (Option.some.inj hop).symm hstream
    | _ => cases hop
  constructor
  case backend => exact hbackend
  case success =>
    intro hstream
    rw [hout, hsignal, hcall _ hoperation hstream]
    rcases hleaf _ hoperation hstream with rfl | ⟨exc, rfl⟩
    · simp [callOf]
    · cases exc <;> simp [callOf]
  case cancelled =>
    intro hstream
    rw [hout, hsignal, hcall _ hoperation hstream]
    rcases hleaf _ hoperation hstream with rfl | ⟨exc, rfl⟩
    · simp [callOf]
    · cases exc <;> simp [callOf]
  case stream =>
    intro hstream hsuccess
    rw [hout] at hsuccess
    cases f with
    | generate | batch =>
      rw [hstream] at hoperation
      cases hoperation
    | openStream l =>
      -- a stream that could not be opened is an error or was cancelled
      unfold ending at hending
      split at hending <;> simp_all
      all_goals
        obtain ⟨-, rfl⟩ := hending
        simp at hsuccess
    | finishClose r o =>
      obtain ⟨st, hst, heq⟩ := Option.map_eq_some_iff.mp hending
      obtain ⟨hlease, rfl⟩ := Prod.mk.inj heq
      have hfinal : finishOutcome o signal = .success := Option.some.inj hsuccess
      have ho : o = .success := by
        unfold finishOutcome at hfinal
        split at hfinal
        · cases hfinal
        · split at hfinal
          · cases hfinal
          · exact hfinal
        · exact hfinal
      subst ho
      refine ⟨r, h.completing r ?_, by rw [hst, Option.map_some, hlease]⟩
      exact List.mem_flatMap.mpr ⟨_, List.mem_of_getElem? htask, List.mem_cons_self ..⟩
    | _ => cases hoperation

/-! ## The end of an operation -/

/-- No operation has begun, and no stream has been closed. -/
structure Unmoved (s s' : StreamSystem) : Prop where
  shape : s'.shape = s.shape
  length : s'.pool.leases.length = s.pool.leases.length

theorem Unmoved.trans {s'' : StreamSystem} (h : Unmoved s s') (h' : Unmoved s' s'') :
    Unmoved s s'' := ⟨h'.shape.trans h.shape, h'.length.trans h.length⟩

theorem observeOperation_unmoved (s : StreamSystem) (l : BackendLeaseId)
    (operation : BackendOperation) (outcome : BackendOutcome) :
    Unmoved s (s.observeOperation l operation outcome) := by
  unfold StreamSystem.observeOperation
  split
  · exact ⟨rfl, rfl⟩
  · exact ⟨rfl, rfl⟩

theorem markUnhealthy_unmoved (s : StreamSystem) (l : BackendLeaseId) :
    Unmoved s (s.markUnhealthy l) := by
  unfold StreamSystem.markUnhealthy
  split
  · exact ⟨rfl, rfl⟩
  · exact ⟨rfl, by simp [BackendPool.markUnhealthy]⟩

theorem releaseLease_unmoved (s : StreamSystem) (l : BackendLeaseId) :
    Unmoved s (s.releaseLease l).1 := by
  have hpool : ∀ pool, s.pool.release l = .ok pool → pool.leases.length = s.pool.leases.length := by
    intro pool h
    unfold BackendPool.release at h
    split at h
    · cases h
    split at h
    · cases h
      rfl
    split at h
    · cases h
    split at h
    · cases h
    · cases h
      simp [BackendPool.notifyObserver]
  unfold releaseLease
  split
  · next pool h =>
    split
    · exact ⟨rfl, hpool pool h⟩
    · exact ⟨rfl, hpool pool h⟩
  · exact ⟨rfl, rfl⟩

theorem releaseThen_unmoved {s₁ : StreamSystem} (h : Unmoved s s₁) (l : BackendLeaseId)
    (signal : Signal) :
    ∃ s' signal', s₁.releaseThen l signal = .done s' signal' ∧ Unmoved s s' := by
  have hrelease := h.trans (s₁.releaseLease_unmoved l)
  unfold releaseThen
  split
  · next heq => exact ⟨_, _, rfl, by rwa [heq] at hrelease⟩
  · next heq => exact ⟨_, _, rfl, by rwa [heq] at hrelease⟩

theorem afterOperation_unmoved (s : StreamSystem) (l : BackendLeaseId)
    (operation : BackendOperation) (signal : Signal) :
    ∃ s' signal', s.afterOperation l operation signal = .done s' signal' ∧ Unmoved s s' := by
  unfold afterOperation
  split
  · exact releaseThen_unmoved (observeOperation_unmoved ..) l _
  · have hmark := s.markUnhealthy_unmoved l
    exact releaseThen_unmoved (hmark.trans (observeOperation_unmoved ..)) l _
  · exact releaseThen_unmoved ⟨rfl, rfl⟩ l _
  · exact releaseThen_unmoved (observeOperation_unmoved ..) l _
  · exact releaseThen_unmoved (observeOperation_unmoved ..) l _

theorem afterFinishClose_unmoved (s : StreamSystem) (r : StreamId) (o : BackendOutcome)
    (signal : Signal) :
    ∃ s' signal', s.afterFinishClose r o signal = .done s' signal' ∧ Unmoved s s' := by
  unfold afterFinishClose
  split
  · exact ⟨_, _, rfl, rfl, rfl⟩
  next st hst =>
  dsimp only
  refine ⟨_, _, rfl, ?_⟩
  have hrelease := s.releaseLease_unmoved st.lease
  have hobserve := observeOperation_unmoved
    { (s.releaseLease st.lease).1 with
      pool := (s.releaseLease st.lease).1.pool.unregisterStream r } st.lease .stream
      (finishOutcome o signal)
  have hunregister : Unmoved (s.releaseLease st.lease).1
      { (s.releaseLease st.lease).1 with
        pool := (s.releaseLease st.lease).1.pool.unregisterStream r } := ⟨rfl, rfl⟩
  refine (hrelease.trans (hunregister.trans hobserve)).trans ⟨?_, rfl⟩
  apply modifyStream_shape
  exact fun _ => ⟨rfl, rfl⟩

/-- The frame of an operation that ends is left at once, and no other operation begins or
    ends with it. -/
theorem react_ending (h : s.ending f signal = some (l, call)) :
    ∃ s' signal', s.react f signal = .done s' signal' ∧ Unmoved s s' := by
  unfold react
  cases f with
  | generate l => exact s.afterOperation_unmoved l .generate signal
  | batch l => exact s.afterOperation_unmoved l .batch signal
  | openStream l =>
    cases signal with
    | raised exc =>
      dsimp only
      unfold afterOpenStream
      split
      · exact releaseThen_unmoved (observeOperation_unmoved ..) l _
      · have hmark := s.markUnhealthy_unmoved l
        exact releaseThen_unmoved (hmark.trans (observeOperation_unmoved ..)) l _
      · exact releaseThen_unmoved (observeOperation_unmoved ..) l _
      · next hraised => exact absurd rfl (hraised exc)
    | _ => exact nomatch h
  | finishClose r o => exact s.afterFinishClose_unmoved r o signal
  | _ => exact nomatch h

theorem leaseOf_of_ending (h : s.ending f signal = some (l, call)) : s.leaseOf f = some l := by
  cases f with
  | generate | batch =>
    obtain ⟨rfl, -⟩ := Prod.mk.inj (Option.some.inj h)
    rfl
  | openStream l' =>
    unfold ending at h
    split at h <;> simp_all [leaseOf]
  | finishClose r o =>
    obtain ⟨st, hst, heq⟩ := Option.map_eq_some_iff.mp h
    obtain ⟨rfl, -⟩ := Prod.mk.inj heq
    show (s.streams[r]?).map _ = _
    rw [hst]
    rfl
  | _ => exact nomatch h

/-! ## Steps -/

theorem Known.tasks {completed : List StreamId} (T : List Task) (h : s.Known completed e) :
    Known { s with tasks := T } completed e := ⟨h.backend, h.success, h.cancelled, h.stream⟩

theorem ending_lasting (log : OperationLog) (e : EndedOperation) :
    Lasting (endsOnly log.completed (some e)) (Ending log e) where
  toStable := ending_stable log e
  perm h hF := h.imp (fun h => ⟨h.1.perm hF, h.2⟩) fun h => h.perm hF
  tasks T h := h.imp (fun h => ⟨h.1.tasks T, h.2.tasks T⟩) fun h => h.tasks T

/-- More streams may have reached their end. -/
theorem Tally.complete (h : Tally log s F) (rs : List StreamId) :
    Tally { log with completed := log.completed ++ rs } s F where
  good := h.good
  since := h.since
  once := h.once
  told := h.told
  completing r hr := List.mem_append_left _ (h.completing r hr)
  known e he := by
    refine ⟨(h.known e he).backend, (h.known e he).success, (h.known e he).cancelled, ?_⟩
    intro hstream hsuccess
    obtain ⟨r, hr, hlease⟩ := (h.known e he).stream hstream hsuccess
    exact ⟨r, List.mem_append_left _ hr, hlease⟩

/-- An answer with which an operation ends. -/
theorem leaf_ends (h : Kept (Tally log) s) (he : s.ended (.leaf t signal) = some e)
    (hok : Permits (endsOnly log.completed (some e)) s (.leaf t signal))
    (hstep : s.step (.leaf t signal) = .ok s') : Kept (Tally (log.record e)) s' := by
  have hknown := h.inv.known_of_ended hstep he
  obtain ⟨t', signal', f, stack, call, heq, htask, -, hending, -⟩ := ending_of_ended he
  obtain ⟨rfl, rfl⟩ := StreamAction.leaf.inj heq
  simp only [step, htask] at hstep
  split at hstep
  case isFalse => cases hstep
  next hanswers =>
  obtain rfl := Except.ok.inj hstep
  let others := (s.tasks.eraseIdx t).flatMap Task.frames
  let T := s.tasks.set t .running
  have hstart := alive_of_task (ending_lasting log e) htask (.inl ⟨h.inv, hknown⟩) rfl h.linked
  have hhanded := Handed.setTask (handed_of_leaf hok htask hanswers) t .running
  -- the frame of the operation is left at once
  obtain ⟨s₁, signal₁, hreact, hunmoved⟩ := react_ending (s := s.setTask t .running) hending
  have hfirst := react_ensures ((ending_lasting log e).fixed T) hstart hhanded
  rw [hreact] at hfirst
  obtain ⟨⟨⟨hend, htasks⟩, hlinked⟩, hhanded₁⟩ := hfirst
  -- so one operation less is under way, and the log has it
  have hended : Tally (log.record e) s₁ (stack ++ others) := by
    apply hend.resolve_left
    rintro ⟨hafter, -⟩
    change Tally log s₁ (stack ++ others) at hafter
    have hbefore : Tally log (s.setTask t .running) (f :: (stack ++ others)) :=
      (h.inv.perm (flatMap_frames_get htask)).tasks T
    have hframe : (s.setTask t .running).leaseOf f = some e.lease := leaseOf_of_ending hending
    have hcount := hbefore.once.length_eq
    have hcount' := hafter.once.length_eq
    rw [underway_cons_some hframe, List.length_append, List.length_cons, List.length_range] at hcount
    rw [underway_congr hunmoved.shape, List.length_append, List.length_range,
      hunmoved.length] at hcount'
    omega
  have hrest := deliver_alive ((tally_record_lasting log e).fixed T) ⟨⟨hended, htasks⟩, hlinked⟩
    hhanded₁
  have hkept := settle_keeps (tally_record_lasting log e) htask h.linked (alive_of_ensures hrest)
  unfold runTask
  rwa [deliver_done hreact]

/-- The guard permits what a step does. -/
theorem Tally.permits (h : Tally log s s.frames) (ha : ∀ attach, a ≠ .setObserver attach) :
    Permits (endsOnly (log.completed ++ (s.completed a).toList) (s.ended a)) s a := by
  constructor
  case ends =>
    rintro t signal f stack l call rfl htask hending
    exact ended_of_ending h.good htask hending
  case completes =>
    rintro t it stack iterator rfl htask hiterator hopen
    have hcompleted : s.completed (.leaf t .stop) = some iterator.stream := by
      simp [StreamSystem.completed, htask, hiterator, hopen]
    show iterator.stream ∈ log.completed ++ _
    rw [hcompleted]
    simp
  case attaches => exact fun attach heq => ha attach heq
  all_goals
    intros
    exact trivial

/-- Every step keeps the log and the observer's calls in step. -/
theorem Kept.note (h : Kept (Tally log) s) (hstep : s.step a = .ok s') :
    Kept (Tally (log.note s a)) s' := by
  by_cases ha : ∃ attach, a = .setObserver attach
  · obtain ⟨attach, rfl⟩ := ha
    obtain rfl := Except.ok.inj hstep
    have hgood : Good { s with pool := s.pool.setObserver attach } s.frames :=
      (good_lasting .any).effect h.inv.good
        (.same ⟨rfl, rfl, rfl, rfl, rfl, rfl, rfl, rfl, rfl⟩ (.inr trivial))
    have hnote : log.note s (.setObserver attach) = { log with since := log.ended.length } := by
      simp [OperationLog.note, StreamSystem.ended, StreamSystem.completed]
    rw [hnote]
    refine ⟨⟨hgood, le_rfl, h.inv.once, ?_, h.inv.completing, ?_⟩, h.linked⟩
    · intro calls hcalls
      have hnone : (s.pool.setObserver attach).operations = if attach then some [] else none := by
        unfold BackendPool.setObserver
        rw [BackendPool.notifyObserver_operations]
        cases attach <;> rfl
      change (s.pool.setObserver attach).operations = some calls at hcalls
      rw [hnone] at hcalls
      split at hcalls
      · simp [← Option.some.inj hcalls]
      · exact nomatch hcalls
    · exact fun e he => ⟨(h.inv.known e he).backend, (h.inv.known e he).success,
        (h.inv.known e he).cancelled, (h.inv.known e he).stream⟩
  · rw [not_exists] at ha
    have hpermits := h.inv.permits ha
    let log' : OperationLog := { log with completed := log.completed ++ (s.completed a).toList }
    have hlog : Kept (Tally log') s := ⟨h.inv.complete _, h.linked⟩
    have hnote : log.note s a = { log' with ended := log.ended ++ (s.ended a).toList } := by
      unfold OperationLog.note
      split
      · next attach => exact absurd rfl (ha attach)
      · rfl
    cases he : s.ended a with
    | none =>
      rw [hnote, he, Option.toList_none, List.append_nil]
      rw [he] at hpermits
      exact step_keeps (tally_lasting log') hlog hpermits hstep
    | some e =>
      rw [hnote, he]
      rw [he] at hpermits
      obtain ⟨t, signal, -, -, -, rfl, -⟩ := ending_of_ended he
      exact leaf_ends hlog he hpermits hstep

/-- An operation whose clauses catch what its leaf raises is observed. -/
theorem CaughtByLadder.observed (h : s.CaughtByLadder a) (he : s.ended a = some e) :
    e.outcome ≠ none := by
  obtain ⟨t, signal, f, stack, call, rfl, htask, -, hending, -, hout, -⟩ := ending_of_ended he
  rw [hout]
  have hcallOf : ∀ operation, signal ≠ .raised .base →
      (callOf operation signal).map Prod.snd ≠ none := by
    intro operation hbase
    unfold callOf
    split <;> simp_all
  cases f with
  | generate l =>
    obtain ⟨-, rfl⟩ := Prod.mk.inj (Option.some.inj hending)
    apply hcallOf
    rintro rfl
    exact (h l stack).1 htask
  | batch l =>
    obtain ⟨-, rfl⟩ := Prod.mk.inj (Option.some.inj hending)
    apply hcallOf
    rintro rfl
    exact (h l stack).2 htask
  | openStream l =>
    unfold ending at hending
    split at hending <;> simp_all
    all_goals
      obtain ⟨-, rfl⟩ := hending
      simp
  | finishClose r o =>
    obtain ⟨st, -, heq⟩ := Option.map_eq_some_iff.mp hending
    obtain ⟨-, rfl⟩ := Prod.mk.inj heq
    simp
  | _ => exact nomatch hending

/-- Every observed operation has its own call. -/
theorem reports_of_observed {es : List EndedOperation} (h : ∀ e ∈ es, e.outcome ≠ none) :
    (es.filterMap EndedOperation.report).map some = es.map EndedOperation.report := by
  induction es with
  | nil => rfl
  | cons e es ih =>
    have hrest := ih fun e' he' => h e' (List.mem_cons_of_mem _ he')
    obtain ⟨outcome, hout⟩ := Option.ne_none_iff_exists'.mp (h e (List.mem_cons_self ..))
    simp [EndedOperation.report, hout, ← hrest]

theorem tally_of_init (h : Init s) : Tally .start s [] := by
  have hstreams : s.streams = [] := h.1
  obtain ⟨-, -, -, -, -, -, backendIds, blank, interval, timeout, observed, hpool⟩ := id h
  have hleases := (BackendPool.init_ok hpool).1
  have hoperations : s.pool.operations = if observed then some [] else none := by
    unfold BackendPool.init at hpool
    split at hpool
    · cases hpool
    split at hpool
    · cases hpool
    split at hpool
    · cases hpool
    dsimp only at hpool
    split at hpool
    · cases hpool
    · rw [← Except.ok.inj hpool, BackendPool.notifyObserver_operations]
      cases observed <;> rfl
  constructor
  case good => exact good_of_init h
  case since => exact le_rfl
  case once => simp [OperationLog.start, underway, openLeases, hstreams, hleases]
  case told =>
    intro calls hcalls
    rw [hoperations] at hcalls
    split at hcalls
    · simp [← Option.some.inj hcalls, OperationLog.start]
    · exact nomatch hcalls
  case completing => simp
  case known => simp [OperationLog.start]

end Steps

/-! ## Every run -/

/-- On the runs where no leaf call of `generate` and `generate_batch` raises an exception
    that their clauses do not catch, every operation that has ended was observed once,
    with its outcome. -/
theorem observedOnce_of_caught {s : StreamSystem} {log : OperationLog}
    (h : operationRuns.ReachableVia (fun x a => x.1.CaughtByLadder a) (s, log)) :
    s.ObservedOnce log := by
  have hinductive : operationRuns.InductiveVia (fun x a => x.1.CaughtByLadder a)
      fun x => Kept (Tally x.2) x.1 ∧ ∀ e ∈ x.2.ended, e.outcome ≠ none := by
    constructor
    · rintro ⟨s, log⟩ ⟨hinit, rfl⟩
      have htasks : s.tasks = [] := hinit.2.2.2.2.1
      refine ⟨⟨?_, by simp [htasks]⟩, by simp [OperationLog.start]⟩
      simpa [frames, htasks] using tally_of_init hinit
    · rintro ⟨s, log⟩ a ⟨s', log'⟩ ⟨hkept, hobserved⟩ hok hstep
      obtain ⟨hnext, rfl⟩ := Lts.noted_eq_ok.mp hstep
      refine ⟨hkept.note hnext, fun e he => ?_⟩
      rcases List.mem_append.mp he with hold | hnew
      · exact hobserved e hold
      · exact hok.observed (Option.mem_toList.mp hnew)
  obtain ⟨⟨htally, -⟩, hobserved⟩ := hinductive.holds h
  refine ⟨htally.once, fun calls hcalls => ?_, htally.known⟩
  rw [htally.told calls hcalls]
  exact reports_of_observed fun e he => hobserved e (List.mem_of_mem_drop he)

/-- A run of the sample with its log. -/
def logged (as : List StreamAction) : StreamSystem × OperationLog :=
  (Lts.exec (Lts.noted step OperationLog.note) (sample, .start) as).toOption.getD (sample, .start)

/-- A `generate` of a probed and observed pool whose leaf call answers `answer`. -/
def generateRun (answer : Signal) : List StreamAction :=
  .setObserver true :: probeRun ++ [.spawn .generate, .leaf 3 answer]

theorem observedOnce_of_caught_generateRun :
    (logged (generateRun .returned)).1.ObservedOnce (logged (generateRun .returned)).2 ∧
    (logged (generateRun .returned)).1.pool.operations = some [("a", .generate, .success)] := by
  have hrun : operationRuns.ReachableVia (fun x a => x.1.CaughtByLadder a)
      (logged (generateRun .returned)) := by
    have hstart : operationRuns.ReachableVia (fun x a => x.1.CaughtByLadder a) (sample, .start) :=
      .init ⟨sample_init, rfl⟩
    refine hstart.exec (l := generateRun .returned) ?_ rfl
    simp [CaughtByLadder, generateRun, probeRun]
  exact ⟨observedOnce_of_caught hrun, by decide⟩

/-- A leaf call that raises `SystemExit` or `KeyboardInterrupt`: the lease is released,
    and the observer is told nothing. -/
theorem uncaught_unobserved :
    operationRuns.Reachable (logged (generateRun (.raised .base))) ∧
    lts.Reachable (logged (generateRun (.raised .base))).1 ∧
    (logged (generateRun (.raised .base))).1.AllFinished ∧
    .selected "a" 0 ∈ (logged (generateRun (.raised .base))).1.history ∧
    .released 0 ∈ (logged (generateRun (.raised .base))).1.history ∧
    (logged (generateRun (.raised .base))).1.pool.operations = some [] ∧
    ¬(logged (generateRun (.raised .base))).1.ObservedOnce (logged (generateRun (.raised .base))).2 := by
  have hstart : operationRuns.Reachable (sample, .start) := .init ⟨sample_init, rfl⟩
  have hrun : operationRuns.Reachable (logged (generateRun (.raised .base))) :=
    hstart.exec (l := generateRun (.raised .base)) (by simp) rfl
  have hnone : (logged (generateRun (.raised .base))).1.pool.operations = some [] := by decide
  refine ⟨hrun, hrun.forget, by decide, by decide, by decide, hnone, fun h => ?_⟩
  have htold := h.told [] hnone
  exact absurd htold (by decide)

end StreamSystem

end Gateway
