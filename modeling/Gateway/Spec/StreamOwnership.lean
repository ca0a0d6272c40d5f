import Gateway.Spec.StreamSteps

/-!
# Who gives back what

What the invariant says of the reachable states: the inflight counts of the pool are
exact and every lease is released once, by its operation, its routed stream or the
pool; and a relay that is closed gives back its stream, its backend lease and its
admission lease once each.

## Key results

- `inflight_exact`: the accounts of the pool in every reachable state
- `relay_gives_back`: what a relay has given back when all tasks have finished
-/

namespace Gateway

/-- Whether a task has ended. -/
def Task.hasEnded : Task → Bool
  | .finished _ => true
  | _ => false

namespace StreamSystem

variable {s : StreamSystem} {l : BackendLeaseId} {r : StreamId} {i : RelayId}

/-- Some task is in the leaf call of the operation that obtained the lease. -/
def Operating (s : StreamSystem) (l : BackendLeaseId) : Prop := ∃ f ∈ s.frames, f.lease? = some l

/-- The routed stream has been finished: it is closed, and no task is in the `aclose`
    of its leaf. -/
def Finished (s : StreamSystem) (r : StreamId) : Prop :=
  s.streamClosed r = true ∧ ∀ o, .finishClose r o ∉ s.frames

/-- All tasks have ended. -/
def AllFinished (s : StreamSystem) : Prop := ∀ task ∈ s.tasks, ∃ signal, task = .finished signal

theorem hasEnded_iff {task : Task} : task.hasEnded = true ↔ ∃ signal, task = .finished signal := by
  cases task <;> simp [Task.hasEnded]

instance (s : StreamSystem) : Decidable s.AllFinished :=
  decidable_of_iff (∀ task ∈ s.tasks, task.hasEnded = true) (by simp [AllFinished, hasEnded_iff])

/-- The inflight counts are exact and every lease is released exactly once. -/
structure Exact (s : StreamSystem) : Prop where
  inflight : ∀ b slot, s.pool.slots.get? b = some slot →
    slot.inflight = unreleasedWeight s.pool.leases b ∧ 0 ≤ slot.inflight
  consistent : ∀ l, .inconsistent l ∉ s.history
  active : ∀ l, l ∈ s.pool.activeLeases ↔
    ∃ lease, s.pool.leases[l]? = some lease ∧ lease.released = false
  /-- an operation or a stream has the lease for itself -/
  unique : (s.holders s.frames).Nodup
  ended : ∀ l, l < s.pool.leases.length → ¬s.Operating l →
    (∀ (r : StreamId) (st : RoutedBackendStream), s.streams[r]? = some st → st.lease = l →
      s.Finished r) → s.pool.leaseReleased l = true
  once : ∀ l, s.history.count (.released l) = (s.pool.leaseReleased l).toNat

/-- Unreleased weights add up to something nonnegative. -/
theorem unreleasedWeight_nonneg {leases : List BackendLease} (h : ∀ l ∈ leases, 0 < l.weight)
    (b : String) : 0 ≤ unreleasedWeight leases b := by
  refine List.sum_nonneg fun w hw => ?_
  obtain ⟨l, hl, rfl⟩ := List.mem_map.mp hw
  exact (h l (List.mem_filter.mp hl).1).le

theorem frames_of_allFinished (h : s.AllFinished) : s.frames = [] := by
  refine List.flatMap_eq_nil_iff.mpr fun task htask => ?_
  obtain ⟨signal, rfl⟩ := h task htask
  rfl

/-- A lease whose operation has ended and whose stream, if it has one, has been
    finished is released. -/
theorem Good.released (h : Good s s.frames) (hl : l < s.pool.leases.length)
    (hop : ¬s.Operating l)
    (hst : ∀ (r : StreamId) (st : RoutedBackendStream), s.streams[r]? = some st → st.lease = l →
      s.Finished r) : s.pool.leaseReleased l = true := by
  by_contra hfree
  have hheld := h.leases.held l hl (by simpa using hfree)
  rcases List.mem_append.mp hheld with hframe | hstream
  · obtain ⟨f, hf, hlease⟩ := List.mem_filterMap.mp hframe
    exact hop ⟨f, hf, hlease⟩
  · obtain ⟨st, hmem, rfl⟩ := List.mem_map.mp hstream
    obtain ⟨r, hr⟩ := List.mem_iff_getElem?.mp hmem
    obtain ⟨hclosed, hclose⟩ := hst r st hr rfl
    exact hfree (h.streams.finished r st hr ((streamClosed_of hr).symm.trans hclosed) hclose)

/-- In every reachable state the inflight counts are exact, and the leases of the
    operations that have ended are released, once. -/
theorem inflight_exact (h : lts.Reachable s) : Exact s := by
  have hg := reachable_good h
  have ha := hg.leases.accounts
  constructor
  case inflight =>
    intro b slot hslot
    refine ⟨ha.inflight b slot hslot, ?_⟩
    rw [ha.inflight b slot hslot]
    exact unreleasedWeight_nonneg ha.weight b
  case consistent => exact hg.leases.consistent
  case active => exact ha.active
  case unique => exact hg.leases.unique
  case ended => exact fun l hl => hg.released hl
  case once => exact hg.leases.releasedOnce

theorem inflight_exact_after :
    Exact (after [.spawn .probeOnce, .startChild 0 0, .leaf 1 (.verdict true), .spawn .generate,
      .spawn .stream, .leaf 3 .returned, .spawn .poolClose]) :=
  inflight_exact (after_reachable _)

/-- What a relay over a routed stream gives back: neither its backend lease nor its
    admission lease before a close of the stream has begun, and in the end, once it
    was closed at all, the stream and both leases once. -/
theorem relay_gives_back (h : lts.Reachable s) {relay : StreamingRelay}
    (hrelay : s.relays[i]? = some relay) :
    ∃ st : RoutedBackendStream, s.streams[relay.stream]? = some st ∧
      (.released st.lease ∈ s.history ∨ .admissionReleased i ∈ s.history →
        .leafClosed relay.stream ∈ s.history) ∧
      (.relayCloseEntered i ∈ s.history → s.AllFinished →
        s.history.count (.leafClosed relay.stream) = 1 ∧
        s.history.count (.released st.lease) = 1 ∧
        s.history.count (.admissionReleased i) = 1) := by
  have hg := reachable_good h
  have hvalid := hg.relays.valid i relay hrelay
  obtain ⟨st, hst⟩ : ∃ st, s.streams[relay.stream]? = some st :=
    ⟨_, List.getElem?_eq_getElem hvalid⟩
  have hleaf := hg.streams.leafOnce relay.stream
  have hrelease := hg.leases.releasedOnce st.lease
  have honce := hg.relays.once i
  -- a closed stream has begun to close its leaf
  have hbegun : st.closed = true → .leafClosed relay.stream ∈ s.history := by
    intro hc
    rw [streamClosed_of hst, hc] at hleaf
    exact List.count_pos_iff.mp (by rw [hleaf]; exact Nat.one_pos)
  refine ⟨st, hst, fun hgiven => hbegun ?_, fun hentered hall => ?_⟩
  · rcases hgiven with hbackend | hadmission
    · have hpos := List.count_pos_iff.mpr hbackend
      have hreleased : s.pool.leaseReleased st.lease = true := by
        by_contra hfree
        rw [Bool.not_eq_true] at hfree
        rw [hrelease, hfree] at hpos
        exact Nat.lt_irrefl _ hpos
      exact hg.streams.begun _ st hst hreleased
    · have hpos := List.count_pos_iff.mpr hadmission
      have hclosed : s.relayClosed i = true := by
        by_contra hopen
        rw [Bool.not_eq_true] at hopen
        rw [hopen, Bool.toNat_false] at honce
        omega
      have hstream := hg.relays.stream i relay hrelay ((relayClosed_of hrelay).symm.trans hclosed)
      exact (streamClosed_of hst).symm.trans hstream
  · have hclosed := hg.relays.entered i hentered
    have hstream := hg.relays.stream i relay hrelay ((relayClosed_of hrelay).symm.trans hclosed)
    have hframes := frames_of_allFinished hall
    have hreleased : s.pool.leaseReleased st.lease = true := by
      refine hg.streams.finished _ st hst ((streamClosed_of hst).symm.trans hstream) fun o ho => ?_
      simp [hframes] at ho
    rw [hframes, List.countP_nil, Nat.zero_add, hclosed] at honce
    rw [hstream] at hleaf
    rw [hreleased] at hrelease
    exact ⟨hleaf, hrelease, honce⟩

/-- Probing both backends of the sample. -/
def probeRun : List StreamAction :=
  [.spawn .probeOnce, .startChild 0 0, .leaf 1 (.verdict true), .startChild 0 0,
    .leaf 2 (.verdict true), .resume 0 none]

/-- Closing a relay over a stream of the sample: the leaf answers `answer`. -/
def relayRun (answer : Signal) : List StreamAction :=
  [.spawn .stream, .leaf 3 .returned, .newRelay 0 true true, .spawn (.relayClose 0 .cancelled),
    .leaf 4 answer]

theorem relay_gives_back_relayRun :
    ∃ st : RoutedBackendStream,
      (after (probeRun ++ relayRun (.raised .cancelled))).streams[0]? = some st ∧
      (after (probeRun ++ relayRun (.raised .cancelled))).history.count (.released st.lease) = 1 ∧
      (after (probeRun ++ relayRun (.raised .cancelled))).history.count (.admissionReleased 0) = 1 := by
  have hrelay : ∃ relay, (after (probeRun ++ relayRun (.raised .cancelled))).relays[0]? = some relay ∧
      relay.stream = 0 := ⟨_, rfl, rfl⟩
  obtain ⟨relay, hrelay, hstream⟩ := hrelay
  obtain ⟨st, hst, -, hgiven⟩ := relay_gives_back (after_reachable _) hrelay
  obtain ⟨-, hbackend, hadmission⟩ := hgiven (by decide) (by decide)
  exact ⟨st, hstream ▸ hst, hbackend, hadmission⟩

end StreamSystem

end Gateway
