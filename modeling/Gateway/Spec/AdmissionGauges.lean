import Gateway.Spec.AdmissionSystem

/-!
# The published gauges of the admission controller

Every call of `admission_state_changed` has totals that are the sums over its tenants, also
the calls in the middle of a dispatch, and between any two sections the last call has the
gauges of the controller.

## Key results

- `Mirrors`: what the calls say
- `Mirrors.dispatchLocked`, `Mirrors.releaseLocked`, `Mirrors.shutdown`: the helpers
- `mirrors_of_reachable`
-/

namespace Gateway

/-- The totals of a call are the sums over its tenants. -/
structure AdmissionStateChanged.Balanced (call : AdmissionStateChanged) : Prop where
  inflight : call.globalInflight = (call.tenants.map fun t => t.2.1).sum
  queued : call.globalQueued = (call.tenants.map fun t => (t.2.2 : Int)).sum

/-- What a computation that goes on with the value of another one is. -/
theorem bind_eq_ok {ε α β : Type} {x : Except ε α} {f : α → Except ε β} {b : β} :
    x >>= f = .ok b ↔ ∃ a, x = .ok a ∧ f a = .ok b := by
  cases x with
  | error e => simp [bind, Except.bind]
  | ok a => simp [bind, Except.bind]

theorem map_eq_ok {ε α β : Type} {x : Except ε α} {f : α → β} {b : β} :
    x.map f = .ok b ↔ ∃ a, x = .ok a ∧ f a = b := by
  cases x with
  | error e => simp [Except.map]
  | ok a => simp [Except.map]

namespace AdmissionController

/-- What `_notify_observer` publishes. -/
def gauges (c : AdmissionController) : AdmissionStateChanged where
  globalInflight := c.globalInflight
  globalQueued := c.globalQueued
  tenants := c.tenants.entries.map fun p => (p.1, p.2.inflight, p.2.queue.length)

/-- The counters are the sums over the tenants, now and in every call. -/
structure Tallied (c : AdmissionController) : Prop where
  inflight : c.globalInflight = c.tenants.sum (·.inflight)
  queued : c.globalQueued = c.tenants.sum (·.queue.length)
  calls : ∀ calls, c.observer = some calls → ∀ call ∈ calls, call.Balanced

/-- The last call has the gauges of the controller. -/
structure Mirrors (c : AdmissionController) : Prop extends Tallied c where
  last : ∀ calls, c.observer = some calls → calls.getLast? = some c.gauges

variable {c c' : AdmissionController} {t : String} {st : TenantState} {w : WaiterId}
  {lease : LeaseId}

/-! ## Publishing -/

theorem Tallied.balanced (h : Tallied c) : c.gauges.Balanced := by
  constructor
  · show c.globalInflight = _
    rw [h.inflight]
    simp [gauges, Dict.sum, Dict.values, List.map_map, Function.comp_def]
  · show c.globalQueued = _
    rw [h.queued]
    simp [gauges, Dict.sum, Dict.values, List.map_map, Function.comp_def]

/-- After `_notify_observer` the last call has the gauges. -/
theorem Tallied.notifyObserver (h : Tallied c) : Mirrors c.notifyObserver := by
  have hobserver : ∀ calls, c.notifyObserver.observer = some calls →
      ∃ calls', c.observer = some calls' ∧ calls' ++ [c.gauges] = calls := by
    intro calls hcalls
    exact Option.map_eq_some_iff.mp hcalls
  refine ⟨⟨h.inflight, h.queued, ?_⟩, ?_⟩
  · intro calls hcalls call hcall
    obtain ⟨calls', hcalls', rfl⟩ := hobserver calls hcalls
    rcases List.mem_append.mp hcall with hold | hnew
    · exact h.calls calls' hcalls' call hold
    · rw [List.mem_singleton.mp hnew]
      exact h.balanced
  · intro calls hcalls
    obtain ⟨calls', -, rfl⟩ := hobserver calls hcalls
    exact List.getLast?_concat ..

/-- What changes neither the counters nor the tenants nor the calls keeps the gauges. -/
theorem Mirrors.of_same (h : Mirrors c) (htenants : c'.tenants = c.tenants)
    (hinflight : c'.globalInflight = c.globalInflight) (hqueued : c'.globalQueued = c.globalQueued)
    (hobserver : c'.observer = c.observer) : Mirrors c' := by
  have hgauges : c'.gauges = c.gauges := by
    unfold gauges
    rw [htenants, hinflight, hqueued]
  refine ⟨⟨?_, ?_, ?_⟩, ?_⟩
  · rw [hinflight, htenants]
    exact h.inflight
  · rw [hqueued, htenants]
    exact h.queued
  · rw [hobserver]
    exact h.calls
  · rw [hobserver, hgauges]
    exact h.last

/-- Another queue for a tenant, with the counter to match. -/
theorem Tallied.withQueue (h : Tallied c) (hst : c.tenants.get? t = some st) {q : List WaiterId}
    (htenants : c'.tenants = c.tenants.modify t ({ · with queue := q }))
    (hqueued : c'.globalQueued = c.globalQueued + (q.length - st.queue.length : Int))
    (hinflight : c'.globalInflight = c.globalInflight) (hobserver : c'.observer = c.observer) :
    Tallied c' := by
  refine ⟨?_, ?_, ?_⟩
  · have hsum : (c.tenants.modify t ({ · with queue := q })).sum (·.inflight) =
        c.tenants.sum (·.inflight) := Dict.sum_modify_eq c.tenants t fun _ => rfl
    rw [hinflight, htenants, hsum]
    exact h.inflight
  · have hsum := Dict.sum_modify hst ({ · with queue := q }) fun st => (st.queue.length : Int)
    rw [hqueued, htenants, hsum, h.queued]
  · rw [hobserver]
    exact h.calls

/-- Another count for a tenant, with the counter to match. -/
theorem Tallied.withInflight (h : Tallied c) (hst : c.tenants.get? t = some st) {n : Int}
    (htenants : c'.tenants = c.tenants.modify t ({ · with inflight := n }))
    (hinflight : c'.globalInflight = c.globalInflight + (n - st.inflight))
    (hqueued : c'.globalQueued = c.globalQueued) (hobserver : c'.observer = c.observer) :
    Tallied c' := by
  refine ⟨?_, ?_, ?_⟩
  · have hsum := Dict.sum_modify hst ({ · with inflight := n }) (·.inflight)
    rw [hinflight, htenants, hsum, h.inflight]
  · have hsum : (c.tenants.modify t ({ · with inflight := n })).sum (·.queue.length) =
        c.tenants.sum (·.queue.length) := Dict.sum_modify_eq c.tenants t fun _ => rfl
    rw [hqueued, htenants, hsum]
    exact h.queued
  · rw [hobserver]
    exact h.calls

/-! ## The helpers -/

theorem Mirrors.activateTenantLocked (h : Mirrors c) (t : String) :
    Mirrors (c.activateTenantLocked t) := by
  unfold AdmissionController.activateTenantLocked
  split
  · exact h.of_same rfl rfl rfl rfl
  · exact h

theorem Tallied.activateTenantLocked (h : Tallied c) (t : String) :
    Tallied (c.activateTenantLocked t) := by
  unfold AdmissionController.activateTenantLocked
  split
  · exact ⟨h.inflight, h.queued, h.calls⟩
  · exact h

theorem Tallied.deactivateTenantLocked (h : Tallied c)
    (hok : c.deactivateTenantLocked t = .ok c') : Tallied c' := by
  unfold AdmissionController.deactivateTenantLocked at hok
  split at hok
  · cases hok
    exact h
  split at hok
  · cases hok
    exact ⟨h.inflight, h.queued, h.calls⟩
  · cases hok

/-- Without a dead head nothing changes, and otherwise the new gauges are published. -/
theorem Mirrors.discardCompletedWaitersLocked (h : Mirrors c) (hst : c.tenants.get? t = some st) :
    Mirrors (c.discardCompletedWaitersLocked t st) := by
  have hsuffix : st.queue.dropWhile c.waiterDone <:+ st.queue := List.dropWhile_suffix _
  unfold AdmissionController.discardCompletedWaitersLocked
  dsimp only
  by_cases hlt : (st.queue.dropWhile c.waiterDone).length < st.queue.length
  · rw [if_pos hlt]
    apply Tallied.notifyObserver
    refine h.toTallied.withQueue hst rfl ?_ rfl rfl
    show c.globalQueued - _ = c.globalQueued + _
    omega
  · rw [if_neg hlt]
    have hqueue : st.queue.dropWhile c.waiterDone = st.queue :=
      hsuffix.eq_of_length_le (Nat.le_of_not_lt hlt)
    refine h.of_same ?_ rfl ?_ rfl
    · rw [hqueue]
      exact Dict.modify_eq_self hst rfl
    · show c.globalQueued - _ = c.globalQueued
      rw [hqueue]
      omega

theorem Mirrors.removeWaiterLocked (h : Mirrors c) {removed : Bool}
    (hok : c.removeWaiterLocked t w = .ok (removed, c')) : Mirrors c' := by
  unfold AdmissionController.removeWaiterLocked at hok
  cases hst : c.tenants.get? t with
  | none =>
    rw [hst] at hok
    cases hok
  | some st =>
    rw [hst] at hok
    dsimp only at hok
    by_cases hmem : w ∈ st.queue
    · rw [if_pos hmem] at hok
      have hlength := List.length_erase_of_mem hmem
      have hpos := List.length_pos_of_mem hmem
      have htallied : Tallied { c with
          tenants := c.tenants.modify t ({ · with queue := st.queue.erase w })
          globalQueued := c.globalQueued - 1 } := by
        refine h.toTallied.withQueue hst rfl ?_ rfl rfl
        show c.globalQueued - 1 = c.globalQueued + _
        omega
      by_cases hnil : st.queue.erase w = []
      · rw [if_pos hnil] at hok
        obtain ⟨c₁, hdeactivate, heq⟩ := map_eq_ok.mp hok
        cases heq
        exact (htallied.deactivateTenantLocked hdeactivate).notifyObserver
      · rw [if_neg hnil] at hok
        cases hok
        exact htallied.notifyObserver
    · rw [if_neg hmem] at hok
      cases hok
      exact h

/-- A grant publishes the gauges, whatever was published before. -/
theorem Tallied.grantLocked (h : Tallied c) {wasQueued : Bool}
    (hok : c.grantLocked t wasQueued = .ok (lease, c')) : Mirrors c' := by
  unfold AdmissionController.grantLocked at hok
  cases hst : c.tenants.get? t with
  | none =>
    rw [hst] at hok
    cases hok
  | some st =>
    rw [hst] at hok
    dsimp only at hok
    split at hok
    · cases hok
      apply Tallied.notifyObserver
      refine h.withInflight hst rfl ?_ rfl rfl
      show c.globalInflight + 1 = c.globalInflight + (st.inflight + 1 - st.inflight)
      omega
    · cases hok

theorem Mirrors.setResult (h : Mirrors c) (hok : c.setResult w lease = .ok c') : Mirrors c' := by
  unfold AdmissionController.setResult at hok
  split at hok
  · cases hok
  · cases hok
    exact h.of_same rfl rfl rfl rfl

/-! ## A dispatch -/

theorem Mirrors.grantHead (h : Mirrors c) (hst : c.tenants.get? t = some st) {queue : List WaiterId}
    (hqueue : st.queue = w :: queue) (hok : c.grantHead t w queue = .ok c') : Mirrors c' := by
  unfold AdmissionController.grantHead at hok
  let popped := { c with
    tenants := c.tenants.modify t ({ · with queue := queue })
    globalQueued := c.globalQueued - 1 }
  have hpopped : Tallied popped := by
    refine h.toTallied.withQueue hst rfl ?_ rfl rfl
    show c.globalQueued - 1 = c.globalQueued + _
    rw [hqueue, List.length_cons]
    omega
  -- the counters are not published before the grant
  have hactive : Tallied (if queue ≠ [] then popped.activateTenantLocked t else popped) := by
    split
    · exact hpopped.activateTenantLocked t
    · exact hpopped
  obtain ⟨⟨lease, granted⟩, hgrant, hset⟩ := bind_eq_ok.mp hok
  exact (hactive.grantLocked hgrant).setResult hset

theorem Mirrors.tryHead (h : Mirrors c) {granted : Bool}
    (hok : c.tryHead t = .ok (granted, c')) : Mirrors c' := by
  unfold AdmissionController.tryHead at hok
  cases hst : c.tenants.get? t with
  | none =>
    rw [hst] at hok
    cases hok
  | some st =>
    rw [hst] at hok
    dsimp only at hok
    cases hqueue : st.queue with
    | nil =>
      rw [hqueue] at hok
      cases hok
      exact h
    | cons waiter queue =>
      rw [hqueue] at hok
      dsimp only at hok
      split at hok
      · cases hok
        exact h.activateTenantLocked t
      · obtain ⟨c₁, hgrant, heq⟩ := map_eq_ok.mp hok
        cases heq
        exact h.grantHead hst hqueue hgrant

theorem Mirrors.tryCandidate (h : Mirrors c) {granted : Bool}
    (hok : c.tryCandidate = .ok (granted, c')) : Mirrors c' := by
  unfold AdmissionController.tryCandidate at hok
  cases hring : c.activeTenants with
  | nil =>
    rw [hring] at hok
    cases hok
  | cons tenantId rest =>
    rw [hring] at hok
    dsimp only at hok
    split at hok
    · cases hok
    cases hst : c.tenants.get? tenantId with
    | none =>
      rw [hst] at hok
      cases hok
    | some st =>
      rw [hst] at hok
      have hpopped : Mirrors { c with
          activeTenants := rest
          activeTenantIds := c.activeTenantIds.erase tenantId } := h.of_same rfl rfl rfl rfl
      exact (hpopped.discardCompletedWaitersLocked hst).tryHead hok

theorem Mirrors.dispatchRound (h : Mirrors c) {n : Nat} {granted : Bool}
    (hok : c.dispatchRound n = .ok (granted, c')) : Mirrors c' := by
  induction n generalizing c with
  | zero =>
    cases hok
    exact h
  | succ n ih =>
    unfold AdmissionController.dispatchRound at hok
    obtain ⟨⟨granted₁, c₁⟩, htry, hrest⟩ := bind_eq_ok.mp hok
    dsimp only at hrest
    split at hrest
    · cases hrest
      exact h.tryCandidate htry
    · exact ih (h.tryCandidate htry) hrest

theorem Mirrors.dispatchLoop (h : Mirrors c) {n : Nat} (hok : dispatchLoop n c = .ok c') :
    Mirrors c' := by
  induction n generalizing c with
  | zero =>
    cases hok
    exact h
  | succ n ih =>
    unfold AdmissionController.dispatchLoop at hok
    split at hok
    · obtain ⟨⟨granted, c₁⟩, hround, hrest⟩ := bind_eq_ok.mp hok
      dsimp only at hrest
      split at hrest
      · exact ih (h.dispatchRound hround) hrest
      · cases hrest
        exact h.dispatchRound hround
    · cases hok
      exact h

theorem Mirrors.dispatchLocked (h : Mirrors c) (hok : c.dispatchLocked = .ok c') : Mirrors c' := by
  unfold AdmissionController.dispatchLocked at hok
  split at hok
  · cases hok
    exact h
  · exact h.dispatchLoop hok

/-! ## The sections -/

theorem Mirrors.releaseLocked (h : Mirrors c) (hok : c.releaseLocked lease = .ok c') :
    Mirrors c' := by
  unfold AdmissionController.releaseLocked at hok
  cases hlease : c.leases[lease]? with
  | none =>
    rw [hlease] at hok
    cases hok
  | some l =>
    rw [hlease] at hok
    dsimp only at hok
    split at hok
    · cases hok
      exact h
    cases hst : c.tenants.get? l.tenantId with
    | none =>
      rw [hst] at hok
      cases hok
    | some st =>
      rw [hst] at hok
      dsimp only at hok
      split at hok
      · cases hok
      · cases hok
        apply Tallied.notifyObserver
        refine h.toTallied.withInflight hst rfl ?_ rfl rfl
        show c.globalInflight - 1 = c.globalInflight + (st.inflight - 1 - st.inflight)
        omega

theorem Mirrors.release (h : Mirrors c) (hok : c.release lease = .ok c') : Mirrors c' := by
  obtain ⟨c₁, hrelease, hdispatch⟩ := bind_eq_ok.mp hok
  exact (h.releaseLocked hrelease).dispatchLocked hdispatch

theorem Mirrors.acquireLocked (h : Mirrors c) {admission : Admission}
    (hok : c.acquireLocked w t = .ok (admission, c')) : Mirrors c' := by
  unfold AdmissionController.acquireLocked at hok
  split at hok
  · cases hok
    exact h
  split at hok
  · cases hok
    exact h
  obtain ⟨c₁, hdispatch, hrest⟩ := bind_eq_ok.mp hok
  have h₁ := h.dispatchLocked hdispatch
  cases hst : c₁.tenants.get? t with
  | none =>
    rw [hst] at hrest
    cases hrest
  | some st =>
    rw [hst] at hrest
    dsimp only at hrest
    split at hrest
    · obtain ⟨⟨lease, c₂⟩, hgrant, heq⟩ := bind_eq_ok.mp hrest
      cases heq
      exact h₁.toTallied.grantLocked hgrant
    split at hrest
    · cases hrest
      exact h₁
    split at hrest
    · cases hrest
      exact h₁
    -- the waiter is queued and published, and may be granted at once
    have hqueued : Tallied { c₁ with
        tenants := c₁.tenants.modify t ({ · with queue := st.queue ++ [w] })
        globalQueued := c₁.globalQueued + 1 } := by
      refine h₁.toTallied.withQueue hst rfl ?_ rfl rfl
      show c₁.globalQueued + 1 = c₁.globalQueued + _
      rw [List.length_append, List.length_singleton]
      omega
    obtain ⟨c₂, hdispatch₂, heq⟩ := bind_eq_ok.mp hrest
    cases heq
    exact (hqueued.activateTenantLocked t).notifyObserver.dispatchLocked hdispatch₂

theorem Mirrors.acquireTimedOut (h : Mirrors c) (hok : c.acquireTimedOut t w = .ok c') :
    Mirrors c' := by
  obtain ⟨⟨removed, c₁⟩, hremove, hdispatch⟩ := bind_eq_ok.mp hok
  exact (h.removeWaiterLocked hremove).dispatchLocked hdispatch

theorem Mirrors.acquireCancelled (h : Mirrors c) (hok : c.acquireCancelled t w = .ok c') :
    Mirrors c' := by
  obtain ⟨⟨removed, c₁⟩, hremove, hrest⟩ := bind_eq_ok.mp hok
  have h₁ := h.removeWaiterLocked hremove
  dsimp only at hrest
  split at hrest
  · obtain ⟨c₂, hback, hdispatch⟩ := bind_eq_ok.mp hrest
    exact (h₁.releaseLocked hback).dispatchLocked hdispatch
  · obtain ⟨c₂, heq, hdispatch⟩ := bind_eq_ok.mp hrest
    cases heq
    exact h₁.dispatchLocked hdispatch

/-- All queues are empty once the shutdown publishes. -/
theorem Mirrors.shutdown (h : Mirrors c) (hok : c.shutdown = .ok c') : Mirrors c' := by
  unfold AdmissionController.shutdown at hok
  split at hok
  · cases hok
    exact h
  dsimp only at hok
  split at hok
  · cases hok
  next hzero =>
    rw [not_not] at hzero
    cases hok
    apply Tallied.notifyObserver
    refine ⟨?_, ?_, h.calls⟩
    · show c.globalInflight = (c.tenants.mapValues _).sum _
      rw [Dict.sum_mapValues]
      exact h.inflight
    · show c.globalQueued - _ = (c.tenants.mapValues _).sum _
      rw [Dict.sum_mapValues, hzero]
      exact (Dict.sum_eq_zero fun _ _ _ => rfl).symm

theorem Mirrors.setObserver (h : Mirrors c) (attach : Bool) : Mirrors (c.setObserver attach) := by
  apply Tallied.notifyObserver
  refine ⟨h.inflight, h.queued, fun calls hcalls call hcall => ?_⟩
  -- a new observer has no calls
  cases attach with
  | false => cases hcalls
  | true =>
    cases hcalls
    cases hcall

theorem mirrors_init {tenants : List TenantContext} {globalMaxInflight globalMaxQueue : Int}
    {queueTimeoutSeconds : Rat} {observed : Bool}
    (hok : init tenants globalMaxInflight globalMaxQueue queueTimeoutSeconds observed = .ok c) :
    Mirrors c := by
  unfold AdmissionController.init at hok
  split at hok
  · cases hok
  dsimp only at hok
  split at hok
  · cases hok
  cases hok
  have hzero : ∀ {g : TenantState → Int}, (∀ t : TenantContext, g ⟨t, 0, []⟩ = 0) →
      (Dict.ofList (tenants.map fun t => (t.tenantId, TenantState.mk t 0 []))).sum g = 0 := by
    intro g hg
    apply Dict.sum_eq_zero
    intro t st hst
    obtain ⟨tenant, -, heq⟩ := List.mem_map.mp (Dict.mem_of_get?_ofList hst)
    cases heq
    exact hg tenant
  apply Tallied.notifyObserver
  refine ⟨(hzero fun _ => rfl).symm, (hzero fun _ => rfl).symm, fun calls hcalls call hcall => ?_⟩
  cases observed with
  | false => cases hcalls
  | true =>
    cases hcalls
    cases hcall

end AdmissionController

/-! ## Runs -/

namespace AdmissionSystem

open AdmissionController

variable {s s' : AdmissionSystem}

theorem lift_eq_ok {α : Type} {x : Except Fault α} {a : α} : lift x = .ok a ↔ x = .ok a := by
  cases x with
  | error f => simp [lift]
  | ok b => simp [lift]

theorem mirrors_resumeCall {c c' : AdmissionController} {w : WaiterId} {t : String} {d k : Bool}
    {call : AcquireCall} (h : Mirrors c) (hok : resumeCall c w t d k = .ok (call, c')) :
    Mirrors c' := by
  unfold resumeCall at hok
  split at hok
  · cases hok
  · cases hok
    exact h
  · cases hok
    exact h
  · obtain ⟨c₁, hlift, heq⟩ := bind_eq_ok.mp hok
    cases heq
    exact h.acquireTimedOut (lift_eq_ok.mp hlift)
  · obtain ⟨c₁, hlift, heq⟩ := bind_eq_ok.mp hok
    cases heq
    exact h.acquireCancelled (lift_eq_ok.mp hlift)

theorem mirrors_startCall {c c' : AdmissionController} {w : WaiterId} {t : String}
    {call : AcquireCall} (h : Mirrors c) (hok : startCall c w t = .ok (call, c')) :
    Mirrors c' := by
  obtain ⟨⟨admission, c₁⟩, hlift, hrest⟩ := bind_eq_ok.mp hok
  have h₁ := h.acquireLocked (lift_eq_ok.mp hlift)
  cases admission with
  | granted lease =>
    cases hrest
    exact h₁
  | raised e =>
    cases hrest
    exact h₁
  | queued =>
    dsimp only at hrest
    split at hrest
    · exact mirrors_resumeCall h₁ hrest
    · cases hrest
      exact h₁

/-- Every step keeps the gauges published. -/
theorem mirrors_step {a : AdmissionAction} (h : Mirrors s.controller) (hok : s.step a = .ok s') :
    Mirrors s'.controller := by
  cases a with
  | acquire t =>
    obtain ⟨⟨call, c⟩, hstart, heq⟩ := bind_eq_ok.mp hok
    cases heq
    exact mirrors_startCall h hstart
  | deadline w =>
    rw [step] at hok
    split at hok
    · cases hok
      exact h.of_same rfl rfl rfl rfl
    · cases hok
  | cancel w =>
    rw [step] at hok
    split at hok
    · cases hok
      exact h.of_same rfl rfl rfl rfl
    · cases hok
  | resume w =>
    rw [step] at hok
    split at hok
    · obtain ⟨⟨call, c⟩, hresume, heq⟩ := bind_eq_ok.mp hok
      cases heq
      exact mirrors_resumeCall h hresume
    · cases hok
  | release lease =>
    rw [step] at hok
    split at hok
    · obtain ⟨c, hlift, heq⟩ := bind_eq_ok.mp hok
      cases heq
      exact h.release (lift_eq_ok.mp hlift)
    · cases hok
  | shutdown =>
    obtain ⟨c, hlift, heq⟩ := bind_eq_ok.mp hok
    cases heq
    exact h.shutdown (lift_eq_ok.mp hlift)
  | setObserver attach =>
    cases hok
    exact h.setObserver attach

/-- In every reachable state the calls are balanced and the last one has the gauges. -/
theorem mirrors_of_reachable (h : lts.Reachable s) : Mirrors s.controller := by
  have hinductive : lts.Inductive fun s => Mirrors s.controller := by
    constructor
    · intro s hinit
      obtain ⟨-, tenants, globalMaxInflight, globalMaxQueue, queueTimeoutSeconds, observed, hok⟩ :=
        hinit
      exact mirrors_init hok
    · intro s a s' hmirrors _ hstep
      exact mirrors_step hmirrors hstep
  exact hinductive.holds h

/-- Between any two sections the last call has the gauges of the controller, and the totals of
    every call are the sums over its tenants. -/
theorem gauges_published (h : lts.Reachable s) {calls : List AdmissionStateChanged}
    (hcalls : s.controller.observer = some calls) :
    calls.getLast? = some s.controller.gauges ∧ ∀ call ∈ calls, call.Balanced :=
  ⟨(mirrors_of_reachable h).last calls hcalls, (mirrors_of_reachable h).calls calls hcalls⟩

theorem gauges_published_sample : ∃ s calls,
    Lts.exec step sample [.setObserver true, .acquire "a", .acquire "b", .acquire "a",
      .release 0] = .ok s ∧ s.controller.observer = some calls ∧
      (calls.getLast? = some s.controller.gauges ∧ ∀ call ∈ calls, call.Balanced) ∧
      s.controller.globalQueued = 1 :=
  ⟨_, _, rfl, rfl, gauges_published (Lts.reachable_of_exec sample_init (s := sample)
    (l := [.setObserver true, .acquire "a", .acquire "b", .acquire "a", .release 0]) rfl) rfl, rfl⟩

end AdmissionSystem

end Gateway
