import Gateway.Model.AdmissionController

/-!
# What the helpers of the admission controller do

Each helper of `AdmissionController` is described once, by the record it leaves:
which tenant's queue it replaced, which lease it added or dropped, and what
became of the ring. `Candidate` is everything one iteration of the `for` loop of
`_dispatch_locked` can do, and `Dispatch` chains the iterations of a whole
dispatch. What the controller published to its observer is left open (`obs`).

## Key results

- `tryCandidate_spec`: an iteration raises nothing and is one of three cases
- `removeWaiterLocked_of_mem`, `grantLocked_spec`, `releaseLocked_spec`: the other
  helpers
-/

namespace Gateway.AdmissionController

/-! ## The records the helpers leave -/

/-- The controller with another queue for one tenant, and the ring that goes with it. -/
def setQueue (c : AdmissionController) (t : String) (queue : List WaiterId) (ring : List String)
    (ids : Finset String) (obs : Option (List AdmissionStateChanged)) : AdmissionController :=
  { c with
    tenants := c.tenants.modify t ({ · with queue := queue })
    globalQueued := c.globalQueued + (queue.length - (c.tenants.get? t).elim 0 (·.queue.length) : Int)
    activeTenants := ring
    activeTenantIds := ids
    observer := obs }

/-- The controller with one more granted lease. -/
def addLease (c : AdmissionController) (t : String) (wasQueued : Bool)
    (obs : Option (List AdmissionStateChanged)) : AdmissionController :=
  { c with
    tenants := c.tenants.modify t fun st => { st with inflight := st.inflight + 1 }
    globalInflight := c.globalInflight + 1
    leases := c.leases ++ [⟨t, wasQueued, false⟩]
    observer := obs }

/-- The controller with one lease released. -/
def dropLease (c : AdmissionController) (lease : LeaseId) (l : AdmissionLease)
    (obs : Option (List AdmissionStateChanged)) : AdmissionController :=
  { c with
    tenants := c.tenants.modify l.tenantId fun st => { st with inflight := st.inflight - 1 }
    globalInflight := c.globalInflight - 1
    leases := c.leases.set lease { l with released := true }
    observer := obs }

/-- The controller with a lease delivered to a waiter's future. -/
def deliver (c : AdmissionController) (w : WaiterId) (lease : LeaseId) : AdmissionController :=
  { c with futures := Function.update c.futures w (.result lease) }

section Fields

variable (c : AdmissionController) (t : String) (queue : List WaiterId) (ring : List String)
  (ids : Finset String) (obs : Option (List AdmissionStateChanged)) (b : Bool)
  (lease : LeaseId) (l : AdmissionLease) (w : WaiterId)

@[simp] theorem setQueue_limits : (c.setQueue t queue ring ids obs).limits = c.limits := rfl
@[simp] theorem setQueue_globalInflight :
    (c.setQueue t queue ring ids obs).globalInflight = c.globalInflight := rfl
@[simp] theorem setQueue_activeTenants :
    (c.setQueue t queue ring ids obs).activeTenants = ring := rfl
@[simp] theorem setQueue_activeTenantIds :
    (c.setQueue t queue ring ids obs).activeTenantIds = ids := rfl
@[simp] theorem setQueue_closed : (c.setQueue t queue ring ids obs).closed = c.closed := rfl
@[simp] theorem setQueue_futures : (c.setQueue t queue ring ids obs).futures = c.futures := rfl
@[simp] theorem setQueue_leases : (c.setQueue t queue ring ids obs).leases = c.leases := rfl

@[simp] theorem addLease_limits : (c.addLease t b obs).limits = c.limits := rfl
@[simp] theorem addLease_globalInflight :
    (c.addLease t b obs).globalInflight = c.globalInflight + 1 := rfl
@[simp] theorem addLease_globalQueued : (c.addLease t b obs).globalQueued = c.globalQueued := rfl
@[simp] theorem addLease_activeTenants : (c.addLease t b obs).activeTenants = c.activeTenants := rfl
@[simp] theorem addLease_activeTenantIds :
    (c.addLease t b obs).activeTenantIds = c.activeTenantIds := rfl
@[simp] theorem addLease_closed : (c.addLease t b obs).closed = c.closed := rfl
@[simp] theorem addLease_futures : (c.addLease t b obs).futures = c.futures := rfl
@[simp] theorem addLease_leases : (c.addLease t b obs).leases = c.leases ++ [⟨t, b, false⟩] := rfl

@[simp] theorem dropLease_limits : (c.dropLease lease l obs).limits = c.limits := rfl
@[simp] theorem dropLease_globalInflight :
    (c.dropLease lease l obs).globalInflight = c.globalInflight - 1 := rfl
@[simp] theorem dropLease_globalQueued :
    (c.dropLease lease l obs).globalQueued = c.globalQueued := rfl
@[simp] theorem dropLease_activeTenants :
    (c.dropLease lease l obs).activeTenants = c.activeTenants := rfl
@[simp] theorem dropLease_activeTenantIds :
    (c.dropLease lease l obs).activeTenantIds = c.activeTenantIds := rfl
@[simp] theorem dropLease_closed : (c.dropLease lease l obs).closed = c.closed := rfl
@[simp] theorem dropLease_futures : (c.dropLease lease l obs).futures = c.futures := rfl
@[simp] theorem dropLease_leases :
    (c.dropLease lease l obs).leases = c.leases.set lease { l with released := true } := rfl

@[simp] theorem deliver_tenants : (c.deliver w lease).tenants = c.tenants := rfl
@[simp] theorem deliver_limits : (c.deliver w lease).limits = c.limits := rfl
@[simp] theorem deliver_globalInflight :
    (c.deliver w lease).globalInflight = c.globalInflight := rfl
@[simp] theorem deliver_globalQueued : (c.deliver w lease).globalQueued = c.globalQueued := rfl
@[simp] theorem deliver_activeTenants : (c.deliver w lease).activeTenants = c.activeTenants := rfl
@[simp] theorem deliver_activeTenantIds :
    (c.deliver w lease).activeTenantIds = c.activeTenantIds := rfl
@[simp] theorem deliver_closed : (c.deliver w lease).closed = c.closed := rfl
@[simp] theorem deliver_leases : (c.deliver w lease).leases = c.leases := rfl
@[simp] theorem deliver_futures :
    (c.deliver w lease).futures = Function.update c.futures w (.result lease) := rfl

end Fields

variable {c c' : AdmissionController} {t t' : String} {st : TenantState}

theorem get?_setQueue (queue : List WaiterId) (ring : List String) (ids : Finset String)
    (obs : Option (List AdmissionStateChanged)) :
    (c.setQueue t queue ring ids obs).tenants.get? t' =
      if t = t' then (c.tenants.get? t').map ({ · with queue := queue })
      else c.tenants.get? t' := Dict.get?_modify ..

theorem get?_addLease (b : Bool) (obs : Option (List AdmissionStateChanged)) :
    (c.addLease t b obs).tenants.get? t' =
      if t = t' then (c.tenants.get? t').map fun st => { st with inflight := st.inflight + 1 }
      else c.tenants.get? t' := Dict.get?_modify ..

theorem get?_dropLease (lease : LeaseId) (l : AdmissionLease)
    (obs : Option (List AdmissionStateChanged)) :
    (c.dropLease lease l obs).tenants.get? t' =
      if l.tenantId = t' then
        (c.tenants.get? t').map fun st => { st with inflight := st.inflight - 1 }
      else c.tenants.get? t' := Dict.get?_modify ..

/-- Replacing a queue twice is replacing it once. -/
theorem setQueue_setQueue (h : c.tenants.get? t = some st) {q₁ q₂ : List WaiterId}
    {r₁ r₂ : List String} {i₁ i₂ : Finset String}
    {o₁ o₂ : Option (List AdmissionStateChanged)} :
    (c.setQueue t q₁ r₁ i₁ o₁).setQueue t q₂ r₂ i₂ o₂ = c.setQueue t q₂ r₂ i₂ o₂ := by
  have hq : (c.setQueue t q₁ r₁ i₁ o₁).tenants.get? t = some { st with queue := q₁ } := by
    rw [get?_setQueue, if_pos rfl, h, Option.map_some]
  unfold setQueue at hq ⊢
  simp only at hq
  simp only [hq, h, Option.elim_some, Dict.modify_modify, AdmissionController.mk.injEq, true_and,
    and_true]
  omega

/-! ## The ring -/

theorem activateTenantLocked_of_notMem (h : t ∉ c.activeTenantIds) :
    c.activateTenantLocked t = { c with
      activeTenants := c.activeTenants ++ [t]
      activeTenantIds := insert t c.activeTenantIds } := by
  simp [activateTenantLocked, h]

theorem activateTenantLocked_of_mem (h : t ∈ c.activeTenantIds) :
    c.activateTenantLocked t = c := by
  simp [activateTenantLocked, h]

/-! ## The other helpers -/

theorem discardCompletedWaitersLocked_spec (hst : c.tenants.get? t = some st) :
    ∃ obs, c.discardCompletedWaitersLocked t st =
      c.setQueue t (st.queue.dropWhile c.waiterDone) c.activeTenants c.activeTenantIds obs := by
  have hq : c.globalQueued - (st.queue.length - (st.queue.dropWhile c.waiterDone).length : Int) =
      c.globalQueued + ((st.queue.dropWhile c.waiterDone).length - st.queue.length : Int) := by
    omega
  simp only [discardCompletedWaitersLocked, setQueue, hst, Option.elim_some, hq]
  split
  · exact ⟨_, rfl⟩
  · exact ⟨_, rfl⟩

/-- `_remove_waiter_locked` when the waiter has left the queue already. -/
theorem removeWaiterLocked_of_notMem {w : WaiterId} (hst : c.tenants.get? t = some st)
    (hw : w ∉ st.queue) : c.removeWaiterLocked t w = .ok (false, c) := by
  simp [removeWaiterLocked, hst, hw]

/-- `_remove_waiter_locked` of a queued waiter; an emptied tenant leaves the ring. -/
theorem removeWaiterLocked_of_mem {w : WaiterId} (hst : c.tenants.get? t = some st)
    (hids : t ∈ c.activeTenants ↔ t ∈ c.activeTenantIds) (hw : w ∈ st.queue) :
    ∃ obs, c.removeWaiterLocked t w = .ok (true, c.setQueue t (st.queue.erase w)
      (if st.queue.erase w = [] then c.activeTenants.erase t else c.activeTenants)
      (if st.queue.erase w = [] then c.activeTenantIds.erase t else c.activeTenantIds) obs) := by
  have hlen : ((st.queue.erase w).length : Int) = st.queue.length - 1 := by
    have := List.length_pos_of_mem hw
    rw [List.length_erase_of_mem hw]; omega
  have hq : c.globalQueued + ((st.queue.erase w).length - st.queue.length : Int) =
      c.globalQueued - 1 := by omega
  simp only [removeWaiterLocked, hst, hw, if_true, setQueue, Option.elim_some, hq]
  by_cases hempty : st.queue.erase w = []
  · simp only [hempty, if_true, deactivateTenantLocked]
    by_cases ht : t ∈ c.activeTenantIds
    · simp only [ht, not_true_eq_false, if_false, hids.mpr ht, if_true]
      exact ⟨_, rfl⟩
    · simp only [ht, not_false_eq_true, if_true, Finset.erase_eq_of_notMem ht,
        List.erase_of_not_mem (fun h => ht (hids.mp h))]
      exact ⟨_, rfl⟩
  · simp only [hempty, if_false]
    exact ⟨_, rfl⟩

theorem grantLocked_spec (hst : c.tenants.get? t = some st) (hfree : c.canAdmit st = true)
    (wasQueued : Bool) :
    ∃ obs, c.grantLocked t wasQueued = .ok (c.leases.length, c.addLease t wasQueued obs) := by
  simp only [grantLocked, hst, hfree, if_true, addLease]
  rw [Dict.modify_congr hst (f := fun x => { x with inflight := st.inflight + 1 })
    (g := fun x => { x with inflight := x.inflight + 1 }) rfl]
  exact ⟨_, rfl⟩

/-- `_release_locked` of a lease that was released before. -/
theorem releaseLocked_of_released {lease : LeaseId} {l : AdmissionLease}
    (hl : c.leases[lease]? = some l) (hr : l.released = true) :
    c.releaseLocked lease = .ok c := by
  simp [releaseLocked, hl, hr]

/-- `_release_locked` of a lease that holds its slot. -/
theorem releaseLocked_spec {lease : LeaseId} {l : AdmissionLease}
    (hl : c.leases[lease]? = some l) (hr : l.released = false)
    (hst : c.tenants.get? l.tenantId = some st) (hpos : 0 < st.inflight)
    (hglobal : 0 < c.globalInflight) :
    ∃ obs, c.releaseLocked lease = .ok (c.dropLease lease l obs) := by
  have hguard : ¬(st.inflight ≤ 0 ∨ c.globalInflight ≤ 0) := by omega
  simp only [releaseLocked, hl, hr, Bool.false_eq_true, if_false, hst, hguard,
    dropLease]
  rw [Dict.modify_congr hst (f := fun x => { x with inflight := st.inflight - 1 })
    (g := fun x => { x with inflight := x.inflight - 1 }) rfl]
  exact ⟨_, rfl⟩

/-! ## One candidate -/

/-- What one iteration of the `for` loop of `_dispatch_locked` does to the tenant
    `t` at the head of the ring. -/
inductive Candidate (c : AdmissionController) (t : String) (rest : List String)
    (st : TenantState) : Bool → AdmissionController → Prop
  /-- only dead waiters were queued: the tenant leaves the ring -/
  | emptied (obs : Option (List AdmissionStateChanged))
      (hq : st.queue.dropWhile c.waiterDone = []) :
      Candidate c t rest st false (c.setQueue t [] rest (c.activeTenantIds.erase t) obs)
  /-- the tenant is at its own limit: it goes to the tail of the ring -/
  | limited (obs : Option (List AdmissionStateChanged)) (w : WaiterId) (queue : List WaiterId)
      (hq : st.queue.dropWhile c.waiterDone = w :: queue)
      (hmax : st.tenant.maxInflight ≤ st.inflight) :
      Candidate c t rest st false
        (c.setQueue t (w :: queue) (rest ++ [t]) (insert t (c.activeTenantIds.erase t)) obs)
  /-- the first live waiter is granted; the tenant goes to the tail of the ring
      if it has more -/
  | granted (obs : Option (List AdmissionStateChanged)) (w : WaiterId) (queue : List WaiterId)
      (hq : st.queue.dropWhile c.waiterDone = w :: queue)
      (hmax : st.inflight < st.tenant.maxInflight) :
      Candidate c t rest st true
        (((c.setQueue t queue (if queue = [] then rest else rest ++ [t])
          (if queue = [] then c.activeTenantIds.erase t
            else insert t (c.activeTenantIds.erase t)) obs).addLease t true obs).deliver w
              c.leases.length)

/-- Popping the live head of a queue whose tenant has left the ring. -/
private theorem grantHead_spec {w : WaiterId} {queue : List WaiterId}
    (hst : c.tenants.get? t = some st) (hqueue : st.queue = w :: queue)
    (ht : t ∉ c.activeTenantIds) (hlive : c.waiterDone w = false)
    (hmax : st.inflight < st.tenant.maxInflight)
    (hcap : c.globalInflight < c.limits.globalMaxInflight) :
    ∃ obs, c.grantHead t w queue = .ok (((c.setQueue t queue
      (if queue = [] then c.activeTenants else c.activeTenants ++ [t])
      (if queue = [] then c.activeTenantIds else insert t c.activeTenantIds) obs).addLease t true
        obs).deliver w c.leases.length) := by
  have hq : c.globalQueued + (queue.length - st.queue.length : Int) = c.globalQueued - 1 := by
    rw [hqueue, List.length_cons]; omega
  -- the state after the pop, in either case
  have hpop : ∃ obs, (if queue ≠ [] then activateTenantLocked { c with
      tenants := c.tenants.modify t ({ · with queue := queue })
      globalQueued := c.globalQueued - 1 } t
    else { c with
      tenants := c.tenants.modify t ({ · with queue := queue })
      globalQueued := c.globalQueued - 1 }) = c.setQueue t queue
      (if queue = [] then c.activeTenants else c.activeTenants ++ [t])
      (if queue = [] then c.activeTenantIds else insert t c.activeTenantIds) obs := by
    refine ⟨c.observer, ?_⟩
    by_cases hempty : queue = []
    · simp [hempty, setQueue, hst, hqueue, ← hq]
    · simp [hempty, setQueue, hst, ← hq, activateTenantLocked, ht]
  obtain ⟨obs₁, hpop⟩ := hpop
  have hst₁ : (c.setQueue t queue
      (if queue = [] then c.activeTenants else c.activeTenants ++ [t])
      (if queue = [] then c.activeTenantIds else insert t c.activeTenantIds) obs₁).tenants.get? t =
        some { st with queue := queue } := by
    rw [get?_setQueue, if_pos rfl, hst, Option.map_some]
  obtain ⟨obs, hgrant⟩ := grantLocked_spec hst₁ (by simp [canAdmit, hmax, hcap]) true
  refine ⟨obs, ?_⟩
  simp only [grantHead]
  rw [hpop, hgrant]
  have hlive' : waiterDone ((c.setQueue t queue
      (if queue = [] then c.activeTenants else c.activeTenants ++ [t])
      (if queue = [] then c.activeTenantIds else insert t c.activeTenantIds) obs₁).addLease t true
        obs) w = false := hlive
  simp only [bind, Except.bind, setResult, hlive', Bool.false_eq_true, if_false]
  rfl

/-- The first element that survives `dropWhile` fails the test. -/
private theorem head_live {p : WaiterId → Bool} {l queue : List WaiterId} {w : WaiterId}
    (h : l.dropWhile p = w :: queue) : p w = false := by
  have := List.head?_dropWhile_not p l
  rwa [h] at this

theorem tryCandidate_spec {rest : List String} (hring : c.activeTenants = t :: rest)
    (ht : t ∈ c.activeTenantIds) (hst : c.tenants.get? t = some st)
    (hcap : c.globalInflight < c.limits.globalMaxInflight) :
    ∃ b c', c.tryCandidate = .ok (b, c') ∧ Candidate c t rest st b c' := by
  -- the tenant leaves the ring and its dead heads go
  have hst₀ : { c with activeTenants := rest,
                       activeTenantIds := c.activeTenantIds.erase t }.tenants.get? t = some st := hst
  obtain ⟨obs, hdiscard⟩ := discardCompletedWaitersLocked_spec hst₀
  simp only [tryCandidate, hring, ht, not_true_eq_false, if_false, hst]
  rw [hdiscard]
  change ∃ b c', (c.setQueue t (st.queue.dropWhile c.waiterDone) rest (c.activeTenantIds.erase t)
    obs).tryHead t = _ ∧ _
  have hst₁ : (c.setQueue t (st.queue.dropWhile c.waiterDone) rest
      (c.activeTenantIds.erase t) obs).tenants.get? t =
        some { st with queue := st.queue.dropWhile c.waiterDone } := by
    rw [get?_setQueue, if_pos rfl, hst, Option.map_some]
  have hout : t ∉ (c.setQueue t (st.queue.dropWhile c.waiterDone) rest
      (c.activeTenantIds.erase t) obs).activeTenantIds := by simp
  simp only [tryHead, hst₁]
  cases hq : st.queue.dropWhile c.waiterDone with
  | nil => exact ⟨false, _, rfl, .emptied obs hq⟩
  | cons w queue =>
    rw [hq] at hst₁ hout
    by_cases hmax : st.inflight ≥ st.tenant.maxInflight
    · simp only [hmax, if_true]
      rw [activateTenantLocked_of_notMem hout]
      exact ⟨false, _, rfl, .limited obs w queue hq hmax⟩
    · obtain ⟨obs₁, hgrant⟩ := grantHead_spec hst₁ rfl hout (head_live hq) (not_le.mp hmax) hcap
      simp only [hmax, if_false]
      rw [hgrant, setQueue_setQueue hst]
      exact ⟨true, _, rfl, .granted obs₁ w queue hq (not_le.mp hmax)⟩

end Gateway.AdmissionController
