import Gateway.Spec.AdmissionDispatch

/-!
# The representation invariant of the admission controller

`Inv` relates the five redundant pieces of the controller's state (two counters,
the per-tenant queues, the ring and its set) with each other, with the limits
and with the leases granted so far. Each record the helpers leave keeps it, under
the conditions those helpers check.

## Key results

- `Inv.setQueue`, `Inv.addLease`, `Inv.dropLease`, `Inv.deliver`: the records
- `Inv.held_pos`: a lease that holds its slot has positive counts behind it
-/

namespace Gateway.AdmissionController

/-- The unreleased leases of one tenant. -/
def held (c : AdmissionController) (t : String) : Nat :=
  c.leases.countP fun l => l.tenantId = t && !l.released

/-- All unreleased leases. -/
def heldTotal (c : AdmissionController) : Nat := c.leases.countP fun l => !l.released

/-- The representation invariant. -/
structure Inv (c : AdmissionController) : Prop where
  inflight_sum : c.globalInflight = c.tenants.sum (·.inflight)
  queued_sum : c.globalQueued = c.tenants.sum (·.queue.length)
  tenant_key : ∀ {t st}, c.tenants.get? t = some st → st.tenant.tenantId = t
  inflight_le : ∀ {t st}, c.tenants.get? t = some st → st.inflight ≤ st.tenant.maxInflight
  queue_le : ∀ {t st}, c.tenants.get? t = some st → st.queue.length ≤ st.tenant.maxQueue
  globalInflight_le : c.globalInflight ≤ c.limits.globalMaxInflight
  globalQueued_le : c.globalQueued ≤ c.limits.globalMaxQueue
  active_nodup : c.activeTenants.Nodup
  active_ids : ∀ t, t ∈ c.activeTenants ↔ t ∈ c.activeTenantIds
  active_known : ∀ {t}, t ∈ c.activeTenants → ∃ st, c.tenants.get? t = some st
  active_of_queue : ∀ {t st}, c.closed = false → c.tenants.get? t = some st → st.queue ≠ [] →
    t ∈ c.activeTenants
  closed_active : c.closed = true → c.activeTenants = []
  closed_queue : ∀ {t st}, c.closed = true → c.tenants.get? t = some st → st.queue = []
  queue_nodup : ∀ {t st}, c.tenants.get? t = some st → st.queue.Nodup
  queue_disjoint : ∀ {t t' st st' w}, c.tenants.get? t = some st → c.tenants.get? t' = some st' →
    w ∈ st.queue → w ∈ st'.queue → t = t'
  queue_unset : ∀ {t st w}, c.tenants.get? t = some st → w ∈ st.queue →
    c.futures w = .pending ∨ c.futures w = .cancelled
  held_eq : ∀ {t st}, c.tenants.get? t = some st → st.inflight = c.held t
  heldTotal_eq : c.globalInflight = c.heldTotal
  lease_known : ∀ {l}, l ∈ c.leases → ∃ st, c.tenants.get? l.tenantId = some st

variable {c c' : AdmissionController} {t t' : String} {st st' : TenantState}
  {obs : Option (List AdmissionStateChanged)}

/-! ## Replacing a queue -/

/-- What the tenants of `setQueue` are. -/
private theorem setQueue_cases {q : List WaiterId} {ring : List String} {ids : Finset String}
    (hst : c.tenants.get? t = some st)
    (h : (c.setQueue t q ring ids obs).tenants.get? t' = some st') :
    (t = t' ∧ st' = { st with queue := q }) ∨ (t ≠ t' ∧ c.tenants.get? t' = some st') := by
  rw [get?_setQueue] at h
  by_cases ht : t = t'
  · subst ht
    rw [if_pos rfl, hst, Option.map_some, Option.some.injEq] at h
    exact .inl ⟨rfl, h.symm⟩
  · rw [if_neg ht] at h
    exact .inr ⟨ht, h⟩

/-- Reading another field through `setQueue`: only the queue changes. -/
private theorem setQueue_same {q : List WaiterId} {ring : List String} {ids : Finset String}
    (hst : c.tenants.get? t = some st)
    (h : (c.setQueue t q ring ids obs).tenants.get? t' = some st') :
    ∃ s, c.tenants.get? t' = some s ∧ s.tenant = st'.tenant ∧ s.inflight = st'.inflight := by
  rcases setQueue_cases hst h with ⟨rfl, rfl⟩ | ⟨-, hg⟩
  · exact ⟨st, hst, rfl, rfl⟩
  · exact ⟨st', hg, rfl, rfl⟩

/-- Replacing one tenant's queue, and the ring to match. -/
theorem Inv.setQueue (h : Inv c) (hopen : c.closed = false) (hst : c.tenants.get? t = some st)
    {q : List WaiterId} {ring : List String} {ids : Finset String}
    (hlen : q.length ≤ st.tenant.maxQueue)
    (hglobal : c.globalQueued + (q.length - st.queue.length : Int) ≤ c.limits.globalMaxQueue)
    (hnodup : q.Nodup)
    (hunset : ∀ w ∈ q, c.futures w = .pending ∨ c.futures w = .cancelled)
    (hdisj : ∀ {t' st' w}, t ≠ t' → c.tenants.get? t' = some st' → w ∈ q → w ∉ st'.queue)
    (hring : ring.Nodup) (hids : ∀ x, x ∈ ring ↔ x ∈ ids)
    (hother : ∀ x, x ≠ t → (x ∈ ring ↔ x ∈ c.activeTenants))
    (ht : q ≠ [] → t ∈ ring) :
    Inv (c.setQueue t q ring ids obs) where
  inflight_sum := by
    rw [setQueue_globalInflight, h.inflight_sum]
    exact (Dict.sum_modify_eq c.tenants t (f := ({ · with queue := q })) (g := (·.inflight))
      fun _ => rfl).symm
  queued_sum := by
    have := Dict.sum_modify hst (fun x => { x with queue := q }) (fun x => (x.queue.length : Int))
    simp only [AdmissionController.setQueue, hst, Option.elim_some, h.queued_sum, this]
  tenant_key hg := by
    obtain ⟨s, hs, htn, -⟩ := setQueue_same hst hg
    exact htn ▸ h.tenant_key hs
  inflight_le hg := by
    obtain ⟨s, hs, htn, hin⟩ := setQueue_same hst hg
    exact htn ▸ hin ▸ h.inflight_le hs
  queue_le hg := by
    rcases setQueue_cases hst hg with ⟨rfl, rfl⟩ | ⟨-, hg⟩
    · exact hlen
    · exact h.queue_le hg
  globalInflight_le := h.globalInflight_le
  globalQueued_le := by
    simpa only [AdmissionController.setQueue, hst, Option.elim_some] using hglobal
  active_nodup := hring
  active_ids := hids
  active_known {x} hx := by
    rw [setQueue_activeTenants] at hx
    by_cases hxt : x = t
    · exact ⟨_, by rw [get?_setQueue, if_pos hxt.symm, hxt, hst, Option.map_some]⟩
    · obtain ⟨sx, hsx⟩ := h.active_known ((hother x hxt).mp hx)
      exact ⟨sx, by rw [get?_setQueue, if_neg (Ne.symm hxt), hsx]⟩
  active_of_queue {x sx} _ hg hq := by
    rcases setQueue_cases hst hg with ⟨rfl, rfl⟩ | ⟨hne, hg⟩
    · exact ht hq
    · exact (hother x (Ne.symm hne)).mpr (h.active_of_queue hopen hg hq)
  closed_active hc := absurd (hopen.symm.trans hc) (by decide)
  closed_queue hc := absurd (hopen.symm.trans hc) (by decide)
  queue_nodup hg := by
    rcases setQueue_cases hst hg with ⟨rfl, rfl⟩ | ⟨-, hg⟩
    · exact hnodup
    · exact h.queue_nodup hg
  queue_disjoint hg hg' hw hw' := by
    rcases setQueue_cases hst hg with ⟨rfl, rfl⟩ | ⟨hne, hg⟩
    · rcases setQueue_cases hst hg' with ⟨rfl, rfl⟩ | ⟨hne', hg'⟩
      · rfl
      · exact absurd hw' (hdisj hne' hg' hw)
    · rcases setQueue_cases hst hg' with ⟨rfl, rfl⟩ | ⟨-, hg'⟩
      · exact absurd hw (hdisj hne hg hw')
      · exact h.queue_disjoint hg hg' hw hw'
  queue_unset hg hw := by
    rcases setQueue_cases hst hg with ⟨rfl, rfl⟩ | ⟨-, hg⟩
    · exact hunset _ hw
    · exact h.queue_unset hg hw
  held_eq hg := by
    obtain ⟨s, hs, -, hin⟩ := setQueue_same hst hg
    exact hin ▸ h.held_eq hs
  heldTotal_eq := h.heldTotal_eq
  lease_known {l} hl := by
    obtain ⟨sl, hsl⟩ := h.lease_known hl
    rw [get?_setQueue]
    split
    · exact ⟨_, by rw [hsl, Option.map_some]⟩
    · exact ⟨_, hsl⟩

/-- Dropping waiters from one tenant's queue, and the ring to match. -/
theorem Inv.shrink (h : Inv c) (hopen : c.closed = false) (hst : c.tenants.get? t = some st)
    {q : List WaiterId} {ring : List String} {ids : Finset String} (hsub : q.Sublist st.queue)
    (hring : ring.Nodup) (hids : ∀ x, x ∈ ring ↔ x ∈ ids)
    (hother : ∀ x, x ≠ t → (x ∈ ring ↔ x ∈ c.activeTenants))
    (ht : q ≠ [] → t ∈ ring) :
    Inv (c.setQueue t q ring ids obs) := by
  have hlen := hsub.length_le
  have hle := h.queue_le hst
  have hg := h.globalQueued_le
  refine h.setQueue hopen hst (by omega) (by omega) (hsub.nodup (h.queue_nodup hst))
    (fun w hw => h.queue_unset hst (hsub.subset hw)) ?_ hring hids hother ht
  intro t' st' w hne hst' hw hw'
  exact hne (h.queue_disjoint hst hst' (hsub.subset hw) hw')

/-! ## Granting and releasing -/

private theorem addLease_cases {b : Bool} (hst : c.tenants.get? t = some st)
    (h : (c.addLease t b obs).tenants.get? t' = some st') :
    (t = t' ∧ st' = { st with inflight := st.inflight + 1 }) ∨
      (t ≠ t' ∧ c.tenants.get? t' = some st') := by
  rw [get?_addLease] at h
  by_cases ht : t = t'
  · subst ht
    rw [if_pos rfl, hst, Option.map_some, Option.some.injEq] at h
    exact .inl ⟨rfl, h.symm⟩
  · rw [if_neg ht] at h
    exact .inr ⟨ht, h⟩

/-- Reading another field through `addLease`: the queue and the limits stay. -/
private theorem addLease_queue {b : Bool} (hst : c.tenants.get? t = some st)
    (h : (c.addLease t b obs).tenants.get? t' = some st') :
    ∃ s, c.tenants.get? t' = some s ∧ s.queue = st'.queue ∧ s.tenant = st'.tenant := by
  rcases addLease_cases hst h with ⟨rfl, rfl⟩ | ⟨-, hg⟩
  · exact ⟨st, hst, rfl, rfl⟩
  · exact ⟨st', hg, rfl, rfl⟩

theorem held_addLease (b : Bool) :
    (c.addLease t b obs).held t' = c.held t' + if t = t' then 1 else 0 := by
  simp only [held, addLease_leases, List.countP_append, List.countP_singleton]
  by_cases ht : t = t' <;> simp [ht]

theorem heldTotal_addLease (b : Bool) : (c.addLease t b obs).heldTotal = c.heldTotal + 1 := by
  simp [heldTotal, List.countP_append]

/-- A grant within both limits. -/
theorem Inv.addLease (h : Inv c) (hst : c.tenants.get? t = some st)
    (hmax : st.inflight < st.tenant.maxInflight)
    (hcap : c.globalInflight < c.limits.globalMaxInflight) (b : Bool) :
    Inv (c.addLease t b obs) where
  inflight_sum := by
    have := Dict.sum_modify hst (fun x => { x with inflight := x.inflight + 1 }) (·.inflight)
    simp only [AdmissionController.addLease, this, h.inflight_sum]
    omega
  queued_sum := by
    rw [addLease_globalQueued, h.queued_sum]
    exact (Dict.sum_modify_eq c.tenants t (f := fun x => { x with inflight := x.inflight + 1 })
      (g := (·.queue.length)) fun _ => rfl).symm
  tenant_key hg := by
    obtain ⟨s, hs, -, htn⟩ := addLease_queue hst hg
    exact htn ▸ h.tenant_key hs
  inflight_le hg := by
    rcases addLease_cases hst hg with ⟨rfl, rfl⟩ | ⟨-, hg⟩
    · exact hmax
    · exact h.inflight_le hg
  queue_le hg := by
    obtain ⟨s, hs, hq, htn⟩ := addLease_queue hst hg
    exact hq ▸ htn ▸ h.queue_le hs
  globalInflight_le := hcap
  globalQueued_le := h.globalQueued_le
  active_nodup := h.active_nodup
  active_ids := h.active_ids
  active_known {x} hx := by
    obtain ⟨sx, hsx⟩ := h.active_known hx
    rw [get?_addLease, hsx]
    split <;> exact ⟨_, rfl⟩
  active_of_queue hopen hg hq := by
    obtain ⟨s, hs, hqs, -⟩ := addLease_queue hst hg
    exact h.active_of_queue hopen hs (hqs ▸ hq)
  closed_active := h.closed_active
  closed_queue hc hg := by
    obtain ⟨s, hs, hqs, -⟩ := addLease_queue hst hg
    exact hqs ▸ h.closed_queue hc hs
  queue_nodup hg := by
    obtain ⟨s, hs, hqs, -⟩ := addLease_queue hst hg
    exact hqs ▸ h.queue_nodup hs
  queue_disjoint hg hg' hw hw' := by
    obtain ⟨s, hs, hqs, -⟩ := addLease_queue hst hg
    obtain ⟨s', hs', hqs', -⟩ := addLease_queue hst hg'
    exact h.queue_disjoint hs hs' (hqs ▸ hw) (hqs' ▸ hw')
  queue_unset hg hw := by
    obtain ⟨s, hs, hqs, -⟩ := addLease_queue hst hg
    exact h.queue_unset hs (hqs ▸ hw)
  held_eq hg := by
    rw [held_addLease]
    rcases addLease_cases hst hg with ⟨rfl, rfl⟩ | ⟨hne, hg⟩
    · have := h.held_eq hst
      rw [if_pos rfl]
      push_cast
      omega
    · rw [if_neg hne, Nat.add_zero]
      exact h.held_eq hg
  heldTotal_eq := by
    have := h.heldTotal_eq
    rw [heldTotal_addLease, addLease_globalInflight]
    push_cast
    omega
  lease_known {l} hl := by
    have hknown : ∃ s, c.tenants.get? l.tenantId = some s := by
      rw [addLease_leases, List.mem_append, List.mem_singleton] at hl
      rcases hl with hl | rfl
      · exact h.lease_known hl
      · exact ⟨st, hst⟩
    obtain ⟨s, hs⟩ := hknown
    rw [get?_addLease, hs]
    split <;> exact ⟨_, rfl⟩

private theorem dropLease_cases {lease : LeaseId} {l : AdmissionLease}
    (hst : c.tenants.get? l.tenantId = some st)
    (h : (c.dropLease lease l obs).tenants.get? t' = some st') :
    (l.tenantId = t' ∧ st' = { st with inflight := st.inflight - 1 }) ∨
      (l.tenantId ≠ t' ∧ c.tenants.get? t' = some st') := by
  rw [get?_dropLease] at h
  by_cases ht : l.tenantId = t'
  · subst ht
    rw [if_pos rfl, hst, Option.map_some, Option.some.injEq] at h
    exact .inl ⟨rfl, h.symm⟩
  · rw [if_neg ht] at h
    exact .inr ⟨ht, h⟩

private theorem dropLease_queue {lease : LeaseId} {l : AdmissionLease}
    (hst : c.tenants.get? l.tenantId = some st)
    (h : (c.dropLease lease l obs).tenants.get? t' = some st') :
    ∃ s, c.tenants.get? t' = some s ∧ s.queue = st'.queue ∧ s.tenant = st'.tenant := by
  rcases dropLease_cases hst h with ⟨rfl, rfl⟩ | ⟨-, hg⟩
  · exact ⟨st, hst, rfl, rfl⟩
  · exact ⟨st', hg, rfl, rfl⟩

/-- Releasing a lease takes it off its tenant's count, and off no other's. -/
theorem held_dropLease {lease : LeaseId} {l : AdmissionLease} (hl : c.leases[lease]? = some l)
    (hr : l.released = false) (t : String) :
    ((c.dropLease lease l obs).held t : Int) = c.held t - if l.tenantId = t then 1 else 0 := by
  obtain ⟨hlt, rfl⟩ := List.getElem?_eq_some_iff.mp hl
  have hcount := List.countP_set hlt (p := fun x : AdmissionLease => x.tenantId = t && !x.released)
    (a := { c.leases[lease] with released := true })
  simp only [held, dropLease_leases, hcount, hr]
  by_cases ht : c.leases[lease].tenantId = t
  · have hpos : 0 < c.leases.countP fun x => x.tenantId = t && !x.released :=
      List.countP_pos_iff.mpr ⟨_, List.getElem_mem hlt, by simp [ht, hr]⟩
    simp [ht]
    omega
  · simp [ht]

theorem heldTotal_dropLease {lease : LeaseId} {l : AdmissionLease}
    (hl : c.leases[lease]? = some l) (hr : l.released = false) :
    ((c.dropLease lease l obs).heldTotal : Int) = c.heldTotal - 1 := by
  obtain ⟨hlt, rfl⟩ := List.getElem?_eq_some_iff.mp hl
  have hcount := List.countP_set hlt (p := fun x : AdmissionLease => !x.released)
    (a := { c.leases[lease] with released := true })
  have hpos : 0 < c.leases.countP fun x => !x.released :=
    List.countP_pos_iff.mpr ⟨_, List.getElem_mem hlt, by simp [hr]⟩
  simp only [heldTotal, dropLease_leases, hcount, hr]
  simp
  omega

/-- Releasing a lease that holds its slot. -/
theorem Inv.dropLease (h : Inv c) {lease : LeaseId} {l : AdmissionLease}
    (hl : c.leases[lease]? = some l) (hr : l.released = false)
    (hst : c.tenants.get? l.tenantId = some st) : Inv (c.dropLease lease l obs) where
  inflight_sum := by
    have := Dict.sum_modify hst (fun x => { x with inflight := x.inflight - 1 }) (·.inflight)
    simp only [AdmissionController.dropLease, this, h.inflight_sum]
    omega
  queued_sum := by
    rw [dropLease_globalQueued, h.queued_sum]
    exact (Dict.sum_modify_eq c.tenants l.tenantId
      (f := fun x => { x with inflight := x.inflight - 1 }) (g := (·.queue.length))
      fun _ => rfl).symm
  tenant_key hg := by
    obtain ⟨s, hs, -, htn⟩ := dropLease_queue hst hg
    exact htn ▸ h.tenant_key hs
  inflight_le hg := by
    rcases dropLease_cases hst hg with ⟨rfl, rfl⟩ | ⟨-, hg⟩
    · have := h.inflight_le hst
      simp only
      omega
    · exact h.inflight_le hg
  queue_le hg := by
    obtain ⟨s, hs, hq, htn⟩ := dropLease_queue hst hg
    exact hq ▸ htn ▸ h.queue_le hs
  globalInflight_le := by
    have := h.globalInflight_le
    simp only [dropLease_globalInflight, dropLease_limits]
    omega
  globalQueued_le := h.globalQueued_le
  active_nodup := h.active_nodup
  active_ids := h.active_ids
  active_known {x} hx := by
    obtain ⟨sx, hsx⟩ := h.active_known hx
    rw [get?_dropLease, hsx]
    split <;> exact ⟨_, rfl⟩
  active_of_queue hopen hg hq := by
    obtain ⟨s, hs, hqs, -⟩ := dropLease_queue hst hg
    exact h.active_of_queue hopen hs (hqs ▸ hq)
  closed_active := h.closed_active
  closed_queue hc hg := by
    obtain ⟨s, hs, hqs, -⟩ := dropLease_queue hst hg
    exact hqs ▸ h.closed_queue hc hs
  queue_nodup hg := by
    obtain ⟨s, hs, hqs, -⟩ := dropLease_queue hst hg
    exact hqs ▸ h.queue_nodup hs
  queue_disjoint hg hg' hw hw' := by
    obtain ⟨s, hs, hqs, -⟩ := dropLease_queue hst hg
    obtain ⟨s', hs', hqs', -⟩ := dropLease_queue hst hg'
    exact h.queue_disjoint hs hs' (hqs ▸ hw) (hqs' ▸ hw')
  queue_unset hg hw := by
    obtain ⟨s, hs, hqs, -⟩ := dropLease_queue hst hg
    exact h.queue_unset hs (hqs ▸ hw)
  held_eq hg := by
    rw [held_dropLease hl hr]
    rcases dropLease_cases hst hg with ⟨rfl, rfl⟩ | ⟨hne, hg⟩
    · have := h.held_eq hst
      rw [if_pos rfl]
      simp only
      omega
    · rw [if_neg hne, sub_zero]
      exact h.held_eq hg
  heldTotal_eq := by
    rw [heldTotal_dropLease hl hr, dropLease_globalInflight, h.heldTotal_eq]
  lease_known {x} hx := by
    have hknown : ∃ s, c.tenants.get? x.tenantId = some s := by
      rw [dropLease_leases] at hx
      rcases List.mem_or_eq_of_mem_set hx with hx | rfl
      · exact h.lease_known hx
      · exact ⟨st, hst⟩
    obtain ⟨s, hs⟩ := hknown
    rw [get?_dropLease, hs]
    split <;> exact ⟨_, rfl⟩

/-- A lease that holds its slot has a tenant whose counts are positive. -/
theorem Inv.held_pos (h : Inv c) {lease : LeaseId} {l : AdmissionLease}
    (hl : c.leases[lease]? = some l) (hr : l.released = false) :
    ∃ st, c.tenants.get? l.tenantId = some st ∧ 0 < st.inflight ∧ 0 < c.globalInflight := by
  have hmem : l ∈ c.leases := List.mem_of_getElem? hl
  obtain ⟨st, hst⟩ := h.lease_known hmem
  have hheld : 0 < c.held l.tenantId := List.countP_pos_iff.mpr ⟨l, hmem, by simp [hr]⟩
  have htotal : 0 < c.heldTotal := List.countP_pos_iff.mpr ⟨l, hmem, by simp [hr]⟩
  refine ⟨st, hst, ?_, ?_⟩
  · rw [h.held_eq hst]; omega
  · rw [h.heldTotal_eq]; omega

/-! ## Futures -/

/-- Completing the futures of waiters that are not queued. -/
theorem Inv.withFutures (h : Inv c) {futures : WaiterId → Future LeaseId AdmissionError}
    (hq : ∀ {t st w}, c.tenants.get? t = some st → w ∈ st.queue →
      futures w = .pending ∨ futures w = .cancelled) :
    Inv { c with futures := futures } :=
  { h with queue_unset := hq }

/-- Delivering a lease to a waiter that has left the queues. -/
theorem Inv.deliver (h : Inv c) {w : WaiterId} (lease : LeaseId)
    (hw : ∀ {t st}, c.tenants.get? t = some st → w ∉ st.queue) : Inv (c.deliver w lease) :=
  h.withFutures fun {_ _ w'} hg hw' => by
    rw [Function.update_of_ne (by rintro rfl; exact hw hg hw')]
    exact h.queue_unset hg hw'

/-- Publishing to the observer. -/
theorem Inv.withObserver (h : Inv c) : Inv { c with observer := obs } := { h with }

theorem Inv.notifyObserver (h : Inv c) : Inv c.notifyObserver := h.withObserver

end Gateway.AdmissionController
