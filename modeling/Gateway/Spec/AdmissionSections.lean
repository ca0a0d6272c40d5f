import Gateway.Spec.AdmissionSaturation

/-!
# The critical sections of the admission controller

Every section under `self._lock` is described once, on a controller satisfying
the invariant: it raises no error of the bookkeeping, and it is one of the listed
cases. `Released` and `Removed` are the two helpers, `Acquired` the first section
of `_acquire`. A whole section keeps the invariant.

`Evolves` is what all of them have in common: queues only lose waiters, leases
are only added or released, and a future is only ever completed with a lease
granted for its waiter.

## Key results

- `releaseLocked_cases`, `removeWaiterLocked_cases`, `acquireLocked_cases`,
  `shutdown_cases`: the sections raise nothing and are one of their cases
- `Evolves.trans`, `Dispatch.evolves`: the common frame of the sections
-/

namespace Gateway.AdmissionController

variable {c c' c'' : AdmissionController} {t t' : String} {rest : List String}
  {st st' : TenantState} {b : Bool} {w : WaiterId} {lease : LeaseId}

/-- The waiter is in some tenant's queue. -/
def Queued (c : AdmissionController) (w : WaiterId) : Prop :=
  ∃ t st, c.tenants.get? t = some st ∧ w ∈ st.queue

/-- A waiter whose future holds a lease or an error is in no queue. -/
theorem Inv.not_queued (h : Inv c) (hp : c.futures w ≠ .pending) (hc : c.futures w ≠ .cancelled) :
    ¬c.Queued w := by
  rintro ⟨t, st, hst, hw⟩
  rcases h.queue_unset hst hw with hw | hw
  · exact hp hw
  · exact hc hw

/-! ## Releasing -/

/-- What `_release_locked` does with one lease. -/
inductive Released (c : AdmissionController) (lease : LeaseId) : AdmissionController → Prop
  | again {l : AdmissionLease} (hl : c.leases[lease]? = some l) (hr : l.released = true) :
      Released c lease c
  | dropped {l : AdmissionLease} {st : TenantState} (obs : Option (List AdmissionStateChanged))
      (hl : c.leases[lease]? = some l) (hr : l.released = false)
      (hst : c.tenants.get? l.tenantId = some st) : Released c lease (c.dropLease lease l obs)

/-- `_release_locked` raises nothing. -/
theorem releaseLocked_cases (h : Inv c) (hlt : lease < c.leases.length) :
    ∃ c', c.releaseLocked lease = .ok c' ∧ Released c lease c' := by
  have hl : c.leases[lease]? = some c.leases[lease] := List.getElem?_eq_getElem hlt
  cases hr : c.leases[lease].released with
  | true => exact ⟨c, releaseLocked_of_released hl hr, .again hl hr⟩
  | false =>
    obtain ⟨st, hst, hpos, hglobal⟩ := h.held_pos hl hr
    obtain ⟨obs, hrun⟩ := releaseLocked_spec hl hr hst hpos hglobal
    exact ⟨_, hrun, .dropped obs hl hr hst⟩

theorem Inv.released (h : Inv c) (hr : Released c lease c') : Inv c' := by
  cases hr with
  | again => exact h
  | dropped obs hl hr hst => exact h.dropLease hl hr hst

/-- After `_release_locked` the lease is released. -/
theorem Released.released (hr : Released c lease c') :
    ∃ l, c'.leases[lease]? = some l ∧ l.released = true := by
  cases hr with
  | again hl hr => exact ⟨_, hl, hr⟩
  | @dropped l st obs hl _ _ =>
    obtain ⟨hlt, -⟩ := List.getElem?_eq_some_iff.mp hl
    exact ⟨{ l with released := true }, by simp [hlt], rfl⟩

/-! ## Removing a waiter -/

/-- What `_remove_waiter_locked` does. -/
inductive Removed (c : AdmissionController) (t : String) (w : WaiterId) :
    Bool → AdmissionController → Prop
  | absent {st : TenantState} (hst : c.tenants.get? t = some st) (hw : w ∉ st.queue) :
      Removed c t w false c
  | removed {st : TenantState} (obs : Option (List AdmissionStateChanged))
      (hst : c.tenants.get? t = some st) (hw : w ∈ st.queue) :
      Removed c t w true (c.setQueue t (st.queue.erase w)
        (if st.queue.erase w = [] then c.activeTenants.erase t else c.activeTenants)
        (if st.queue.erase w = [] then c.activeTenantIds.erase t else c.activeTenantIds) obs)

/-- `_remove_waiter_locked` raises nothing. -/
theorem removeWaiterLocked_cases (h : Inv c) (hst : c.tenants.get? t = some st) (w : WaiterId) :
    ∃ b c', c.removeWaiterLocked t w = .ok (b, c') ∧ Removed c t w b c' := by
  by_cases hw : w ∈ st.queue
  · obtain ⟨obs, hrun⟩ := removeWaiterLocked_of_mem hst (h.active_ids t) hw
    exact ⟨true, _, hrun, .removed obs hst hw⟩
  · exact ⟨false, c, removeWaiterLocked_of_notMem hst hw, .absent hst hw⟩

theorem Inv.removed (h : Inv c) (hr : Removed c t w b c') : Inv c' := by
  cases hr with
  | absent => exact h
  | @removed st obs hst hw =>
    have hopen : c.closed = false := by
      cases hc : c.closed with
      | false => rfl
      | true => exact absurd (h.closed_queue hc hst) (List.ne_nil_of_mem hw)
    have hmem : t ∈ c.activeTenants := h.active_of_queue hopen hst (List.ne_nil_of_mem hw)
    by_cases hempty : st.queue.erase w = []
    · simp only [hempty, if_true]
      refine h.shrink hopen hst (List.nil_sublist _) (h.active_nodup.erase t) (fun x => ?_)
        (fun x hx => by simp [h.active_nodup.mem_erase_iff, hx]) fun hne => absurd rfl hne
      rw [h.active_nodup.mem_erase_iff, Finset.mem_erase, h.active_ids]
    · simp only [hempty, if_false]
      exact h.shrink hopen hst List.erase_sublist h.active_nodup h.active_ids
        (fun _ _ => Iff.rfl) fun _ => hmem

/-- After `_remove_waiter_locked` the waiter is not in the tenant's queue. -/
theorem Removed.notMem (h : Inv c) (hr : Removed c t w b c')
    (hst' : c'.tenants.get? t = some st') : w ∉ st'.queue := by
  cases hr with
  | absent hst hw =>
    obtain rfl := Option.some.inj (hst.symm.trans hst')
    exact hw
  | removed obs hst hw =>
    obtain rfl := Option.some.inj ((get?_setQueue_self hst).symm.trans hst')
    exact fun hmem => ((h.queue_nodup hst).mem_erase_iff.mp hmem).1 rfl

/-! ## The common frame -/

/-- Futures only hold granted leases, and no two of them the same one. -/
structure Delivered (c : AdmissionController) : Prop where
  lt : ∀ {w l}, c.futures w = .result l → l < c.leases.length
  inj : ∀ {w w' l}, c.futures w = .result l → c.futures w' = .result l → w = w'

/-- What every section does to the tenants, the leases and the futures. The leases
    it may release are those in `R`. -/
structure Evolves (R : LeaseId → Prop) (c c' : AdmissionController) : Prop where
  queue : ∀ {t : String} {st' : TenantState}, c'.tenants.get? t = some st' →
    ∃ st, c.tenants.get? t = some st ∧ st.tenant = st'.tenant ∧ ∀ w ∈ st'.queue, w ∈ st.queue
  known : ∀ {t : String} {st : TenantState}, c.tenants.get? t = some st →
    ∃ st', c'.tenants.get? t = some st'
  future : ∀ w, c'.futures w = c.futures w ∨
    c.Queued w ∧ ∃ l, c'.futures w = .result l ∧ c.leases.length ≤ l
  delivered : Delivered c → Delivered c'
  lease : ∀ {l : LeaseId} {a : AdmissionLease}, c.leases[l]? = some a →
    ∃ a', c'.leases[l]? = some a' ∧ a'.tenantId = a.tenantId ∧
      (a.released = true → a'.released = true) ∧ (a'.released = true → a.released = true ∨ R l)
  granted : ∀ {l : LeaseId} {a : AdmissionLease}, c.leases.length ≤ l → c'.leases[l]? = some a →
    (∃ w, c.Queued w ∧ c'.futures w = .result l) ∧ (a.released = true → R l)

variable {R : LeaseId → Prop}

theorem Evolves.of_leases_eq (hq : ∀ {t : String} {st' : TenantState},
      c'.tenants.get? t = some st' →
      ∃ st, c.tenants.get? t = some st ∧ st.tenant = st'.tenant ∧ ∀ w ∈ st'.queue, w ∈ st.queue)
    (hk : ∀ {t : String} {st : TenantState}, c.tenants.get? t = some st →
      ∃ st', c'.tenants.get? t = some st')
    (hf : c'.futures = c.futures) (hl : c'.leases = c.leases) : Evolves R c c' where
  queue := hq
  known := hk
  future w := .inl (by rw [hf])
  delivered hd := ⟨fun h => hl ▸ hd.lt (hf ▸ h), fun h h' => hd.inj (hf ▸ h) (hf ▸ h')⟩
  lease h := ⟨_, hl ▸ h, rfl, id, .inl⟩
  granted h h' := by
    rw [hl] at h'
    exact absurd h (not_le.mpr (List.getElem?_eq_some_iff.mp h').1)

theorem Evolves.refl (c : AdmissionController) : Evolves R c c :=
  .of_leases_eq (fun h => ⟨_, h, rfl, fun _ hw => hw⟩) (fun h => ⟨_, h⟩) rfl rfl

/-- No section queues a waiter that was not queued. -/
theorem Evolves.queued (he : Evolves R c c') (hw : c'.Queued w) : c.Queued w := by
  obtain ⟨t, st', hst', hw⟩ := hw
  obtain ⟨st, hst, -, hsub⟩ := he.queue hst'
  exact ⟨t, st, hst, hsub w hw⟩

theorem Evolves.length_le (he : Evolves R c c') : c.leases.length ≤ c'.leases.length := by
  by_contra hlt
  push Not at hlt
  obtain ⟨a', ha', -⟩ := he.lease (List.getElem?_eq_getElem hlt)
  obtain ⟨hlt', -⟩ := List.getElem?_eq_some_iff.mp ha'
  omega

/-- The future of a waiter in no queue stays as it is. -/
theorem Evolves.future_eq (he : Evolves R c c') (hw : ¬c.Queued w) : c'.futures w = c.futures w :=
  (he.future w).resolve_right fun h => hw h.1

theorem Evolves.trans (he : Evolves R c c') (hinv : Inv c') (he' : Evolves R c' c'') :
    Evolves R c c'' where
  queue h := by
    obtain ⟨s, hs, ht, hsub⟩ := he'.queue h
    obtain ⟨s₀, hs₀, ht₀, hsub₀⟩ := he.queue hs
    exact ⟨s₀, hs₀, ht₀.trans ht, fun w hw => hsub₀ w (hsub w hw)⟩
  known h := by
    obtain ⟨s, hs⟩ := he.known h
    exact he'.known hs
  future w := by
    rcases he'.future w with hf | ⟨hq, l, hl, hge⟩
    · rcases he.future w with hf' | ⟨hq, l, hl, hge⟩
      · exact .inl (hf.trans hf')
      · exact .inr ⟨hq, l, hf.trans hl, hge⟩
    · exact .inr ⟨he.queued hq, l, hl, he.length_le.trans hge⟩
  delivered hd := he'.delivered (he.delivered hd)
  lease h := by
    obtain ⟨a, ha, ht, hr, hR⟩ := he.lease h
    obtain ⟨a', ha', ht', hr', hR'⟩ := he'.lease ha
    exact ⟨a', ha', ht'.trans ht, fun h => hr' (hr h), fun h => (hR' h).elim hR .inr⟩
  granted {l a} h ha := by
    by_cases hlt : l < c'.leases.length
    · obtain ⟨⟨w, hq, hw⟩, hR⟩ := he.granted h (List.getElem?_eq_getElem hlt)
      obtain ⟨a', ha', -, -, hR'⟩ := he'.lease (List.getElem?_eq_getElem hlt)
      obtain rfl := Option.some.inj (ha'.symm.trans ha)
      -- a completed waiter is in no queue, so the second section leaves it alone
      have hnq : ¬c'.Queued w := hinv.not_queued (by simp [hw]) (by simp [hw])
      exact ⟨⟨w, hq, (he'.future_eq hnq).trans hw⟩, fun h => (hR' h).elim hR id⟩
    · obtain ⟨⟨w, hq, hw⟩, hR⟩ := he'.granted (not_lt.mp hlt) ha
      exact ⟨⟨w, he.queued hq, hw⟩, hR⟩

theorem Evolves.setQueue (hst : c.tenants.get? t = some st) {q : List WaiterId}
    {ring : List String} {ids : Finset String} {obs : Option (List AdmissionStateChanged)}
    (hsub : ∀ w ∈ q, w ∈ st.queue) : Evolves R c (c.setQueue t q ring ids obs) := by
  refine .of_leases_eq (fun {x sx} hx => ?_) (fun {x sx} hx => ?_) rfl rfl
  · rw [get?_setQueue] at hx
    by_cases ht : t = x
    · subst ht
      rw [if_pos rfl, hst, Option.map_some, Option.some.injEq] at hx
      exact ⟨st, hst, hx ▸ rfl, hx ▸ hsub⟩
    · rw [if_neg ht] at hx
      exact ⟨sx, hx, rfl, fun _ hw => hw⟩
  · rw [get?_setQueue, hx]
    split <;> exact ⟨_, rfl⟩

theorem Removed.evolves (hr : Removed c t w b c') : Evolves R c c' := by
  cases hr with
  | absent => exact .refl c
  | removed obs hst hw => exact .setQueue hst fun _ hx => List.mem_of_mem_erase hx

theorem Released.evolves (hR : R lease) (hr : Released c lease c') : Evolves R c c' := by
  cases hr with
  | again => exact .refl c
  | @dropped l st obs hl hr hst =>
    refine ⟨fun {x sx} hx => ?_, fun {x sx} hx => ?_, fun _ => .inl rfl,
      fun hd => ⟨fun h => by simpa using hd.lt h, hd.inj⟩, fun {i a} ha => ?_,
      fun {i a} h ha => ?_⟩
    · rw [get?_dropLease] at hx
      split at hx
      · obtain ⟨s, hs, rfl⟩ := Option.map_eq_some_iff.mp hx
        exact ⟨s, hs, rfl, fun _ hw => hw⟩
      · exact ⟨sx, hx, rfl, fun _ hw => hw⟩
    · rw [get?_dropLease, hx]
      split <;> exact ⟨_, rfl⟩
    · rw [dropLease_leases, List.getElem?_set]
      obtain ⟨hlt, -⟩ := List.getElem?_eq_some_iff.mp hl
      by_cases hi : lease = i
      · subst hi
        obtain rfl := Option.some.inj (hl.symm.trans ha)
        exact ⟨{ l with released := true }, by simp [hlt], rfl, fun _ => rfl, fun _ => .inr hR⟩
      · exact ⟨a, by simp [hi, ha], rfl, id, .inl⟩
    · obtain ⟨hlt, -⟩ := List.getElem?_eq_some_iff.mp ha
      rw [dropLease_leases, List.length_set] at hlt
      exact absurd h (not_le.mpr hlt)

theorem Candidate.evolves (hst : c.tenants.get? t = some st) (hc : Candidate c t rest st b c') :
    Evolves R c c' := by
  cases hc with
  | emptied obs hq => exact .setQueue hst nofun
  | limited obs w queue hq hmax =>
    exact .setQueue hst fun _ hx => (List.dropWhile_sublist _).subset (hq ▸ hx)
  | granted obs w queue hq hmax =>
    have hsub : ∀ x ∈ w :: queue, x ∈ st.queue := fun x hx =>
      (List.dropWhile_sublist c.waiterDone).subset (hq ▸ hx)
    have hpop : Evolves R c (c.setQueue t queue (if queue = [] then rest else rest ++ [t])
        (if queue = [] then c.activeTenantIds.erase t
          else insert t (c.activeTenantIds.erase t)) obs) :=
      .setQueue hst fun x hx => hsub x (List.mem_cons_of_mem w hx)
    have hw : c.Queued w := ⟨t, st, hst, hsub w List.mem_cons_self⟩
    refine ⟨fun {x sx} hx => ?_, fun {x sx} hx => ?_, fun x => ?_, fun hd => ⟨?_, ?_⟩,
      fun {i a} ha => ?_, fun {l a} h ha => ?_⟩
    · rw [deliver_tenants, get?_addLease] at hx
      split at hx
      · obtain ⟨s, hs, rfl⟩ := Option.map_eq_some_iff.mp hx
        obtain ⟨s₀, hs₀, ht₀, hsub₀⟩ := hpop.queue hs
        exact ⟨s₀, hs₀, ht₀, hsub₀⟩
      · exact hpop.queue hx
    · obtain ⟨s, hs⟩ := hpop.known hx
      rw [deliver_tenants, get?_addLease, hs]
      split <;> exact ⟨_, rfl⟩
    · by_cases hx : x = w
      · subst hx
        exact .inr ⟨hw, c.leases.length, by simp, le_rfl⟩
      · exact .inl (by simp [hx])
    · intro x l hx
      rw [deliver_leases, addLease_leases, setQueue_leases, List.length_append,
        List.length_singleton]
      by_cases hxw : x = w
      · subst hxw
        obtain rfl : c.leases.length = l := by simpa using hx
        exact Nat.lt_succ_self _
      · exact Nat.lt_succ_of_lt (hd.lt (by simpa [hxw] using hx))
    · -- the new lease is in no other future
      intro x y l hx hy
      by_cases hxw : x = w <;> by_cases hyw : y = w
      · rw [hxw, hyw]
      · obtain rfl : c.leases.length = l := by simpa [hxw] using hx
        exact absurd (hd.lt (by simpa [hyw] using hy)) (lt_irrefl _)
      · obtain rfl : c.leases.length = l := by simpa [hyw] using hy
        exact absurd (hd.lt (by simpa [hxw] using hx)) (lt_irrefl _)
      · exact hd.inj (by simpa [hxw] using hx) (by simpa [hyw] using hy)
    · obtain ⟨hlt, -⟩ := List.getElem?_eq_some_iff.mp ha
      exact ⟨a, by simp [List.getElem?_append_left hlt, ha], rfl, id, .inl⟩
    · rw [deliver_leases, addLease_leases, setQueue_leases, List.getElem?_append_right h] at ha
      have hmem := List.mem_singleton.mp (List.mem_of_getElem? ha)
      have hl : l - c.leases.length = 0 := by
        have := (List.getElem?_eq_some_iff.mp ha).1
        simpa using this
      obtain rfl : l = c.leases.length := Nat.le_antisymm (Nat.sub_eq_zero_iff_le.mp hl) h
      exact ⟨⟨w, hw, by simp⟩, by simp [hmem]⟩

theorem Dispatch.evolves (h : Inv c) (hd : Dispatch c c') : Evolves R c c' := by
  induction hd with
  | refl c => exact .refl c
  | step hopen hcap hring hst hc _ ih =>
    have hinv := h.candidate hopen hring hst hcap hc
    exact (hc.evolves hst).trans hinv (ih hinv)

/-! ## Queueing a waiter -/

/-- The record `_acquire` leaves when it queues its waiter: a tenant that was not
    in the ring goes to its tail. -/
def enqueue (c : AdmissionController) (t : String) (queue : List WaiterId) (w : WaiterId)
    (obs : Option (List AdmissionStateChanged)) : AdmissionController :=
  c.setQueue t (queue ++ [w])
    (if t ∈ c.activeTenantIds then c.activeTenants else c.activeTenants ++ [t])
    (insert t c.activeTenantIds) obs

theorem Inv.enqueue (h : Inv c) (hopen : c.closed = false) (hst : c.tenants.get? t = some st)
    (hlen : st.queue.length < st.tenant.maxQueue)
    (hglobal : c.globalQueued < c.limits.globalMaxQueue) (hw : c.futures w = .pending)
    (hfresh : ¬c.Queued w) (obs : Option (List AdmissionStateChanged)) :
    Inv (c.enqueue t st.queue w obs) := by
  have hring : (if t ∈ c.activeTenantIds then c.activeTenants
      else c.activeTenants ++ [t]).Nodup := by
    split
    · exact h.active_nodup
    · next ht =>
      refine List.nodup_append.mpr ⟨h.active_nodup, List.nodup_singleton t, ?_⟩
      rintro a ha b hb rfl
      obtain rfl := List.mem_singleton.mp hb
      exact ht ((h.active_ids a).mp ha)
  have hmem : ∀ x, x ∈ (if t ∈ c.activeTenantIds then c.activeTenants
      else c.activeTenants ++ [t]) ↔ x = t ∨ x ∈ c.activeTenants := by
    intro x
    split
    · next ht => exact ⟨.inr, by rintro (rfl | hx); exacts [(h.active_ids x).mpr ht, hx]⟩
    · rw [List.mem_append, List.mem_singleton, or_comm]
  refine h.setQueue hopen hst ?_ ?_ ?_ ?_ ?_ hring (fun x => ?_) (fun x hx => ?_) fun _ => ?_
  · rw [List.length_append, List.length_singleton]; push_cast; omega
  · rw [List.length_append, List.length_singleton]; push_cast; omega
  · refine List.nodup_append.mpr ⟨h.queue_nodup hst, List.nodup_singleton w, ?_⟩
    rintro a ha b hb rfl
    exact hfresh ⟨t, st, hst, List.mem_singleton.mp hb ▸ ha⟩
  · intro x hx
    rcases List.mem_append.mp hx with hx | hx
    · exact h.queue_unset hst hx
    · exact .inl (List.mem_singleton.mp hx ▸ hw)
  · intro t' st' x hne hst' hx hx'
    rcases List.mem_append.mp hx with hx | hx
    · exact hne (h.queue_disjoint hst hst' hx hx')
    · exact hfresh ⟨t', st', hst', List.mem_singleton.mp hx ▸ hx'⟩
  · rw [hmem, Finset.mem_insert, h.active_ids]
  · rw [hmem]
    simp [hx]
  · rw [hmem]
    exact .inl rfl

/-- A tenant that cannot be admitted is queued without unsettling the controller. -/
theorem Settled.enqueue (hs : Settled c) (h : Inv c) (hopen : c.closed = false)
    (hst : c.tenants.get? t = some st) (hno : ¬(st.queue = [] ∧ c.canAdmit st = true))
    (obs : Option (List AdmissionStateChanged)) : Settled (c.enqueue t st.queue w obs) := by
  rcases hs with hfull | hlimit
  · exact .inl hfull
  by_cases hfull : c.limits.globalMaxInflight ≤ c.globalInflight
  · exact .inl hfull
  refine .inr fun x hx => AtLimit.setQueue ?_
  simp only [AdmissionController.enqueue, setQueue_activeTenants] at hx
  split at hx
  · exact hlimit x hx
  · next ht =>
    rcases List.mem_append.mp hx with hx | hx
    · exact hlimit x hx
    · -- a tenant outside the ring has an empty queue, so it is its limit that stops it
      obtain rfl := List.mem_singleton.mp hx
      intro s hs
      obtain rfl := Option.some.inj (hst.symm.trans hs)
      have hempty : st.queue = [] := by
        by_contra hne
        exact ht ((h.active_ids x).mp (h.active_of_queue hopen hst hne))
      by_contra hlt
      exact hno ⟨hempty, by simp [canAdmit]; omega⟩

theorem Settled.addLease (hs : Settled c) (b : Bool) (obs : Option (List AdmissionStateChanged)) :
    Settled (c.addLease t b obs) := by
  rcases hs with hfull | hlimit
  · refine .inl ?_
    rw [addLease_limits, addLease_globalInflight]
    omega
  · refine .inr fun x hx s hs => ?_
    rw [get?_addLease] at hs
    split at hs
    · obtain ⟨s', hs', rfl⟩ := Option.map_eq_some_iff.mp hs
      have := hlimit x hx s' hs'
      simp only
      omega
    · exact hlimit x hx s hs

/-! ## The first section of `_acquire` -/

/-- How the first section of `_acquire` ends. -/
inductive Acquired (c : AdmissionController) (w : WaiterId) (t : String) :
    Admission → AdmissionController → Prop
  /-- closed, an unknown tenant, or a full queue -/
  | rejected {c' : AdmissionController} {e : AdmissionError} (he : e ≠ .admissionTimeout) (hd : Dispatch c c')
      (hs : Settled c') : Acquired c w t (.raised e) c'
  | granted {c₁ : AdmissionController} {st : TenantState}
      (obs : Option (List AdmissionStateChanged)) (hd : Dispatch c c₁) (hs : Settled c₁)
      (hst : c₁.tenants.get? t = some st) (hq : st.queue = [])
      (hmax : st.inflight < st.tenant.maxInflight)
      (hcap : c₁.globalInflight < c₁.limits.globalMaxInflight) :
      Acquired c w t (.granted c₁.leases.length) (c₁.addLease t false obs)
  | queued {c₁ c₂ : AdmissionController} {st : TenantState}
      (obs : Option (List AdmissionStateChanged)) (hopen : c₁.closed = false) (hd : Dispatch c c₁)
      (hs : Settled c₁) (hst : c₁.tenants.get? t = some st)
      (hlen : st.queue.length < st.tenant.maxQueue)
      (hglobal : c₁.globalQueued < c₁.limits.globalMaxQueue)
      (hs' : Settled (c₁.enqueue t st.queue w obs))
      (hd' : Dispatch (c₁.enqueue t st.queue w obs) c₂) : Acquired c w t .queued c₂

private theorem enqueue_run (hst : c.tenants.get? t = some st) (w : WaiterId) :
    ∃ obs, notifyObserver (activateTenantLocked
      { c with
        tenants := c.tenants.modify t ({ · with queue := st.queue ++ [w] })
        globalQueued := c.globalQueued + 1 } t) = c.enqueue t st.queue w obs := by
  refine ⟨(notifyObserver (activateTenantLocked
      { c with
        tenants := c.tenants.modify t ({ · with queue := st.queue ++ [w] })
        globalQueued := c.globalQueued + 1 } t)).observer, ?_⟩
  have hq : c.globalQueued + ((st.queue ++ [w]).length - st.queue.length : Int) =
      c.globalQueued + 1 := by
    rw [List.length_append, List.length_singleton]
    push_cast
    omega
  by_cases ht : t ∈ c.activeTenantIds
  · simp only [activateTenantLocked, ht, not_true_eq_false, if_false, notifyObserver, enqueue,
      setQueue, hst, Option.elim_some, hq, if_true, Finset.insert_eq_of_mem]
  · simp only [activateTenantLocked, ht, not_false_eq_true, if_true, notifyObserver, enqueue,
      setQueue, hst, Option.elim_some, hq, if_false]

/-- The first section of `_acquire` raises nothing of its own. -/
theorem acquireLocked_cases (h : Inv c) (hs : Settled c) (hw : c.futures w = .pending)
    (hfresh : ¬c.Queued w) (t : String) :
    ∃ a c', c.acquireLocked w t = .ok (a, c') ∧ Acquired c w t a c' := by
  simp only [acquireLocked]
  by_cases hclosed : c.closed
  · exact ⟨.raised .admissionUnavailable, c, by simp [hclosed], .rejected (by simp) (.refl c) hs⟩
  have hopen : c.closed = false := by simpa using hclosed
  by_cases hnone : (c.tenants.get? t).isNone
  · exact ⟨.raised .admissionUnavailable, c, by simp [hclosed, hnone],
      .rejected (by simp) (.refl c) hs⟩
  obtain ⟨c₁, hrun, hd, hs₁⟩ := dispatchLocked_spec h
  have hinv₁ := h.dispatch hd
  have hopen₁ : c₁.closed = false := hd.closed_eq.trans hopen
  obtain ⟨st₀, hst₀⟩ : ∃ s, c.tenants.get? t = some s :=
    Option.ne_none_iff_exists'.mp (by simpa using hnone)
  have hev : Evolves (fun _ => False) c c₁ := hd.evolves h
  obtain ⟨st, hst⟩ := hev.known hst₀
  have hw₁ : c₁.futures w = .pending := (hev.future_eq hfresh).trans hw
  have hfresh₁ : ¬c₁.Queued w := fun hq => hfresh (hev.queued hq)
  simp only [hclosed, hnone, hrun, hst, bind, Except.bind, Bool.false_eq_true, if_false]
  by_cases hfree : st.queue = [] ∧ c₁.canAdmit st = true
  · obtain ⟨obs, hgrant⟩ := grantLocked_spec hst hfree.2 false
    have hcan := hfree.2
    simp only [canAdmit, decide_eq_true_eq] at hcan
    exact ⟨_, _, by simp only [hfree, and_self, if_true, hgrant]; rfl,
      .granted obs hd hs₁ hst hfree.1 hcan.1 hcan.2⟩
  by_cases hlen : (st.queue.length : Int) ≥ st.tenant.maxQueue
  · exact ⟨.raised .tenantQueueFull, c₁, by simp only [hfree, hlen, if_false, if_true]; rfl,
      .rejected (by simp) hd hs₁⟩
  by_cases hglobal : c₁.globalQueued ≥ c₁.limits.globalMaxQueue
  · exact ⟨.raised .gatewayQueueFull, c₁, by
      simp only [hfree, hlen, hglobal, if_false, if_true]; rfl, .rejected (by simp) hd hs₁⟩
  obtain ⟨obs, henq⟩ := enqueue_run hst w
  have hinv₂ := hinv₁.enqueue hopen₁ hst (by omega) (by omega) hw₁ hfresh₁ obs
  obtain ⟨c₂, hrun₂, hd₂, -⟩ := dispatchLocked_spec hinv₂
  exact ⟨_, _, by simp only [hfree, hlen, hglobal, if_false, henq, hrun₂]; rfl,
    .queued obs hopen₁ hd hs₁ hst (by omega) (by omega) (hs₁.enqueue hinv₁ hopen₁ hst hfree obs)
      hd₂⟩

/-! ## The sections that end in a dispatch -/

/-- `_release` raises nothing. -/
theorem release_cases (h : Inv c) (hlt : lease < c.leases.length) :
    ∃ c₁ c₂, c.release lease = .ok c₂ ∧ Released c lease c₁ ∧ Dispatch c₁ c₂ ∧ Settled c₂ := by
  obtain ⟨c₁, hrun, hr⟩ := releaseLocked_cases h hlt
  obtain ⟨c₂, hrun₂, hd, hs⟩ := dispatchLocked_spec (h.released hr)
  exact ⟨c₁, c₂, by simp [release, hrun, hrun₂, bind, Except.bind], hr, hd, hs⟩

/-- The `except TimeoutError` branch raises nothing else. -/
theorem acquireTimedOut_cases (h : Inv c) (hst : c.tenants.get? t = some st) (w : WaiterId) :
    ∃ b c₁ c₂, c.acquireTimedOut t w = .ok c₂ ∧ Removed c t w b c₁ ∧ Dispatch c₁ c₂ ∧
      Settled c₂ := by
  obtain ⟨b, c₁, hrun, hr⟩ := removeWaiterLocked_cases h hst w
  obtain ⟨c₂, hrun₂, hd, hs⟩ := dispatchLocked_spec (h.removed hr)
  exact ⟨b, c₁, c₂, by simp [acquireTimedOut, hrun, hrun₂, bind, Except.bind], hr, hd, hs⟩

/-- What the `except asyncio.CancelledError` branch does with the waiter's future. -/
inductive GivenBack (c : AdmissionController) (w : WaiterId) : AdmissionController → Prop
  | nothing (hf : ∀ l, c.futures w ≠ .result l) : GivenBack c w c
  | lease {lease : LeaseId} {c' : AdmissionController} (hf : c.futures w = .result lease)
      (hr : Released c lease c') : GivenBack c w c'

theorem Inv.givenBack (h : Inv c) (hg : GivenBack c w c') : Inv c' := by
  cases hg with
  | nothing => exact h
  | lease _ hr => exact h.released hr

theorem GivenBack.evolves (hR : ∀ l, c.futures w = .result l → R l) (hg : GivenBack c w c') :
    Evolves R c c' := by
  cases hg with
  | nothing => exact .refl c
  | lease hf hr => exact hr.evolves (hR _ hf)

theorem Removed.futures_eq (hr : Removed c t w b c') : c'.futures = c.futures := by
  cases hr <;> rfl

theorem Released.futures_eq (hr : Released c lease c') : c'.futures = c.futures := by
  cases hr <;> rfl

/-- The `except asyncio.CancelledError` branch raises nothing else. -/
theorem acquireCancelled_cases (h : Inv c) (hst : c.tenants.get? t = some st)
    (hlt : ∀ l, c.futures w = .result l → l < c.leases.length) :
    ∃ b c₁ c₂ c₃, c.acquireCancelled t w = .ok c₃ ∧ Removed c t w b c₁ ∧ GivenBack c₁ w c₂ ∧
      Dispatch c₂ c₃ ∧ Settled c₃ := by
  obtain ⟨b, c₁, hrun, hr⟩ := removeWaiterLocked_cases h hst w
  have hinv := h.removed hr
  have hback : ∃ c₂, c.acquireCancelled t w = c₂.dispatchLocked ∧ GivenBack c₁ w c₂ := by
    cases hf : c₁.futures w with
    | result l =>
      cases hr with
      | absent =>
        obtain ⟨c₂, hrun₂, hrel⟩ := releaseLocked_cases h (hlt l hf)
        exact ⟨c₂, by simp [acquireCancelled, hrun, hf, hrun₂, bind, Except.bind], .lease hf hrel⟩
      | removed obs hst' hw =>
        -- a waiter that was still queued holds nothing
        have hunset : c.futures w = .pending ∨ c.futures w = .cancelled := h.queue_unset hst' hw
        rw [setQueue_futures] at hf
        simp [hf] at hunset
    | pending | exception _ | cancelled =>
      refine ⟨c₁, ?_, .nothing (by simp [hf])⟩
      cases b <;> simp [acquireCancelled, hrun, hf, bind, Except.bind]
  obtain ⟨c₂, hrun₂, hg⟩ := hback
  obtain ⟨c₃, hrun₃, hd, hs⟩ := dispatchLocked_spec (hinv.givenBack hg)
  exact ⟨b, c₁, c₂, c₃, hrun₂.trans hrun₃, hr, hg, hd, hs⟩

/-! ## Shutting down -/

/-- The record `shutdown` leaves. -/
def closeAll (c : AdmissionController) (obs : Option (List AdmissionStateChanged)) :
    AdmissionController :=
  { c with
    closed := true
    tenants := c.tenants.mapValues ({ · with queue := [] })
    globalQueued := 0
    futures := (c.tenants.values.flatMap (·.queue)).foldl failWaiter c.futures
    activeTenants := []
    activeTenantIds := ∅
    observer := obs }

/-- What `shutdown` does. -/
inductive ShutDown (c : AdmissionController) : AdmissionController → Prop
  | again (hclosed : c.closed = true) : ShutDown c c
  | closed (hopen : c.closed = false) (obs : Option (List AdmissionStateChanged)) :
      ShutDown c (c.closeAll obs)

/-- Failing waiters completes the pending futures among theirs and no others. -/
theorem foldl_failWaiter (ws : List WaiterId) (f : WaiterId → Future LeaseId AdmissionError)
    (w : WaiterId) : ws.foldl failWaiter f w =
      if w ∈ ws ∧ f w = .pending then .exception .admissionUnavailable else f w := by
  induction ws generalizing f with
  | nil => simp
  | cons x ws ih =>
    rw [List.foldl_cons, ih]
    unfold failWaiter
    cases hx : (f x).done with
    | true =>
      have hne : f x ≠ .pending := by intro h; simp [h] at hx
      by_cases hw : w = x
      · subst hw
        simp [hne]
      · simp [hw]
    | false =>
      have hpending := Future.done_eq_false.mp hx
      by_cases hw : w = x
      · subst hw
        simp [hpending]
      · simp [hw]

/-- `shutdown` raises nothing: the queues add up to the counter. -/
theorem shutdown_cases (h : Inv c) : ∃ c', c.shutdown = .ok c' ∧ ShutDown c c' := by
  cases hopen : c.closed with
  | true => exact ⟨c, by simp [shutdown, hopen], .again hopen⟩
  | false =>
    have hzero : c.globalQueued - ((c.tenants.values.flatMap (·.queue)).length : Int) = 0 := by
      have hcast : ((c.tenants.values.flatMap (·.queue)).length : Int) =
          c.tenants.sum (·.queue.length) := by
        rw [Dict.sum_natCast, List.length_flatMap]
      rw [hcast, h.queued_sum, sub_self]
    refine ⟨c.closeAll (notifyObserver (c.closeAll c.observer)).observer, ?_, .closed hopen _⟩
    simp only [shutdown, hopen, Bool.false_eq_true, if_false, hzero, ne_eq, not_true_eq_false]
    rfl

theorem get?_closeAll {obs : Option (List AdmissionStateChanged)} :
    (c.closeAll obs).tenants.get? t = (c.tenants.get? t).map ({ · with queue := [] }) :=
  Dict.get?_mapValues ..

/-- A waiter that was live when the controller shut down is failed. -/
theorem closeAll_futures (w : WaiterId) (obs : Option (List AdmissionStateChanged)) :
    (c.closeAll obs).futures w = c.futures w ∧ ¬(c.Queued w ∧ c.futures w = .pending) ∨
      (c.closeAll obs).futures w = .exception .admissionUnavailable ∧ c.Queued w ∧
        c.futures w = .pending := by
  have hmem : w ∈ c.tenants.values.flatMap (·.queue) ↔ c.Queued w := by
    simp only [List.mem_flatMap, Dict.mem_values, Queued]
    constructor
    · rintro ⟨st, ⟨t, ht⟩, hw⟩
      exact ⟨t, st, ht, hw⟩
    · rintro ⟨t, st, ht, hw⟩
      exact ⟨st, ⟨t, ht⟩, hw⟩
  simp only [closeAll, foldl_failWaiter]
  split
  · next hw => exact .inr ⟨rfl, hmem.mp hw.1, hw.2⟩
  · next hw => exact .inl ⟨rfl, fun h => hw ⟨hmem.mpr h.1, h.2⟩⟩

/-- Shutting down delivers no lease. -/
theorem closeAll_result {l : LeaseId} {obs : Option (List AdmissionStateChanged)} :
    (c.closeAll obs).futures w = .result l ↔ c.futures w = .result l := by
  rcases closeAll_futures (c := c) w obs with ⟨hf, -⟩ | ⟨hf, -, hp⟩
  · rw [hf]
  · simp [hf, hp]

private theorem closeAll_tenant {obs : Option (List AdmissionStateChanged)}
    (h : (c.closeAll obs).tenants.get? t = some st') :
    ∃ st, c.tenants.get? t = some st ∧ st' = { st with queue := [] } := by
  rw [get?_closeAll] at h
  obtain ⟨st, hst, rfl⟩ := Option.map_eq_some_iff.mp h
  exact ⟨st, hst, rfl⟩

theorem Inv.closeAll (h : Inv c) (obs : Option (List AdmissionStateChanged)) :
    Inv (c.closeAll obs) where
  inflight_sum := by
    simp only [AdmissionController.closeAll, Dict.sum_mapValues]
    exact h.inflight_sum
  queued_sum := by
    simp only [AdmissionController.closeAll, Dict.sum_mapValues]
    simp [Dict.sum]
  tenant_key hg := by
    obtain ⟨s, hs, rfl⟩ := closeAll_tenant hg
    exact (h.tenant_key hs :)
  inflight_le hg := by
    obtain ⟨s, hs, rfl⟩ := closeAll_tenant hg
    exact (h.inflight_le hs :)
  queue_le hg := by
    obtain ⟨s, hs, rfl⟩ := closeAll_tenant hg
    exact s.tenant.maxQueue_nonneg
  globalInflight_le := h.globalInflight_le
  globalQueued_le := c.limits.globalMaxQueue_nonneg
  active_nodup := List.nodup_nil
  active_ids t := by simp [AdmissionController.closeAll]
  active_known ht := absurd ht List.not_mem_nil
  active_of_queue hopen := absurd hopen (by simp [AdmissionController.closeAll])
  closed_active _ := rfl
  closed_queue _ hg := by
    obtain ⟨s, hs, rfl⟩ := closeAll_tenant hg
    rfl
  queue_nodup hg := by
    obtain ⟨s, hs, rfl⟩ := closeAll_tenant hg
    exact List.nodup_nil
  queue_disjoint hg _ hw := by
    obtain ⟨s, hs, rfl⟩ := closeAll_tenant hg
    exact absurd hw List.not_mem_nil
  queue_unset hg hw := by
    obtain ⟨s, hs, rfl⟩ := closeAll_tenant hg
    exact absurd hw List.not_mem_nil
  held_eq hg := by
    obtain ⟨s, hs, rfl⟩ := closeAll_tenant hg
    exact (h.held_eq hs :)
  heldTotal_eq := h.heldTotal_eq
  lease_known hl := by
    obtain ⟨s, hs⟩ := h.lease_known hl
    exact ⟨_, by rw [get?_closeAll, hs, Option.map_some]⟩

end Gateway.AdmissionController
