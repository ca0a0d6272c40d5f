import Gateway.Spec.AdmissionSystem
import Mathlib.Data.List.TakeWhile

/-!
# First come, first served within a tenant

A waiter joins its tenant's queue at the tail, in the section that starts its
call, so the call numbers in a queue increase (`Ordered`). Waiters leave from the
middle when they time out or are cancelled, and dead ones are dropped when they
reach the head, but a live waiter leaves only by being granted, and a grant takes
the first live waiter of a queue.

`ServesFirst` is the frame of the sections: what they may do to the live waiters
and to whom they may grant.

## Key results

- `Candidate.servesFirst`, `ServesFirst.trans`, `Dispatch.servesFirst`: the
  iterations of a dispatch
- `Ordered.transition`, `Transition.servesFirst`: the steps of the system
- `fifo_without_barging`: in every step of every run
-/

namespace Gateway

namespace AdmissionController

variable {c c' c'' : AdmissionController} {t : String} {rest : List String}
  {st st' : TenantState} {b : Bool} {w w' : WaiterId} {l lease : LeaseId}

/-- The waiter is queued for the tenant and its future is pending. -/
def Live (c : AdmissionController) (t : String) (w : WaiterId) : Prop :=
  ∃ st, c.tenants.get? t = some st ∧ w ∈ st.queue ∧ c.waiterDone w = false

/-- The queues hold their waiters in the order of the calls that queued them. -/
def Ordered (c : AdmissionController) : Prop :=
  ∀ t st, c.tenants.get? t = some st → st.queue.Pairwise (· < ·)

/-- Between `c` and `c'` the waiter was granted the lease. -/
def GrantedTo (c c' : AdmissionController) (w : WaiterId) (l : LeaseId) : Prop :=
  c.leases.length ≤ l ∧ c'.futures w = .result l

/-! ## Queues that only lose waiters -/

/-- Every queue of `c'` is a queue of `c` less some waiters. -/
def Thinner (c c' : AdmissionController) : Prop :=
  ∀ t st', c'.tenants.get? t = some st' →
    ∃ st, c.tenants.get? t = some st ∧ st'.queue.Sublist st.queue

theorem Thinner.refl (c : AdmissionController) : Thinner c c :=
  fun _ _ h => ⟨_, h, List.Sublist.refl _⟩

theorem Thinner.trans (h : Thinner c c') (h' : Thinner c' c'') : Thinner c c'' := by
  intro t st'' hst''
  obtain ⟨st', hst', hsub'⟩ := h' t st'' hst''
  obtain ⟨st, hst, hsub⟩ := h t st' hst'
  exact ⟨st, hst, hsub'.trans hsub⟩

theorem Ordered.thinner (h : Ordered c) (hthin : Thinner c c') : Ordered c' := by
  intro t st' hst'
  obtain ⟨st, hst, hsub⟩ := hthin t st' hst'
  exact (h t st hst).sublist hsub

theorem Thinner.setQueue (hst : c.tenants.get? t = some st) {q : List WaiterId}
    {ring : List String} {ids : Finset String} {obs : Option (List AdmissionStateChanged)}
    (hsub : q.Sublist st.queue) : Thinner c (c.setQueue t q ring ids obs) := by
  intro x sx hx
  rw [get?_setQueue] at hx
  by_cases ht : t = x
  · subst ht
    rw [if_pos rfl, hst, Option.map_some, Option.some.injEq] at hx
    exact ⟨st, hst, hx ▸ hsub⟩
  · rw [if_neg ht] at hx
    exact ⟨sx, hx, List.Sublist.refl _⟩

/-- A grant leaves the queues. -/
theorem Thinner.addLease (q : Bool) (obs : Option (List AdmissionStateChanged)) :
    Thinner c (c.addLease t q obs) := by
  intro x sx hx
  rw [get?_addLease] at hx
  split at hx
  · obtain ⟨s, hs, rfl⟩ := Option.map_eq_some_iff.mp hx
    exact ⟨s, hs, List.Sublist.refl _⟩
  · exact ⟨sx, hx, List.Sublist.refl _⟩

theorem Removed.thinner (hr : Removed c t w b c') : Thinner c c' := by
  cases hr with
  | absent => exact .refl c
  | removed obs hst hw => exact .setQueue hst List.erase_sublist

theorem Released.thinner (hr : Released c lease c') : Thinner c c' := by
  cases hr with
  | again => exact .refl c
  | dropped obs hl hr hst =>
    intro x sx hx
    rw [get?_dropLease] at hx
    split at hx
    · obtain ⟨s, hs, rfl⟩ := Option.map_eq_some_iff.mp hx
      exact ⟨s, hs, List.Sublist.refl _⟩
    · exact ⟨sx, hx, List.Sublist.refl _⟩

theorem GivenBack.thinner (hg : GivenBack c w c') : Thinner c c' := by
  cases hg with
  | nothing => exact .refl c
  | lease hf hr => exact hr.thinner

theorem Candidate.thinner (hst : c.tenants.get? t = some st) (hc : Candidate c t rest st b c') :
    Thinner c c' := by
  cases hc with
  | emptied obs hq => exact .setQueue hst (List.nil_sublist _)
  | limited obs w queue hq hmax => exact .setQueue hst (hq ▸ List.dropWhile_sublist _)
  | granted obs w queue hq hmax =>
    have hsub : (w :: queue).Sublist st.queue := hq ▸ List.dropWhile_sublist _
    have hpop : Thinner c (c.setQueue t queue (if queue = [] then rest else rest ++ [t])
        (if queue = [] then c.activeTenantIds.erase t
          else insert t (c.activeTenantIds.erase t)) obs) :=
      .setQueue hst ((List.sublist_cons_self w queue).trans hsub)
    exact hpop.trans (.addLease true obs)

theorem Dispatch.thinner (hd : Dispatch c c') : Thinner c c' := by
  induction hd with
  | refl c => exact .refl c
  | step _ _ _ hst hc _ ih => exact (hc.thinner hst).trans ih

/-! ## The frame of the sections -/

/-- Live waiters leave only by being granted, nobody becomes live, and every lease
    granted in between went to a waiter that came before all others that were live
    when it was granted. -/
structure ServesFirst (c c' : AdmissionController) : Prop where
  length_le : c.leases.length ≤ c'.leases.length
  stays : ∀ {t : String} {w : WaiterId}, Live c t w → Live c' t w ∨ ∃ l, GrantedTo c c' w l ∧ l < c'.leases.length
  was : ∀ {t : String} {w : WaiterId}, Live c' t w → Live c t w
  keeps : ∀ {w : WaiterId} {l : LeaseId}, c.futures w = .result l → c'.futures w = .result l
  lease : ∀ {l : LeaseId} {a : AdmissionLease}, c.leases[l]? = some a → ∃ a', c'.leases[l]? = some a' ∧
    a'.tenantId = a.tenantId ∧ a'.wasQueued = a.wasQueued
  first : ∀ {l : LeaseId} {a : AdmissionLease}, c.leases.length ≤ l → c'.leases[l]? = some a → a.wasQueued = true ∧
    ∃ w, Live c a.tenantId w ∧ GrantedTo c c' w l ∧ ∀ w', Live c a.tenantId w' →
      (∀ l', l' < l → ¬GrantedTo c c' w' l') → w ≤ w'

theorem ServesFirst.refl (c : AdmissionController) : ServesFirst c c where
  length_le := le_rfl
  stays h := .inl h
  was h := h
  keeps h := h
  lease h := ⟨_, h, rfl, rfl⟩
  first hl ha := absurd hl (not_le.mpr (List.getElem?_eq_some_iff.mp ha).1)

theorem ServesFirst.trans (h : ServesFirst c c') (h' : ServesFirst c' c'') :
    ServesFirst c c'' where
  length_le := h.length_le.trans h'.length_le
  stays {t w} hw := by
    rcases h.stays hw with hw' | ⟨l, ⟨hl, hf⟩, hlt⟩
    · rcases h'.stays hw' with hw'' | ⟨l, ⟨hl, hf⟩, hlt⟩
      · exact .inl hw''
      · exact .inr ⟨l, ⟨h.length_le.trans hl, hf⟩, hlt⟩
    · exact .inr ⟨l, ⟨hl, h'.keeps hf⟩, hlt.trans_le h'.length_le⟩
  was hw := h.was (h'.was hw)
  keeps hf := h'.keeps (h.keeps hf)
  lease ha := by
    obtain ⟨a', ha', ht, hq⟩ := h.lease ha
    obtain ⟨a'', ha'', ht', hq'⟩ := h'.lease ha'
    exact ⟨a'', ha'', ht'.trans ht, hq'.trans hq⟩
  first {l a} hl ha := by
    by_cases hlt : l < c'.leases.length
    · -- granted in the first part
      obtain ⟨hwas, w, hw, ⟨hl', hf⟩, hmin⟩ := h.first hl (List.getElem?_eq_getElem hlt)
      obtain ⟨a', ha', ht, hq⟩ := h'.lease (List.getElem?_eq_getElem hlt)
      obtain rfl := Option.some.inj (ha'.symm.trans ha)
      rw [ht, hq]
      refine ⟨hwas, w, hw, ⟨hl', h'.keeps hf⟩, fun w' hw' hnot => hmin w' hw' ?_⟩
      intro l' hl' hgrant
      exact hnot l' hl' ⟨hgrant.1, h'.keeps hgrant.2⟩
    · -- granted in the second part: who was live before it and not granted still is
      have hge : c'.leases.length ≤ l := not_lt.mp hlt
      obtain ⟨hwas, w, hw, ⟨hl', hf⟩, hmin⟩ := h'.first hge ha
      refine ⟨hwas, w, h.was hw, ⟨h.length_le.trans hl', hf⟩, fun w' hw' hnot => ?_⟩
      rcases h.stays hw' with hlive | ⟨l', ⟨hl'', hf'⟩, hlt'⟩
      · refine hmin w' hlive fun l' hl' hgrant => hnot l' hl' ?_
        exact ⟨h.length_le.trans hgrant.1, hgrant.2⟩
      · exact absurd ⟨hl'', h'.keeps hf'⟩ (hnot l' (hlt'.trans_le hge))

/-- A section that grants nothing and takes no live waiter from its queue. -/
theorem ServesFirst.of_leases_eq (hlive : ∀ t w, Live c' t w ↔ Live c t w)
    (hf : c'.futures = c.futures) (hlen : c'.leases.length = c.leases.length)
    (hlease : ∀ {l : LeaseId} {a : AdmissionLease}, c.leases[l]? = some a → ∃ a', c'.leases[l]? = some a' ∧
      a'.tenantId = a.tenantId ∧ a'.wasQueued = a.wasQueued) : ServesFirst c c' where
  length_le := hlen.ge
  stays h := .inl ((hlive _ _).mpr h)
  was h := (hlive _ _).mp h
  keeps h := hf ▸ h
  lease := hlease
  first {l a} hl ha := by
    have hlt := (List.getElem?_eq_some_iff.mp ha).1
    omega

/-! ## Live waiters through the records -/

/-- Only the tenant whose queue is replaced has other live waiters. -/
theorem live_setQueue (hst : c.tenants.get? t = some st) {q : List WaiterId}
    {ring : List String} {ids : Finset String} {obs : Option (List AdmissionStateChanged)}
    (x : String) : Live (c.setQueue t q ring ids obs) x w ↔
      (t = x ∧ w ∈ q ∧ c.waiterDone w = false) ∨ (t ≠ x ∧ Live c x w) := by
  unfold Live
  rw [get?_setQueue]
  by_cases ht : t = x
  · subst ht
    simp [hst, waiterDone]
  · simp [ht, waiterDone]

/-- A queue that keeps its live waiters. -/
theorem live_setQueue_of_iff (hst : c.tenants.get? t = some st) {q : List WaiterId}
    {ring : List String} {ids : Finset String} {obs : Option (List AdmissionStateChanged)}
    (hq : ∀ w, c.waiterDone w = false → (w ∈ q ↔ w ∈ st.queue)) (x : String) (w : WaiterId) :
    Live (c.setQueue t q ring ids obs) x w ↔ Live c x w := by
  rw [live_setQueue hst]
  constructor
  · rintro (⟨rfl, hw, hlive⟩ | ⟨-, hlive⟩)
    · exact ⟨st, hst, (hq w hlive).mp hw, hlive⟩
    · exact hlive
  · intro hlive
    by_cases ht : t = x
    · subst ht
      obtain ⟨st', hst', hw, hdone⟩ := hlive
      obtain rfl := Option.some.inj (hst.symm.trans hst')
      exact .inl ⟨rfl, (hq w hdone).mpr hw, hdone⟩
    · exact .inr ⟨ht, hlive⟩

/-- Changing the counts of a tenant leaves the live waiters. -/
theorem live_of_queue_eq (htenants : ∀ x, (c'.tenants.get? x).map (·.queue) =
      (c.tenants.get? x).map (·.queue)) (hf : c'.futures = c.futures) (x : String) (w : WaiterId) :
    Live c' x w ↔ Live c x w := by
  have hx := htenants x
  unfold Live waiterDone
  rw [hf]
  cases h : c.tenants.get? x with
  | none =>
    have h' : c'.tenants.get? x = none := by simpa [h] using hx
    simp [h']
  | some st =>
    obtain ⟨st', hst', hq⟩ : ∃ st', c'.tenants.get? x = some st' ∧ st'.queue = st.queue := by
      simpa [h] using hx
    simp [hst', hq]

theorem live_addLease (q : Bool) (obs : Option (List AdmissionStateChanged)) (x : String)
    (w : WaiterId) : Live (c.addLease t q obs) x w ↔ Live c x w := by
  have hqueue : ∀ y, ((c.addLease t q obs).tenants.get? y).map (·.queue) =
      (c.tenants.get? y).map (·.queue) := by
    intro y
    rw [get?_addLease]
    split
    · rw [Option.map_map]
      rfl
    · rfl
  exact live_of_queue_eq hqueue rfl x w

/-- Who has been delivered a lease is not live. -/
theorem live_deliver (x : String) (v : WaiterId) :
    Live (c.deliver w lease) x v ↔ v ≠ w ∧ Live c x v := by
  unfold Live waiterDone
  by_cases hv : v = w
  · simp [hv]
  · simp [hv]

/-- The live waiters are those behind the dead heads. -/
theorem mem_dropWhile_of_live {p : WaiterId → Bool} {q : List WaiterId} (hw : p w = false) :
    w ∈ q.dropWhile p ↔ w ∈ q := by
  constructor
  · intro h
    exact (List.dropWhile_sublist p).subset h
  · intro h
    have hsplit := List.takeWhile_append_dropWhile (p := p) (l := q)
    rw [← hsplit, List.mem_append] at h
    rcases h with h | h
    · exact absurd (List.mem_takeWhile_imp h) (by simp [hw])
    · exact h

/-! ## The sections -/

/-- A waiter whose future is done is removed without any effect on the live ones. -/
theorem Removed.servesFirst (hr : Removed c t w b c') (hdone : c.waiterDone w = true) :
    ServesFirst c c' := by
  cases hr with
  | absent => exact .refl c
  | removed obs hst hw =>
    refine .of_leases_eq (live_setQueue_of_iff hst fun x hx => ?_) rfl rfl
      fun ha => ⟨_, ha, rfl, rfl⟩
    refine ⟨List.mem_of_mem_erase, fun hmem => (List.mem_erase_of_ne ?_).mpr hmem⟩
    rintro rfl
    exact absurd hdone (by simp [hx])

theorem Released.servesFirst (hr : Released c lease c') : ServesFirst c c' := by
  cases hr with
  | again => exact .refl c
  | @dropped l st obs hl hr hst =>
    refine .of_leases_eq (live_of_queue_eq (fun x => ?_) rfl) rfl (by simp) fun {i a} ha => ?_
    · rw [get?_dropLease]
      split
      · rw [Option.map_map]
        rfl
      · rfl
    · rw [dropLease_leases, List.getElem?_set]
      obtain ⟨hlt, -⟩ := List.getElem?_eq_some_iff.mp hl
      by_cases hi : lease = i
      · subst hi
        obtain rfl := Option.some.inj (hl.symm.trans ha)
        exact ⟨{ l with released := true }, by simp [hlt], rfl, rfl⟩
      · exact ⟨a, by simp [hi, ha], rfl, rfl⟩

theorem GivenBack.servesFirst (hg : GivenBack c w c') : ServesFirst c c' := by
  cases hg with
  | nothing => exact .refl c
  | lease hf hr => exact hr.servesFirst

/-- One iteration of the dispatch loop grants the first live waiter of the queue, or
    leaves the live waiters alone. -/
theorem Candidate.servesFirst (ho : Ordered c) (hst : c.tenants.get? t = some st)
    (hc : Candidate c t rest st b c') : ServesFirst c c' := by
  cases hc with
  | emptied obs hq =>
    refine .of_leases_eq (live_setQueue_of_iff hst fun w hw => ?_) rfl rfl
      fun ha => ⟨_, ha, rfl, rfl⟩
    rw [← hq]
    exact mem_dropWhile_of_live hw
  | limited obs w queue hq hmax =>
    refine .of_leases_eq (live_setQueue_of_iff hst fun w hw => ?_) rfl rfl
      fun ha => ⟨_, ha, rfl, rfl⟩
    rw [← hq]
    exact mem_dropWhile_of_live hw
  | granted obs w queue hq hmax =>
    have hlive : c.waiterDone w = false := by
      have := List.head?_dropWhile_not c.waiterDone st.queue
      rwa [hq] at this
    have hsub : (w :: queue).Sublist st.queue := hq ▸ List.dropWhile_sublist _
    have hwq : w ∈ st.queue := hsub.subset List.mem_cons_self
    have hsorted : (w :: queue).Pairwise (· < ·) := (ho t st hst).sublist hsub
    have hw : Live c t w := ⟨st, hst, hwq, hlive⟩
    -- the live waiters afterwards are those before, less the granted one
    have hafter : ∀ x v, Live (((c.setQueue t queue (if queue = [] then rest else rest ++ [t])
        (if queue = [] then c.activeTenantIds.erase t
          else insert t (c.activeTenantIds.erase t)) obs).addLease t true obs).deliver w
            c.leases.length) x v ↔ v ≠ w ∧ Live c x v := by
      intro x v
      rw [live_deliver, live_addLease, live_setQueue hst]
      refine and_congr_right fun hvw => ?_
      constructor
      · rintro (⟨rfl, hv, hvlive⟩ | ⟨-, hv⟩)
        · exact ⟨st, hst, hsub.subset (List.mem_cons_of_mem w hv), hvlive⟩
        · exact hv
      · intro hv
        by_cases ht : t = x
        · subst ht
          obtain ⟨st', hst', hvq, hvlive⟩ := hv
          obtain rfl := Option.some.inj (hst.symm.trans hst')
          have hmem : v ∈ w :: queue := hq ▸ (mem_dropWhile_of_live hvlive).mpr hvq
          exact .inl ⟨rfl, (List.mem_cons.mp hmem).resolve_left hvw, hvlive⟩
        · exact .inr ⟨ht, hv⟩
    refine ⟨by simp, fun {x v} hv => ?_, fun {x v} hv => ((hafter x v).mp hv).2,
      fun {v l} hf => ?_, fun {l a} ha => ?_, fun {l a} hl ha => ?_⟩
    · by_cases hvw : v = w
      · subst hvw
        exact .inr ⟨c.leases.length, ⟨le_rfl, by simp⟩, by simp⟩
      · exact .inl ((hafter x v).mpr ⟨hvw, hv⟩)
    · have hvw : v ≠ w := by
        rintro rfl
        simp [waiterDone, hf] at hlive
      simp [hvw, hf]
    · have hlt := (List.getElem?_eq_some_iff.mp ha).1
      exact ⟨a, by simp [List.getElem?_append_left hlt, ha], rfl, rfl⟩
    · rw [deliver_leases, addLease_leases, setQueue_leases, List.getElem?_append_right hl] at ha
      have hzero : l - c.leases.length = 0 := by
        have := (List.getElem?_eq_some_iff.mp ha).1
        simpa using this
      obtain rfl : l = c.leases.length := Nat.le_antisymm (Nat.sub_eq_zero_iff_le.mp hzero) hl
      obtain rfl := List.mem_singleton.mp (List.mem_of_getElem? ha)
      refine ⟨rfl, w, hw, ⟨le_rfl, by simp⟩, fun v hv _ => ?_⟩
      obtain ⟨st', hst', hvq, hvlive⟩ := hv
      obtain rfl := Option.some.inj (hst.symm.trans hst')
      have hmem : v ∈ w :: queue := hq ▸ (mem_dropWhile_of_live hvlive).mpr hvq
      rcases List.mem_cons.mp hmem with rfl | hmem
      · exact le_rfl
      · exact Nat.le_of_lt ((List.pairwise_cons.mp hsorted).1 v hmem)

theorem Dispatch.servesFirst (hd : Dispatch c c') (h : Inv c) (ho : Ordered c) :
    ServesFirst c c' := by
  induction hd with
  | refl c => exact .refl c
  | step hopen hcap hring hst hc _ ih =>
    have hstep := hc.servesFirst ho hst
    exact hstep.trans (ih (h.candidate hopen hring hst hcap hc) (ho.thinner (hc.thinner hst)))

/-! ## The grants of a step -/

/-- The grants between `c` and `c'`: those from a queue went to live waiters, each to
    the first of its tenant that was live when it was granted, and a tenant granted
    immediately had no live waiter. -/
structure GrantsInOrder (c c' : AdmissionController) : Prop where
  queued : ∀ l a, c.leases.length ≤ l → c'.leases[l]? = some a → a.wasQueued = true →
    ∃ w, Live c a.tenantId w ∧ GrantedTo c c' w l
  first : ∀ t w w' l, Live c t w → Live c t w' → GrantedTo c c' w l →
    (∀ l', l' < l → ¬GrantedTo c c' w' l') → w ≤ w'
  immediate : ∀ l a, c.leases.length ≤ l → c'.leases[l]? = some a → a.wasQueued = false →
    ∀ w, ¬Live c a.tenantId w

/-- Without new leases there are no grants. -/
theorem GrantsInOrder.of_length_eq (hlen : c'.leases.length = c.leases.length)
    (hd : Delivered c') : GrantsInOrder c c' where
  queued l a hl ha := by
    have := (List.getElem?_eq_some_iff.mp ha).1
    omega
  first t w w' l _ _ hg _ := by
    have hlt := hd.lt hg.2
    exact absurd hg.1 (not_le.mpr (hlen ▸ hlt))
  immediate l a hl ha := by
    have := (List.getElem?_eq_some_iff.mp ha).1
    omega

theorem ServesFirst.grantsInOrder (hs : ServesFirst c c') (h : Inv c) (hd : Delivered c') :
    GrantsInOrder c c' where
  queued l a hl ha _ := by
    obtain ⟨-, w, hw, hg, -⟩ := hs.first hl ha
    exact ⟨w, hw, hg⟩
  first t w w' l hw hw' hg hnot := by
    obtain ⟨-, v, hv, hgv, hmin⟩ := hs.first hg.1 (List.getElem?_eq_getElem (hd.lt hg.2))
    -- the lease went to one waiter, and that waits for one tenant
    obtain rfl : v = w := hd.inj hgv.2 hg.2
    obtain ⟨st, hst, hmem, -⟩ := id hw
    obtain ⟨st', hst', hmem', -⟩ := id hv
    have ht := h.queue_disjoint hst' hst hmem' hmem
    rw [ht] at hmin
    exact hmin w' hw' hnot
  immediate l a hl ha hq := by
    have hqueued := (hs.first hl ha).1
    exact absurd (hqueued.symm.trans hq) (by decide)

/-- The first section of a call grants its own call or nobody. -/
theorem Acquired.grantsInOrder {adm : Admission} (hacq : Acquired c w t adm c') (h : Inv c)
    (ho : Ordered c) (hset : Settled c) (hd : Delivered c) : GrantsInOrder c c' := by
  cases hacq with
  | rejected he hdis hs =>
    obtain ⟨-, hl, hf⟩ := hdis.of_settled hset
    exact .of_length_eq (by rw [hl]) ⟨fun hw => hl ▸ hd.lt (hf ▸ hw), fun hw hw' => hd.inj (hf ▸ hw) (hf ▸ hw')⟩
  | @granted c₁ st obs hdis hs hst hq hmax hcap =>
    obtain ⟨-, hl, hf⟩ := hdis.of_settled hset
    have hserves := hdis.servesFirst h ho
    have hnot : ∀ v l, ¬GrantedTo c (c₁.addLease t false obs) v l := by
      rintro v l ⟨hle, hv⟩
      rw [addLease_futures, hf] at hv
      exact absurd (hd.lt hv) (not_lt.mpr hle)
    refine ⟨fun l a hle ha hqueued => ?_, fun _ v _ l _ _ hg _ => absurd hg (hnot v l),
      fun l a hle ha _ v hv => ?_⟩
    · rw [addLease_leases, hl, List.getElem?_append_right hle] at ha
      obtain rfl := List.mem_singleton.mp (List.mem_of_getElem? ha)
      exact nomatch hqueued
    · rw [addLease_leases, hl, List.getElem?_append_right hle] at ha
      obtain rfl := List.mem_singleton.mp (List.mem_of_getElem? ha)
      -- a live waiter would still be in the queue, which is empty
      rcases hserves.stays hv with ⟨st', hst', hmem, -⟩ | ⟨l', ⟨hle', -⟩, hlt'⟩
      · obtain rfl := Option.some.inj (hst.symm.trans hst')
        rw [hq] at hmem
        exact nomatch hmem
      · rw [hl] at hlt'
        exact absurd hlt' (not_lt.mpr hle')
  | @queued c₁ _ st obs hopen hdis hs hst hlen hglobal hs' hdis' =>
    obtain ⟨-, hl, hf⟩ := hdis.of_settled hset
    obtain ⟨-, hl', hf'⟩ := hdis'.of_settled hs'
    have hleases : c'.leases = c.leases := hl'.trans hl
    have hfutures : c'.futures = c.futures := hf'.trans hf
    exact .of_length_eq (by rw [hleases]) ⟨fun hw => hleases ▸ hd.lt (hfutures ▸ hw),
      fun hw hw' => hd.inj (hfutures ▸ hw) (hfutures ▸ hw')⟩

/-- The new call's waiter goes behind all others. -/
theorem Ordered.acquired {adm : Admission} (ho : Ordered c) (hacq : Acquired c w t adm c')
    (hw : ∀ v, c.Queued v → v < w) : Ordered c' := by
  cases hacq with
  | rejected he hd hs => exact ho.thinner hd.thinner
  | granted obs hd hs hst hq hmax hcap => exact ho.thinner (hd.thinner.trans (.addLease false obs))
  | @queued c₁ _ st obs hopen hd hs hst hlen hglobal hs' hd' =>
    have ho₁ := ho.thinner hd.thinner
    have henq : Ordered (c₁.enqueue t st.queue w obs) := by
      intro x sx hx
      rw [enqueue, get?_setQueue] at hx
      by_cases ht : t = x
      · subst ht
        rw [if_pos rfl, hst, Option.map_some, Option.some.injEq] at hx
        subst hx
        refine List.pairwise_append.mpr ⟨ho₁ t st hst, List.pairwise_singleton _ _, ?_⟩
        intro v hv v' hv'
        obtain rfl := List.mem_singleton.mp hv'
        obtain ⟨st₀, hst₀, hsub⟩ := hd.thinner t st hst
        exact hw v ⟨t, st₀, hst₀, hsub.subset hv⟩
      · rw [if_neg ht] at hx
        exact ho₁ x sx hx
    exact henq.thinner hd'.thinner

end AdmissionController

namespace AdmissionSystem

open AdmissionController

variable {s s' : AdmissionSystem} {a : AdmissionAction}

/-- Every step keeps the queues in the order of the calls. -/
theorem Ordered.transition (ho : Ordered s.controller) (h : SysInv s) (ht : Transition s a s') :
    Ordered s'.controller := by
  cases ht with
  | acquire hacq => exact ho.acquired hacq fun v hv => h.queued_lt hv
  | deadline | cancel | value | failed | setObserver => exact fun t st hst => ho t st hst
  | timedOut hw hdone hr hd hs => exact ho.thinner (hr.thinner.trans hd.thinner)
  | cancelled hw hdone hk hr hg hd hs =>
    exact ho.thinner ((hr.thinner.trans hg.thinner).trans hd.thinner)
  | release hret hr hd hs => exact ho.thinner (hr.thinner.trans hd.thinner)
  | shutdown hsd =>
    cases hsd with
    | again => exact ho
    | closed hopen obs =>
      intro t st hst
      rw [get?_closeAll] at hst
      obtain ⟨st', -, rfl⟩ := Option.map_eq_some_iff.mp hst
      exact List.Pairwise.nil

/-- The queues are in the order of the calls in every reachable state. -/
theorem ordered_inductive : lts.Inductive fun s => SysInv s ∧ Ordered s.controller :=
  sysInv_inductive.and
    (fun s hinit t st hst => by
      obtain ⟨hcalls, -⟩ := id hinit
      have h := SysInv.init hinit
      have hempty : st.queue = [] := by
        apply List.eq_nil_iff_forall_not_mem.mpr
        intro w hw
        have hlt := h.queued_lt ⟨t, st, hst, hw⟩
        simp [hcalls] at hlt
      rw [hempty]
      exact List.Pairwise.nil)
    fun _ _ _ h ho _ hstep => Ordered.transition ho h (h.transition_of_step hstep)

/-- Every step grants in order. -/
theorem Transition.grantsInOrder (ht : Transition s a s') (h : SysInv s)
    (ho : Ordered s.controller) : GrantsInOrder s.controller s'.controller := by
  have hdelivered := (h.transition ht).delivered
  cases ht with
  | acquire hacq => exact hacq.grantsInOrder h.inv ho h.settled h.delivered
  | deadline | cancel | value | failed | setObserver => exact .of_length_eq rfl hdelivered
  | timedOut hw hdone hr hd hs =>
    have hserves := (hr.servesFirst hdone).trans
      (hd.servesFirst (h.inv.removed hr) (ho.thinner hr.thinner))
    exact hserves.grantsInOrder h.inv hdelivered
  | cancelled hw hdone hk hr hg hd hs =>
    have hserves := ((hr.servesFirst hdone).trans hg.servesFirst).trans
      (hd.servesFirst ((h.inv.removed hr).givenBack hg)
        ((ho.thinner hr.thinner).thinner hg.thinner))
    exact hserves.grantsInOrder h.inv hdelivered
  | release hret hr hd hs =>
    have hserves := hr.servesFirst.trans
      (hd.servesFirst (h.inv.released hr) (ho.thinner hr.thinner))
    exact hserves.grantsInOrder h.inv hdelivered
  | shutdown hsd =>
    cases hsd with
    | again => exact .of_length_eq rfl hdelivered
    | closed hopen obs => exact .of_length_eq rfl hdelivered

/-- In every run, a grant from a queue goes to the live waiter of its tenant that
    joined the queue first, and no tenant is granted immediately while it has a live
    queued waiter. -/
theorem fifo_without_barging (h : lts.Reachable s) (hstep : lts.Step s a s') :
    GrantsInOrder s.controller s'.controller := by
  obtain ⟨hinv, ho⟩ := ordered_inductive.holds h
  exact (hinv.transition_of_step hstep).grantsInOrder hinv ho

theorem fifo_without_barging_release :
    GrantsInOrder (after [.acquire "a", .acquire "a", .acquire "a"]).controller
      (after [.acquire "a", .acquire "a", .acquire "a", .release 0]).controller :=
  fifo_without_barging (after_reachable _) (show lts.Step _ (.release 0) _ from rfl)

end AdmissionSystem

end Gateway
