import Gateway.Spec.AdmissionInvariant

/-!
# A whole dispatch

`_dispatch_locked` walks the ring until the gateway is full or one round found no
tenant to grant. `Dispatch` is the chain of iterations it makes. The chain keeps
the invariant, and where it ends no tenant could be granted: `Settled`.

## Key results

- `Inv.candidate`, `Inv.dispatch`: the iterations keep the invariant
- `dispatchLocked_spec`: `_dispatch_locked` raises nothing, makes a chain of
  iterations, and leaves a settled controller
- `Inv.saturated`, `Dispatch.of_settled`: in a settled controller nothing queued
  can be granted, and another dispatch grants nothing
-/

namespace Gateway.AdmissionController

variable {c c' c'' : AdmissionController} {t t' : String} {rest : List String}
  {st st' : TenantState} {b : Bool}

/-! ## One iteration keeps the invariant -/

/-- What the invariant says of a ring with its head removed. -/
private theorem Inv.tail (h : Inv c) (hring : c.activeTenants = t :: rest) :
    t ∉ rest ∧ rest.Nodup ∧ (∀ x, x ∈ rest ↔ x ∈ c.activeTenantIds.erase t) ∧
      ∀ x, x ≠ t → (x ∈ rest ↔ x ∈ c.activeTenants) := by
  have hnodup := h.active_nodup
  rw [hring, List.nodup_cons] at hnodup
  refine ⟨hnodup.1, hnodup.2, fun x => ?_, fun x hx => by simp [hring, hx]⟩
  rw [Finset.mem_erase, ← h.active_ids, hring, List.mem_cons]
  constructor
  · intro hx
    exact ⟨fun hxt => hnodup.1 (hxt ▸ hx), .inr hx⟩
  · rintro ⟨hne, rfl | hx⟩
    · exact absurd rfl hne
    · exact hx

/-- The ring after its head went to the tail. -/
private theorem Inv.rotate (h : Inv c) (hring : c.activeTenants = t :: rest) :
    (rest ++ [t]).Nodup ∧
      (∀ x, x ∈ rest ++ [t] ↔ x ∈ insert t (c.activeTenantIds.erase t)) ∧
      ∀ x, x ≠ t → (x ∈ rest ++ [t] ↔ x ∈ c.activeTenants) := by
  obtain ⟨hnot, hnodup, hids, hother⟩ := h.tail hring
  refine ⟨List.nodup_append.mpr ⟨hnodup, List.nodup_singleton t, ?_⟩, fun x => ?_, fun x hx => ?_⟩
  · rintro a ha b hb rfl
    exact hnot (List.mem_singleton.mp hb ▸ ha)
  · rw [List.mem_append, List.mem_singleton, Finset.mem_insert, ← hids, or_comm]
  · rw [List.mem_append, List.mem_singleton, hother x hx]
    simp [hx]

/-- The tenant a queue replacement is about, after it. -/
theorem get?_setQueue_self (hst : c.tenants.get? t = some st) {q : List WaiterId}
    {ring : List String} {ids : Finset String} {obs : Option (List AdmissionStateChanged)} :
    (c.setQueue t q ring ids obs).tenants.get? t = some { st with queue := q } := by
  rw [get?_setQueue, if_pos rfl, hst, Option.map_some]

/-- One iteration of the dispatch loop keeps the invariant. -/
theorem Inv.candidate (h : Inv c) (hopen : c.closed = false) (hring : c.activeTenants = t :: rest)
    (hst : c.tenants.get? t = some st) (hcap : c.globalInflight < c.limits.globalMaxInflight)
    (hc : Candidate c t rest st b c') : Inv c' := by
  obtain ⟨-, hnodup, hids, hother⟩ := h.tail hring
  obtain ⟨hnodup', hids', hother'⟩ := h.rotate hring
  cases hc with
  | emptied obs hq =>
    exact h.shrink hopen hst (List.nil_sublist _) hnodup hids hother fun hne => absurd rfl hne
  | limited obs w queue hq hmax =>
    exact h.shrink hopen hst (hq ▸ List.dropWhile_sublist _) hnodup' hids' hother' fun _ => by simp
  | granted obs w queue hq hmax =>
    have hsub : (w :: queue).Sublist st.queue := hq ▸ List.dropWhile_sublist _
    have hpop : Inv (c.setQueue t queue (if queue = [] then rest else rest ++ [t])
        (if queue = [] then c.activeTenantIds.erase t
          else insert t (c.activeTenantIds.erase t)) obs) := by
      by_cases hempty : queue = []
      · simp only [hempty, if_true]
        exact h.shrink hopen hst (List.nil_sublist _) hnodup hids hother fun hne => absurd rfl hne
      · simp only [hempty, if_false]
        exact h.shrink hopen hst ((List.sublist_cons_self w queue).trans hsub) hnodup' hids' hother'
          fun _ => by simp
    refine (hpop.addLease (get?_setQueue_self hst) hmax hcap true).deliver _ ?_
    -- the granted waiter was queued once, and only for this tenant
    intro t' st' hg hw
    have hwq : w ∈ st.queue := hsub.subset List.mem_cons_self
    have hnodupq : w ∉ queue := (List.nodup_cons.mp (hsub.nodup (h.queue_nodup hst))).1
    rw [get?_addLease, get?_setQueue] at hg
    by_cases ht : t = t'
    · subst ht
      simp only [if_true, hst, Option.map_some, Option.some.injEq] at hg
      exact hnodupq (by rw [← hg] at hw; exact hw)
    · simp only [ht, if_false] at hg
      exact ht (h.queue_disjoint hst hg hwq hw)

/-! ## The chain of iterations -/

/-- The iterations one `_dispatch_locked` makes. -/
inductive Dispatch : AdmissionController → AdmissionController → Prop
  | refl (c : AdmissionController) : Dispatch c c
  | step {c c' c'' : AdmissionController} {t : String} {rest : List String} {st : TenantState}
      {b : Bool} (hopen : c.closed = false)
      (hcap : c.globalInflight < c.limits.globalMaxInflight)
      (hring : c.activeTenants = t :: rest) (hst : c.tenants.get? t = some st)
      (hc : Candidate c t rest st b c') (hd : Dispatch c' c'') : Dispatch c c''

theorem Dispatch.trans (h : Dispatch c c') (h' : Dispatch c' c'') : Dispatch c c'' := by
  induction h with
  | refl => exact h'
  | step hopen hcap hring hst hc _ ih => exact .step hopen hcap hring hst hc (ih h')

/-- What every iteration preserves, given the invariant, a dispatch preserves. -/
theorem Dispatch.preserves {P : AdmissionController → Prop} (h : Dispatch c c') (hinv : Inv c)
    (hstep : ∀ {c c' t rest st b}, Inv c → P c → c.closed = false →
      c.globalInflight < c.limits.globalMaxInflight → c.activeTenants = t :: rest →
      c.tenants.get? t = some st → Candidate c t rest st b c' → P c') (hP : P c) : P c' := by
  induction h with
  | refl => exact hP
  | step hopen hcap hring hst hc _ ih =>
    exact ih (hinv.candidate hopen hring hst hcap hc) (hstep hinv hP hopen hcap hring hst hc)

theorem Inv.dispatch (h : Inv c) (hd : Dispatch c c') : Inv c' :=
  hd.preserves h (fun hinv _ hopen hcap hring hst hc => hinv.candidate hopen hring hst hcap hc) h

theorem Candidate.closed_eq (hc : Candidate c t rest st b c') : c'.closed = c.closed := by
  cases hc <;> rfl

theorem Candidate.limits_eq (hc : Candidate c t rest st b c') : c'.limits = c.limits := by
  cases hc <;> rfl

theorem Candidate.globalInflight_eq (hc : Candidate c t rest st b c') :
    c'.globalInflight = c.globalInflight + if b then 1 else 0 := by
  cases hc <;> simp

theorem Dispatch.closed_eq (hd : Dispatch c c') : c'.closed = c.closed := by
  induction hd with
  | refl => rfl
  | step _ _ _ _ hc _ ih => rw [ih, hc.closed_eq]

theorem Dispatch.limits_eq (hd : Dispatch c c') : c'.limits = c.limits := by
  induction hd with
  | refl => rfl
  | step _ _ _ _ hc _ ih => rw [ih, hc.limits_eq]

/-! ## Where a dispatch ends -/

/-- The tenant is at its own limit. -/
def AtLimit (c : AdmissionController) (t : String) : Prop :=
  ∀ st, c.tenants.get? t = some st → st.tenant.maxInflight ≤ st.inflight

/-- The gateway is full, or every active tenant is at its own limit. -/
def Settled (c : AdmissionController) : Prop :=
  c.limits.globalMaxInflight ≤ c.globalInflight ∨ ∀ t ∈ c.activeTenants, AtLimit c t

/-- No queued waiter could be granted: a tenant below its limit with a live
    waiter finds the gateway full. -/
def Saturated (c : AdmissionController) : Prop :=
  ∀ t st, c.tenants.get? t = some st → (∃ w ∈ st.queue, c.waiterDone w = false) →
    st.inflight < st.tenant.maxInflight → c.limits.globalMaxInflight ≤ c.globalInflight

theorem AtLimit.setQueue {q : List WaiterId} {ring : List String} {ids : Finset String}
    {obs : Option (List AdmissionStateChanged)} (h : AtLimit c t') :
    AtLimit (c.setQueue t q ring ids obs) t' := by
  intro s hs
  rw [get?_setQueue] at hs
  split at hs
  · obtain ⟨s', hs', rfl⟩ := Option.map_eq_some_iff.mp hs
    exact h s' hs'
  · exact h s hs

/-- Nothing queued can be granted in a settled controller. -/
theorem Inv.saturated (h : Inv c) (hs : Settled c) : Saturated c := by
  intro t st hst ⟨w, hw, _⟩ hlt
  have hne : st.queue ≠ [] := List.ne_nil_of_mem hw
  rcases hs with hfull | hlimit
  · exact hfull
  · cases hopen : c.closed with
    | false =>
      have := hlimit t (h.active_of_queue hopen hst hne) st hst
      omega
    | true => exact absurd (h.closed_queue hopen hst) hne

/-- A round of the `for` loop. The ring is the candidates still to try followed by
    the tenants found at their limits and put back. -/
theorem dispatchRound_spec {n : Nat} (h : Inv c) (hopen : c.closed = false)
    (hcap : c.globalInflight < c.limits.globalMaxInflight) {todo tried : List String}
    (hring : c.activeTenants = todo ++ tried) (hn : todo.length = n)
    (htried : ∀ x ∈ tried, AtLimit c x) :
    ∃ b c', c.dispatchRound n = .ok (b, c') ∧ Dispatch c c' ∧
      (b = true → c'.globalInflight = c.globalInflight + 1) ∧
      (b = false → ∀ x ∈ c'.activeTenants, AtLimit c' x) := by
  induction n generalizing c todo tried with
  | zero =>
    obtain rfl := List.length_eq_zero_iff.mp hn
    refine ⟨false, c, rfl, .refl c, nofun, fun _ x hx => htried x ?_⟩
    rwa [hring] at hx
  | succ n ih =>
    obtain ⟨t, todo, rfl⟩ := List.exists_cons_of_length_eq_add_one hn
    have hring' : c.activeTenants = t :: (todo ++ tried) := hring
    have hmem : t ∈ c.activeTenants := hring' ▸ List.mem_cons_self
    obtain ⟨st, hst⟩ := h.active_known hmem
    obtain ⟨b, c₁, htry, hc⟩ := tryCandidate_spec hring' ((h.active_ids t).mp hmem) hst hcap
    have hinv := h.candidate hopen hring' hst hcap hc
    have hopen₁ : c₁.closed = false := hc.closed_eq.trans hopen
    have hlim₁ := hc.limits_eq
    have hglob₁ := hc.globalInflight_eq
    simp only [dispatchRound, htry, bind, Except.bind]
    cases hc with
    | emptied obs hq =>
      obtain ⟨b, c₂, hrun, hd, htrue, hfalse⟩ := ih hinv hopen₁ hcap rfl
        (Nat.succ.inj hn) fun x hx => (htried x hx).setQueue
      exact ⟨b, c₂, hrun, .step hopen hcap hring' hst (.emptied obs hq) hd, htrue, hfalse⟩
    | limited obs w queue hq hmax =>
      have htried' : ∀ x ∈ tried ++ [t], AtLimit (c.setQueue t (w :: queue)
          (todo ++ tried ++ [t]) (insert t (c.activeTenantIds.erase t)) obs) x := by
        intro x hx
        rcases List.mem_append.mp hx with hx | hx
        · exact (htried x hx).setQueue
        · obtain rfl := List.mem_singleton.mp hx
          intro s hs
          rw [get?_setQueue_self hst, Option.some.injEq] at hs
          exact hs ▸ hmax
      obtain ⟨b, c₂, hrun, hd, htrue, hfalse⟩ := ih hinv hopen₁ hcap
        (List.append_assoc todo tried [t]) (Nat.succ.inj hn) htried'
      exact ⟨b, c₂, hrun, .step hopen hcap hring' hst (.limited obs w queue hq hmax) hd, htrue,
        hfalse⟩
    | granted obs w queue hq hmax =>
      exact ⟨true, _, rfl, .step hopen hcap hring' hst (.granted obs w queue hq hmax) (.refl _),
        fun _ => rfl, nofun⟩

/-- The `while` loop, with as many passes as there are free slots. -/
theorem dispatchLoop_spec {n : Nat} (h : Inv c) (hopen : c.closed = false)
    (hn : n = (c.limits.globalMaxInflight - c.globalInflight).toNat) :
    ∃ c', dispatchLoop n c = .ok c' ∧ Dispatch c c' ∧ Settled c' := by
  induction n generalizing c with
  | zero => exact ⟨c, rfl, .refl c, .inl (by omega)⟩
  | succ n ih =>
    have hcap : c.globalInflight < c.limits.globalMaxInflight := by omega
    simp only [dispatchLoop]
    by_cases hempty : c.activeTenants = []
    · exact ⟨c, by simp [hempty], .refl c, .inr (by simp [hempty])⟩
    · obtain ⟨b, c₁, hround, hd, htrue, hfalse⟩ := dispatchRound_spec h hopen hcap
        (List.append_nil c.activeTenants).symm rfl nofun
      simp only [hcap, ne_eq, hempty, not_false_eq_true, and_self, if_true, bind, Except.bind,
        hround]
      cases b with
      | true =>
        have hglobal := htrue rfl
        have hlim := hd.limits_eq
        obtain ⟨c₂, hrun, hd₂, hsat⟩ := ih (h.dispatch hd) (hd.closed_eq.trans hopen)
          (by rw [hlim]; omega)
        exact ⟨c₂, hrun, hd.trans hd₂, hsat⟩
      | false => exact ⟨c₁, rfl, hd, .inr (hfalse rfl)⟩

/-- `_dispatch_locked` raises nothing, is a chain of iterations, and leaves a
    settled controller. -/
theorem dispatchLocked_spec (h : Inv c) :
    ∃ c', c.dispatchLocked = .ok c' ∧ Dispatch c c' ∧ Settled c' := by
  cases hopen : c.closed with
  | false =>
    obtain ⟨c', hrun, hd, hsettled⟩ := dispatchLoop_spec h hopen rfl
    exact ⟨c', by simp [dispatchLocked, hopen, hrun], hd, hsettled⟩
  | true =>
    exact ⟨c, by simp [dispatchLocked, hopen], .refl c, .inr (by simp [h.closed_active hopen])⟩

/-- A settled controller stays settled, and the iterations grant nothing. -/
theorem Candidate.of_settled (hs : Settled c) (hcap : c.globalInflight < c.limits.globalMaxInflight)
    (hring : c.activeTenants = t :: rest) (hst : c.tenants.get? t = some st)
    (hc : Candidate c t rest st b c') :
    Settled c' ∧ c'.leases = c.leases ∧ c'.futures = c.futures := by
  have hlimit : ∀ x ∈ c.activeTenants, AtLimit c x := hs.resolve_left (by omega)
  rw [hring] at hlimit
  cases hc with
  | emptied obs hq =>
    exact ⟨.inr fun x hx => (hlimit x (List.mem_cons_of_mem t hx)).setQueue, rfl, rfl⟩
  | limited obs w queue hq hmax =>
    refine ⟨.inr fun x hx => (hlimit x ?_).setQueue, rfl, rfl⟩
    rw [setQueue_activeTenants, List.mem_append, List.mem_singleton] at hx
    exact List.mem_cons.mpr hx.symm
  | granted obs w queue hq hmax =>
    have := hlimit t List.mem_cons_self st hst
    omega

/-- A dispatch of a settled controller grants nothing. -/
theorem Dispatch.of_settled (hd : Dispatch c c') (hs : Settled c) :
    Settled c' ∧ c'.leases = c.leases ∧ c'.futures = c.futures := by
  induction hd with
  | refl => exact ⟨hs, rfl, rfl⟩
  | step _ hcap hring hst hc _ ih =>
    obtain ⟨hs₁, hl₁, hf₁⟩ := hc.of_settled hs hcap hring hst
    obtain ⟨hs₂, hl₂, hf₂⟩ := ih hs₁
    exact ⟨hs₂, hl₂.trans hl₁, hf₂.trans hf₁⟩

end Gateway.AdmissionController
