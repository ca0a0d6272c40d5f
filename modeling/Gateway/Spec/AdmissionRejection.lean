import Gateway.Spec.AdmissionSystem
import Mathlib.Data.List.TakeWhile

/-!
# Rejections leave admission untouched

A rejected `acquire` has already run `_dispatch_locked`. In a reachable state that
dispatch finds the gateway full or every active tenant at its limit, so its round
pops every tenant of the ring and puts it back, in the same order. Only waiters
whose futures were done are dropped, with the tenants left without any
(`Untouched`).

## Key results

- `dispatchRound_of_atLimit`: a round over tenants at their limits
- `dispatchLocked_of_settled`: a dispatch of a settled controller
- `rejection_untouched`: every rejected `acquire` of every run
-/

namespace Gateway

namespace AdmissionController

variable {c c' c'' : AdmissionController} {t : String} {st st' : TenantState} {n : Nat}
  {w : WaiterId} {e : AdmissionError}

/-- Whether the tenant has a live queued waiter. -/
def hasLive (c : AdmissionController) (t : String) : Bool :=
  (c.tenants.get? t).any fun st => st.queue.any fun w => !c.waiterDone w

/-- `c'` is `c` less some waiters at the heads of the queues whose futures were done.
    Nothing is said of the ring. -/
structure Trimmed (c c' : AdmissionController) : Prop where
  limits : c'.limits = c.limits
  closed : c'.closed = c.closed
  globalInflight : c'.globalInflight = c.globalInflight
  leases : c'.leases = c.leases
  futures : c'.futures = c.futures
  keys : c'.tenants.keys = c.tenants.keys
  tenant : ∀ {t st'}, c'.tenants.get? t = some st' → ∃ st dead, c.tenants.get? t = some st ∧
    st'.tenant = st.tenant ∧ st'.inflight = st.inflight ∧ st.queue = dead ++ st'.queue ∧
    ∀ w ∈ dead, c.waiterDone w = true

/-- What a rejection may change: waiters whose futures were done leave the queues, and
    tenants left without any leave the ring. -/
structure Untouched (c c' : AdmissionController) : Prop extends Trimmed c c' where
  /-- the tenants with live waiters are served in the same order as before -/
  order : c'.activeTenants.filter c.hasLive = c.activeTenants.filter c.hasLive
  sublist : c'.activeTenants.Sublist c.activeTenants
  left : ∀ {t st'}, t ∈ c.activeTenants → t ∉ c'.activeTenants →
    c'.tenants.get? t = some st' → st'.queue = []
  queued : c'.globalQueued = c'.tenants.sum (·.queue.length)

/-! ## Dropping dead heads -/

theorem Trimmed.refl (c : AdmissionController) : Trimmed c c :=
  ⟨rfl, rfl, rfl, rfl, rfl, rfl, fun h => ⟨_, [], h, rfl, rfl, rfl, nofun⟩⟩

theorem Trimmed.trans (h : Trimmed c c') (h' : Trimmed c' c'') : Trimmed c c'' where
  limits := h'.limits.trans h.limits
  closed := h'.closed.trans h.closed
  globalInflight := h'.globalInflight.trans h.globalInflight
  leases := h'.leases.trans h.leases
  futures := h'.futures.trans h.futures
  keys := h'.keys.trans h.keys
  tenant hst := by
    obtain ⟨st', dead', hst', htenant', hinflight', hqueue', hdead'⟩ := h'.tenant hst
    obtain ⟨st, dead, hst, htenant, hinflight, hqueue, hdead⟩ := h.tenant hst'
    refine ⟨st, dead ++ dead', hst, htenant'.trans htenant, hinflight'.trans hinflight, ?_, ?_⟩
    · rw [hqueue, hqueue', List.append_assoc]
    · intro w hw
      rcases List.mem_append.mp hw with hw | hw
      · exact hdead w hw
      · have := hdead' w hw
        rwa [waiterDone, h.futures] at this

/-- The dead heads of one queue are dropped. -/
theorem Trimmed.dropWhile (hst : c.tenants.get? t = some st) {q : List WaiterId}
    (hq : st.queue.dropWhile c.waiterDone = q) (ring : List String) (ids : Finset String)
    (obs : Option (List AdmissionStateChanged)) : Trimmed c (c.setQueue t q ring ids obs) where
  limits := rfl
  closed := rfl
  globalInflight := rfl
  leases := rfl
  futures := rfl
  keys := Dict.keys_modify ..
  tenant {x sx} hx := by
    rw [get?_setQueue] at hx
    by_cases ht : t = x
    · subst ht
      rw [if_pos rfl, hst, Option.map_some, Option.some.injEq] at hx
      subst hx
      refine ⟨st, st.queue.takeWhile c.waiterDone, hst, rfl, rfl, ?_, ?_⟩
      · show st.queue = st.queue.takeWhile c.waiterDone ++ q
        rw [← hq, List.takeWhile_append_dropWhile]
      · exact fun w hw => List.mem_takeWhile_imp hw
    · rw [if_neg ht] at hx
      exact ⟨sx, [], hx, rfl, rfl, rfl, nofun⟩

/-- Dropping dead waiters leaves the tenants with live ones. -/
theorem Trimmed.hasLive_eq (h : Trimmed c c') : c'.hasLive = c.hasLive := by
  funext t
  unfold hasLive waiterDone
  cases hst' : c'.tenants.get? t with
  | none =>
    have hnone : c.tenants.get? t = none := by
      rw [Dict.get?_eq_none] at hst' ⊢
      rwa [h.keys] at hst'
    rw [hnone]
    rfl
  | some st' =>
    obtain ⟨st, dead, hst, -, -, hqueue, hdead⟩ := h.tenant hst'
    have hnot : dead.any (fun w => !(c.futures w).done) = false := by
      apply List.any_eq_false.mpr
      intro w hw
      simpa [waiterDone] using hdead w hw
    rw [hst, Option.any_some, Option.any_some, hqueue, List.any_append, hnot, h.futures,
      Bool.false_or]

theorem hasLive_of_dropWhile_eq_nil (hst : c.tenants.get? t = some st)
    (hq : st.queue.dropWhile c.waiterDone = []) : c.hasLive t = false := by
  have hall := List.dropWhile_eq_nil_iff.mp hq
  rw [hasLive, hst, Option.any_some]
  apply List.any_eq_false.mpr
  intro w hw
  simpa using hall w hw

theorem hasLive_of_dropWhile_eq_cons {queue : List WaiterId} (hst : c.tenants.get? t = some st)
    (hq : st.queue.dropWhile c.waiterDone = w :: queue) : c.hasLive t = true := by
  have hlive := List.head?_dropWhile_not c.waiterDone st.queue
  rw [hq] at hlive
  have hmem : w ∈ st.queue := (List.dropWhile_sublist _).subset (hq ▸ List.mem_cons_self)
  rw [hasLive, hst, Option.any_some]
  exact List.any_eq_true.mpr ⟨w, hmem, by simpa using hlive⟩

/-! ## A dispatch that grants nothing -/

/-- A round over tenants at their limits: each is dropped if only dead waiters were
    queued, and goes to the tail otherwise. After the round those that stayed are in
    their order again. -/
theorem dispatchRound_of_atLimit (h : Inv c) (hopen : c.closed = false)
    (hcap : c.globalInflight < c.limits.globalMaxInflight) {todo tried : List String}
    (hring : c.activeTenants = todo ++ tried) (hn : todo.length = n)
    (hlimit : ∀ x ∈ c.activeTenants, AtLimit c x) :
    ∃ c', c.dispatchRound n = .ok (false, c') ∧ Inv c' ∧ Trimmed c c' ∧
      c'.activeTenants = tried ++ todo.filter c.hasLive := by
  induction n generalizing c todo tried with
  | zero =>
    obtain rfl := List.length_eq_zero_iff.mp hn
    exact ⟨c, rfl, h, .refl c, by rw [hring, List.nil_append, List.filter_nil, List.append_nil]⟩
  | succ n ih =>
    obtain ⟨t, todo, rfl⟩ := List.exists_cons_of_length_eq_add_one hn
    have hring' : c.activeTenants = t :: (todo ++ tried) := hring
    have hmem : t ∈ c.activeTenants := hring' ▸ List.mem_cons_self
    obtain ⟨st, hst⟩ := h.active_known hmem
    obtain ⟨b, c₁, htry, hc⟩ := tryCandidate_spec hring' ((h.active_ids t).mp hmem) hst hcap
    have hinv := h.candidate hopen hring' hst hcap hc
    simp only [dispatchRound, htry, bind, Except.bind]
    cases hc with
    | emptied obs hq =>
      have htrim := Trimmed.dropWhile hst hq (todo ++ tried) (c.activeTenantIds.erase t) obs
      obtain ⟨c₂, hrun, hinv₂, htrim₂, hring₂⟩ := ih hinv hopen hcap rfl (Nat.succ.inj hn)
        fun x hx => (hlimit x (hring' ▸ List.mem_cons_of_mem t hx)).setQueue
      refine ⟨c₂, hrun, hinv₂, htrim.trans htrim₂, ?_⟩
      rw [hring₂, htrim.hasLive_eq, List.filter_cons,
        hasLive_of_dropWhile_eq_nil hst hq]
      simp
    | limited obs w queue hq hmax =>
      have htrim := Trimmed.dropWhile hst hq (todo ++ tried ++ [t])
        (insert t (c.activeTenantIds.erase t)) obs
      have hlimit' : ∀ x ∈ todo ++ tried ++ [t], x ∈ c.activeTenants := by
        intro x hx
        rw [hring']
        rcases List.mem_append.mp hx with hx | hx
        · exact List.mem_cons_of_mem t hx
        · exact List.mem_cons.mpr (.inl (List.mem_singleton.mp hx))
      obtain ⟨c₂, hrun, hinv₂, htrim₂, hring₂⟩ := ih hinv hopen hcap
        (List.append_assoc todo tried [t]) (Nat.succ.inj hn)
        fun x hx => (hlimit x (hlimit' x hx)).setQueue
      refine ⟨c₂, hrun, hinv₂, htrim.trans htrim₂, ?_⟩
      rw [hring₂, htrim.hasLive_eq, List.filter_cons,
        hasLive_of_dropWhile_eq_cons hst hq]
      simp
    | granted obs w queue hq hmax =>
      have := hlimit t hmem st hst
      omega

/-- A tenant outside the ring has nobody queued. -/
theorem Inv.queue_of_not_active (h : Inv c) (ht : t ∉ c.activeTenants)
    (hst : c.tenants.get? t = some st) : st.queue = [] := by
  cases hopen : c.closed with
  | true => exact h.closed_queue hopen hst
  | false =>
    by_contra hne
    exact ht (h.active_of_queue hopen hst hne)

theorem Untouched.refl (h : Inv c) : Untouched c c where
  toTrimmed := .refl c
  order := rfl
  sublist := .refl _
  left ht hnot := absurd ht hnot
  queued := h.queued_sum

/-- A dispatch of a settled controller leaves it untouched. -/
theorem dispatchLocked_of_settled (h : Inv c) (hs : Settled c) :
    ∃ c', c.dispatchLocked = .ok c' ∧ Untouched c c' := by
  by_cases hclosed : c.closed = true
  · exact ⟨c, by simp [dispatchLocked, hclosed], .refl h⟩
  have hopen : c.closed = false := by simpa using hclosed
  simp only [dispatchLocked, hopen, Bool.false_eq_true, if_false]
  cases hn : (c.limits.globalMaxInflight - c.globalInflight).toNat with
  | zero => exact ⟨c, rfl, .refl h⟩
  | succ n =>
    have hcap : c.globalInflight < c.limits.globalMaxInflight := by omega
    simp only [dispatchLoop]
    by_cases hempty : c.activeTenants = []
    · exact ⟨c, by simp [hempty], .refl h⟩
    · obtain ⟨c₁, hround, hinv, htrim, hring⟩ := dispatchRound_of_atLimit h hopen hcap
        (List.append_nil c.activeTenants).symm rfl (hs.resolve_left (by omega))
      rw [List.nil_append] at hring
      refine ⟨c₁, ?_, htrim, ?_, ?_, fun _ hnot hst => hinv.queue_of_not_active hnot hst,
        hinv.queued_sum⟩
      · simp only [hcap, ne_eq, hempty, not_false_eq_true, and_self, if_true, bind, Except.bind,
          hround]
        rfl
      · rw [hring, List.filter_filter]
        simp
      · rw [hring]
        exact List.filter_sublist

/-- A rejection of the first section of `_acquire` has at most dispatched. -/
theorem acquireLocked_raised (h : Inv c) (hs : Settled c)
    (hrun : c.acquireLocked w t = .ok (.raised e, c')) : Untouched c c' := by
  obtain ⟨c₁, hdispatch, huntouched⟩ := dispatchLocked_of_settled h hs
  simp only [acquireLocked, hdispatch, bind, Except.bind, pure, Except.pure] at hrun
  split at hrun
  · cases hrun
    exact .refl h
  split at hrun
  · cases hrun
    exact .refl h
  split at hrun
  · cases hrun
  next st hst =>
    split at hrun
    · -- granted at once
      split at hrun
      · cases hrun
      · cases hrun
    split at hrun
    · cases hrun
      exact huntouched
    split at hrun
    · cases hrun
      exact huntouched
    · -- queued
      split at hrun
      · cases hrun
      · cases hrun

end AdmissionController

namespace AdmissionSystem

open AdmissionController

variable {s s' : AdmissionSystem} {t : String} {e : AdmissionError}

/-- Every rejected `acquire` of an open controller leaves admission untouched. -/
theorem rejection_untouched (h : lts.Reachable s) (hstep : lts.Step s (.acquire t) s')
    (hcall : s'.calls = s.calls ++ [.raised e]) : Untouched s.controller s'.controller := by
  have hinv := SysInv.of_reachable h
  obtain ⟨adm, c', hrun, -, hok⟩ := acquire_run hinv t
  obtain rfl := Except.ok.inj (hok.symm.trans hstep)
  have hadm : adm.call t = .raised e := by
    have := List.append_cancel_left hcall
    simpa using this
  cases adm with
  | granted | queued => exact nomatch hadm
  | raised e' => exact acquireLocked_raised hinv.inv hinv.settled hrun

/-- A tenant with a full queue is turned away. -/
theorem rejection_untouched_full :
    Untouched
      (after [.acquire "a", .acquire "a", .acquire "a", .acquire "a", .acquire "a"]).controller
      (after [.acquire "a", .acquire "a", .acquire "a", .acquire "a", .acquire "a",
        .acquire "a"]).controller :=
  rejection_untouched (t := "a") (e := .tenantQueueFull) (after_reachable _) rfl rfl

end AdmissionSystem

end Gateway
