import Gateway.Model.AdmissionTasks
import Gateway.Spec.AdmissionSections

/-!
# The reachable states of the admission system

`Transition` lists what one step of the tasks around the controller can do, and
`SysInv` is the invariant they share: the controller satisfies its
representation invariant and is settled, queued waiters belong to waiting calls,
and every lease that anybody refers to has been granted.

The representation of the controller and the absence of bookkeeping errors
(`representation_invariant`) and of lost wakeups (`work_conserving`) are read off
the invariant.

## Key results

- `step_cases`: a step is not possible or is one of the transitions; the code
  raises no error of its own bookkeeping
- `SysInv.transition`, `sysInv_inductive`: the invariant is inductive
- `representation_invariant`, `work_conserving`: in every reachable state
-/

namespace Gateway

open AdmissionController

/-- How a call stands after its first section. -/
def AdmissionController.Admission.call (t : String) : Admission → AcquireCall
  | .granted lease => .returned lease
  | .raised e => .raised e
  | .queued => .waiting t false false

namespace AdmissionSystem

variable {s s' : AdmissionSystem} {a : AdmissionAction} {c c' c₁ c₂ c₃ : AdmissionController}
  {w w' : WaiterId} {l lease : LeaseId} {t : String} {b d k : Bool}

/-! ## The transitions -/

/-- What one step can do. -/
inductive Transition (s : AdmissionSystem) : AdmissionAction → AdmissionSystem → Prop
  | acquire {t : String} {adm : Admission} {c' : AdmissionController}
      (hacq : Acquired s.controller s.calls.length t adm c') :
      Transition s (.acquire t) ⟨c', s.calls ++ [adm.call t]⟩
  | deadline {w : WaiterId} {t : String} {k : Bool}
      (hw : s.calls[w]? = some (.waiting t false k)) :
      Transition s (.deadline w) (s.interrupt w (.waiting t true k))
  | cancel {w : WaiterId} {t : String} {d k : Bool} (hw : s.calls[w]? = some (.waiting t d k)) :
      Transition s (.cancel w) (s.interrupt w (.waiting t d true))
  | value {w : WaiterId} {t : String} {lease : LeaseId}
      (hw : s.calls[w]? = some (.waiting t false false))
      (hf : s.controller.futures w = .result lease) :
      Transition s (.resume w) ⟨s.controller, s.calls.set w (.returned lease)⟩
  | failed {w : WaiterId} {t : String} {e : AdmissionError}
      (hw : s.calls[w]? = some (.waiting t false false))
      (hf : s.controller.futures w = .exception e) :
      Transition s (.resume w) ⟨s.controller, s.calls.set w (.raised e)⟩
  | timedOut {w : WaiterId} {t : String} {b : Bool} {c₁ c₂ : AdmissionController}
      (hw : s.calls[w]? = some (.waiting t true false))
      (hdone : s.controller.waiterDone w = true) (hr : Removed s.controller t w b c₁)
      (hd : Dispatch c₁ c₂) (hs : Settled c₂) :
      Transition s (.resume w) ⟨c₂, s.calls.set w (.raised .admissionTimeout)⟩
  | cancelled {w : WaiterId} {t : String} {b d k : Bool} {c₁ c₂ c₃ : AdmissionController}
      (hw : s.calls[w]? = some (.waiting t d k)) (hdone : s.controller.waiterDone w = true)
      (hk : k = true ∨ s.controller.futures w = .cancelled)
      (hr : Removed s.controller t w b c₁) (hg : GivenBack c₁ w c₂) (hd : Dispatch c₂ c₃)
      (hs : Settled c₃) : Transition s (.resume w) ⟨c₃, s.calls.set w .cancelled⟩
  | release {lease : LeaseId} {c₁ c₂ : AdmissionController} (hret : .returned lease ∈ s.calls)
      (hr : Released s.controller lease c₁) (hd : Dispatch c₁ c₂) (hs : Settled c₂) :
      Transition s (.release lease) ⟨c₂, s.calls⟩
  | shutdown {c' : AdmissionController} (hsd : ShutDown s.controller c') :
      Transition s .shutdown ⟨c', s.calls⟩
  | setObserver (attach : Bool) :
      Transition s (.setObserver attach) ⟨s.controller.setObserver attach, s.calls⟩

/-! ## The invariant -/

/-- The call waits for a lease of the tenant. -/
def Waits (s : AdmissionSystem) (w : WaiterId) (t : String) : Prop :=
  ∃ d k, s.calls[w]? = some (.waiting t d k)

/-- The invariant of the controller and its calls. -/
structure SysInv (s : AdmissionSystem) : Prop where
  inv : Inv s.controller
  settled : Settled s.controller
  queued : ∀ {t st w}, s.controller.tenants.get? t = some st → w ∈ st.queue → s.Waits w t
  waits : ∀ {w t}, s.Waits w t → ∃ st, s.controller.tenants.get? t = some st
  fresh : ∀ {w}, s.calls.length ≤ w → s.controller.futures w = .pending
  delivered : Delivered s.controller
  returned_lt : ∀ {l}, .returned l ∈ s.calls → l < s.controller.leases.length

theorem Waits.lt (hw : s.Waits w t) : w < s.calls.length := by
  obtain ⟨d, k, hw⟩ := hw
  exact (List.getElem?_eq_some_iff.mp hw).1

theorem SysInv.queued_lt (h : SysInv s) (hw : s.controller.Queued w) : w < s.calls.length := by
  obtain ⟨t, st, hst, hw⟩ := hw
  exact (h.queued hst hw).lt

/-- Nothing that follows the removal of a call's waiter queues it again. -/
theorem SysInv.removed_not_queued (h : SysInv s) (hw : s.Waits w t)
    (hr : Removed s.controller t w b c₁) {R : LeaseId → Prop} (he : Evolves R c₁ c₂) :
    ¬c₂.Queued w := by
  rintro hq
  obtain ⟨t', st', hst', hw'⟩ := he.queued hq
  obtain ⟨st, hst, -, hsub⟩ := (hr.evolves (R := R)).queue hst'
  obtain ⟨d, k, hw⟩ := hw
  obtain ⟨d', k', hwait⟩ := h.queued hst (hsub w hw')
  obtain ⟨rfl, -, -⟩ := AcquireCall.waiting.inj (Option.some.inj (hw.symm.trans hwait))
  exact hr.notMem h.inv hst' hw'

/-- A section of the controller that starts and ends no call. -/
theorem SysInv.evolve (h : SysInv s) {R : LeaseId → Prop} (he : Evolves R s.controller c')
    (hinv : Inv c') (hs : Settled c') : SysInv ⟨c', s.calls⟩ where
  inv := hinv
  settled := hs
  queued hst hw := by
    obtain ⟨st, hst₀, -, hsub⟩ := he.queue hst
    exact h.queued hst₀ (hsub _ hw)
  waits hw := by
    obtain ⟨st, hst⟩ := h.waits hw
    exact he.known hst
  fresh {w} hlt := by
    rw [he.future_eq fun hq => absurd (h.queued_lt hq) (not_lt.mpr hlt)]
    exact h.fresh hlt
  delivered := he.delivered h.delivered
  returned_lt hl := (h.returned_lt hl).trans_le he.length_le

/-- Ending a call whose waiter is in no queue. -/
theorem SysInv.finish (h : SysInv s) (hw : ¬s.controller.Queued w) {call : AcquireCall}
    (hwait : ∀ t d k, call ≠ .waiting t d k)
    (hret : ∀ l, call = .returned l → l < s.controller.leases.length) :
    SysInv ⟨s.controller, s.calls.set w call⟩ where
  inv := h.inv
  settled := h.settled
  queued {t st w'} hst hw' := by
    obtain ⟨d, k, hcall⟩ := h.queued hst hw'
    refine ⟨d, k, ?_⟩
    rw [List.getElem?_set_ne (by rintro rfl; exact hw ⟨t, st, hst, hw'⟩)]
    exact hcall
  waits {w' t} hw' := by
    obtain ⟨d, k, hw'⟩ := hw'
    rw [List.getElem?_set] at hw'
    split at hw'
    · split at hw'
      · exact absurd (Option.some.inj hw') (hwait t d k)
      · exact nomatch hw'
    · exact h.waits ⟨d, k, hw'⟩
  fresh hlt := h.fresh (by simpa using hlt)
  delivered := h.delivered
  returned_lt hl := by
    rcases List.mem_or_eq_of_mem_set hl with hl | hl
    · exact h.returned_lt hl
    · exact hret _ hl.symm

/-- A new call that does not wait. -/
theorem SysInv.start (h : SysInv s) {call : AcquireCall}
    (hwait : ∀ t d k, call ≠ .waiting t d k)
    (hret : ∀ l, call = .returned l → l < s.controller.leases.length) :
    SysInv ⟨s.controller, s.calls ++ [call]⟩ where
  inv := h.inv
  settled := h.settled
  queued hst hw := by
    have hlt := (h.queued hst hw).lt
    obtain ⟨d, k, hcall⟩ := h.queued hst hw
    exact ⟨d, k, (List.getElem?_append_left hlt).trans hcall⟩
  waits {w' t} hw' := by
    obtain ⟨d, k, hw'⟩ := hw'
    rw [List.getElem?_append] at hw'
    split at hw'
    · exact h.waits ⟨d, k, hw'⟩
    · exact absurd (List.mem_singleton.mp (List.mem_of_getElem? hw')).symm (hwait t d k)
  fresh hlt := h.fresh (by simp at hlt; omega)
  delivered := h.delivered
  returned_lt hl := by
    rcases List.mem_append.mp hl with hl | hl
    · exact h.returned_lt hl
    · exact hret _ (List.mem_singleton.mp hl).symm

/-- Cancelling a future does not change which leases have arrived. -/
theorem interrupt_result {call : AcquireCall} :
    (s.interrupt w call).controller.futures w' = .result l ↔
      s.controller.futures w' = .result l := by
  simp only [AdmissionSystem.interrupt]
  by_cases hw : w' = w
  · rw [hw, Function.update_self, Future.cancel_eq_result]
  · rw [Function.update_of_ne hw]

/-- Cancelling the future of a waiting call. -/
theorem SysInv.interrupt (h : SysInv s) (hw : s.calls[w]? = some (.waiting t d k)) (d' k' : Bool) :
    SysInv (s.interrupt w (.waiting t d' k')) where
  inv := h.inv.withFutures fun {t st w'} hst hw' => by
    by_cases hww : w' = w
    · subst hww
      rcases h.inv.queue_unset hst hw' with hf | hf <;> simp [hf, Future.cancel]
    · rw [Function.update_of_ne hww]
      exact h.inv.queue_unset hst hw'
  settled := h.settled
  queued {t' st w'} hst hw' := by
    have hlt := (h.queued hst hw').lt
    obtain ⟨d₁, k₁, hcall⟩ := h.queued hst hw'
    by_cases hww : w = w'
    · subst hww
      obtain ⟨rfl, -, -⟩ := AcquireCall.waiting.inj (Option.some.inj (hw.symm.trans hcall))
      exact ⟨d', k', List.getElem?_set_self hlt⟩
    · exact ⟨d₁, k₁, (List.getElem?_set_ne hww).trans hcall⟩
  waits {w' t'} hw' := by
    obtain ⟨d₁, k₁, hw'⟩ := hw'
    simp only [AdmissionSystem.interrupt, List.getElem?_set] at hw'
    split at hw'
    · split at hw'
      · obtain ⟨rfl, -, -⟩ := AcquireCall.waiting.inj (Option.some.inj hw')
        exact h.waits ⟨d, k, hw⟩
      · cases hw'
    · exact h.waits ⟨d₁, k₁, hw'⟩
  fresh {w'} hlt := by
    simp only [AdmissionSystem.interrupt, List.length_set] at hlt ⊢
    have hww : w' ≠ w := by
      rintro rfl
      exact absurd (Waits.lt ⟨d, k, hw⟩) (not_lt.mpr hlt)
    rw [Function.update_of_ne hww]
    exact h.fresh hlt
  delivered := ⟨fun hf => h.delivered.lt (interrupt_result.mp hf),
    fun hf hf' => h.delivered.inj (interrupt_result.mp hf) (interrupt_result.mp hf')⟩
  returned_lt hl := by
    rcases List.mem_or_eq_of_mem_set hl with hl | hl
    · exact h.returned_lt hl
    · cases hl

theorem SysInv.shutDown (h : SysInv s) (hsd : ShutDown s.controller c') :
    SysInv ⟨c', s.calls⟩ := by
  cases hsd with
  | again => exact h
  | closed hopen obs =>
    refine ⟨h.inv.closeAll obs, .inr fun _ hx => absurd hx List.not_mem_nil, fun hst hw => ?_,
      fun hw => ?_, fun {w} hlt => ?_, ?_, h.returned_lt⟩
    · rw [get?_closeAll] at hst
      obtain ⟨st, -, rfl⟩ := Option.map_eq_some_iff.mp hst
      exact absurd hw List.not_mem_nil
    · obtain ⟨st, hst⟩ := h.waits hw
      exact ⟨_, by rw [get?_closeAll, hst, Option.map_some]⟩
    · rcases closeAll_futures (c := s.controller) w obs with ⟨hf, -⟩ | ⟨-, hq, -⟩
      · exact hf.trans (h.fresh hlt)
      · exact absurd (h.queued_lt hq) (not_lt.mpr hlt)
    · exact ⟨fun hf => h.delivered.lt (closeAll_result.mp hf),
        fun hf hf' => h.delivered.inj (closeAll_result.mp hf) (closeAll_result.mp hf')⟩

/-- The record of a queued waiter, with its call. -/
theorem SysInv.enqueue (h : SysInv s) (hopen : s.controller.closed = false) {st : TenantState}
    (hst : s.controller.tenants.get? t = some st) (hlen : st.queue.length < st.tenant.maxQueue)
    (hglobal : s.controller.globalQueued < s.controller.limits.globalMaxQueue)
    {obs : Option (List AdmissionStateChanged)}
    (hs : Settled (s.controller.enqueue t st.queue s.calls.length obs)) :
    SysInv ⟨s.controller.enqueue t st.queue s.calls.length obs,
      s.calls ++ [.waiting t false false]⟩ where
  inv := h.inv.enqueue hopen hst hlen hglobal (h.fresh le_rfl)
    (fun hq => absurd (h.queued_lt hq) (lt_irrefl _)) obs
  settled := hs
  queued {t' st' w} hst' hw := by
    have hold : ∀ {x sx}, s.controller.tenants.get? x = some sx → w ∈ sx.queue →
        (AdmissionSystem.mk (s.controller.enqueue t st.queue s.calls.length obs)
          (s.calls ++ [.waiting t false false])).Waits w x := fun hx hw => by
      have hlt := (h.queued hx hw).lt
      obtain ⟨d, k, hcall⟩ := h.queued hx hw
      exact ⟨d, k, (List.getElem?_append_left hlt).trans hcall⟩
    simp only [AdmissionController.enqueue, get?_setQueue] at hst'
    split at hst'
    · next ht =>
      subst ht
      rw [hst, Option.map_some, Option.some.injEq] at hst'
      rw [← hst'] at hw
      rcases List.mem_append.mp hw with hw | hw
      · exact hold hst hw
      · obtain rfl := List.mem_singleton.mp hw
        exact ⟨false, false, by simp⟩
    · exact hold hst' hw
  waits {w t'} hw := by
    have hknown : ∃ st', s.controller.tenants.get? t' = some st' := by
      obtain ⟨d, k, hw⟩ := hw
      rw [List.getElem?_append] at hw
      split at hw
      · exact h.waits ⟨d, k, hw⟩
      · obtain ⟨rfl, -, -⟩ := AcquireCall.waiting.inj
          (List.mem_singleton.mp (List.mem_of_getElem? hw))
        exact ⟨st, hst⟩
    obtain ⟨st', hst'⟩ := hknown
    simp only [AdmissionController.enqueue, get?_setQueue, hst']
    split <;> exact ⟨_, rfl⟩
  fresh {w} hlt := h.fresh (by simp at hlt; omega)
  delivered := ⟨h.delivered.lt, h.delivered.inj⟩
  returned_lt hl := by
    rcases List.mem_append.mp hl with hl | hl
    · exact h.returned_lt hl
    · cases List.mem_singleton.mp hl

/-- An immediate grant, with its call. -/
theorem SysInv.immediate (h : SysInv s) {st : TenantState}
    (hst : s.controller.tenants.get? t = some st) (hmax : st.inflight < st.tenant.maxInflight)
    (hcap : s.controller.globalInflight < s.controller.limits.globalMaxInflight)
    (obs : Option (List AdmissionStateChanged)) :
    SysInv ⟨s.controller.addLease t false obs,
      s.calls ++ [.returned s.controller.leases.length]⟩ := by
  have hgrant : SysInv ⟨s.controller.addLease t false obs, s.calls⟩ := by
    refine ⟨h.inv.addLease hst hmax hcap false, h.settled.addLease false obs, fun {x sx w} hx hw => ?_,
      fun {w x} hw => ?_, h.fresh,
      ⟨fun hf => ?_, h.delivered.inj⟩, fun hl => ?_⟩
    · rw [get?_addLease] at hx
      split at hx
      · obtain ⟨sx', hx', rfl⟩ := Option.map_eq_some_iff.mp hx
        exact h.queued hx' hw
      · exact h.queued hx hw
    · obtain ⟨sx, hx⟩ := h.waits hw
      rw [get?_addLease, hx]
      split <;> exact ⟨_, rfl⟩
    · rw [addLease_leases, List.length_append, List.length_singleton]
      exact Nat.lt_succ_of_lt (h.delivered.lt hf)
    · rw [addLease_leases, List.length_append, List.length_singleton]
      exact Nat.lt_succ_of_lt (h.returned_lt hl)
  exact hgrant.start (by simp) fun l hl => by
    obtain rfl := AcquireCall.returned.inj hl
    simp

/-- A dispatch that starts and ends no call. -/
theorem SysInv.dispatch (h : SysInv s) (hd : Dispatch s.controller c') (hs : Settled c') :
    SysInv ⟨c', s.calls⟩ :=
  h.evolve (hd.evolves h.inv (R := fun _ => False)) (h.inv.dispatch hd) hs

theorem SysInv.acquired (h : SysInv s) {adm : Admission}
    (hacq : Acquired s.controller s.calls.length t adm c') :
    SysInv ⟨c', s.calls ++ [adm.call t]⟩ := by
  cases hacq with
  | rejected he hd hs => exact (h.dispatch hd hs).start nofun nofun
  | granted obs hd hs hst hq hmax hcap => exact (h.dispatch hd hs).immediate hst hmax hcap obs
  | queued obs hopen hd hs hst hlen hglobal hs' hd' =>
    have henq := (h.dispatch hd hs).enqueue hopen hst hlen hglobal hs'
    exact henq.dispatch hd' (hd'.of_settled hs').1

/-- Every transition keeps the invariant. -/
theorem SysInv.transition (h : SysInv s) (ht : Transition s a s') : SysInv s' := by
  cases ht with
  | acquire hacq => exact h.acquired hacq
  | deadline hw => exact h.interrupt hw _ _
  | cancel hw => exact h.interrupt hw _ _
  | value hw hf =>
    exact h.finish (h.inv.not_queued (by simp [hf]) (by simp [hf])) nofun fun l hl => by
      obtain rfl := AcquireCall.returned.inj hl
      exact h.delivered.lt hf
  | failed hw hf => exact h.finish (h.inv.not_queued (by simp [hf]) (by simp [hf])) nofun nofun
  | timedOut hw hdone hr hd hs =>
    have hinv := h.inv.removed hr
    have hev : Evolves (fun _ => False) _ _ := hd.evolves hinv
    have h₂ := h.evolve (hr.evolves.trans hinv hev) (hinv.dispatch hd) hs
    exact h₂.finish (h.removed_not_queued ⟨_, _, hw⟩ hr hev) nofun nofun
  | cancelled hw hdone hk hr hg hd hs =>
    have hinv := h.inv.removed hr
    have hev : Evolves (fun _ => True) _ _ := (hg.evolves fun _ _ => trivial).trans
      (hinv.givenBack hg) (hd.evolves (hinv.givenBack hg))
    have h₃ := h.evolve (hr.evolves.trans hinv hev) ((hinv.givenBack hg).dispatch hd) hs
    exact h₃.finish (h.removed_not_queued ⟨_, _, hw⟩ hr hev) nofun nofun
  | release hret hr hd hs =>
    have hinv := h.inv.released hr
    have hev : Evolves (fun _ => True) _ _ := (hr.evolves trivial).trans hinv (hd.evolves hinv)
    exact h.evolve hev (hinv.dispatch hd) hs
  | shutdown hsd => exact h.shutDown hsd
  | setObserver attach =>
    exact ⟨h.inv.withObserver, h.settled, h.queued, h.waits, h.fresh, ⟨h.delivered.lt, h.delivered.inj⟩,
      h.returned_lt⟩

/-! ## The steps -/

/-- A call whose future is done can resume, by one of the transitions. -/
theorem resume_run (h : SysInv s) (hw : s.calls[w]? = some (.waiting t d k))
    (hdone : (s.controller.futures w).done = true) :
    ∃ s', s.step (.resume w) = .ok s' ∧ Transition s (.resume w) s' := by
  obtain ⟨st, hst⟩ := h.waits ⟨d, k, hw⟩
  simp only [step, hw, resumeCall, waitFor, hdone, Bool.not_true, Bool.false_eq_true, if_false]
  cases k with
  | true =>
    obtain ⟨b, c₁, c₂, c₃, hrun, hr, hg, hd, hs⟩ :=
      acquireCancelled_cases h.inv hst fun l => h.delivered.lt
    exact ⟨_, by simp [hrun, lift, bind, Except.bind]; rfl,
      .cancelled hw hdone (.inl rfl) hr hg hd hs⟩
  | false =>
    cases d with
    | true =>
      obtain ⟨b, c₁, c₂, hrun, hr, hd, hs⟩ := acquireTimedOut_cases h.inv hst w
      exact ⟨_, by simp [hrun, lift, bind, Except.bind]; rfl, .timedOut hw hdone hr hd hs⟩
    | false =>
      cases hf : s.controller.futures w with
      | pending => simp [hf] at hdone
      | result l => exact ⟨_, rfl, .value hw hf⟩
      | exception e => exact ⟨_, rfl, .failed hw hf⟩
      | cancelled =>
        obtain ⟨b, c₁, c₂, c₃, hrun, hr, hg, hd, hs⟩ :=
          acquireCancelled_cases h.inv hst fun l => h.delivered.lt
        exact ⟨_, by simp [hrun, lift, bind, Except.bind]; rfl,
          .cancelled hw hdone (.inr hf) hr hg hd hs⟩

/-- A resumption is not possible, or is one of the transitions. -/
private theorem resume_cases (h : SysInv s) (hw : s.calls[w]? = some (.waiting t d k)) :
    s.step (.resume w) = .error .disabled ∨
      ∃ s', s.step (.resume w) = .ok s' ∧ Transition s (.resume w) s' := by
  by_cases hdone : (s.controller.futures w).done = true
  · exact .inr (resume_run h hw hdone)
  · exact .inl (by simp [step, hw, resumeCall, waitFor, hdone, bind, Except.bind])

/-- An `acquire` runs its first section, and its call stands as that section ends. -/
theorem acquire_run (h : SysInv s) (t : String) :
    ∃ adm c', s.controller.acquireLocked s.calls.length t = .ok (adm, c') ∧
      Acquired s.controller s.calls.length t adm c' ∧
      s.step (.acquire t) = .ok ⟨c', s.calls ++ [adm.call t]⟩ := by
  obtain ⟨adm, c', hrun, hacq⟩ := acquireLocked_cases h.inv h.settled (h.fresh le_rfl)
    (fun hq => absurd (h.queued_lt hq) (lt_irrefl _)) t
  refine ⟨adm, c', hrun, hacq, ?_⟩
  simp only [step, startCall, hrun, lift, bind, Except.bind]
  cases adm with
  | granted lease => rfl
  | raised e => rfl
  | queued =>
    -- the second dispatch grants nothing, so the new waiter's future is pending
    have hpending : c'.futures s.calls.length = .pending := by
      cases hacq with
      | queued obs hopen hd hs hst hlen hglobal hs' hd' =>
        rw [(hd'.of_settled hs').2.2]
        have hev : Evolves (fun _ => False) _ _ := hd.evolves h.inv
        refine (hev.future_eq fun hq => ?_).trans (h.fresh le_rfl)
        exact absurd (h.queued_lt hq) (lt_irrefl _)
    simp only [waiterDone, hpending, Future.done_pending, Bool.false_eq_true, if_false]
    rfl

/-- A step is not possible, or is one of the transitions. -/
theorem step_cases (h : SysInv s) (a : AdmissionAction) :
    s.step a = .error .disabled ∨ ∃ s', s.step a = .ok s' ∧ Transition s a s' := by
  cases a with
  | acquire t =>
    obtain ⟨adm, c', -, hacq, hstep⟩ := acquire_run h t
    exact .inr ⟨_, hstep, .acquire hacq⟩
  | deadline w =>
    simp only [step]
    split
    · next t k hw => exact .inr ⟨_, rfl, .deadline hw⟩
    · exact .inl rfl
  | cancel w =>
    simp only [step]
    split
    · next t d k hw => exact .inr ⟨_, rfl, .cancel hw⟩
    · exact .inl rfl
  | resume w =>
    cases hw : s.calls[w]? with
    | none => exact .inl (by simp [step, hw])
    | some call =>
      cases call with
      | waiting t d k => exact resume_cases h hw
      | returned | raised | cancelled => exact .inl (by simp [step, hw])
  | release lease =>
    simp only [step]
    split
    · next hret =>
      obtain ⟨c₁, c₂, hrun, hr, hd, hs⟩ := release_cases h.inv (h.returned_lt hret)
      exact .inr ⟨_, by simp [hrun, lift, bind, Except.bind]; rfl, .release hret hr hd hs⟩
    · exact .inl rfl
  | shutdown =>
    obtain ⟨c', hrun, hsd⟩ := shutdown_cases h.inv
    exact .inr ⟨_, by simp [step, hrun, lift, bind, Except.bind]; rfl, .shutdown hsd⟩
  | setObserver attach => exact .inr ⟨_, rfl, .setObserver attach⟩

/-- A step that is taken is one of the transitions. -/
theorem SysInv.transition_of_step (h : SysInv s) (hstep : s.step a = .ok s') :
    Transition s a s' := by
  rcases step_cases h a with herr | ⟨s'', hok, ht⟩
  · exact nomatch herr.symm.trans hstep
  · obtain rfl := Except.ok.inj (hok.symm.trans hstep)
    exact ht

/-! ## The initial states -/

/-- What the constructor of the controller leaves. -/
theorem init_cases {tenants : List TenantContext} {globalMaxInflight globalMaxQueue : Int}
    {timeout : Rat} {observed : Bool}
    (h : AdmissionController.init tenants globalMaxInflight globalMaxQueue timeout observed = .ok c) :
    (∀ {t st}, c.tenants.get? t = some st →
      st.tenant.tenantId = t ∧ st.inflight = 0 ∧ st.queue = []) ∧
    c.globalInflight = 0 ∧ c.globalQueued = 0 ∧ c.activeTenants = [] ∧ c.activeTenantIds = ∅ ∧
    c.closed = false ∧ c.leases = [] ∧ ∀ w, c.futures w = .pending := by
  simp only [AdmissionController.init] at h
  split at h
  · exact nomatch h
  · split at h
    · exact nomatch h
    · obtain rfl := Except.ok.inj h
      refine ⟨fun {t st} hst => ?_, rfl, rfl, rfl, rfl, rfl, rfl, fun _ => rfl⟩
      have hmem := Dict.mem_of_get?_ofList (hst : (Dict.ofList _).get? t = some st)
      obtain ⟨tenant, -, heq⟩ := List.mem_map.mp hmem
      obtain ⟨rfl, rfl⟩ := Prod.mk.inj heq
      exact ⟨rfl, rfl, rfl⟩

theorem SysInv.init (h : Init s) : SysInv s := by
  obtain ⟨hcalls, tenants, globalMaxInflight, globalMaxQueue, timeout, observed, hinit⟩ := h
  obtain ⟨hst, hinflight, hqueued, hring, hids, hopen, hleases, hfut⟩ := init_cases hinit
  have hqueue : ∀ {t st w}, s.controller.tenants.get? t = some st → w ∉ st.queue :=
    fun hg => by simp [(hst hg).2.2]
  refine ⟨⟨?_, ?_, fun hg => (hst hg).1, fun {t st} hg => ?_, fun {t st} hg => ?_, ?_, ?_, ?_, ?_,
    ?_, fun _ hg hne => absurd (hst hg).2.2 hne, ?_, ?_, fun {t st} hg => ?_,
    fun hg _ hw => absurd hw (hqueue hg), fun hg hw => absurd hw (hqueue hg), fun {t st} hg => ?_,
    ?_, ?_⟩, .inr ?_, fun hg hw => absurd hw (hqueue hg), ?_, fun _ => hfut _, ⟨?_, ?_⟩, ?_⟩
  · rw [hinflight, Dict.sum_eq_zero fun t st hg => (hst hg).2.1]
  · rw [hqueued, Dict.sum_eq_zero fun t st hg => by simp [(hst hg).2.2]]
  · rw [(hst hg).2.1]
    exact le_of_lt st.tenant.maxInflight_pos
  · rw [(hst hg).2.2]
    exact st.tenant.maxQueue_nonneg
  · rw [hinflight]
    exact le_of_lt s.controller.limits.globalMaxInflight_pos
  · rw [hqueued]
    exact s.controller.limits.globalMaxQueue_nonneg
  · simp [hring]
  · simp [hring, hids]
  · simp [hring]
  · simp [hring]
  · simp [hopen]
  · simp [(hst hg).2.2]
  · simp [(hst hg).2.1, held, hleases]
  · simp [hinflight, heldTotal, hleases]
  · simp [hleases]
  · simp [hring]
  · rintro w t ⟨d, k, hw⟩
    simp [hcalls] at hw
  · intro w l hl
    simp [hfut] at hl
  · intro w w' l hl
    simp [hfut] at hl
  · simp [hcalls]

/-- The invariant holds initially and every step preserves it. -/
theorem sysInv_inductive : lts.Inductive SysInv where
  init _ h := .init h
  step _ _ _ h _ hstep := h.transition (h.transition_of_step hstep)

theorem SysInv.of_reachable (h : lts.Reachable s) : SysInv s := sysInv_inductive.holds h

/-! ## A concrete system -/

/-- A gateway with one slot and two tenants, `a` with two slots of its own. -/
def sample : AdmissionSystem where
  controller :=
    { tenants := Dict.ofList
        [("a", ⟨⟨"a", 2, 4, by decide, by decide⟩, 0, []⟩),
          ("b", ⟨⟨"b", 1, 4, by decide, by decide⟩, 0, []⟩)]
      limits := ⟨1, 8, by decide, by decide⟩
      globalInflight := 0
      globalQueued := 0
      activeTenants := []
      activeTenantIds := ∅
      closed := false
      observer := none
      futures := fun _ => .pending
      leases := [] }
  calls := []

theorem sample_init : Init sample :=
  ⟨rfl, [⟨"a", 2, 4, by decide, by decide⟩, ⟨"b", 1, 4, by decide, by decide⟩], 1, 8, 1, false, rfl⟩

/-- The sample after some actions. -/
def after (as : List AdmissionAction) : AdmissionSystem :=
  (Lts.exec step sample as).toOption.getD sample

theorem after_reachable (as : List AdmissionAction) : lts.Reachable (after as) := by
  unfold after
  cases h : Lts.exec step sample as with
  | ok s => exact Lts.reachable_of_exec sample_init h
  | error _ => exact .init sample_init

/-! ## The representation invariant -/

/-- What the counters, the queues, the limits, the ring and its set have to do with
    each other. -/
structure Representation (c : AdmissionController) : Prop where
  inflight_sum : c.globalInflight = c.tenants.sum (·.inflight)
  queued_sum : c.globalQueued = c.tenants.sum (·.queue.length)
  tenant_bounds : ∀ t st, c.tenants.get? t = some st →
    st.inflight ≤ st.tenant.maxInflight ∧ st.queue.length ≤ st.tenant.maxQueue
  globalInflight_le : c.globalInflight ≤ c.limits.globalMaxInflight
  globalQueued_le : c.globalQueued ≤ c.limits.globalMaxQueue
  active_nodup : c.activeTenants.Nodup
  active_ids : ∀ t, t ∈ c.activeTenants ↔ t ∈ c.activeTenantIds
  active_of_queue : c.closed = false → ∀ t st, c.tenants.get? t = some st → st.queue ≠ [] →
    t ∈ c.activeTenants

theorem Representation.of_inv (h : Inv c) : Representation c where
  inflight_sum := h.inflight_sum
  queued_sum := h.queued_sum
  tenant_bounds _ _ hst := ⟨h.inflight_le hst, h.queue_le hst⟩
  globalInflight_le := h.globalInflight_le
  globalQueued_le := h.globalQueued_le
  active_nodup := h.active_nodup
  active_ids := h.active_ids
  active_of_queue hopen _ _ := h.active_of_queue hopen

/-- In every reachable state the representation invariant holds, and no step from
    it raises an error of the bookkeeping. -/
theorem representation_invariant (h : lts.Reachable s) :
    Representation s.controller ∧ ∀ a f, s.step a ≠ .error (.fault f) := by
  have hinv := SysInv.of_reachable h
  refine ⟨Representation.of_inv hinv.inv, fun a f herr => ?_⟩
  rcases step_cases hinv a with hdis | ⟨s', hok, -⟩
  · exact nomatch hdis.symm.trans herr
  · exact nomatch hok.symm.trans herr

theorem representation_invariant_after :
    Representation (after [.acquire "a", .acquire "b", .release 0]).controller ∧
      ∀ a f, (after [.acquire "a", .acquire "b", .release 0]).step a ≠ .error (.fault f) :=
  representation_invariant (after_reachable _)

/-! ## No lost wakeup -/

/-- In every reachable state, a tenant below its limit with a live queued waiter
    finds the gateway full. -/
theorem work_conserving (h : lts.Reachable s) :
    ¬∃ t st, s.controller.tenants.get? t = some st ∧
      (∃ w ∈ st.queue, s.controller.waiterDone w = false) ∧
      st.inflight < st.tenant.maxInflight ∧
      s.controller.globalInflight < s.controller.limits.globalMaxInflight := by
  rintro ⟨t, st, hst, hlive, hmax, hcap⟩
  have hinv := SysInv.of_reachable h
  have := hinv.inv.saturated hinv.settled t st hst hlive hmax
  omega

theorem work_conserving_after :
    ¬∃ t st, (after [.acquire "a", .acquire "b"]).controller.tenants.get? t = some st ∧
      (∃ w ∈ st.queue, (after [.acquire "a", .acquire "b"]).controller.waiterDone w = false) ∧
      st.inflight < st.tenant.maxInflight ∧
      (after [.acquire "a", .acquire "b"]).controller.globalInflight <
        (after [.acquire "a", .acquire "b"]).controller.limits.globalMaxInflight :=
  work_conserving (after_reachable _)

end AdmissionSystem

end Gateway
