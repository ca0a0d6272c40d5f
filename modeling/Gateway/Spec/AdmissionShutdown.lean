import Gateway.Spec.AdmissionOrder

/-!
# Shutdown is final

A waiting call whose future is pending is queued (`PendingLive`), so `shutdown`
fails the future of every call that is still unresolved. Afterwards the queues and
the ring stay empty: the handlers of the calls that were waiting find nothing to
remove and nothing to dispatch, and all that still changes is which leases are
released (`ClosedStep`).

## Key results

- `PendingLive.transition`: no call waits unresolved outside a queue
- `closedStep_of_step`: what a step of a closed controller can do
- `Drained.closedStep`, `Resolving.closedStep`: what those steps preserve
- `shutdown_final`: every run from a shutdown
-/

namespace Gateway

namespace AdmissionController

variable {c c' : AdmissionController} {t : String} {w : WaiterId} {lease : LeaseId} {b : Bool}

/-- A closed controller dispatches nothing. -/
theorem Dispatch.eq_of_closed (hd : Dispatch c c') (hclosed : c.closed = true) : c' = c := by
  cases hd with
  | refl => rfl
  | step hopen => exact absurd (hopen.symm.trans hclosed) (by decide)

/-- A closed controller has nobody queued that could be removed. -/
theorem Removed.eq_of_closed (hr : Removed c t w b c') (h : Inv c) (hclosed : c.closed = true) :
    c' = c := by
  cases hr with
  | absent => rfl
  | removed obs hst hw =>
    rw [h.closed_queue hclosed hst] at hw
    exact nomatch hw

theorem Released.closed_eq (hr : Released c lease c') : c'.closed = c.closed := by
  cases hr <;> rfl

theorem Released.globalQueued_eq (hr : Released c lease c') : c'.globalQueued = c.globalQueued := by
  cases hr <;> rfl

theorem GivenBack.closed_eq (hg : GivenBack c w c') : c'.closed = c.closed := by
  cases hg with
  | nothing => rfl
  | lease hf hr => exact hr.closed_eq

theorem GivenBack.futures_eq (hg : GivenBack c w c') : c'.futures = c.futures := by
  cases hg with
  | nothing => rfl
  | lease hf hr => exact hr.futures_eq

/-- Nobody waits once the controller is closed. -/
theorem Inv.globalQueued_of_closed (h : Inv c) (hclosed : c.closed = true) :
    c.globalQueued = 0 := by
  rw [h.queued_sum]
  apply Dict.sum_eq_zero
  intro t st hst
  simp [h.closed_queue hclosed hst]

end AdmissionController

namespace AdmissionSystem

open AdmissionController

variable {s s' s₁ s₂ : AdmissionSystem} {a : AdmissionAction} {c c' : AdmissionController}
  {w : WaiterId} {l : LeaseId} {t : String} {call : AcquireCall}
  {ok : AdmissionSystem → AdmissionAction → Prop}

/-! ## Unresolved calls are queued -/

/-- A call that waits for a pending future has not been interrupted, and is in its
    tenant's queue. -/
def PendingLive (s : AdmissionSystem) : Prop :=
  ∀ w t d k, s.calls[w]? = some (.waiting t d k) → s.controller.futures w = .pending →
    d = false ∧ k = false ∧ Live s.controller t w

/-- A section that only grants to live waiters, and completes no other future. -/
theorem PendingLive.evolve (hp : PendingLive s) (hs : ServesFirst s.controller c')
    {R : LeaseId → Prop} (he : Evolves R s.controller c') : PendingLive ⟨c', s.calls⟩ := by
  intro w t d k hw hpending
  have hbefore : s.controller.futures w = .pending := by
    rcases he.future w with hf | ⟨-, l, hl, -⟩
    · exact hf.symm.trans hpending
    · exact nomatch hl.symm.trans hpending
  obtain ⟨hd, hk, hlive⟩ := hp w t d k hw hbefore
  rcases hs.stays hlive with hlive | ⟨l, ⟨-, hl⟩, -⟩
  · exact ⟨hd, hk, hlive⟩
  · exact nomatch hl.symm.trans hpending

/-- A call that ends waits no more. -/
theorem PendingLive.finish (hp : PendingLive s) (hcall : ∀ t d k, call ≠ .waiting t d k) :
    PendingLive ⟨s.controller, s.calls.set w call⟩ := by
  intro w' t d k hw' hpending
  refine hp w' t d k ?_ hpending
  rw [List.getElem?_set] at hw'
  split at hw'
  · split at hw'
    · exact absurd (Option.some.inj hw') (hcall t d k)
    · exact nomatch hw'
  · exact hw'

/-- A new call that does not wait. -/
theorem PendingLive.start (hp : PendingLive s) (hcall : ∀ t d k, call ≠ .waiting t d k) :
    PendingLive ⟨s.controller, s.calls ++ [call]⟩ := by
  intro w' t d k hw' hpending
  refine hp w' t d k ?_ hpending
  rw [List.getElem?_append] at hw'
  split at hw'
  · exact hw'
  · exact absurd (List.mem_singleton.mp (List.mem_of_getElem? hw')).symm (hcall t d k)

theorem interrupt_futures : (s.interrupt w call).controller.futures =
    Function.update s.controller.futures w (s.controller.futures w).cancel := rfl

/-- The future of an interrupted call is done. -/
theorem PendingLive.interrupt (hp : PendingLive s) : PendingLive (s.interrupt w call) := by
  intro w' t d k hw' hpending
  have hne : w' ≠ w := by
    rintro rfl
    have hdone : ((s.controller.futures w').cancel).done = true := Future.done_cancel _
    rw [interrupt_futures, Function.update_self] at hpending
    simp [hpending] at hdone
  have hf : s.controller.futures w' = .pending := by
    rwa [interrupt_futures, Function.update_of_ne hne] at hpending
  rw [AdmissionSystem.interrupt, List.getElem?_set_ne (Ne.symm hne)] at hw'
  obtain ⟨hd, hk, st, hst, hmem, -⟩ := hp w' t d k hw' hf
  refine ⟨hd, hk, st, hst, hmem, ?_⟩
  simp only [waiterDone, hpending, Future.done_pending]

/-- Queueing a new waiter makes it live and keeps the others live. -/
theorem PendingLive.enqueue (hp : PendingLive s) {st : TenantState}
    (hst : s.controller.tenants.get? t = some st) (obs : Option (List AdmissionStateChanged)) :
    PendingLive ⟨s.controller.enqueue t st.queue s.calls.length obs,
      s.calls ++ [.waiting t false false]⟩ := by
  intro w' t' d k hw' hpending
  have hdone : s.controller.waiterDone w' = false := by
    rw [waiterDone, show s.controller.futures w' = .pending from hpending, Future.done_pending]
  rw [List.getElem?_append] at hw'
  rw [AdmissionController.enqueue, live_setQueue hst]
  split at hw'
  · obtain ⟨hd, hk, st', hst', hmem, -⟩ := hp w' t' d k hw' hpending
    refine ⟨hd, hk, ?_⟩
    by_cases ht : t = t'
    · subst ht
      obtain rfl := Option.some.inj (hst.symm.trans hst')
      exact .inl ⟨rfl, List.mem_append_left _ hmem, hdone⟩
    · exact .inr ⟨ht, st', hst', hmem, hdone⟩
  · next hge =>
    have hwaiting := List.mem_singleton.mp (List.mem_of_getElem? hw')
    obtain ⟨rfl, rfl, rfl⟩ := AcquireCall.waiting.inj hwaiting
    have hlt := (List.getElem?_eq_some_iff.mp hw').1
    rw [List.length_singleton] at hlt
    obtain rfl : w' = s.calls.length := Nat.le_antisymm (by omega) (not_lt.mp hge)
    exact ⟨rfl, rfl, .inl ⟨rfl, List.mem_append_right _ (List.mem_singleton.mpr rfl), hdone⟩⟩

theorem PendingLive.acquired (hp : PendingLive s) (h : SysInv s) (ho : Ordered s.controller)
    {adm : Admission} (hacq : Acquired s.controller s.calls.length t adm c') :
    PendingLive ⟨c', s.calls ++ [adm.call t]⟩ := by
  cases hacq with
  | rejected he hd hs =>
    have hev : Evolves (fun _ => False) _ _ := hd.evolves h.inv
    exact (hp.evolve (hd.servesFirst h.inv ho) hev).start nofun
  | @granted c₁ st obs hd hs hst hq hmax hcap =>
    have hev : Evolves (fun _ => False) _ _ := hd.evolves h.inv
    have hstart : PendingLive ⟨c₁, s.calls ++ [.returned c₁.leases.length]⟩ :=
      (hp.evolve (hd.servesFirst h.inv ho) hev).start nofun
    intro w' t' d k hw' hpending
    obtain ⟨hd, hk, hlive⟩ := hstart w' t' d k hw' hpending
    exact ⟨hd, hk, (live_addLease false obs t' w').mpr hlive⟩
  | @queued c₁ _ st obs hopen hd hs hst hlen hglobal hs' hd' =>
    have hev : Evolves (fun _ => False) s.controller c₁ := hd.evolves h.inv
    have h₂ := (h.dispatch hd hs).enqueue hopen hst hlen hglobal hs'
    have hp₂ := (hp.evolve (hd.servesFirst h.inv ho) hev).enqueue hst obs
    have ho₂ : Ordered (c₁.enqueue t st.queue s.calls.length obs) :=
      ho.acquired (.queued obs hopen hd hs hst hlen hglobal hs' (.refl _))
        fun v hv => h.queued_lt hv
    have hev' : Evolves (fun _ => False) _ _ := hd'.evolves h₂.inv
    exact hp₂.evolve (hd'.servesFirst h₂.inv ho₂) hev'

/-- Every step keeps the unresolved calls queued. -/
theorem PendingLive.transition (hp : PendingLive s) (h : SysInv s) (ho : Ordered s.controller)
    (ht : Transition s a s') : PendingLive s' := by
  cases ht with
  | acquire hacq => exact hp.acquired h ho hacq
  | deadline | cancel => exact hp.interrupt
  | value | failed => exact hp.finish nofun
  | timedOut hw hdone hr hd hs =>
    have hinv := h.inv.removed hr
    have hserves := (hr.servesFirst hdone).trans (hd.servesFirst hinv (ho.thinner hr.thinner))
    have hev : Evolves (fun _ => False) _ _ := hr.evolves.trans hinv (hd.evolves hinv)
    exact (hp.evolve hserves hev).finish nofun
  | cancelled hw hdone hk hr hg hd hs =>
    have hinv := h.inv.removed hr
    have hinv' := hinv.givenBack hg
    have hserves := ((hr.servesFirst hdone).trans hg.servesFirst).trans
      (hd.servesFirst hinv' ((ho.thinner hr.thinner).thinner hg.thinner))
    have hev : Evolves (fun _ => True) _ _ := hr.evolves.trans hinv
      ((hg.evolves fun _ _ => trivial).trans hinv' (hd.evolves hinv'))
    exact (hp.evolve hserves hev).finish nofun
  | release hret hr hd hs =>
    have hinv := h.inv.released hr
    have hserves := hr.servesFirst.trans (hd.servesFirst hinv (ho.thinner hr.thinner))
    have hev : Evolves (fun _ => True) _ _ := (hr.evolves trivial).trans hinv (hd.evolves hinv)
    exact hp.evolve hserves hev
  | shutdown hsd =>
    cases hsd with
    | again => exact hp
    | closed hopen obs =>
      intro w t d k hw hpending
      rcases closeAll_futures (c := s.controller) w obs with ⟨hf, hnot⟩ | ⟨hf, -⟩
      · have hbefore := hf.symm.trans hpending
        obtain ⟨-, -, st, hst, hmem, -⟩ := hp w t d k hw hbefore
        exact absurd ⟨⟨t, st, hst, hmem⟩, hbefore⟩ hnot
      · exact nomatch hf.symm.trans hpending
  | setObserver attach => exact fun w t d k hw hpending => hp w t d k hw hpending

/-- What is needed of a state to shut it down. -/
theorem pendingLive_inductive :
    lts.Inductive fun s => (SysInv s ∧ Ordered s.controller) ∧ PendingLive s :=
  ordered_inductive.and
    (fun s hinit w t d k hw => by simp [hinit.1] at hw)
    fun _ _ _ h hp _ hstep => hp.transition h.1 h.2 (h.1.transition_of_step hstep)

/-! ## The steps of a closed controller -/

/-- What one step can do once the controller is closed. -/
inductive ClosedStep (s : AdmissionSystem) : AdmissionAction → AdmissionSystem → Prop
  | acquire (t : String) : ClosedStep s (.acquire t)
      ⟨s.controller, s.calls ++ [.raised .admissionUnavailable]⟩
  | deadline {w : WaiterId} {t : String} {k : Bool}
      (hw : s.calls[w]? = some (.waiting t false k)) :
      ClosedStep s (.deadline w) (s.interrupt w (.waiting t true k))
  | cancel {w : WaiterId} {t : String} {d k : Bool} (hw : s.calls[w]? = some (.waiting t d k)) :
      ClosedStep s (.cancel w) (s.interrupt w (.waiting t d true))
  | value {w : WaiterId} {t : String} {lease : LeaseId}
      (hw : s.calls[w]? = some (.waiting t false false))
      (hf : s.controller.futures w = .result lease) :
      ClosedStep s (.resume w) ⟨s.controller, s.calls.set w (.returned lease)⟩
  | failed {w : WaiterId} {t : String} {e : AdmissionError}
      (hw : s.calls[w]? = some (.waiting t false false))
      (hf : s.controller.futures w = .exception e) :
      ClosedStep s (.resume w) ⟨s.controller, s.calls.set w (.raised e)⟩
  | timedOut {w : WaiterId} {t : String} (hw : s.calls[w]? = some (.waiting t true false)) :
      ClosedStep s (.resume w) ⟨s.controller, s.calls.set w (.raised .admissionTimeout)⟩
  | cancelled {w : WaiterId} {t : String} {d k : Bool} {c' : AdmissionController}
      (hw : s.calls[w]? = some (.waiting t d k))
      (hk : k = true ∨ s.controller.futures w = .cancelled) (hg : GivenBack s.controller w c') :
      ClosedStep s (.resume w) ⟨c', s.calls.set w .cancelled⟩
  | release {lease : LeaseId} {c' : AdmissionController}
      (hr : Released s.controller lease c') : ClosedStep s (.release lease) ⟨c', s.calls⟩
  | shutdown : ClosedStep s .shutdown s
  | setObserver (attach : Bool) :
      ClosedStep s (.setObserver attach) ⟨s.controller.setObserver attach, s.calls⟩

/-- An `acquire` of a closed controller is refused. -/
theorem acquire_of_closed (hclosed : s.controller.closed = true) (t : String) :
    s.step (.acquire t) = .ok ⟨s.controller, s.calls ++ [.raised .admissionUnavailable]⟩ := by
  simp only [step, startCall, acquireLocked, hclosed, if_true, lift, bind, Except.bind]
  rfl

theorem closedStep_of_step (h : SysInv s) (hclosed : s.controller.closed = true)
    (hstep : s.step a = .ok s') : ClosedStep s a s' := by
  cases h.transition_of_step hstep with
  | @acquire t adm c' hacq =>
    rw [← Except.ok.inj ((acquire_of_closed hclosed t).symm.trans hstep)]
    exact .acquire t
  | deadline hw => exact .deadline hw
  | cancel hw => exact .cancel hw
  | value hw hf => exact .value hw hf
  | failed hw hf => exact .failed hw hf
  | timedOut hw hdone hr hd hs =>
    obtain rfl := hr.eq_of_closed h.inv hclosed
    obtain rfl := hd.eq_of_closed hclosed
    exact .timedOut hw
  | cancelled hw hdone hk hr hg hd hs =>
    obtain rfl := hr.eq_of_closed h.inv hclosed
    obtain rfl := hd.eq_of_closed (hg.closed_eq.trans hclosed)
    exact .cancelled hw hk hg
  | release hret hr hd hs =>
    obtain rfl := hd.eq_of_closed (hr.closed_eq.trans hclosed)
    exact .release hr
  | shutdown hsd =>
    cases hsd with
    | again => exact .shutdown
    | closed hopen => exact absurd (hopen.symm.trans hclosed) (by decide)
  | setObserver attach => exact .setObserver attach

/-! ## The leases -/

/-- The controller is closed, and its leases are those of `c`, some of them released
    since. -/
structure Drained (c : AdmissionController) (s : AdmissionSystem) : Prop where
  closed : s.controller.closed = true
  length : s.controller.leases.length = c.leases.length
  kept : ∀ {l : LeaseId} {a : AdmissionLease}, c.leases[l]? = some a →
    ∃ a', s.controller.leases[l]? = some a' ∧ a'.tenantId = a.tenantId ∧
      a'.wasQueued = a.wasQueued ∧ (a.released = true → a'.released = true)

theorem Drained.released {lease : LeaseId} (h : Drained c s)
    (hr : Released s.controller lease c') (calls : List AcquireCall) :
    Drained c ⟨c', calls⟩ where
  closed := hr.closed_eq.trans h.closed
  length := by
    cases hr with
    | again => exact h.length
    | dropped => simpa using h.length
  kept ha := by
    obtain ⟨a', ha', ht, hq, hrel⟩ := h.kept ha
    have hev : Evolves (fun _ => True) _ _ := hr.evolves trivial
    obtain ⟨a'', ha'', ht', hrel', -⟩ := hev.lease ha'
    obtain ⟨a₃, ha₃, -, hq'⟩ := hr.servesFirst.lease ha'
    obtain rfl := Option.some.inj (ha₃.symm.trans ha'')
    exact ⟨_, ha'', ht'.trans ht, hq'.trans hq, fun h => hrel' (hrel h)⟩

/-- Nothing that happens after a shutdown grants a lease or opens the controller. -/
theorem Drained.closedStep (h : Drained c s) (hstep : ClosedStep s a s') : Drained c s' := by
  cases hstep with
  | acquire | deadline | cancel | value | failed | timedOut | setObserver =>
    exact ⟨h.closed, h.length, h.kept⟩
  | shutdown => exact h
  | cancelled hw hk hg =>
    cases hg with
    | nothing => exact ⟨h.closed, h.length, h.kept⟩
    | lease hf hr => exact h.released hr _
  | release hr => exact h.released hr _

/-! ## The calls that were waiting -/

/-- A call that was unresolved at the shutdown: its future has the error, and it has
    ended with it unless a deadline or a cancellation of its own came first. -/
inductive Resolving (ok : AdmissionSystem → AdmissionAction → Prop) (s : AdmissionSystem)
    (w : WaiterId) : Prop
  | waiting {t : String} {d k : Bool} (hw : s.calls[w]? = some (.waiting t d k))
      (hf : s.controller.futures w = .exception .admissionUnavailable)
      (hd : d = true → ∃ s, ok s (.deadline w)) (hk : k = true → ∃ s, ok s (.cancel w))
  | unavailable (hw : s.calls[w]? = some (.raised .admissionUnavailable))
  | timedOut (hw : s.calls[w]? = some (.raised .admissionTimeout)) (hd : ∃ s, ok s (.deadline w))
  | cancelled (hw : s.calls[w]? = some .cancelled) (hk : ∃ s, ok s (.cancel w))

/-- A step that leaves the call and its future alone. -/
theorem Resolving.congr (h : Resolving ok s w) (hcall : s'.calls[w]? = s.calls[w]?)
    (hf : s'.controller.futures w = s.controller.futures w) : Resolving ok s' w := by
  cases h with
  | waiting hw hfut hd hk => exact .waiting (hcall.trans hw) (hf.trans hfut) hd hk
  | unavailable hw => exact .unavailable (hcall.trans hw)
  | timedOut hw hd => exact .timedOut (hcall.trans hw) hd
  | cancelled hw hk => exact .cancelled (hcall.trans hw) hk

/-- A call that has ended takes no further step. -/
theorem Resolving.of_waiting (h : Resolving ok s w) {d k : Bool}
    (hw : s.calls[w]? = some (.waiting t d k)) :
    s.controller.futures w = .exception .admissionUnavailable ∧
      (d = true → ∃ s, ok s (.deadline w)) ∧ (k = true → ∃ s, ok s (.cancel w)) := by
  cases h with
  | waiting hw' hf hd hk =>
    obtain ⟨-, rfl, rfl⟩ := AcquireCall.waiting.inj (Option.some.inj (hw.symm.trans hw'))
    exact ⟨hf, hd, hk⟩
  | unavailable hw' | timedOut hw' _ | cancelled hw' _ => exact nomatch hw.symm.trans hw'

theorem Resolving.lt (h : Resolving ok s w) : w < s.calls.length := by
  cases h with
  | waiting hw | unavailable hw | timedOut hw | cancelled hw =>
    exact (List.getElem?_eq_some_iff.mp hw).1

/-- An error in the future survives the interruption of its call. -/
theorem Resolving.interrupt (h : Resolving ok s w) {v : WaiterId} {d k : Bool}
    (hv : s.calls[v]? = some (.waiting t d k)) {d' k' : Bool}
    (hd : v = w → d' = true → d = true ∨ ∃ s, ok s (.deadline w))
    (hk : v = w → k' = true → k = true ∨ ∃ s, ok s (.cancel w)) :
    Resolving ok (s.interrupt v (.waiting t d' k')) w := by
  by_cases hvw : v = w
  · subst hvw
    obtain ⟨hf, hd₀, hk₀⟩ := h.of_waiting hv
    refine .waiting (t := t) (d := d') (k := k') ?_ ?_ (fun h => ?_) (fun h => ?_)
    · exact List.getElem?_set_self h.lt
    · rw [interrupt_futures, Function.update_self, hf]
      rfl
    · exact (hd rfl h).elim hd₀ id
    · exact (hk rfl h).elim hk₀ id
  · refine h.congr (List.getElem?_set_ne hvw) ?_
    rw [interrupt_futures, Function.update_of_ne (Ne.symm hvw)]

/-- The end of a call, which is this one or another. -/
theorem Resolving.set (h : Resolving ok s w) {v : WaiterId}
    (hf : c'.futures = s.controller.futures)
    (hend : v = w → Resolving ok ⟨c', s.calls.set v call⟩ w) :
    Resolving ok ⟨c', s.calls.set v call⟩ w := by
  by_cases hvw : v = w
  · exact hend hvw
  · exact h.congr (List.getElem?_set_ne hvw) (by rw [hf])

theorem Resolving.closedStep (h : Resolving ok s w) (hok : ok s a) (hstep : ClosedStep s a s') :
    Resolving ok s' w := by
  cases hstep with
  | acquire t => exact h.congr (List.getElem?_append_left h.lt) rfl
  | deadline hv =>
    refine h.interrupt hv (fun hvw _ => .inr ⟨s, hvw ▸ hok⟩) (fun _ hk => .inl hk)
  | cancel hv =>
    refine h.interrupt hv (fun _ hd => .inl hd) (fun hvw _ => .inr ⟨s, hvw ▸ hok⟩)
  | value hv hf =>
    refine h.set rfl fun hvw => ?_
    subst hvw
    exact nomatch hf.symm.trans (h.of_waiting hv).1
  | failed hv hf =>
    refine h.set rfl fun hvw => ?_
    subst hvw
    obtain rfl := Future.exception.inj (hf.symm.trans (h.of_waiting hv).1)
    exact .unavailable (List.getElem?_set_self h.lt)
  | timedOut hv =>
    refine h.set rfl fun hvw => ?_
    subst hvw
    exact .timedOut (List.getElem?_set_self h.lt) ((h.of_waiting hv).2.1 rfl)
  | cancelled hv hk hg =>
    refine h.set hg.futures_eq fun hvw => ?_
    subst hvw
    obtain ⟨hf, -, hk₀⟩ := h.of_waiting hv
    rcases hk with hk | hcancelled
    · exact .cancelled (List.getElem?_set_self h.lt) (hk₀ hk)
    · exact nomatch hf.symm.trans hcancelled
  | release hr => exact h.congr rfl (by rw [hr.futures_eq])
  | shutdown => exact h
  | setObserver attach => exact h.congr rfl rfl

/-- `shutdown` fails every call that is still unresolved. -/
theorem Resolving.shutDown (h : SysInv s) (hp : PendingLive s)
    (hsd : ShutDown s.controller c') (hw : s.Waits w t)
    (hpending : s.controller.futures w = .pending) : Resolving ok ⟨c', s.calls⟩ w := by
  obtain ⟨d, k, hw⟩ := hw
  obtain ⟨rfl, rfl, st, hst, hmem, -⟩ := hp w t d k hw hpending
  cases hsd with
  | again hclosed =>
    rw [h.inv.closed_queue hclosed hst] at hmem
    exact nomatch hmem
  | closed hopen obs =>
    refine .waiting hw ?_ nofun nofun
    rcases closeAll_futures (c := s.controller) w obs with ⟨-, hnot⟩ | ⟨hf, -⟩
    · exact absurd ⟨⟨t, st, hst, hmem⟩, hpending⟩ hnot
    · exact hf

/-! ## Every run from a shutdown -/

/-- What every run from a shutdown of `s` leads to. -/
structure Final (ok : AdmissionSystem → AdmissionAction → Prop) (s s' : AdmissionSystem) :
    Prop where
  /-- a call unresolved at the shutdown gets `AdmissionUnavailableError`, or its own
      timeout or cancellation -/
  unresolved : ∀ w t, s.Waits w t → s.controller.futures w = .pending → Resolving ok s' w
  /-- and no call is left waiting -/
  resumes : ∀ w t, s'.Waits w t → ∃ s'', s'.step (.resume w) = .ok s'' ∧ ∀ t', ¬s''.Waits w t'
  /-- no lease is granted -/
  drained : Drained s.controller s'
  refused : ∀ t, s'.step (.acquire t) =
    .ok ⟨s'.controller, s'.calls ++ [.raised .admissionUnavailable]⟩
  queued : s'.controller.globalQueued = 0
  /-- the inflight counts are those of the leases that are not released yet -/
  inflight : s'.controller.globalInflight = s'.controller.heldTotal ∧
    ∀ t st, s'.controller.tenants.get? t = some st → st.inflight = s'.controller.held t
  /-- the first release of a lease takes one off both counts -/
  releases : ∀ l a, s'.controller.leases[l]? = some a → a.released = false →
    ∃ st obs, s'.controller.tenants.get? a.tenantId = some st ∧ 0 < st.inflight ∧
      0 < s'.controller.globalInflight ∧
      s'.controller.release l = .ok (s'.controller.dropLease l a obs)
  /-- and any further one does nothing -/
  again : ∀ l a, s'.controller.leases[l]? = some a → a.released = true →
    s'.controller.release l = .ok s'.controller

/-- In a closed controller a call that waits can end. -/
theorem resumes_of_closed (h : SysInv s) (hp : PendingLive s)
    (hclosed : s.controller.closed = true) (hw : s.Waits w t) :
    ∃ s', s.step (.resume w) = .ok s' ∧ ∀ t', ¬s'.Waits w t' := by
  have hlt := hw.lt
  obtain ⟨d, k, hw⟩ := hw
  have hdone : (s.controller.futures w).done = true := by
    by_contra hnot
    have hpending := Future.done_eq_false.mp (by simpa using hnot)
    obtain ⟨-, -, st, hst, hmem, -⟩ := hp w t d k hw hpending
    rw [h.inv.closed_queue hclosed hst] at hmem
    exact nomatch hmem
  obtain ⟨s', hrun, -⟩ := resume_run h hw hdone
  refine ⟨s', hrun, ?_⟩
  rintro t' ⟨d', k', hw'⟩
  cases closedStep_of_step h hclosed hrun with
  | value | failed | timedOut | cancelled =>
    rw [List.getElem?_set_self hlt] at hw'
    exact nomatch hw'

/-- A release in a closed controller only gives back the slot. -/
theorem release_of_closed (hclosed : c.closed = true) (l : LeaseId) :
    c.release l = c.releaseLocked l := by
  unfold AdmissionController.release
  cases hrun : c.releaseLocked l with
  | error f => rfl
  | ok c' =>
    have hclosed' : c'.closed = true := by
      simp only [releaseLocked] at hrun
      split at hrun
      · cases hrun
      split at hrun
      · exact Except.ok.inj hrun ▸ hclosed
      split at hrun
      · cases hrun
      split at hrun
      · cases hrun
      · exact Except.ok.inj hrun ▸ hclosed
    simp [bind, Except.bind, dispatchLocked, hclosed']

/-- Shutdown is final and drains exactly: in every run from it. -/
theorem shutdown_final (h : lts.Reachable s) (hstep : lts.Step s .shutdown s₁)
    (hrun : lts.RunVia ok s₁ s₂) : Final ok s s₂ := by
  obtain ⟨⟨hinv, -⟩, hp⟩ := pendingLive_inductive.holds h
  have hstart : SysInv s₁ ∧ Drained s.controller s₁ ∧
      ∀ w t, s.Waits w t → s.controller.futures w = .pending → Resolving ok s₁ w := by
    have ht := hinv.transition_of_step hstep
    refine ⟨hinv.transition ht, ?_⟩
    cases ht with
    | shutdown hsd =>
      refine ⟨?_, fun w t hw hpending => .shutDown hinv hp hsd hw hpending⟩
      cases hsd with
      | again hclosed => exact ⟨hclosed, rfl, fun ha => ⟨_, ha, rfl, rfl, id⟩⟩
      | closed hopen obs => exact ⟨rfl, rfl, fun ha => ⟨_, ha, rfl, rfl, id⟩⟩
  have hreach : lts.Reachable s₂ := hrun.run.reachableVia (h.step trivial hstep)
  obtain ⟨⟨hinv₂, -⟩, hp₂⟩ := pendingLive_inductive.holds hreach
  -- along the run the controller stays closed, so each step is one of those listed
  have hrest : Drained s.controller s₂ ∧
      ∀ w t, s.Waits w t → s.controller.futures w = .pending → Resolving ok s₂ w := by
    refine hrun.preserves (I := SysInv) (P := fun x => Drained s.controller x ∧
      ∀ w t, s.Waits w t → s.controller.futures w = .pending → Resolving ok x w)
      (sysInv_inductive.mono fun _ _ _ => trivial) hstart.1 ?_ hstart.2
    intro x a x' hx hpre hok hxstep
    have hclosedStep := closedStep_of_step hx hpre.1.closed hxstep
    exact ⟨hpre.1.closedStep hclosedStep,
      fun w t hw hpending => (hpre.2 w t hw hpending).closedStep hok hclosedStep⟩
  have hclosed := hrest.1.closed
  refine ⟨hrest.2, fun w t hw => resumes_of_closed hinv₂ hp₂ hclosed hw, hrest.1,
    acquire_of_closed hclosed, hinv₂.inv.globalQueued_of_closed hclosed,
    ⟨hinv₂.inv.heldTotal_eq, fun t st hst => hinv₂.inv.held_eq hst⟩, ?_, ?_⟩
  · intro l a ha hr
    obtain ⟨st, hst, hpos, hglobal⟩ := hinv₂.inv.held_pos ha hr
    obtain ⟨obs, hrel⟩ := releaseLocked_spec ha hr hst hpos hglobal
    exact ⟨st, obs, hst, hpos, hglobal, (release_of_closed hclosed l).trans hrel⟩
  · intro l a ha hr
    exact (release_of_closed hclosed l).trans (releaseLocked_of_released ha hr)

/-- A gateway shut down with a lease out and a call waiting, until both are done. -/
theorem shutdown_final_waiting :
    Final (fun _ _ => True) (after [.acquire "a", .acquire "b"])
      (after [.acquire "a", .acquire "b", .shutdown, .resume 1, .release 0]) :=
  shutdown_final (after_reachable _)
    (show lts.Step _ .shutdown (after [.acquire "a", .acquire "b", .shutdown]) from rfl)
    (.tail (a := .release 0) (.tail (a := .resume 1) .refl trivial rfl) trivial rfl)

end AdmissionSystem

end Gateway
