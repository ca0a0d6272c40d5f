import Gateway.Spec.AdmissionSystem

/-!
# Who owns the inflight slots

Every unreleased lease should have one owner: the caller it was returned to, or
the call whose future it arrived in and that has not resumed yet (`OwnedOnce`).

The `except asyncio.CancelledError` branch of `_acquire` gives back a lease that
arrived before the cancellation was delivered. The `except TimeoutError` branch
does not, so a call that times out after it was granted keeps a slot that nobody
can release. `NoLateTimeout` is the condition on a step that this does not happen.

## Key results

- `Ownership.evolve`, `Ownership.transition`: what the steps preserve
- `ownedOnce_iff_noLateTimeout`: on the runs without late timeouts the slots are
  owned exactly once, and the first late timeout breaks it
- `late_timeout_loses_slot`: a run that loses a slot
-/

namespace Gateway

open AdmissionController

/-- The call ended by raising. -/
def AcquireCall.failed : AcquireCall → Bool
  | .raised _ | .cancelled => true
  | _ => false

namespace AdmissionSystem

variable {s s' : AdmissionSystem} {a : AdmissionAction} {c c' c₁ c₂ c₃ : AdmissionController}
  {w w' : WaiterId} {l lease : LeaseId} {t : String} {b d k : Bool} {call : AcquireCall}

/-! ## Owners -/

/-- Whether the call number `w` has the lease: its caller was given it, or the call
    still waits on the future that holds it. -/
def hasLease (s : AdmissionSystem) (l : LeaseId) (w : WaiterId) : AcquireCall → Bool
  | .returned l' => l' = l
  | .waiting _ _ _ => s.controller.futures w = .result l
  | .raised _ | .cancelled => false

/-- Whether some call has the lease. -/
def owned (s : AdmissionSystem) (l : LeaseId) : Bool :=
  (List.range s.calls.length).any fun w => (s.calls[w]?).any (s.hasLease l w)

/-- The number of unreleased leases with property `p` that some call has. -/
def ownedCount (s : AdmissionSystem) (p : AdmissionLease → Bool) : Nat :=
  (List.range s.controller.leases.length).countP fun l =>
    s.owned l && (s.controller.leases[l]?).any fun a => !a.released && p a

/-- The call number `w` has the lease. -/
def Owns (s : AdmissionSystem) (w : WaiterId) (l : LeaseId) : Prop :=
  ∃ call, s.calls[w]? = some call ∧ s.hasLease l w call = true

/-- The lease has been released. -/
def LeaseReleased (s : AdmissionSystem) (l : LeaseId) : Prop :=
  ∃ a, s.controller.leases[l]? = some a ∧ a.released = true

/-- Every inflight slot has exactly one owner, and a call that raised has none. -/
structure OwnedOnce (s : AdmissionSystem) : Prop where
  global : s.controller.globalInflight = s.ownedCount fun _ => true
  tenant : ∀ t st, s.controller.tenants.get? t = some st →
    st.inflight = s.ownedCount fun a => a.tenantId = t
  unique : ∀ w w' l, s.Owns w l → s.Owns w' l → w = w'
  ended : ∀ w call, s.calls[w]? = some call → call.failed = true →
    ¬s.controller.Queued w ∧ ∀ l, s.controller.futures w = .result l → s.LeaseReleased l

/-- No call resumes by timing out on a future that holds a lease. -/
def NoLateTimeout (s : AdmissionSystem) : AdmissionAction → Prop
  | .resume w => ∀ t l, s.calls[w]? = some (.waiting t true false) →
    s.controller.futures w ≠ .result l
  | _ => True

theorem owned_iff : s.owned l = true ↔ ∃ w, s.Owns w l := by
  simp only [owned, List.any_eq_true, List.mem_range, Option.any_eq_true, Owns]
  constructor
  · rintro ⟨w, -, call, hcall, h⟩
    exact ⟨w, call, hcall, h⟩
  · rintro ⟨w, call, hcall, h⟩
    exact ⟨w, (List.getElem?_eq_some_iff.mp hcall).1, call, hcall, h⟩

/-- Counting positions is counting elements. -/
private theorem countP_range_getElem? {α : Type} (xs : List α) (q : α → Bool) :
    (List.range xs.length).countP (fun i => (xs[i]?).any q) = xs.countP q := by
  induction xs with
  | nil => rfl
  | cons x xs ih =>
    rw [List.length_cons, List.range_succ_eq_map, List.countP_cons, List.countP_map,
      List.countP_cons, ← ih]
    rfl

/-- With an owner for every unreleased lease, the owned leases are the unreleased
    ones. -/
theorem ownedCount_eq (hkept : ∀ {l a}, s.controller.leases[l]? = some a → a.released = false →
    ∃ w, s.Owns w l) (p : AdmissionLease → Bool) :
    s.ownedCount p = s.controller.leases.countP fun a => !a.released && p a := by
  rw [← countP_range_getElem?]
  refine List.countP_congr fun l hl => ?_
  have ha := List.getElem?_eq_getElem (List.mem_range.mp hl)
  simp only [ha, Option.any_some, Bool.and_eq_true]
  constructor
  · exact And.right
  · intro h
    exact ⟨owned_iff.mpr (hkept ha (by simpa using h.1)), h⟩

/-! ## The invariant of the ownership -/

/-- The call number `w` was granted the lease: it returned it, or its future
    received it. -/
def Granted (s : AdmissionSystem) (w : WaiterId) (l : LeaseId) : Prop :=
  s.calls[w]? = some (.returned l) ∨ s.controller.futures w = .result l

/-- The invariant behind `OwnedOnce`. -/
structure Ownership (s : AdmissionSystem) : Prop where
  kept : ∀ {l a}, s.controller.leases[l]? = some a → a.released = false → ∃ w, s.Owns w l
  unique : ∀ {w w' l}, s.Granted w l → s.Granted w' l → w = w'
  ended : ∀ {w call l}, s.calls[w]? = some call → call.failed = true →
    s.controller.futures w = .result l → s.LeaseReleased l

theorem Owns.granted (h : s.Owns w l) : s.Granted w l := by
  obtain ⟨call, hcall, hlease⟩ := h
  cases call with
  | returned l' =>
    obtain rfl : l' = l := by simpa [hasLease] using hlease
    exact .inl hcall
  | waiting => exact .inr (by simpa [hasLease] using hlease)
  | raised | cancelled => exact nomatch hlease

theorem Granted.lt (hg : s.Granted w l) (h : SysInv s) : l < s.controller.leases.length := by
  rcases hg with hret | hfut
  · exact h.returned_lt (List.mem_of_getElem? hret)
  · exact h.delivered.lt hfut

theorem Waits.not_failed (hw : s.Waits w t) (hcall : s.calls[w]? = some call) :
    call.failed = false := by
  obtain ⟨d, k, hw⟩ := hw
  obtain rfl := Option.some.inj (hw.symm.trans hcall)
  rfl

/-- A call that raised is in no queue. -/
theorem SysInv.not_queued_of_failed (h : SysInv s) (hcall : s.calls[w]? = some call)
    (hfail : call.failed = true) : ¬s.controller.Queued w := by
  rintro ⟨t, st, hst, hw⟩
  exact absurd ((h.queued hst hw).not_failed hcall) (by simp [hfail])

/-- The invariant gives every slot its one owner. -/
theorem Ownership.ownedOnce (h : Ownership s) (hs : SysInv s) : OwnedOnce s where
  global := by
    rw [ownedCount_eq h.kept, hs.inv.heldTotal_eq]
    simp [heldTotal]
  tenant t st hst := by
    rw [ownedCount_eq h.kept, hs.inv.held_eq hst]
    simp only [held, Bool.and_comm]
  unique w w' l hw hw' := h.unique hw.granted hw'.granted
  ended w call hcall hfail := ⟨hs.not_queued_of_failed hcall hfail, fun l => h.ended hcall hfail⟩

/-- A section of the controller that starts and ends no call. -/
theorem Ownership.evolve (h : Ownership s) (hs : SysInv s) {R : LeaseId → Prop}
    (he : Evolves R s.controller c') : Ownership ⟨c', s.calls⟩ where
  kept {l a'} ha' hr := by
    by_cases hlt : l < s.controller.leases.length
    · obtain ⟨a'', ha'', -, hmono, -⟩ := he.lease (List.getElem?_eq_getElem hlt)
      obtain rfl := Option.some.inj (ha''.symm.trans ha')
      have hr₀ : s.controller.leases[l].released = false := by
        by_contra hne
        exact absurd (hmono (by simpa using hne)) (by simp [hr])
      obtain ⟨w, call, hcall, hlease⟩ := h.kept (List.getElem?_eq_getElem hlt) hr₀
      refine ⟨w, call, hcall, ?_⟩
      cases call with
      | waiting =>
        have hf : s.controller.futures w = .result l := by simpa [hasLease] using hlease
        have hnq := hs.inv.not_queued (w := w) (by simp [hf]) (by simp [hf])
        simpa [hasLease, he.future_eq hnq] using hf
      | returned | raised | cancelled => exact hlease
    · -- a lease granted by the section sits in the future of a waiting call
      obtain ⟨⟨w, ⟨t, st, hst, hw⟩, hf⟩, -⟩ := he.granted (not_lt.mp hlt) ha'
      obtain ⟨d, k, hwait⟩ := hs.queued hst hw
      exact ⟨w, _, hwait, by simpa [hasLease] using hf⟩
  unique {w w' l} hw hw' := by
    have hcases : ∀ {x}, Granted ⟨c', s.calls⟩ x l →
        s.Granted x l ∨ (c'.futures x = .result l ∧ s.controller.leases.length ≤ l) := by
      rintro x (hret | hfut)
      · exact .inl (.inl hret)
      · rcases he.future x with hx | ⟨-, l', hl', hge⟩
        · exact .inl (.inr (hx.symm.trans hfut))
        · obtain rfl := Future.result.inj (hl'.symm.trans hfut)
          exact .inr ⟨hfut, hge⟩
    rcases hcases hw, hcases hw' with ⟨hold | ⟨hf, hge⟩, hold' | ⟨hf', hge'⟩⟩
    · exact h.unique hold hold'
    · exact absurd (hold.lt hs) (not_lt.mpr hge')
    · exact absurd (hold'.lt hs) (not_lt.mpr hge)
    · exact (he.delivered hs.delivered).inj hf hf'
  ended {w call l} hcall hfail hf := by
    have heq := he.future_eq (hs.not_queued_of_failed hcall hfail)
    obtain ⟨a, ha, hr⟩ := h.ended hcall hfail (heq.symm.trans hf)
    obtain ⟨a', ha', -, hmono, -⟩ := he.lease ha
    exact ⟨a', ha', hmono hr⟩

/-- A waiting call that ends by raising, without an unreleased lease. -/
theorem Ownership.fail (h : Ownership s) (hw : s.calls[w]? = some (.waiting t d k))
    (hfail : call.failed = true)
    (hrel : ∀ l, s.controller.futures w = .result l → s.LeaseReleased l) :
    Ownership ⟨s.controller, s.calls.set w call⟩ where
  kept {l a} ha hr := by
    obtain ⟨w', call', hcall, hlease⟩ := h.kept ha hr
    refine ⟨w', call', ?_, hlease⟩
    rw [List.getElem?_set_ne, hcall]
    rintro rfl
    -- the call that ends is not the owner
    obtain rfl := Option.some.inj (hw.symm.trans hcall)
    obtain ⟨a', ha', hr'⟩ := hrel l (by simpa [hasLease] using hlease)
    obtain rfl := Option.some.inj (ha.symm.trans ha')
    exact absurd hr' (by simp [hr])
  unique {x x' l} hx hx' := by
    have hold : ∀ {y}, Granted ⟨s.controller, s.calls.set w call⟩ y l → s.Granted y l := by
      rintro y (hret | hfut)
      · rw [List.getElem?_set] at hret
        split at hret
        · split at hret
          · obtain rfl := Option.some.inj hret
            exact nomatch hfail
          · exact nomatch hret
        · exact .inl hret
      · exact .inr hfut
    exact h.unique (hold hx) (hold hx')
  ended {x call' l} hcall hfail' hf := by
    rw [List.getElem?_set] at hcall
    split at hcall
    · next hx => exact hrel l (hx ▸ hf)
    · exact h.ended hcall hfail' hf

/-- A waiting call that returns the lease in its future. -/
theorem Ownership.value (h : Ownership s) (hw : s.calls[w]? = some (.waiting t d k))
    (hf : s.controller.futures w = .result lease) :
    Ownership ⟨s.controller, s.calls.set w (.returned lease)⟩ where
  kept {l a} ha hr := by
    obtain ⟨w', call', hcall, hlease⟩ := h.kept ha hr
    by_cases hww : w = w'
    · subst hww
      obtain rfl := Option.some.inj (hw.symm.trans hcall)
      have hl : s.controller.futures w = .result l := by simpa [hasLease] using hlease
      obtain rfl := Future.result.inj (hf.symm.trans hl)
      exact ⟨w, _, List.getElem?_set_self (List.getElem?_eq_some_iff.mp hw).1, by simp [hasLease]⟩
    · exact ⟨w', call', (List.getElem?_set_ne hww).trans hcall, hlease⟩
  unique {x x' l} hx hx' := by
    have hold : ∀ {y}, Granted ⟨s.controller, s.calls.set w (.returned lease)⟩ y l →
        s.Granted y l := by
      rintro y (hret | hfut)
      · rw [List.getElem?_set] at hret
        split at hret
        · next hy =>
          split at hret
          · obtain rfl := AcquireCall.returned.inj (Option.some.inj hret)
            exact .inr (hy ▸ hf)
          · exact nomatch hret
        · exact .inl hret
      · exact .inr hfut
    exact h.unique (hold hx) (hold hx')
  ended {x call' l} hcall hfail hx := by
    rw [List.getElem?_set] at hcall
    split at hcall
    · split at hcall
      · obtain rfl := Option.some.inj hcall
        exact nomatch hfail
      · exact nomatch hcall
    · exact h.ended hcall hfail hx

/-- A new call that was not given a lease. -/
theorem Ownership.start (h : Ownership s) (hs : SysInv s) (hret : ∀ l, call ≠ .returned l) :
    Ownership ⟨s.controller, s.calls ++ [call]⟩ where
  kept {l a} ha hr := by
    obtain ⟨w', call', hcall, hlease⟩ := h.kept ha hr
    exact ⟨w', call', (List.getElem?_append_left (List.getElem?_eq_some_iff.mp hcall).1).trans hcall,
      hlease⟩
  unique {x x' l} hx hx' := by
    have hold : ∀ {y}, Granted ⟨s.controller, s.calls ++ [call]⟩ y l → s.Granted y l := by
      rintro y (hmem | hfut)
      · rw [List.getElem?_append] at hmem
        split at hmem
        · exact .inl hmem
        · exact absurd (List.mem_singleton.mp (List.mem_of_getElem? hmem)).symm (hret l)
      · exact .inr hfut
    exact h.unique (hold hx) (hold hx')
  ended {x call' l} hcall hfail hx := by
    rw [List.getElem?_append] at hcall
    split at hcall
    · exact h.ended hcall hfail hx
    · next hlt =>
      -- the future of the new call is pending
      exact nomatch (hs.fresh (not_lt.mp hlt)).symm.trans hx

/-- An immediate grant to a new call. -/
theorem Ownership.immediate (h : Ownership s) (hs : SysInv s)
    (obs : Option (List AdmissionStateChanged)) :
    Ownership ⟨s.controller.addLease t false obs,
      s.calls ++ [.returned s.controller.leases.length]⟩ where
  kept {l a} ha hr := by
    rw [addLease_leases, List.getElem?_append] at ha
    split at ha
    · obtain ⟨w', call', hcall, hlease⟩ := h.kept ha hr
      have hlt := (List.getElem?_eq_some_iff.mp hcall).1
      exact ⟨w', call', (List.getElem?_append_left hlt).trans hcall, hlease⟩
    · next hlt =>
      have hl : l - s.controller.leases.length = 0 := by
        have := (List.getElem?_eq_some_iff.mp ha).1
        simpa using this
      obtain rfl : l = s.controller.leases.length :=
        Nat.le_antisymm (Nat.sub_eq_zero_iff_le.mp hl) (not_lt.mp hlt)
      exact ⟨s.calls.length, _, List.getElem?_concat_length, by simp [hasLease]⟩
  unique {x x' l} hx hx' := by
    have hcases : ∀ {y}, Granted ⟨s.controller.addLease t false obs,
        s.calls ++ [.returned s.controller.leases.length]⟩ y l →
        s.Granted y l ∨ (y = s.calls.length ∧ l = s.controller.leases.length) := by
      rintro y (hmem | hfut)
      · rw [List.getElem?_append] at hmem
        split at hmem
        · exact .inl (.inl hmem)
        · next hge =>
          have hy : y - s.calls.length = 0 := by
            have := (List.getElem?_eq_some_iff.mp hmem).1
            simpa using this
          have hl := AcquireCall.returned.inj (List.mem_singleton.mp (List.mem_of_getElem? hmem))
          exact .inr ⟨Nat.le_antisymm (Nat.sub_eq_zero_iff_le.mp hy) (not_lt.mp hge), hl⟩
      · exact .inl (.inr hfut)
    rcases hcases hx, hcases hx' with ⟨hold | ⟨rfl, hl⟩, hold' | ⟨rfl, hl'⟩⟩
    · exact h.unique hold hold'
    · exact absurd (hold.lt hs) (by simp [hl'])
    · exact absurd (hold'.lt hs) (by simp [hl])
    · rfl
  ended {x call' l} hcall hfail hx := by
    rw [List.getElem?_append] at hcall
    split at hcall
    · obtain ⟨a, ha, hr⟩ := h.ended hcall hfail hx
      have hlt := (List.getElem?_eq_some_iff.mp ha).1
      exact ⟨a, (List.getElem?_append_left hlt).trans ha, hr⟩
    · obtain rfl := List.mem_singleton.mp (List.mem_of_getElem? hcall)
      exact nomatch hfail

/-- The ownership only depends on the calls, the leases and which leases arrived. -/
theorem Ownership.congr (h : Ownership s) (hl : c'.leases = s.controller.leases)
    (hf : ∀ w l, c'.futures w = .result l ↔ s.controller.futures w = .result l) :
    Ownership ⟨c', s.calls⟩ where
  kept ha hr := by
    rw [hl] at ha
    obtain ⟨w, call, hcall, hlease⟩ := h.kept ha hr
    refine ⟨w, call, hcall, ?_⟩
    cases call with
    | waiting => simpa [hasLease, hf] using hlease
    | returned | raised | cancelled => exact hlease
  unique hw hw' := h.unique (hw.imp_right (hf _ _).mp) (hw'.imp_right (hf _ _).mp)
  ended hcall hfail hw := by
    obtain ⟨a, ha, hr⟩ := h.ended hcall hfail ((hf _ _).mp hw)
    exact ⟨a, hl ▸ ha, hr⟩

/-- A deadline or a cancellation is recorded on a waiting call. -/
theorem Ownership.interrupt (h : Ownership s) (hw : s.calls[w]? = some (.waiting t d k))
    (d' k' : Bool) : Ownership (s.interrupt w (.waiting t d' k')) where
  kept {l a} ha hr := by
    obtain ⟨w', call', hcall, hlease⟩ := h.kept ha hr
    by_cases hww : w = w'
    · subst hww
      obtain rfl := Option.some.inj (hw.symm.trans hcall)
      refine ⟨w, _, List.getElem?_set_self (List.getElem?_eq_some_iff.mp hw).1, ?_⟩
      simpa [hasLease, interrupt_result] using hlease
    · refine ⟨w', call', (List.getElem?_set_ne hww).trans hcall, ?_⟩
      cases call' with
      | waiting => simpa [hasLease, interrupt_result] using hlease
      | returned | raised | cancelled => exact hlease
  unique {x x' l} hx hx' := by
    have hold : ∀ {y}, Granted (s.interrupt w (.waiting t d' k')) y l → s.Granted y l := by
      rintro y (hret | hfut)
      · rw [AdmissionSystem.interrupt, List.getElem?_set] at hret
        split at hret
        · split at hret
          · cases hret
          · cases hret
        · exact .inl hret
      · exact .inr (interrupt_result.mp hfut)
    exact h.unique (hold hx) (hold hx')
  ended {x call' l} hcall hfail hx := by
    rw [AdmissionSystem.interrupt, List.getElem?_set] at hcall
    split at hcall
    · split at hcall
      · obtain rfl := Option.some.inj hcall
        cases hfail
      · cases hcall
    · exact h.ended hcall hfail (interrupt_result.mp hx)

/-- The first section of a new call. -/
theorem Ownership.acquired (h : Ownership s) (hs : SysInv s) {adm : Admission}
    (hacq : Acquired s.controller s.calls.length t adm c') :
    Ownership ⟨c', s.calls ++ [adm.call t]⟩ := by
  cases hacq with
  | rejected he hd hset =>
    have hev : Evolves (fun _ => False) _ _ := hd.evolves hs.inv
    exact (h.evolve hs hev).start (hs.dispatch hd hset) nofun
  | granted obs hd hset hst hq hmax hcap =>
    have hev : Evolves (fun _ => False) _ _ := hd.evolves hs.inv
    exact (h.evolve hs hev).immediate (hs.dispatch hd hset) obs
  | @queued c₁ _ st obs hopen hd hset hst hlen hglobal hset' hd' =>
    have hev : Evolves (fun _ => False) s.controller c₁ := hd.evolves hs.inv
    have hs₁ := hs.dispatch hd hset
    have hs₂ := hs₁.enqueue hopen hst hlen hglobal hset'
    have hev' : Evolves (fun _ => False) _ c' := hd'.evolves hs₂.inv
    have h₁ : Ownership ⟨c₁, s.calls ++ [.waiting t false false]⟩ :=
      (h.evolve hs hev).start hs₁ nofun
    have h₂ : Ownership ⟨c₁.enqueue t st.queue s.calls.length obs,
        s.calls ++ [.waiting t false false]⟩ := h₁.congr rfl fun _ _ => Iff.rfl
    exact h₂.evolve hs₂ hev'

/-- Every transition but a late timeout keeps the ownership. -/
theorem Ownership.transition (h : Ownership s) (hs : SysInv s) (hok : s.NoLateTimeout a)
    (ht : Transition s a s') : Ownership s' := by
  cases ht with
  | acquire hacq => exact h.acquired hs hacq
  | deadline hw => exact h.interrupt hw _ _
  | cancel hw => exact h.interrupt hw _ _
  | value hw hf => exact h.value hw hf
  | failed hw hf => exact h.fail hw rfl fun l hl => nomatch hf.symm.trans hl
  | @timedOut w t b c₁ c₂ hw hdone hr hd hset =>
    have hinv := hs.inv.removed hr
    have hev : Evolves (fun _ => False) c₁ c₂ := hd.evolves hinv
    refine (h.evolve hs (hr.evolves.trans hinv hev)).fail hw rfl fun l hl => ?_
    -- no lease had arrived in the future, and the dispatch delivers none to it
    have hnq : ¬c₁.Queued w := hs.removed_not_queued ⟨_, _, hw⟩ hr (.refl (R := fun _ => False) c₁)
    have hf : s.controller.futures w = .result l := by
      rw [← hr.futures_eq, ← hev.future_eq hnq]
      exact hl
    exact absurd hf (hok t l hw)
  | @cancelled w t b d k c₁ c₂ c₃ hw hdone hk hr hg hd hset =>
    have hinv := hs.inv.removed hr
    have hinv₂ := hinv.givenBack hg
    have hev : Evolves (fun _ => True) c₂ c₃ := hd.evolves hinv₂
    have hevg : Evolves (fun _ => True) c₁ c₂ := hg.evolves fun _ _ => trivial
    refine (h.evolve hs (hr.evolves.trans hinv (hevg.trans hinv₂ hev))).fail hw rfl fun l hl => ?_
    have hnq : ¬c₂.Queued w := hs.removed_not_queued ⟨_, _, hw⟩ hr hevg
    have hf : c₂.futures w = .result l := (hev.future_eq hnq).symm.trans hl
    -- the lease that had arrived was given back
    cases hg with
    | nothing hno => exact absurd hf (hno l)
    | lease hf' hrel =>
      rw [hrel.futures_eq] at hf
      obtain rfl := Future.result.inj (hf'.symm.trans hf)
      obtain ⟨a, ha, hra⟩ := hrel.released
      obtain ⟨a', ha', -, hmono, -⟩ := hev.lease ha
      exact ⟨a', ha', hmono hra⟩
  | release hret hr hd hset =>
    have hinv := hs.inv.released hr
    have hev : Evolves (fun _ => True) _ _ := (hr.evolves trivial).trans hinv (hd.evolves hinv)
    exact h.evolve hs hev
  | shutdown hsd =>
    cases hsd with
    | again => exact h
    | closed hopen obs => exact h.congr rfl fun _ _ => closeAll_result
  | setObserver attach => exact h.congr rfl fun _ _ => Iff.rfl

theorem Ownership.init (h : Init s) : Ownership s := by
  have hs := SysInv.init h
  obtain ⟨hcalls, tenants, globalMaxInflight, globalMaxQueue, timeout, observed, hinit⟩ := h
  obtain ⟨-, -, -, -, -, -, hleases, hfut⟩ := init_cases hinit
  refine ⟨fun ha => ?_, fun hw => ?_, fun hcall => ?_⟩
  · simp [hleases] at ha
  · simp [Granted, hcalls, hfut] at hw
  · simp [hcalls] at hcall

/-! ## Late timeouts -/

/-- A lease that waits in a future has not been released. -/
def HoldsFresh (s : AdmissionSystem) : Prop :=
  ∀ w t l a, s.Waits w t → s.controller.futures w = .result l →
    s.controller.leases[l]? = some a → a.released = false

theorem HoldsFresh.congr (h : HoldsFresh s)
    (hsub : ∀ w t l, s'.Waits w t → s'.controller.futures w = .result l → s.Waits w t ∧
      s.controller.futures w = .result l ∧ s'.controller.leases[l]? = s.controller.leases[l]?) :
    HoldsFresh s' := by
  intro w t l a hw hf ha
  obtain ⟨hw', hf', hl⟩ := hsub w t l hw hf
  exact h w t l a hw' hf' (hl ▸ ha)

/-- A section that releases none of the leases waiting in futures. -/
theorem HoldsFresh.evolve (h : HoldsFresh s) (hd : Delivered s.controller) {R : LeaseId → Prop}
    (he : Evolves R s.controller c')
    (hR : ∀ w t l, s.Waits w t → s.controller.futures w = .result l → ¬R l)
    (hlt : ∀ l, R l → l < s.controller.leases.length) : HoldsFresh ⟨c', s.calls⟩ := by
  intro w t l a hw hf ha
  by_contra hr
  rcases he.future w with hold | ⟨-, l', hl', hge⟩
  · have hf₀ := hold.symm.trans hf
    obtain ⟨a', ha', -, -, hrel⟩ := he.lease (List.getElem?_eq_getElem (hd.lt hf₀))
    obtain rfl := Option.some.inj (ha'.symm.trans ha)
    rcases hrel (by simpa using hr) with hr₀ | hRl
    · have := h w t l _ hw hf₀ (List.getElem?_eq_getElem (hd.lt hf₀))
      simp [hr₀] at this
    · exact hR w t l hw hf₀ hRl
  · obtain rfl := Future.result.inj (hl'.symm.trans hf)
    exact absurd (hlt _ ((he.granted hge ha).2 (by simpa using hr))) (not_lt.mpr hge)

/-- A call that ends has nothing left to wait for. -/
theorem HoldsFresh.set (h : HoldsFresh s) (hcall : ∀ t d k, call ≠ .waiting t d k) :
    HoldsFresh ⟨s.controller, s.calls.set w call⟩ := by
  refine h.congr fun w' t l hw hf => ⟨?_, hf, rfl⟩
  obtain ⟨d, k, hw⟩ := hw
  rw [List.getElem?_set] at hw
  split at hw
  · split at hw
    · exact absurd (Option.some.inj hw) (hcall t d k)
    · exact nomatch hw
  · exact ⟨d, k, hw⟩

/-- A new call waits for a future that holds nothing. -/
theorem HoldsFresh.start (h : HoldsFresh s) (hs : SysInv s) :
    HoldsFresh ⟨s.controller, s.calls ++ [call]⟩ := by
  refine h.congr fun w' t l hw hf => ⟨?_, hf, rfl⟩
  obtain ⟨d, k, hw⟩ := hw
  rw [List.getElem?_append] at hw
  split at hw
  · exact ⟨d, k, hw⟩
  · next hlt => exact nomatch (hs.fresh (not_lt.mp hlt)).symm.trans hf

theorem HoldsFresh.interrupt (h : HoldsFresh s) (hw : s.calls[w]? = some (.waiting t d k))
    (d' k' : Bool) : HoldsFresh (s.interrupt w (.waiting t d' k')) := by
  refine h.congr fun w' t' l hw' hf => ⟨?_, interrupt_result.mp hf, rfl⟩
  obtain ⟨d₁, k₁, hw'⟩ := hw'
  rw [AdmissionSystem.interrupt, List.getElem?_set] at hw'
  split at hw'
  · next hx =>
    split at hw'
    · obtain ⟨rfl, -, -⟩ := AcquireCall.waiting.inj (Option.some.inj hw')
      exact hx ▸ ⟨d, k, hw⟩
    · cases hw'
  · exact ⟨d₁, k₁, hw'⟩

theorem HoldsFresh.dispatch (h : HoldsFresh s) (hs : SysInv s) (hd : Dispatch s.controller c') :
    HoldsFresh ⟨c', s.calls⟩ :=
  h.evolve hs.delivered (hd.evolves hs.inv (R := fun _ => False)) (fun _ _ _ _ _ => id)
    fun _ => False.elim

theorem HoldsFresh.acquired (h : HoldsFresh s) (hs : SysInv s) {adm : Admission}
    (hacq : Acquired s.controller s.calls.length t adm c') :
    HoldsFresh ⟨c', s.calls ++ [adm.call t]⟩ := by
  cases hacq with
  | rejected he hd hset => exact (h.dispatch hs hd).start (hs.dispatch hd hset)
  | @granted c₁ st obs hd hset hst hq hmax hcap =>
    have hs₁ := hs.dispatch hd hset
    refine ((h.dispatch hs hd).start hs₁).congr fun w t l hw hf => ⟨hw, hf, ?_⟩
    exact List.getElem?_append_left (hs₁.delivered.lt hf)
  | @queued c₁ _ st obs hopen hd hset hst hlen hglobal hset' hd' =>
    have hs₁ := hs.dispatch hd hset
    have h₂ : HoldsFresh ⟨c₁.enqueue t st.queue s.calls.length obs,
        s.calls ++ [.waiting t false false]⟩ :=
      ((h.dispatch hs hd).start hs₁).congr fun _ _ _ hw hf => ⟨hw, hf, rfl⟩
    exact h₂.dispatch (hs₁.enqueue hopen hst hlen hglobal hset') hd'

/-- Every transition keeps the leases in futures unreleased. -/
theorem HoldsFresh.transition (h : HoldsFresh s) (hs : SysInv s) (ho : Ownership s)
    (ht : Transition s a s') : HoldsFresh s' := by
  cases ht with
  | acquire hacq => exact h.acquired hs hacq
  | deadline hw => exact h.interrupt hw _ _
  | cancel hw => exact h.interrupt hw _ _
  | value => exact h.set nofun
  | failed => exact h.set nofun
  | timedOut hw hdone hr hd hset =>
    have hinv := hs.inv.removed hr
    have hev : Evolves (fun _ => False) _ _ := hr.evolves.trans hinv (hd.evolves hinv)
    exact (h.evolve hs.delivered hev (fun _ _ _ _ _ => id) fun _ => False.elim).set nofun
  | @cancelled w t b d k c₁ c₂ c₃ hw hdone hk hr hg hd hset =>
    have hinv := hs.inv.removed hr
    have hinv₂ := hinv.givenBack hg
    -- the lease given back is the one in the future of the call that ends
    have hev : Evolves (fun l => s.controller.futures w = .result l) s.controller c₃ :=
      hr.evolves.trans hinv ((hg.evolves fun l hl => hr.futures_eq ▸ hl).trans hinv₂
        (hd.evolves hinv₂))
    have hset : HoldsFresh ⟨s.controller, s.calls.set w .cancelled⟩ := h.set nofun
    refine hset.evolve hs.delivered hev ?_ fun l hl => hs.delivered.lt hl
    rintro x t' l ⟨d', k', hx⟩ hf hl
    obtain rfl := hs.delivered.inj hf hl
    rw [List.getElem?_set_self (List.getElem?_eq_some_iff.mp hw).1] at hx
    exact nomatch hx
  | @release lease c₁ c₂ hret hr hd hset =>
    have hinv := hs.inv.released hr
    have hev : Evolves (lease = ·) s.controller c₂ :=
      (hr.evolves rfl).trans hinv (hd.evolves hinv)
    refine h.evolve hs.delivered hev ?_ fun l hl => hl ▸ hs.returned_lt hret
    rintro x t' l ⟨d', k', hx⟩ hf rfl
    -- a lease that was returned is in no waiting call's future
    obtain ⟨y, hy⟩ := List.mem_iff_getElem?.mp hret
    obtain rfl := ho.unique (.inr hf) (.inl hy)
    exact nomatch hx.symm.trans hy
  | shutdown hsd =>
    cases hsd with
    | again => exact h
    | closed hopen obs => exact h.congr fun _ _ _ hw hf => ⟨hw, closeAll_result.mp hf, rfl⟩
  | setObserver attach => exact h.congr fun _ _ _ hw hf => ⟨hw, hf, rfl⟩

theorem HoldsFresh.init (h : Init s) : HoldsFresh s := by
  rintro w t l a ⟨d, k, hw⟩
  simp [h.1] at hw

/-- On the runs without late timeouts, the invariants hold together. -/
theorem ownership_inductive :
    lts.InductiveVia NoLateTimeout fun s => SysInv s ∧ Ownership s ∧ HoldsFresh s where
  init _ h := ⟨.init h, .init h, .init h⟩
  step _ _ _ h hok hstep :=
    have ht := h.1.transition_of_step hstep
    ⟨h.1.transition ht, h.2.1.transition h.1 hok ht, h.2.2.transition h.1 h.2.1 ht⟩

/-- A late timeout leaves a lease behind that the call which raised was granted. -/
theorem HoldsFresh.late_timeout (h : HoldsFresh s) (hs : SysInv s) (ht : Transition s a s')
    (hlate : ¬s.NoLateTimeout a) : ¬OwnedOnce s' := by
  intro howned
  cases a with
  | resume w =>
    simp only [NoLateTimeout, not_forall, ne_eq, not_not] at hlate
    obtain ⟨t, l, hw, hf⟩ := hlate
    cases ht with
    | value hw' => exact nomatch hw.symm.trans hw'
    | failed hw' => exact nomatch hw.symm.trans hw'
    | cancelled hw' hdone hk =>
      obtain ⟨-, -, rfl⟩ := AcquireCall.waiting.inj (Option.some.inj (hw.symm.trans hw'))
      rcases hk with hk | hk
      · exact nomatch hk
      · exact nomatch hf.symm.trans hk
    | @timedOut _ t' b c₁ c₂ hw' hdone hr hd hset =>
      have hinv := hs.inv.removed hr
      have hev : Evolves (fun _ => False) s.controller c₂ := hr.evolves.trans hinv (hd.evolves hinv)
      have hf₂ : c₂.futures w = .result l :=
        (hev.future_eq (hs.inv.not_queued (by simp [hf]) (by simp [hf]))).trans hf
      obtain ⟨a, ha, hr⟩ := (howned.ended w _
        (List.getElem?_set_self (List.getElem?_eq_some_iff.mp hw).1) rfl).2 l hf₂
      have hfresh : HoldsFresh ⟨c₂, s.calls⟩ :=
        h.evolve hs.delivered hev (fun _ _ _ _ _ => id) fun _ => False.elim
      exact absurd hr (by simp [hfresh w t l a ⟨_, _, hw⟩ hf₂ ha])
  | acquire | deadline | cancel | release | shutdown | setObserver => exact hlate trivial

/-- On the runs without late timeouts every slot is owned exactly once, and a step
    from there keeps it so exactly if it is not a late timeout. -/
theorem ownedOnce_iff_noLateTimeout (h : lts.ReachableVia NoLateTimeout s) :
    OwnedOnce s ∧ ∀ a s', s.step a = .ok s' → (OwnedOnce s' ↔ s.NoLateTimeout a) := by
  obtain ⟨hs, ho, hf⟩ := ownership_inductive.holds h
  refine ⟨ho.ownedOnce hs, fun a s' hstep => ?_⟩
  have ht := hs.transition_of_step hstep
  constructor
  · intro howned
    by_contra hlate
    exact hf.late_timeout hs ht hlate howned
  · intro hok
    exact (ho.transition hs hok ht).ownedOnce (hs.transition ht)

theorem ownedOnce_iff_noLateTimeout_after :
    OwnedOnce (after [.acquire "a", .acquire "a", .release 0]) ∧
      ∀ a s', (after [.acquire "a", .acquire "a", .release 0]).step a = .ok s' →
        (OwnedOnce s' ↔ (after [.acquire "a", .acquire "a", .release 0]).NoLateTimeout a) :=
  have h₁ : lts.ReachableVia NoLateTimeout (after [.acquire "a"]) :=
    .step (a := .acquire "a") (.init sample_init) trivial rfl
  have h₂ : lts.ReachableVia NoLateTimeout (after [.acquire "a", .acquire "a"]) :=
    .step (a := .acquire "a") h₁ trivial rfl
  ownedOnce_iff_noLateTimeout (.step (a := .release 0) h₂ trivial rfl)

/-- The slot a release hands to the second call is lost when that call's deadline
    fires before it resumes. -/
theorem late_timeout_loses_slot :
    lts.Reachable (after [.acquire "a", .acquire "a", .release 0, .deadline 1, .resume 1]) ∧
    ¬OwnedOnce (after [.acquire "a", .acquire "a", .release 0, .deadline 1, .resume 1]) ∧
    (after [.acquire "a", .acquire "a", .release 0, .deadline 1, .resume 1]).calls =
      [.returned 0, .raised .admissionTimeout] ∧
    (after [.acquire "a", .acquire "a", .release 0, .deadline 1, .resume 1]).controller.globalInflight
      = 1 ∧
    (after [.acquire "a", .acquire "a", .release 0, .deadline 1, .resume 1]).ownedCount
      (fun _ => true) = 0 :=
  ⟨after_reachable _, fun h => absurd h.global (by decide), by decide, by decide, by decide⟩

end AdmissionSystem

end Gateway
