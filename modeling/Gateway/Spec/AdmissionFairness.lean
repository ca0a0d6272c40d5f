import Gateway.Lib.Ring
import Gateway.Spec.AdmissionSystem
import Mathlib.Data.List.TakeWhile

/-!
# Bounded bypass

While a tenant `b` below its limit keeps a live queued waiter, any other tenant
is granted at most once before `b` gets its next queued grant. The argument is a
credit: the grants of `a` so far, plus one while `a` is ahead of `b` in the ring,
never exceed one. A grant of `a` from the head of the ring spends the credit, a
tenant that arrives or is put back goes behind `b`, and immediate grants cannot
happen because the gateway is full.

## Key results

- `Overtaken.candidate`: one iteration of the dispatch loop
- `Overtaken.transition`: one step of the system
- `bounded_bypass`: along every run in which `b` keeps a live waiter
-/

namespace Gateway

namespace AdmissionController

variable {c c' c'' : AdmissionController} {a b t : String} {n : Nat} {rest : List String}
  {st st' : TenantState} {w : WaiterId} {lease : LeaseId} {g : Bool}

/-- Some waiter in the tenant's queue is live. -/
def LiveWaiter (c : AdmissionController) (t : String) : Prop :=
  ∃ st w, c.tenants.get? t = some st ∧ w ∈ st.queue ∧ c.waiterDone w = false

/-- The tenant is below its own limit. -/
def BelowLimit (c : AdmissionController) (t : String) : Prop :=
  ∀ st, c.tenants.get? t = some st → st.inflight < st.tenant.maxInflight

/-- The grants so far, oldest first: to which tenant, and whether from its queue. -/
def grantLog (c : AdmissionController) : List (String × Bool) :=
  c.leases.map fun l => (l.tenantId, l.wasQueued)

/-- The grants of `a` before the first queued grant of `b`. -/
def grantsBefore (a b : String) (log : List (String × Bool)) : Nat :=
  (log.takeWhile fun g => g ≠ (b, true)).countP fun g => g.1 = a

/-! ## The log of the grants -/

theorem grantLog_addLease (q : Bool) (obs : Option (List AdmissionStateChanged)) :
    (c.addLease t q obs).grantLog = c.grantLog ++ [(t, q)] := by
  simp [grantLog]

theorem Removed.grantLog_eq (hr : Removed c t w g c') : c'.grantLog = c.grantLog := by
  cases hr <;> rfl

theorem Released.grantLog_eq (hr : Released c lease c') : c'.grantLog = c.grantLog := by
  cases hr with
  | again => rfl
  | @dropped l st obs hl hr hst =>
    obtain ⟨hlt, rfl⟩ := List.getElem?_eq_some_iff.mp hl
    have hself := List.set_getElem_self (show lease < c.grantLog.length by simpa [grantLog])
    simpa [grantLog, List.map_set] using hself

theorem GivenBack.grantLog_eq (hg : GivenBack c w c') : c'.grantLog = c.grantLog := by
  cases hg with
  | nothing => rfl
  | lease _ hr => exact hr.grantLog_eq

theorem Candidate.grantLog_eq (hc : Candidate c t rest st g c') :
    c'.grantLog = c.grantLog ++ if g then [(t, true)] else [] := by
  cases hc with
  | emptied | limited => exact (List.append_nil _).symm
  | granted obs => exact grantLog_addLease true obs

theorem grantsBefore_eq_countP {log : List (String × Bool)} (h : (b, true) ∉ log) :
    grantsBefore a b log = log.countP fun g => g.1 = a := by
  rw [grantsBefore, List.takeWhile_eq_self_iff.mpr]
  intro g hg
  simp only [ne_eq, decide_not, Bool.not_eq_true', decide_eq_false_iff_not]
  rintro rfl
  exact h hg

/-- Grants after the first queued grant of `b` do not count. -/
theorem grantsBefore_append {log more : List (String × Bool)} (h : (b, true) ∈ log) :
    grantsBefore a b (log ++ more) = grantsBefore a b log := by
  rw [grantsBefore, grantsBefore, List.takeWhile_append, if_neg]
  intro hlen
  have hall := List.takeWhile_eq_self_iff.mp (List.takeWhile_prefix _ |>.eq_of_length hlen)
  simpa using hall _ h

/-! ## The credit -/

/-- `b` has not been granted from its queue since the first `n` grants, and the
    grants of `a` since then leave room for one if `a` is ahead. -/
structure Credit (a b : String) (n : Nat) (c : AdmissionController) : Prop where
  waiting : (b, true) ∉ c.grantLog.drop n
  below : BelowLimit c b
  credit : (c.grantLog.drop n).countP (fun g => g.1 = a) +
    (if Ahead a b c.activeTenants then 1 else 0) ≤ 1

/-- `b` has been granted from its queue, and `a` at most once before that. -/
structure Served (a b : String) (n : Nat) (c : AdmissionController) : Prop where
  granted : (b, true) ∈ c.grantLog.drop n
  bound : grantsBefore a b (c.grantLog.drop n) ≤ 1

theorem Credit.bound (h : Credit a b n c) : grantsBefore a b (c.grantLog.drop n) ≤ 1 := by
  rw [grantsBefore_eq_countP h.waiting]
  exact (Nat.le_add_right _ _).trans h.credit

/-- Once `b` has been served, later grants change nothing. -/
theorem Served.append (h : Served a b n c) {more : List (String × Bool)}
    (hlog : c'.grantLog = c.grantLog ++ more) : Served a b n c' := by
  have hle : n ≤ c.grantLog.length := by
    by_contra hlt
    have := h.granted
    rw [List.drop_eq_nil_of_le (by omega)] at this
    exact nomatch this
  have hdrop : c'.grantLog.drop n = c.grantLog.drop n ++ more := by
    rw [hlog, List.drop_append_of_le_length hle]
  refine ⟨?_, ?_⟩
  · rw [hdrop]
    exact List.mem_append_left _ h.granted
  · rw [hdrop, grantsBefore_append h.granted]
    exact h.bound

/-- A section that grants nothing and puts nobody ahead of `b`. -/
theorem Credit.of_grantLog_eq (h : Credit a b n c) (hlog : c'.grantLog = c.grantLog)
    (hbelow : BelowLimit c b → BelowLimit c' b)
    (hring : Ahead a b c'.activeTenants → Ahead a b c.activeTenants) : Credit a b n c' where
  waiting := hlog ▸ h.waiting
  below := hbelow h.below
  credit := by
    have := h.credit
    rw [hlog]
    by_cases hahead : Ahead a b c'.activeTenants
    · simp only [hahead, hring hahead, if_true] at this ⊢
      exact this
    · simp only [hahead, if_false]
      omega

theorem BelowLimit.setQueue (h : BelowLimit c b) {q : List WaiterId} {ring : List String}
    {ids : Finset String} {obs : Option (List AdmissionStateChanged)} :
    BelowLimit (c.setQueue t q ring ids obs) b := by
  intro s hs
  rw [get?_setQueue] at hs
  split at hs
  · obtain ⟨s', hs', rfl⟩ := Option.map_eq_some_iff.mp hs
    exact h s' hs'
  · exact h s hs

theorem BelowLimit.addLease (h : BelowLimit c b) (hne : t ≠ b) (q : Bool)
    (obs : Option (List AdmissionStateChanged)) : BelowLimit (c.addLease t q obs) b := by
  intro s hs
  rw [get?_addLease, if_neg hne] at hs
  exact h s hs

/-- The queues of the other tenants are untouched. -/
theorem LiveWaiter.setQueue (h : LiveWaiter c b) (hne : t ≠ b) {q : List WaiterId}
    {ring : List String} {ids : Finset String} {obs : Option (List AdmissionStateChanged)} :
    LiveWaiter (c.setQueue t q ring ids obs) b := by
  obtain ⟨st, w, hst, hw, hlive⟩ := h
  exact ⟨st, w, by rw [get?_setQueue, if_neg hne, hst], hw, hlive⟩

theorem LiveWaiter.queue_ne_nil (h : LiveWaiter c b) (hst : c.tenants.get? b = some st) :
    st.queue.dropWhile c.waiterDone ≠ [] := by
  obtain ⟨st', w, hst', hw, hlive⟩ := h
  obtain rfl := Option.some.inj (hst'.symm.trans hst)
  intro hnil
  have := List.dropWhile_eq_nil_iff.mp hnil w hw
  simp [hlive] at this

/-! ## One iteration of the dispatch loop -/

/-- One iteration, while `b` waits: it keeps waiting with its credit, or it is
    served. -/
theorem Credit.candidate (h : Credit a b n c) (hinv : Inv c) (hopen : c.closed = false)
    (hab : a ≠ b) (hlive : LiveWaiter c b) (hn : n ≤ c.grantLog.length)
    (hring : c.activeTenants = t :: rest) (hst : c.tenants.get? t = some st)
    (hc : Candidate c t rest st g c') :
    Credit a b n c' ∧ LiveWaiter c' b ∨ Served a b n c' := by
  have hcredit := h.credit
  have hnodup := hinv.active_nodup
  rw [hring] at hcredit hnodup
  have hlog : c'.grantLog.drop n = c.grantLog.drop n ++ if g then [(t, true)] else [] := by
    rw [hc.grantLog_eq, List.drop_append_of_le_length hn]
  by_cases htb : t = b
  · -- the head is `b`: its live waiter is granted
    subst htb
    cases hc with
    | emptied obs hq => exact absurd hq (hlive.queue_ne_nil hst)
    | limited obs w queue hq hmax => exact absurd (h.below st hst) (not_lt.mpr hmax)
    | granted obs w queue hq hmax =>
      refine .inr ⟨by simp [hlog], ?_⟩
      have hnot : ∀ g ∈ c.grantLog.drop n, decide (g ≠ (t, true)) = true := fun g hg =>
        decide_eq_true fun heq => h.waiting (heq ▸ hg)
      rw [hlog, grantsBefore, List.takeWhile_append_of_pos hnot]
      simp only [if_true, List.takeWhile_cons, ne_eq, not_true_eq_false, decide_false,
        Bool.false_eq_true, if_false, List.append_nil]
      exact (Nat.le_add_right _ _).trans hcredit
  have hlive_mem : b ∈ rest := by
    obtain ⟨sb, w, hsb, hw, -⟩ := hlive
    have := hinv.active_of_queue hopen hsb (List.ne_nil_of_mem hw)
    rw [hring, List.mem_cons] at this
    exact this.resolve_left (Ne.symm htb)
  have htrest : t ∉ rest := (List.nodup_cons.mp hnodup).1
  -- removing the head, or putting it back, puts nobody ahead of `b`
  have hahead : ∀ ring, ring = rest ∨ ring = rest ++ [t] → Ahead a b ring →
      t ≠ a ∧ Ahead a b (t :: rest) := by
    intro ring hr hah
    have hrest : Ahead a b rest := by
      rcases hr with rfl | rfl
      · exact hah
      · exact hah.of_append hlive_mem
    have hta : t ≠ a := by
      rintro rfl
      exact not_ahead_of_notMem htrest hrest
    exact ⟨hta, (ahead_cons_of_ne hta htb).mpr hrest⟩
  left
  cases hc with
  | emptied obs hq =>
    refine ⟨h.of_grantLog_eq rfl (·.setQueue) fun hah => ?_, hlive.setQueue htb⟩
    exact hring ▸ (hahead _ (.inl rfl) hah).2
  | limited obs w queue hq hmax =>
    refine ⟨h.of_grantLog_eq rfl (·.setQueue) fun hah => ?_, hlive.setQueue htb⟩
    exact hring ▸ (hahead _ (.inr rfl) hah).2
  | granted obs w queue hq hmax =>
    have hr : (if queue = [] then rest else rest ++ [t]) = rest ∨
        (if queue = [] then rest else rest ++ [t]) = rest ++ [t] := by
      split
      · exact .inl rfl
      · exact .inr rfl
    refine ⟨⟨?_, h.below.setQueue.addLease htb true obs, ?_⟩, ?_⟩
    · simp [hlog, h.waiting, Ne.symm htb]
    · rw [hlog, List.countP_append]
      simp only [deliver_activeTenants, addLease_activeTenants, setQueue_activeTenants]
      by_cases hta : t = a
      · -- the grant spends the credit `a` had at the head of the ring
        subst hta
        have hnot : ¬Ahead t b (if queue = [] then rest else rest ++ [t]) :=
          fun hah => (hahead _ hr hah).1 rfl
        simp only [hnot, if_false, if_true, List.countP_singleton, decide_true]
        simpa [ahead_cons_self hab] using hcredit
      · simp only [if_true, List.countP_singleton, hta, decide_false, Bool.false_eq_true, if_false,
          Nat.add_zero]
        by_cases hah : Ahead a b (if queue = [] then rest else rest ++ [t])
        · simpa only [hah, (hahead _ hr hah).2, if_true] using hcredit
        · simp only [hah, if_false]
          omega
    · -- the granted waiter is not one of `b`'s
      obtain ⟨sb, x, hsb, hx, hxlive⟩ := hlive
      refine ⟨sb, x, ?_, hx, ?_⟩
      · rw [deliver_tenants, get?_addLease, if_neg htb, get?_setQueue, if_neg htb, hsb]
      · have hne : x ≠ w := by
          rintro rfl
          have hw : x ∈ st.queue := (List.dropWhile_sublist c.waiterDone).subset
            (hq ▸ List.mem_cons_self)
          exact htb (hinv.queue_disjoint hst hsb hw hx)
        simpa [waiterDone, hne] using hxlive

/-- `b` waits with its credit and a live waiter, or has been served. -/
def Turn (a b : String) (n : Nat) (c : AdmissionController) : Prop :=
  n ≤ c.grantLog.length ∧ (Credit a b n c ∧ LiveWaiter c b ∨ Served a b n c)

theorem Turn.dispatch (h : Turn a b n c) (hinv : Inv c) (hab : a ≠ b) (hd : Dispatch c c') :
    Turn a b n c' := by
  refine hd.preserves hinv (P := Turn a b n) ?_ h
  rintro c c' t rest st g hinv ⟨hn, h⟩ hopen hcap hring hst hc
  refine ⟨?_, ?_⟩
  · rw [hc.grantLog_eq, List.length_append]
    omega
  · rcases h with ⟨hcredit, hlive⟩ | hserved
    · exact hcredit.candidate hinv hopen hab hlive hn hring hst hc
    · exact .inr (hserved.append hc.grantLog_eq)

/-! ## The other sections -/

/-- A section that grants nothing, puts nobody ahead of `b` and keeps a live waiter
    of `b`. -/
theorem Turn.of_grantLog_eq (h : Turn a b n c) (hlog : c'.grantLog = c.grantLog)
    (hcredit : LiveWaiter c b → (BelowLimit c b → BelowLimit c' b) ∧
      (Ahead a b c'.activeTenants → Ahead a b c.activeTenants) ∧ LiveWaiter c' b) :
    Turn a b n c' := by
  obtain ⟨hn, ⟨hc, hlive⟩ | hserved⟩ := h
  · obtain ⟨hbelow, hring, hlive'⟩ := hcredit hlive
    exact ⟨hlog ▸ hn, .inl ⟨hc.of_grantLog_eq hlog hbelow hring, hlive'⟩⟩
  · exact ⟨hlog ▸ hn, .inr (hserved.append (by rw [hlog, List.append_nil]))⟩

/-- Removing a dead waiter. -/
theorem Turn.removed (h : Turn a b n c) (hdone : c.waiterDone w = true)
    (hr : Removed c t w g c') : Turn a b n c' := by
  refine h.of_grantLog_eq hr.grantLog_eq fun hlive => ?_
  cases hr with
  | absent => exact ⟨id, id, hlive⟩
  | @removed st obs hst hw =>
    refine ⟨(·.setQueue), fun hah => ?_, ?_⟩
    · rw [setQueue_activeTenants] at hah
      split at hah
      · next hempty =>
        -- a tenant that leaves the ring has no live waiter left, so it is not `b`
        refine hah.of_erase ?_
        rintro rfl
        obtain ⟨st', x, hst', hx, hxlive⟩ := hlive
        obtain rfl := Option.some.inj (hst.symm.trans hst')
        have hne : x ≠ w := by rintro rfl; simp [hdone] at hxlive
        have := (List.mem_erase_of_ne hne).mpr hx
        rw [hempty] at this
        exact nomatch this
      · exact hah
    · by_cases htb : t = b
      · subst htb
        obtain ⟨st', x, hst', hx, hxlive⟩ := hlive
        obtain rfl := Option.some.inj (hst.symm.trans hst')
        have hne : x ≠ w := by rintro rfl; simp [hdone] at hxlive
        exact ⟨_, x, get?_setQueue_self hst, (List.mem_erase_of_ne hne).mpr hx, hxlive⟩
      · exact hlive.setQueue htb

theorem Turn.released (h : Turn a b n c) (hr : Released c lease c') : Turn a b n c' := by
  refine h.of_grantLog_eq hr.grantLog_eq fun hlive => ?_
  cases hr with
  | again => exact ⟨id, id, hlive⟩
  | @dropped l st obs hl hr hst =>
    refine ⟨fun hbelow s hs => ?_, id, ?_⟩
    · rw [get?_dropLease] at hs
      split at hs
      · obtain ⟨s', hs', rfl⟩ := Option.map_eq_some_iff.mp hs
        have := hbelow s' hs'
        simp only
        omega
      · exact hbelow s hs
    · obtain ⟨sb, x, hsb, hx, hxlive⟩ := hlive
      by_cases htb : l.tenantId = b
      · exact ⟨{ sb with inflight := sb.inflight - 1 }, x,
          by rw [get?_dropLease, if_pos htb, hsb, Option.map_some], hx, hxlive⟩
      · exact ⟨sb, x, by rw [get?_dropLease, if_neg htb, hsb], hx, hxlive⟩

theorem Turn.givenBack (h : Turn a b n c) (hg : GivenBack c w c') : Turn a b n c' := by
  cases hg with
  | nothing => exact h
  | lease _ hr => exact h.released hr

/-- Queueing a waiter. -/
theorem Turn.enqueue (h : Turn a b n c) (hinv : Inv c) (hopen : c.closed = false)
    (hst : c.tenants.get? t = some st) (obs : Option (List AdmissionStateChanged)) :
    Turn a b n (c.enqueue t st.queue w obs) := by
  refine h.of_grantLog_eq rfl fun hlive => ⟨(·.setQueue), fun hah => ?_, ?_⟩
  · have hmem : b ∈ c.activeTenants := by
      obtain ⟨sb, x, hsb, hx, -⟩ := hlive
      exact hinv.active_of_queue hopen hsb (List.ne_nil_of_mem hx)
    simp only [AdmissionController.enqueue, setQueue_activeTenants] at hah
    split at hah
    · exact hah
    · exact hah.of_append hmem
  · by_cases htb : t = b
    · subst htb
      obtain ⟨st', x, hst', hx, hxlive⟩ := hlive
      obtain rfl := Option.some.inj (hst.symm.trans hst')
      exact ⟨_, x, get?_setQueue_self hst, List.mem_append_left _ hx, hxlive⟩
    · exact hlive.setQueue htb

/-- `a` has been granted at most once before `b` was served from its queue. -/
def Overtaken (a b : String) (n : Nat) (c : AdmissionController) : Prop :=
  n ≤ c.grantLog.length ∧ (Credit a b n c ∨ Served a b n c)

theorem Turn.overtaken (h : Turn a b n c) : Overtaken a b n c :=
  ⟨h.1, h.2.imp_left And.left⟩

theorem Overtaken.turn (h : Overtaken a b n c) (hlive : LiveWaiter c b) : Turn a b n c :=
  ⟨h.1, h.2.imp_left fun hc => ⟨hc, hlive⟩⟩

theorem Overtaken.bound (h : Overtaken a b n c) : grantsBefore a b (c.grantLog.drop n) ≤ 1 :=
  h.2.elim Credit.bound Served.bound

/-- A section that grants nothing and puts nobody ahead of `b`. -/
theorem Overtaken.of_grantLog_eq (h : Overtaken a b n c) (hlog : c'.grantLog = c.grantLog)
    (hbelow : BelowLimit c b → BelowLimit c' b)
    (hring : Ahead a b c'.activeTenants → Ahead a b c.activeTenants) : Overtaken a b n c' :=
  ⟨hlog ▸ h.1, h.2.imp (·.of_grantLog_eq hlog hbelow hring)
    (·.append (by rw [hlog, List.append_nil]))⟩

/-- An immediate grant happens only if `b` does not wait any more. -/
theorem Turn.immediate (h : Turn a b n c) (hinv : Inv c) (hs : Settled c)
    (hcap : c.globalInflight < c.limits.globalMaxInflight)
    (obs : Option (List AdmissionStateChanged)) : Overtaken a b n (c.addLease t false obs) := by
  obtain ⟨hn, ⟨hc, st, w, hst, hw, hlive⟩ | hserved⟩ := h
  · have := hinv.saturated hs b st hst ⟨w, hw, hlive⟩ (hc.below st hst)
    omega
  · refine ⟨?_, .inr (hserved.append (grantLog_addLease false obs))⟩
    rw [grantLog_addLease, List.length_append]
    omega

theorem Turn.acquired {adm : Admission} (h : Turn a b n c) (hinv : Inv c) (hab : a ≠ b)
    (hw : c.futures w = .pending) (hfresh : ¬c.Queued w) (hacq : Acquired c w t adm c') :
    Overtaken a b n c' := by
  cases hacq with
  | rejected he hd hs => exact (h.dispatch hinv hab hd).overtaken
  | granted obs hd hs hst hq hmax hcap =>
    exact (h.dispatch hinv hab hd).immediate (hinv.dispatch hd) hs hcap obs
  | @queued c₁ _ st obs hopen hd hs hst hlen hglobal hs' hd' =>
    have hinv₁ := hinv.dispatch hd
    have hev : Evolves (fun _ => False) c c₁ := hd.evolves hinv
    have hinv₂ := hinv₁.enqueue hopen hst hlen hglobal ((hev.future_eq hfresh).trans hw)
      (fun hq => hfresh (hev.queued hq)) obs
    exact (((h.dispatch hinv hab hd).enqueue hinv₁ hopen hst obs).dispatch hinv₂ hab hd').overtaken

end AdmissionController

namespace AdmissionSystem

open AdmissionController

variable {s s₀ s' : AdmissionSystem} {act : AdmissionAction} {a b : String} {n : Nat}

/-- One step of the system, from a state in which `b` has a live waiter. -/
theorem Overtaken.transition (h : Overtaken a b n s.controller) (hs : SysInv s) (hab : a ≠ b)
    (hlive : LiveWaiter s.controller b) (ht : Transition s act s') :
    Overtaken a b n s'.controller := by
  have hturn := h.turn hlive
  cases ht with
  | acquire hacq =>
    exact hturn.acquired hs.inv hab (hs.fresh le_rfl)
      (fun hq => absurd (hs.queued_lt hq) (lt_irrefl _)) hacq
  | deadline | cancel | value | failed | setObserver => exact h.of_grantLog_eq rfl id id
  | timedOut hw hdone hr hd hset =>
    exact ((hturn.removed hdone hr).dispatch (hs.inv.removed hr) hab hd).overtaken
  | cancelled hw hdone hk hr hg hd hset =>
    have hinv := (hs.inv.removed hr).givenBack hg
    exact (((hturn.removed hdone hr).givenBack hg).dispatch hinv hab hd).overtaken
  | release hret hr hd hset =>
    exact ((hturn.released hr).dispatch (hs.inv.released hr) hab hd).overtaken
  | shutdown hsd =>
    cases hsd with
    | again => exact h
    | closed hopen obs =>
      refine h.of_grantLog_eq rfl (fun hbelow st hst => ?_) fun hah => absurd hah not_ahead_nil
      rw [get?_closeAll] at hst
      obtain ⟨st', hst', rfl⟩ := Option.map_eq_some_iff.mp hst
      exact hbelow st' hst'

/-- Along every run in which `b`, below its limit, keeps a live queued waiter, any
    other tenant is granted at most once before `b` is granted from its queue. -/
theorem bounded_bypass (hab : a ≠ b) (h₀ : lts.Reachable s₀)
    (hbelow : BelowLimit s₀.controller b)
    (hrun : lts.RunVia (fun s _ => LiveWaiter s.controller b) s₀ s) :
    grantsBefore a b (s.controller.grantLog.drop s₀.controller.grantLog.length) ≤ 1 := by
  have hstart : Overtaken a b s₀.controller.grantLog.length s₀.controller := by
    refine ⟨le_rfl, .inl ⟨by simp, hbelow, ?_⟩⟩
    rw [List.drop_length, List.countP_nil]
    split <;> simp
  refine Overtaken.bound (n := s₀.controller.grantLog.length)
    (hrun.preserves (I := SysInv) (P := fun s => Overtaken a b _ s.controller)
      (sysInv_inductive.mono fun _ _ _ => trivial) (SysInv.of_reachable h₀) ?_ hstart)
  exact fun s act s' hs h hlive hstep =>
    Overtaken.transition h hs hab hlive (hs.transition_of_step hstep)

theorem bounded_bypass_after :
    grantsBefore "a" "b"
      ((after [.acquire "a", .acquire "a", .acquire "b", .release 0]).controller.grantLog.drop
        (after [.acquire "a", .acquire "a", .acquire "b"]).controller.grantLog.length) ≤ 1 :=
  bounded_bypass (by decide) (after_reachable _)
    (fun st hst => by
      obtain rfl := Option.some.inj hst
      decide)
    (.tail (a := .release 0) .refl ⟨_, 2, rfl, List.mem_cons_self, rfl⟩ rfl)

end AdmissionSystem

end Gateway
