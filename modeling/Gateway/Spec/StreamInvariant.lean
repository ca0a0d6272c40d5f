import Gateway.Spec.StreamEffects

/-!
# The invariant of the pool, the streams and the relays

`Good s F` is what holds of the shared state and the frames that are alive, between
any two changes a task makes. It has one part for the leases, one for the routed
streams, one for the relays and one for `BackendPool.close`.

## Key results

- `Good`: the invariant
- `Effect.leases`, `Effect.streams`: every change keeps its first two parts
-/

namespace Gateway.StreamSystem

/-- The accounts are right, every unreleased lease has somebody who will release it,
    and no two of them hold the same lease. -/
structure LeasesGood (s : StreamSystem) (F : List Frame) : Prop where
  accounts : s.pool.Accounts
  consistent : ∀ l, .inconsistent l ∉ s.history
  releasedOnce : ∀ l, s.history.count (.released l) = (s.pool.leaseReleased l).toNat
  unique : (s.holders F).Nodup
  valid : ∀ l ∈ s.holders F, l < s.pool.leases.length
  held : ∀ l, l < s.pool.leases.length → s.pool.leaseReleased l = false → l ∈ s.holders F

/-- A stream is closed once, whoever waits for its close lock finds it closed, and
    its lease is released by the end of the close, not before its begin. -/
structure StreamsGood (s : StreamSystem) (F : List Frame) : Prop where
  lock : ∀ (r : StreamId) (st : RoutedBackendStream), s.streams[r]? = some st →
    st.closeLock.Used → st.closed = true
  leafOnce : ∀ r, s.history.count (.leafClosed r) = (s.streamClosed r).toNat
  finished : ∀ (r : StreamId) (st : RoutedBackendStream), s.streams[r]? = some st →
    st.closed = true → (∀ o, .finishClose r o ∉ F) → s.pool.leaseReleased st.lease = true
  begun : ∀ (r : StreamId) (st : RoutedBackendStream), s.streams[r]? = some st →
    s.pool.leaseReleased st.lease = true → st.closed = true
  opening : ∀ l, .openStream l ∈ F → s.pool.closed = false → s.pool.leaseReleased l = false

/-- A relay whose close was entered is closing or has given its admission lease back,
    and its stream is closed. -/
structure RelaysGood (s : StreamSystem) (F : List Frame) : Prop where
  valid : ∀ (i : RelayId) (relay : StreamingRelay), s.relays[i]? = some relay →
    relay.stream < s.streams.length
  lock : ∀ (i : RelayId) (relay : StreamingRelay), s.relays[i]? = some relay →
    relay.closeLock.Used → relay.closed = true
  entered : ∀ i, .relayCloseEntered i ∈ s.history → s.relayClosed i = true
  once : ∀ i, F.countP (Frame.closesRelay i) + s.history.count (.admissionReleased i) =
    (s.relayClosed i).toNat
  stream : ∀ (i : RelayId) (relay : StreamingRelay), s.relays[i]? = some relay →
    relay.closed = true → s.streamClosed relay.stream = true

/-- While the pool is open it knows every open stream, and its `close` takes the
    leases by force only when there is none left. -/
structure ClosingGood (s : StreamSystem) (F : List Frame) : Prop where
  active : s.pool.closed = false → ∀ r, s.streamOpen r = true → r ∈ s.pool.activeStreams
  phase : ∀ f ∈ F, s.Phase f

/-- At most one task is in the close of a leaf stream, it holds the stream's close lock,
    and the pool knows the stream until then. -/
structure LocksGood (s : StreamSystem) (F : List Frame) : Prop where
  orderly : ∀ (r : StreamId) (st : RoutedBackendStream), s.streams[r]? = some st →
    st.closeLock.Orderly
  once : ∀ r, F.countP (Frame.finishes r) ≤ (s.streamClosed r).toNat
  held : ∀ r, 0 < F.countP (Frame.finishes r) →
    ∃ st, s.streams[r]? = some st ∧ st.closeLock.locked = true
  registered : s.pool.closed = false → ∀ r, 0 < F.countP (Frame.finishes r) →
    r ∈ s.pool.activeStreams

/-- The invariant. -/
structure Good (s : StreamSystem) (F : List Frame) : Prop where
  leases : LeasesGood s F
  streams : StreamsGood s F
  relays : RelaysGood s F
  closing : ClosingGood s F
  locks : LocksGood s F

section Support

variable {s s' : StreamSystem} {F F' : List Frame} {f : Frame} {r : StreamId} {i : RelayId}
  {l l' : BackendLeaseId} {e x : StreamEvent} {outcome : StreamOutcome} {k : StreamEvent → Bool}

/-! ## Histories -/

/-- The histories have the same events of a kind. -/
def Agree (k : StreamEvent → Bool) (s s' : StreamSystem) : Prop :=
  ∀ x, k x = true → s'.history.count x = s.history.count x

theorem Agree.of_eq (h : s'.history = s.history) : Agree k s s' := fun _ _ => by rw [h]

theorem Agree.mem (h : Agree k s s') (hk : k x = true) : x ∈ s'.history ↔ x ∈ s.history := by
  rw [← List.count_pos_iff, ← List.count_pos_iff, h x hk]

theorem count_record (h : e ≠ x) : (s.record e).history.count x = s.history.count x := by
  simp [List.count_append, h]

theorem count_record_self : (s.record e).history.count e = s.history.count e + 1 := by
  simp [List.count_append]

theorem mem_record (h : e ≠ x) : x ∈ (s.record e).history ↔ x ∈ s.history := by
  simp [h.symm]

theorem agree_record (h : k e = false) : Agree k s (s.record e) := fun x hx =>
  count_record (by rintro rfl; simp [h] at hx)

/-- A release records its own event only. -/
theorem Released.agree (h : Released s l s') (hk : k (.released l) = false) : Agree k s s' := by
  intro x hx
  have hne : StreamEvent.released l ≠ x := by rintro rfl; simp [hk] at hx
  rw [h.history]
  split <;> simp [List.count_append, hne]

/-- The events of the leases. -/
def ofLeases : StreamEvent → Bool
  | .released _ | .inconsistent _ => true
  | _ => false

/-- The events of the leaf streams. -/
def ofLeaves : StreamEvent → Bool
  | .leafClosed _ => true
  | _ => false

/-- The events of `StreamingRelay.aclose`, less its bookkeeping. -/
def ofRelays : StreamEvent → Bool
  | .relayCloseEntered _ | .admissionReleased _ => true
  | _ => false

@[simp] theorem settleRelay_pool : (s.settleRelay i outcome).pool = s.pool := by
  unfold settleRelay
  dsimp only
  split
  · rfl
  · split <;> split <;> rfl

@[simp] theorem settleRelay_streams : (s.settleRelay i outcome).streams = s.streams := by
  unfold settleRelay
  dsimp only
  split
  · rfl
  · split <;> split <;> rfl

/-- The bookkeeping of a relay records its own two events only. -/
theorem settleRelay_agree (hm : k (.metricsFinalized i) = false)
    (ho : k (.outcome i outcome) = false) : Agree k s (s.settleRelay i outcome) := by
  intro x hx
  have hmx : StreamEvent.metricsFinalized i ≠ x := by rintro rfl; simp [hm] at hx
  have hox : StreamEvent.outcome i outcome ≠ x := by rintro rfl; simp [ho] at hx
  unfold settleRelay
  dsimp only
  split
  · rfl
  · split <;> split <;> simp [List.count_append, hmx, hox]

/-- The bookkeeping of a relay changes its observer only. -/
theorem settleRelay_relays : (s.settleRelay i outcome).relays =
    (s.modifyRelay i fun rel =>
      { rel with metricsObserver := rel.metricsObserver.map (·.finalize) }).relays := by
  unfold settleRelay
  dsimp only
  split
  · next hnone =>
    refine (List.modify_eq_self ?_).symm
    exact List.getElem?_eq_none_iff.mp hnone
  · split <;> split <;> rfl

/-! ## The leases -/

theorem LeasesGood.congr (h : LeasesGood s F) (haccounts : s'.pool.Accounts)
    (hleases : s'.pool.leases = s.pool.leases) (hagree : Agree ofLeases s s')
    (hholders : (s'.holders F').Perm (s.holders F)) : LeasesGood s' F' where
  accounts := haccounts
  consistent l hl := h.consistent l ((hagree.mem rfl).mp hl)
  releasedOnce l := by
    rw [hagree _ rfl, h.releasedOnce, BackendPool.leaseReleased_congr hleases]
  unique := hholders.nodup_iff.mpr h.unique
  valid l hl := hleases ▸ h.valid l (hholders.mem_iff.mp hl)
  held l hlt hfree := by
    rw [hleases] at hlt
    rw [BackendPool.leaseReleased_congr hleases] at hfree
    exact hholders.mem_iff.mpr (h.held l hlt hfree)

/-- Releasing a lease leaves the other ones with their holders. -/
theorem LeasesGood.release (h : LeasesGood s F) (hrel : Released s l s')
    (hsub : (s'.holders F').Sublist (s.holders F))
    (hkeep : ∀ l' ∈ s.holders F, l' ≠ l → l' ∈ s'.holders F') : LeasesGood s' F' where
  accounts := hrel.accounts
  consistent l' hl' := by
    rw [hrel.history] at hl'
    refine h.consistent l' ((List.mem_append.mp hl').resolve_right fun hnew => ?_)
    split at hnew <;> simp at hnew
  releasedOnce l' := by
    rw [hrel.history, hrel.released, List.count_append, h.releasedOnce]
    by_cases heq : l = l'
    · subst heq
      cases hr : s.pool.leaseReleased l <;> simp
    · split <;> simp [heq]
  unique := hsub.nodup h.unique
  valid l' hl' := hrel.length ▸ h.valid l' (hsub.subset hl')
  held l' hlt hfree := by
    rw [hrel.released, Bool.or_eq_false_iff, decide_eq_false_iff_not] at hfree
    exact hkeep l' (h.held l' (hrel.length ▸ hlt) hfree.1) (Ne.symm hfree.2)

/-! ## The streams -/

theorem StreamsGood.congr (h : StreamsGood s F) (hstreams : s'.streams = s.streams)
    (hreleased : ∀ l, s'.pool.leaseReleased l = s.pool.leaseReleased l)
    (hclosed : s'.pool.closed = false → s.pool.closed = false) (hagree : Agree ofLeaves s s')
    (hclose : ∀ r o, .finishClose r o ∈ F → .finishClose r o ∈ F')
    (hopen : ∀ l, .openStream l ∈ F' → .openStream l ∈ F) : StreamsGood s' F' where
  lock r st hst := h.lock r st (hstreams ▸ hst)
  leafOnce r := by
    rw [hagree _ rfl, h.leafOnce, streamClosed, streamClosed, hstreams]
  finished r st hst hc hF := by
    rw [hreleased]
    exact h.finished r st (hstreams ▸ hst) hc fun o ho => hF o (hclose r o ho)
  begun r st hst hrel := h.begun r st (hstreams ▸ hst) (hreleased st.lease ▸ hrel)
  opening l hl hc := by
    rw [hreleased]
    exact h.opening l (hopen l hl) (hclosed hc)

/-- Releasing a lease that no open stream has keeps the streams good. -/
theorem StreamsGood.release (h : StreamsGood s F) (hrel : Released s l s')
    (hstream : ∀ (r : StreamId) (st : RoutedBackendStream), s.streams[r]? = some st →
      st.lease = l → st.closed = true)
    (hopening : s.pool.closed = false → .openStream l ∉ F')
    (hclose : ∀ r st, s.streams[r]? = some st → st.lease ≠ l →
      ∀ o, .finishClose r o ∈ F → .finishClose r o ∈ F')
    (hopen : ∀ l', .openStream l' ∈ F' → .openStream l' ∈ F) : StreamsGood s' F' where
  lock r st hst := h.lock r st (hrel.streams ▸ hst)
  leafOnce r := by
    rw [hrel.agree (k := ofLeaves) rfl _ rfl, h.leafOnce, streamClosed, streamClosed, hrel.streams]
  finished r st hst hc hF := by
    rw [hrel.released, Bool.or_eq_true, decide_eq_true_eq]
    rw [hrel.streams] at hst
    by_cases heq : l = st.lease
    · exact .inr heq
    · exact .inl (h.finished r st hst hc fun o ho => hF o (hclose r st hst (Ne.symm heq) o ho))
  begun r st hst hr := by
    rw [hrel.streams] at hst
    rw [hrel.released, Bool.or_eq_true, decide_eq_true_eq] at hr
    rcases hr with hold | hnew
    · exact h.begun r st hst hold
    · exact hstream r st hst hnew.symm
  opening l' hl' hc := by
    rw [hrel.closed] at hc
    rw [hrel.released, Bool.or_eq_false_iff, decide_eq_false_iff_not]
    refine ⟨h.opening l' (hopen l' hl') hc, ?_⟩
    rintro rfl
    exact hopening hc hl'

/-- Beginning to close an open stream keeps the streams good. -/
theorem StreamsGood.close {f : RoutedBackendStream → RoutedBackendStream} {o : BackendOutcome}
    (h : StreamsGood s F) (hopen : s.streamOpen r = true)
    (hf : ∀ st, (f st).lease = st.lease ∧ (f st).closed = true) :
    StreamsGood ((s.modifyStream r f).record (.leafClosed r)) (.finishClose r o :: F) := by
  have hread := modifyStream_close_streamClosed (fun st => (hf st).2) (lt_of_streamOpen hopen)
  -- every stream is one of before, or the one that closes
  have hget : ∀ (r' : StreamId) (st' : RoutedBackendStream),
      (s.modifyStream r f).streams[r']? = some st' →
      ∃ st, s.streams[r']? = some st ∧ st'.lease = st.lease ∧
        (r = r' ∧ st'.closed = true ∨ r ≠ r' ∧ st' = st) := by
    intro r' st' hst'
    rw [modifyStream_get] at hst'
    split at hst'
    · next heq =>
      obtain ⟨st, hst, rfl⟩ := Option.map_eq_some_iff.mp hst'
      exact ⟨st, hst, (hf st).1, .inl ⟨heq, (hf st).2⟩⟩
    · next hne => exact ⟨st', hst', rfl, .inr ⟨hne, rfl⟩⟩
  constructor
  case lock =>
    intro r' st' hst' hused
    obtain ⟨st, hst, -, ⟨-, hc⟩ | ⟨-, rfl⟩⟩ := hget r' st' hst'
    · exact hc
    · exact h.lock r' st' hst hused
  case leafOnce =>
    intro r'
    rw [record_streamClosed, hread]
    by_cases heq : r = r'
    · subst heq
      rw [count_record_self, modifyStream_history, h.leafOnce, streamClosed_of_open hopen]
      simp
    · rw [count_record (by simpa using heq), modifyStream_history, h.leafOnce]
      simp [heq]
  case finished =>
    intro r' st' hst' hc hF
    obtain ⟨st, hst, hlease, ⟨rfl, -⟩ | ⟨-, rfl⟩⟩ := hget r' st' hst'
    · exact absurd (List.mem_cons_self ..) (hF o)
    · exact h.finished r' st' hst hc fun o' ho' => hF o' (List.mem_cons_of_mem _ ho')
  case begun =>
    intro r' st' hst' hr
    obtain ⟨st, hst, hlease, ⟨-, hc⟩ | ⟨-, rfl⟩⟩ := hget r' st' hst'
    · exact hc
    · exact h.begun r' st' hst hr
  case opening =>
    intro l hl hc
    exact h.opening l ((List.mem_cons.mp hl).resolve_left nofun) hc

end Support

section Changes

variable {G : Guard} {s s' : StreamSystem} {F F' : List Frame}

/-- A lease that an operation holds is no stream's and no other operation's. -/
theorem LeasesGood.not_held {f : Frame} {l : BackendLeaseId} (h : LeasesGood s (f :: F))
    (hf : f.lease? = some l) : l ∉ s.holders F := by
  have hunique := h.unique
  simp only [holders, List.filterMap_cons, hf, List.cons_append, List.nodup_cons] at hunique
  exact hunique.1

theorem Effect.leases (h : Effect G s F s' F') (hg : Good s F) : LeasesGood s' F' := by
  have hL := hg.leases
  cases h with
  | same h =>
    refine hL.congr (hL.accounts.congr h.leases h.activeLeases fun b => by rw [h.slots]) h.leases
      (.of_eq h.history) ?_
    simp [holders, h.streams]
  | push howes | pop howes =>
    refine hL.congr hL.accounts rfl (.of_eq rfl) ?_
    simp [holders, Frame.lease?_of_owes howes]
  | gathered hgather =>
    refine hL.congr hL.accounts rfl (.of_eq rfl) ?_
    simp [holders, Frame.lease?_of_owes (Frame.owes_of_gather hgather),
      Frame.lease?_of_owes (Frame.owes_withGather hgather _)]
  | probeStarted | noted | relayEntered | relayClosing | relayAbandoned =>
    exact hL.congr hL.accounts rfl (agree_record rfl) (.refl _)
  | probed | failed =>
    exact hL.congr (hL.accounts.setHealth _ _) (BackendPool.setHealth_leases ..)
      (agree_record rfl) (.refl _)
  | selected hsel hlease hf =>
    rename_i w f l pool lease
    obtain ⟨-, -, rfl, b, slot, -, -, -, hleases, -⟩ := BackendPool.select_ok hsel
    have hread := BackendPool.select_leaseReleased hsel
    have hfresh : s.pool.leases.length ∉ s.holders F := fun hmem =>
      Nat.lt_irrefl _ (hL.valid _ hmem)
    have hlength : pool.leases.length = s.pool.leases.length + 1 := by simp [hleases]
    have hholders : (record { s with pool := pool }
        (.selected lease.backendId s.pool.leases.length)).holders (f :: F) =
          s.pool.leases.length :: s.holders F := by
      simp [holders, hf]
    constructor
    case accounts => exact hL.accounts.select hsel
    case consistent =>
      intro l' hl'
      exact hL.consistent l' ((agree_record (k := ofLeases) (s := { s with pool := pool }) rfl).mem
        rfl |>.mp hl')
    case releasedOnce =>
      intro l'
      rw [record_pool, hread, ← hL.releasedOnce]
      exact count_record (s := { s with pool := pool }) nofun
    case unique =>
      rw [hholders]
      exact List.nodup_cons.mpr ⟨hfresh, hL.unique⟩
    case valid =>
      intro l' hl'
      rw [hholders] at hl'
      show l' < pool.leases.length
      rw [hlength]
      rcases List.mem_cons.mp hl' with rfl | hold
      · exact Nat.lt_succ_self _
      · exact Nat.lt_succ_of_lt (hL.valid l' hold)
    case held =>
      intro l' hlt hfree
      have hlt' : l' < s.pool.leases.length + 1 := hlength ▸ hlt
      rw [record_pool, hread] at hfree
      rw [hholders, List.mem_cons]
      rcases Nat.lt_succ_iff_lt_or_eq.mp hlt' with hold | hnew
      · exact .inr (hL.held l' hold hfree)
      · exact .inl hnew
  | released hf h =>
    refine hL.release h ?_ ?_
    · simp [holders, hf, h.streams]
    · intro l' hl' hne
      simpa [holders, hf, h.streams, hne] using hl'
  | opened =>
    -- the lease goes from the operation to its stream
    refine hL.congr (hL.accounts.congr rfl rfl fun _ => rfl) rfl (.of_eq rfl) ?_
    simp only [holders, List.map_append, List.map_cons, List.map_nil, ← List.append_assoc]
    exact List.perm_append_singleton ..
  | rejected =>
    refine hL.congr hL.accounts rfl (agree_record (s := { s with streams := _ }) rfl) ?_
    simp only [holders, record_streams, List.map_append, List.map_cons, List.map_nil,
      ← List.append_assoc]
    exact List.perm_append_singleton ..
  | streamLock =>
    refine hL.congr hL.accounts rfl (.of_eq rfl) (.of_eq (modifyStream_holders ?_ _))
    exact fun _ => rfl
  | streamClosing =>
    refine hL.congr hL.accounts rfl (agree_record rfl) ?_
    show ((s.modifyStream _ _).holders F).Perm (s.holders F)
    refine .of_eq (modifyStream_holders ?_ _)
    exact fun _ => rfl
  | relayStreamClosing =>
    rename_i relay _ _ _ _ _ _ _
    refine hL.congr hL.accounts rfl ?_ ?_
    · intro x hx
      rw [count_record (by rintro rfl; exact nomatch hx)]
      exact agree_record (k := ofLeases) rfl x hx
    · show ((StreamSystem.modifyStream _ relay.stream _).holders F).Perm (s.holders F)
      refine .of_eq (modifyStream_holders ?_ _)
      exact fun _ => rfl
  | streamFinished hst h =>
    have hmid : LeasesGood _ F' :=
      hL.release h (by rw [holders, h.streams]; exact .refl _) fun l' hl' _ => by
      rw [holders, h.streams]
      exact hl'
    exact hmid.congr (hmid.accounts.congr rfl rfl fun _ => rfl) rfl (.of_eq rfl) (.refl _)
  | forced hl h =>
    refine hL.release h (by rw [holders, h.streams]; exact .refl _) fun l' hl' _ => ?_
    rw [holders, h.streams]
    exact hl'
  | poolClosing => exact hL.congr (hL.accounts.congr rfl rfl fun _ => rfl) rfl (.of_eq rfl) (.refl _)
  | poolClosed => exact hL.congr hL.accounts.finishClose rfl (.of_eq rfl) (.refl _)
  | relayLock | observed | relayMade => exact hL.congr hL.accounts rfl (.of_eq rfl) (.refl _)
  | relaySettled =>
    refine hL.congr (by simpa using hL.accounts) (by simp) ?_ ?_
    · intro x hx
      rw [settleRelay_agree (k := ofLeases) rfl rfl x hx]
      exact agree_record (k := ofLeases) rfl x hx
    · rw [holders, settleRelay_streams]
      exact .refl _

theorem LeasesGood.stream_holder {r : StreamId} {st : RoutedBackendStream}
    (hst : s.streams[r]? = some st) : st.lease ∈ s.holders F :=
  List.mem_append_right _ (List.mem_map.mpr ⟨st, List.mem_of_getElem? hst, rfl⟩)

/-- No two streams have the same lease. -/
theorem LeasesGood.stream_unique (h : LeasesGood s F) {r r' : StreamId}
    {st st' : RoutedBackendStream} (hst : s.streams[r]? = some st)
    (hst' : s.streams[r']? = some st') (heq : st.lease = st'.lease) : r = r' := by
  have hnodup : (s.streams.map (·.lease)).Nodup := (List.nodup_append.mp h.unique).2.1
  obtain ⟨hr, rfl⟩ := List.getElem?_eq_some_iff.mp hst
  obtain ⟨hr', rfl⟩ := List.getElem?_eq_some_iff.mp hst'
  have hlt : r < (s.streams.map (·.lease)).length := by simpa using hr
  have hlt' : r' < (s.streams.map (·.lease)).length := by simpa using hr'
  have hsame : (s.streams.map (·.lease))[r] = (s.streams.map (·.lease))[r'] := by simpa using heq
  exact hnodup.getElem_inj_iff.mp hsame

theorem Effect.streams (h : Effect G s F s' F') (hg : Good s F) : StreamsGood s' F' := by
  have hS := hg.streams
  cases h with
  | same h =>
    exact hS.congr h.streams (fun l => BackendPool.leaseReleased_congr h.leases l)
      (fun hc => h.closed ▸ hc) (.of_eq h.history) (fun _ _ => id) fun _ => id
  | push howes =>
    refine hS.congr rfl (fun _ => rfl) id (.of_eq rfl) (fun _ _ => List.mem_cons_of_mem _) ?_
    intro l hl
    exact (List.mem_cons.mp hl).resolve_left (by rintro rfl; cases howes)
  | pop howes =>
    refine hS.congr rfl (fun _ => rfl) id (.of_eq rfl) ?_ fun _ => List.mem_cons_of_mem _
    intro r o hF
    exact (List.mem_cons.mp hF).resolve_left (Frame.ne_finishClose_of_owes howes r o)
  | gathered hgather =>
    refine hS.congr rfl (fun _ => rfl) id (.of_eq rfl) (fun r o hF => ?_) fun l hl => ?_
    · refine List.mem_cons_of_mem _ ((List.mem_cons.mp hF).resolve_left ?_)
      exact Frame.ne_finishClose_of_owes (Frame.owes_of_gather hgather) r o
    · refine List.mem_cons_of_mem _ ((List.mem_cons.mp hl).resolve_left fun heq => ?_)
      have howes := heq ▸ Frame.owes_withGather hgather _
      cases howes
  | probeStarted | noted | relayEntered | relayClosing =>
    refine hS.congr rfl (fun _ => rfl) id (agree_record rfl) (fun _ _ hF => ?_) fun _ hF => ?_
    · first
        | exact hF
        | exact List.mem_cons_of_mem _ hF
    · first
        | exact hF
        | exact (List.mem_cons.mp hF).resolve_left (by simp)
  | relayAbandoned =>
    exact hS.congr rfl (fun _ => rfl) id (agree_record rfl)
      (fun _ _ hF => (List.mem_cons.mp hF).resolve_left (by simp)) fun _ => List.mem_cons_of_mem _
  | probed =>
    exact hS.congr rfl
      (fun l => BackendPool.leaseReleased_congr (BackendPool.setHealth_leases ..) l)
      (fun hc => by simpa using hc) (agree_record rfl)
      (fun _ _ hF => (List.mem_cons.mp hF).resolve_left (by simp)) fun _ => List.mem_cons_of_mem _
  | failed =>
    exact hS.congr rfl
      (fun l => BackendPool.leaseReleased_congr (BackendPool.setHealth_leases ..) l)
      (fun hc => by simpa [BackendPool.markUnhealthy] using hc) (agree_record rfl)
      (fun _ _ => id) fun _ => id
  | selected hsel hlease hf =>
    rename_i w f l pool lease
    obtain ⟨-, -, hl, b, slot, -, -, -, -, -, -, hclosed⟩ := BackendPool.select_ok hsel
    have hread := BackendPool.select_leaseReleased hsel
    have hmid : StreamsGood (record { s with pool := pool } (.selected lease.backendId l)) F :=
      hS.congr rfl hread (fun hc => hclosed ▸ hc)
      (agree_record (s := { s with pool := pool }) rfl) (fun _ _ => id) fun _ => id
    refine { hmid with finished := ?_, opening := ?_ }
    · intro r st hst hc hF
      exact hmid.finished r st hst hc fun o ho => hF o (List.mem_cons_of_mem _ ho)
    · intro l' hl' hc
      rcases List.mem_cons.mp hl' with rfl | hold
      · -- the operation has just been given the lease
        obtain rfl : l' = l := by simpa [Frame.lease?] using hf
        exact (hread l').trans (BackendPool.leaseReleased_of_le hl.ge)
      · exact hmid.opening l' hold hc
  | released hf h =>
    have hfree := hg.leases.not_held hf
    refine hS.release h ?_ ?_ ?_ fun _ => List.mem_cons_of_mem _
    · rintro r st hst rfl
      exact absurd (LeasesGood.stream_holder hst) hfree
    · intro _ hF
      exact hfree (List.mem_append_left _ (List.mem_filterMap.mpr ⟨_, hF, rfl⟩))
    · intro r st _ _ o hF
      exact (List.mem_cons.mp hF).resolve_left (Frame.ne_finishClose_of_lease? hf r o)
  | opened hclosed =>
    rename_i l
    -- the pool is open, so nobody has released the lease
    have hl := hS.opening l (List.mem_cons_self ..) hclosed
    constructor
    case lock =>
      intro r st hst hused
      rcases getElem?_concat_some hst with hold | ⟨-, rfl⟩
      · exact hS.lock r st hold hused
      · exact absurd hused AsyncLock.not_used_new
    case leafOnce =>
      intro r
      rw [append_streamClosed, hS.leafOnce]
      simp
    case finished =>
      intro r st hst hc hF
      rcases getElem?_concat_some hst with hold | ⟨-, rfl⟩
      · exact hS.finished r st hold hc fun o ho => hF o ((List.mem_cons.mp ho).resolve_left (by simp))
      · cases hc
    case begun =>
      intro r st hst hr
      rcases getElem?_concat_some hst with hold | ⟨-, rfl⟩
      · exact hS.begun r st hold hr
      · cases hl.symm.trans hr
    case opening => exact fun l' hl' hc => hS.opening l' (List.mem_cons_of_mem _ hl') hc
  | rejected hclosed =>
    rename_i l lock o _ _
    constructor
    case lock =>
      intro r st hst hused
      rcases getElem?_concat_some hst with hold | ⟨-, rfl⟩
      · exact hS.lock r st hold hused
      · rfl
    case leafOnce =>
      intro r
      rw [record_streamClosed, append_streamClosed]
      by_cases heq : r = s.streams.length
      · subst heq
        rw [count_record_self (s := { s with streams := _ }), hS.leafOnce,
          streamClosed_of_le le_rfl]
        simp
      · rw [count_record (s := { s with streams := _ }) (by simpa using Ne.symm heq), hS.leafOnce]
        simp [heq]
    case finished =>
      intro r st hst hc hF
      rcases getElem?_concat_some hst with hold | ⟨rfl, -⟩
      · refine hS.finished r st hold hc fun o' ho' => hF o' ?_
        exact List.mem_cons_of_mem _ (List.mem_cons_of_mem _ ((List.mem_cons.mp ho').resolve_left (by simp)))
      · exact absurd (List.mem_cons_self ..) (hF o)
    case begun =>
      intro r st hst hr
      rcases getElem?_concat_some hst with hold | ⟨-, rfl⟩
      · exact hS.begun r st hold hr
      · rfl
    case opening =>
      intro l' _ hc
      cases hclosed.symm.trans hc
  | streamLock hclosed hlock =>
    rename_i r lock
    have hread : ∀ r', (s.modifyStream r fun st =>
        { st with closeLock := lock st }).streamClosed r' = s.streamClosed r' :=
      modifyStream_streamClosed fun _ => rfl
    have hget : ∀ (r' : StreamId) (st' : RoutedBackendStream),
        (s.modifyStream r fun st => { st with closeLock := lock st }).streams[r']? =
          some st' →
        ∃ st, s.streams[r']? = some st ∧ st'.lease = st.lease ∧ st'.closed = st.closed ∧
          (r = r' ∨ st' = st) := by
      intro r' st' hst'
      rw [modifyStream_get] at hst'
      split at hst'
      · next heq =>
        obtain ⟨st, hst, rfl⟩ := Option.map_eq_some_iff.mp hst'
        exact ⟨st, hst, rfl, rfl, .inl heq⟩
      · exact ⟨st', hst', rfl, rfl, .inr rfl⟩
    constructor
    case lock =>
      intro r' st' hst' hused
      obtain ⟨st, hst, -, hc, rfl | rfl⟩ := hget r' st' hst'
      · rw [hc, ← streamClosed_of hst]
        exact hclosed
      · exact hS.lock r' st' hst hused
    case leafOnce =>
      intro r'
      rw [hread]
      exact hS.leafOnce r'
    case finished =>
      intro r' st' hst' hc hF
      obtain ⟨st, hst, hlease, heq, -⟩ := hget r' st' hst'
      rw [hlease]
      exact hS.finished r' st hst (heq ▸ hc) hF
    case begun =>
      intro r' st' hst' hr
      obtain ⟨st, hst, hlease, heq, -⟩ := hget r' st' hst'
      rw [heq]
      exact hS.begun r' st hst (hlease ▸ hr)
    case opening => exact hS.opening
  | streamClosing hopen => exact hS.close hopen fun _ => ⟨rfl, rfl⟩
  | streamFinished hst h =>
    rename_i s₁ r o st call _ _
    have hmid : StreamsGood _ F' := hS.release h ?_ ?_ ?_ fun _ => List.mem_cons_of_mem _
    · exact hmid.congr rfl (fun _ => rfl) id (.of_eq rfl) (fun _ _ => id) fun _ => id
    · -- the stream with this lease is the one that was closed
      intro r' st' hst' heq
      obtain rfl := hg.leases.stream_unique hst' hst heq
      obtain rfl := Option.some.inj (hst'.symm.trans hst)
      have hphase := hg.closing.phase _ (List.mem_cons_self ..)
      exact (streamClosed_of hst).symm.trans hphase
    · intro _ hF
      have hnodup := hg.leases.unique
      have hop : st.lease ∈ (Frame.finishClose r o :: F').filterMap Frame.lease? :=
        List.mem_filterMap.mpr ⟨_, List.mem_cons_of_mem _ hF, rfl⟩
      have hstream : st.lease ∈ s.streams.map (·.lease) :=
        List.mem_map.mpr ⟨st, List.mem_of_getElem? hst, rfl⟩
      exact (List.nodup_append.mp hnodup).2.2 _ hop _ hstream rfl
    · intro r' st' hst' hne o' hF
      refine (List.mem_cons.mp hF).resolve_left fun heq => hne ?_
      obtain ⟨rfl, -⟩ := Frame.finishClose.inj heq
      obtain rfl := Option.some.inj (hst'.symm.trans hst)
      rfl
  | poolClosing =>
    exact hS.congr rfl (fun _ => rfl) (by intros; contradiction) (.of_eq rfl) (fun _ _ => id) fun _ => id
  | poolClosed | relayLock | observed | relayMade =>
    exact hS.congr rfl (fun _ => rfl) id (.of_eq rfl) (fun _ _ => id) fun _ => id
  | forced hl h =>
    refine hS.release h ?_ ?_ (fun _ _ _ _ _ => id) fun _ => id
    · intro r st hst _
      have := hl.2.2 r
      simpa [streamOpen_of hst] using this
    · intro hc
      simp [hl.1] at hc
  | relayStreamClosing hrelay hopen hstream =>
    rename_i i o o' relay lock slock _ _
    have hmid : StreamsGood ((s.record (.relayCloseEntered i)).modifyRelay i fun rel =>
        { rel with closed := true, closeLock := lock rel }) (.relayClose i o :: F) :=
      hS.congr rfl (fun _ => rfl) id (agree_record rfl)
        (fun _ _ => List.mem_cons_of_mem _) fun _ hF => (List.mem_cons.mp hF).resolve_left (by simp)
    exact hmid.close hstream fun _ => ⟨rfl, rfl⟩
  | relaySettled =>
    refine hS.congr settleRelay_streams (fun l => ?_) ?_ ?_
      (fun _ _ hF => (List.mem_cons.mp hF).resolve_left (by simp)) fun _ => List.mem_cons_of_mem _
    · rw [settleRelay_pool]
      rfl
    · rw [settleRelay_pool]
      exact id
    · intro x hx
      rw [settleRelay_agree (k := ofLeaves) rfl rfl x hx]
      exact agree_record (k := ofLeaves) rfl x hx

end Changes

end Gateway.StreamSystem
