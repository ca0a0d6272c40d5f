import Gateway.Spec.RelayInvariant

/-!
# The close locks of the streams

The task in `await self._stream.aclose()` holds the stream's close lock, so whoever gets
the lock after that finds the stream not only closed but finished: nobody is in the
close of its leaf any more.

## Key results

- `Effect.locks`: every change keeps the part of the invariant for the close locks
- `Effect.good`: every change keeps the invariant
-/

namespace Gateway.StreamSystem

variable {G : Guard} {s s' : StreamSystem} {F F' : List Frame} {f : Frame} {r : StreamId}

theorem countP_finishes_cons (h : f.finishes r = false) :
    (f :: F).countP (Frame.finishes r) = F.countP (Frame.finishes r) :=
  List.countP_cons_of_neg (by simp [h])

theorem countP_finishes_self (r : StreamId) (o : BackendOutcome) :
    (Frame.finishClose r o :: F).countP (Frame.finishes r) = F.countP (Frame.finishes r) + 1 :=
  List.countP_cons_of_pos (by simp [Frame.finishes])

theorem countP_finishes_ne {r' : StreamId} (h : r ≠ r') (o : BackendOutcome) :
    (Frame.finishClose r o :: F).countP (Frame.finishes r') = F.countP (Frame.finishes r') :=
  countP_finishes_cons (by simp [Frame.finishes, h])

/-- A change that leaves the streams and begins to close none. -/
theorem LocksGood.congr (h : LocksGood s F) (hstreams : s'.streams = s.streams)
    (hframes : ∀ r, F'.countP (Frame.finishes r) ≤ F.countP (Frame.finishes r))
    (hclosed : s'.pool.closed = false → s.pool.closed = false)
    (hactive : ∀ r ∈ s.pool.activeStreams, r ∈ s'.pool.activeStreams) : LocksGood s' F' where
  orderly r st hst := h.orderly r st (hstreams ▸ hst)
  once r := by
    rw [streamClosed, hstreams]
    exact (hframes r).trans (h.once r)
  held r hr := by
    rw [hstreams]
    exact h.held r (Nat.lt_of_lt_of_le hr (hframes r))
  registered hc r hr := hactive r (h.registered (hclosed hc) r (Nat.lt_of_lt_of_le hr (hframes r)))

/-- A stream that somebody finishes exists. -/
theorem LocksGood.exists_of_finishing (h : LocksGood s F) (hr : 0 < F.countP (Frame.finishes r)) :
    r < s.streams.length := by
  obtain ⟨st, hst, -⟩ := h.held r hr
  exact (List.getElem?_eq_some_iff.mp hst).1

/-- Nobody finishes a stream that is not closed. -/
theorem LocksGood.none_of_not_closed (h : LocksGood s F) (hr : s.streamClosed r = false) :
    F.countP (Frame.finishes r) = 0 := by
  have honce := h.once r
  rw [hr, Bool.toNat_false] at honce
  exact Nat.le_zero.mp honce

/-- Nobody finishes a stream whose close lock is free. -/
theorem LocksGood.none_of_free (h : LocksGood s F) {st : RoutedBackendStream}
    (hst : s.streams[r]? = some st) (hfree : st.closeLock.locked = false) :
    F.countP (Frame.finishes r) = 0 := by
  by_contra hne
  obtain ⟨st', hst', hheld⟩ := h.held r (Nat.pos_of_ne_zero hne)
  obtain rfl := Option.some.inj (hst.symm.trans hst')
  exact nomatch hfree.symm.trans hheld

/-- Beginning to close an open stream. -/
theorem LocksGood.close {g : RoutedBackendStream → RoutedBackendStream} {o : BackendOutcome}
    (h : LocksGood s F) (hopen : s.streamOpen r = true)
    (hactive : s.pool.closed = false → r ∈ s.pool.activeStreams)
    (hg : ∀ st, (g st).closed = true ∧ (g st).closeLock.locked = true ∧
      (g st).closeLock.Orderly) :
    LocksGood ((s.modifyStream r g).record (.leafClosed r)) (.finishClose r o :: F) := by
  have hnone := h.none_of_not_closed (streamClosed_of_open hopen)
  have hread := modifyStream_close_streamClosed (fun st => (hg st).1) (lt_of_streamOpen hopen)
  constructor
  case orderly =>
    intro r' st' hst'
    rw [record_streams, modifyStream_get] at hst'
    split at hst'
    · obtain ⟨st, -, rfl⟩ := Option.map_eq_some_iff.mp hst'
      exact (hg st).2.2
    · exact h.orderly r' st' hst'
  case once =>
    intro r'
    rw [record_streamClosed, hread]
    by_cases heq : r = r'
    · subst heq
      rw [countP_finishes_self, hnone]
      simp
    · rw [countP_finishes_ne heq]
      simpa [heq] using h.once r'
  case held =>
    intro r' hr'
    rw [record_streams, modifyStream_get]
    by_cases heq : r = r'
    · subst heq
      obtain ⟨st, hst, -⟩ := streamOpen_iff.mp hopen
      exact ⟨g st, by simp [hst], (hg st).2.1⟩
    · rw [countP_finishes_ne heq] at hr'
      rw [if_neg heq]
      exact h.held r' hr'
  case registered =>
    intro hc r' hr'
    by_cases heq : r = r'
    · exact heq ▸ hactive hc
    · rw [countP_finishes_ne heq] at hr'
      exact h.registered hc r' hr'

/-- A new stream. -/
theorem LocksGood.append {st : RoutedBackendStream} {pool : BackendPool} (h : LocksGood s F)
    (hlock : st.closeLock.Orderly)
    (hclosed : pool.closed = false → s.pool.closed = false)
    (hactive : ∀ r ∈ s.pool.activeStreams, r ∈ pool.activeStreams) :
    LocksGood { s with pool := pool, streams := s.streams ++ [st] } F where
  orderly r st' hst' := by
    rcases getElem?_concat_some hst' with hold | ⟨-, rfl⟩
    · exact h.orderly r st' hold
    · exact hlock
  once r := by
    rw [append_streamClosed]
    refine (h.once r).trans ?_
    cases s.streamClosed r <;> simp
  held r hr := by
    obtain ⟨st', hst', hheld⟩ := h.held r hr
    exact ⟨st', (List.getElem?_append_left (h.exists_of_finishing hr)).trans hst', hheld⟩
  registered hc r hr := hactive r (h.registered (hclosed hc) r hr)

theorem Effect.locks (h : Effect G s F s' F') (hg : Good s F) : LocksGood s' F' := by
  have hL := hg.locks
  -- frames that are not in the close of a leaf
  have hcons : ∀ {f : Frame} {F : List Frame}, (∀ r, f.finishes r = false) →
      ∀ r, (f :: F).countP (Frame.finishes r) = F.countP (Frame.finishes r) :=
    fun hf r => countP_finishes_cons (hf r)
  cases h with
  | same h =>
    refine hL.congr h.streams (fun _ => le_rfl) (fun hc => h.closed ▸ hc) fun r hr => ?_
    rwa [h.activeStreams]
  | push howes =>
    exact hL.congr rfl (fun r => (hcons (Frame.finishes_of_owes howes) r).le) id fun _ => id
  | pop howes =>
    exact hL.congr rfl (fun r => (hcons (Frame.finishes_of_owes howes) r).ge) id fun _ => id
  | gathered hgather =>
    refine hL.congr rfl (fun r => ?_) id fun _ => id
    rw [hcons (Frame.finishes_of_owes (Frame.owes_withGather hgather _)),
      hcons (Frame.finishes_of_owes (Frame.owes_of_gather hgather))]
  | probeStarted | relayClosing =>
    exact hL.congr rfl (fun r => (hcons (fun _ => rfl) r).le) id fun _ => id
  | probed =>
    refine hL.congr rfl (fun r => (hcons (fun _ => rfl) r).ge) ?_ ?_
    · simp
    · simp
  | selected hsel hlease hf =>
    obtain ⟨-, hopen, -, b, slot, -, -, -, -, -, hstreams, -⟩ := BackendPool.select_ok hsel
    refine hL.congr rfl (fun r => (hcons (Frame.finishes_of_lease? hf) r).le) (fun _ => hopen)
      fun r hr => ?_
    show r ∈ _
    rwa [record_pool, hstreams]
  | failed =>
    refine hL.congr rfl (fun _ => le_rfl) ?_ ?_
    · simp [BackendPool.markUnhealthy]
    · simp [BackendPool.markUnhealthy]
  | released hf h =>
    refine hL.congr h.streams (fun r => (hcons (Frame.finishes_of_lease? hf) r).ge)
      (fun hc => h.closed ▸ hc) fun r hr => ?_
    rwa [h.activeStreams]
  | opened hclosed =>
    have htail : LocksGood s F' := hL.congr rfl (fun r => (hcons (fun _ => rfl) r).ge) id fun _ => id
    exact htail.append AsyncLock.orderly_new id fun r hr => Finset.mem_insert_of_mem hr
  | rejected hclosed houtcome hlock =>
    rename_i F l lock o
    have htail : LocksGood s F := hL.congr rfl (fun r => (hcons (fun _ => rfl) r).ge) id fun _ => id
    have hnew : LocksGood { s with pool := s.pool, streams := s.streams ++ [⟨l, lock, true⟩] } F :=
      htail.append hlock.2 id fun _ => id
    -- nobody was finishing the new stream
    have hnone : F.countP (Frame.finishes s.streams.length) = 0 :=
      htail.none_of_not_closed (streamClosed_of_le le_rfl)
    constructor
    case orderly => exact hnew.orderly
    case once =>
      intro r
      rw [record_streamClosed, append_streamClosed]
      by_cases heq : s.streams.length = r
      · subst heq
        rw [countP_finishes_self, hcons (fun _ => rfl), hnone]
        simp
      · rw [countP_finishes_ne heq, hcons fun _ => rfl]
        refine (htail.once r).trans ?_
        cases s.streamClosed r <;> simp
    case held =>
      intro r hr
      by_cases heq : s.streams.length = r
      · subst heq
        exact ⟨⟨l, lock, true⟩, List.getElem?_concat_length, hlock.1⟩
      · rw [countP_finishes_ne heq, hcons fun _ => rfl] at hr
        exact hnew.held r hr
    case registered => exact fun hc => by cases hclosed.symm.trans hc
  | streamLock hclosed hlock =>
    rename_i r lock
    constructor
    case orderly =>
      intro r' st' hst'
      rw [modifyStream_get] at hst'
      split at hst'
      · next heq =>
        obtain ⟨st, hst, rfl⟩ := Option.map_eq_some_iff.mp hst'
        exact (hlock st (heq ▸ hst) (hL.orderly r' st hst)).1
      · exact hL.orderly r' st' hst'
    case once =>
      intro r'
      have hread : ∀ r', (s.modifyStream r fun st =>
          { st with closeLock := lock st }).streamClosed r' = s.streamClosed r' :=
        modifyStream_streamClosed fun _ => rfl
      rw [hread]
      exact hL.once r'
    case held =>
      intro r' hr'
      obtain ⟨st, hst, hheld⟩ := hL.held r' hr'
      rw [modifyStream_get]
      split
      · next heq =>
        subst heq
        refine ⟨{ st with closeLock := lock st }, by simp [hst], ?_⟩
        rcases (hlock st hst (hL.orderly r st hst)).2 with hsame | hnone
        · exact hsame.trans hheld
        · rw [hnone] at hr'
          exact absurd hr' (Nat.lt_irrefl 0)
      · exact ⟨st, hst, hheld⟩
    case registered => exact hL.registered
  | streamClosing hopen houtcome hlock =>
    exact hL.close hopen (fun hc => hg.closing.active hc _ hopen)
      fun st => ⟨rfl, (hlock st).1, (hlock st).2⟩
  | streamFinished hst h =>
    rename_i s₁ r o st call _ _
    have htail : ∀ r', F'.countP (Frame.finishes r') ≤
        (Frame.finishClose r o :: F').countP (Frame.finishes r') := fun r' =>
      (List.sublist_cons_self ..).countP_le
    -- it was the only one
    have hnone : F'.countP (Frame.finishes r) = 0 := by
      have honce := hL.once r
      have hle := Bool.toNat_le (s.streamClosed r)
      rw [countP_finishes_self] at honce
      omega
    constructor
    case orderly => exact fun r' st' hst' => hL.orderly r' st' (h.streams ▸ hst')
    case once =>
      intro r'
      show _ ≤ (s₁.streamClosed r').toNat
      rw [streamClosed, h.streams]
      exact (htail r').trans (hL.once r')
    case held =>
      intro r' hr'
      show ∃ st, s₁.streams[r']? = some st ∧ _
      rw [h.streams]
      exact hL.held r' (Nat.lt_of_lt_of_le hr' (htail r'))
    case registered =>
      intro hc r' hr'
      refine Finset.mem_erase.mpr ⟨?_, ?_⟩
      · rintro rfl
        rw [hnone] at hr'
        exact Nat.lt_irrefl 0 hr'
      · rw [h.activeStreams]
        exact hL.registered (h.closed ▸ hc) r' (Nat.lt_of_lt_of_le hr' (htail r'))
  | poolClosing => exact hL.congr rfl (fun _ => le_rfl) (by intros; contradiction) fun _ => id
  | poolClosed | noted | relayEntered | relayLock | observed | relayMade =>
    exact hL.congr rfl (fun _ => le_rfl) id fun _ => id
  | forced hl h =>
    refine hL.congr h.streams (fun _ => le_rfl) (fun hc => h.closed ▸ hc) fun r hr => ?_
    rwa [h.activeStreams]
  | relayStreamClosing hrelay hopen hstream houtcome hlock =>
    rename_i i o o' relay lock slock
    have hmid : LocksGood ((s.record (.relayCloseEntered i)).modifyRelay i fun rel =>
        { rel with closed := true, closeLock := lock rel }) (.relayClose i o :: F) :=
      hL.congr rfl (fun r => (hcons (fun _ => rfl) r).le) id fun _ => id
    exact hmid.close hstream (fun hc => hg.closing.active hc _ hstream)
      fun st => ⟨rfl, (hlock st).1, (hlock st).2⟩
  | relaySettled =>
    refine hL.congr settleRelay_streams (fun r => (hcons (fun _ => rfl) r).ge) ?_ fun r hr => ?_
    · rw [settleRelay_pool]
      exact id
    · rwa [settleRelay_pool]
  | relayAbandoned =>
    exact hL.congr rfl (fun r => (hcons (fun _ => rfl) r).ge) id fun _ => id

/-- Every change keeps the invariant. -/
theorem Effect.good (h : Effect G s F s' F') (hg : Good s F) : Good s' F' :=
  ⟨h.leases hg, h.streams hg, h.relays hg, h.closing hg, h.locks hg⟩

end Gateway.StreamSystem
