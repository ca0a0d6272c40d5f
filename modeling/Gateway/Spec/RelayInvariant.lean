import Gateway.Spec.StreamInvariant

/-!
# The invariant of the relays and of closing the pool

Two more parts of `Good`: every change keeps what is said of the relays and of
`BackendPool.close`. What a task relies on while it waits holds until it resumes,
because nothing reopens (`Grows`).

## Key results

- `Effect.grows`: no change reopens anything
- `Effect.relays`, `Effect.closing`: every change keeps these two parts
-/

namespace Gateway.StreamSystem

section Support

variable {s s' : StreamSystem} {F F' : List Frame} {f : Frame} {r : StreamId} {i : RelayId}
  {l : BackendLeaseId} {e : StreamEvent} {outcome : StreamOutcome}

/-! ## The relays -/

theorem RelaysGood.congr (h : RelaysGood s F) (hrelays : s'.relays = s.relays)
    (hlength : s.streams.length ≤ s'.streams.length)
    (hclosed : ∀ r, s.streamClosed r = true → s'.streamClosed r = true)
    (hagree : Agree ofRelays s s')
    (hcount : ∀ i, F'.countP (Frame.closesRelay i) = F.countP (Frame.closesRelay i)) :
    RelaysGood s' F' where
  valid i relay hrelay := (h.valid i relay (hrelays ▸ hrelay)).trans_le hlength
  lock i relay hrelay := h.lock i relay (hrelays ▸ hrelay)
  entered i hi := by
    have hc := h.entered i ((hagree.mem rfl).mp hi)
    rwa [relayClosed, hrelays]
  once i := by
    rw [hcount, hagree _ rfl, h.once, relayClosed, relayClosed, hrelays]
  stream i relay hrelay hc := hclosed _ (h.stream i relay (hrelays ▸ hrelay) hc)

/-- An update of a relay that keeps its stream and whether it is closed. -/
theorem RelaysGood.update {g : StreamingRelay → StreamingRelay} (h : RelaysGood s F)
    (hg : ∀ rel, (g rel).stream = rel.stream ∧ (g rel).closed = rel.closed)
    (hlock : ∀ rel, s.relays[i]? = some rel → (g rel).closeLock.Used → rel.closed = true) :
    RelaysGood (s.modifyRelay i g) F := by
  have hget : ∀ (j : RelayId) (rel' : StreamingRelay),
      (s.modifyRelay i g).relays[j]? = some rel' →
      ∃ rel, s.relays[j]? = some rel ∧ rel'.stream = rel.stream ∧ rel'.closed = rel.closed ∧
        (rel'.closeLock.Used → rel.closed = true) := by
    intro j rel' hrel'
    rw [modifyRelay_get] at hrel'
    split at hrel'
    · next heq =>
      obtain ⟨rel, hrel, rfl⟩ := Option.map_eq_some_iff.mp hrel'
      exact ⟨rel, hrel, (hg rel).1, (hg rel).2, hlock rel (heq ▸ hrel)⟩
    · exact ⟨rel', hrel', rfl, rfl, h.lock j rel' hrel'⟩
  constructor
  case valid =>
    intro j rel' hrel'
    obtain ⟨rel, hrel, hstream, -, -⟩ := hget j rel' hrel'
    rw [hstream]
    exact h.valid j rel hrel
  case lock =>
    intro j rel' hrel' hused
    obtain ⟨rel, -, -, hc, hl⟩ := hget j rel' hrel'
    rw [hc]
    exact hl hused
  case entered =>
    intro j hj
    rw [modifyRelay_relayClosed fun rel => (hg rel).2]
    exact h.entered j hj
  case once =>
    intro j
    rw [modifyRelay_relayClosed fun rel => (hg rel).2]
    exact h.once j
  case stream =>
    intro j rel' hrel' hc
    obtain ⟨rel, hrel, hstream, heq, -⟩ := hget j rel' hrel'
    rw [modifyRelay_streamClosed, hstream]
    exact h.stream j rel hrel (heq ▸ hc)

/-- Beginning to close a relay whose stream is closed. -/
theorem RelaysGood.close {g : StreamingRelay → StreamingRelay} {relay : StreamingRelay}
    (h : RelaysGood s F) (hrelay : s.relays[i]? = some relay) (hopen : relay.closed = false)
    (hclosed : s.streamClosed relay.stream = true)
    (hg : ∀ rel, (g rel).stream = rel.stream ∧ (g rel).closed = true) :
    RelaysGood ((s.record (.relayCloseEntered i)).modifyRelay i g) (.relayClose i outcome :: F) := by
  have hi : i < s.relays.length := (List.getElem?_eq_some_iff.mp hrelay).1
  have hread : ∀ j, ((s.record (.relayCloseEntered i)).modifyRelay i g).relayClosed j =
      (s.relayClosed j || i = j) :=
    modifyRelay_close_relayClosed (s := s.record _) (fun rel => (hg rel).2) hi
  have hget : ∀ (j : RelayId) (rel' : StreamingRelay),
      ((s.record (.relayCloseEntered i)).modifyRelay i g).relays[j]? = some rel' →
      ∃ rel, s.relays[j]? = some rel ∧ rel'.stream = rel.stream ∧
        (i = j ∧ rel'.closed = true ∨ i ≠ j ∧ rel' = rel) := by
    intro j rel' hrel'
    rw [modifyRelay_get] at hrel'
    split at hrel'
    · next heq =>
      obtain ⟨rel, hrel, rfl⟩ := Option.map_eq_some_iff.mp hrel'
      exact ⟨rel, hrel, (hg rel).1, .inl ⟨heq, (hg rel).2⟩⟩
    · next hne => exact ⟨rel', hrel', rfl, .inr ⟨hne, rfl⟩⟩
  constructor
  case valid =>
    intro j rel' hrel'
    obtain ⟨rel, hrel, hstream, -⟩ := hget j rel' hrel'
    rw [hstream]
    exact h.valid j rel hrel
  case lock =>
    intro j rel' hrel' hused
    obtain ⟨rel, hrel, -, ⟨-, hc⟩ | ⟨-, rfl⟩⟩ := hget j rel' hrel'
    · exact hc
    · exact h.lock j rel' hrel hused
  case entered =>
    intro j hj
    rw [hread, Bool.or_eq_true, decide_eq_true_eq]
    by_cases heq : i = j
    · exact .inr heq
    · exact .inl (h.entered j ((mem_record (by simpa using heq)).mp hj))
  case once =>
    intro j
    have hbefore := h.once j
    have hrecord : ((s.record (.relayCloseEntered i)).modifyRelay i g).history.count
        (.admissionReleased j) = s.history.count (.admissionReleased j) :=
      count_record (s := s) nofun
    rw [hread, hrecord, List.countP_cons]
    by_cases heq : i = j
    · subst heq
      rw [relayClosed_of hrelay, hopen, Bool.toNat_false] at hbefore
      simp only [Frame.closesRelay, decide_true, if_true, Bool.or_true, Bool.toNat_true]
      omega
    · simp only [Frame.closesRelay, heq, decide_false, Bool.or_false, Bool.false_eq_true, if_false]
      exact hbefore
  case stream =>
    intro j rel' hrel' hc
    obtain ⟨rel, hrel, hstream, ⟨rfl, -⟩ | ⟨-, rfl⟩⟩ := hget j rel' hrel'
    · obtain rfl := Option.some.inj (hrel.symm.trans hrelay)
      rw [hstream]
      exact hclosed
    · exact h.stream j rel' hrel hc

/-- Giving back the admission lease at the end of a relay's close. -/
theorem RelaysGood.give (h : RelaysGood s (.relayClose i outcome :: F)) :
    RelaysGood (s.record (.admissionReleased i)) F where
  valid := h.valid
  lock := h.lock
  entered j hj :=
    h.entered j ((mem_record (e := .admissionReleased i) (x := .relayCloseEntered j) nofun).mp hj)
  once j := by
    have hbefore := h.once j
    rw [List.countP_cons] at hbefore
    by_cases heq : i = j
    · subst heq
      rw [count_record_self, record_relayClosed, ← hbefore]
      simp only [Frame.closesRelay, decide_true, if_true]
      omega
    · rw [count_record (by simpa using heq), record_relayClosed, ← hbefore]
      simp [Frame.closesRelay, heq]
  stream := h.stream

/-! ## What never goes back -/

/-- From `s` to `s'` nothing reopens and no lease disappears. -/
structure Grows (s s' : StreamSystem) : Prop where
  poolClosed : s.pool.closed = true → s'.pool.closed = true
  leases : s.pool.leases.length ≤ s'.pool.leases.length
  streamClosed : ∀ r, s.streamClosed r = true → s'.streamClosed r = true
  streamOpen : s.pool.closed = true → ∀ r, s'.streamOpen r = true → s.streamOpen r = true
  relayClosed : ∀ i, s.relayClosed i = true → s'.relayClosed i = true

theorem Grows.of_eq (hclosed : s'.pool.closed = s.pool.closed)
    (hleases : s'.pool.leases.length = s.pool.leases.length) (hstreams : s'.streams = s.streams)
    (hrelays : s'.relays = s.relays) : Grows s s' where
  poolClosed h := hclosed ▸ h
  leases := hleases.ge
  streamClosed r h := by rwa [StreamSystem.streamClosed, hstreams]
  streamOpen _ r h := by rwa [StreamSystem.streamOpen, hstreams] at h
  relayClosed i h := by rwa [StreamSystem.relayClosed, hrelays]

theorem Grows.releasable (h : Grows s s') (hl : s.Releasable l) : s'.Releasable l := by
  obtain ⟨hclosed, hlt, hopen⟩ := hl
  refine ⟨h.poolClosed hclosed, hlt.trans_le h.leases, fun r => ?_⟩
  by_contra hr
  have hbefore := h.streamOpen hclosed r (by simpa using hr)
  simp [hopen r] at hbefore

/-- What holds while a task waits is not undone. -/
theorem Grows.phase (h : Grows s s') (hf : s.Phase f) : s'.Phase f := by
  cases f with
  | finishLock r w o => exact h.streamClosed r hf
  | finishClose r o => exact h.streamClosed r hf
  | relayLock i w o => exact h.relayClosed i hf
  | probeOnce g => exact hf
  | poolProbe leases streams =>
    obtain ⟨hclosed, hleases, hopen⟩ := hf
    exact ⟨h.poolClosed hclosed, fun l hl => (hleases l hl).trans_le h.leases,
      fun r hr => hopen r (h.streamOpen hclosed r hr)⟩
  | poolStreams g leases =>
    obtain ⟨hclosed, hleases, hchildren, hopen⟩ := hf
    exact ⟨h.poolClosed hclosed, fun l hl => (hleases l hl).trans_le h.leases, hchildren,
      fun hg r hr => hopen hg r (h.streamOpen hclosed r hr)⟩
  | poolBackends g leases => exact ⟨hf.1, fun l hl => h.releasable (hf.2 l hl)⟩
  | poolLeases g =>
    intro c hc
    obtain ⟨l, heq, hl⟩ := hf c hc
    exact ⟨l, heq, h.releasable hl⟩
  | _ => trivial

theorem Grows.refl (s : StreamSystem) : Grows s s := .of_eq rfl rfl rfl rfl

theorem Grows.record (h : Grows s s') : Grows s (s'.record e) :=
  ⟨h.poolClosed, h.leases, h.streamClosed, h.streamOpen, h.relayClosed⟩

theorem Grows.modifyStream {g : RoutedBackendStream → RoutedBackendStream} (h : Grows s s')
    (hg : ∀ st, st.closed = true → (g st).closed = true) : Grows s (s'.modifyStream r g) where
  poolClosed := h.poolClosed
  leases := h.leases
  streamClosed r' hr := by
    obtain ⟨st, hst, hc⟩ := streamClosed_iff.mp (h.streamClosed r' hr)
    rw [StreamSystem.streamClosed, modifyStream_get, hst]
    split
    · exact hg st hc
    · exact hc
  streamOpen hclosed r' hr := by
    refine h.streamOpen hclosed r' ?_
    obtain ⟨st', hst', hc⟩ := streamOpen_iff.mp hr
    rw [modifyStream_get] at hst'
    split at hst'
    · obtain ⟨st, hst, rfl⟩ := Option.map_eq_some_iff.mp hst'
      rw [streamOpen_of hst]
      by_contra hn
      have hgc := hg st (by simpa using hn)
      simp [hc] at hgc
    · rw [streamOpen_of hst', hc]
      rfl
  relayClosed := h.relayClosed

theorem Grows.modifyRelay {g : StreamingRelay → StreamingRelay} (h : Grows s s')
    (hg : ∀ rel, rel.closed = true → (g rel).closed = true) : Grows s (s'.modifyRelay i g) where
  poolClosed := h.poolClosed
  leases := h.leases
  streamClosed := h.streamClosed
  streamOpen := h.streamOpen
  relayClosed j hj := by
    obtain ⟨rel, hrel, hc⟩ := relayClosed_iff.mp (h.relayClosed j hj)
    rw [StreamSystem.relayClosed, modifyRelay_get, hrel]
    split
    · exact hg rel hc
    · exact hc

theorem Grows.trans {s'' : StreamSystem} (h : Grows s s') (h' : Grows s' s'') : Grows s s'' where
  poolClosed hc := h'.poolClosed (h.poolClosed hc)
  leases := h.leases.trans h'.leases
  streamClosed r hr := h'.streamClosed r (h.streamClosed r hr)
  streamOpen hc r hr := h.streamOpen hc r (h'.streamOpen (h.poolClosed hc) r hr)
  relayClosed i hi := h'.relayClosed i (h.relayClosed i hi)

end Support

section Changes

variable {G : Guard} {s s' : StreamSystem} {F F' : List Frame}

theorem Effect.relays (h : Effect G s F s' F') (hg : Good s F) : RelaysGood s' F' := by
  have hR := hg.relays
  cases h with
  | same h =>
    refine hR.congr h.relays (h.streams ▸ le_rfl) (fun r hr => ?_) (.of_eq h.history) fun _ => rfl
    rwa [streamClosed, h.streams]
  | gathered hgather =>
    refine hR.congr rfl le_rfl (fun _ => id) (.of_eq rfl) fun i => ?_
    simp [Frame.closesRelay_of_owes (Frame.owes_of_gather hgather),
      Frame.closesRelay_of_owes (Frame.owes_withGather hgather _)]
  | push howes | pop howes =>
    refine hR.congr rfl le_rfl (fun _ => id) (.of_eq rfl) fun i => ?_
    simp [Frame.closesRelay_of_owes howes i]
  | probeStarted | probed | failed | noted =>
    refine hR.congr rfl le_rfl (fun _ => id) (agree_record rfl) fun i => ?_
    simp [Frame.closesRelay]
  | selected hsel hlease hf =>
    refine hR.congr rfl le_rfl (fun _ => id) (agree_record rfl) fun i => ?_
    simp [Frame.closesRelay_of_lease? hf]
  | released hf h =>
    refine hR.congr h.relays (h.streams ▸ le_rfl) (fun r hr => ?_) (h.agree rfl) fun i => ?_
    · rwa [streamClosed, h.streams]
    · simp [Frame.closesRelay_of_lease? hf]
  | opened =>
    refine hR.congr rfl (by simp) (fun r hr => ?_) (.of_eq rfl) fun i => ?_
    · rw [append_streamClosed, hr, Bool.true_or]
    · simp [Frame.closesRelay]
  | rejected =>
    refine hR.congr rfl (by simp) (fun r hr => ?_) (agree_record (s := { s with streams := _ }) rfl)
      fun i => ?_
    · rw [record_streamClosed, append_streamClosed, hr, Bool.true_or]
    · simp [Frame.closesRelay]
  | streamLock =>
    refine hR.congr rfl (by simp) (fun r hr => ?_) (.of_eq rfl) fun _ => rfl
    refine (modifyStream_streamClosed ?_ r).trans hr
    exact fun _ => rfl
  | streamClosing hopen =>
    refine hR.congr rfl (by simp) (fun r hr => ?_) (agree_record rfl) fun i => ?_
    · rw [record_streamClosed, modifyStream_close_streamClosed (fun _ => rfl)
        (lt_of_streamOpen hopen), hr, Bool.true_or]
    · simp [Frame.closesRelay]
  | streamFinished hst h =>
    refine hR.congr h.relays (h.streams ▸ le_rfl) (fun r hr => ?_) (h.agree rfl) fun i => ?_
    · rwa [streamClosed, h.streams]
    · simp [Frame.closesRelay]
  | poolClosing | poolClosed => exact hR.congr rfl le_rfl (fun _ => id) (.of_eq rfl) fun _ => rfl
  | forced hl h =>
    refine hR.congr h.relays (h.streams ▸ le_rfl) (fun r hr => ?_) (h.agree rfl) fun _ => rfl
    rwa [streamClosed, h.streams]
  | relayEntered hclosed =>
    rename_i i
    constructor
    case entered =>
      intro j hj
      by_cases heq : i = j
      · exact heq ▸ hclosed
      · exact hR.entered j ((mem_record (by simpa using heq)).mp hj)
    case once =>
      intro j
      rw [count_record (e := .relayCloseEntered i) (x := .admissionReleased j) (by simp)]
      exact hR.once j
    case valid => exact hR.valid
    case lock => exact hR.lock
    case stream => exact hR.stream
  | relayLock hclosed =>
    exact hR.update (fun _ => ⟨rfl, rfl⟩) fun rel hrel _ => (relayClosed_of hrel).symm.trans hclosed
  | relayClosing hrelay hopen hclosed => exact hR.close hrelay hopen hclosed fun _ => ⟨rfl, rfl⟩
  | relayStreamClosing hrelay hopen hstream =>
    rename_i i o o' relay lock slock _ _
    -- close the stream first: the two changes touch different things
    have hmid : RelaysGood (s.modifyStream relay.stream fun st =>
        { st with closed := true, closeLock := slock st }) F := by
      refine hR.congr rfl (by simp) (fun r hr => ?_) (.of_eq rfl) fun _ => rfl
      rw [modifyStream_close_streamClosed (fun _ => rfl) (lt_of_streamOpen hstream), hr,
        Bool.true_or]
    have hclose : RelaysGood _ (.relayClose i o :: F) := hmid.close hrelay hopen
      (g := fun rel => { rel with closed := true, closeLock := lock rel }) ?_ fun _ => ⟨rfl, rfl⟩
    · refine hclose.congr rfl le_rfl (fun _ => id) (agree_record rfl) fun j => ?_
      simp [Frame.closesRelay]
    · rw [modifyStream_close_streamClosed (fun _ => rfl) (lt_of_streamOpen hstream)]
      simp
  | relaySettled =>
    rename_i i o outcome
    have hmid := hR.give.update (i := i)
      (g := fun rel => { rel with metricsObserver := rel.metricsObserver.map (·.finalize) })
      (fun _ => ⟨rfl, rfl⟩) fun rel hrel => hR.lock i rel hrel
    refine hmid.congr settleRelay_relays ?_ ?_ ?_ fun _ => rfl
    · simp
    · intro r hr
      rwa [streamClosed, settleRelay_streams]
    · exact settleRelay_agree (k := ofRelays) rfl rfl
  | relayAbandoned => exact hR.give
  | observed => exact hR.update (fun _ => ⟨rfl, rfl⟩) fun rel hrel => hR.lock _ rel hrel
  | relayMade hr =>
    rename_i r observed onOutcome
    have hread := append_relayClosed (s := s)
      ⟨r, if observed then some .new else none, onOutcome, .new, false⟩
    simp only [Bool.and_false, Bool.or_false] at hread
    constructor
    case valid =>
      intro i relay hrelay
      rcases getElem?_concat_some hrelay with hold | ⟨-, rfl⟩
      · exact hR.valid i relay hold
      · exact hr
    case lock =>
      intro i relay hrelay hused
      rcases getElem?_concat_some hrelay with hold | ⟨-, rfl⟩
      · exact hR.lock i relay hold hused
      · exact absurd hused AsyncLock.not_used_new
    case entered =>
      intro i hi
      rw [hread]
      exact hR.entered i hi
    case once =>
      intro i
      rw [hread]
      exact hR.once i
    case stream =>
      intro i relay hrelay hc
      rcases getElem?_concat_some hrelay with hold | ⟨-, rfl⟩
      · exact hR.stream i relay hold hc
      · cases hc

theorem Effect.grows (h : Effect G s F s' F') : Grows s s' := by
  cases h with
  | same h => exact .of_eq h.closed (by rw [h.leases]) h.streams h.relays
  | probed | failed =>
    exact .of_eq (BackendPool.setHealth_closed ..) (by simp [BackendPool.markUnhealthy]) rfl rfl
  | selected hsel =>
    obtain ⟨-, -, -, b, slot, -, -, -, hleases, -, -, hclosed⟩ := BackendPool.select_ok hsel
    refine ⟨fun hc => hclosed.trans hc, ?_, fun _ => id, fun _ _ => id, fun _ => id⟩
    simp [hleases]
  | released _ h | forced _ h => exact .of_eq h.closed h.length h.streams h.relays
  | streamFinished _ h => exact .of_eq h.closed h.length h.streams h.relays
  | opened hclosed =>
    refine ⟨id, le_rfl, fun r hr => ?_, fun hc => ?_, fun _ => id⟩
    · rw [append_streamClosed, hr, Bool.true_or]
    · cases hclosed.symm.trans hc
  | rejected =>
    refine ⟨id, le_rfl, fun r hr => ?_, fun _ r hr => ?_, fun _ => id⟩
    · rw [record_streamClosed, append_streamClosed, hr, Bool.true_or]
    · rw [record_streamOpen, append_streamOpen] at hr
      simpa using hr
  | streamLock => exact (Grows.refl s).modifyStream fun _ => id
  | streamClosing =>
    refine .record (.modifyStream (.refl s) ?_)
    exact fun _ _ => rfl
  | poolClosing => exact ⟨fun _ => rfl, le_rfl, fun _ => id, fun _ _ => id, fun _ => id⟩
  | relayLock | observed => exact (Grows.refl s).modifyRelay fun _ => id
  | relayClosing =>
    refine .modifyRelay (.record (.refl s)) ?_
    exact fun _ _ => rfl
  | relayStreamClosing =>
    refine .record (.modifyStream (.modifyRelay (.record (.refl s)) ?_) ?_)
    · exact fun _ _ => rfl
    · exact fun _ _ => rfl
  | relaySettled =>
    rename_i i o outcome
    have hrelays : Grows s (s.modifyRelay i fun rel =>
        { rel with metricsObserver := rel.metricsObserver.map (·.finalize) }) :=
      (Grows.refl s).modifyRelay fun _ => id
    exact hrelays.trans (.of_eq (by simp) (by simp) (by simp) settleRelay_relays)
  | relayMade =>
    refine ⟨id, le_rfl, fun _ => id, fun _ _ => id, fun i hi => ?_⟩
    rw [append_relayClosed, hi, Bool.true_or]
  | _ => exact .of_eq rfl rfl rfl rfl

/-- The frames that stay keep what holds while their tasks wait. -/
theorem ClosingGood.phases (h : ClosingGood s F) (hgrows : Grows s s')
    (hF : ∀ f ∈ F', f ∈ F ∨ s'.Phase f) : ∀ f ∈ F', s'.Phase f := by
  intro f hf
  rcases hF f hf with hold | hnew
  · exact hgrows.phase (h.phase f hold)
  · exact hnew

theorem Effect.closing (h : Effect G s F s' F') (hg : Good s F) : ClosingGood s' F' := by
  have hC := hg.closing
  have hgrows := h.grows
  cases h with
  | same h =>
    refine ⟨fun hc r hr => ?_, hC.phases hgrows fun f => .inl⟩
    rw [h.activeStreams]
    refine hC.active (h.closed ▸ hc) r ?_
    rwa [streamOpen, h.streams] at hr
  | push howes hf hprobe =>
    refine ⟨hC.active, hC.phases hgrows fun f' hf' => ?_⟩
    rcases List.mem_cons.mp hf' with rfl | hold
    · exact .inr hf
    · exact .inl hold
  | gathered hgather hf =>
    refine ⟨hC.active, hC.phases hgrows fun f' hf' => ?_⟩
    rcases List.mem_cons.mp hf' with rfl | hold
    · exact .inr hf
    · exact .inl (List.mem_cons_of_mem _ hold)
  | pop | relayAbandoned =>
    exact ⟨hC.active, hC.phases hgrows fun f hf => .inl (List.mem_cons_of_mem _ hf)⟩
  | probeStarted =>
    refine ⟨hC.active, hC.phases hgrows fun f' hf' => ?_⟩
    rcases List.mem_cons.mp hf' with rfl | hold
    · exact .inr trivial
    · exact .inl hold
  | probed =>
    refine ⟨fun hc r hr => ?_, hC.phases hgrows fun f hf => .inl (List.mem_cons_of_mem _ hf)⟩
    rw [record_pool, BackendPool.setHealth_activeStreams]
    exact hC.active (by simpa using hc) r hr
  | failed =>
    refine ⟨fun hc r hr => ?_, hC.phases hgrows fun f => .inl⟩
    rw [record_pool, BackendPool.markUnhealthy, BackendPool.setHealth_activeStreams]
    exact hC.active (by simpa [BackendPool.markUnhealthy] using hc) r hr
  | selected hsel hlease hf =>
    obtain ⟨-, hopen, -, b, slot, -, -, -, -, -, hstreams, -⟩ := BackendPool.select_ok hsel
    refine ⟨fun _ r hr => hstreams ▸ hC.active hopen r hr, hC.phases hgrows fun f' hf' => ?_⟩
    rcases List.mem_cons.mp hf' with rfl | hold
    · refine .inr ?_
      cases f' <;> trivial
    · exact .inl hold
  | released hf h =>
    refine ⟨fun hc r hr => ?_, hC.phases hgrows fun f hf => .inl (List.mem_cons_of_mem _ hf)⟩
    rw [h.activeStreams]
    refine hC.active (h.closed ▸ hc) r ?_
    rwa [streamOpen, h.streams] at hr
  | opened hclosed =>
    refine ⟨fun _ r hr => ?_, hC.phases hgrows fun f hf => .inl (List.mem_cons_of_mem _ hf)⟩
    rw [append_streamOpen] at hr
    simp only [Finset.mem_insert]
    rcases Bool.or_eq_true _ _ ▸ hr with hold | hnew
    · exact .inr (hC.active hclosed r hold)
    · exact .inl (by simpa using hnew)
  | rejected hclosed =>
    refine ⟨(fun hc => by cases hclosed.symm.trans hc), hC.phases hgrows fun f' hf' => ?_⟩
    rcases List.mem_cons.mp hf' with rfl | hrest
    · refine .inr ?_
      show StreamSystem.streamClosed _ _ = true
      rw [record_streamClosed, append_streamClosed]
      simp
    · rcases List.mem_cons.mp hrest with rfl | hold
      · exact .inr trivial
      · exact .inl (List.mem_cons_of_mem _ hold)
  | streamLock =>
    refine ⟨fun hc r hr => hC.active hc r ?_, hC.phases hgrows fun f => .inl⟩
    rwa [modifyStream_streamOpen] at hr
    exact fun _ => rfl
  | streamClosing hopen =>
    rename_i r o lock
    refine ⟨fun hc r' hr => hC.active hc r' ?_, hC.phases hgrows fun f' hf' => ?_⟩
    · rw [record_streamOpen, modifyStream_close_streamOpen fun _ => rfl] at hr
      exact (Bool.and_eq_true _ _ ▸ hr).1
    · rcases List.mem_cons.mp hf' with rfl | hold
      · refine .inr ?_
        show StreamSystem.streamClosed _ _ = true
        rw [record_streamClosed, modifyStream_close_streamClosed (fun _ => rfl)
          (lt_of_streamOpen hopen)]
        simp
      · exact .inl hold
  | streamFinished hst h =>
    rename_i s₁ r o st call _ _
    refine ⟨fun hc r' hr => ?_, hC.phases hgrows fun f hf => .inl (List.mem_cons_of_mem _ hf)⟩
    have hr' : s.streamOpen r' = true := by rwa [streamOpen, h.streams] at hr
    -- the stream that is unregistered is closed
    have hphase : s.streamClosed r = true := hC.phase _ (List.mem_cons_self ..)
    refine Finset.mem_erase.mpr ⟨?_, h.activeStreams ▸ hC.active (h.closed ▸ hc) r' hr'⟩
    rintro rfl
    simp [streamClosed_of_open hr'] at hphase
  | poolClosing => exact ⟨(by intros; contradiction), hC.phases hgrows fun f => .inl⟩
  | poolClosed | noted | relayEntered | relayLock | observed | relayMade =>
    exact ⟨hC.active, hC.phases hgrows fun f => .inl⟩
  | forced hl h =>
    refine ⟨fun hc => ?_, hC.phases hgrows fun f => .inl⟩
    rw [h.closed, hl.1] at hc
    cases hc
  | relayClosing =>
    refine ⟨hC.active, hC.phases hgrows fun f' hf' => ?_⟩
    rcases List.mem_cons.mp hf' with rfl | hold
    · exact .inr trivial
    · exact .inl hold
  | relayStreamClosing hrelay hopen hstream =>
    refine ⟨fun hc r' hr => hC.active hc r' ?_, hC.phases hgrows fun f' hf' => ?_⟩
    · rw [record_streamOpen, modifyStream_close_streamOpen fun _ => rfl] at hr
      exact (Bool.and_eq_true _ _ ▸ hr).1
    · rcases List.mem_cons.mp hf' with rfl | hrest
      · refine .inr ?_
        show StreamSystem.streamClosed _ _ = true
        refine (modifyStream_close_streamClosed ?_ ?_ _).trans (by simp)
        · exact fun _ => rfl
        · exact lt_of_streamOpen hstream
      · rcases List.mem_cons.mp hrest with rfl | hold
        · exact .inr trivial
        · exact .inl hold
  | relaySettled =>
    refine ⟨fun hc r hr => ?_, hC.phases hgrows fun f hf => .inl (List.mem_cons_of_mem _ hf)⟩
    rw [settleRelay_pool] at hc ⊢
    rw [streamOpen, settleRelay_streams] at hr
    exact hC.active hc r hr

end Changes

end Gateway.StreamSystem
