import Gateway.Spec.StreamRuns

/-!
# What the relays keep

The functions of `streaming/relay.py`, and from all functions together what the code
after any `await` keeps.

## Key results

- `relayAclose_keeps`: what `StreamingRelay.aclose` keeps until it waits
- `react_ensures`: what the code after an `await` keeps
-/

namespace Gateway

/-- What has to hold when a signal is handed to a stack: the guard permits what the
    signal can make the innermost frames do, and a gather of closes is over. -/
structure Handed (G : Guard) (s : StreamSystem) (stack : List Frame) (signal : Signal) : Prop where
  verdict : ∀ k b rest, stack = .probe k b :: rest → signal = .verdict true →
    G.verdict s.pool s.history k b
  streams : ∀ g leases rest, stack = .poolStreams g leases :: rest →
    (∀ e, signal ≠ .raised e) → g.notStarted = [] ∧ g.cancelled = false
  /-- an exception that is no `Exception` does not get to `StreamingRelay.aclose` -/
  abandon : ∀ e i o rest, signal = .raised e → e.isException = false →
    (stack = .relayClose i o :: rest ∨ ∃ f, f.isFinish = true ∧ stack = f :: .relayClose i o :: rest) →
    G.abandon i
  ends : ∀ f rest l call, stack = f :: rest → s.ending f signal = some (l, call) → G.ends l call
  completes : ∀ it rest iterator, stack = .iterate it :: rest → signal = .stop →
    s.iterators[it]? = some iterator → s.streamOpen iterator.stream = true →
    G.completes iterator.stream
  shutdown : ∀ f rest, stack = f :: rest → f.isPoolClose = true → G.shutdown
  /-- a task that gets the close lock of a stream is another matter -/
  lock : ∀ r w o rest, stack = .finishLock r w o :: rest → ∃ e, signal = .raised e

/-- No operation ends when a caller receives a signal. -/
theorem Frame.ending_of_calls {g f : Frame} (h : g.calls f = true) (s : StreamSystem)
    (signal : Signal) : s.ending g signal = none := by
  cases g <;> simp_all [Frame.calls, Frame.isCaller, StreamSystem.ending]

theorem Frame.isPoolClose_of_calls {g f : Frame} (h : g.calls f = true) : g.isPoolClose = false := by
  cases g <;> simp_all [Frame.calls, Frame.isCaller, Frame.isPoolClose]

/-- A stack any frame can be put on receives any signal. -/
theorem Handed.of_callable {G : Guard} {s : StreamSystem} {stack : List Frame} (h : Callable stack)
    (signal : Signal) : Handed G s stack signal := by
  cases stack with
  | nil => exact ⟨(by intros; contradiction), (by intros; contradiction), by simp, (by intros; contradiction), (by intros; contradiction), (by intros; contradiction), (by intros; contradiction)⟩
  | cons g rest =>
    have hcalls : g.calls (.respond 0) = true := (List.isChain_cons_cons.mp (h (.respond 0))).1
    constructor
    case verdict =>
      intro k b rest' heq _
      obtain ⟨rfl, -⟩ := List.cons.inj heq
      cases hcalls
    case streams =>
      intro g' leases rest' heq _
      obtain ⟨rfl, -⟩ := List.cons.inj heq
      cases hcalls
    case abandon =>
      intro e i o rest' _ _ hstack
      rcases hstack with heq | ⟨f, hf, heq⟩
      · obtain ⟨rfl, -⟩ := List.cons.inj heq
        cases hcalls
      · obtain ⟨rfl, -⟩ := List.cons.inj heq
        cases g <;> simp_all [Frame.calls, Frame.isFinish, Frame.isCaller]
    case ends =>
      intro f rest' l call heq hend
      obtain ⟨rfl, -⟩ := List.cons.inj heq
      rw [Frame.ending_of_calls hcalls] at hend
      cases hend
    case completes =>
      intro it rest' iterator heq
      obtain ⟨rfl, -⟩ := List.cons.inj heq
      cases hcalls
    case shutdown =>
      intro f rest' heq hclose
      obtain ⟨rfl, -⟩ := List.cons.inj heq
      rw [Frame.isPoolClose_of_calls hcalls] at hclose
      cases hclose
    case lock =>
      intro r w o rest' heq
      obtain ⟨rfl, -⟩ := List.cons.inj heq
      cases hcalls

/-- `_finish` hands its caller what it was handed, or nothing. -/
theorem Handed.below {G : Guard} {s s' : StreamSystem} {rest : List Frame} {f : Frame}
    {signal signal' : Signal} (h : Handed G s (f :: rest) signal)
    (hf : f.isFinish = true) (hl : Linked (f :: rest))
    (hsignal : ∀ e, signal' = .raised e → signal = .raised e) : Handed G s' rest signal' := by
  cases rest with
  | nil => exact .of_callable (fun f => List.isChain_singleton f) _
  | cons g rest =>
    have hcalls : g.calls f = true := (List.isChain_cons_cons.mp hl).1
    constructor
    case verdict =>
      intro k b rest' heq _
      obtain ⟨rfl, -⟩ := List.cons.inj heq
      cases hcalls
    case streams =>
      intro g' leases rest' heq _
      obtain ⟨rfl, -⟩ := List.cons.inj heq
      cases hcalls
    case abandon =>
      intro e i o rest' he hexc hstack
      rcases hstack with heq | ⟨f', hf', heq⟩
      · exact h.abandon e i o rest' (hsignal e he) hexc (.inr ⟨f, hf, by rw [heq]⟩)
      · obtain ⟨rfl, -⟩ := List.cons.inj heq
        cases g <;> simp_all [Frame.calls, Frame.isFinish, Frame.isCaller]
    case ends =>
      intro f' rest' l call heq hend
      obtain ⟨rfl, -⟩ := List.cons.inj heq
      rw [Frame.ending_of_calls hcalls] at hend
      cases hend
    case completes =>
      intro it rest' iterator heq
      obtain ⟨rfl, -⟩ := List.cons.inj heq
      cases hcalls
    case shutdown =>
      intro f' rest' heq hclose
      obtain ⟨rfl, -⟩ := List.cons.inj heq
      rw [Frame.isPoolClose_of_calls hcalls] at hclose
      cases hclose
    case lock =>
      intro r w o rest' heq
      obtain ⟨rfl, -⟩ := List.cons.inj heq
      cases hcalls

namespace StreamSystem

variable {G : Guard} {J : StreamSystem → List Frame → Prop} {others rest : List Frame}
  {s : StreamSystem} {f : Frame} {signal : Signal} {i : RelayId} {outcome : StreamOutcome}

section

variable (hJ : Stable G J)
include hJ

/-! ## `StreamingRelay` -/

theorem Stable.lockRelay {F : List Frame} (h : J s F) (hclosed : s.relayClosed i = true)
    (lock : AsyncLock) : J (s.modifyRelay i fun rel => { rel with closeLock := lock }) F :=
  hJ.effect h (.relayLock hclosed)

theorem Stable.unlockRelay {F : List Frame} (h : J s F) (hclosed : s.relayClosed i = true) :
    J (s.unlockRelay i) F :=
  hJ.effect h (.relayLock hclosed)

omit hJ in
theorem lockRelay_relayClosed (lock : AsyncLock) (j : RelayId) :
    (s.modifyRelay i fun rel => { rel with closeLock := lock }).relayClosed j = s.relayClosed j :=
  modifyRelay_relayClosed (fun _ => by rfl) j

/-- Whoever waited for the close lock finds the relay closed. -/
theorem relayLocked_keeps (h : J s (rest ++ others)) (hclosed : s.relayClosed i = true)
    (hrest : Linked rest) : (s.relayLocked i outcome).Keeps (Alive J others) rest := by
  obtain ⟨relay, hrelay, hc⟩ := relayClosed_iff.mp hclosed
  unfold relayLocked
  rw [hrelay]
  simp only [hc, if_true]
  exact ⟨hJ.unlockRelay h hclosed, hrest⟩

/-- The relay whose close has just ended is closed. -/
theorem Stable.relayClosed {o : StreamOutcome} {F : List Frame} (h : J s (.relayClose i o :: F)) :
    s.relayClosed i = true := by
  have honce := (hJ.good h).relays.once i
  rw [List.countP_cons_of_pos (by simp [Frame.closesRelay])] at honce
  cases hc : s.relayClosed i with
  | true => rfl
  | false =>
    rw [hc, Bool.toNat_false] at honce
    omega

theorem afterRelayClose_keeps (h : J s (.relayClose i outcome :: rest ++ others))
    (hrest : Linked rest)
    (hguard : ∀ e, signal = .raised e → e.isException = false → G.abandon i) :
    (s.afterRelayClose i outcome signal).Keeps (Alive J others) rest := by
  have hclosed := hJ.relayClosed h
  have hsettle : ∀ final, Alive J others
      (((s.record (.admissionReleased i)).settleRelay i final).unlockRelay i) rest := by
    intro final
    have hsettled : Effect G s (.relayClose i outcome :: (rest ++ others))
        ((s.record (.admissionReleased i)).settleRelay i final) (rest ++ others) := .relaySettled
    exact ⟨hJ.unlockRelay (hJ.effect h hsettled) (hsettled.grows.relayClosed i hclosed), hrest⟩
  unfold afterRelayClose
  dsimp only
  split
  · split
    · exact hsettle _
    · next e hexc =>
      refine ⟨hJ.unlockRelay (hJ.effect h (.relayAbandoned (hguard e rfl (by simpa using hexc)))) ?_,
        hrest⟩
      exact hclosed
  · exact hsettle _

end

/-- `StreamingRelay.aclose` of an open relay takes the close lock at once. -/
theorem relayAclose_of_open {relay : StreamingRelay} (hrelay : s.relays[i]? = some relay)
    (hidle : ¬relay.closeLock.Used) (hopen : relay.closed = false) :
    s.relayAclose i outcome =
      (((s.record (.relayCloseEntered i)).modifyRelay i fun rel =>
        { rel with closed := true, closeLock := { relay.closeLock with locked := true } }).finish
          relay.stream .cancelled).andThen (.relayClose i outcome) fun s signal =>
            s.afterRelayClose i outcome signal := by
  unfold relayAclose
  rw [hrelay]
  simp only [AsyncLock.acquire_idle hidle]
  unfold relayLocked
  simp [modifyRelay, record, hrelay, hopen, List.modify_modify_eq, Function.comp_def]

section

variable (hJ : Stable G J)
include hJ

theorem relayAclose_keeps (h : J s (rest ++ others)) (hrest : Callable rest) :
    (s.relayAclose i outcome).Keeps (Alive J others) rest := by
  have hg := hJ.good h
  cases hrelay : s.relays[i]? with
  | none =>
    unfold relayAclose
    rw [hrelay]
    exact ⟨h, hrest.linked⟩
  | some relay =>
    cases hc : relay.closed with
    | false =>
      have hidle : ¬relay.closeLock.Used := fun hused => by
        simp [hg.relays.lock i relay hrelay hused] at hc
      rw [relayAclose_of_open hrelay hidle hc]
      obtain ⟨st, hst⟩ : ∃ st, s.streams[relay.stream]? = some st :=
        ⟨_, List.getElem?_eq_getElem (hg.relays.valid i relay hrelay)⟩
      cases hstc : st.closed with
      | false =>
        -- the stream is closed along with the relay
        have hstidle : ¬st.closeLock.Used := fun hused => by
          simp [hg.streams.lock _ st hst hused] at hstc
        rw [finish_of_open (s := (s.record (.relayCloseEntered i)).modifyRelay i _) hst hstidle hstc]
        have hstream : s.streamOpen relay.stream = true := by simp [streamOpen_of hst, hstc]
        have horderly := AsyncLock.orderly_idle hstidle
        exact ⟨hJ.effect h (.relayStreamClosing hrelay hc hstream nofun fun _ => ⟨rfl, horderly⟩),
          hrest.relayClose i outcome _ rfl⟩
      | true =>
        have hstream : s.streamClosed relay.stream = true := by simp [streamClosed_of hst, hstc]
        have hclosing : ∀ lock, J ((s.record (.relayCloseEntered i)).modifyRelay i fun rel =>
            { rel with closed := true, closeLock := lock })
              (.relayClose i outcome :: rest ++ others) :=
          fun _ => hJ.effect h (.relayClosing hrelay hc hstream)
        have hfinish := finish_ensures (r := relay.stream) (o := .cancelled) hJ
          (hclosing { relay.closeLock with locked := true }) (hrest.relayClose i outcome) nofun
        refine Run.Ensures.andThen (hfinish.mono (fun s' called hs' => ?_) fun _ _ => id) ?_
        · simpa using hs'
        intro s' signal hs'
        obtain ⟨hs', rfl⟩ := hs'
        exact afterRelayClose_keeps hJ hs'.inv hrest.linked nofun
    | true =>
      have hclosed : s.relayClosed i = true := by simp [relayClosed_of hrelay, hc]
      have hentered := hJ.effect h (.relayEntered hclosed)
      unfold relayAclose
      rw [hrelay]
      simp only
      split
      · next lock _ =>
        refine relayLocked_keeps hJ (hJ.lockRelay hentered hclosed lock) ?_ hrest.linked
        exact (lockRelay_relayClosed lock i).trans hclosed
      · next waiter lock _ =>
        exact hJ.suspend (hJ.lockRelay hentered hclosed lock) (hrest _) rfl
          ((lockRelay_relayClosed lock i).trans hclosed) nofun nofun

theorem relayIterateEnd_keeps (h : J s (rest ++ others)) (hrest : Linked rest)
    (it : RelayIteratorId) : (s.relayIterateEnd it signal).Keeps (Alive J others) rest :=
  ⟨hJ.setRelayIterator h it .finished, hrest⟩

theorem afterRelayIterateFinally_keeps (h : J s (rest ++ others)) (hrest : Linked rest)
    (it : RelayIteratorId) (result : Signal) :
    (s.afterRelayIterateFinally it signal result).Keeps (Alive J others) rest := by
  unfold afterRelayIterateFinally
  split
  · exact relayIterateEnd_keeps hJ h hrest it
  · exact relayIterateEnd_keeps hJ h hrest it

theorem relayIterateFinally_keeps (h : J s (rest ++ others)) (hrest : Callable rest)
    (it : RelayIteratorId) : (s.relayIterateFinally it signal).Keeps (Alive J others) rest := by
  unfold relayIterateFinally
  split
  · exact ⟨h, hrest.linked⟩
  · split
    · refine hJ.call h hrest rfl rfl (fun h hrest => relayAclose_keeps hJ h hrest) ?_
      intro s result h
      exact afterRelayIterateFinally_keeps hJ h hrest.linked it result
    · exact relayIterateEnd_keeps hJ h hrest.linked it

theorem afterRelayIterateClose_keeps (h : J s (rest ++ others)) (hrest : Callable rest)
    (it : RelayIteratorId) (reraise : Option Exc) (result : Signal) :
    (s.afterRelayIterateClose it reraise result).Keeps (Alive J others) rest := by
  unfold afterRelayIterateClose
  split
  all_goals exact relayIterateFinally_keeps hJ h hrest it

theorem afterRelayIterate_keeps (h : J s (rest ++ others)) (hrest : Callable rest)
    (it : RelayIteratorId) : (s.afterRelayIterate it signal).Keeps (Alive J others) rest := by
  unfold afterRelayIterate
  split
  · exact ⟨h, hrest.linked⟩
  next iterator _ =>
  -- the clauses that call `aclose`
  have hclose : ∀ (outcome : StreamOutcome) (reraise : Option Exc),
      ((s.relayAclose iterator.relay outcome).andThen (.relayIterateClose it reraise)
        fun s result => s.afterRelayIterateClose it reraise result).Keeps (Alive J others) rest := by
    intro outcome reraise
    refine hJ.call h hrest rfl rfl (fun h hrest => relayAclose_keeps hJ h hrest) ?_
    intro s result h
    exact afterRelayIterateClose_keeps hJ h hrest it reraise result
  dsimp only
  split
  · exact ⟨hJ.setRelayIterator (hJ.effect h .observed) it .suspended, hrest.linked⟩
  · exact hclose _ _
  · exact relayIterateFinally_keeps hJ h hrest it
  · exact hclose _ _
  · exact hclose _ _

theorem relayNext_keeps (h : J s (rest ++ others)) (hrest : Callable rest) (it : RelayIteratorId) :
    (s.relayNext it).Keeps (Alive J others) rest := by
  unfold relayNext
  split
  · exact ⟨h, hrest.linked⟩
  have hnext : ∀ (s : StreamSystem) (inner : IteratorId), J s (rest ++ others) →
      (((s.setRelayIterator it .running).iteratorNext inner).andThen (.relayIterate it)
        fun s signal => s.afterRelayIterate it signal).Keeps (Alive J others) rest := by
    intro s inner h
    refine hJ.call (hJ.setRelayIterator h it .running) hrest rfl rfl
      (fun h hrest => iteratorNext_keeps hJ h hrest inner) ?_
    intro s signal h
    exact afterRelayIterate_keeps hJ h hrest it
  dsimp only
  split
  · exact ⟨h, hrest.linked⟩
  · exact ⟨h, hrest.linked⟩
  · exact hnext _ _ h
  · exact hnext _ _ (hJ.same h ⟨rfl, rfl, rfl, rfl, rfl, rfl, rfl, rfl, rfl⟩ rfl)
  · exact ⟨h, hrest.linked⟩

theorem relayIteratorClose_keeps (h : J s (rest ++ others)) (hrest : Callable rest)
    (it : RelayIteratorId) : (s.relayIteratorClose it).Keeps (Alive J others) rest := by
  unfold relayIteratorClose
  split
  · exact ⟨h, hrest.linked⟩
  · split
    · exact ⟨h, hrest.linked⟩
    · exact ⟨h, hrest.linked⟩
    · exact ⟨hJ.setRelayIterator h it .finished, hrest.linked⟩
    · exact relayIterateFinally_keeps hJ (hJ.setRelayIterator h it .running) hrest it

/-! ## `SSEStreamingResponse` -/

omit hJ in
theorem afterRespondFinally_keeps (h : J s (rest ++ others)) (hrest : Linked rest)
    (result : Signal) : (s.afterRespondFinally signal result).Keeps (Alive J others) rest := by
  unfold afterRespondFinally
  split
  · exact ⟨h, hrest⟩
  · exact ⟨h, hrest⟩

theorem respondFinally_keeps (h : J s (rest ++ others)) (hrest : Callable rest) :
    (s.respondFinally i signal).Keeps (Alive J others) rest := by
  unfold respondFinally
  refine hJ.call h hrest rfl rfl (fun h hrest => relayAclose_keeps hJ h hrest) ?_
  intro s result h
  exact afterRespondFinally_keeps h hrest.linked result

theorem afterRespondClose_keeps (h : J s (rest ++ others)) (hrest : Callable rest)
    (reraise : Option Exc) (result : Signal) :
    (s.afterRespondClose i reraise result).Keeps (Alive J others) rest := by
  unfold afterRespondClose
  split
  all_goals exact respondFinally_keeps hJ h hrest

theorem afterRespond_keeps (h : J s (rest ++ others)) (hrest : Callable rest) :
    (s.afterRespond i signal).Keeps (Alive J others) rest := by
  have hclose : ∀ reraise, ((s.relayAclose i .cancelled).andThen (.respondClose i reraise)
      fun s result => s.afterRespondClose i reraise result).Keeps (Alive J others) rest := by
    intro reraise
    refine hJ.call h hrest rfl rfl (fun h hrest => relayAclose_keeps hJ h hrest) ?_
    intro s result h
    exact afterRespondClose_keeps hJ h hrest reraise result
  unfold afterRespond
  dsimp only
  split
  · exact hclose _
  · exact hclose _
  · exact respondFinally_keeps hJ h hrest
  · exact respondFinally_keeps hJ h hrest

/-! ## Every function -/

theorem runCall_keeps (h : J s (rest ++ others)) (hrest : Callable rest) (call : Call)
    (hshutdown : call = .poolClose → G.shutdown) :
    (s.runCall call).Keeps (Alive J others) rest := by
  cases call with
  | generate => exact startOperation_keeps hJ h hrest fun _ => rfl
  | stream => exact startOperation_keeps hJ h hrest fun _ => rfl
  | generateBatch n => exact generateBatch_keeps hJ h hrest n
  | iteratorNext it => exact iteratorNext_keeps hJ h hrest it
  | iteratorClose it => exact iteratorClose_keeps hJ h hrest it
  | streamClose r => exact finish_keeps hJ h hrest.finishable nofun
  | relayNext it => exact relayNext_keeps hJ h hrest it
  | relayIteratorClose it => exact relayIteratorClose_keeps hJ h hrest it
  | relayClose i outcome => exact relayAclose_keeps hJ h hrest
  | respond i => exact hJ.suspend h (hrest _) rfl trivial nofun nofun
  | probeOnce => exact probeOnce_keeps hJ h hrest
  | poolClose => exact poolClose_keeps hJ h hrest (hshutdown rfl)

/-- The code after an `await`. -/
theorem react_ensures (h : Alive J others s (f :: rest))
    (hsignal : Handed G s (f :: rest) signal) :
    (s.react f signal).Ensures (fun s' called => Alive J others s' (called ++ rest))
      fun s' signal' => Alive J others s' rest ∧ Handed G s' rest signal' := by
  have hphase : s.Phase f := (hJ.good h.inv).closing.phase f (List.mem_cons_self ..)
  cases hf : f.isFinish with
  | true =>
    cases f with
    | finishLock r w o =>
      have hpop := hJ.effect h.inv (.pop rfl nofun)
      obtain ⟨e, rfl⟩ := hsignal.lock r w o rest rfl
      exact ⟨⟨hpop, h.linked.tail⟩, hsignal.below hf h.linked fun _ => id⟩
    | finishClose r o =>
      obtain ⟨s', signal', heq, halive, hraised⟩ :=
        afterFinishClose_keeps hJ h.inv h.linked.tail fun l call => hsignal.ends _ rest l call rfl
      unfold react
      dsimp only
      rw [heq]
      exact ⟨halive, hsignal.below hf h.linked hraised⟩
    | _ => exact nomatch hf
  | false =>
    have hrest : Callable rest := h.linked.callable hf
    suffices hkeeps : (s.react f signal).Keeps (Alive J others) rest from
      hkeeps.mono (fun _ _ => id) fun _ signal' hs => ⟨hs, .of_callable hrest signal'⟩
    have hpop : f.owes = false → J s (rest ++ others) := fun howes =>
      hJ.effect h.inv (.pop howes (hsignal.shutdown f rest rfl))
    unfold react
    cases f with
    | generate l =>
      exact afterOperation_keeps hJ h.inv rfl hrest.linked (hsignal.ends _ rest l _ rfl rfl)
    | batch l =>
      exact afterOperation_keeps hJ h.inv rfl hrest.linked (hsignal.ends _ rest l _ rfl rfl)
    | openStream l =>
      exact afterOpenStream_keeps hJ h.inv hrest fun l' call => hsignal.ends _ rest l' call rfl
    | openRejected =>
      dsimp only
      unfold afterOpenRejected
      split
      · exact ⟨hpop rfl, hrest.linked⟩
      · exact ⟨hpop rfl, hrest.linked⟩
    | finishLock | finishClose => exact nomatch hf
    | iterate it =>
      exact afterIterate_keeps hJ (hpop rfl) hrest it fun heq iterator =>
        hsignal.completes it rest iterator rfl heq
    | iterateFinish it reraise => exact afterIterateFinish_keeps hJ (hpop rfl) hrest it reraise signal
    | iterateFinally it => exact afterIterateFinally_keeps hJ (hpop rfl) hrest.linked it signal
    | relayLock i w outcome =>
      dsimp only
      split
      · exact ⟨hpop rfl, hrest.linked⟩
      · exact relayLocked_keeps hJ (hpop rfl) hphase hrest.linked
    | relayClose i outcome =>
      refine afterRelayClose_keeps hJ h.inv hrest.linked fun e he hexc => ?_
      exact hsignal.abandon e i outcome rest he hexc (.inl rfl)
    | relayIterate it => exact afterRelayIterate_keeps hJ (hpop rfl) hrest it
    | relayIterateClose it reraise =>
      exact afterRelayIterateClose_keeps hJ (hpop rfl) hrest it reraise signal
    | relayIterateFinally it =>
      exact afterRelayIterateFinally_keeps hJ (hpop rfl) hrest.linked it signal
    | respond i => exact afterRespond_keeps hJ (hpop rfl) hrest
    | respondClose i reraise => exact afterRespondClose_keeps hJ (hpop rfl) hrest reraise signal
    | respondFinally i => exact afterRespondFinally_keeps (hpop rfl) hrest.linked signal
    | probe k b =>
      exact afterProbe_keeps hJ h.inv hrest.linked fun heq => hsignal.verdict k b rest rfl heq
    | probeOnce g => exact ⟨hpop rfl, hrest.linked⟩
    | poolLock w =>
      dsimp only
      split
      · exact ⟨hpop rfl, hrest.linked⟩
      · exact closeLocked_keeps hJ (hpop rfl) hrest (hsignal.shutdown _ rest rfl rfl)
    | poolProbe leases streams =>
      exact afterPoolProbe_keeps hJ (hpop rfl) hrest hphase (hsignal.shutdown _ rest rfl rfl)
    | poolStreams g leases =>
      refine afterPoolStreams_keeps hJ (hpop rfl) hrest (fun hraised l hl => ?_)
        (hsignal.shutdown _ rest rfl rfl)
      -- the gather is over, so no stream is open
      obtain ⟨hnone, hcancelled⟩ := hsignal.streams g leases rest rfl hraised
      obtain ⟨hclosed, hleases, -, hopen⟩ := hphase
      refine ⟨hclosed, hleases l hl, fun r => ?_⟩
      by_contra hr
      have hmem := hopen hcancelled r (by simpa using hr)
      simp [hnone] at hmem
    | poolBackends g leases =>
      exact afterPoolBackends_keeps hJ (hpop rfl) hrest hphase.2 (hsignal.shutdown _ rest rfl rfl)
    | backendClose b => exact ⟨hpop rfl, hrest.linked⟩
    | poolLeases g =>
      exact afterPoolLeases_keeps hJ (hpop rfl) hrest.linked (hsignal.shutdown _ rest rfl rfl)

end

end StreamSystem

end Gateway
