import Gateway.Spec.StreamLocks

/-!
# What the tasks keep

Every function of `StreamTasks` is a sequence of the changes of `Effect`, so it keeps
whatever these changes keep. The functions are taken from the leaves up; each lemma
says what a run of the function keeps until it suspends or ends.

## Key results

- `Stable`: what the changes that a guard permits keep
- `react_keeps`: what the code after an `await` keeps
-/

namespace Gateway

/-- Whether `g` can wait for `f`. `StreamingRelay.aclose` waits for `_finish` only. -/
def Frame.calls (g f : Frame) : Bool :=
  match g with
  | .relayClose _ _ => f.isFinish
  | g => g.isCaller

/-- Every frame of a stack can wait for the one above it. -/
def Linked (stack : List Frame) : Prop := stack.IsChain fun f g => g.calls f = true

/-- Any frame can be put on the stack. -/
def Callable (stack : List Frame) : Prop := ∀ f, Linked (f :: stack)

/-- A frame of `_finish` can be put on the stack. -/
def Finishable (stack : List Frame) : Prop := ∀ f, f.isFinish = true → Linked (f :: stack)

section Stacks

variable {f g : Frame} {stack : List Frame}

theorem Linked.tail (h : Linked (f :: stack)) : Linked stack := List.IsChain.tail h

/-- Whether a stack is well formed depends on its innermost frame only as far as it is
    one of `_finish`. -/
theorem Linked.head {f' : Frame} (h : Linked (f :: stack)) (hf : f'.isFinish = f.isFinish) :
    Linked (f' :: stack) := by
  cases stack with
  | nil => exact List.isChain_singleton _
  | cons g stack =>
    obtain ⟨hcalls, hrest⟩ := List.isChain_cons_cons.mp h
    refine List.isChain_cons_cons.mpr ⟨?_, hrest⟩
    cases g <;> simp_all [Frame.calls]

theorem Callable.linked (h : Callable stack) : Linked stack := (h (.respond 0)).tail

theorem Callable.finishable (h : Callable stack) : Finishable stack := fun f _ => h f

theorem Finishable.linked (h : Finishable stack) : Linked stack :=
  (h (.finishLock 0 0 .success) rfl).tail

/-- A caller other than `StreamingRelay.aclose` waits for anything. -/
theorem Callable.cons (h : Callable stack) (hg : g.isCaller = true) (howes : g.owes = false) :
    Callable (g :: stack) := by
  intro f
  refine List.isChain_cons_cons.mpr ⟨?_, h g⟩
  cases g <;> simp_all [Frame.calls, Frame.isCaller, Frame.owes]

theorem Callable.relayClose (h : Callable stack) (i : RelayId) (o : StreamOutcome) :
    Finishable (.relayClose i o :: stack) :=
  fun _ hf => List.isChain_cons_cons.mpr ⟨hf, h _⟩

/-- Only `_finish` is above `StreamingRelay.aclose`. -/
theorem Linked.callable (h : Linked (f :: stack)) (hf : f.isFinish = false) : Callable stack := by
  intro f'
  cases stack with
  | nil => exact List.isChain_singleton _
  | cons g stack =>
    obtain ⟨hcalls, hrest⟩ := List.isChain_cons_cons.mp h
    refine List.isChain_cons_cons.mpr ⟨?_, hrest⟩
    cases g <;> simp_all [Frame.calls]

end Stacks

namespace StreamSystem

/-- What the changes that the guard permits keep. -/
structure Stable (G : Guard) (J : StreamSystem → List Frame → Prop) : Prop where
  good : ∀ {s F}, J s F → Good s F
  effect : ∀ {s F s' F'}, J s F → Effect G s F s' F' → J s' F'

/-- `J` holds of the frames of a task and of the `others`, and the task's stack is
    well formed. -/
structure Alive (J : StreamSystem → List Frame → Prop) (others : List Frame) (s : StreamSystem)
    (stack : List Frame) : Prop where
  inv : J s (stack ++ others)
  linked : Linked stack

variable {G : Guard} {J : StreamSystem → List Frame → Prop} {others rest : List Frame}
  {s : StreamSystem} {f : Frame} {signal : Signal} {l : BackendLeaseId} {r : StreamId}
  {o : BackendOutcome}

section

variable (hJ : Stable G J)
include hJ

/-! ## Changes that need no proof -/

theorem Stable.same {s' : StreamSystem} {F : List Frame} (h : J s F) (hs : Same s s')
    (hoperations : s'.pool.operations = s.pool.operations) : J s' F :=
  hJ.effect h (.same hs (.inl hoperations))

theorem Stable.suspend (h : J s (rest ++ others)) (hrest : Linked (f :: rest))
    (howes : f.owes = false) (hphase : s.Phase f) (hprobe : ∀ k b, f ≠ .probe k b)
    (hshutdown : f.isPoolClose = true → G.shutdown) :
    (Run.suspend s f : TaskRun).Keeps (Alive J others) rest :=
  ⟨hJ.effect h (.push howes hphase hprobe hshutdown), hrest⟩

theorem Stable.setIterator (h : J s (rest ++ others)) (it : IteratorId) (state : GeneratorState) :
    J (s.setIterator it state) (rest ++ others) :=
  hJ.same h ⟨rfl, rfl, rfl, rfl, rfl, rfl, rfl, rfl, rfl⟩ rfl

theorem Stable.setRelayIterator (h : J s (rest ++ others)) (it : RelayIteratorId)
    (state : GeneratorState) : J (s.setRelayIterator it state) (rest ++ others) :=
  hJ.same h ⟨rfl, rfl, rfl, rfl, rfl, rfl, rfl, rfl, rfl⟩ rfl

omit hJ in
@[simp] theorem observeOperation_streams {operation : BackendOperation} :
    (s.observeOperation l operation o).streams = s.streams := by
  unfold StreamSystem.observeOperation
  split <;> rfl

theorem Stable.markUnhealthy {F : List Frame} (h : J s F) (l : BackendLeaseId) :
    J (s.markUnhealthy l) F := by
  unfold StreamSystem.markUnhealthy
  split
  · exact h
  · next hlease => exact hJ.effect h (.failed hlease)

/-- A caller calls, and continues when the call has ended. -/
theorem Stable.call {run : TaskRun} {k : StreamSystem → Signal → TaskRun}
    (h : J s (rest ++ others)) (hrest : Callable rest) (hf : f.isCaller = true)
    (howes : f.owes = false)
    (hrun : J s (f :: rest ++ others) → Callable (f :: rest) → run.Keeps (Alive J others) (f :: rest))
    (hk : ∀ s signal, J s (rest ++ others) → (k s signal).Keeps (Alive J others) rest) :
    (run.andThen f k).Keeps (Alive J others) rest := by
  have hphase : s.Phase f := by cases f <;> simp_all [Frame.isCaller, Phase]
  have hprobe : ∀ k b, f ≠ .probe k b := by
    rintro k b rfl
    cases hf
  have hshutdown : f.isPoolClose = true → G.shutdown := fun hs =>
    absurd hs (by simp [Frame.isPoolClose_of_isCaller hf])
  refine Run.Keeps.andThen
    (hrun (hJ.effect h (.push howes hphase hprobe hshutdown)) (hrest.cons hf howes)) ?_
  intro s signal hs
  exact hk s signal (hJ.effect hs.inv (.pop howes hshutdown))

/-! ## `RoutedBackendStream` -/

/-- The operation whose frame has just been left is observed and gives its lease back. -/
theorem releaseThen_keeps {call : OperationCall} (h : J s (f :: rest ++ others))
    (hf : f.lease? = some l) (hrest : Linked rest) (hends : G.ends l call) :
    ((s.observeEnd l call).releaseThen l signal).Keeps (Alive J others) rest := by
  have hg := (hJ.good h).leases
  have hl : l < s.pool.leases.length :=
    hg.valid l (List.mem_append_left _ (List.mem_filterMap.mpr ⟨f, List.mem_cons_self .., hf⟩))
  have hreported := s.observeEnd_operations l call
  obtain ⟨observer, hobserved⟩ := s.observeEnd_eq l call
  rw [hobserved] at hreported ⊢
  obtain ⟨s', hrelease, hs', hoperations⟩ :=
    releaseLease_ok (s := { s with pool := { s.pool with observer := observer } })
      hg.accounts.withObserver hl
  unfold releaseThen
  rw [hrelease]
  exact ⟨hJ.effect h (.released hf hs'.of_observer hends (hoperations.trans hreported)), hrest⟩

/-- A change of the close lock of a closed stream that neither takes nor gives it. -/
theorem Stable.lockStream {F : List Frame} {st : RoutedBackendStream} {lock : AsyncLock}
    (h : J s F) (hst : s.streams[r]? = some st) (hclosed : s.streamClosed r = true)
    (hlock : st.closeLock.Orderly → lock.locked = st.closeLock.locked ∧ lock.Orderly) :
    J (s.modifyStream r fun st => { st with closeLock := lock }) F := by
  refine hJ.effect h (.streamLock hclosed fun st' hst' horderly => ?_)
  obtain rfl := Option.some.inj (hst.symm.trans hst')
  exact ⟨(hlock horderly).2, .inl (hlock horderly).1⟩

/-- Giving back the close lock of a stream that nobody is closing any more. -/
theorem Stable.unlockStream {F : List Frame} (h : J s F) (hclosed : s.streamClosed r = true)
    (hnone : F.countP (Frame.finishes r) = 0) : J (s.unlockStream r) F :=
  hJ.effect h (.streamLock hclosed fun _ _ horderly => ⟨horderly.release.2, .inr hnone⟩)

omit hJ in
theorem lockStream_streamClosed (r : StreamId) (lock : AsyncLock) (r' : StreamId) :
    (s.modifyStream r fun st => { st with closeLock := lock }).streamClosed r' =
      s.streamClosed r' :=
  modifyStream_streamClosed (fun _ => by rfl) r'

omit hJ in
/-- Taking the close lock and giving it back. -/
theorem unlockStream_lockStream (r : StreamId) (lock : AsyncLock) :
    (s.modifyStream r fun st => { st with closeLock := lock }).unlockStream r =
      s.modifyStream r fun st => { st with closeLock := lock.release } := by
  simp [StreamSystem.unlockStream, modifyStream, List.modify_modify_eq, Function.comp_def]

omit hJ in
/-- Whoever waited for the close lock finds the stream closed. -/
theorem finishLocked_of_closed (hclosed : s.streamClosed r = true) :
    s.finishLocked r o = .done (s.unlockStream r) .returned := by
  obtain ⟨st, hst, hc⟩ := streamClosed_iff.mp hclosed
  unfold finishLocked
  simp [hst, hc]

end

/-- `_finish` of an open stream takes the close lock at once and closes the leaf. -/
theorem finish_of_open {st : RoutedBackendStream} (hst : s.streams[r]? = some st)
    (hidle : ¬st.closeLock.Used) (hopen : st.closed = false) :
    s.finish r o = .suspend ((s.modifyStream r fun st' =>
      { st' with closed := true, closeLock := { st.closeLock with locked := true } }).record
        (.leafClosed r)) (.finishClose r o) := by
  unfold finish
  rw [hst]
  simp only [AsyncLock.acquire_idle hidle]
  unfold finishLocked
  simp [modifyStream, hst, hopen, List.modify_modify_eq, Function.comp_def]

section

variable (hJ : Stable G J)
include hJ

/-- `_finish` up to its first suspension does not raise. -/
theorem finish_ensures (h : J s (rest ++ others)) (hrest : Finishable rest)
    (houtcome : o = .success → s.streamOpen r = true → G.completes r) :
    (s.finish r o).Ensures (fun s' called => Alive J others s' (called ++ rest))
      fun s' signal => Alive J others s' rest ∧ signal = .returned := by
  cases hst : s.streams[r]? with
  | none =>
    unfold finish
    rw [hst]
    exact ⟨⟨h, hrest.linked⟩, rfl⟩
  | some st =>
    cases hc : st.closed with
    | false =>
      have hidle : ¬st.closeLock.Used := fun hused => by
        simp [(hJ.good h).streams.lock r st hst hused] at hc
      rw [finish_of_open hst hidle hc]
      have hopen : s.streamOpen r = true := by simp [streamOpen_of hst, hc]
      have horderly := AsyncLock.orderly_idle hidle
      exact ⟨hJ.effect h (.streamClosing hopen (fun ho => houtcome ho hopen) fun _ => ⟨rfl, horderly⟩),
        hrest _ rfl⟩
    | true =>
      have hclosed : s.streamClosed r = true := by simp [streamClosed_of hst, hc]
      unfold finish
      rw [hst]
      simp only
      split
      · next lock hacquire =>
        -- the lock is free, and it is given back at once
        have hclosed' := (lockStream_streamClosed r lock r).trans hclosed
        obtain ⟨hfree, -, horderly⟩ := AsyncLock.Orderly.acquire_now hacquire
        rw [finishLocked_of_closed hclosed', unlockStream_lockStream]
        refine ⟨⟨hJ.lockStream h hst hclosed fun _ => ?_, hrest.linked⟩, rfl⟩
        exact ⟨horderly.release.1.trans hfree.symm, horderly.release.2⟩
      · next waiter lock hacquire =>
        exact hJ.suspend (hJ.lockStream h hst hclosed fun horderly => horderly.acquire_later hacquire)
          (hrest _ rfl) rfl ((lockStream_streamClosed r lock r).trans hclosed) nofun nofun

theorem finish_keeps (h : J s (rest ++ others)) (hrest : Finishable rest)
    (houtcome : o = .success → s.streamOpen r = true → G.completes r) :
    (s.finish r o).Keeps (Alive J others) rest :=
  (finish_ensures hJ h hrest houtcome).mono (fun _ _ => id) fun _ _ => And.left

/-- The end of `_finish`: the lease is released, the operation is observed, and only the
exception of the leaf leaves it. -/
theorem afterFinishClose_keeps (h : J s (.finishClose r o :: rest ++ others))
    (hrest : Linked rest)
    (hends : ∀ l call, s.ending (.finishClose r o) signal = some (l, call) → G.ends l call) :
    ∃ s' signal', s.afterFinishClose r o signal = .done s' signal' ∧
      Alive J others s' rest ∧ ∀ e, signal' = .raised e → signal = .raised e := by
  have hg := hJ.good h
  have hclosed : s.streamClosed r = true := hg.closing.phase _ (List.mem_cons_self ..)
  obtain ⟨st, hst, -⟩ := streamClosed_iff.mp hclosed
  have hl : st.lease < s.pool.leases.length :=
    hg.leases.valid _ (LeasesGood.stream_holder hst)
  obtain ⟨s₁, hrelease, hs₁, hoperations⟩ := releaseLease_ok hg.leases.accounts hl
  let call : OperationCall := some (.stream, finishOutcome o signal)
  have hreported : (s₁.observeEnd st.lease call).pool.operations = s.reported st.lease call := by
    rw [observeEnd_operations]
    exact hs₁.reported hoperations call
  have hend : s.ending (.finishClose r o) signal = some (st.lease, call) := by
    simp [ending, hst, call]
  have hfinished := hJ.effect h
    (.streamFinished hst (hs₁.observeEnd call) (hends _ _ hend) hreported)
  unfold afterFinishClose
  rw [hst]
  simp only [hrelease]
  refine ⟨_, _, rfl, ⟨?_, hrest⟩, ?_⟩
  · have hcommute : StreamSystem.observeOperation
        { s₁ with pool := s₁.pool.unregisterStream r } st.lease .stream (finishOutcome o signal) =
        { s₁.observeEnd st.lease call with
          pool := (s₁.observeEnd st.lease call).pool.unregisterStream r } := by
      show _ = { s₁.observeOperation st.lease .stream (finishOutcome o signal) with
        pool := (s₁.observeOperation st.lease .stream (finishOutcome o signal)).pool.unregisterStream r }
      unfold StreamSystem.observeOperation
      cases hlease : s₁.pool.leases[st.lease]? with
      | none => simp [BackendPool.unregisterStream, hlease]
      | some lease =>
        simp [BackendPool.unregisterStream, hlease]
        rfl
    refine hJ.unlockStream (hcommute ▸ hfinished) ?_ ?_
    · rw [streamClosed, observeOperation_streams]
      show (s₁.streams[r]?).any _ = true
      rwa [hs₁.streams]
    · -- this task was the only one in the close of the leaf
      have honce := hg.locks.once r
      have hle := Bool.toNat_le (s.streamClosed r)
      rw [List.cons_append, countP_finishes_self] at honce
      omega
  · intro e he
    split at he
    · next hnone _ => contradiction
    · next e' _ _ =>
      obtain rfl := Signal.raised.inj he
      rfl
    · cases he

theorem iterateEnd_keeps (h : J s (rest ++ others)) (hrest : Linked rest) (it : IteratorId) :
    (s.iterateEnd it signal).Keeps (Alive J others) rest :=
  ⟨hJ.setIterator h it .finished, hrest⟩

theorem afterIterateFinally_keeps (h : J s (rest ++ others)) (hrest : Linked rest)
    (it : IteratorId) (result : Signal) :
    (s.afterIterateFinally it signal result).Keeps (Alive J others) rest := by
  unfold afterIterateFinally
  split
  · exact iterateEnd_keeps hJ h hrest it
  · exact iterateEnd_keeps hJ h hrest it

theorem iterateFinally_keeps (h : J s (rest ++ others)) (hrest : Callable rest) (it : IteratorId) :
    (s.iterateFinally it signal).Keeps (Alive J others) rest := by
  unfold iterateFinally
  split
  · exact ⟨h, hrest.linked⟩
  · split
    · refine hJ.call h hrest rfl rfl (fun h hrest => finish_keeps hJ h hrest.finishable nofun) ?_
      intro s result h
      exact afterIterateFinally_keeps hJ h hrest.linked it result
    · exact iterateEnd_keeps hJ h hrest.linked it

theorem afterIterateFinish_keeps (h : J s (rest ++ others)) (hrest : Callable rest)
    (it : IteratorId) (reraise : Option Exc) (result : Signal) :
    (s.afterIterateFinish it reraise result).Keeps (Alive J others) rest := by
  unfold afterIterateFinish
  split
  all_goals exact iterateFinally_keeps hJ h hrest it

theorem afterIterate_keeps (h : J s (rest ++ others)) (hrest : Callable rest) (it : IteratorId)
    (hcompletes : signal = .stop → ∀ iterator, s.iterators[it]? = some iterator →
      s.streamOpen iterator.stream = true → G.completes iterator.stream) :
    (s.afterIterate it signal).Keeps (Alive J others) rest := by
  unfold afterIterate
  split
  · exact ⟨h, hrest.linked⟩
  next iterator hiterator =>
  -- the clauses that call `_finish`
  have hfinish : ∀ (s : StreamSystem) (outcome : BackendOutcome) (reraise : Option Exc),
      J s (rest ++ others) →
      (outcome = .success → s.streamOpen iterator.stream = true → G.completes iterator.stream) →
      ((s.finish iterator.stream outcome).andThen (.iterateFinish it reraise) fun s result =>
        s.afterIterateFinish it reraise result).Keeps (Alive J others) rest := by
    intro s outcome reraise h houtcome
    refine hJ.call h hrest rfl rfl
      (fun h hrest => finish_keeps hJ h hrest.finishable houtcome) ?_
    intro s result h
    exact afterIterateFinish_keeps hJ h hrest it reraise result
  dsimp only
  split
  · exact hfinish _ _ _ h nofun
  · split
    · exact ⟨h, hrest.linked⟩
    · exact hfinish _ _ _ (hJ.markUnhealthy h _) nofun
  · exact iterateFinally_keeps hJ h hrest it
  · exact hfinish _ _ _ h nofun
  · exact hfinish _ _ _ h fun _ => hcompletes rfl iterator hiterator
  · exact ⟨hJ.setIterator h it .suspended, hrest.linked⟩

theorem iteratorNext_keeps (h : J s (rest ++ others)) (hrest : Callable rest) (it : IteratorId) :
    (s.iteratorNext it).Keeps (Alive J others) rest := by
  unfold iteratorNext
  split
  · exact ⟨h, hrest.linked⟩
  · split
    · exact ⟨h, hrest.linked⟩
    · exact ⟨h, hrest.linked⟩
    all_goals exact hJ.suspend (hJ.setIterator h it .running) (hrest _) rfl trivial nofun nofun

theorem iteratorClose_keeps (h : J s (rest ++ others)) (hrest : Callable rest) (it : IteratorId) :
    (s.iteratorClose it).Keeps (Alive J others) rest := by
  unfold iteratorClose
  split
  · exact ⟨h, hrest.linked⟩
  · split
    · exact ⟨h, hrest.linked⟩
    · exact ⟨h, hrest.linked⟩
    · exact ⟨hJ.setIterator h it .finished, hrest.linked⟩
    · exact iterateFinally_keeps hJ (hJ.setIterator h it .running) hrest it

/-! ## `BackendPool` -/

theorem startOperation_keeps {frame : BackendLeaseId → Frame} {w : Int} (h : J s (rest ++ others))
    (hrest : Callable rest) (hframe : ∀ l, (frame l).lease? = some l) :
    (s.startOperation w frame).Keeps (Alive J others) rest := by
  unfold startOperation
  split
  · exact ⟨h, hrest.linked⟩
  · next l pool hsel =>
    obtain ⟨-, -, rfl, b, -, -, -, -, hleases, -⟩ := BackendPool.select_ok hsel
    have hlease : pool.leases[s.pool.leases.length]? = some ⟨b, w, false⟩ := by simp [hleases]
    simp only [hlease]
    exact ⟨hJ.effect h (.selected hsel hlease (hframe _)), hrest _⟩

theorem generateBatch_keeps (h : J s (rest ++ others)) (hrest : Callable rest) (n : Nat) :
    (s.generateBatch n).Keeps (Alive J others) rest := by
  unfold generateBatch
  split
  · exact ⟨h, hrest.linked⟩
  · exact startOperation_keeps hJ h hrest fun _ => rfl

theorem afterOperation_keeps {operation : BackendOperation} (h : J s (f :: rest ++ others))
    (hf : f.lease? = some l) (hrest : Linked rest) (hends : G.ends l (callOf operation signal)) :
    (s.afterOperation l operation signal).Keeps (Alive J others) rest := by
  unfold afterOperation
  split
  · exact releaseThen_keeps hJ h hf hrest hends
  · exact releaseThen_keeps hJ (hJ.markUnhealthy h l) hf hrest hends
  · exact releaseThen_keeps hJ h hf hrest hends
  · next e hcancelled hhealth hbase =>
    have hcall : callOf operation (.raised e) = some (operation, .error) := by
      cases e <;> simp_all [callOf]
    rw [hcall] at hends
    exact releaseThen_keeps hJ h hf hrest hends
  · next hraised =>
    have hcall : callOf operation signal = some (operation, .success) := by
      cases signal <;> simp_all [callOf]
    rw [hcall] at hends
    exact releaseThen_keeps hJ h hf hrest hends

omit hJ in
theorem modify_concat {α : Type} (xs : List α) (x : α) (g : α → α) :
    (xs ++ [x]).modify xs.length g = xs ++ [g x] := by
  induction xs with
  | nil => rfl
  | cons y xs ih => simpa using ih

/-- `stream` when the leaf has opened its stream. -/
theorem openedStream_keeps (h : J s (.openStream l :: rest ++ others)) (hrest : Callable rest) :
    (s.afterOpenStream l .returned).Keeps (Alive J others) rest := by
  unfold afterOpenStream
  dsimp only
  cases hclosed : s.pool.closed with
  | false =>
    have hregister : s.pool.registerStream s.streams.length = (true, { s.pool with
        activeStreams := insert s.streams.length s.pool.activeStreams }) := if_neg (by simp [hclosed])
    rw [hregister]
    exact ⟨hJ.effect h (.opened hclosed), hrest.linked⟩
  | true =>
    -- the stream is closed at once
    have hregister : s.pool.registerStream s.streams.length = (false, s.pool) := if_pos hclosed
    rw [hregister]
    have hnew : (s.streams ++ [RoutedBackendStream.mk l .new false])[s.streams.length]? =
        some ⟨l, .new, false⟩ := List.getElem?_concat_length
    dsimp only
    rw [if_neg (by simp), finish_of_open hnew AsyncLock.not_used_new rfl]
    refine ⟨?_, List.isChain_cons_cons.mpr ⟨rfl, hrest _⟩⟩
    simp only [modifyStream, modify_concat]
    exact hJ.effect h (.rejected hclosed (by simp) ⟨rfl, AsyncLock.orderly_idle AsyncLock.not_used_new⟩)

theorem afterOpenStream_keeps (h : J s (.openStream l :: rest ++ others)) (hrest : Callable rest)
    (hends : ∀ l' call, s.ending (.openStream l) signal = some (l', call) → G.ends l' call) :
    (s.afterOpenStream l signal).Keeps (Alive J others) rest := by
  cases signal with
  | raised e =>
    cases e with
    | healthImpacting =>
      exact releaseThen_keeps hJ (hJ.markUnhealthy h l) rfl hrest.linked (hends l _ rfl)
    | _ => exact releaseThen_keeps hJ h rfl hrest.linked (hends l _ rfl)
  | _ => exact openedStream_keeps hJ h hrest

theorem completeProbe_keeps {k : TaskId} {b : String} {healthy : Bool}
    (h : J s (.probe k b :: rest ++ others)) (hrest : Linked rest)
    (hguard : healthy = true → G.verdict s.pool s.history k b) :
    (s.completeProbe k b healthy).Keeps (Alive J others) rest :=
  ⟨hJ.effect h (.probed hguard), hrest⟩

theorem afterProbe_keeps {k : TaskId} {b : String} (h : J s (.probe k b :: rest ++ others))
    (hrest : Linked rest) (hguard : signal = .verdict true → G.verdict s.pool s.history k b) :
    (s.afterProbe k b signal).Keeps (Alive J others) rest := by
  unfold afterProbe
  split
  · exact completeProbe_keeps hJ h hrest fun hh => hguard (by rw [hh])
  · split
    · exact completeProbe_keeps hJ h hrest nofun
    · exact ⟨hJ.effect h (.pop rfl nofun), hrest⟩
  · exact ⟨hJ.effect h (.pop rfl nofun), hrest⟩

theorem probe_keeps (h : J s (rest ++ others)) (hrest : Callable rest) (k : TaskId) (b : String) :
    (s.probe k b).Keeps (Alive J others) rest :=
  ⟨hJ.effect h .probeStarted, hrest _⟩

theorem probeOnce_keeps (h : J s (rest ++ others)) (hrest : Callable rest) :
    s.probeOnce.Keeps (Alive J others) rest := by
  unfold probeOnce
  split
  · exact ⟨h, hrest.linked⟩
  · refine hJ.suspend h (hrest _) rfl (fun c hc => ?_) nofun nofun
    obtain ⟨b, -, hb⟩ := List.mem_map.mp hc
    exact ⟨b, hb.symm⟩

theorem leaveClose_keeps (h : J s (rest ++ others)) (hrest : Linked rest) :
    (s.leaveClose signal).Keeps (Alive J others) rest :=
  ⟨hJ.same h ⟨rfl, rfl, rfl, rfl, rfl, rfl, rfl, rfl, rfl⟩ rfl, hrest⟩

theorem afterPoolLeases_keeps (h : J s (rest ++ others)) (hrest : Linked rest)
    (hshutdown : G.shutdown) :
    (s.afterPoolLeases signal).Keeps (Alive J others) rest := by
  unfold afterPoolLeases
  split
  · exact leaveClose_keeps hJ h hrest
  · exact leaveClose_keeps hJ (hJ.effect h (.poolClosed hshutdown)) hrest

theorem afterPoolBackends_keeps {leases : List BackendLeaseId} (h : J s (rest ++ others))
    (hrest : Callable rest) (hleases : ∀ l ∈ leases, s.Releasable l) (hshutdown : G.shutdown) :
    (s.afterPoolBackends leases signal).Keeps (Alive J others) rest := by
  unfold afterPoolBackends
  split
  · exact leaveClose_keeps hJ h hrest.linked
  · split
    · exact afterPoolLeases_keeps hJ h hrest.linked hshutdown
    · refine hJ.suspend h (hrest _) rfl (fun c hc => ?_) nofun fun _ => hshutdown
      obtain ⟨l, hl, heq⟩ := List.mem_map.mp hc
      exact ⟨l, heq.symm, hleases l hl⟩

theorem afterPoolStreams_keeps {leases : List BackendLeaseId} (h : J s (rest ++ others))
    (hrest : Callable rest)
    (hleases : (∀ e, signal ≠ .raised e) → ∀ l ∈ leases, s.Releasable l) (hshutdown : G.shutdown) :
    (s.afterPoolStreams leases signal).Keeps (Alive J others) rest := by
  unfold afterPoolStreams
  split
  · exact leaveClose_keeps hJ h hrest.linked
  · next hsignal =>
    refine hJ.suspend h (hrest _) rfl ⟨fun c hc => ?_, hleases hsignal⟩ nofun fun _ => hshutdown
    obtain ⟨b, -, hb⟩ := List.mem_map.mp hc
    exact ⟨b, hb.symm⟩

theorem afterPoolProbe_keeps {leases : List BackendLeaseId} {streams : List StreamId}
    (h : J s (rest ++ others)) (hrest : Callable rest) (hphase : s.Phase (.poolProbe leases streams))
    (hshutdown : G.shutdown) :
    (s.afterPoolProbe leases streams signal).Keeps (Alive J others) rest := by
  obtain ⟨hclosed, hleases, hopen⟩ := hphase
  have hproceed : (if streams = [] then s.afterPoolStreams leases .returned else
      .suspend s (.poolStreams ⟨streams.map .streamClose, [], false⟩ leases)).Keeps
        (Alive J others) rest := by
    split
    · next hnil =>
      refine afterPoolStreams_keeps hJ h hrest
        (fun _ l hl => ⟨hclosed, hleases l hl, fun r => ?_⟩) hshutdown
      by_contra hr
      have hmem := hopen r (by simpa using hr)
      simp [hnil] at hmem
    · refine hJ.suspend h (hrest _) rfl ⟨hclosed, hleases, fun c hc => ?_, fun _ r hr => ?_⟩ nofun
        fun _ => hshutdown
      · obtain ⟨r, -, hr⟩ := List.mem_map.mp hc
        exact ⟨r, hr.symm⟩
      · exact List.mem_map.mpr ⟨r, hopen r hr, rfl⟩
  unfold afterPoolProbe
  dsimp only
  split
  · exact hproceed
  · exact leaveClose_keeps hJ h hrest.linked
  · exact hproceed

theorem closeLocked_keeps (h : J s (rest ++ others)) (hrest : Callable rest)
    (hshutdown : G.shutdown) :
    s.closeLocked.Keeps (Alive J others) rest := by
  unfold closeLocked
  split
  · exact leaveClose_keeps hJ h hrest.linked
  · next hopen =>
    have hg := hJ.good h
    refine hJ.suspend (hJ.effect h (.poolClosing (by simpa using hopen) hshutdown)) (hrest _) rfl
      ⟨rfl, fun l hl => ?_, fun r hr => ?_⟩ nofun fun _ => hshutdown
    · exact List.mem_range.mp (List.mem_filter.mp hl).1
    · have hactive := hg.closing.active (by simpa using hopen) r hr
      exact List.mem_filter.mpr ⟨List.mem_range.mpr (lt_of_streamOpen hr), by simpa using hactive⟩

theorem poolClose_keeps (h : J s (rest ++ others)) (hrest : Callable rest)
    (hshutdown : G.shutdown) : s.poolClose.Keeps (Alive J others) rest := by
  unfold poolClose
  split
  · exact closeLocked_keeps hJ (hJ.same h ⟨rfl, rfl, rfl, rfl, rfl, rfl, rfl, rfl, rfl⟩ rfl) hrest
      hshutdown
  · exact hJ.suspend (hJ.same h ⟨rfl, rfl, rfl, rfl, rfl, rfl, rfl, rfl, rfl⟩ rfl) (hrest _) rfl
      trivial nofun fun _ => hshutdown

end

end StreamSystem

end Gateway
