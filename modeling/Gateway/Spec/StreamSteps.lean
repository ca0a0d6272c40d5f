import Gateway.Spec.RelayRuns
import Mathlib.Data.List.Perm.Basic

/-!
# What the steps keep

A step lets one task run. What every change of `Effect` keeps, and what does not
depend on the order of the frames or on the tasks, every step keeps.

## Key results

- `step_keeps`: what a step keeps
- `kept_of_reachable`: what every run keeps
- `reachable_good`: the invariant holds in every reachable state
-/

namespace Gateway

/-- The frames of a task. -/
def Task.frames : Task → List Frame
  | .suspended stack => stack
  | .running | .finished _ => []

/-- The frames of a run that has stopped. -/
def stackOf : RunResult Frame Signal → List Frame
  | .suspended frames => frames
  | .done _ => []

namespace StreamSystem

/-- The frames of all tasks. -/
def frames (s : StreamSystem) : List Frame := s.tasks.flatMap Task.frames

/-- `J` holds of a state between two steps. -/
structure Kept (J : StreamSystem → List Frame → Prop) (s : StreamSystem) : Prop where
  inv : J s s.frames
  linked : ∀ stack, .suspended stack ∈ s.tasks → Linked stack

/-- What the steps that the guard permits keep. -/
structure Lasting (G : Guard) (J : StreamSystem → List Frame → Prop) : Prop extends Stable G J where
  perm : ∀ {s F F'}, J s F → F.Perm F' → J s F'
  tasks : ∀ {s : StreamSystem} {F} (T : List Task), J s F → J { s with tasks := T } F

/-- The task an action lets run. -/
def StreamAction.runs? : StreamAction → Option TaskId
  | .leaf t _ | .resume t _ => some t
  | _ => none

/-- The guard permits what the step can do. -/
structure Permits (G : Guard) (s : StreamSystem) (a : StreamAction) : Prop where
  verdict : ∀ t k b stack, a = .leaf t (.verdict true) →
    s.tasks[t]? = some (.suspended (.probe k b :: stack)) → G.verdict s.pool s.history k b
  abandonClose : ∀ t e r o i outcome stack, a = .leaf t (.raised e) → e.isException = false →
    s.tasks[t]? = some (.suspended (.finishClose r o :: .relayClose i outcome :: stack)) →
    G.abandon i
  abandonLock : ∀ t failure e r w o i outcome stack s', a = .resume t failure →
    s.tasks[t]? = some (.suspended (.finishLock r w o :: .relayClose i outcome :: stack)) →
    s.wake (.finishLock r w o) failure = some (s', .raised e) → e.isException = false →
    G.abandon i
  ends : ∀ t signal f stack l call, a = .leaf t signal →
    s.tasks[t]? = some (.suspended (f :: stack)) → s.ending f signal = some (l, call) → G.ends l call
  completes : ∀ t it stack iterator, a = .leaf t .stop →
    s.tasks[t]? = some (.suspended (.iterate it :: stack)) → s.iterators[it]? = some iterator →
    s.streamOpen iterator.stream = true → G.completes iterator.stream
  attaches : ∀ attach, a = .setObserver attach → G.attaches
  closes : a = .spawn .poolClose → G.shutdown
  shutdown : ∀ t f stack, a.runs? = some t → s.tasks[t]? = some (.suspended (f :: stack)) →
    f.isPoolClose = true → G.shutdown
  backends : ∀ t k g leases stack, a = .startChild t k →
    s.tasks[t]? = some (.suspended (.poolBackends g leases :: stack)) → G.shutdown

variable {G : Guard} {J : StreamSystem → List Frame → Prop} {s s' : StreamSystem}
  {others : List Frame} {t : TaskId} {task : Task} {T : List Task} {run : TaskRun}
  {frame : Frame} {stack : List Frame} {signal : Signal}

/-! ## Tasks and frames -/

theorem flatMap_frames_set (ht : t < T.length) (task : Task) :
    ((T.set t task).flatMap Task.frames).Perm
      (task.frames ++ (T.eraseIdx t).flatMap Task.frames) := by
  have hperm := (List.set_perm_cons_eraseIdx ht task).flatMap_right Task.frames
  rwa [List.flatMap_cons] at hperm

theorem flatMap_frames_get (h : T[t]? = some task) :
    (T.flatMap Task.frames).Perm (task.frames ++ (T.eraseIdx t).flatMap Task.frames) := by
  obtain ⟨ht, rfl⟩ := List.getElem?_eq_some_iff.mp h
  have hperm := (List.getElem_cons_eraseIdx_perm ht).symm.flatMap_right Task.frames
  rwa [List.flatMap_cons] at hperm

/-- The stack of a run that has stopped is alive. -/
theorem alive_of_ensures
    (h : run.Ensures (fun s called => Alive J others s called) fun s _ => Alive J others s []) :
    Alive J others run.state (stackOf run.result) := by
  unfold Run.Ensures at h
  split at h
  · next hr => rw [hr]; exact h
  · next hr => rw [hr]; exact h

/-- A run of a new task that has stopped. -/
theorem alive_of_keeps (h : run.Keeps (Alive J others) []) :
    Alive J others run.state (stackOf run.result) :=
  alive_of_ensures (h.mono (fun _ _ hs => by simpa using hs) fun _ _ => id)

/-- Storing where a run has stopped. -/
theorem Kept.settle (hJ : Lasting G J) (h : J run.state (stackOf run.result ++ others))
    (hstack : Linked (stackOf run.result)) (ht : t < run.state.tasks.length)
    (hothers : others.Perm ((run.state.tasks.eraseIdx t).flatMap Task.frames))
    (hlinked : ∀ stack, .suspended stack ∈ run.state.tasks → Linked stack) :
    Kept J (settle t run) := by
  have hkept : ∀ task : Task, task.frames = stackOf run.result → Kept J (run.state.setTask t task) := by
    intro task htask
    constructor
    · refine hJ.perm (hJ.tasks _ h) (((List.Perm.append_left _ hothers)).trans ?_)
      rw [← htask]
      exact (flatMap_frames_set ht task).symm
    · intro stack hmem
      rcases List.mem_or_eq_of_mem_set hmem with hold | rfl
      · exact hlinked stack hold
      · have hframes : stack = stackOf run.result := htask
        exact hframes ▸ hstack
  unfold StreamSystem.settle
  split
  · next hr => exact hkept _ (by rw [hr]; rfl)
  · next hr => exact hkept _ (by rw [hr]; rfl)

/-! ## Letting a task run -/

/-- `J` of the states with the same tasks. -/
def Fixed (J : StreamSystem → List Frame → Prop) (T : List Task) (s : StreamSystem)
    (F : List Frame) : Prop := J s F ∧ s.tasks = T

theorem Stable.fixed (hJ : Stable G J) (T : List Task) : Stable G (Fixed J T) where
  good h := hJ.good h.1
  effect h he := ⟨hJ.effect h.1 he, he.tasks_eq.trans h.2⟩

/-- A stack that receives a signal it may receive. -/
theorem deliver_alive (hJ : Stable G J) (h : Alive J others s stack)
    (hsignal : Handed G s stack signal) :
    (deliver react s stack signal).Ensures (fun s called => Alive J others s called)
      fun s _ => Alive J others s [] := by
  have hrun : (deliver react s stack signal).Ensures (Alive J others) fun s signal =>
      Alive J others s [] ∧ Handed G s [] signal :=
    deliver_ensures
      (P := fun s stack signal => Alive J others s stack ∧ Handed G s stack signal)
      (fun s f rest signal hs => react_ensures hJ hs.1 hs.2) ⟨h, hsignal⟩
  exact hrun.mono (fun _ _ => id) fun _ _ => And.left

theorem Handed.setTask (h : Handed G s stack signal) (t : TaskId) (task : Task) :
    Handed G (s.setTask t task) stack signal :=
  ⟨h.verdict, h.streams, h.abandon, h.ends, h.completes, h.shutdown, h.lock⟩

/-- What holds of the run of a task that has stopped. -/
def Stopped (J : StreamSystem → List Frame → Prop) (s : StreamSystem) (t : TaskId) (run : TaskRun) :
    Prop :=
  Alive (Fixed J (s.tasks.set t .running)) ((s.tasks.eraseIdx t).flatMap Task.frames) run.state
    (stackOf run.result)

/-- Storing where the run of a task has stopped. -/
theorem settle_keeps (hJ : Lasting G J) (htask : s.tasks[t]? = some task)
    (hlinked : ∀ stack, .suspended stack ∈ s.tasks → Linked stack)
    (hend : Stopped J s t run) : Kept J (settle t run) := by
  obtain ⟨ht, -⟩ := List.getElem?_eq_some_iff.mp htask
  obtain ⟨⟨hinv, hT⟩, hstack⟩ := hend
  refine Kept.settle hJ hinv hstack ?_ ?_ ?_
  · rw [hT, List.length_set]
    exact ht
  · rw [hT, List.eraseIdx_set_eq]
  · intro stack' hmem
    rw [hT] at hmem
    rcases List.mem_or_eq_of_mem_set hmem with hold | hnew
    · exact hlinked stack' hold
    · exact nomatch hnew

/-- A suspended task that is about to run. -/
theorem alive_of_task (hJ : Lasting G J) (htask : s.tasks[t]? = some (.suspended stack))
    (h : J s' s.frames) (htasks : s'.tasks = s.tasks)
    (hlinked : ∀ stack, .suspended stack ∈ s.tasks → Linked stack) :
    Alive (Fixed J (s.tasks.set t .running)) ((s.tasks.eraseIdx t).flatMap Task.frames)
      (s'.setTask t .running) stack := by
  refine ⟨⟨hJ.tasks _ (hJ.perm h (flatMap_frames_get htask)), ?_⟩,
    hlinked _ (List.mem_of_getElem? htask)⟩
  show s'.tasks.set t .running = _
  rw [htasks]

/-- A suspended task receives a signal and runs. -/
theorem runTask_stops (hJ : Lasting G J) (htask : s.tasks[t]? = some (.suspended (frame :: stack)))
    (h : J s' s.frames) (htasks : s'.tasks = s.tasks)
    (hlinked : ∀ stack, .suspended stack ∈ s.tasks → Linked stack)
    (hsignal : Handed G s' (frame :: stack) signal) :
    Stopped J s t (deliver react (s'.setTask t .running) (frame :: stack) signal) := by
  have hstart := alive_of_task hJ htask h htasks hlinked
  exact alive_of_ensures (deliver_alive (hJ.fixed _) hstart (Handed.setTask hsignal t .running))

/-- The first run of a new task. -/
theorem spawn_stops (hJ : Lasting G J) (h : Kept J s) (call : Call)
    (hshutdown : call = .poolClose → G.shutdown) :
    Alive (Fixed J (s.tasks ++ [.running])) s.frames (s.addTask.runCall call).state
      (stackOf (s.addTask.runCall call).result) := by
  have hstart : Fixed J (s.tasks ++ [.running]) s.addTask ([] ++ s.frames) :=
    ⟨hJ.tasks _ h.inv, rfl⟩
  apply alive_of_keeps
  exact runCall_keeps (hJ.fixed _) hstart (fun f => List.isChain_singleton f) call hshutdown

/-- A new task makes a call. -/
theorem spawn_keeps (hJ : Lasting G J) (h : Kept J s) (call : Call)
    (hshutdown : call = .poolClose → G.shutdown) :
    Kept J (settle s.tasks.length (s.addTask.runCall call)) := by
  obtain ⟨⟨hinv, hT⟩, hstack⟩ := spawn_stops hJ h call hshutdown
  refine Kept.settle hJ hinv hstack ?_ ?_ ?_
  · rw [hT]
    simp
  · rw [hT]
    simp [frames, List.eraseIdx_append_of_length_le]
  · intro stack' hmem
    rw [hT] at hmem
    rcases List.mem_append.mp hmem with hold | hnew
    · exact h.linked stack' hold
    · exact nomatch List.mem_singleton.mp hnew

/-! ## Gathers -/

/-- The children of a gather that have not run run once, to their first suspension. -/
theorem runChild_keeps (hJ : Stable G J) {rest : List Frame} (h : J s (rest ++ others))
    (hrest : Callable rest) (t : TaskId) (child : Child)
    (hforced : ∀ l, child = .leaseRelease l → s.Releasable l)
    (hshutdown : ∀ b, child = .backendClose b → G.shutdown) :
    (s.runChild t child).Keeps (Alive J others) rest := by
  cases child with
  | probe b => exact probe_keeps hJ h hrest t b
  | streamClose r => exact finish_keeps hJ h hrest.finishable nofun
  | backendClose b =>
    exact hJ.suspend (hJ.effect h (.noted (hshutdown b rfl))) (hrest _) rfl trivial nofun nofun
  | leaseRelease l =>
    have hl := hforced l rfl
    obtain ⟨s', hrelease, hs', hoperations⟩ := releaseLease_ok (hJ.good h).leases.accounts hl.2.1
    unfold runChild
    dsimp only
    unfold releaseThen
    rw [hrelease]
    exact ⟨hJ.effect h (.forced hl hs' hoperations), hrest.linked⟩

/-- After `_finish` has run to its first suspension, the stream is not open. -/
theorem finish_not_open {F : List Frame} (hg : Good s F) (r : StreamId) (o : BackendOutcome) :
    (s.finish r o).state.streamOpen r = false := by
  cases hst : s.streams[r]? with
  | none =>
    unfold finish
    rw [hst]
    show s.streamOpen r = false
    simp [streamOpen, hst]
  | some st =>
    cases hc : st.closed with
    | false =>
      have hidle : ¬st.closeLock.Used := fun hused => by
        simp [hg.streams.lock r st hst hused] at hc
      rw [finish_of_open hst hidle hc]
      refine (modifyStream_close_streamOpen ?_ r).trans (by simp)
      exact fun _ => rfl
    | true =>
      have hclosed : s.streamClosed r = true := by simp [streamClosed_of hst, hc]
      have hlock : ∀ lock, (s.modifyStream r fun st => { st with closeLock := lock }).streamOpen r =
          false := by
        intro lock
        refine (modifyStream_streamOpen ?_ r).trans (by simp [streamOpen_of hst, hc])
        exact fun _ => rfl
      unfold finish
      rw [hst]
      simp only
      split
      · next lock _ =>
        rw [finishLocked_of_closed ((lockStream_streamClosed r lock r).trans hclosed)]
        refine (modifyStream_streamOpen ?_ r).trans (hlock lock)
        exact fun _ => rfl
      · exact hlock _

/-- What holds of a gather whose child has run, or that was cancelled. -/
theorem phase_withGather {g g' : Gather} (hgather : frame.gather = some g)
    (hphase : s.Phase frame) (hsub : ∀ c ∈ g'.notStarted, c ∈ g.notStarted)
    (hopen : g'.cancelled = false → g.cancelled = false ∧
      ∀ r, .streamClose r ∈ g.notStarted → s.streamOpen r = true → .streamClose r ∈ g'.notStarted) :
    s.Phase (frame.withGather g') := by
  cases frame with
  | probeOnce =>
    obtain rfl := Option.some.inj hgather
    exact fun c hc => hphase c (hsub c hc)
  | poolStreams =>
    obtain rfl := Option.some.inj hgather
    obtain ⟨hclosed, hleases, hnone, hall⟩ := hphase
    refine ⟨hclosed, hleases, fun c hc => hnone c (hsub c hc), fun hc r hr => ?_⟩
    obtain ⟨hc', hkeep⟩ := hopen hc
    exact hkeep r (hall hc' r hr) hr
  | poolBackends =>
    obtain rfl := Option.some.inj hgather
    exact ⟨fun c hc => hphase.1 c (hsub c hc), hphase.2⟩
  | poolLeases =>
    obtain rfl := Option.some.inj hgather
    exact fun c hc => hphase c (hsub c hc)
  | _ => exact nomatch hgather

theorem withGather_isFinish {g g' : Gather} (hgather : frame.gather = some g) :
    (frame.withGather g').isFinish = frame.isFinish := by
  cases frame <;> rfl

/-- The first run of a child of a gather, while the gather still has it. -/
theorem child_stops (hJ : Lasting G J) (h : Kept J s) {g : Gather} {child : Child}
    (htask : s.tasks[t]? = some (.suspended (frame :: stack))) (hgather : frame.gather = some g)
    (hmem : child ∈ g.notStarted) (task : Task)
    (hshutdown : ∀ g leases, frame = .poolBackends g leases → G.shutdown) :
    Alive (Fixed J (s.tasks.set t task ++ [.running]))
      (frame :: (stack ++ (s.tasks.eraseIdx t).flatMap Task.frames))
      ((s.setTask t task).addTask.runChild s.tasks.length child).state
      (stackOf ((s.setTask t task).addTask.runChild s.tasks.length child).result) := by
  have hbefore : J s (frame :: (stack ++ (s.tasks.eraseIdx t).flatMap Task.frames)) :=
    hJ.perm h.inv (flatMap_frames_get htask)
  have hphase : s.Phase frame := (hJ.good hbefore).closing.phase _ (List.mem_cons_self ..)
  have hforced : ∀ l, child = .leaseRelease l → s.Releasable l := by
    rintro l rfl
    cases frame with
    | probeOnce =>
      obtain rfl := Option.some.inj hgather
      obtain ⟨b, heq⟩ := hphase _ hmem
      cases heq
    | poolStreams =>
      obtain rfl := Option.some.inj hgather
      obtain ⟨r, heq⟩ := hphase.2.2.1 _ hmem
      cases heq
    | poolBackends =>
      obtain rfl := Option.some.inj hgather
      obtain ⟨b, heq⟩ := hphase.1 _ hmem
      cases heq
    | poolLeases =>
      obtain rfl := Option.some.inj hgather
      obtain ⟨l', heq, hl'⟩ := hphase _ hmem
      cases heq
      exact hl'
    | _ => exact nomatch hgather
  -- only `close` closes backends
  have hclose : ∀ b, child = .backendClose b → G.shutdown := by
    rintro b rfl
    cases frame with
    | probeOnce =>
      obtain rfl := Option.some.inj hgather
      obtain ⟨b', heq⟩ := hphase _ hmem
      cases heq
    | poolStreams =>
      obtain rfl := Option.some.inj hgather
      obtain ⟨r, heq⟩ := hphase.2.2.1 _ hmem
      cases heq
    | poolBackends g leases => exact hshutdown g leases rfl
    | poolLeases =>
      obtain rfl := Option.some.inj hgather
      obtain ⟨l, heq, -⟩ := hphase _ hmem
      cases heq
    | _ => exact nomatch hgather
  let T := s.tasks.set t task ++ [.running]
  have hstart : Fixed J T (s.setTask t task).addTask
      ([] ++ frame :: (stack ++ (s.tasks.eraseIdx t).flatMap Task.frames)) :=
    ⟨(hJ.tasks T hbefore :), rfl⟩
  apply alive_of_keeps
  exact runChild_keeps (hJ.fixed T) hstart (fun f => List.isChain_singleton f) s.tasks.length child
    hforced hclose

/-- A child of a gather runs for the first time. -/
theorem startChild_keeps (hJ : Lasting G J) (h : Kept J s) {g : Gather} {k : Nat} {child : Child}
    (htask : s.tasks[t]? = some (.suspended (frame :: stack))) (hgather : frame.gather = some g)
    (hchild : g.notStarted[k]? = some child) (g' : Gather)
    (hg' : g'.notStarted = g.notStarted.eraseIdx k) (hcancelled : g'.cancelled = g.cancelled)
    (hshutdown : ∀ g leases, frame = .poolBackends g leases → G.shutdown) :
    Kept J (settle s.tasks.length
      ((s.setTask t (.suspended (frame.withGather g' :: stack))).addTask.runChild
        s.tasks.length child)) := by
  obtain ⟨ht, -⟩ := List.getElem?_eq_some_iff.mp htask
  have hlinked := h.linked _ (List.mem_of_getElem? htask)
  have hmem : child ∈ g.notStarted := List.mem_of_getElem? hchild
  let T := s.tasks.set t (.suspended (frame.withGather g' :: stack)) ++ [.running]
  let others := (s.tasks.eraseIdx t).flatMap Task.frames
  let s₁ := (s.setTask t (.suspended (frame.withGather g' :: stack))).addTask
  let run := s₁.runChild s.tasks.length child
  obtain ⟨⟨hinv, hT⟩, hstack⟩ := child_stops hJ h htask hgather hmem
    (.suspended (frame.withGather g' :: stack)) hshutdown
  have hgood : Good s₁ s.frames := (hJ.good (hJ.tasks T h.inv) :)
  -- then it is taken from the gather
  have hafter : J run.state (frame :: (stack ++ others ++ stackOf run.result)) :=
    hJ.perm hinv List.perm_append_comm
  have hphase' : run.state.Phase (frame.withGather g') := by
    refine phase_withGather hgather ((hJ.good hafter).closing.phase _ (List.mem_cons_self ..)) ?_ ?_
    · intro c hc
      rw [hg'] at hc
      exact List.mem_of_mem_eraseIdx hc
    · intro hc
      refine ⟨hcancelled ▸ hc, fun r hr hopen => ?_⟩
      obtain ⟨j, hj⟩ := List.mem_iff_getElem?.mp hr
      rw [hg']
      refine List.mem_eraseIdx_iff_getElem?.mpr ⟨j, ?_, hj⟩
      -- the child that has run was not the one for this stream: it would be closed
      rintro rfl
      obtain rfl := Option.some.inj (hj.symm.trans hchild)
      have hclosed : run.state.streamOpen r = false := finish_not_open hgood r .cancelled
      simp [hclosed] at hopen
  have hwith := hJ.effect hafter (.gathered hgather hphase')
  have hothers : ((frame.withGather g' :: stack) ++ others).Perm
      ((run.state.tasks.eraseIdx s.tasks.length).flatMap Task.frames) := by
    have herase : T.eraseIdx s.tasks.length =
        s.tasks.set t (.suspended (frame.withGather g' :: stack)) := by
      simp [T, List.eraseIdx_append_of_length_le]
    rw [hT, herase]
    exact (flatMap_frames_set ht (.suspended (frame.withGather g' :: stack))).symm
  refine Kept.settle hJ ?_ hstack ?_ hothers ?_
  · have hperm : ((frame.withGather g' :: stack) ++ others ++ stackOf run.result).Perm
        (stackOf run.result ++ ((frame.withGather g' :: stack) ++ others)) := List.perm_append_comm
    exact hJ.perm hwith hperm
  · rw [hT]
    simp
  · intro stack' hmem'
    rw [hT] at hmem'
    rcases List.mem_append.mp hmem' with hold | hnew
    · rcases List.mem_or_eq_of_mem_set hold with hold | hnew
      · exact h.linked stack' hold
      · obtain rfl := Task.suspended.inj hnew
        exact hlinked.head (withGather_isFinish hgather)
    · exact nomatch List.mem_singleton.mp hnew

/-! ## Waiting for locks and gathers -/

/-- Cancelling what a task waits for. -/
theorem cancelFrame_keeps (hJ : Stable G J) {F : List Frame} {frame' : Frame}
    (h : J s (frame :: F)) (hcancel : s.cancelFrame frame = some (s', frame')) :
    J s' (frame' :: F) ∧ s'.tasks = s.tasks ∧ frame'.isFinish = frame.isFinish := by
  have hphase : s.Phase frame := (hJ.good h).closing.phase _ (List.mem_cons_self ..)
  have hgathers : ∀ g, frame.gather = some g →
      s.cancelFrame frame = some (s, frame.withGather { g with notStarted := [], cancelled := true }) →
      J s' (frame' :: F) ∧ s'.tasks = s.tasks ∧ frame'.isFinish = frame.isFinish := by
    intro g hg heq
    obtain ⟨rfl, rfl⟩ := Prod.mk.inj (Option.some.inj (hcancel.symm.trans heq))
    exact ⟨hJ.effect h (.gathered hg (phase_withGather hg hphase (by simp) nofun)), rfl,
      withGather_isFinish hg⟩
  cases frame with
  | finishLock r w o =>
    obtain ⟨rfl, rfl⟩ := Prod.mk.inj (Option.some.inj hcancel)
    refine ⟨hJ.effect h (.streamLock hphase fun _ _ horderly => ?_), rfl, rfl⟩
    exact ⟨(horderly.cancel w).2, .inl (horderly.cancel w).1⟩
  | relayLock i w o =>
    obtain ⟨rfl, rfl⟩ := Prod.mk.inj (Option.some.inj hcancel)
    exact ⟨hJ.effect h (.relayLock hphase), rfl, rfl⟩
  | poolLock w =>
    obtain ⟨rfl, rfl⟩ := Prod.mk.inj (Option.some.inj hcancel)
    exact ⟨hJ.same h ⟨rfl, rfl, rfl, rfl, rfl, rfl, rfl, rfl, rfl⟩ rfl, rfl, rfl⟩
  | probeOnce | poolStreams | poolBackends | poolLeases => exact hgathers _ rfl rfl
  | _ => exact nomatch hcancel

/-- A gather that ends without an exception has run all its children and was not
    cancelled. -/
theorem gatherSignal_over {g : Gather} {returnExceptions : Bool} {failure : Option Exc}
    (h : s.gatherSignal g returnExceptions failure = some signal)
    (hraised : ∀ e, signal ≠ .raised e) : g.notStarted = [] ∧ g.cancelled = false := by
  unfold gatherSignal at h
  split at h
  · exact nomatch h
  next hnone =>
  refine ⟨by simpa using hnone, ?_⟩
  split at h
  · split at h
    · exact absurd (Option.some.inj h).symm (hraised _)
    · exact nomatch h
  · split at h
    · exact nomatch h
    · split at h
      · split at h
        · exact absurd (Option.some.inj h).symm (hraised _)
        · next hc => simpa using hc
      · exact nomatch h

/-- What a task receives that waits for the close lock of a stream. -/
theorem wake_finishLock {r : StreamId} {w : Nat} {o : BackendOutcome} {failure : Option Exc}
    (h : s.wake (.finishLock r w o) failure = some (s', signal)) :
    ∃ st acquired lock, s.streams[r]? = some st ∧ st.closeLock.resume w = some (acquired, lock) ∧
      s' = s.modifyStream r (fun st => { st with closeLock := lock }) ∧
      signal = if acquired then .returned else .raised .cancelled := by
  unfold wake at h
  dsimp only at h
  split at h
  · next acquired lock hresume =>
    obtain ⟨st, hst, hlock⟩ := Option.bind_eq_some_iff.mp hresume
    obtain ⟨rfl, rfl⟩ := Prod.mk.inj (Option.some.inj h)
    exact ⟨st, acquired, lock, hst, hlock, rfl, rfl⟩
  · exact nomatch h

/-- What a waiting task receives when it resumes. -/
theorem wake_keeps (hJ : Stable G J) {F : List Frame} {failure : Option Exc}
    (h : J s F) (hframe : frame ∈ F) (hwake : s.wake frame failure = some (s', signal)) :
    J s' F ∧ s'.tasks = s.tasks ∧
      (∀ g leases, frame = .poolStreams g leases → (∀ e, signal ≠ .raised e) →
        g.notStarted = [] ∧ g.cancelled = false) ∧
      (∀ k b, frame ≠ .probe k b) ∧ (∀ i o, frame ≠ .relayClose i o) ∧
      ∀ r o, frame ≠ .finishClose r o := by
  have hphase : s.Phase frame := (hJ.good h).closing.phase _ hframe
  unfold wake at hwake
  dsimp only at hwake
  split at hwake
  · split at hwake
    · next r w o acquired lock hresume =>
      obtain ⟨rfl, -⟩ := Prod.mk.inj (Option.some.inj hwake)
      obtain ⟨st, hst, hlock⟩ := Option.bind_eq_some_iff.mp hresume
      refine ⟨hJ.effect h (.streamLock hphase fun st' hst' horderly => ?_), rfl, nofun, nofun, nofun,
        nofun⟩
      obtain rfl := Option.some.inj (hst.symm.trans hst')
      cases acquired with
      | true =>
        obtain ⟨hfree, -, horderly'⟩ := horderly.resume hlock
        exact ⟨horderly', .inr ((hJ.good h).locks.none_of_free hst hfree)⟩
      | false =>
        obtain ⟨hsame, horderly'⟩ := horderly.resume_cancelled hlock
        exact ⟨horderly', .inl hsame⟩
    · exact nomatch hwake
  · split at hwake
    · obtain ⟨rfl, -⟩ := Prod.mk.inj (Option.some.inj hwake)
      exact ⟨hJ.lockRelay h hphase _, rfl, nofun, nofun, nofun, nofun⟩
    · exact nomatch hwake
  · split at hwake
    · obtain ⟨rfl, -⟩ := Prod.mk.inj (Option.some.inj hwake)
      exact ⟨hJ.same h ⟨rfl, rfl, rfl, rfl, rfl, rfl, rfl, rfl, rfl⟩ rfl, rfl, nofun, nofun, nofun, nofun⟩
    · exact nomatch hwake
  · split at hwake
    · exact nomatch hwake
    · next g hgather =>
      split at hwake
      · next signal' hsignal =>
        obtain ⟨rfl, rfl⟩ := Prod.mk.inj (Option.some.inj hwake)
        refine ⟨h, rfl, ?_, ?_, ?_, ?_⟩
        · intro g' leases heq hraised
          subst heq
          obtain rfl := Option.some.inj hgather
          exact gatherSignal_over hsignal hraised
        · rintro k b rfl
          exact nomatch hgather
        · rintro i o rfl
          exact nomatch hgather
        · rintro r o rfl
          exact nomatch hgather
      · exact nomatch hwake

/-! ## Steps -/

/-- The answer of a leaf may be handed to the task that awaits it. -/
theorem handed_of_leaf (hok : Permits G s (.leaf t signal))
    (htask : s.tasks[t]? = some (.suspended (frame :: stack))) (hanswers : answers frame signal = true) :
    Handed G s (frame :: stack) signal := by
  refine ⟨?_, ?_, ?_, ?_, ?_, ?_, ?_⟩
  · rintro k b rest heq rfl
    exact hok.verdict t k b rest rfl (heq ▸ htask)
  · intro g leases rest heq _
    obtain ⟨rfl, -⟩ := List.cons.inj heq
    exact nomatch hanswers
  · intro e i outcome rest hsignal hexc hstack
    rcases hstack with heq | ⟨f, hf, heq⟩
    · obtain ⟨rfl, -⟩ := List.cons.inj heq
      exact nomatch hanswers
    · obtain ⟨rfl, rfl⟩ := List.cons.inj heq
      cases frame with
      | finishClose r o =>
        exact hok.abandonClose t e r o i outcome rest (by rw [hsignal]) hexc htask
      | finishLock => exact nomatch hanswers
      | _ => exact nomatch hf
  · intro f rest l call heq hend
    exact hok.ends t signal f rest l call rfl (heq ▸ htask) hend
  · rintro it rest iterator heq rfl hiterator hopen
    exact hok.completes t it rest iterator rfl (heq ▸ htask) hiterator hopen
  · intro f rest heq hclose
    exact hok.shutdown t f rest rfl (heq ▸ htask) hclose
  · intro r w o rest heq
    obtain ⟨rfl, -⟩ := List.cons.inj heq
    exact nomatch hanswers

/-- A task that gets the close lock of a stream finds the stream closed and gives the
    lock back. -/
theorem resumeFinish_stops (hJ : Lasting G J) (h : Kept J s) {r : StreamId} {w : Nat}
    {o : BackendOutcome} {failure : Option Exc}
    (htask : s.tasks[t]? = some (.suspended (.finishLock r w o :: stack)))
    (hwake : s.wake (.finishLock r w o) failure = some (s', .returned)) :
    Stopped J s t (deliver react (s'.setTask t .running) (.finishLock r w o :: stack) .returned) := by
  have hbefore := hJ.perm h.inv (flatMap_frames_get htask)
  have hlinked := h.linked _ (List.mem_of_getElem? htask)
  have hclosed : s.streamClosed r = true := (hJ.good hbefore).closing.phase _ (List.mem_cons_self ..)
  obtain ⟨st, acquired, lock, hst, hlock, rfl, hsignal⟩ := wake_finishLock hwake
  cases acquired with
  | false => exact nomatch hsignal
  | true =>
    let T := s.tasks.set t .running
    -- the lock was free
    have hgiven : J (s.modifyStream r fun st => { st with closeLock := lock.release })
        (.finishLock r w o :: (stack ++ (s.tasks.eraseIdx t).flatMap Task.frames)) := by
      refine hJ.lockStream hbefore hst hclosed fun horderly => ?_
      obtain ⟨hfree, -, horderly'⟩ := horderly.resume hlock
      exact ⟨horderly'.release.1.trans hfree.symm, horderly'.release.2⟩
    have hpopped := hJ.effect hgiven (.pop rfl nofun)
    have hstart : Alive (Fixed J T) ((s.tasks.eraseIdx t).flatMap Task.frames)
        ((s.modifyStream r fun st => { st with closeLock := lock.release }).setTask t .running)
          stack := ⟨⟨hJ.tasks T hpopped, rfl⟩, hlinked.tail⟩
    have hhanded : Handed G s (.finishLock r w o :: stack) (.raised .error) := by
      constructor
      case abandon =>
        intro e i outcome rest hsignal hexc
        obtain rfl := Signal.raised.inj hsignal
        exact nomatch hexc
      case shutdown =>
        intro f rest heq hclose
        obtain ⟨rfl, -⟩ := List.cons.inj heq
        exact nomatch hclose
      case ends =>
        intro f rest l call heq hend
        obtain ⟨rfl, -⟩ := List.cons.inj heq
        exact nomatch hend
      case lock => exact fun _ _ _ _ _ => ⟨_, rfl⟩
      all_goals nofun
    have hbelow : ∀ s', Handed G s' stack .returned := fun _ => hhanded.below rfl hlinked nofun
    have hend := alive_of_ensures (deliver_alive (hJ.fixed T) hstart (hbelow _))
    have hreact : react (StreamSystem.setTask (s.modifyStream r fun st =>
        { st with closeLock := lock }) t .running) (.finishLock r w o) .returned =
        .done ((s.modifyStream r fun st => { st with closeLock := lock.release }).setTask t .running)
          .returned := by
      have hlocked : (StreamSystem.setTask (s.modifyStream r fun st =>
          { st with closeLock := lock }) t .running).streamClosed r = true :=
        (lockStream_streamClosed r lock r).trans hclosed
      show finishLocked _ r o = _
      rw [finishLocked_of_closed hlocked, ← unlockStream_lockStream]
      rfl
    rw [deliver_done hreact]
    exact hend

/-- A task that waited for a lock or a gather runs. -/
theorem resume_stops (hJ : Lasting G J) (h : Kept J s) {failure : Option Exc}
    (hok : Permits G s (.resume t failure))
    (htask : s.tasks[t]? = some (.suspended (frame :: stack)))
    (hwake : s.wake frame failure = some (s', signal)) :
    Stopped J s t (deliver react (s'.setTask t .running) (frame :: stack) signal) := by
  by_cases hlock : ∃ r w o, frame = .finishLock r w o ∧ signal = .returned
  · obtain ⟨r, w, o, rfl, rfl⟩ := hlock
    exact resumeFinish_stops hJ h htask hwake
  have hframe : frame ∈ s.frames :=
    List.mem_flatMap.mpr ⟨_, List.mem_of_getElem? htask, List.mem_cons_self ..⟩
  obtain ⟨hafter, htasks, hstreams, hprobe, hrelay, hclose⟩ :=
    wake_keeps hJ.toStable h.inv hframe hwake
  have hnone : ∀ st : StreamSystem, st.ending frame signal = none := by
    intro st
    cases frame with
    | generate | batch | openStream | iterate => exact nomatch hwake
    | finishClose r o => exact absurd rfl (hclose r o)
    | _ => rfl
  refine runTask_stops hJ htask hafter htasks h.linked ⟨?_, ?_, ?_, ?_, ?_, ?_, ?_⟩
  · intro k b rest heq
    exact absurd (List.cons.inj heq).1 (hprobe k b)
  · intro g leases rest heq
    exact hstreams g leases (List.cons.inj heq).1
  · intro e i outcome rest hsignal hexc hstack
    subst hsignal
    rcases hstack with heq | ⟨f, hf, heq⟩
    · exact absurd (List.cons.inj heq).1 (hrelay i outcome)
    · obtain ⟨rfl, rfl⟩ := List.cons.inj heq
      cases frame with
      | finishLock r w o =>
        exact hok.abandonLock t failure e r w o i outcome rest s' rfl htask hwake hexc
      | finishClose r o => exact absurd rfl (hclose r o)
      | _ => exact nomatch hf
  · intro f rest l call heq hend
    obtain ⟨rfl, rfl⟩ := List.cons.inj heq
    rw [hnone] at hend
    cases hend
  · intro it rest iterator heq
    obtain ⟨rfl, rfl⟩ := List.cons.inj heq
    exact nomatch hwake
  · intro f rest heq hpool
    exact hok.shutdown t f rest rfl (heq ▸ htask) hpool
  · intro r w o rest heq
    obtain ⟨rfl, rfl⟩ := List.cons.inj heq
    obtain ⟨-, acquired, -, -, -, -, rfl⟩ := wake_finishLock hwake
    cases acquired with
    | true => exact absurd ⟨r, w, o, rfl, rfl⟩ hlock
    | false => exact ⟨.cancelled, rfl⟩

theorem step_keeps {a : StreamAction} (hJ : Lasting G J) (h : Kept J s) (hok : Permits G s a)
    (hstep : s.step a = .ok s') : Kept J s' := by
  cases a with
  | spawn call =>
    obtain rfl := Except.ok.inj hstep
    exact spawn_keeps hJ h call fun hcall => hok.closes (by rw [hcall])
  | leaf t signal =>
    simp only [step] at hstep
    split at hstep
    · next frame stack htask =>
      split at hstep
      · next hanswers =>
        obtain rfl := Except.ok.inj hstep
        exact settle_keeps hJ htask h.linked
          (runTask_stops hJ htask h.inv rfl h.linked (handed_of_leaf hok htask hanswers))
      · exact nomatch hstep
    · exact nomatch hstep
  | cancel t =>
    simp only [step] at hstep
    split at hstep
    · next frame stack htask =>
      split at hstep
      · next s₂ frame₂ hcancel =>
        obtain rfl := Except.ok.inj hstep
        obtain ⟨ht, -⟩ := List.getElem?_eq_some_iff.mp htask
        have hbefore : J s (frame :: (stack ++ (s.tasks.eraseIdx t).flatMap Task.frames)) :=
          hJ.perm h.inv (flatMap_frames_get htask)
        obtain ⟨hafter, htasks, hfinish⟩ := cancelFrame_keeps hJ.toStable hbefore hcancel
        have hstack := (h.linked _ (List.mem_of_getElem? htask)).head hfinish
        have hkept : Kept J (settle t ⟨s₂, .suspended (frame₂ :: stack)⟩) := by
          refine Kept.settle hJ hafter hstack ?_ ?_ ?_
          · exact htasks ▸ ht
          · show List.Perm _ ((s₂.tasks.eraseIdx t).flatMap Task.frames)
            rw [htasks]
          · exact htasks ▸ h.linked
        exact hkept
      · exact nomatch hstep
    · exact nomatch hstep
  | resume t failure =>
    simp only [step] at hstep
    split at hstep
    · next frame stack htask =>
      split at hstep
      · next s₂ signal hwake =>
        obtain rfl := Except.ok.inj hstep
        exact settle_keeps hJ htask h.linked (resume_stops hJ h hok htask hwake)
      · exact nomatch hstep
    · exact nomatch hstep
  | startChild t k =>
    simp only [step] at hstep
    split at hstep
    · next frame stack htask =>
      split at hstep
      · exact nomatch hstep
      · next g hgather =>
        split at hstep
        · exact nomatch hstep
        · next child hchild =>
          obtain rfl := Except.ok.inj hstep
          have hkept := startChild_keeps hJ h htask hgather hchild
            { g with
              notStarted := g.notStarted.eraseIdx k
              children := g.children ++ [s.tasks.length] } rfl rfl
            fun g leases heq => hok.backends t k g leases stack rfl (heq ▸ htask)
          have hlength : (s.setTask t (.suspended (frame.withGather
              { g with
                notStarted := g.notStarted.eraseIdx k
                children := g.children ++ [s.tasks.length] } :: stack))).addTask.tasks.length - 1 =
              s.tasks.length := by simp [addTask, setTask]
          rw [hlength]
          exact hkept
    · exact nomatch hstep
  | newIterator r =>
    simp only [step] at hstep
    split at hstep
    · obtain rfl := Except.ok.inj hstep
      exact ⟨hJ.same h.inv ⟨rfl, rfl, rfl, rfl, rfl, rfl, rfl, rfl, rfl⟩ rfl, h.linked⟩
    · exact nomatch hstep
  | newRelay r observed onOutcome =>
    simp only [step] at hstep
    split at hstep
    · next hr =>
      obtain rfl := Except.ok.inj hstep
      exact ⟨hJ.effect h.inv (.relayMade hr), h.linked⟩
    · exact nomatch hstep
  | newRelayIterator i =>
    simp only [step] at hstep
    split at hstep
    · obtain rfl := Except.ok.inj hstep
      exact ⟨hJ.same h.inv ⟨rfl, rfl, rfl, rfl, rfl, rfl, rfl, rfl, rfl⟩ rfl, h.linked⟩
    · exact nomatch hstep
  | setObserver attach =>
    obtain rfl := Except.ok.inj hstep
    exact ⟨hJ.effect h.inv (.same ⟨rfl, rfl, rfl, rfl, rfl, rfl, rfl, rfl, rfl⟩
      (.inr (hok.attaches attach rfl))), h.linked⟩

/-! ## The invariant in every reachable state -/

theorem Good.perm {F F' : List Frame} (h : Good s F) (hF : F.Perm F') : Good s F' where
  leases := h.leases.congr h.leases.accounts rfl (.of_eq rfl)
    (List.Perm.append_right _ (hF.filterMap _).symm)
  streams := h.streams.congr rfl (fun _ => rfl) id (.of_eq rfl) (fun _ _ => hF.mem_iff.mp)
    fun _ => hF.mem_iff.mpr
  relays := h.relays.congr rfl le_rfl (fun _ => id) (.of_eq rfl) fun _ => (hF.countP_eq _).symm
  closing := ⟨h.closing.active, fun f hf => h.closing.phase f (hF.mem_iff.mpr hf)⟩
  locks := h.locks.congr rfl (fun _ => (hF.countP_eq _).ge) id fun _ => id

theorem Good.tasks {F : List Frame} (T : List Task) (h : Good s F) : Good { s with tasks := T } F where
  leases := h.leases.congr h.leases.accounts rfl (.of_eq rfl) (.refl _)
  streams := h.streams.congr rfl (fun _ => rfl) id (.of_eq rfl) (fun _ _ => id) fun _ => id
  relays := h.relays.congr rfl le_rfl (fun _ => id) (.of_eq rfl) fun _ => rfl
  closing := ⟨h.closing.active, h.closing.phase⟩
  locks := h.locks.congr rfl (fun _ => le_rfl) id fun _ => id

theorem good_lasting (G : Guard) : Lasting G Good where
  good := id
  effect h he := he.good h
  perm := Good.perm
  tasks := Good.tasks

theorem good_of_init (h : Init s) : Good s [] := by
  obtain ⟨hstreams, -, hrelays, -, -, hhistory, backendIds, blank, interval, timeout, observed,
    hpool⟩ := h
  have hleases := (BackendPool.init_ok hpool).1
  have hclosed : ∀ r, s.streamClosed r = false := fun r => by simp [streamClosed, hstreams]
  have hopen : ∀ r, s.streamOpen r = false := fun r => by simp [streamOpen, hstreams]
  have hrelayClosed : ∀ i, s.relayClosed i = false := fun i => by simp [relayClosed, hrelays]
  have hreleased : ∀ l, s.pool.leaseReleased l = false := fun l => by
    simp [BackendPool.leaseReleased, hleases]
  refine ⟨⟨.init hpool, ?_, ?_, ?_, ?_, ?_⟩, ⟨?_, ?_, ?_, ?_, ?_⟩, ⟨?_, ?_, ?_, ?_, ?_⟩,
    ⟨?_, ?_⟩, ⟨?_, ?_, ?_, ?_⟩⟩
  all_goals simp_all [holders]

/-- What the permitted steps keep holds in every state of a permitted run. -/
theorem kept_of_reachable {J : StreamSystem → List Frame → Prop} (hJ : Lasting G J)
    (hinit : ∀ s, Init s → J s []) (h : lts.ReachableVia (Permits G) s) : Kept J s := by
  have hkept : lts.InductiveVia (Permits G) (Kept J) := by
    constructor
    · intro s hs
      have htasks : s.tasks = [] := hs.2.2.2.2.1
      exact ⟨by simpa [frames, htasks] using hinit s hs, by simp [htasks]⟩
    · intro s a s' hs hok hstep
      exact step_keeps hJ hs hok hstep
  exact hkept.holds h

theorem permits_any (s : StreamSystem) (a : StreamAction) : Permits .any s a := by
  constructor <;> intros <;> exact trivial

/-- The invariant holds in every reachable state. -/
theorem reachable_good (h : lts.Reachable s) : Good s s.frames :=
  (kept_of_reachable (good_lasting .any) (fun _ => good_of_init)
    (h.mono fun s a _ => permits_any s a)).inv

/-! ## A sample system -/

/-- A pool of two backends. -/
def sample : StreamSystem where
  pool :=
    { slots := Dict.ofList [("a", ⟨none, 0⟩), ("b", ⟨none, 0⟩)]
      cursor := 0
      closeLock := .new
      activeLeases := ∅
      activeStreams := ∅
      closed := false
      observer := none
      leases := [] }
  streams := []
  iterators := []
  relays := []
  relayIterators := []
  tasks := []
  history := []

theorem sample_init : Init sample :=
  ⟨rfl, rfl, rfl, rfl, rfl, rfl, ["a", "b"], fun _ => false, 1, 1, false, rfl⟩

/-- The sample after some actions. -/
def after (as : List StreamAction) : StreamSystem :=
  (Lts.exec step sample as).toOption.getD sample

theorem after_reachable (as : List StreamAction) : lts.Reachable (after as) := by
  unfold after
  cases h : Lts.exec step sample as with
  | ok s => exact Lts.reachable_of_exec sample_init h
  | error _ => exact .init sample_init

end StreamSystem

end Gateway
