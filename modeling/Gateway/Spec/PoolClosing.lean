import Gateway.Spec.BackendOperations

/-!
# What everybody but `BackendPool.close` does

`BackendPool.close` has its own tasks. What the other tasks do leaves its frames, the
flag `_closed` and the closes of the backends alone; once the pool is closed it selects
no lease and changes nobody's health, and a stream that is finished stays so (`Quiet`).

## Key results

- `Effect.quiet`: the changes of the other tasks are quiet
- `step_quiet`: so are their steps
- `step_tasks`: a step changes the tasks it is about only
-/

namespace Gateway

/-- The events of the closes of the backends. -/
def ofBackends : StreamEvent → Bool
  | .backendClosed _ => true
  | _ => false

theorem Frame.isPoolClose_withGather (f : Frame) (g : Gather) :
    (f.withGather g).isPoolClose = f.isPoolClose := by
  cases f <;> rfl

/-- How a run that has stopped leaves its task. -/
def taskOf : RunResult Frame Signal → Task
  | .suspended frames => .suspended frames
  | .done signal => .finished signal

@[simp] theorem taskOf_frames (result : RunResult Frame Signal) :
    (taskOf result).frames = stackOf result := by
  cases result <;> rfl

/-- The gather once its child `k` has run as the task `c`. -/
def Gather.started (g : Gather) (k : Nat) (c : TaskId) : Gather :=
  { g with
    notStarted := g.notStarted.eraseIdx k
    children := g.children ++ [c] }

/-- The gather once its awaiter was cancelled. -/
def Gather.abandoned (g : Gather) : Gather := { g with notStarted := [], cancelled := true }

namespace StreamSystem

/-- The guard of everybody but `BackendPool.close`. -/
def quiet : Guard := { Guard.any with shutdown := False }

/-- What the tasks other than those of `BackendPool.close` do. -/
structure Quiet (s : StreamSystem) (F : List Frame) (s' : StreamSystem) (F' : List Frame) : Prop where
  closed : s'.pool.closed = s.pool.closed
  backends : Agree ofBackends s s'
  closers : F'.countP Frame.isPoolClose = F.countP Frame.isPoolClose
  slots : ∀ b, (s'.pool.slots.get? b).isSome = (s.pool.slots.get? b).isSome
  released : ∀ l, s.pool.leaseReleased l = true → s'.pool.leaseReleased l = true
  streams : ∀ r, s.streamClosed r = true → s'.streamClosed r = true
  finished : ∀ r, s.streamClosed r = true → F.countP (Frame.finishes r) = 0 →
    F'.countP (Frame.finishes r) = 0
  leases : s.pool.closed = true → s'.pool.leases.length = s.pool.leases.length
  health : s.pool.closed = true → ∀ b,
    (s'.pool.slots.get? b).map (·.healthy) = (s.pool.slots.get? b).map (·.healthy)

section Changes

variable {s s' s'' : StreamSystem} {F F' F'' : List Frame} {f : Frame} {r : StreamId}
  {l : BackendLeaseId}

theorem Quiet.refl (s : StreamSystem) (F : List Frame) : Quiet s F s F :=
  ⟨rfl, .of_eq rfl, rfl, fun _ => rfl, fun _ => id, fun _ => id, fun _ _ => id, fun _ => rfl,
    fun _ _ => rfl⟩

theorem Quiet.trans (h : Quiet s F s' F') (h' : Quiet s' F' s'' F'') : Quiet s F s'' F'' where
  closed := h'.closed.trans h.closed
  backends x hx := (h'.backends x hx).trans (h.backends x hx)
  closers := h'.closers.trans h.closers
  slots b := (h'.slots b).trans (h.slots b)
  released l hl := h'.released l (h.released l hl)
  streams r hr := h'.streams r (h.streams r hr)
  finished r hr hF := h'.finished r (h.streams r hr) (h.finished r hr hF)
  leases hc := (h'.leases (h.closed.trans hc)).trans (h.leases hc)
  health hc b := (h'.health (h.closed.trans hc) b).trans (h.health hc b)

/-- A change that leaves the pool's slots and leases. -/
theorem Quiet.congr (hslots : s'.pool.slots = s.pool.slots) (hleases : s'.pool.leases = s.pool.leases)
    (hclosed : s'.pool.closed = s.pool.closed) (hbackends : Agree ofBackends s s')
    (hclosers : F'.countP Frame.isPoolClose = F.countP Frame.isPoolClose)
    (hstreams : ∀ r, s.streamClosed r = true → s'.streamClosed r = true)
    (hfinished : ∀ r, s.streamClosed r = true → F.countP (Frame.finishes r) = 0 →
      F'.countP (Frame.finishes r) = 0) : Quiet s F s' F' where
  closed := hclosed
  backends := hbackends
  closers := hclosers
  slots b := by rw [hslots]
  released l := by
    rw [BackendPool.leaseReleased_congr hleases]
    exact id
  streams := hstreams
  finished := hfinished
  leases _ := by rw [hleases]
  health _ b := by rw [hslots]

/-- A release. -/
theorem Quiet.release (h : Released s l s')
    (hclosers : F'.countP Frame.isPoolClose = F.countP Frame.isPoolClose)
    (hfinished : ∀ r, F'.countP (Frame.finishes r) ≤ F.countP (Frame.finishes r)) :
    Quiet s F s' F' where
  closed := h.closed
  backends := h.agree rfl
  closers := hclosers
  slots b := by
    have hsome := congrArg Option.isSome (h.health b)
    simpa using hsome
  released l' hl' := by
    rw [h.released, hl', Bool.true_or]
  streams r hr := by rwa [streamClosed, h.streams]
  finished r _ hF := Nat.le_zero.mp (hF ▸ hfinished r)
  leases _ := h.length
  health _ := h.health

theorem setHealth_slots (p : BackendPool) (b b' : String) (healthy : Bool) :
    ((p.setHealth b healthy).slots.get? b').isSome = (p.slots.get? b').isSome := by
  unfold BackendPool.setHealth
  split
  · rfl
  · show ((p.slots.modify b _).get? b').isSome = _
    rw [Dict.get?_modify]
    split <;> simp

theorem setHealth_of_closed {p : BackendPool} (hc : p.closed = true) (b : String) (healthy : Bool) :
    p.setHealth b healthy = p := if_pos hc

/-- A verdict or a failure. -/
theorem Quiet.setHealth {b : String} {healthy : Bool} {e : StreamEvent} (he : ofBackends e = false)
    (hclosers : F'.countP Frame.isPoolClose = F.countP Frame.isPoolClose)
    (hfinished : ∀ r, F'.countP (Frame.finishes r) = F.countP (Frame.finishes r)) :
    Quiet s F ({ s with pool := s.pool.setHealth b healthy }.record e) F' where
  closed := by simp
  backends := agree_record (s := { s with pool := s.pool.setHealth b healthy }) he
  closers := hclosers
  slots b' := setHealth_slots ..
  released l hl := by
    show (s.pool.setHealth b healthy).leaseReleased l = true
    rwa [BackendPool.leaseReleased_congr (BackendPool.setHealth_leases ..)]
  streams _ := id
  finished r _ hF := (hfinished r).trans hF
  leases _ := by simp
  health hc b' := by
    show ((s.pool.setHealth b healthy).slots.get? b').map _ = _
    rw [setHealth_of_closed hc]

/-- Beginning to close an open stream. -/
theorem Quiet.close {g : RoutedBackendStream → RoutedBackendStream} {o : BackendOutcome}
    (hopen : s.streamOpen r = true) (hg : ∀ st, (g st).closed = true) :
    Quiet s F ((s.modifyStream r g).record (.leafClosed r)) (.finishClose r o :: F) := by
  have hread := modifyStream_close_streamClosed hg (lt_of_streamOpen hopen)
  refine .congr rfl rfl rfl (agree_record rfl) rfl (fun r' hr' => ?_) fun r' hr' hF => ?_
  · rw [record_streamClosed, hread, hr', Bool.true_or]
  · -- the stream was open, so it is another one
    have hne : r ≠ r' := by
      rintro rfl
      exact nomatch (streamClosed_of_open hopen).symm.trans hr'
    rwa [countP_finishes_ne hne]

theorem Effect.quiet (h : Effect quiet s F s' F') (hg : Good s F) : Quiet s F s' F' := by
  have hcons : ∀ {f : Frame} {F : List Frame}, f.isPoolClose = false →
      (f :: F).countP Frame.isPoolClose = F.countP Frame.isPoolClose :=
    fun hf => List.countP_cons_of_neg (by simp [hf])
  have hframe : ∀ {f : Frame} {l : BackendLeaseId}, f.lease? = some l → f.isPoolClose = false := by
    intro f l hf
    cases f <;> simp_all [Frame.lease?, Frame.isPoolClose]
  have hgrows := h.grows
  cases h with
  | same h =>
    exact .congr h.slots h.leases h.closed (.of_eq h.history) rfl hgrows.streamClosed
      fun _ _ => id
  | push howes hphase hprobe hshutdown =>
    refine .congr rfl rfl rfl (.of_eq rfl) (hcons ?_) (fun _ => id) fun r _ hF => ?_
    · exact Bool.eq_false_iff.mpr hshutdown
    · rwa [countP_finishes_cons (Frame.finishes_of_owes howes r)]
  | pop howes hshutdown =>
    refine .congr rfl rfl rfl (.of_eq rfl) (hcons ?_).symm (fun _ => id) fun r _ hF => ?_
    · exact Bool.eq_false_iff.mpr hshutdown
    · rwa [countP_finishes_cons (Frame.finishes_of_owes howes r)] at hF
  | gathered hgather hphase =>
    rename_i F f g g'
    refine .congr rfl rfl rfl (.of_eq rfl) ?_ (fun _ => id) fun r _ hF => ?_
    · rw [List.countP_cons, List.countP_cons, Frame.isPoolClose_withGather]
    · rw [countP_finishes_cons (Frame.finishes_of_owes (Frame.owes_of_gather hgather) r)] at hF
      rwa [countP_finishes_cons (Frame.finishes_of_owes (Frame.owes_withGather hgather g') r)]
  | probeStarted =>
    exact .congr rfl rfl rfl (agree_record rfl) (hcons rfl) (fun _ => id) fun r _ hF => by
      rwa [countP_finishes_cons rfl]
  | probed =>
    exact .setHealth rfl (hcons rfl).symm fun r => (countP_finishes_cons rfl).symm
  | failed => exact .setHealth rfl rfl fun _ => rfl
  | selected hsel hlease hf =>
    rename_i w f l pool lease
    obtain ⟨-, hopen, -, b, slot, -, -, hslots, hleases, -, -, hclosed⟩ := BackendPool.select_ok hsel
    constructor
    case closed => exact hclosed
    case backends => exact agree_record (s := { s with pool := pool }) rfl
    case closers => exact hcons (hframe hf)
    case slots =>
      intro b'
      show (pool.slots.get? b').isSome = _
      rw [hslots, Dict.get?_modify]
      split <;> simp
    case released =>
      intro l' hl'
      exact (BackendPool.select_leaseReleased hsel l').trans hl'
    case streams => exact fun _ => id
    case finished =>
      intro r _ hF
      rwa [countP_finishes_cons (Frame.finishes_of_lease? hf r)]
    case leases => exact fun hc => by cases hopen.symm.trans hc
    case health => exact fun hc => by cases hopen.symm.trans hc
  | released hf h =>
    refine .release h (hcons (hframe hf)).symm fun r => ?_
    rw [countP_finishes_cons (Frame.finishes_of_lease? hf r)]
  | forced _ h => exact .release h rfl fun _ => le_rfl
  | streamFinished hst h =>
    rename_i s₁ r o st call _ _
    have hrelease : Quiet s (.finishClose r o :: F') s₁ F' :=
      .release h (hcons rfl).symm fun r => (List.sublist_cons_self ..).countP_le
    exact hrelease.trans (.congr rfl rfl rfl (.of_eq rfl) rfl (fun _ => id) fun _ _ => id)
  | opened =>
    refine .congr rfl rfl rfl (.of_eq rfl) (hcons rfl).symm hgrows.streamClosed fun r _ hF => ?_
    rwa [countP_finishes_cons rfl] at hF
  | rejected =>
    rename_i F l lock o _ _ _
    refine .congr rfl rfl rfl (agree_record (s := { s with streams := _ }) rfl) ?_
      hgrows.streamClosed fun r hr hF => ?_
    · rw [hcons rfl, hcons rfl, hcons rfl]
    · rw [countP_finishes_cons rfl] at hF
      have hne : s.streams.length ≠ r := by
        rintro rfl
        cases (streamClosed_of_le le_rfl).symm.trans hr
      rwa [countP_finishes_ne hne, countP_finishes_cons rfl]
  | streamLock =>
    exact .congr rfl rfl rfl (.of_eq rfl) rfl hgrows.streamClosed fun _ _ => id
  | streamClosing hopen => exact .close hopen fun _ => rfl
  | poolClosing _ hshutdown => exact hshutdown.elim
  | poolClosed hshutdown => exact hshutdown.elim
  | noted hshutdown => exact hshutdown.elim
  | relayEntered =>
    exact .congr rfl rfl rfl (agree_record rfl) rfl (fun _ => id) fun _ _ => id
  | relayLock | observed | relayMade =>
    exact .congr rfl rfl rfl (.of_eq rfl) rfl (fun _ => id) fun _ _ => id
  | relayClosing =>
    exact .congr rfl rfl rfl (agree_record rfl) (hcons rfl) (fun _ => id) fun r _ hF => by
      rwa [countP_finishes_cons rfl]
  | relayStreamClosing hrelay hopen hstream =>
    rename_i i o o' relay lock slock _ _
    have hmid : Quiet s F ((s.record (.relayCloseEntered i)).modifyRelay i fun rel =>
        { rel with closed := true, closeLock := lock rel }) (.relayClose i o :: F) :=
      .congr rfl rfl rfl (agree_record rfl) (hcons rfl) (fun _ => id) fun r _ hF => by
        rwa [countP_finishes_cons rfl]
    exact hmid.trans (.close hstream fun _ => rfl)
  | relaySettled =>
    refine .congr ?_ ?_ ?_ ?_ (hcons rfl).symm hgrows.streamClosed fun r _ hF => ?_
    · simp
    · simp
    · simp
    · intro x hx
      rw [settleRelay_agree (k := ofBackends) rfl rfl x hx]
      exact agree_record (k := ofBackends) rfl x hx
    · rwa [countP_finishes_cons rfl] at hF
  | relayAbandoned =>
    refine .congr rfl rfl rfl (agree_record rfl) (hcons rfl).symm (fun _ => id) fun r _ hF => ?_
    rwa [countP_finishes_cons rfl] at hF

theorem Quiet.perm (h : Quiet s F s' F') (hF : F'.Perm F'') : Quiet s F s' F'' :=
  { h with
    closers := (hF.countP_eq _).symm.trans h.closers
    finished := fun r hr hnone => (hF.countP_eq _).symm.trans (h.finished r hr hnone) }

theorem Quiet.tasks (T : List Task) (h : Quiet s F s' F') : Quiet s F { s' with tasks := T } F' :=
  ⟨h.closed, h.backends, h.closers, h.slots, h.released, h.streams, h.finished, h.leases, h.health⟩

/-- The invariant, and quiet since an earlier state. -/
def QuietSince (s₀ : StreamSystem) (F₀ : List Frame) (s : StreamSystem) (F : List Frame) : Prop :=
  Good s F ∧ Quiet s₀ F₀ s F

theorem quietSince_lasting (s₀ : StreamSystem) (F₀ : List Frame) :
    Lasting quiet (QuietSince s₀ F₀) where
  good h := h.1
  effect h he := ⟨he.good h.1, h.2.trans (he.quiet h.1)⟩
  perm h hF := ⟨h.1.perm hF, h.2.perm hF⟩
  tasks T h := ⟨h.1.tasks T, h.2.tasks T⟩

end Changes

section Steps

variable {s s' : StreamSystem} {a : StreamAction} {t : TaskId} {f : Frame} {stack : List Frame}

/-- A step that is none of `BackendPool.close`. -/
theorem step_quiet (h : Kept Good s) (hok : Permits quiet s a) (hstep : s.step a = .ok s') :
    Quiet s s.frames s' s'.frames := by
  have hkept : Kept (QuietSince s s.frames) s := ⟨⟨h.inv, .refl ..⟩, h.linked⟩
  exact (step_keeps (quietSince_lasting s s.frames) hkept hok hstep).inv.2

/-- What a task of `BackendPool.close` does next. -/
def Closes (s : StreamSystem) (a : StreamAction) : Prop :=
  a = .spawn .poolClose ∨
  (∃ t f stack, a.runs? = some t ∧ s.tasks[t]? = some (.suspended (f :: stack)) ∧
    f.isPoolClose = true) ∨
  ∃ t k g leases stack, a = .startChild t k ∧
    s.tasks[t]? = some (.suspended (.poolBackends g leases :: stack))

theorem permits_quiet (h : ¬s.Closes a) : Permits quiet s a := by
  constructor
  case closes => exact fun ha => h (.inl ha)
  case shutdown => exact fun t f stack ha ht hf => h (.inr (.inl ⟨t, f, stack, ha, ht, hf⟩))
  case backends => exact fun t k g leases stack ha ht => h (.inr (.inr ⟨t, k, g, leases, stack, ha, ht⟩))
  all_goals intros; exact trivial

/-! ## The tasks after a step -/

theorem settle_tasks (t : TaskId) (run : TaskRun) :
    (settle t run).tasks = run.state.tasks.set t (taskOf run.result) := by
  unfold settle setTask taskOf
  cases run.result <;> rfl

/-- What a step makes of the tasks. -/
def Moves (s : StreamSystem) (a : StreamAction) (s' : StreamSystem) : Prop :=
  match a with
  | .spawn call => s'.tasks = s.tasks ++ [taskOf (s.addTask.runCall call).result]
  | .leaf t signal => ∃ f stack, s.tasks[t]? = some (.suspended (f :: stack)) ∧
      answers f signal = true ∧
      s'.tasks = s.tasks.set t
        (taskOf (deliver react (s.setTask t .running) (f :: stack) signal).result)
  | .resume t failure => ∃ f stack s₁ signal, s.tasks[t]? = some (.suspended (f :: stack)) ∧
      s.wake f failure = some (s₁, signal) ∧
      s'.tasks = s.tasks.set t
        (taskOf (deliver react (s₁.setTask t .running) (f :: stack) signal).result)
  | .cancel t => ∃ f stack s₁ f', s.tasks[t]? = some (.suspended (f :: stack)) ∧
      s.cancelFrame f = some (s₁, f') ∧ s'.tasks = s.tasks.set t (.suspended (f' :: stack))
  | .startChild t k => ∃ f stack g child, s.tasks[t]? = some (.suspended (f :: stack)) ∧
      f.gather = some g ∧ g.notStarted[k]? = some child ∧
      s'.tasks = s.tasks.set t (.suspended (f.withGather (g.started k s.tasks.length) :: stack)) ++
        [taskOf ((s.setTask t
          (.suspended (f.withGather (g.started k s.tasks.length) :: stack))).addTask.runChild
            s.tasks.length child).result]
  | _ => s'.tasks = s.tasks

theorem step_moves (h : Kept Good s) (hstep : s.step a = .ok s') : s.Moves a s' := by
  have hJ := good_lasting .any
  cases a with
  | spawn call =>
    obtain rfl := Except.ok.inj hstep
    obtain ⟨⟨-, hT⟩, -⟩ := spawn_stops hJ h call fun _ => trivial
    show (settle _ _).tasks = _
    rw [settle_tasks, hT]
    simp
  | leaf t signal =>
    simp only [step] at hstep
    split at hstep
    · next f stack htask =>
      split at hstep
      · next hanswers =>
        obtain rfl := Except.ok.inj hstep
        obtain ⟨⟨-, hT⟩, -⟩ := runTask_stops hJ htask h.inv rfl h.linked
          (handed_of_leaf (permits_any s _) htask hanswers)
        refine ⟨f, stack, htask, hanswers, ?_⟩
        show (settle _ _).tasks = _
        rw [settle_tasks, hT, List.set_set]
      · cases hstep
    · cases hstep
  | cancel t =>
    simp only [step] at hstep
    split at hstep
    · next f stack htask =>
      split at hstep
      · next s₁ f' hcancel =>
        obtain rfl := Except.ok.inj hstep
        have hbefore := h.inv.perm (flatMap_frames_get htask)
        obtain ⟨-, htasks, -⟩ := cancelFrame_keeps hJ.toStable hbefore hcancel
        refine ⟨f, stack, s₁, f', htask, hcancel, ?_⟩
        show s₁.tasks.set t _ = _
        rw [htasks]
      · cases hstep
    · cases hstep
  | resume t failure =>
    simp only [step] at hstep
    split at hstep
    · next f stack htask =>
      split at hstep
      · next s₁ signal hwake =>
        obtain rfl := Except.ok.inj hstep
        obtain ⟨⟨-, hT⟩, -⟩ := resume_stops hJ h (permits_any s _) htask hwake
        refine ⟨f, stack, s₁, signal, htask, hwake, ?_⟩
        show (settle _ _).tasks = _
        rw [settle_tasks, hT, List.set_set]
      · cases hstep
    · cases hstep
  | startChild t k =>
    simp only [step] at hstep
    split at hstep
    · next f stack htask =>
      split at hstep
      · cases hstep
      · next g hgather =>
        split at hstep
        · cases hstep
        · next child hchild =>
          obtain rfl := Except.ok.inj hstep
          obtain ⟨⟨-, hT⟩, -⟩ := child_stops hJ h htask hgather (List.mem_of_getElem? hchild)
            (.suspended (f.withGather (g.started k s.tasks.length) :: stack)) fun _ _ _ => trivial
          refine ⟨f, stack, g, child, htask, hgather, hchild, ?_⟩
          have hend : (settle s.tasks.length ((s.setTask t (.suspended (f.withGather
              (g.started k s.tasks.length) :: stack))).addTask.runChild s.tasks.length
                child)).tasks = s.tasks.set t (.suspended (f.withGather
                  (g.started k s.tasks.length) :: stack)) ++ [taskOf ((s.setTask t
                    (.suspended (f.withGather (g.started k s.tasks.length) ::
                      stack))).addTask.runChild s.tasks.length child).result] := by
            rw [settle_tasks, hT]
            simp
          have hlength : (s.setTask t (.suspended (f.withGather
              { g with
                notStarted := g.notStarted.eraseIdx k
                children := g.children ++ [s.tasks.length] } :: stack))).addTask.tasks.length - 1 =
              s.tasks.length := by simp [addTask, setTask]
          rw [hlength]
          exact hend
    · cases hstep
  | newIterator r | newRelay r observed onOutcome | newRelayIterator i =>
    simp only [step] at hstep
    split at hstep
    · obtain rfl := Except.ok.inj hstep
      rfl
    · cases hstep
  | setObserver attach =>
    obtain rfl := Except.ok.inj hstep
    rfl

/-- The task an action is about. -/
def StreamAction.task? : StreamAction → Option TaskId
  | .leaf t _ | .resume t _ | .cancel t | .startChild t _ => some t
  | _ => none

/-- A step leaves the tasks it is not about. -/
theorem Moves.others (h : s.Moves a s') (ht : a.task? ≠ some t) (hlt : t < s.tasks.length) :
    s'.tasks[t]? = s.tasks[t]? := by
  cases a with
  | spawn call =>
    have htasks : s'.tasks = _ := h
    rw [htasks, List.getElem?_append_left hlt]
  | leaf t' signal =>
    obtain ⟨f, stack, -, -, htasks⟩ := h
    rw [htasks, List.getElem?_set_ne fun heq => ht (congrArg some heq)]
  | resume t' failure =>
    obtain ⟨f, stack, s₁, signal, -, -, htasks⟩ := h
    rw [htasks, List.getElem?_set_ne fun heq => ht (congrArg some heq)]
  | cancel t' =>
    obtain ⟨f, stack, s₁, f', -, -, htasks⟩ := h
    rw [htasks, List.getElem?_set_ne fun heq => ht (congrArg some heq)]
  | startChild t' k =>
    obtain ⟨f, stack, g, child, -, -, -, htasks⟩ := h
    rw [htasks, List.getElem?_append_left (by simpa using hlt),
      List.getElem?_set_ne fun heq => ht (congrArg some heq)]
  | newIterator | newRelay | newRelayIterator | setObserver =>
    have htasks : s'.tasks = s.tasks := h
    rw [htasks]

end Steps

end StreamSystem

end Gateway
