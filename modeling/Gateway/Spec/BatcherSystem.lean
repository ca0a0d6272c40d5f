import Gateway.Model.BatcherTasks
import Gateway.Spec.BatcherShutdown

/-!
# The invariant of the batcher system

Every step of the tasks around the batcher keeps the invariant of the batcher, and of
what the tasks rely on: the calls of `submit` end as the futures say, a request is in
one call of `generate_batch` at most, and a `shutdown` that waits has the shutdown lock.

## Key results

- `SystemGood.step_ok`: a step is possible and keeps the invariant, or is not possible
- `systemGood_inductive`: the invariant holds in every reachable state
-/

namespace Gateway

open DynamicBatcher

/-- A `submit` ends as the future of its item says, or is cancelled. -/
structure SubmitCall.Matches (call : SubmitCall) (item : BatchItem) : Prop where
  done : call.outcome.isSome = true → item.future.done = true
  returned : ∀ response, call.outcome = some (.returned response) → item.future = .result response
  raised : ∀ e, call.outcome = some (.raised e) → item.future = .exception e
  cancelled : call.outcome = some .cancelled → call.cancelRequested = true
  requested : item.future = .cancelled → call.outcome = some .cancelled

/-- A call goes on matching its item while the batcher goes on. -/
theorem SubmitCall.Matches.keep {call : SubmitCall} {item item' : BatchItem}
    (h : call.Matches item) (hkeep : item.future.done = true → item' = item)
    (hcancelled : item'.future = .cancelled → item.future = .cancelled) : call.Matches item' := by
  have hsame : call.outcome.isSome = true → item' = item := fun hsome => hkeep (h.done hsome)
  constructor
  case done => exact fun hsome => hsame hsome ▸ h.done hsome
  case returned => exact fun response ho => hsame (by simp [ho]) ▸ h.returned response ho
  case raised => exact fun e ho => hsame (by simp [ho]) ▸ h.raised e ho
  case cancelled => exact h.cancelled
  case requested => exact fun hfu => h.requested (hcancelled hfu)

/-- The call waits for the tasks it has cancelled. -/
def ShutdownCall.gathering : ShutdownCall → Bool
  | .timers .. => true
  | .flushes _ => true
  | _ => false

namespace BatcherSystem

/-! ## The shutdown calls -/

/-- Counting after one element was replaced. -/
theorem countP_set_eq {α : Type} {l : List α} {k : Nat} {x y : α} {p : α → Bool}
    (h : l[k]? = some y) :
    (l.set k x).countP p + (p y).toNat = l.countP p + (p x).toNat := by
  obtain ⟨hlt, rfl⟩ := List.getElem?_eq_some_iff.mp h
  have hpos : p l[k] = true → 0 < l.countP p := fun hp =>
    List.countP_pos_iff.mpr ⟨_, List.getElem_mem hlt, hp⟩
  rw [List.countP_set hlt]
  generalize l.countP p = n at hpos ⊢
  cases hy : p l[k] with
  | false => cases p x <;> simp
  | true =>
    have hn := hpos hy
    cases p x <;> simp <;> omega

/-- The timer tasks that have not finished are among these. -/
def TimersLeft (b : DynamicBatcher) (ts : List TimerId) : Prop :=
  ∀ (t : TimerId) (timer : TimerTask), b.timers[t]? = some timer → timer.state = .finished ∨ t ∈ ts

/-- The flush tasks that have not finished are among these. -/
def FlushesLeft (b : DynamicBatcher) (fs : List FlushId) : Prop :=
  ∀ (f : FlushId) (task : FlushTask), b.flushes[f]? = some task → task.state = .finished ∨ f ∈ fs

/-- A call that waits holds the lock and waits for all that is left; a call that has
    returned has left nothing. -/
structure ShutdownGood (b : DynamicBatcher) (lock : AsyncLock) (calls : List ShutdownCall) : Prop where
  orderly : lock.Orderly
  holder : calls.countP (·.gathering) = if lock.locked then 1 else 0
  closed : ∀ call ∈ calls, call.gathering = true ∨ call = .returned → b.closed = true
  idle : b.closed = true → lock.locked = false → TimersLeft b [] ∧ FlushesLeft b []
  timers : ∀ ts fs, .timers ts fs ∈ calls → TimersLeft b ts ∧ FlushesLeft b fs
  flushes : ∀ fs, .flushes fs ∈ calls → TimersLeft b [] ∧ FlushesLeft b fs
  returned : .returned ∈ calls → TimersLeft b [] ∧ FlushesLeft b []

section Shutdown

variable {b b' : DynamicBatcher} {lock lock' : AsyncLock} {calls calls' : List ShutdownCall}
  {ts : List TimerId} {fs : List FlushId}

theorem TimersLeft.keep (h : TimersLeft b ts) (hc : b.closed = true) (hkeep : KeepsTasks b b') :
    TimersLeft b' ts := by
  intro t timer' htimer'
  rcases hkeep.timer t timer' htimer' with ⟨hopen, -⟩ | ⟨timer, htimer, hst, -⟩
  · exact nomatch hc.symm.trans hopen
  · rcases h t timer htimer with hfin | hmem
    · exact .inl (hst hfin)
    · exact .inr hmem

theorem FlushesLeft.keep (h : FlushesLeft b fs) (hc : b.closed = true) (hkeep : KeepsTasks b b') :
    FlushesLeft b' fs := by
  intro f task' htask'
  rcases hkeep.flush f task' htask' with hopen | ⟨task, htask, hst⟩
  · exact nomatch hc.symm.trans hopen
  · rcases h f task htask with hfin | hmem
    · exact .inl (hst hfin)
    · exact .inr hmem

/-- A step of another task leaves the shutdown calls as they are. -/
theorem ShutdownGood.keep (h : ShutdownGood b lock calls) (hkeep : KeepsTasks b b') :
    ShutdownGood b' lock calls where
  orderly := h.orderly
  holder := h.holder
  closed call hcall hst := hkeep.closed.trans (h.closed call hcall hst)
  idle hc hl := by
    rw [hkeep.closed] at hc
    obtain ⟨hts, hfs⟩ := h.idle hc hl
    exact ⟨hts.keep hc hkeep, hfs.keep hc hkeep⟩
  timers ts fs hcall := by
    have hc := h.closed _ hcall (.inl rfl)
    obtain ⟨hts, hfs⟩ := h.timers ts fs hcall
    exact ⟨hts.keep hc hkeep, hfs.keep hc hkeep⟩
  flushes fs hcall := by
    have hc := h.closed _ hcall (.inl rfl)
    obtain ⟨hts, hfs⟩ := h.flushes fs hcall
    exact ⟨hts.keep hc hkeep, hfs.keep hc hkeep⟩
  returned hcall := by
    have hc := h.closed _ hcall (.inr rfl)
    obtain ⟨hts, hfs⟩ := h.returned hcall
    exact ⟨hts.keep hc hkeep, hfs.keep hc hkeep⟩

/-- A call queues for the lock. -/
theorem ShutdownGood.queue (h : ShutdownGood b lock calls) (hlock : lock'.Orderly)
    (hsame : lock'.locked = lock.locked) (waiter : Nat) :
    ShutdownGood b lock' (calls ++ [.locking waiter]) := by
  have hold : ∀ call, call ∈ calls ++ [ShutdownCall.locking waiter] →
      call.gathering = true ∨ call = .returned → call ∈ calls := by
    intro call hcall hst
    rcases List.mem_append.mp hcall with hin | hnew
    · exact hin
    · rw [List.mem_singleton.mp hnew] at hst
      simp [ShutdownCall.gathering] at hst
  constructor
  case orderly => exact hlock
  case holder =>
    rw [hsame, ← h.holder, List.countP_append]
    rfl
  case closed => exact fun call hcall hst => h.closed call (hold call hcall hst) hst
  case idle => exact hsame ▸ h.idle
  case timers => exact fun ts fs hcall => h.timers ts fs (hold _ hcall (.inl rfl))
  case flushes => exact fun fs hcall => h.flushes fs (hold _ hcall (.inl rfl))
  case returned => exact fun hcall => h.returned (hold _ hcall (.inr rfl))

/-- A call that takes the free lock of a closed batcher returns at once. -/
theorem ShutdownGood.return (h : ShutdownGood b lock calls) (hfree : lock.locked = false)
    (hlock' : lock'.Orderly) (hfree' : lock'.locked = false) (hc : b.closed = true)
    (hmem : ∀ call ∈ calls', call = .returned ∨ call ∈ calls)
    (hcount : calls'.countP (·.gathering) = calls.countP (·.gathering)) :
    ShutdownGood b lock' calls' where
  orderly := hlock'
  holder := by rw [hcount, h.holder, hfree, hfree']
  closed _ _ _ := hc
  idle _ _ := h.idle hc hfree
  timers ts fs hcall := by
    rcases hmem _ hcall with heq | hold
    · exact nomatch heq
    · exact h.timers ts fs hold
  flushes fs hcall := by
    rcases hmem _ hcall with heq | hold
    · exact nomatch heq
    · exact h.flushes fs hold
  returned _ := h.idle hc hfree

/-- A call that takes the free lock of an open batcher begins to wait. -/
theorem ShutdownGood.begin (h : ShutdownGood b lock calls) (hfree : lock.locked = false)
    (hlock' : lock'.Orderly) (hheld' : lock'.locked = true) (hopen : b.closed = false)
    (hc : b'.closed = true) (hts : TimersLeft b' ts) (hfs : FlushesLeft b' fs)
    (hmem : ∀ call ∈ calls', call = .timers ts fs ∨ call ∈ calls)
    (hcount : calls'.countP (·.gathering) = calls.countP (·.gathering) + 1) :
    ShutdownGood b' lock' calls' := by
  -- before, no call had done anything
  have hnone : ∀ call ∈ calls, ¬(call.gathering = true ∨ call = .returned) := by
    intro call hcall hst
    exact nomatch hopen.symm.trans (h.closed call hcall hst)
  constructor
  case orderly => exact hlock'
  case holder => rw [hcount, h.holder, hfree, hheld']; rfl
  case closed => exact fun _ _ _ => hc
  case idle => exact fun _ hl => nomatch hheld'.symm.trans hl
  case timers =>
    intro ts' fs' hcall
    rcases hmem _ hcall with heq | hold
    · obtain ⟨rfl, rfl⟩ := ShutdownCall.timers.inj heq
      exact ⟨hts, hfs⟩
    · exact absurd (.inl rfl) (hnone _ hold)
  case flushes =>
    intro fs' hcall
    rcases hmem _ hcall with heq | hold
    · exact nomatch heq
    · exact absurd (.inl rfl) (hnone _ hold)
  case returned =>
    intro hcall
    rcases hmem _ hcall with heq | hold
    · exact nomatch heq
    · exact absurd (.inr rfl) (hnone _ hold)

/-- The timer tasks a call waited for are over. -/
theorem ShutdownGood.timersOver (h : ShutdownGood b lock calls) {k : Nat}
    (hcall : calls[k]? = some (.timers ts fs)) (hts : TimersLeft b []) :
    ShutdownGood b lock (calls.set k (.flushes fs)) := by
  have hin : .timers ts fs ∈ calls := List.mem_of_getElem? hcall
  constructor
  case orderly => exact h.orderly
  case holder =>
    rw [← h.holder]
    have hset : (calls.set k (.flushes fs)).countP (·.gathering) + 1 =
        calls.countP (·.gathering) + 1 := countP_set_eq hcall
    exact Nat.add_right_cancel hset
  case closed => exact fun _ _ _ => h.closed _ hin (.inl rfl)
  case idle => exact h.idle
  case timers =>
    intro ts' fs' hcall'
    rcases List.mem_or_eq_of_mem_set hcall' with hold | heq
    · exact h.timers ts' fs' hold
    · exact nomatch heq
  case flushes =>
    intro fs' hcall'
    rcases List.mem_or_eq_of_mem_set hcall' with hold | heq
    · exact h.flushes fs' hold
    · obtain rfl := ShutdownCall.flushes.inj heq
      exact ⟨hts, (h.timers ts _ hin).2⟩
  case returned =>
    intro hcall'
    rcases List.mem_or_eq_of_mem_set hcall' with hold | heq
    · exact h.returned hold
    · exact nomatch heq

/-- The flush tasks a call waited for are over, and it returns. -/
theorem ShutdownGood.flushesOver (h : ShutdownGood b lock calls) {k : Nat}
    (hcall : calls[k]? = some (.flushes fs)) (hfs : FlushesLeft b []) :
    ShutdownGood b lock.release (calls.set k .returned) := by
  have hin : .flushes fs ∈ calls := List.mem_of_getElem? hcall
  have hts := (h.flushes fs hin).1
  obtain ⟨hfree, horderly⟩ := h.orderly.release
  constructor
  case orderly => exact horderly
  case holder =>
    have hset : (calls.set k .returned).countP (·.gathering) + 1 = calls.countP (·.gathering) :=
      countP_set_eq hcall
    have hone : calls.countP (·.gathering) ≤ 1 := by
      rw [h.holder]
      split <;> omega
    rw [hfree]
    show (calls.set k .returned).countP (·.gathering) = 0
    omega
  case closed => exact fun _ _ _ => h.closed _ hin (.inl rfl)
  case idle => exact fun _ _ => ⟨hts, hfs⟩
  case timers =>
    intro ts' fs' hcall'
    rcases List.mem_or_eq_of_mem_set hcall' with hold | heq
    · exact h.timers ts' fs' hold
    · exact nomatch heq
  case flushes =>
    intro fs' hcall'
    rcases List.mem_or_eq_of_mem_set hcall' with hold | heq
    · exact h.flushes fs' hold
    · exact nomatch heq
  case returned => exact fun _ => ⟨hts, hfs⟩

end Shutdown

/-! ## The invariant -/

/-- The invariant of the batcher system. -/
structure SystemGood (s : BatcherSystem) : Prop where
  batcher : Good s.batcher
  length : s.submits.length = s.batcher.items.length
  submits : ∀ (i : ItemId) (call : SubmitCall) (item : BatchItem), s.submits[i]? = some call →
    s.batcher.items[i]? = some item → call.Matches item
  timers : ∀ (t : TimerId) (timer : TimerTask), s.batcher.timers[t]? = some timer →
    timer.tracked = false → timer.state = .finished
  calls : ∀ is ∈ s.calls, ∃ task ∈ s.batcher.flushes, task.started = true ∧ task.items = is
  once : s.calls.flatten.Nodup
  shutdown : ShutdownGood s.batcher s.shutdownLock s.shutdowns

/-- What a later state keeps of an earlier one. -/
structure Later (s s' : BatcherSystem) : Prop where
  evolves : Evolves s.batcher s'.batcher
  submit : ∀ (i : ItemId) (call : SubmitCall), s.submits[i]? = some call → ∃ call' : SubmitCall,
    s'.submits[i]? = some call' ∧ (call.outcome.isSome = true → call' = call)

variable {s s' s'' : BatcherSystem} {b : DynamicBatcher} {i : ItemId} {t : TimerId} {f : FlushId}

theorem Later.refl (s : BatcherSystem) : Later s s :=
  ⟨.refl _, fun _ call hcall => ⟨call, hcall, fun _ => rfl⟩⟩

theorem Later.trans (h : Later s s') (h' : Later s' s'') : Later s s'' where
  evolves := h.evolves.trans h'.evolves
  submit i call hcall := by
    obtain ⟨call', hcall', hkeep⟩ := h.submit i call hcall
    obtain ⟨call'', hcall'', hkeep'⟩ := h'.submit i call' hcall'
    refine ⟨call'', hcall'', fun hsome => ?_⟩
    obtain rfl := hkeep hsome
    exact hkeep' hsome

/-! ## Steps -/

theorem SystemGood.matches_keep (h : SystemGood s) (hgood : Good b) (hevolves : Evolves s.batcher b)
    {call : SubmitCall} {item' : BatchItem} (hlt : i < s.batcher.items.length)
    (hcall : s.submits[i]? = some call) (hitem' : b.items[i]? = some item')
    (hcancelled : b.stateOf i = some .cancelled → s.batcher.stateOf i = some .cancelled) :
    call.Matches item' := by
  have hitem := List.getElem?_eq_getElem hlt
  obtain ⟨item'', hitem'', -, -, hkeep⟩ := hevolves.item i _ hitem
  obtain rfl := Option.some.inj (hitem'.symm.trans hitem'')
  refine (h.submits i call _ hcall hitem).keep hkeep fun hfu => ?_
  -- a cancelled item was cancelled before
  have hst := hcancelled (stateOf_eq_some.mpr
    ⟨item', hitem', (hgood.items.cancelled i item' hitem').mpr hfu⟩)
  obtain ⟨item₀, hitem₀, hst₀⟩ := stateOf_eq_some.mp hst
  obtain rfl := Option.some.inj (hitem.symm.trans hitem₀)
  exact (h.batcher.items.cancelled i _ hitem).mp hst₀

theorem SystemGood.timers_keep (h : SystemGood s) (htasks : KeepsTasks s.batcher b) (t : TimerId)
    (timer' : TimerTask) (htimer' : b.timers[t]? = some timer') (ht : timer'.tracked = false) :
    timer'.state = .finished := by
  rcases htasks.timer t timer' htimer' with ⟨-, hnew⟩ | ⟨timer, htimer, hst, hback⟩
  · exact hnew ht
  · rcases hback ht with hold | hfin
    · exact hst (h.timers t timer htimer hold)
    · exact hfin

theorem SystemGood.calls_keep (h : SystemGood s) (hevolves : Evolves s.batcher b)
    (is : List ItemId) (his : is ∈ s.calls) :
    ∃ task ∈ b.flushes, task.started = true ∧ task.items = is := by
  obtain ⟨task, htask, hstarted, hitems⟩ := h.calls is his
  obtain ⟨f, hf⟩ := List.mem_iff_getElem?.mp htask
  obtain ⟨task', htask', hitems', hstarted'⟩ := hevolves.task f task hf
  exact ⟨task', List.mem_of_getElem? htask', hstarted' hstarted, hitems'.trans hitems⟩

/-- A step that changes the batcher only. -/
theorem SystemGood.update (h : SystemGood s) (hgood : Good b) (hevolves : Evolves s.batcher b)
    (hcancelled : KeepsCancelled s.batcher b) (htasks : KeepsTasks s.batcher b)
    (hlength : b.items.length = s.batcher.items.length) :
    SystemGood { s with batcher := b } ∧ Later s { s with batcher := b } := by
  refine ⟨⟨hgood, h.length.trans hlength.symm, fun i call item' hcall hitem' => ?_,
    h.timers_keep htasks, h.calls_keep hevolves, h.once, h.shutdown.keep htasks⟩,
    hevolves, fun i call hcall => ⟨call, hcall, fun _ => rfl⟩⟩
  have hlt : i < s.batcher.items.length := hlength ▸ (List.getElem?_eq_some_iff.mp hitem').1
  exact h.matches_keep hgood hevolves hlt hcall hitem' (hcancelled i)

/-- A timer task changes its state. -/
theorem SystemGood.modifyTimer (h : SystemGood s) {timer : TimerTask} {g : TimerTask → TimerTask}
    (htimer : s.batcher.timers[t]? = some timer) (hbatch : (g timer).batch = timer.batch)
    (halive : (g timer).alive = timer.alive)
    (hstate : timer.state = .finished → (g timer).state = .finished)
    (htracked : (g timer).tracked = false → timer.tracked = false ∨ (g timer).state = .finished) :
    SystemGood { s with batcher := s.batcher.modifyTimer t g } ∧
      Later s { s with batcher := s.batcher.modifyTimer t g } :=
  h.update (h.batcher.modifyTimer htimer hbatch fun _ => halive) (.of_same rfl rfl rfl) (fun _ => id)
    (.modifyTimer htimer hstate htracked) rfl

/-- The steps of a timer task. -/
theorem SystemGood.timer (h : SystemGood s) (t : TimerId) (now : Int) :
    (∃ s', s.step (.timer t now) = .ok s' ∧ SystemGood s' ∧ Later s s') ∨
      s.step (.timer t now) = .error .disabled := by
  cases htimer : s.batcher.timers[t]? with
  | none => exact .inr (by simp [step, htimer])
  | some timer =>
    simp only [step, htimer]
    split
    · exact .inr rfl
    · -- the task starts its sleep
      next hst hc =>
      exact .inl ⟨_, rfl, h.modifyTimer htimer (g := ({ · with state := .awaiting })) rfl
        (by simp [TimerTask.alive, hst]) (fun hfin => nomatch hst.symm.trans hfin) .inl⟩
    · -- the timer expires
      next hst hc =>
      obtain ⟨b₁, hok, hgood, hevolves, hdetached⟩ := h.batcher.timerExpired htimer now
      refine .inl ⟨_, by rw [hok]; rfl, h.update hgood (hevolves.trans (.of_same rfl rfl rfl))
        hdetached.keepsCancelled ?_ hdetached.length⟩
      obtain ⟨timer', htimer', -⟩ := hdetached.kept_timer htimer
      exact (hdetached.keepsTasks h.batcher).trans
        (.modifyTimer htimer' (fun _ => rfl) fun _ => .inr rfl)
    · -- a cancelled task ends
      next hc _ =>
      exact .inl ⟨_, rfl, h.modifyTimer htimer (g := ({ · with state := .finished })) rfl
        (by simp [TimerTask.alive, hc]) (fun _ => rfl) fun _ => .inr rfl⟩

/-- A flush task changes its state. -/
theorem SystemGood.modifyFlush (h : SystemGood s) {task : FlushTask} {g : FlushTask → FlushTask}
    (hf : s.batcher.flushes[f]? = some task) (hsame : SameRun task (g task))
    (hsound : FlushTask.Sound (g task) s.batcher.closed)
    (hshut : s.batcher.closed = true → (g task).state = .finished ∨ (g task).cancelRequested = true)
    (hstate : task.state = .finished → (g task).state = .finished) :
    SystemGood { s with batcher := s.batcher.modifyFlush f g } ∧
      Later s { s with batcher := s.batcher.modifyFlush f g } :=
  h.update (h.batcher.modifyFlush hf hsame hsound hshut) (.modifyFlush hf hsame) (fun _ => id)
    (.replace hf rfl rfl (modify_eq_set hf) hstate) rfl

/-- A new call of `generate_batch`, for a task that has not been in one. -/
theorem SystemGood.call (h : SystemGood s) {task : FlushTask}
    (hf : s.batcher.flushes[f]? = some task) (hunstarted : task.started = false)
    (h' : SystemGood { s with batcher := b })
    (hb : b.flushes[f]? = some { task with state := .awaiting, started := true }) :
    SystemGood { s with batcher := b, calls := s.calls ++ [task.items] } := by
  refine { h' with calls := fun is his => ?_, once := ?_ }
  · rcases List.mem_append.mp his with hold | hnew
    · exact h'.calls is hold
    · rw [List.mem_singleton.mp hnew]
      exact ⟨_, List.mem_of_getElem? hb, rfl, rfl⟩
  · have hnodup : task.items.Nodup :=
      (h.batcher.flushes.sorted task (List.mem_of_getElem? hf)).imp fun hlt => Nat.ne_of_lt hlt
    rw [List.flatten_append, List.nodup_append]
    refine ⟨h.once, by simpa using hnodup, ?_⟩
    rintro i hi j hj rfl
    -- the earlier calls were made by other tasks
    obtain ⟨is, his, hmem⟩ := List.mem_flatten.mp hi
    obtain ⟨task', htask', hstarted, rfl⟩ := h.calls is his
    obtain ⟨f', hf'⟩ := List.mem_iff_getElem?.mp htask'
    obtain rfl := h.batcher.flushes.unique hf hf' (by simpa using hj) hmem
    obtain rfl := Option.some.inj (hf.symm.trans hf')
    exact nomatch hunstarted.symm.trans hstarted

/-- The start of a flush task. -/
theorem SystemGood.flush (h : SystemGood s) (f : FlushId) :
    (∃ s', s.step (.flush f) = .ok s' ∧ SystemGood s' ∧ Later s s') ∨
      s.step (.flush f) = .error .disabled := by
  cases hf : s.batcher.flushes[f]? with
  | none => exact .inr (by simp [step, hf])
  | some task =>
    have hmem : task ∈ s.batcher.flushes := List.mem_of_getElem? hf
    have hsound := h.batcher.flushes.sound task hmem
    simp only [step, hf]
    split
    · exact .inr rfl
    next hst =>
    rw [ne_eq, not_not] at hst
    have hunstarted := hsound.created hst
    have hnone : task.answer = none := hsound.answered (.inr hunstarted)
    split
    · next hc =>
      -- a task that was cancelled before it ran never runs
      refine .inl ⟨_, rfl, h.modifyFlush hf (g := ({ · with state := .finished })) ?_ ?_
        (fun _ => .inl rfl) fun _ => rfl⟩
      · exact ⟨rfl, rfl, rfl, by simp [FlushTask.ended, hc, hunstarted], id, And.left⟩
      · exact ⟨(by intros; contradiction), (by intros; contradiction), fun _ => .inr ⟨hunstarted, hc⟩, fun _ => hnone, fun _ => rfl,
          hsound.cancelled⟩
    · next hc =>
      rw [Bool.not_eq_true] at hc
      have hopen : s.batcher.closed = false := by
        refine Bool.eq_false_iff.mpr fun hclosed => ?_
        rcases h.batcher.shut hclosed task hmem with hfin | hreq
        · cases hst.symm.trans hfin
        · cases hc.symm.trans hreq
      obtain ⟨hgood, hlater⟩ := h.modifyFlush hf
        (g := ({ · with state := .awaiting, started := true }))
        ⟨rfl, rfl, rfl, by simp [FlushTask.ended, hc, hst], fun _ => rfl, fun hun => by
          simp [FlushTask.ended, hc, hst] at hun⟩
        ⟨(by intros; contradiction), fun _ => rfl, (by intros; contradiction), fun _ => hnone, (fun ht => by cases (hsound.tracked ht).symm.trans hst),
          hsound.cancelled⟩
        (fun hclosed => by cases hopen.symm.trans hclosed) (fun hfin => by cases hst.symm.trans hfin)
      refine .inl ⟨_, rfl, h.call hf hunstarted hgood ?_, hlater.evolves, hlater.submit⟩
      simp [DynamicBatcher.modifyFlush, hf]

/-- The end of a flush task. -/
theorem SystemGood.answer (h : SystemGood s) (f : FlushId) (answer : BatchAnswer) :
    (∃ s', s.step (.answer f answer) = .ok s' ∧ SystemGood s' ∧ Later s s') ∨
      s.step (.answer f answer) = .error .disabled := by
  cases hf : s.batcher.flushes[f]? with
  | none => exact .inr (by simp [step, hf])
  | some task =>
    simp only [step, hf]
    split
    · exact .inr rfl
    next hst =>
    rw [ne_eq, not_not] at hst
    obtain ⟨b', value, hok, hgood, hevolves, hcompletes⟩ := h.batcher.answerFlush hf hst answer
    rw [hok]
    exact .inl ⟨_, rfl, h.update hgood hevolves hcompletes.keepsCancelled
      (.replace hf hcompletes.closed hcompletes.timers hcompletes.flushes fun _ => rfl)
      hcompletes.length⟩

/-- The done callback of a timer task. -/
theorem SystemGood.timerDone (h : SystemGood s) (t : TimerId) :
    (∃ s', s.step (.timerDone t) = .ok s' ∧ SystemGood s' ∧ Later s s') ∨
      s.step (.timerDone t) = .error .disabled := by
  simp only [step]
  split
  · next hany =>
    cases htimer : s.batcher.timers[t]? with
    | none => simp [htimer] at hany
    | some timer =>
      have hst : timer.state = .finished := by simpa [htimer] using hany
      exact .inl ⟨_, rfl, h.modifyTimer htimer (g := ({ · with tracked := false })) rfl rfl id
        fun _ => .inr hst⟩
  · exact .inr rfl

/-- The done callbacks of a flush task. -/
theorem SystemGood.flushDone (h : SystemGood s) (f : FlushId) :
    (∃ s', s.step (.flushDone f) = .ok s' ∧ SystemGood s' ∧ Later s s') ∨
      s.step (.flushDone f) = .error .disabled := by
  simp only [step]
  split
  · next hany =>
    cases hf : s.batcher.flushes[f]? with
    | none => simp [hf] at hany
    | some task =>
      have hst : task.state = .finished := by simpa [hf] using hany
      have hsound := h.batcher.flushes.sound task (List.mem_of_getElem? hf)
      exact .inl ⟨_, rfl, h.modifyFlush hf (g := ({ · with tracked := false }))
        ⟨rfl, rfl, rfl, rfl, id, And.left⟩ { hsound with tracked := fun _ => hst }
        (fun hc => h.batcher.shut hc task (List.mem_of_getElem? hf)) id⟩
  · exact .inr rfl

/-- The task of a `submit` is cancelled. -/
theorem SystemGood.cancel (h : SystemGood s) (i : ItemId) :
    (∃ s', s.step (.cancel i) = .ok s' ∧ SystemGood s' ∧ Later s s') ∨
      s.step (.cancel i) = .error .disabled := by
  simp only [step]
  split
  · next c hcall =>
    refine .inl ⟨_, rfl, { h with
      length := (List.length_set ..).trans h.length
      submits := fun j call item hj hitem => ?_ }, .refl _, fun j call hj => ?_⟩
    · rw [List.getElem?_set] at hj
      split at hj
      · next heq =>
        subst heq
        have hold := h.submits i _ item hcall hitem
        rw [if_pos (List.getElem?_eq_some_iff.mp hcall).1] at hj
        obtain rfl := Option.some.inj hj
        exact ⟨nofun, nofun, nofun, nofun, hold.requested⟩
      · exact h.submits j call item hj hitem
    · rw [List.getElem?_set]
      by_cases heq : i = j
      · subst heq
        obtain rfl := Option.some.inj (hcall.symm.trans hj)
        rw [if_pos rfl, if_pos (List.getElem?_eq_some_iff.mp hcall).1]
        exact ⟨_, rfl, nofun⟩
      · exact ⟨call, by rw [if_neg heq]; exact hj, fun _ => rfl⟩
  · exact .inr rfl

/-- A `submit` ends, and its item has a value that fits. -/
theorem SystemGood.endSubmit (h : SystemGood s) {c : Bool} {outcome : SubmitOutcome}
    (hcall : s.submits[i]? = some ⟨c, none⟩) (hgood : Good b) (hevolves : Evolves s.batcher b)
    (hlength : b.items.length = s.batcher.items.length) (htasks : KeepsTasks s.batcher b)
    (hothers : ∀ j, j ≠ i → b.stateOf j = s.batcher.stateOf j)
    (hmatches : ∀ item, b.items[i]? = some item → SubmitCall.Matches ⟨c, some outcome⟩ item) :
    SystemGood ({ s with batcher := b }.endSubmit i outcome) ∧
      Later s ({ s with batcher := b }.endSubmit i outcome) := by
  have hsubmits : ({ s with batcher := b }.endSubmit i outcome).submits =
      s.submits.set i ⟨c, some outcome⟩ := modify_eq_set hcall
  have hlt : i < s.submits.length := (List.getElem?_eq_some_iff.mp hcall).1
  refine ⟨⟨hgood, ?_, fun j call item' hj hitem' => ?_, h.timers_keep htasks, h.calls_keep hevolves,
    h.once, h.shutdown.keep htasks⟩, hevolves, fun j call hj => ?_⟩
  · rw [hsubmits, List.length_set]
    exact h.length.trans hlength.symm
  · rw [hsubmits, List.getElem?_set] at hj
    by_cases heq : i = j
    · subst heq
      rw [if_pos rfl, if_pos hlt] at hj
      obtain rfl := Option.some.inj hj
      exact hmatches item' hitem'
    · rw [if_neg heq] at hj
      have hlt' : j < s.batcher.items.length := hlength ▸ (List.getElem?_eq_some_iff.mp hitem').1
      exact h.matches_keep hgood hevolves hlt' hj hitem' fun hst =>
        (hothers j (Ne.symm heq)).symm.trans hst
  · rw [hsubmits, List.getElem?_set]
    by_cases heq : i = j
    · subst heq
      obtain rfl := Option.some.inj (hcall.symm.trans hj)
      exact ⟨_, by rw [if_pos rfl, if_pos hlt], nofun⟩
    · exact ⟨call, by rw [if_neg heq]; exact hj, fun _ => rfl⟩

/-- The task of a `submit` resumes. -/
theorem SystemGood.resume (h : SystemGood s) (i : ItemId) :
    (∃ s', s.step (.resume i) = .ok s' ∧ SystemGood s' ∧ Later s s') ∨
      s.step (.resume i) = .error .disabled := by
  simp only [step]
  split
  · next c hcall =>
    have hlt : i < s.batcher.items.length := h.length ▸ (List.getElem?_eq_some_iff.mp hcall).1
    unfold resumeSubmit
    split
    · exact .inr rfl
    next item hitem =>
    have hmatches := h.submits i _ item hcall hitem
    -- the call of a settled item ends with its value
    have hend : ∀ outcome, SubmitCall.Matches ⟨c, some outcome⟩ item → ∃ s',
        (Except.ok (s.endSubmit i outcome) : Except StepError BatcherSystem) = .ok s' ∧
          SystemGood s' ∧ Later s s' := by
      intro outcome hm
      refine ⟨_, rfl, h.endSubmit hcall h.batcher (.refl _) rfl (.of_same rfl rfl rfl)
        (fun _ _ => rfl) fun item' hitem' => ?_⟩
      obtain rfl := Option.some.inj (hitem.symm.trans hitem')
      exact hm
    split
    · next hc =>
      subst hc
      obtain ⟨hgood, hevolves, hlength, hothers, htasks⟩ := h.batcher.cancelItem i
      refine .inl ⟨_, rfl, h.endSubmit hcall hgood hevolves hlength htasks hothers
        fun item' hitem' => ?_⟩
      obtain ⟨item₀, hitem₀, hdone⟩ := cancelItem_done hitem
      obtain rfl := Option.some.inj (hitem'.symm.trans hitem₀)
      exact ⟨fun _ => hdone, nofun, nofun, fun _ => rfl, fun _ => rfl⟩
    · split
      · exact .inr rfl
      · next response hfu =>
        refine .inl (hend _ ⟨fun _ => by simp [hfu], fun r hr => ?_, nofun, nofun, fun hc => ?_⟩)
        · obtain rfl := SubmitOutcome.returned.inj (Option.some.inj hr)
          exact hfu
        · exact nomatch hfu.symm.trans hc
      · next e hfu =>
        refine .inl (hend _ ⟨fun _ => by simp [hfu], nofun, fun r hr => ?_, nofun, fun hc => ?_⟩)
        · obtain rfl := SubmitOutcome.raised.inj (Option.some.inj hr)
          exact hfu
        · exact nomatch hfu.symm.trans hc
      · next hfu =>
        -- only the call itself cancels the future
        exact nomatch hmatches.requested hfu
  · exact .inr rfl

/-- A task calls `submit`. -/
theorem SystemGood.submit (h : SystemGood s) (tenantId : String) (request : ChatCompletionRequest)
    (submittedAt dispatchedAt : Int) :
    (∃ s', s.step (.submit tenantId request submittedAt dispatchedAt) = .ok s' ∧
      SystemGood s' ∧ Later s s') ∨
      s.step (.submit tenantId request submittedAt dispatchedAt) = .error .disabled := by
  simp only [step]
  split
  · exact .inl ⟨s, rfl, h, .refl s⟩
  next hopen =>
  rw [Bool.not_eq_true] at hopen
  obtain ⟨b', hok, hgood, hevolves, hlength, -, hcancelled, htasks⟩ :=
    h.batcher.submitLocked hopen tenantId request submittedAt dispatchedAt
  rw [hok]
  refine .inl ⟨_, rfl, ⟨hgood, ?_, fun i call item' hcall hitem' => ?_, h.timers_keep htasks,
    h.calls_keep hevolves, h.once, h.shutdown.keep htasks⟩, hevolves, fun i call hcall => ?_⟩
  · show (s.submits ++ [(⟨false, none⟩ : SubmitCall)]).length = b'.items.length
    rw [List.length_append, hlength, h.length]
    rfl
  · rcases Nat.lt_trichotomy i s.submits.length with hlt | rfl | hgt
    · rw [List.getElem?_append_left hlt] at hcall
      exact h.matches_keep hgood hevolves (h.length ▸ hlt) hcall hitem' (hcancelled i)
    · rw [List.getElem?_concat_length] at hcall
      obtain rfl := Option.some.inj hcall
      refine ⟨nofun, nofun, nofun, nofun, fun hfu => ?_⟩
      -- the new item is not cancelled
      have hst := hcancelled _ (stateOf_eq_some.mpr
        ⟨item', hitem', (hgood.items.cancelled _ item' hitem').mpr hfu⟩)
      exact absurd (lt_of_stateOf hst) (h.length ▸ Nat.lt_irrefl _)
    · have hlt := (List.getElem?_eq_some_iff.mp hcall).1
      rw [List.length_append] at hlt
      exact absurd (Nat.le_of_lt_succ hlt) (Nat.not_le_of_gt hgt)
  · exact ⟨call, by rw [List.getElem?_append_left (List.getElem?_eq_some_iff.mp hcall).1]; exact hcall,
      fun _ => rfl⟩

/-! ## The steps of a shutdown -/

/-- What holds when a call has just taken the lock and stands at `k`, still with the mark
    it came with. -/
structure Entering (s : BatcherSystem) (lock : AsyncLock) (calls : List ShutdownCall) (k : Nat) :
    Prop where
  orderly : lock.Orderly
  held : lock.locked = true
  member : ∀ call call', call ∈ calls.set k call' → call = call' ∨ call ∈ s.shutdowns
  count : ∀ call', (calls.set k call').countP (·.gathering) =
    s.shutdowns.countP (·.gathering) + call'.gathering.toNat

/-- The section of `shutdown` of a call that has the lock. -/
theorem SystemGood.shutdownSection (h : SystemGood s) {lock : AsyncLock} {calls : List ShutdownCall}
    {k : Nat} (hfree : s.shutdownLock.locked = false) (hentering : Entering s lock calls k) :
    ∃ s', { s with shutdownLock := lock, shutdowns := calls }.shutdownSection k = .ok s' ∧
      SystemGood s' ∧ Later s s' := by
  unfold BatcherSystem.shutdownSection
  split
  · next hc =>
    obtain ⟨hfree', horderly⟩ := hentering.orderly.release
    refine ⟨_, rfl, { h with shutdown := ?_ }, .refl _, fun i call hcall => ⟨call, hcall, fun _ => rfl⟩⟩
    exact h.shutdown.return hfree horderly hfree' hc (fun call => hentering.member call _)
      (hentering.count .returned)
  · next hopen =>
    have hopen' : s.batcher.closed = false := Bool.eq_false_iff.mpr hopen
    obtain ⟨ts, fs, b', hok, hshut⟩ := h.batcher.shutdownLocked hopen'
    simp only [hok]
    have htimers : ∀ (t : TimerId) (timer' : TimerTask), b'.timers[t]? = some timer' →
        timer'.tracked = false → timer'.state = .finished := by
      intro t timer' htimer' ht
      have hlt : t < s.batcher.timers.length := by
        rw [← hshut.timers]
        exact (List.getElem?_eq_some_iff.mp htimer').1
      have hold := h.timers t _ (List.getElem?_eq_getElem hlt)
      rcases hshut.timer t _ (List.getElem?_eq_getElem hlt) with hsame | hcancel
      · obtain rfl := Option.some.inj (htimer'.symm.trans hsame)
        exact hold ht
      · obtain rfl := Option.some.inj (htimer'.symm.trans hcancel)
        rw [cancel_tracked] at ht
        exact (cancel_state _).trans (hold ht)
    refine ⟨_, rfl, ⟨hshut.good, h.length.trans hshut.length.symm, fun i call item' hcall hitem' => ?_,
      htimers, h.calls_keep hshut.evolves, h.once, ?_⟩, hshut.evolves,
      fun i call hcall => ⟨call, hcall, fun _ => rfl⟩⟩
    · have hlt : i < s.batcher.items.length :=
        hshut.length ▸ (List.getElem?_eq_some_iff.mp hitem').1
      exact h.matches_keep hshut.good hshut.evolves hlt hcall hitem' (hshut.keeps i)
    · refine h.shutdown.begin hfree hentering.orderly hentering.held hopen' hshut.closed
        (fun t timer htimer => ?_) (fun f task htask => ?_) (fun call => hentering.member call _)
        (hentering.count (.timers ts fs))
      · cases ht : timer.tracked with
        | false => exact .inl (htimers t timer htimer ht)
        | true => exact .inr ((hshut.timerTasks t).mpr ⟨timer, htimer, ht⟩)
      · cases ht : task.tracked with
        | false =>
          exact .inl ((hshut.good.flushes.sound task (List.mem_of_getElem? htask)).tracked ht)
        | true => exact .inr ((hshut.flushTasks f).mpr ⟨task, htask, ht⟩)

/-- A task calls `shutdown`. -/
theorem SystemGood.callShutdown (h : SystemGood s) :
    (∃ s', s.step .shutdown = .ok s' ∧ SystemGood s' ∧ Later s s') ∨
      s.step .shutdown = .error .disabled := by
  simp only [step]
  split
  · next lock hacquire =>
    obtain ⟨hfree, hheld, horderly⟩ := AsyncLock.Orderly.acquire_now hacquire
    have hset : ∀ call', (s.shutdowns ++ [ShutdownCall.returned]).set s.shutdowns.length call' =
        s.shutdowns ++ [call'] := by
      intro call'
      rw [List.set_append_right _ _ (Nat.le_refl _), Nat.sub_self]
      rfl
    refine .inl (h.shutdownSection hfree ⟨horderly, hheld, fun call call' hcall => ?_, fun call' => ?_⟩)
    · rw [hset] at hcall
      rcases List.mem_append.mp hcall with hold | hnew
      · exact .inr hold
      · exact .inl (List.mem_singleton.mp hnew)
    · rw [hset, List.countP_append, List.countP_singleton]
      cases call'.gathering <;> rfl
  · next waiter lock hacquire =>
    obtain ⟨hsame, horderly⟩ := h.shutdown.orderly.acquire_later hacquire
    exact .inl ⟨_, rfl, { h with shutdown := h.shutdown.queue horderly hsame waiter }, .refl _,
      fun i call hcall => ⟨call, hcall, fun _ => rfl⟩⟩

/-- A task in `shutdown` resumes. -/
theorem SystemGood.resumeShutdown (h : SystemGood s) (k : Nat) :
    (∃ s', s.step (.resumeShutdown k) = .ok s' ∧ SystemGood s' ∧ Later s s') ∨
      s.step (.resumeShutdown k) = .error .disabled := by
  have hlater : ∀ {lock : AsyncLock} {calls : List ShutdownCall},
      Later s { s with shutdownLock := lock, shutdowns := calls } :=
    ⟨.refl _, fun i call hcall => ⟨call, hcall, fun _ => rfl⟩⟩
  simp only [step]
  split
  · next waiter hcall =>
    split
    · next lock hresume =>
      obtain ⟨hfree, hheld, horderly⟩ := h.shutdown.orderly.resume hresume
      refine .inl (h.shutdownSection hfree ⟨horderly, hheld, fun call call' hcall' => ?_,
        fun call' => ?_⟩)
      · exact (List.mem_or_eq_of_mem_set hcall').symm
      · have hset : (s.shutdowns.set k call').countP (·.gathering) + 0 =
            s.shutdowns.countP (·.gathering) + call'.gathering.toNat := countP_set_eq hcall
        exact hset
    · exact .inr rfl
  · next ts fs hcall =>
    split
    · next hover =>
      have hts : TimersLeft s.batcher [] := by
        intro t timer htimer
        rcases (h.shutdown.timers ts fs (List.mem_of_getElem? hcall)).1 t timer htimer with hfin | hin
        · exact .inl hfin
        · have hall := List.all_eq_true.mp hover t hin
          simp only [htimer, Option.all_some, decide_eq_true_eq] at hall
          exact .inl hall
      exact .inl ⟨_, rfl, { h with shutdown := h.shutdown.timersOver hcall hts }, hlater⟩
    · exact .inr rfl
  · next fs hcall =>
    split
    · next hover =>
      have hfs : FlushesLeft s.batcher [] := by
        intro f task htask
        rcases (h.shutdown.flushes fs (List.mem_of_getElem? hcall)).2 f task htask with hfin | hin
        · exact .inl hfin
        · have hall := List.all_eq_true.mp hover f hin
          simp only [htask, Option.all_some, decide_eq_true_eq] at hall
          exact .inl hall
      exact .inl ⟨_, rfl, { h with shutdown := h.shutdown.flushesOver hcall hfs }, hlater⟩
    · exact .inr rfl
  · exact .inr rfl

/-- A step keeps the invariant or is not possible: no step raises an error of broken
    bookkeeping. -/
theorem SystemGood.step_ok (h : SystemGood s) (a : BatcherAction) :
    (∃ s', s.step a = .ok s' ∧ SystemGood s' ∧ Later s s') ∨ s.step a = .error .disabled := by
  cases a with
  | submit tenantId request submittedAt dispatchedAt => exact h.submit ..
  | cancel i => exact h.cancel i
  | resume i => exact h.resume i
  | timer t now => exact h.timer t now
  | flush f => exact h.flush f
  | answer f answer => exact h.answer f answer
  | timerDone t => exact h.timerDone t
  | flushDone f => exact h.flushDone f
  | shutdown => exact h.callShutdown
  | resumeShutdown k => exact h.resumeShutdown k

theorem SystemGood.next {a : BatcherAction} (h : SystemGood s) (hstep : lts.Step s a s') :
    SystemGood s' ∧ Later s s' := by
  have hok : s.step a = .ok s' := hstep
  rcases h.step_ok a with ⟨s'', hok', hgood, hlater⟩ | hdisabled
  · obtain rfl := Except.ok.inj (hok.symm.trans hok')
    exact ⟨hgood, hlater⟩
  · exact nomatch hok.symm.trans hdisabled

/-! ## Reachable states -/

/-- A batcher with nothing in it. -/
structure New (b : DynamicBatcher) : Prop where
  maxSize : 2 ≤ b.maxSize
  groups : b.groups = .empty
  pending : b.pending = 0
  inflight : b.inflight = 0
  closed : b.closed = false
  items : b.items = []
  timers : b.timers = []
  flushes : b.flushes = []

theorem new_of_init {maxSize : Nat} {maxWaitSeconds : Rat} {observed : Bool}
    (h : DynamicBatcher.init maxSize maxWaitSeconds observed = some b) : New b := by
  unfold DynamicBatcher.init at h
  split at h
  · exact nomatch h
  next hsize =>
  split at h
  · exact nomatch h
  obtain rfl := Option.some.inj h
  rw [not_not] at hsize
  exact ⟨hsize.1, rfl, rfl, rfl, rfl, rfl, rfl, rfl⟩

theorem New.good (h : New b) : Good b := by
  have hnone : ∀ i : ItemId, b.items[i]? = none := fun i => by rw [h.items]; rfl
  have hstates : ∀ i, b.stateOf i = none := fun i => by simp [stateOf, hnone]
  constructor
  case maxSize => exact h.maxSize
  case groups =>
    refine .of_empty h.groups h.pending (fun i => by simp [hstates]) fun t timer htimer => ?_
    simp [h.timers] at htimer
  case small =>
    intro key bt batch hget
    rw [h.groups, Dict.get?_empty] at hget
    cases hget
  case flushes => constructor <;> simp [h.flushes, h.inflight, hstates]
  case items => constructor <;> simp [hnone]
  case closed => simp [h.closed]
  case shut => simp [h.closed]

theorem systemGood_init (h : Init s) : SystemGood s := by
  obtain ⟨hsubmits, hlock, hshutdowns, hcalls, maxSize, maxWaitSeconds, observed, hinit⟩ := h
  have hnew := new_of_init hinit
  constructor
  case batcher => exact hnew.good
  case length => simp [hsubmits, hnew.items]
  case submits => simp [hsubmits]
  case timers => simp [hnew.timers]
  case calls => simp [hcalls]
  case once => simp [hcalls]
  case shutdown =>
    rw [hshutdowns, hlock]
    constructor
    case orderly => exact AsyncLock.orderly_new
    case holder => rfl
    case idle => simp [hnew.closed]
    all_goals simp

/-- The invariant holds in every reachable state. -/
theorem systemGood_inductive : lts.Inductive SystemGood where
  init _ := systemGood_init
  step _ _ _ h _ hstep := (h.next hstep).1

end BatcherSystem

end Gateway
