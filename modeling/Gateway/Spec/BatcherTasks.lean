import Gateway.Spec.BatcherMembers

/-!
# The timer tasks and the flush tasks

The steps of a timer task and of a flush task keep the invariant. A timer that expires
finds its own batch or none, and the end of a flush task settles the members that have
not cancelled.

## Key results

- `Good.modifyTimer`, `Good.timerExpired`: a timer task changes its state, or expires
- `Good.modifyFlush`, `Good.answerFlush`: a flush task changes its state, or ends
-/

namespace Gateway.DynamicBatcher

variable {b b' : DynamicBatcher} {i : ItemId} {t : TimerId} {f : FlushId} {bt : BatchId}

/-! ## Timer tasks -/

section Timers

variable {timer : TimerTask} {g : TimerTask → TimerTask}

/-- A timer task changes, but not whether the timer of a pending batch is alive. -/
theorem Good.modifyTimer (h : Good b) (ht : b.timers[t]? = some timer)
    (hbatch : (g timer).batch = timer.batch)
    (halive : (∃ key, b.groups.get? key = some timer.batch) → (g timer).alive = timer.alive) :
    Good (b.modifyTimer t g) where
  maxSize := h.maxSize
  groups := by
    refine h.groups.congr rfl rfl rfl (fun _ => rfl) (fun _ => .rfl) (fun t' timer' htimer' => ?_) ?_
    · rw [modifyTimer_read]
      by_cases heq : t = t'
      · subst heq
        obtain rfl := Option.some.inj (ht.symm.trans htimer')
        rw [if_pos rfl, ht]
        exact ⟨_, rfl, hbatch, halive⟩
      · rw [if_neg heq]
        exact ⟨timer', htimer', rfl, fun _ => rfl⟩
    · exact List.length_modify ..
  small := h.small
  flushes := h.flushes.of_same rfl rfl rfl rfl rfl
  items := h.items.of_same rfl rfl rfl
  closed := h.closed
  shut := h.shut

/-- A task that has finished stays so. -/
theorem KeepsTasks.modifyTimer (ht : b.timers[t]? = some timer)
    (hstate : timer.state = .finished → (g timer).state = .finished)
    (htracked : (g timer).tracked = false → timer.tracked = false ∨ (g timer).state = .finished) :
    KeepsTasks b (b.modifyTimer t g) where
  closed := rfl
  timer t' timer' htimer' := by
    refine .inr ?_
    rw [modifyTimer_read] at htimer'
    split at htimer'
    · next heq =>
      subst heq
      rw [ht] at htimer'
      obtain rfl := Option.some.inj htimer'
      exact ⟨timer, ht, hstate, htracked⟩
    · exact ⟨timer', htimer', id, .inl⟩
  flush _ task' htask' := .inr ⟨task', htask', id⟩

/-- An expired timer is not one that the batch it detaches has to cancel. -/
theorem cancelTimer_modifyTimer (timerTask : Option TimerId) :
    (b.modifyTimer t g).cancelTimer timerTask (some t) =
      (b.cancelTimer timerTask (some t)).modifyTimer t g := by
  unfold cancelTimer
  split
  · next t' =>
    split
    · rfl
    · next hne =>
      have hne' : t' ≠ t := fun heq => hne (congrArg some heq)
      simp only [DynamicBatcher.modifyTimer]
      congr 1
      refine List.ext_getElem? fun k => ?_
      simp only [getElem?_modify_eq]
      by_cases ht : t = k
      · subst ht
        simp [hne']
      · simp [ht]
  · rfl

theorem detach_modifyTimer {batch : PendingBatch} {dispatched : List BatchItem}
    {reason : FlushReason} {now : Int} :
    (b.modifyTimer t g).detach batch dispatched reason (some t) now =
      (b.detach batch dispatched reason (some t) now).modifyTimer t g := by
  have hcancel := cancelTimer_modifyTimer (t := t) (g := g)
    (b := { b with groups := b.groups.erase batch.key }) batch.timerTask
  have hgroups : ({ b with groups := b.groups.erase batch.key } : DynamicBatcher).modifyTimer t g =
      { b.modifyTimer t g with groups := (b.modifyTimer t g).groups.erase batch.key } := rfl
  rw [hgroups] at hcancel
  unfold detach
  rw [hcancel]
  rfl

theorem detachLocked_modifyTimer (reason : FlushReason) (now : Int) :
    (b.modifyTimer t g).detachLocked bt reason (some t) now =
      match b.detachLocked bt reason (some t) now with
      | .ok b' => .ok (b'.modifyTimer t g)
      | .error fault => .error fault := by
  unfold detachLocked
  have hbatches : (b.modifyTimer t g).batches = b.batches := rfl
  have hgroups : (b.modifyTimer t g).groups = b.groups := rfl
  have hitems : (b.modifyTimer t g).items = b.items := rfl
  rw [hbatches]
  cases b.batches[bt]? with
  | none => rfl
  | some batch =>
    simp only [hgroups, hitems]
    split
    · rfl
    · cases dispatchItems batch.items b.items with
      | error fault => rfl
      | ok dispatched => exact congrArg Except.ok detach_modifyTimer

theorem detachLocked_of_gone {reason : FlushReason} {current : Option TimerId} {now : Int}
    (h : ∀ key, b.groups.get? key ≠ some bt) : b.detachLocked bt reason current now = .ok b := by
  unfold detachLocked
  split
  · rfl
  · rw [if_pos (.inl (h _))]

/-- The batch of an expired timer is no pending batch any more. -/
theorem Detached.gone {reason : FlushReason} {current : Option TimerId} {now : Int}
    (h : Detached b bt reason current now b') (hb : GroupsGood b) (key : String) :
    b'.groups.get? key ≠ some bt := by
  rcases h with ⟨rfl, hgone⟩ | ⟨batch, dispatched, hbatch, hget, rfl, -⟩
  · exact hgone key
  · intro hget'
    rw [detach_groups, Dict.get?_erase] at hget'
    split at hget'
    · cases hget'
    next hne => exact hne (hb.key_unique hget hget')

theorem Detached.kept_timer {reason : FlushReason} {current : Option TimerId} {now : Int}
    (h : Detached b bt reason current now b') (ht : b.timers[t]? = some timer) :
    ∃ timer' : TimerTask, b'.timers[t]? = some timer' ∧ timer'.batch = timer.batch := by
  rcases h with ⟨rfl, -⟩ | ⟨batch, dispatched, -, -, rfl, -⟩
  · exact ⟨timer, ht, rfl⟩
  · obtain ⟨timer', htimer', hbatch, -⟩ := cancelTimer_timers batch.timerTask current
      (b := { b with groups := b.groups.erase batch.key }) ht
    exact ⟨timer', htimer', hbatch⟩

/-- The timer of a batch expires: its task is over, and its batch is detached unless it
    has gone. -/
theorem Good.timerExpired (h : Good b) (ht : b.timers[t]? = some timer) (now : Int) :
    ∃ b₁, (b.modifyTimer t ({ · with state := .finished })).detachLocked timer.batch .timeout
        (some t) now = .ok (b₁.modifyTimer t ({ · with state := .finished })) ∧
      Good (b₁.modifyTimer t ({ · with state := .finished })) ∧ Evolves b b₁ ∧
      Detached b timer.batch .timeout (some t) now b₁ := by
  have hdetach : ∃ b₁, b.detachLocked timer.batch .timeout (some t) now = .ok b₁ ∧ Good b₁ ∧
      Evolves b b₁ ∧ Detached b timer.batch .timeout (some t) now b₁ := by
    cases hc : b.closed with
    | true =>
      have hgone : ∀ key, b.groups.get? key ≠ some timer.batch := by
        intro key hget
        have hmem : key ∈ b.groups.keys := Dict.mem_keys.mpr ⟨_, hget⟩
        rw [h.closed hc] at hmem
        exact nomatch hmem
      exact ⟨b, detachLocked_of_gone hgone, h, .refl b, .inl ⟨rfl, hgone⟩⟩
    | false =>
      refine Good.detachLocked h.maxSize h.groups h.flushes h.items hc
        (fun key bt' batch' hget hbatch' _ => h.small key bt' batch' hget hbatch')
        fun batch hbatch hget => ?_
      -- a batch that waits for its timer is not full
      have hlt := h.small batch.key _ batch hget hbatch
      exact ⟨Nat.le_of_lt hlt, nofun, fun heq => absurd heq (Nat.ne_of_lt hlt)⟩
  obtain ⟨b₁, hok, hgood, hevolves, hdetached⟩ := hdetach
  obtain ⟨timer', htimer', hbatch'⟩ := hdetached.kept_timer ht
  refine ⟨b₁, ?_, hgood.modifyTimer htimer' rfl fun hget => ?_, hevolves, hdetached⟩
  · rw [detachLocked_modifyTimer, hok]
  · obtain ⟨key, hget⟩ := hget
    exact absurd (hbatch' ▸ hget) (hdetached.gone h.groups key)

end Timers

/-! ## Flush tasks -/

section Flushes

variable {task : FlushTask} {g : FlushTask → FlushTask} {answer : BatchAnswer}

theorem modify_eq_set {α : Type} {l : List α} {k : Nat} {x : α} {g : α → α} (h : l[k]? = some x) :
    l.modify k g = l.set k (g x) := by
  refine List.ext_getElem? fun j => ?_
  rw [getElem?_modify_eq, List.getElem?_set]
  by_cases heq : k = j
  · subst heq
    rw [if_pos rfl, if_pos rfl, if_pos (List.getElem?_eq_some_iff.mp h).1, h]
    rfl
  · rw [if_neg heq, if_neg heq]

section Replace

variable {task' : FlushTask} {response : Response} {e : BatchError}

theorem mem_of_replace (hf : b.flushes[f]? = some task)
    (hflushes : b'.flushes = b.flushes.set f task') {old : FlushTask} (hold : old ∈ b.flushes) :
    old ∈ b'.flushes ∨ old = task ∧ task' ∈ b'.flushes := by
  have hlt : f < b.flushes.length := (List.getElem?_eq_some_iff.mp hf).1
  obtain ⟨k, hk⟩ := List.mem_iff_getElem?.mp hold
  rw [hflushes]
  by_cases heq : k = f
  · subst heq
    exact .inr ⟨Option.some.inj (hk.symm.trans hf), List.mem_set hlt _⟩
  · exact .inl ((mem_set_iff hlt).mpr (.inr ⟨k, heq, hk⟩))

/-- Replacing a task that has no answer yet, or by one with its answer, takes no response
    from an item. -/
theorem Served.replace (h : b.Served i response) (hf : b.flushes[f]? = some task)
    (hflushes : b'.flushes = b.flushes.set f task') (hitems : task'.items = task.items)
    (hanswer : task.answer.isSome = true → task'.answer = task.answer) : b'.Served i response := by
  refine h.mono fun old hold hsome => ?_
  rcases mem_of_replace hf hflushes hold with hmem | ⟨rfl, hmem⟩
  · exact ⟨old, hmem, rfl, rfl⟩
  · exact ⟨task', hmem, hitems, hanswer hsome⟩

theorem Failed.replace (h : b.Failed i e) (hf : b.flushes[f]? = some task)
    (hflushes : b'.flushes = b.flushes.set f task') (hitems : task'.items = task.items)
    (hanswer : task.answer.isSome = true → task'.answer = task.answer)
    (hclosed : b'.closed = b.closed) (hunstarted : task.started = false ∧ task.ended = true →
      task'.started = false ∧ task'.ended = true) : b'.Failed i e := by
  refine h.mono (fun old hold hsome => ?_) (fun hc => hclosed.trans hc) fun _ new hnew hi => ?_
  · rcases mem_of_replace hf hflushes hold with hmem | ⟨rfl, hmem⟩
    · exact ⟨old, hmem, rfl, rfl⟩
    · exact ⟨task', hmem, hitems, hanswer hsome⟩
  · rw [hflushes, mem_set_iff (List.getElem?_eq_some_iff.mp hf).1] at hnew
    rcases hnew with rfl | ⟨k, -, hk⟩
    · exact ⟨task, List.mem_of_getElem? hf, hitems ▸ hi, hunstarted⟩
    · exact ⟨new, List.mem_of_getElem? hk, hi, id⟩

theorem replace_task (hf : b.flushes[f]? = some task)
    (hflushes : b'.flushes = b.flushes.set f task') (hitems : task'.items = task.items)
    (hstarted : task.started = true → task'.started = true) (f' : FlushId) (old : FlushTask)
    (hold : b.flushes[f']? = some old) : ∃ new : FlushTask, b'.flushes[f']? = some new ∧
      new.items = old.items ∧ (old.started = true → new.started = true) := by
  rw [hflushes, List.getElem?_set]
  by_cases heq : f = f'
  · subst heq
    obtain rfl := Option.some.inj (hf.symm.trans hold)
    exact ⟨task', by rw [if_pos rfl, if_pos (List.getElem?_eq_some_iff.mp hf).1], hitems, hstarted⟩
  · exact ⟨old, by rw [if_neg heq]; exact hold, rfl, id⟩

end Replace

/-- A flush task changes, but not whether its operation is completed. -/
structure SameRun (task task' : FlushTask) : Prop where
  items : task'.items = task.items
  flushReason : task'.flushReason = task.flushReason
  answer : task'.answer = task.answer
  ended : task'.ended = task.ended
  started : task.started = true → task'.started = true
  unstarted : task.started = false ∧ task.ended = true → task'.started = false

theorem GroupsGood.modifyFlush (h : GroupsGood b) : GroupsGood (b.modifyFlush f g) :=
  h.congr rfl rfl rfl (fun _ => rfl) (fun _ => .rfl)
    (fun _ timer htimer => ⟨timer, htimer, rfl, fun _ => rfl⟩) rfl

theorem FlushesGood.modifyFlush (h : FlushesGood b) (hf : b.flushes[f]? = some task)
    (hsame : SameRun task (g task)) (hsound : FlushTask.Sound (g task) b.closed) :
    FlushesGood (b.modifyFlush f g) := by
  have hmem : task ∈ b.flushes := List.mem_of_getElem? hf
  refine h.replace hf (modify_eq_set hf) hsame.items hsame.flushReason hsound rfl rfl ?_
    (fun _ => rfl) (fun _ _ => rfl) (fun i hi => ?_) (fun hover i hi => ?_) fun i hi hst => ?_
  · rw [hsame.ended]
    exact (Int.sub_add_cancel ..).symm
  · obtain ⟨key, hk⟩ := h.member task hmem
    exact (hk i hi).2
  · exact h.running task hmem (hsame.ended ▸ hover) i hi
  · obtain ⟨task₂, hmem₂, hi₂, hover⟩ := h.dispatched i hst
    obtain ⟨f₂, hf₂⟩ := List.mem_iff_getElem?.mp hmem₂
    obtain rfl := h.unique hf hf₂ hi hi₂
    obtain rfl := Option.some.inj (hf.symm.trans hf₂)
    rw [hsame.ended]
    exact hover

theorem ItemsGood.modifyFlush (h : ItemsGood b) (hf : b.flushes[f]? = some task)
    (hsame : SameRun task (g task)) : ItemsGood (b.modifyFlush f g) := by
  refine h.step (fun i item hitem => .old item hitem rfl rfl rfl (.inl (.refl item)))
    (fun i response hserved => ?_) fun i _ e _ _ hfailed => ?_
  · exact hserved.replace hf (modify_eq_set hf) hsame.items fun _ => hsame.answer
  · exact hfailed.replace hf (modify_eq_set hf) hsame.items (fun _ => hsame.answer) rfl
      fun hun => ⟨hsame.unstarted hun, hsame.ended.trans hun.2⟩

theorem Evolves.modifyFlush (hf : b.flushes[f]? = some task) (hsame : SameRun task (g task)) :
    Evolves b (b.modifyFlush f g) where
  closed := id
  item _ item hitem := ⟨item, hitem, rfl, rfl, fun _ => rfl⟩
  pending _ := .inl
  task := replace_task hf (modify_eq_set hf) hsame.items hsame.started
  detached _ _ hnew := by
    have hlt := (List.getElem?_eq_some_iff.mp hnew).1
    simp only [DynamicBatcher.modifyFlush, List.length_modify] at hlt
    exact .inl hlt

theorem KeepsTasks.replace {task' : FlushTask} (hf : b.flushes[f]? = some task)
    (hclosed : b'.closed = b.closed) (htimers : b'.timers = b.timers)
    (hflushes : b'.flushes = b.flushes.set f task')
    (hstate : task.state = .finished → task'.state = .finished) : KeepsTasks b b' where
  closed := hclosed
  timer _ timer' htimer' := .inr ⟨timer', htimers ▸ htimer', id, .inl⟩
  flush f' new hnew := by
    refine .inr ?_
    rw [hflushes, List.getElem?_set] at hnew
    by_cases heq : f = f'
    · subst heq
      rw [if_pos rfl, if_pos (List.getElem?_eq_some_iff.mp hf).1] at hnew
      obtain rfl := Option.some.inj hnew
      exact ⟨task, hf, hstate⟩
    · rw [if_neg heq] at hnew
      exact ⟨new, hnew, id⟩

/-- A flush task changes its state. -/
theorem Good.modifyFlush (h : Good b) (hf : b.flushes[f]? = some task)
    (hsame : SameRun task (g task)) (hsound : FlushTask.Sound (g task) b.closed)
    (hshut : b.closed = true → (g task).state = .finished ∨ (g task).cancelRequested = true) :
    Good (b.modifyFlush f g) where
  maxSize := h.maxSize
  groups := h.groups.modifyFlush
  small := h.small
  flushes := h.flushes.modifyFlush hf hsame hsound
  items := h.items.modifyFlush hf hsame
  closed := h.closed
  shut hc new hnew := by
    have hflushes : (b.modifyFlush f g).flushes = b.flushes.set f (g task) := modify_eq_set hf
    rw [hflushes, mem_set_iff (List.getElem?_eq_some_iff.mp hf).1] at hnew
    rcases hnew with rfl | ⟨k, -, hk⟩
    · exact hshut hc
    · exact h.shut hc new (List.mem_of_getElem? hk)

/-! ## The end of a flush task -/

/-- The dispatched items of a batch are completed. -/
def completed (is : List ItemId) (value : ItemId → Future Response BatchError) (i : ItemId)
    (item : BatchItem) : BatchItem :=
  if i ∈ is ∧ item.state = .dispatched then item.complete (value i) else item

theorem completed_nil (value : ItemId → Future Response BatchError) (i : ItemId) :
    completed [] value i = id := by
  funext item
  simp [completed]

/-- The items of a running batch. -/
def Running (is : List ItemId) (items : List BatchItem) : Prop :=
  ∀ i ∈ is, ∃ item, items[i]? = some item ∧ (item.state = .dispatched ∨ item.state = .cancelled)

theorem Running.modify {is : List ItemId} {items : List BatchItem} {g : BatchItem → BatchItem}
    (h : Running (i :: is) items) (hi : i ∉ is) : Running is (items.modify i g) := by
  intro j hj
  have hne : i ≠ j := by rintro rfl; exact hi hj
  obtain ⟨item, hitem, hst⟩ := h j (List.mem_cons_of_mem _ hj)
  exact ⟨item, by rw [getElem?_modify_eq, if_neg hne]; exact hitem, hst⟩

/-- Completing the first item and then the others completes them all. -/
theorem completed_cons {is : List ItemId} {items : List BatchItem} {item : BatchItem}
    {value : ItemId → Future Response BatchError} (hitem : items[i]? = some item)
    (hst : item.state = .dispatched) (hi : i ∉ is) (j : ItemId) :
    (items.modify i fun item => item.complete (value i))[j]?.map (completed is value j) =
      items[j]?.map (completed (i :: is) value j) := by
  rw [getElem?_modify_eq]
  by_cases heq : i = j
  · subst heq
    rw [if_pos rfl, hitem]
    simp [completed, hi, hst]
  · rw [if_neg heq]
    unfold completed
    simp [Ne.symm heq]

/-- A cancelled item stays as it is. -/
theorem completed_skip {is : List ItemId} {items : List BatchItem} {item : BatchItem}
    {value : ItemId → Future Response BatchError} (hitem : items[i]? = some item)
    (hst : item.state = .cancelled) (hi : i ∉ is) (j : ItemId) :
    items[j]?.map (completed is value j) = items[j]?.map (completed (i :: is) value j) := by
  by_cases heq : i = j
  · subst heq
    rw [hitem]
    simp [completed, hi, hst]
  · unfold completed
    simp [Ne.symm heq]

theorem failItems_ok {e : BatchError} {is : List ItemId} {items : List BatchItem}
    (hnodup : is.Nodup) (hrun : Running is items) : ∃ items', failItems e is items = .ok items' ∧
      ∀ i : ItemId, items'[i]? = items[i]?.map (completed is (fun _ => .exception e) i) := by
  induction is generalizing items with
  | nil => exact ⟨items, rfl, fun i => by rw [completed_nil, Option.map_id_fun, id]⟩
  | cons i is ih =>
    obtain ⟨hi, hnodup⟩ := List.nodup_cons.mp hnodup
    obtain ⟨item, hitem, hst⟩ := hrun i (List.mem_cons_self ..)
    unfold failItems
    simp only [hitem]
    rcases hst with hst | hst
    · simp only [hst]
      obtain ⟨items', hok, hread⟩ := ih hnodup (hrun.modify hi)
      exact ⟨items', hok, fun j => (hread j).trans (completed_cons hitem hst hi j)⟩
    · simp only [hst]
      obtain ⟨items', hok, hread⟩ := ih hnodup fun j hj => hrun j (List.mem_cons_of_mem _ hj)
      exact ⟨items', hok, fun j => (hread j).trans (completed_skip hitem hst hi j)⟩

theorem completeItems_ok {l : List (ItemId × Response)} {items : List BatchItem}
    {value : ItemId → Future Response BatchError} (hnodup : (l.map Prod.fst).Nodup)
    (hrun : Running (l.map Prod.fst) items) (hvalue : ∀ p ∈ l, value p.1 = .result p.2) :
    ∃ items' delivered, completeItems l items = .ok (items', delivered) ∧
      ∀ i : ItemId, items'[i]? = items[i]?.map (completed (l.map Prod.fst) value i) := by
  induction l generalizing items with
  | nil =>
    refine ⟨items, 0, rfl, fun i => ?_⟩
    rw [List.map_nil, completed_nil, Option.map_id_fun, id]
  | cons p l ih =>
    obtain ⟨i, response⟩ := p
    obtain ⟨hi, hnodup⟩ := List.nodup_cons.mp hnodup
    obtain ⟨item, hitem, hst⟩ := hrun i (List.mem_cons_self ..)
    have hrest : ∀ p ∈ l, value p.1 = .result p.2 := fun p hp => hvalue p (List.mem_cons_of_mem _ hp)
    have hresult : value i = .result response := hvalue _ (List.mem_cons_self ..)
    unfold completeItems
    simp only [hitem]
    rcases hst with hst | hst
    · simp only [hst]
      obtain ⟨items', delivered, hok, hread⟩ := ih hnodup (hrun.modify hi) hrest
      rw [hok]
      refine ⟨items', _, rfl, fun j => (hread j).trans ?_⟩
      rw [← hresult]
      exact completed_cons hitem hst hi j
    · simp only [hst]
      obtain ⟨items', delivered, hok, hread⟩ :=
        ih hnodup (fun j hj => hrun j (List.mem_cons_of_mem _ hj)) hrest
      exact ⟨items', delivered, hok, fun j => (hread j).trans (completed_skip hitem hst hi j)⟩

/-- What an answer makes of a member of the batch. -/
def BatchAnswer.Gives (answer : BatchAnswer) (is : List ItemId) (i : ItemId)
    (value : Future Response BatchError) : Prop :=
  (∃ j response, value = .result response ∧ answer.failure is.length = none ∧ is[j]? = some i ∧
    answer.response? j = some response) ∨
  ∃ e, value = .exception e ∧ answer.failure is.length = some e

theorem failBatch_ok {is : List ItemId} {e : BatchError} (outcome : BatchOutcome)
    (hnodup : is.Nodup) (hrun : Running is b.items) : ∃ items',
      b.failBatch is e outcome = .ok (outcome, { b with items := items' }) ∧
      ∀ i : ItemId, items'[i]? = b.items[i]?.map (completed is (fun _ => .exception e) i) := by
  obtain ⟨items', hok, hread⟩ := failItems_ok (e := e) hnodup hrun
  unfold failBatch
  rw [hok]
  exact ⟨items', rfl, hread⟩

/-- Only the items and the observations change. -/
structure OnlyItems (b b' : DynamicBatcher) : Prop where
  maxSize : b'.maxSize = b.maxSize
  groups : b'.groups = b.groups
  pending : b'.pending = b.pending
  inflight : b'.inflight = b.inflight
  closed : b'.closed = b.closed
  batches : b'.batches = b.batches
  timers : b'.timers = b.timers
  flushes : b'.flushes = b.flushes

theorem OnlyItems.with_items (b : DynamicBatcher) (items' : List BatchItem) :
    OnlyItems b { b with items := items' } := ⟨rfl, rfl, rfl, rfl, rfl, rfl, rfl, rfl⟩

/-- An answer settles the members of the batch that have not cancelled. -/
theorem resolveBatch_ok {is : List ItemId} (hnodup : is.Nodup) (hrun : Running is b.items)
    (answer : BatchAnswer) : ∃ outcome b' value, b.resolveBatch is answer = .ok (outcome, b') ∧
      OnlyItems b b' ∧ (∀ i ∈ is, BatchAnswer.Gives answer is i (value i)) ∧
      ∀ i : ItemId, b'.items[i]? = b.items[i]?.map (completed is value i) := by
  have hfail : ∀ e outcome, answer.failure is.length = some e →
      b.resolveBatch is answer = b.failBatch is e outcome → ∃ outcome b' value,
        b.resolveBatch is answer = .ok (outcome, b') ∧ OnlyItems b b' ∧
        (∀ i ∈ is, BatchAnswer.Gives answer is i (value i)) ∧
        ∀ i : ItemId, b'.items[i]? = b.items[i]?.map (completed is value i) := by
    intro e outcome hfailure heq
    obtain ⟨items', hok, hread⟩ := failBatch_ok (e := e) outcome hnodup hrun
    exact ⟨outcome, _, fun _ => .exception e, heq.trans hok, .with_items b items',
      fun _ _ => .inr ⟨e, rfl, hfailure⟩, hread⟩
  cases answer with
  | foreign => exact hfail _ .error rfl rfl
  | raised e => exact hfail _ .error rfl rfl
  | cancelled => exact hfail _ .cancelled rfl rfl
  | result r =>
    by_cases hlength : r.responses.length ≠ is.length
    · exact hfail (.backend .protocol) .error (if_pos hlength) (if_pos hlength)
    rw [not_not] at hlength
    let value : ItemId → Future Response BatchError := fun i =>
      match r.responses[is.idxOf i]? with
      | some response => .result response
      | none => .pending
    have hmap : (is.zip r.responses).map Prod.fst = is :=
      List.map_fst_zip (Nat.le_of_eq hlength.symm)
    have hvalue : ∀ p ∈ is.zip r.responses, value p.1 = .result p.2 := by
      rintro ⟨i, response⟩ hp
      obtain ⟨j, hj⟩ := List.mem_iff_getElem?.mp hp
      obtain ⟨hi, hresponse⟩ := List.getElem?_zip_eq_some.mp hj
      obtain ⟨hlt, rfl⟩ := List.getElem?_eq_some_iff.mp hi
      simp only [value, hnodup.idxOf_getElem j hlt, hresponse]
    obtain ⟨items', delivered, hok, hread⟩ := completeItems_ok (hmap.symm ▸ hnodup)
      (hmap.symm ▸ hrun) hvalue
    rw [hmap] at hread
    refine ⟨.success, observe { b with items := items' }
      (.usage r.usageResult r.aggregateCompletionTokens delivered), value, ?_,
      ⟨rfl, rfl, rfl, rfl, rfl, rfl, rfl, rfl⟩, fun i hi => ?_, hread⟩
    · simp only [resolveBatch, hlength, ne_eq, not_true_eq_false, if_false, hok]
    · have hlt : is.idxOf i < r.responses.length := by
        rw [hlength]
        exact List.idxOf_lt_length_of_mem hi
      refine .inl ⟨is.idxOf i, r.responses[is.idxOf i], ?_, ?_, List.getElem?_idxOf hi,
        List.getElem?_eq_getElem hlt⟩
      · simp only [value, List.getElem?_eq_getElem hlt]
      · exact if_neg (not_not.mpr hlength)

/-- The operation of a flush task is completed, with the task that is left and the values
    its dispatched members get. -/
structure Completes (b : DynamicBatcher) (f : FlushId) (task task' : FlushTask)
    (value : ItemId → Future Response BatchError) (b' : DynamicBatcher) : Prop where
  maxSize : b'.maxSize = b.maxSize
  groups : b'.groups = b.groups
  pending : b'.pending = b.pending
  inflight : b'.inflight = b.inflight - 1
  closed : b'.closed = b.closed
  batches : b'.batches = b.batches
  timers : b'.timers = b.timers
  flushes : b'.flushes = b.flushes.set f task'
  read : ∀ i : ItemId, b'.items[i]? = b.items[i]?.map (completed task.items value i)
  get : b.flushes[f]? = some task
  running : task.ended = false
  ended : task'.ended = true
  items : task'.items = task.items
  flushReason : task'.flushReason = task.flushReason
  started : task'.started = task.started
  sound : FlushTask.Sound task' b.closed

section Completes

variable {task' : FlushTask} {value : ItemId → Future Response BatchError}

theorem completed_key {is : List ItemId} {item : BatchItem} :
    (completed is value i item).key = item.key := by
  unfold completed
  split <;> rfl

theorem Completes.keyOf (h : Completes b f task task' value b') (i : ItemId) :
    b'.keyOf i = b.keyOf i := by
  unfold DynamicBatcher.keyOf
  rw [h.read, Option.map_map]
  congr 1
  funext item
  exact completed_key

/-- The dispatched members are completed, and nothing else changes its state. -/
theorem Completes.stateOf (h : Completes b f task task' value b') (i : ItemId) :
    b'.stateOf i = if i ∈ task.items ∧ b.stateOf i = some .dispatched then some .completed
      else b.stateOf i := by
  unfold DynamicBatcher.stateOf
  rw [h.read]
  cases b.items[i]? with
  | none => simp
  | some item =>
    simp only [Option.map_some, completed, Option.some.injEq]
    split <;> rfl

theorem Completes.pending_iff (h : Completes b f task task' value b') (i : ItemId) :
    b'.stateOf i = some .pending ↔ b.stateOf i = some .pending := by
  rw [h.stateOf]
  split
  · next hi => simp [hi.2]
  · rfl

theorem Completes.length (h : Completes b f task task' value b') :
    b'.items.length = b.items.length :=
  length_eq_of_map h.read

theorem Completes.keepsCancelled (h : Completes b f task task' value b') : KeepsCancelled b b' := by
  intro i hst
  rw [h.stateOf] at hst
  split at hst
  · exact nomatch hst
  · exact hst

theorem Completes.groupsGood (h : Completes b f task task' value b') (hb : GroupsGood b) :
    GroupsGood b' :=
  hb.congr h.groups h.batches h.pending h.keyOf h.pending_iff
    (fun _ timer htimer => ⟨timer, h.timers ▸ htimer, rfl, fun _ => rfl⟩) (h.timers ▸ rfl)

theorem Completes.flushesGood (h : Completes b f task task' value b') (hb : FlushesGood b) :
    FlushesGood b' := by
  have hrun := hb.running task (List.mem_of_getElem? h.get) h.running
  refine hb.replace h.get h.flushes h.items h.flushReason (h.closed ▸ h.sound) h.maxSize h.closed ?_
    h.keyOf (fun i hi => ?_) (fun i hi => ?_) (fun hover => ?_) fun i hi hdispatched => ?_
  · rw [h.inflight, h.running, h.ended]
    simp
  · rw [h.stateOf, if_neg fun hi' => hi hi'.1]
  · rw [h.stateOf]
    rcases hrun i hi with hst | hst <;> simp [hi, hst]
  · exact nomatch h.ended.symm.trans hover
  · rw [h.stateOf] at hdispatched
    rcases hrun i hi with hst | hst <;> simp [hi, hst] at hdispatched

theorem Completes.itemsGood (h : Completes b f task task' value b') (hb : ItemsGood b)
    (hnone : task.answer = none) (hvalue : ∀ i ∈ task.items,
      (∃ response, value i = .result response ∧ b'.Served i response) ∨
        ∃ e, value i = .exception e ∧ b'.Failed i e) : ItemsGood b' := by
  have hunanswered : task.answer.isSome = true → task'.answer = task.answer := by
    intro hsome
    rw [hnone] at hsome
    exact nomatch hsome
  refine hb.step (fun i item' hitem' => ?_) (fun i response hserved => ?_)
    fun i item e _ _ hfailed => ?_
  · rw [h.read] at hitem'
    obtain ⟨item, hitem, rfl⟩ := Option.map_eq_some_iff.mp hitem'
    unfold completed
    split
    · next hi =>
      -- a dispatched item has had no value
      have hdone : item.future.done = false := by
        refine Bool.eq_false_iff.mpr fun hdone => ?_
        rcases (hb.future i item hitem).mp hdone with hst | hst <;> simp [hst] at hi
      have hfuture : (item.complete (value i)).future = value i := by
        unfold BatchItem.complete
        simp [hdone]
      refine .old item hitem rfl rfl rfl (.inr (.inl ⟨rfl, ?_⟩))
      rw [hfuture]
      exact hvalue i hi.1
    · exact .old item hitem rfl rfl rfl (.inl (.refl item))
  · exact hserved.replace h.get h.flushes h.items hunanswered
  · refine hfailed.replace h.get h.flushes h.items hunanswered h.closed fun hun => ?_
    exact nomatch h.running.symm.trans hun.2

theorem Completes.evolves (h : Completes b f task task' value b') (hb : ItemsGood b) :
    Evolves b b' where
  closed hc := h.closed.trans hc
  item i item hitem := by
    rw [h.read, hitem]
    refine ⟨_, rfl, ?_, ?_, fun hdone => ?_⟩
    · unfold completed
      split <;> rfl
    · unfold completed
      split <;> rfl
    · unfold completed
      rw [if_neg]
      rintro ⟨-, hst⟩
      rcases (hb.future i item hitem).mp hdone with hst' | hst' <;>
        exact nomatch hst.symm.trans hst'
  pending i hst := .inl ((h.pending_iff i).mp hst)
  task := replace_task h.get h.flushes h.items fun hs => h.started.trans hs
  detached f' _ hnew := by
    have hlt := (List.getElem?_eq_some_iff.mp hnew).1
    rw [h.flushes, List.length_set] at hlt
    exact .inl hlt

end Completes

/-- `_inflight` counts the operation of a task that runs. -/
theorem FlushesGood.inflight_pos (h : FlushesGood b) (hf : b.flushes[f]? = some task)
    (hover : task.ended = false) : ¬b.inflight ≤ 0 := by
  have hcount : 0 < b.flushes.countP fun t => !t.ended :=
    List.countP_pos_iff.mpr ⟨task, List.mem_of_getElem? hf, by simp [hover]⟩
  rw [h.count]
  omega

/-- The end of a flush task keeps the invariant and raises no error of broken
    bookkeeping. -/
theorem Good.answerFlush (h : Good b) (hf : b.flushes[f]? = some task)
    (hst : task.state = .awaiting) (answer : BatchAnswer) :
    ∃ b' value, b.answerFlush f task answer = .ok b' ∧ Good b' ∧ Evolves b b' ∧
      Completes b f task { task with state := .finished, answer := some answer } value b' := by
  have hmem : task ∈ b.flushes := List.mem_of_getElem? hf
  have hsound := h.flushes.sound task hmem
  have hstarted := hsound.awaiting hst
  have hnone : task.answer = none := hsound.answered (.inl (by simp [hst]))
  have hover : task.ended = false := by simp [FlushTask.ended, hst, hstarted]
  have hnodup : task.items.Nodup := (h.flushes.sorted task hmem).imp fun hlt => Nat.ne_of_lt hlt
  have hrun : Running task.items b.items := by
    intro i hi
    rcases h.flushes.running task hmem hover i hi with hst' | hst'
    · obtain ⟨item, hitem, heq⟩ := stateOf_eq_some.mp hst'
      exact ⟨item, hitem, .inl heq⟩
    · obtain ⟨item, hitem, heq⟩ := stateOf_eq_some.mp hst'
      exact ⟨item, hitem, .inr heq⟩
  have hpos := h.flushes.inflight_pos hf hover
  obtain ⟨outcome, b₁, value, hok, honly, hgives, hread⟩ := resolveBatch_ok hnodup hrun answer
  have hcompletes : Completes b f task { task with state := .finished, answer := some answer } value
      ((observe (notifyState { b₁ with inflight := b₁.inflight - 1 })
        (.completed task.flushReason outcome)).modifyFlush f
          ({ · with state := .finished, answer := some answer })) := by
    refine ⟨honly.maxSize, honly.groups, honly.pending, congrArg (· - 1) honly.inflight,
      honly.closed, honly.batches, honly.timers, ?_, hread, hf, hover, rfl, rfl, rfl, rfl, ?_⟩
    · have hf₁ : b₁.flushes[f]? = some task := honly.flushes ▸ hf
      exact (modify_eq_set hf₁).trans (by rw [honly.flushes])
    · refine ⟨nofun, nofun, fun _ => .inl ⟨hstarted, rfl⟩, ?_, fun _ => rfl, hsound.cancelled⟩
      rintro (hne | hun)
      · exact absurd rfl hne
      · exact nomatch hstarted.symm.trans hun
  generalize hb' : (observe (notifyState { b₁ with inflight := b₁.inflight - 1 })
    (.completed task.flushReason outcome)).modifyFlush f
      ({ · with state := .finished, answer := some answer }) = b' at hcompletes
  have hmem' : { task with state := .finished, answer := some answer } ∈ b'.flushes := by
    rw [hcompletes.flushes]
    exact List.mem_set (List.getElem?_eq_some_iff.mp hf).1 _
  refine ⟨b', value, ?_, ⟨?_, hcompletes.groupsGood h.groups, ?_, hcompletes.flushesGood h.flushes,
    hcompletes.itemsGood h.items hnone fun i hi => ?_, ?_, fun hc new hnew => ?_⟩,
    hcompletes.evolves h.items, hcompletes⟩
  · unfold DynamicBatcher.answerFlush finishFlush
    simp only [hok]
    rw [if_neg (honly.inflight ▸ hpos), hb']
  · rw [hcompletes.maxSize]
    exact h.maxSize
  · unfold GroupsSmall
    rw [hcompletes.groups, hcompletes.batches, hcompletes.maxSize]
    exact h.small
  · rcases hgives i hi with ⟨j, response, hv, hok, hj, hr⟩ | ⟨e, hv, hfail⟩
    · exact .inl ⟨response, hv, _, hmem', answer, j, rfl, hok, hj, hr⟩
    · exact .inr ⟨e, hv, .inl ⟨_, hmem', answer, hi, rfl, hfail⟩⟩
  · rw [hcompletes.closed, hcompletes.groups]
    exact h.closed
  · rw [hcompletes.flushes, mem_set_iff (List.getElem?_eq_some_iff.mp hf).1] at hnew
    rcases hnew with rfl | ⟨k, -, hk⟩
    · exact .inl rfl
    · exact h.shut (hcompletes.closed ▸ hc) new (List.mem_of_getElem? hk)

end Flushes

end Gateway.DynamicBatcher
