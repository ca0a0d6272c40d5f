import Gateway.Spec.BatcherFlushes

/-!
# Detaching a batch

What the invariant needs of a section that changes items, and the section every batch
goes through: `_detach_locked` keeps the invariant and raises no error of broken
bookkeeping.

## Key results

- `ItemsGood.step`: what a section may do with the items and their futures
- `Good.detachLocked`: `_detach_locked`
-/

namespace Gateway.DynamicBatcher

variable {b b' : DynamicBatcher} {i : ItemId} {t : TimerId} {f : FlushId} {bt : BatchId}

/-! ## Updates that the invariant does not read, or reads in one place -/

section Updates

variable {o : BatchObservation} {timerTask current : Option TimerId}

@[simp] theorem observe_maxSize : (b.observe o).maxSize = b.maxSize := rfl
@[simp] theorem observe_groups : (b.observe o).groups = b.groups := rfl
@[simp] theorem observe_pending : (b.observe o).pending = b.pending := rfl
@[simp] theorem observe_inflight : (b.observe o).inflight = b.inflight := rfl
@[simp] theorem observe_closed : (b.observe o).closed = b.closed := rfl
@[simp] theorem observe_items : (b.observe o).items = b.items := rfl
@[simp] theorem observe_batches : (b.observe o).batches = b.batches := rfl
@[simp] theorem observe_timers : (b.observe o).timers = b.timers := rfl
@[simp] theorem observe_flushes : (b.observe o).flushes = b.flushes := rfl

@[simp] theorem cancelTimer_maxSize : (b.cancelTimer timerTask current).maxSize = b.maxSize := by
  unfold cancelTimer; split <;> (try split) <;> rfl
@[simp] theorem cancelTimer_groups : (b.cancelTimer timerTask current).groups = b.groups := by
  unfold cancelTimer; split <;> (try split) <;> rfl
@[simp] theorem cancelTimer_pending : (b.cancelTimer timerTask current).pending = b.pending := by
  unfold cancelTimer; split <;> (try split) <;> rfl
@[simp] theorem cancelTimer_inflight :
    (b.cancelTimer timerTask current).inflight = b.inflight := by
  unfold cancelTimer; split <;> (try split) <;> rfl
@[simp] theorem cancelTimer_closed : (b.cancelTimer timerTask current).closed = b.closed := by
  unfold cancelTimer; split <;> (try split) <;> rfl
@[simp] theorem cancelTimer_items : (b.cancelTimer timerTask current).items = b.items := by
  unfold cancelTimer; split <;> (try split) <;> rfl
@[simp] theorem cancelTimer_batches : (b.cancelTimer timerTask current).batches = b.batches := by
  unfold cancelTimer; split <;> (try split) <;> rfl
@[simp] theorem cancelTimer_flushes : (b.cancelTimer timerTask current).flushes = b.flushes := by
  unfold cancelTimer; split <;> (try split) <;> rfl
@[simp] theorem cancelTimer_length :
    (b.cancelTimer timerTask current).timers.length = b.timers.length := by
  unfold cancelTimer; split <;> (try split) <;> simp [modifyTimer]

@[simp] theorem cancel_batch (timer : TimerTask) : timer.cancel.batch = timer.batch := by
  unfold TimerTask.cancel; split <;> rfl

/-- Cancelling a timer task changes no other one. -/
theorem cancelTimer_timers (timerTask current : Option TimerId) {timer : TimerTask} (h : b.timers[t]? = some timer) :
    ∃ timer' : TimerTask, (b.cancelTimer timerTask current).timers[t]? = some timer' ∧
      timer'.batch = timer.batch ∧ (timerTask ≠ some t → timer' = timer) := by
  unfold cancelTimer
  split
  · next t' =>
    split
    · exact ⟨timer, h, rfl, fun _ => rfl⟩
    · by_cases heq : t' = t
      · refine ⟨timer.cancel, ?_, cancel_batch timer, fun hne => absurd (congrArg some heq) hne⟩
        simp [modifyTimer, h, heq]
      · refine ⟨timer, ?_, rfl, fun _ => rfl⟩
        simp [modifyTimer, h, heq]
  · exact ⟨timer, h, rfl, fun _ => rfl⟩

theorem modifyTimer_read {g : TimerTask → TimerTask} (t' : TimerId) :
    (b.modifyTimer t g).timers[t']? = if t = t' then b.timers[t']?.map g else b.timers[t']? :=
  getElem?_modify_eq _ _ _ _

theorem cancel_state (timer : TimerTask) : timer.cancel.state = timer.state := by
  unfold TimerTask.cancel; split <;> rfl

theorem cancel_tracked (timer : TimerTask) : timer.cancel.tracked = timer.tracked := by
  unfold TimerTask.cancel; split <;> rfl

theorem cancelTimer_back {timer' : TimerTask}
    (h : (b'.cancelTimer timerTask current).timers[t]? = some timer') (heq : b'.timers = b.timers) :
    ∃ timer, b.timers[t]? = some timer ∧ timer'.state = timer.state ∧
      timer'.tracked = timer.tracked := by
  rw [← heq]
  unfold cancelTimer at h
  split at h
  · split at h
    · exact ⟨timer', h, rfl, rfl⟩
    · rw [modifyTimer_read] at h
      split at h
      · obtain ⟨timer, htimer, rfl⟩ := Option.map_eq_some_iff.mp h
        exact ⟨timer, htimer, cancel_state timer, cancel_tracked timer⟩
      · exact ⟨timer', h, rfl, rfl⟩
  · exact ⟨timer', h, rfl, rfl⟩

end Updates

/-- Cancelling the timer of a pending batch changes the timer of no other batch. -/
theorem GroupsGood.cancelTimer_other (h : GroupsGood b) {key : String} {batch : PendingBatch}
    {timer : TimerTask} {current : Option TimerId} (hget : b.groups.get? key = some bt)
    (hbatch : b.batches[bt]? = some batch) (htimer : b.timers[t]? = some timer)
    (heq : b'.timers = b.timers) : ∃ timer' : TimerTask,
      (b'.cancelTimer batch.timerTask current).timers[t]? = some timer' ∧
        timer'.batch = timer.batch ∧ (timer.batch ≠ bt → timer'.alive = timer.alive) := by
  obtain ⟨timer', htimer', hbt, hsame⟩ :=
    cancelTimer_timers batch.timerTask current (heq ▸ htimer)
  refine ⟨timer', htimer', hbt, fun hother => ?_⟩
  -- the timer of the batch is its own
  rw [hsame]
  intro htask
  obtain ⟨batch', hbatch', -, -, -, t', timer₀, ht', htimer₀, hbt₀, -⟩ := h.batch key bt hget
  obtain rfl := Option.some.inj (hbatch.symm.trans hbatch')
  obtain rfl := Option.some.inj (htask.symm.trans ht')
  obtain rfl := Option.some.inj (htimer.symm.trans htimer₀)
  exact hother hbt₀

/-- The readings of an item depend on the items only. -/
theorem stateOf_congr (h : b'.items = b.items) (i : ItemId) : b'.stateOf i = b.stateOf i := by
  unfold stateOf; rw [h]

theorem keyOf_congr (h : b'.items = b.items) (i : ItemId) : b'.keyOf i = b.keyOf i := by
  unfold keyOf; rw [h]

/-! ## The values of futures -/

/-- The item has just been settled. -/
def Settled (b : DynamicBatcher) (i : ItemId) (item : BatchItem) : Prop :=
  (item.state = .completed ∧ ((∃ response, item.future = .result response ∧ b.Served i response) ∨
    ∃ e, item.future = .exception e ∧ b.Failed i e)) ∨
  item.state = .cancelled ∧ item.future = .cancelled

/-- The item has not been settled: its future is as it was, and it is as unsettled as it
    was. -/
structure SameFuture (item item' : BatchItem) : Prop where
  future : item'.future = item.future
  settled : item'.state = .completed ∨ item'.state = .cancelled ↔
    item.state = .completed ∨ item.state = .cancelled
  cancelled : item'.state = .cancelled ↔ item.state = .cancelled

theorem SameFuture.refl (item : BatchItem) : SameFuture item item := ⟨rfl, .rfl, .rfl⟩

/-- Where an item of now comes from. -/
inductive ItemStep (b b' : DynamicBatcher) (i : ItemId) (item' : BatchItem) : Prop
  | new (hkey : item'.key = compatibilityKey item'.tenantId item'.request)
      (hstate : item'.state = .pending) (hfuture : item'.future = .pending)
  | old (item : BatchItem) (hitem : b.items[i]? = some item) (htenant : item'.tenantId = item.tenantId)
      (hrequest : item'.request = item.request) (hkey : item'.key = item.key)
      (hstep : SameFuture item item' ∨ b'.Settled i item')

theorem ItemsGood.step (h : ItemsGood b)
    (hitems : ∀ (i : ItemId) (item' : BatchItem), b'.items[i]? = some item' → ItemStep b b' i item')
    (hserved : ∀ i response, b.Served i response → b'.Served i response)
    (hfailed : ∀ (i : ItemId) (item : BatchItem) (e : BatchError), b.items[i]? = some item →
      item.future = .exception e → b.Failed i e → b'.Failed i e) : ItemsGood b' where
  keyed i item' hitem' := by
    cases hitems i item' hitem' with
    | new hkey => exact hkey
    | old item hitem htenant hrequest hkey => rw [hkey, htenant, hrequest, h.keyed i item hitem]
  future i item' hitem' := by
    cases hitems i item' hitem' with
    | new _ hstate hfuture => simp [hstate, hfuture]
    | old item hitem _ _ _ hstep =>
      rcases hstep with hsame | ⟨hst, ⟨_, hfu, -⟩ | ⟨_, hfu, -⟩⟩ | ⟨hst, hfu⟩
      · rw [hsame.future, hsame.settled]
        exact h.future i item hitem
      · simp [hst, hfu]
      · simp [hst, hfu]
      · simp [hst, hfu]
  cancelled i item' hitem' := by
    cases hitems i item' hitem' with
    | new _ hstate hfuture => simp [hstate, hfuture]
    | old item hitem _ _ _ hstep =>
      rcases hstep with hsame | ⟨hst, ⟨_, hfu, -⟩ | ⟨_, hfu, -⟩⟩ | ⟨hst, hfu⟩
      · rw [hsame.future, hsame.cancelled]
        exact h.cancelled i item hitem
      · simp [hst, hfu]
      · simp [hst, hfu]
      · simp [hst, hfu]
  result i item' response hitem' hfu := by
    cases hitems i item' hitem' with
    | new _ _ hfuture => exact nomatch hfuture.symm.trans hfu
    | old item hitem _ _ _ hstep =>
      rcases hstep with hsame | ⟨-, ⟨_, hfu', hserve⟩ | ⟨_, hfu', -⟩⟩ | ⟨-, hfu'⟩
      · exact hserved i response (h.result i item response hitem (hsame.future.symm.trans hfu))
      · obtain rfl := Future.result.inj (hfu'.symm.trans hfu)
        exact hserve
      · exact nomatch hfu'.symm.trans hfu
      · exact nomatch hfu'.symm.trans hfu
  exception i item' e hitem' hfu := by
    cases hitems i item' hitem' with
    | new _ _ hfuture => exact nomatch hfuture.symm.trans hfu
    | old item hitem _ _ _ hstep =>
      rcases hstep with hsame | ⟨-, ⟨_, hfu', -⟩ | ⟨_, hfu', hfail⟩⟩ | ⟨-, hfu'⟩
      · have hfuture := hsame.future.symm.trans hfu
        exact hfailed i item e hitem hfuture (h.exception i item e hitem hfuture)
      · exact nomatch hfu'.symm.trans hfu
      · obtain rfl := Future.exception.inj (hfu'.symm.trans hfu)
        exact hfail
      · exact nomatch hfu'.symm.trans hfu

/-- A settled item is not dispatched and not pending. -/
theorem ItemsGood.not_open (h : ItemsGood b) {item : BatchItem} {e : BatchError}
    (hitem : b.items[i]? = some item) (hfu : item.future = .exception e) :
    b.stateOf i ≠ some .pending ∧ b.stateOf i ≠ some .dispatched := by
  have hdone := (h.future i item hitem).mp (by simp [hfu])
  rw [stateOf_of hitem]
  rcases hdone with hst | hst <;> simp [hst]

/-! ## Detaching a batch -/

theorem dispatchItems_ok {is : List ItemId} {items : List BatchItem} (hnodup : is.Nodup)
    (hpending : ∀ i ∈ is, ∃ item : BatchItem, items[i]? = some item ∧ item.state = .pending) :
    ∃ items', dispatchItems is items = .ok items' ∧ items'.length = items.length ∧
      ∀ i : ItemId, items'[i]? =
        items[i]?.map fun item => if i ∈ is then { item with state := .dispatched } else item := by
  induction is generalizing items with
  | nil => exact ⟨items, rfl, rfl, by simp⟩
  | cons i is ih =>
    obtain ⟨hi, hnodup⟩ := List.nodup_cons.mp hnodup
    obtain ⟨item, hitem, hst⟩ := hpending i (List.mem_cons_self ..)
    have hrest : ∀ j ∈ is, ∃ item' : BatchItem,
        (items.modify i ({ · with state := .dispatched }))[j]? = some item' ∧
          item'.state = .pending := by
      intro j hj
      obtain ⟨item', hitem', hst'⟩ := hpending j (List.mem_cons_of_mem _ hj)
      have hne : i ≠ j := by rintro rfl; exact hi hj
      exact ⟨item', by simp [hne, hitem'], hst'⟩
    obtain ⟨items', hok, hlength, hget⟩ := ih hnodup hrest
    refine ⟨items', ?_, by simpa using hlength, fun j => ?_⟩
    · unfold dispatchItems
      rw [if_pos (by simp [hitem, hst])]
      exact hok
    · rw [hget, List.getElem?_modify]
      by_cases heq : i = j
      · subst heq
        simp [hitem, hi]
      · cases items[j]? <;> simp [heq, Ne.symm heq]

section Detach

variable {batch : PendingBatch} {dispatched : List BatchItem} {reason : FlushReason}
  {current : Option TimerId} {now : Int}

@[simp] theorem detach_maxSize :
    (b.detach batch dispatched reason current now).maxSize = b.maxSize := by simp [detach, notifyState]
@[simp] theorem detach_groups :
    (b.detach batch dispatched reason current now).groups = b.groups.erase batch.key := by
  simp [detach, notifyState]
@[simp] theorem detach_pending :
    (b.detach batch dispatched reason current now).pending = b.pending - batch.items.length := by
  simp [detach, notifyState]
@[simp] theorem detach_inflight :
    (b.detach batch dispatched reason current now).inflight = b.inflight + 1 := by
  simp [detach, notifyState]
@[simp] theorem detach_closed :
    (b.detach batch dispatched reason current now).closed = b.closed := by simp [detach, notifyState]
@[simp] theorem detach_items :
    (b.detach batch dispatched reason current now).items = dispatched := rfl
@[simp] theorem detach_batches :
    (b.detach batch dispatched reason current now).batches = b.batches := by
  simp [detach, notifyState]
@[simp] theorem detach_flushes :
    (b.detach batch dispatched reason current now).flushes = b.flushes ++
      [{ items := batch.items, flushReason := reason, started := false, state := .created
         cancelRequested := false, tracked := true, answer := none }] := by
  simp [detach, notifyState]
theorem detach_timers : (b.detach batch dispatched reason current now).timers =
    (cancelTimer { b with groups := b.groups.erase batch.key } batch.timerTask current).timers := rfl

/-- Detaching a pending batch keeps the invariant. -/
theorem Good.detach (hmax : 2 ≤ b.maxSize) (hgroups : GroupsGood b) (hflushes : FlushesGood b)
    (hitems : ItemsGood b) (hopen : b.closed = false)
    (hsmall : ∀ key bt' (batch' : PendingBatch), b.groups.get? key = some bt' →
      b.batches[bt']? = some batch' → bt' ≠ bt → batch'.items.length < b.maxSize)
    (hbatch : b.batches[bt]? = some batch) (hget : b.groups.get? batch.key = some bt)
    (hsize : batch.items.length ≤ b.maxSize ∧
      (reason = .size ↔ batch.items.length = b.maxSize))
    (hread : ∀ i : ItemId, dispatched[i]? = b.items[i]?.map fun item =>
      if i ∈ batch.items then { item with state := .dispatched } else item) :
    Good (b.detach batch dispatched reason current now) := by
  have hmember := hgroups.member batch.key bt batch hget hbatch
  have hkeys : ∀ i, (b.detach batch dispatched reason current now).keyOf i = b.keyOf i := by
    intro i
    unfold keyOf
    rw [detach_items, hread, Option.map_map]
    congr 1
    funext item
    simp only [Function.comp_apply]
    split <;> rfl
  have hstates : ∀ i, i ∉ batch.items →
      (b.detach batch dispatched reason current now).stateOf i = b.stateOf i := by
    intro i hi
    unfold stateOf
    simp only [detach_items, hread, hi, if_false, Option.map_id']
  have hdispatched : ∀ i ∈ batch.items,
      (b.detach batch dispatched reason current now).stateOf i = some .dispatched := by
    intro i hi
    obtain ⟨item, hitem, -⟩ := stateOf_eq_some.mp (hmember i hi).1
    unfold stateOf
    simp [hread, hi, hitem]
  have hne : batch.items ≠ [] := by
    obtain ⟨batch', hbatch', -, hne, -⟩ := hgroups.batch batch.key bt hget
    obtain rfl := Option.some.inj (hbatch.symm.trans hbatch')
    exact hne
  constructor
  case maxSize =>
    rw [detach_maxSize]
    exact hmax
  case groups =>
    refine hgroups.erase hget hbatch detach_groups (fun _ _ => by rw [detach_batches])
      ⟨batch, by rw [detach_batches]; exact hbatch, rfl⟩ detach_pending hkeys (fun i => ?_)
      (fun t timer htimer => ?_) ?_
    · by_cases hi : i ∈ batch.items
      · simp [hdispatched i hi, hi]
      · simp [hstates i hi, hi]
    · rw [detach_timers]
      exact hgroups.cancelTimer_other hget hbatch htimer rfl
    · rw [detach_timers]
      exact cancelTimer_length
  case small =>
    intro key bt' batch' hget' hbatch'
    rw [detach_groups, Dict.get?_erase] at hget'
    rw [detach_batches] at hbatch'
    split at hget'
    · cases hget'
    next hkey =>
    rw [detach_maxSize]
    refine hsmall key bt' batch' hget' hbatch' ?_
    rintro rfl
    exact hkey (hgroups.key_unique hget hget')
  case flushes =>
    refine hflushes.detach hgroups hget hbatch detach_flushes rfl ?_ rfl ?_ detach_maxSize
      detach_inflight detach_closed hkeys hstates hdispatched
    · exact ⟨fun _ => rfl, (by intros; contradiction), (by intros; contradiction), fun _ => rfl, (by intros; contradiction), (by intros; contradiction)⟩
    · exact ⟨List.length_pos_of_ne_nil hne, hsize⟩
  case items =>
    refine hitems.step (fun i item' hitem' => ?_) (fun i response hserved => ?_)
      fun i item e hitem hfu hfailed => ?_
    · rw [detach_items, hread] at hitem'
      obtain ⟨item, hitem, rfl⟩ := Option.map_eq_some_iff.mp hitem'
      by_cases hi : i ∈ batch.items
      · have hst : item.state = .pending := by
          obtain ⟨item₀, hitem₀, hst⟩ := stateOf_eq_some.mp (hmember i hi).1
          obtain rfl := Option.some.inj (hitem.symm.trans hitem₀)
          exact hst
        refine .old item hitem ?_ ?_ ?_ (.inl ?_)
        · simp [hi]
        · simp [hi]
        · simp [hi]
        · constructor <;> simp [hi, hst]
      · refine .old item hitem ?_ ?_ ?_ (.inl ?_)
        · simp [hi]
        · simp [hi]
        · simp [hi]
        · constructor <;> simp [hi]
    · refine hserved.mono fun task htask _ => ⟨task, ?_, rfl, rfl⟩
      rw [detach_flushes]
      exact List.mem_append_left _ htask
    · refine hfailed.mono (fun task htask _ => ⟨task, ?_, rfl, rfl⟩) (fun hc => by simpa using hc)
        fun hc => ?_
      · rw [detach_flushes]
        exact List.mem_append_left _ htask
      · rw [hopen] at hc
        cases hc
  case closed =>
    intro hc
    rw [detach_closed, hopen] at hc
    cases hc
  case shut =>
    intro hc
    rw [detach_closed, hopen] at hc
    cases hc

theorem Evolves.detach (hgroups : GroupsGood b) (hitems : ItemsGood b)
    (hbatch : b.batches[bt]? = some batch) (hget : b.groups.get? batch.key = some bt)
    (hread : ∀ i : ItemId, dispatched[i]? = b.items[i]?.map fun item =>
      if i ∈ batch.items then { item with state := .dispatched } else item) :
    Evolves b (b.detach batch dispatched reason current now) := by
  have hmember := hgroups.member batch.key bt batch hget hbatch
  constructor
  case closed =>
    intro hc
    rw [detach_closed]
    exact hc
  case item =>
    intro i item hitem
    rw [detach_items, hread, hitem]
    by_cases hi : i ∈ batch.items
    · refine ⟨{ item with state := .dispatched }, by simp [hi], rfl, rfl, fun hdone => ?_⟩
      -- a pending item has no value yet
      obtain ⟨item₀, hitem₀, hst⟩ := stateOf_eq_some.mp (hmember i hi).1
      obtain rfl := Option.some.inj (hitem.symm.trans hitem₀)
      rcases (hitems.future i item hitem).mp hdone with hst' | hst'
      · exact nomatch hst.symm.trans hst'
      · exact nomatch hst.symm.trans hst'
    · exact ⟨item, by simp [hi], rfl, rfl, fun _ => rfl⟩
  case pending =>
    intro i hst
    refine .inl ?_
    obtain ⟨item', hitem', hst'⟩ := stateOf_eq_some.mp hst
    rw [detach_items, hread] at hitem'
    obtain ⟨item, hitem, rfl⟩ := Option.map_eq_some_iff.mp hitem'
    by_cases hi : i ∈ batch.items
    · simp [hi] at hst'
    · rw [if_neg hi] at hst'
      exact stateOf_eq_some.mpr ⟨item, hitem, hst'⟩
  case task =>
    intro f task htask
    refine ⟨task, ?_, rfl, id⟩
    rw [detach_flushes, List.getElem?_append_left (List.getElem?_eq_some_iff.mp htask).1]
    exact htask
  case detached =>
    intro f task' htask'
    rw [detach_flushes] at htask'
    rcases Nat.lt_or_ge f b.flushes.length with hlt | hge
    · exact .inl hlt
    · rw [List.getElem?_append_right hge, List.getElem?_singleton] at htask'
      split at htask'
      · obtain rfl := Option.some.inj htask'
        exact .inr fun i hi => .inl (hmember i hi).1
      · exact nomatch htask'

/-- What `_detach_locked` of a batch does: nothing, or the batch is detached. -/
def Detached (b : DynamicBatcher) (bt : BatchId) (reason : FlushReason) (current : Option TimerId)
    (now : Int) (b' : DynamicBatcher) : Prop :=
  b' = b ∧ (∀ key, b.groups.get? key ≠ some bt) ∨
    ∃ batch dispatched, b.batches[bt]? = some batch ∧ b.groups.get? batch.key = some bt ∧
      b' = b.detach batch dispatched reason current now ∧
      ∀ i : ItemId, dispatched[i]? = b.items[i]?.map fun item =>
        if i ∈ batch.items then { item with state := .dispatched } else item

theorem Detached.length (h : Detached b bt reason current now b') :
    b'.items.length = b.items.length := by
  rcases h with ⟨rfl, -⟩ | ⟨batch, dispatched, -, -, rfl, hread⟩
  · rfl
  · exact length_eq_of_map (g := fun i item =>
      if i ∈ batch.items then { item with state := .dispatched } else item) hread

theorem Detached.keepsCancelled (h : Detached b bt reason current now b') :
    KeepsCancelled b b' := by
  rcases h with ⟨rfl, -⟩ | ⟨batch, dispatched, -, -, rfl, hread⟩
  · exact fun _ => id
  · intro i hst
    obtain ⟨item', hitem', hst'⟩ := stateOf_eq_some.mp hst
    rw [detach_items, hread] at hitem'
    obtain ⟨item, hitem, rfl⟩ := Option.map_eq_some_iff.mp hitem'
    split at hst'
    · exact nomatch hst'
    · exact stateOf_eq_some.mpr ⟨item, hitem, hst'⟩

theorem Detached.closed (h : Detached b bt reason current now b') : b'.closed = b.closed := by
  rcases h with ⟨rfl, -⟩ | ⟨batch, dispatched, -, -, rfl, -⟩
  · rfl
  · exact detach_closed

/-- The timers after a batch was detached, and no new task if the batch was gone. -/
theorem Detached.timers (h : Detached b bt reason current now b') {timer' : TimerTask}
    (htimer' : b'.timers[t]? = some timer') : ∃ timer, b.timers[t]? = some timer ∧
      timer'.state = timer.state ∧ timer'.tracked = timer.tracked := by
  rcases h with ⟨rfl, -⟩ | ⟨batch, dispatched, -, -, rfl, -⟩
  · exact ⟨timer', htimer', rfl, rfl⟩
  · rw [detach_timers] at htimer'
    exact cancelTimer_back htimer' rfl

theorem Detached.keepsTasks (h : Detached b bt reason current now b') (hb : Good b) :
    KeepsTasks b b' where
  closed := h.closed
  timer t timer' htimer' := by
    obtain ⟨timer, htimer, hstate, htracked⟩ := h.timers htimer'
    exact .inr ⟨timer, htimer, fun hst => hstate.trans hst, fun ht => .inl (htracked ▸ ht)⟩
  flush f task' htask' := by
    cases hc : b.closed with
    | false => exact .inl rfl
    | true =>
      -- a closed batcher has no pending batch
      rcases h with ⟨rfl, -⟩ | ⟨batch, dispatched, -, hget, -⟩
      · exact .inr ⟨task', htask', id⟩
      · have hmem : batch.key ∈ b.groups.keys := Dict.mem_keys.mpr ⟨_, hget⟩
        rw [hb.closed hc] at hmem
        exact nomatch hmem

/-- `_detach_locked` of an open batcher: it does nothing, or detaches the batch. -/
theorem Good.detachLocked (hmax : 2 ≤ b.maxSize) (hgroups : GroupsGood b)
    (hflushes : FlushesGood b) (hitems : ItemsGood b) (hopen : b.closed = false)
    (hsmall : ∀ key bt' (batch' : PendingBatch), b.groups.get? key = some bt' →
      b.batches[bt']? = some batch' → bt' ≠ bt → batch'.items.length < b.maxSize)
    (hsize : ∀ batch : PendingBatch, b.batches[bt]? = some batch →
      b.groups.get? batch.key = some bt → batch.items.length ≤ b.maxSize ∧
        (reason = .size ↔ batch.items.length = b.maxSize)) :
    ∃ b', b.detachLocked bt reason current now = .ok b' ∧ Good b' ∧ Evolves b b' ∧
      Detached b bt reason current now b' := by
  -- when nothing is detached the batch is no group, so the groups are small
  have hidle : (∀ key, b.groups.get? key ≠ some bt) → Good b := by
    intro hnone
    refine ⟨hmax, hgroups, fun key bt' batch' hget hbatch' => ?_, hflushes, hitems, ?_, ?_⟩
    · refine hsmall key bt' batch' hget hbatch' ?_
      rintro rfl
      exact hnone key hget
    · intro hc
      rw [hopen] at hc
      exact nomatch hc
    · intro hc
      rw [hopen] at hc
      exact nomatch hc
  unfold DynamicBatcher.detachLocked
  split
  · next hnone =>
    have hno : ∀ key, b.groups.get? key ≠ some bt := by
      intro key hget
      obtain ⟨batch, hbatch, -⟩ := hgroups.batch key bt hget
      exact nomatch hnone.symm.trans hbatch
    exact ⟨b, rfl, hidle hno, .refl b, .inl ⟨rfl, hno⟩⟩
  next batch hbatch =>
  split
  · next hskip =>
    have hno : ∀ key, b.groups.get? key ≠ some bt := by
      intro key hget
      obtain ⟨batch', hbatch', hkey, hne, -⟩ := hgroups.batch key bt hget
      obtain rfl := Option.some.inj (hbatch.symm.trans hbatch')
      rcases hskip with hother | hempty
      · exact hother (hkey ▸ hget)
      · exact hne hempty
    exact ⟨b, rfl, hidle hno, .refl b, .inl ⟨rfl, hno⟩⟩
  next hgo =>
  rw [not_or, not_not] at hgo
  obtain ⟨batch', hbatch', -, -, hsorted, -⟩ := hgroups.batch batch.key bt hgo.1
  obtain rfl := Option.some.inj (hbatch.symm.trans hbatch')
  have hnodup : batch.items.Nodup := hsorted.imp fun hlt => Nat.ne_of_lt hlt
  obtain ⟨dispatched, hok, -, hread⟩ := dispatchItems_ok hnodup fun i hi =>
    stateOf_eq_some.mp (hgroups.member batch.key bt batch hgo.1 hbatch i hi).1
  rw [hok]
  exact ⟨_, rfl, Good.detach hmax hgroups hflushes hitems hopen hsmall hbatch hgo.1
    (hsize batch hbatch hgo.1) hread, .detach hgroups hitems hbatch hgo.1 hread,
    .inr ⟨batch, dispatched, hbatch, hgo.1, rfl, hread⟩⟩

end Detach

end Gateway.DynamicBatcher
