import Gateway.Spec.BatcherTasks

/-!
# The shutdown of the batcher

The section of `shutdown` keeps the invariant and raises no error of broken bookkeeping:
the pending items fail, and so do the members of the batches whose task never starts;
the operations of these batches are completed, and the others are left to their tasks.

## Key results

- `Good.closeBatches`: no pending batch is left
- `cancelFlushes_ok`: the loop over the flush tasks
- `Good.shutdownLocked`: the whole section
-/

namespace Gateway.DynamicBatcher

variable {b b' b'' : DynamicBatcher} {i : ItemId} {t : TimerId} {f : FlushId} {bt : BatchId}

/-! ## The pending batches -/

/-- The items of a pending batch. -/
def membersOf (b : DynamicBatcher) (bt : BatchId) : List ItemId :=
  (b.batches[bt]?.map (·.items)).getD []

/-- The item fails with `BatchingUnavailableError`. -/
def failedItem (item : BatchItem) : BatchItem := item.complete (.exception .unavailable)

theorem failedItem_failedItem (item : BatchItem) : failedItem (failedItem item) = failedItem item := by
  unfold failedItem BatchItem.complete
  cases item.future <;> rfl

/-- Some pending items fail, and some timers are cancelled. -/
structure Closes (b : DynamicBatcher) (is : List ItemId) (b' : DynamicBatcher) : Prop where
  maxSize : b'.maxSize = b.maxSize
  groups : b'.groups = b.groups
  inflight : b'.inflight = b.inflight
  closed : b'.closed = b.closed
  batches : b'.batches = b.batches
  flushes : b'.flushes = b.flushes
  pending : b'.pending = b.pending - is.length
  read : ∀ i : ItemId, b'.items[i]? =
    b.items[i]?.map fun item => if i ∈ is then failedItem item else item
  timer : ∀ (t : TimerId) (timer : TimerTask), b.timers[t]? = some timer →
    b'.timers[t]? = some timer ∨ b'.timers[t]? = some timer.cancel
  timers : b'.timers.length = b.timers.length

section Closes

variable {is is' : List ItemId}

theorem cancel_cancel (timer : TimerTask) : timer.cancel.cancel = timer.cancel := by
  by_cases hst : timer.state = .finished <;> simp [TimerTask.cancel, hst]

theorem Closes.refl (b : DynamicBatcher) : Closes b [] b where
  maxSize := rfl
  groups := rfl
  inflight := rfl
  closed := rfl
  batches := rfl
  flushes := rfl
  pending := (Int.sub_zero _).symm
  read i := by simp
  timer _ _ htimer := .inl htimer
  timers := rfl

theorem Closes.trans (h : Closes b is b') (h' : Closes b' is' b'') : Closes b (is ++ is') b'' where
  maxSize := h'.maxSize.trans h.maxSize
  groups := h'.groups.trans h.groups
  inflight := h'.inflight.trans h.inflight
  closed := h'.closed.trans h.closed
  batches := h'.batches.trans h.batches
  flushes := h'.flushes.trans h.flushes
  pending := by
    rw [h'.pending, h.pending, List.length_append]
    omega
  read i := by
    rw [h'.read, h.read, Option.map_map]
    congr 1
    funext item
    simp only [Function.comp_apply, List.mem_append]
    by_cases hi : i ∈ is <;> by_cases hi' : i ∈ is' <;> simp [hi, hi', failedItem_failedItem]
  timer t timer htimer := by
    rcases h.timer t timer htimer with hsame | hcancel
    · exact h'.timer t timer hsame
    · rcases h'.timer t _ hcancel with hsame | hagain
      · exact .inr hsame
      · rw [cancel_cancel] at hagain
        exact .inr hagain
  timers := h'.timers.trans h.timers

theorem Closes.length (h : Closes b is b') : b'.items.length = b.items.length :=
  length_eq_of_map h.read

theorem Closes.stateOf (h : Closes b is b') (i : ItemId) :
    b'.stateOf i = (b.stateOf i).map fun st => if i ∈ is then .completed else st := by
  unfold DynamicBatcher.stateOf
  rw [h.read, Option.map_map, Option.map_map]
  congr 1
  funext item
  simp only [Function.comp_apply]
  split <;> rfl

theorem Closes.keepsCancelled (h : Closes b is b') : KeepsCancelled b b' := by
  intro i hst
  rw [h.stateOf] at hst
  obtain ⟨st, hst₀, hst'⟩ := Option.map_eq_some_iff.mp hst
  split at hst'
  · exact nomatch hst'
  · exact hst' ▸ hst₀

theorem Closes.keyOf (h : Closes b is b') (i : ItemId) : b'.keyOf i = b.keyOf i := by
  unfold DynamicBatcher.keyOf
  rw [h.read, Option.map_map]
  congr 1
  funext item
  simp only [Function.comp_apply]
  split <;> rfl

theorem Closes.cancelTimer (b : DynamicBatcher) (timerTask : Option TimerId) :
    Closes b [] (b.cancelTimer timerTask none) where
  maxSize := by simp
  groups := by simp
  inflight := by simp
  closed := by simp
  batches := by simp
  flushes := by simp
  pending := by simp
  read i := by simp
  timer t timer htimer := by
    unfold DynamicBatcher.cancelTimer
    split
    · next t' =>
      split
      · exact .inl htimer
      · simp only [modifyTimer_read, htimer]
        split
        · exact .inr rfl
        · exact .inl rfl
    · exact .inl htimer
  timers := by simp

theorem Closes.failPending (hnodup : is.Nodup) (hpending : ∀ i ∈ is, b.stateOf i = some .pending) :
    Closes b is (b.failPending is) := by
  induction is generalizing b with
  | nil => exact .refl b
  | cons i is ih =>
    obtain ⟨hi, hnodup⟩ := List.nodup_cons.mp hnodup
    obtain ⟨item, hitem, hst⟩ := stateOf_eq_some.mp (hpending i (List.mem_cons_self ..))
    have hfirst : Closes b [i] { b with
        items := b.items.modify i fun item => item.complete (.exception .unavailable)
        pending := b.pending - 1 } := by
      refine ⟨rfl, rfl, rfl, rfl, rfl, rfl, rfl, fun j => ?_, fun _ _ => .inl, rfl⟩
      rw [getElem?_modify_eq]
      by_cases heq : i = j
      · subst heq
        simp [failedItem]
      · simp [heq, Ne.symm heq]
    unfold DynamicBatcher.failPending
    rw [if_pos (by simp [hitem, hst])]
    refine hfirst.trans (ih hnodup fun j hj => ?_)
    have hne : j ≠ i := by rintro rfl; exact hi hj
    rw [hfirst.stateOf, hpending j (List.mem_cons_of_mem _ hj)]
    simp [hne]

theorem Closes.closeBatches {bts : List BatchId} (hnodup : (bts.flatMap b.membersOf).Nodup)
    (hpending : ∀ i ∈ bts.flatMap b.membersOf, b.stateOf i = some .pending) :
    Closes b (bts.flatMap b.membersOf) (closeBatches bts b) := by
  induction bts generalizing b with
  | nil => exact .refl b
  | cons bt bts ih =>
    rw [List.flatMap_cons] at hnodup hpending ⊢
    obtain ⟨hfirst, hrest, hdisjoint⟩ := List.nodup_append.mp hnodup
    unfold DynamicBatcher.closeBatches
    split
    · next hnone =>
      have hmembers : b.membersOf bt = [] := by
        unfold membersOf
        rw [hnone]
        rfl
      rw [hmembers, List.nil_append] at hpending ⊢
      exact ih hrest hpending
    · next batch hbatch =>
      have hmembers : b.membersOf bt = batch.items := by
        unfold membersOf
        rw [hbatch]
        rfl
      rw [hmembers] at hfirst hpending hdisjoint ⊢
      have hcancel := Closes.cancelTimer b batch.timerTask
      have hfail : Closes b batch.items
          ((b.cancelTimer batch.timerTask none).failPending batch.items) := by
        refine hcancel.trans (.failPending hfirst fun i hi => ?_)
        rw [hcancel.stateOf, hpending i (List.mem_append_left _ hi)]
        rfl
      have hsame : ∀ bt', membersOf
          ((b.cancelTimer batch.timerTask none).failPending batch.items) bt' = b.membersOf bt' := by
        intro bt'
        unfold membersOf
        rw [hfail.batches]
      have hflat := List.flatMap_congr (l := bts) fun bt' _ => hsame bt'
      have hnext := ih (hflat.symm ▸ hrest) fun i hi => by
        rw [hflat] at hi
        have hout : i ∉ batch.items := fun hmem => hdisjoint i hmem i hi rfl
        rw [hfail.stateOf, hpending i (List.mem_append_right _ hi)]
        simp [hout]
      rw [hflat] at hnext
      exact hfail.trans hnext

/-- The pending batches have the pending items, each once. -/
theorem GroupsGood.members (h : GroupsGood b) : (b.groups.values.flatMap b.membersOf).Nodup ∧
    (∀ i, i ∈ b.groups.values.flatMap b.membersOf ↔ b.stateOf i = some .pending) ∧
    b.pending = (b.groups.values.flatMap b.membersOf).length := by
  have hmembers : ∀ {bt batch}, b.batches[bt]? = some batch → b.membersOf bt = batch.items := by
    intro bt batch hbatch
    unfold membersOf
    rw [hbatch]
    rfl
  refine ⟨List.nodup_flatMap.mpr ⟨fun bt hbt => ?_, ?_⟩, fun i => ?_, ?_⟩
  · obtain ⟨key, hget⟩ := Dict.mem_values.mp hbt
    obtain ⟨batch, hbatch, -, -, hsorted, -⟩ := h.batch key bt hget
    rw [hmembers hbatch]
    exact hsorted.imp fun hlt => Nat.ne_of_lt hlt
  · -- the items of two batches have different keys
    refine Dict.pairwise_values fun key bt key' bt' hget hget' hne i hi hi' => hne ?_
    obtain ⟨batch, hbatch, -⟩ := h.batch key bt hget
    obtain ⟨batch', hbatch', -⟩ := h.batch key' bt' hget'
    rw [hmembers hbatch] at hi
    rw [hmembers hbatch'] at hi'
    obtain ⟨-, hkey⟩ := h.member key bt batch hget hbatch i hi
    obtain ⟨-, hkey'⟩ := h.member key' bt' batch' hget' hbatch' i hi'
    exact Option.some.inj (hkey.symm.trans hkey')
  · rw [List.mem_flatMap]
    constructor
    · rintro ⟨bt, hbt, hi⟩
      obtain ⟨key, hget⟩ := Dict.mem_values.mp hbt
      obtain ⟨batch, hbatch, -⟩ := h.batch key bt hget
      rw [hmembers hbatch] at hi
      exact (h.member key bt batch hget hbatch i hi).1
    · intro hst
      obtain ⟨key, hkey⟩ := keyOf_of_stateOf hst
      obtain ⟨bt, batch, hget, hbatch, hi⟩ := h.pending i key hst hkey
      exact ⟨bt, Dict.mem_values.mpr ⟨key, hget⟩, hmembers hbatch ▸ hi⟩
  · rw [h.count, List.length_flatMap, Dict.sum_natCast]
    have hsize : ∀ bt, b.batchSize bt = (b.membersOf bt).length := by
      intro bt
      unfold batchSize membersOf
      cases b.batches[bt]? <;> rfl
    congr 2
    exact List.map_congr_left fun bt _ => hsize bt

/-- The part of the shutdown that ends the pending batches. -/
theorem Good.closeBatches (h : Good b) : ∃ is,
    Closes { b with closed := true, groups := .empty } is
      (closeBatches b.groups.values { b with closed := true, groups := .empty }) ∧
    (∀ i, i ∈ is ↔ b.stateOf i = some .pending) ∧ b.pending = is.length := by
  obtain ⟨hnodup, hmem, hcount⟩ := h.groups.members
  exact ⟨_, .closeBatches hnodup fun i hi => (hmem i).mp hi, hmem, hcount⟩

end Closes

/-! ## The section after the pending batches have gone -/

/-- What holds of the batcher while the flush tasks are cancelled. -/
structure Closing (b : DynamicBatcher) : Prop where
  maxSize : 2 ≤ b.maxSize
  closed : b.closed = true
  empty : b.groups.keys = []
  groups : GroupsGood b
  flushes : FlushesGood b
  items : ItemsGood b

theorem GroupsGood.of_empty (hempty : b.groups = .empty) (hpending : b.pending = 0)
    (hstates : ∀ i, b.stateOf i ≠ some .pending)
    (htimer : ∀ (t : TimerId) (timer : TimerTask), b.timers[t]? = some timer →
      ∃ batch : PendingBatch, b.batches[timer.batch]? = some batch ∧ batch.timerTask = some t) :
    GroupsGood b where
  batch key bt hget := by
    rw [hempty, Dict.get?_empty] at hget
    exact nomatch hget
  member key bt batch hget := by
    rw [hempty, Dict.get?_empty] at hget
    exact nomatch hget
  pending i key hst := absurd hst (hstates i)
  count := by
    rw [hempty, hpending]
    rfl
  timer := htimer

theorem Good.closing (h : Good b) {is : List ItemId}
    (hcloses : Closes { b with closed := true, groups := .empty } is b')
    (hmem : ∀ i, i ∈ is ↔ b.stateOf i = some .pending) (hcount : b.pending = is.length) :
    Closing b' ∧ Evolves b b' := by
  have hopen : ∀ i, i ∈ is → ∀ task ∈ b.flushes, i ∉ task.items := by
    intro i hi task htask hmem'
    obtain ⟨key, hk⟩ := h.flushes.member task htask
    exact (hk i hmem').2 ((hmem i).mp hi)
  have hstates : ∀ i, b'.stateOf i ≠ some .pending := by
    intro i hst
    rw [hcloses.stateOf] at hst
    obtain ⟨st, hst₀, hst'⟩ := Option.map_eq_some_iff.mp hst
    split at hst'
    · exact nomatch hst'
    · next hout => exact hout ((hmem i).mpr (hst' ▸ hst₀))
  -- the items that stay keep their state
  have hkeep : ∀ i st, b.stateOf i = some st → st ≠ .pending →
      ((b.stateOf i).map fun st => if i ∈ is then .completed else st) = some st := by
    intro i st hst hne
    have hout : i ∉ is := fun hi => hne (Option.some.inj (hst.symm.trans ((hmem i).mp hi)))
    simp [hst, hout]
  refine ⟨⟨?_, hcloses.closed, ?_, ?_, ?_, ?_⟩, ?_⟩
  · rw [hcloses.maxSize]
    exact h.maxSize
  · rw [hcloses.groups]
    rfl
  · refine .of_empty hcloses.groups ?_ hstates fun t timer htimer => ?_
    · rw [hcloses.pending]
      show b.pending - is.length = 0
      omega
    · have ht : t < b.timers.length := by
        have hlt := (List.getElem?_eq_some_iff.mp htimer).1
        rw [hcloses.timers] at hlt
        exact hlt
      rw [hcloses.batches]
      obtain ⟨batch, hbatch, htask⟩ := h.groups.timer t _ (List.getElem?_eq_getElem ht)
      rcases hcloses.timer t _ (List.getElem?_eq_getElem ht) with hsame | hcancel
      · obtain rfl := Option.some.inj (htimer.symm.trans hsame)
        exact ⟨batch, hbatch, htask⟩
      · obtain rfl := Option.some.inj (htimer.symm.trans hcancel)
        exact ⟨batch, by rw [cancel_batch]; exact hbatch, htask⟩
  · -- the failed items were in no detached batch
    refine h.flushes.congr hcloses.flushes hcloses.maxSize hcloses.inflight (fun _ => hcloses.closed)
      (fun i key hk => (hcloses.keyOf i).trans hk) (fun i hst => absurd hst (hstates i))
      (fun i hst => .inl ?_) (fun i hst => ?_) fun i hst => ?_
    · rw [hcloses.stateOf]
      exact hkeep i _ hst nofun
    · rw [hcloses.stateOf]
      exact hkeep i _ hst nofun
    · rw [hcloses.stateOf] at hst
      obtain ⟨st, hst₀, hst'⟩ := Option.map_eq_some_iff.mp hst
      split at hst'
      · exact nomatch hst'
      · exact hst' ▸ hst₀
  · have hsame : ∀ task ∈ b.flushes, task.answer.isSome = true → ∃ task' ∈ b'.flushes,
        task'.items = task.items ∧ task'.answer = task.answer :=
      fun task htask _ => ⟨task, hcloses.flushes ▸ htask, rfl, rfl⟩
    refine h.items.step (fun i item' hitem' => ?_) (fun _ _ hserved => hserved.mono hsame)
      fun _ _ _ _ _ hfailed => hfailed.mono hsame (fun _ => hcloses.closed)
        fun _ task htask hi => ⟨task, hcloses.flushes ▸ htask, hi, id⟩
    rw [hcloses.read] at hitem'
    obtain ⟨item, hitem, rfl⟩ := Option.map_eq_some_iff.mp hitem'
    split
    · next hi =>
      refine .old item hitem rfl rfl rfl (.inr (.inl ⟨rfl, .inr ⟨.unavailable, ?_, ?_⟩⟩))
      · have hst := (stateOf_of hitem).symm.trans ((hmem i).mp hi)
        have hpending : item.future = .pending := by
          refine Future.done_eq_false.mp (Bool.eq_false_iff.mpr fun hdone => ?_)
          rcases (h.items.future i item hitem).mp hdone with hst' | hst' <;> simp [hst'] at hst
        simp [failedItem, BatchItem.complete, hpending]
      · refine .inr ⟨hcloses.closed, rfl, fun task htask hmem' => ?_⟩
        exact absurd hmem' (hopen i hi task (hcloses.flushes ▸ htask))
    · exact .old item hitem rfl rfl rfl (.inl (.refl item))
  · constructor
    case closed => exact fun _ => hcloses.closed
    case item =>
      intro i item hitem
      have hread := hcloses.read i
      rw [hitem] at hread
      refine ⟨_, hread, ?_, ?_, fun hdone => ?_⟩
      · split <;> rfl
      · split <;> rfl
      · refine if_neg fun hi => ?_
        have hst := (stateOf_of hitem).symm.trans ((hmem i).mp hi)
        rcases (h.items.future i item hitem).mp hdone with hst' | hst' <;> simp [hst'] at hst
    case pending => exact fun i hst => absurd hst (hstates i)
    case task => exact fun f task htask => ⟨task, hcloses.flushes ▸ htask, rfl, id⟩
    case detached =>
      exact fun f task htask => .inl (List.getElem?_eq_some_iff.mp (hcloses.flushes ▸ htask)).1

/-! ## The flush tasks -/

section Flushes

variable {task : FlushTask} {fs : List FlushId}

@[simp] theorem flushCancel_items : task.cancel.items = task.items := by
  unfold FlushTask.cancel; split <;> rfl
@[simp] theorem flushCancel_flushReason : task.cancel.flushReason = task.flushReason := by
  unfold FlushTask.cancel; split <;> rfl
@[simp] theorem flushCancel_started : task.cancel.started = task.started := by
  unfold FlushTask.cancel; split <;> rfl
@[simp] theorem flushCancel_state : task.cancel.state = task.state := by
  unfold FlushTask.cancel; split <;> rfl
@[simp] theorem flushCancel_tracked : task.cancel.tracked = task.tracked := by
  unfold FlushTask.cancel; split <;> rfl
@[simp] theorem flushCancel_answer : task.cancel.answer = task.answer := by
  unfold FlushTask.cancel; split <;> rfl

theorem flushCancel_done : task.cancel.state = .finished ∨ task.cancel.cancelRequested = true := by
  unfold FlushTask.cancel
  split
  · next hst => exact .inl hst
  · exact .inr rfl

theorem FlushTask.Sound.cancel {closed : Bool} (h : FlushTask.Sound task closed)
    (hc : closed = true) : FlushTask.Sound task.cancel closed where
  created hst := by simpa using h.created (by simpa using hst)
  awaiting hst := by simpa using h.awaiting (by simpa using hst)
  finished hst := by
    rw [flushCancel_state] at hst
    unfold FlushTask.cancel
    rw [if_pos hst]
    exact h.finished hst
  answered hne := by
    rw [flushCancel_state, flushCancel_started] at hne
    rw [flushCancel_answer]
    exact h.answered hne
  tracked hne := by
    rw [flushCancel_tracked] at hne
    rw [flushCancel_state]
    exact h.tracked hne
  cancelled _ := hc

/-- Cancelling a task that has started does not complete its operation. -/
theorem cancel_sameRun (hstarted : task.started = true) : SameRun task task.cancel where
  items := flushCancel_items
  flushReason := flushCancel_flushReason
  answer := flushCancel_answer
  ended := by simp [FlushTask.ended, hstarted]
  started hs := flushCancel_started.trans hs
  unstarted hun := nomatch hstarted.symm.trans hun.1

theorem failDetached_read (is : List ItemId) (items : List BatchItem) (j : ItemId) :
    (failDetached is items)[j]? =
      items[j]?.map (completed is (fun _ => .exception .unavailable) j) := by
  induction is generalizing items with
  | nil =>
    rw [completed_nil, Option.map_id_fun, id]
    rfl
  | cons i is ih =>
    unfold failDetached
    rw [ih, getElem?_modify_eq]
    by_cases heq : i = j
    · subst heq
      rw [if_pos rfl, Option.map_map]
      congr 1
      funext item
      by_cases hst : item.state = .dispatched <;> simp [completed, BatchItem.complete, hst]
    · rw [if_neg heq]
      unfold completed
      simp [Ne.symm heq]

/-- What the loop over the flush tasks has done when it has been through `fs`. -/
structure Cancelled (b : DynamicBatcher) (fs : List FlushId) (b' : DynamicBatcher) : Prop where
  closing : Closing b'
  evolves : Evolves b b'
  keeps : KeepsCancelled b b'
  timers : b'.timers = b.timers
  length : b'.items.length = b.items.length
  flush : ∀ f : FlushId, b'.flushes[f]? =
    if f ∈ fs then b.flushes[f]?.map (·.cancel) else b.flushes[f]?

theorem Cancelled.step {b₁ : DynamicBatcher} (hevolves : Evolves b b₁) (hkeeps : KeepsCancelled b b₁)
    (htimers : b₁.timers = b.timers) (hlength : b₁.items.length = b.items.length)
    (hf : b.flushes[f]? = some task) (hflushes : b₁.flushes = b.flushes.set f task.cancel)
    (hnew : f ∉ fs) (h : Cancelled b₁ fs b') : Cancelled b (f :: fs) b' where
  closing := h.closing
  evolves := hevolves.trans h.evolves
  keeps i hst := hkeeps i (h.keeps i hst)
  timers := h.timers.trans htimers
  length := h.length.trans hlength
  flush f' := by
    rw [h.flush, hflushes, List.getElem?_set]
    by_cases heq : f = f'
    · subst heq
      rw [if_neg hnew, if_pos rfl, if_pos (List.getElem?_eq_some_iff.mp hf).1, hf,
        if_pos (List.mem_cons_self ..)]
      rfl
    · simp [heq, Ne.symm heq]

theorem Closing.cancelStarted (h : Closing b) (hf : b.flushes[f]? = some task)
    (hstarted : task.started = true) : Closing (b.modifyFlush f (·.cancel)) ∧
      Evolves b (b.modifyFlush f (·.cancel)) := by
  have hsame := cancel_sameRun hstarted
  have hsound := (h.flushes.sound task (List.mem_of_getElem? hf)).cancel h.closed
  exact ⟨⟨h.maxSize, h.closed, h.empty, h.groups.modifyFlush,
    h.flushes.modifyFlush hf hsame hsound, h.items.modifyFlush hf hsame⟩, .modifyFlush hf hsame⟩

/-- The operation of a task that never starts is completed by the shutdown. -/
theorem Closing.cancelUnstarted (h : Closing b) (hf : b.flushes[f]? = some task)
    (hstarted : task.started = false) (hopen : task.cancelRequested = false) :
    ∃ b₁, { b.modifyFlush f (·.cancel) with
        items := failDetached task.items b.items
        inflight := b.inflight - 1 } = b₁ ∧
      Completes b f task task.cancel (fun _ => .exception .unavailable) b₁ ∧ Closing b₁ := by
  have hmem : task ∈ b.flushes := List.mem_of_getElem? hf
  have hsound := h.flushes.sound task hmem
  have hunfinished : task.state ≠ .finished := by
    intro hst
    rcases hsound.finished hst with ⟨hs, -⟩ | ⟨-, hc⟩
    · exact nomatch hstarted.symm.trans hs
    · exact nomatch hopen.symm.trans hc
  have hcancel : task.cancel = { task with cancelRequested := true } := if_neg hunfinished
  have hcompletes : Completes b f task task.cancel (fun _ => .exception .unavailable)
      { b.modifyFlush f (·.cancel) with
        items := failDetached task.items b.items
        inflight := b.inflight - 1 } := by
    refine ⟨rfl, rfl, rfl, rfl, rfl, rfl, rfl, modify_eq_set hf, failDetached_read _ _, hf, ?_, ?_,
      flushCancel_items, flushCancel_flushReason, flushCancel_started, hsound.cancel h.closed⟩
    · simp [FlushTask.ended, hunfinished, hopen]
    · simp [FlushTask.ended, hcancel, hstarted]
  refine ⟨_, rfl, hcompletes, h.maxSize, h.closed, h.empty, hcompletes.groupsGood h.groups,
    hcompletes.flushesGood h.flushes, ?_⟩
  refine hcompletes.itemsGood h.items (hsound.answered (.inl hunfinished)) fun i hi => ?_
  refine .inr ⟨.unavailable, rfl, .inr ⟨h.closed, rfl, fun other hother hi' => ?_⟩⟩
  -- the item is in this batch only
  obtain ⟨f', hf'⟩ := List.mem_iff_getElem?.mp hother
  have hself : (b.modifyFlush f (·.cancel)).flushes[f]? = some task.cancel := by
    simp [DynamicBatcher.modifyFlush, hf]
  have hunique := (hcompletes.flushesGood h.flushes).unique hself hf' (by simpa using hi) hi'
  subst hunique
  obtain rfl := Option.some.inj (hself.symm.trans hf')
  exact ⟨flushCancel_started.trans hstarted, hcompletes.ended⟩

/-- The loop over the flush tasks raises no error of broken bookkeeping. -/
theorem cancelFlushes_ok (h : Closing b) (hnodup : fs.Nodup)
    (hopen : ∀ f ∈ fs, ∀ task : FlushTask, b.flushes[f]? = some task →
      task.cancelRequested = false) :
    ∃ reasons b', cancelFlushes fs b = .ok (reasons, b') ∧ Cancelled b fs b' := by
  induction fs generalizing b with
  | nil => exact ⟨[], b, rfl, h, .refl b, fun _ => id, rfl, rfl, fun f => by simp⟩
  | cons f fs ih =>
    obtain ⟨hf, hnodup⟩ := List.nodup_cons.mp hnodup
    -- the first step leaves the tasks that come later as they are
    have hrest : ∀ {b₁ : DynamicBatcher} {task' : FlushTask},
        b₁.flushes = b.flushes.set f task' → ∀ f' ∈ fs, ∀ task : FlushTask,
          b₁.flushes[f']? = some task → task.cancelRequested = false := by
      intro b₁ task' hflushes f' hf' task htask
      have hne : f ≠ f' := by rintro rfl; exact hf hf'
      rw [hflushes, List.getElem?_set, if_neg hne] at htask
      exact hopen f' (List.mem_cons_of_mem _ hf') task htask
    unfold cancelFlushes
    split
    · next hnone =>
      obtain ⟨reasons, b', hok, hcancelled⟩ :=
        ih h hnodup fun f' hf' => hopen f' (List.mem_cons_of_mem _ hf')
      refine ⟨reasons, b', hok, { hcancelled with flush := fun f' => ?_ }⟩
      rw [hcancelled.flush]
      by_cases heq : f' = f
      · simp [heq, hf, hnone]
      · simp [heq]
    next task hget =>
    split
    · next hstarted =>
      have hflushes : (b.modifyFlush f (·.cancel)).flushes = b.flushes.set f task.cancel :=
        modify_eq_set hget
      obtain ⟨hclosing, hevolves⟩ := h.cancelStarted hget hstarted
      obtain ⟨reasons, b', hok, hcancelled⟩ := ih hclosing hnodup (hrest hflushes)
      exact ⟨reasons, b', hok, .step hevolves (fun _ => id) rfl rfl hget hflushes hf hcancelled⟩
    · next hunstarted =>
      have hstarted : task.started = false := Bool.eq_false_iff.mpr hunstarted
      obtain ⟨b₁, hb₁, hcompletes, hclosing⟩ :=
        h.cancelUnstarted hget hstarted (hopen f (List.mem_cons_self ..) task hget)
      rw [if_neg (h.flushes.inflight_pos hget hcompletes.running), hb₁]
      obtain ⟨reasons, b', hok, hcancelled⟩ := ih hclosing hnodup (hrest hcompletes.flushes)
      rw [hok]
      exact ⟨_, b', rfl, .step (hcompletes.evolves h.items) hcompletes.keepsCancelled hcompletes.timers
        hcompletes.length hget hcompletes.flushes hf hcancelled⟩

end Flushes

/-! ## The whole section -/

section Shutdown

variable {α : Type} {tracked : α → Bool} {tasks : List α}

theorem trackedIds_nodup : (trackedIds tracked tasks).Nodup := List.nodup_range.filter _

theorem mem_trackedIds {k : Nat} :
    k ∈ trackedIds tracked tasks ↔ ∃ task, tasks[k]? = some task ∧ tracked task = true := by
  unfold trackedIds
  rw [List.mem_filter, List.mem_range]
  constructor
  · rintro ⟨hlt, htask⟩
    rw [List.getElem?_eq_getElem hlt] at htask
    exact ⟨_, List.getElem?_eq_getElem hlt, htask⟩
  · rintro ⟨task, htask, ht⟩
    exact ⟨(List.getElem?_eq_some_iff.mp htask).1, by rw [htask]; exact ht⟩

/-- What the section of `shutdown` has done, when it waits for the timer tasks and the
    flush tasks that are left. -/
structure Shut (b : DynamicBatcher) (timerTasks : List TimerId) (flushTasks : List FlushId)
    (b' : DynamicBatcher) : Prop where
  good : Good b'
  evolves : Evolves b b'
  keeps : KeepsCancelled b b'
  closed : b'.closed = true
  length : b'.items.length = b.items.length
  timer : ∀ (t : TimerId) (timer : TimerTask), b.timers[t]? = some timer →
    b'.timers[t]? = some timer ∨ b'.timers[t]? = some timer.cancel
  timers : b'.timers.length = b.timers.length
  timerTasks : ∀ t, t ∈ timerTasks ↔ ∃ timer, b'.timers[t]? = some timer ∧ timer.tracked = true
  flushTasks : ∀ f, f ∈ flushTasks ↔ ∃ task, b'.flushes[f]? = some task ∧ task.tracked = true

/-- Telling the observer changes nothing else. -/
theorem foldl_observe (reasons : List FlushReason) (b : DynamicBatcher) :
    ∃ observer, reasons.foldl (fun b reason => b.observe (.completed reason .cancelled)) b =
      { b with observer } := by
  induction reasons generalizing b with
  | nil => exact ⟨b.observer, rfl⟩
  | cons reason reasons ih =>
    obtain ⟨observer, heq⟩ := ih (b.observe (.completed reason .cancelled))
    exact ⟨observer, heq⟩

theorem Closing.good (h : Closing b)
    (hshut : ∀ task ∈ b.flushes, task.state = .finished ∨ task.cancelRequested = true)
    (observer : Option (List BatchObservation)) : Good { b with observer } where
  maxSize := h.maxSize
  groups := h.groups.congr rfl rfl rfl (fun _ => rfl) (fun _ => .rfl)
    (fun _ timer htimer => ⟨timer, htimer, rfl, fun _ => rfl⟩) rfl
  small key bt batch hget := by
    have hmem : key ∈ b.groups.keys := Dict.mem_keys.mpr ⟨bt, hget⟩
    rw [h.empty] at hmem
    exact nomatch hmem
  flushes := h.flushes.of_same rfl rfl rfl rfl rfl
  items := h.items.of_same rfl rfl rfl
  closed _ := h.empty
  shut _ := hshut

/-- The section of `shutdown` keeps the invariant and raises no error of broken
    bookkeeping. -/
theorem Good.shutdownLocked (h : Good b) (hopen : b.closed = false) :
    ∃ timerTasks flushTasks b', b.shutdownLocked = .ok ((timerTasks, flushTasks), b') ∧
      Shut b timerTasks flushTasks b' := by
  obtain ⟨is, hcloses, hmem, hcount⟩ := h.closeBatches
  obtain ⟨hclosing, hevolves⟩ := h.closing hcloses hmem hcount
  unfold DynamicBatcher.shutdownLocked
  generalize DynamicBatcher.closeBatches b.groups.values
    { b with closed := true, groups := .empty } = b₁ at hcloses hclosing hevolves ⊢
  -- an open batcher has cancelled no flush task
  have huncancelled : ∀ f ∈ trackedIds (·.tracked) b₁.flushes, ∀ task : FlushTask,
      b₁.flushes[f]? = some task → task.cancelRequested = false := by
    intro f _ task htask
    refine Bool.eq_false_iff.mpr fun hc => ?_
    have hsound := h.flushes.sound task (List.mem_of_getElem? (hcloses.flushes ▸ htask))
    exact nomatch hopen.symm.trans (hsound.cancelled hc)
  obtain ⟨reasons, b₂, hok, hcancelled⟩ := cancelFlushes_ok hclosing trackedIds_nodup huncancelled
  obtain ⟨observer, hobserver⟩ := foldl_observe reasons b₂.notifyState
  have hshut : ∀ task ∈ b₂.flushes, task.state = .finished ∨ task.cancelRequested = true := by
    intro task htask
    obtain ⟨f, hf⟩ := List.mem_iff_getElem?.mp htask
    rw [hcancelled.flush] at hf
    split at hf
    · obtain ⟨task₁, -, rfl⟩ := Option.map_eq_some_iff.mp hf
      exact flushCancel_done
    · next hout =>
      -- a task that is not tracked has finished
      refine .inl ((hclosing.flushes.sound task (List.mem_of_getElem? hf)).tracked ?_)
      refine Bool.eq_false_iff.mpr fun ht => hout ?_
      exact mem_trackedIds.mpr ⟨task, hf, ht⟩
  simp only [hok, hobserver]
  refine ⟨_, _, _, rfl, hcancelled.closing.good hshut observer,
    (hevolves.trans hcancelled.evolves).trans (.of_same rfl rfl rfl),
    fun i hst => hcloses.keepsCancelled i (hcancelled.keeps i hst), hcancelled.closing.closed, ?_,
    fun t timer htimer => ?_, ?_, fun t => mem_trackedIds, fun f => ?_⟩
  · exact hcancelled.length.trans hcloses.length
  · rw [show ({ b₂.notifyState with observer } : DynamicBatcher).timers = b₁.timers from
      hcancelled.timers]
    exact hcloses.timer t timer htimer
  · exact (congrArg List.length hcancelled.timers).trans hcloses.timers
  · have hflush : ({ b₂.notifyState with observer } : DynamicBatcher).flushes[f]? = _ :=
      hcancelled.flush f
    rw [hflush]
    by_cases hf : f ∈ trackedIds (·.tracked) b₁.flushes
    · obtain ⟨task, htask, ht⟩ := mem_trackedIds.mp hf
      simp [hf, htask, ht]
    · rw [if_neg hf]
      exact mem_trackedIds

end Shutdown

end Gateway.DynamicBatcher
