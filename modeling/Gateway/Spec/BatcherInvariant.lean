import Gateway.Model.DynamicBatcher

/-!
# The invariant of the dynamic batcher

`Good b` is what holds of the batcher between any two of its sections. It has one part
for the pending batches and their timers, one for the detached batches and one for the
values of the items' futures. Each part reads the items only through their key and
their state, so a section that settles items has to be checked against the states it
changes.

## Key results

- `Good`: the invariant
- `GroupsGood.congr`, `FlushesGood.congr`, `ItemsGood.congr`: what its parts depend on
-/

namespace Gateway

/-- The task will run, or is waiting, and nobody has cancelled it. -/
def TimerTask.alive (t : TimerTask) : Bool := !t.cancelRequested && t.state ≠ .finished

/-- The operation is completed: its task has finished, or was cancelled before it ran. -/
def FlushTask.ended (t : FlushTask) : Bool :=
  t.state = .finished || (t.cancelRequested && !t.started)

/-- The exception a batch of `size` members fails with; `none` if it succeeds. -/
def BatchAnswer.failure (size : Nat) : BatchAnswer → Option BatchError
  | .result r => if r.responses.length ≠ size then some (.backend .protocol) else none
  | .foreign => some (.backend .protocol)
  | .raised e => some (.backend e)
  | .cancelled => some .unavailable

/-- The response the batch has for its member at a position. -/
def BatchAnswer.response? (j : Nat) : BatchAnswer → Option Response
  | .result r => r.responses[j]?
  | _ => none

namespace DynamicBatcher

/-! ## Readings -/

/-- The state of an item. -/
def stateOf (b : DynamicBatcher) (i : ItemId) : Option ItemState := b.items[i]?.map (·.state)

/-- The key of an item. -/
def keyOf (b : DynamicBatcher) (i : ItemId) : Option String := b.items[i]?.map (·.key)

section Readings

variable {b : DynamicBatcher} {i : ItemId} {item : BatchItem}

theorem stateOf_of (h : b.items[i]? = some item) : b.stateOf i = some item.state := by
  simp [stateOf, h]

theorem keyOf_of (h : b.items[i]? = some item) : b.keyOf i = some item.key := by
  simp [keyOf, h]

theorem stateOf_eq_some {st : ItemState} :
    b.stateOf i = some st ↔ ∃ item, b.items[i]? = some item ∧ item.state = st := by
  simp [stateOf]

theorem keyOf_eq_some {key : String} :
    b.keyOf i = some key ↔ ∃ item, b.items[i]? = some item ∧ item.key = key := by
  simp [keyOf]

theorem keyOf_of_stateOf {st : ItemState} (h : b.stateOf i = some st) : ∃ key, b.keyOf i = some key := by
  obtain ⟨item, hitem, -⟩ := stateOf_eq_some.mp h
  exact ⟨item.key, keyOf_of hitem⟩

theorem lt_of_stateOf {st : ItemState} (h : b.stateOf i = some st) : i < b.items.length := by
  obtain ⟨item, hitem, -⟩ := stateOf_eq_some.mp h
  exact (List.getElem?_eq_some_iff.mp hitem).1

end Readings

/-- How an item came to a response: its batch was answered with one for each member. -/
def Served (b : DynamicBatcher) (i : ItemId) (response : Response) : Prop :=
  ∃ task ∈ b.flushes, ∃ answer j, task.answer = some answer ∧
    answer.failure task.items.length = none ∧ task.items[j]? = some i ∧
    answer.response? j = some response

/-- How an item came to an exception: its batch failed with it, or the shutdown failed
    the item before its batch had started. -/
def Failed (b : DynamicBatcher) (i : ItemId) (e : BatchError) : Prop :=
  (∃ task ∈ b.flushes, ∃ answer, i ∈ task.items ∧ task.answer = some answer ∧
    answer.failure task.items.length = some e) ∨
  b.closed = true ∧ e = .unavailable ∧
    ∀ task ∈ b.flushes, i ∈ task.items → task.started = false ∧ task.ended = true

/-! ## The invariant -/

/-- The pending items are in the pending batches of their keys, and every pending batch
    has a timer of its own. -/
structure GroupsGood (b : DynamicBatcher) : Prop where
  batch : ∀ key bt, b.groups.get? key = some bt → ∃ batch, b.batches[bt]? = some batch ∧
    batch.key = key ∧ batch.items ≠ [] ∧ batch.items.Pairwise (· < ·) ∧
    ∃ t timer, batch.timerTask = some t ∧ b.timers[t]? = some timer ∧ timer.batch = bt ∧
      timer.alive = true
  member : ∀ key bt (batch : PendingBatch), b.groups.get? key = some bt →
    b.batches[bt]? = some batch → ∀ i ∈ batch.items,
      b.stateOf i = some .pending ∧ b.keyOf i = some key
  pending : ∀ i key, b.stateOf i = some .pending → b.keyOf i = some key →
    ∃ bt batch, b.groups.get? key = some bt ∧ b.batches[bt]? = some batch ∧ i ∈ batch.items
  count : b.pending = b.groups.sum fun bt => b.batchSize bt
  timer : ∀ (t : TimerId) (timer : TimerTask), b.timers[t]? = some timer → ∃ batch : PendingBatch,
    b.batches[timer.batch]? = some batch ∧ batch.timerTask = some t

/-- Between two sections no pending batch is full. -/
def GroupsSmall (b : DynamicBatcher) : Prop :=
  ∀ key bt (batch : PendingBatch), b.groups.get? key = some bt → b.batches[bt]? = some batch →
    batch.items.length < b.maxSize

/-- A flush task is in a state its function can be in. -/
structure FlushTask.Sound (task : FlushTask) (closed : Bool) : Prop where
  created : task.state = .created → task.started = false
  awaiting : task.state = .awaiting → task.started = true
  finished : task.state = .finished →
    task.started = true ∧ task.answer.isSome = true ∨
      task.started = false ∧ task.cancelRequested = true
  answered : task.state ≠ .finished ∨ task.started = false → task.answer = none
  tracked : task.tracked = false → task.state = .finished
  cancelled : task.cancelRequested = true → closed = true

/-- The detached batches have different items, none of them pending; the dispatched
    items are those of the operations that are not completed. -/
structure FlushesGood (b : DynamicBatcher) : Prop where
  sound : ∀ task ∈ b.flushes, FlushTask.Sound task b.closed
  size : ∀ task ∈ b.flushes, 1 ≤ task.items.length ∧ task.items.length ≤ b.maxSize ∧
    (task.flushReason = .size ↔ task.items.length = b.maxSize)
  sorted : ∀ task ∈ b.flushes, task.items.Pairwise (· < ·)
  distinct : (b.flushes.map (·.items)).flatten.Nodup
  member : ∀ task ∈ b.flushes, ∃ key, ∀ i ∈ task.items, b.keyOf i = some key ∧
    b.stateOf i ≠ some .pending
  running : ∀ task ∈ b.flushes, task.ended = false → ∀ i ∈ task.items,
    b.stateOf i = some .dispatched ∨ b.stateOf i = some .cancelled
  dispatched : ∀ i, b.stateOf i = some .dispatched →
    ∃ task ∈ b.flushes, i ∈ task.items ∧ task.ended = false
  count : b.inflight = b.flushes.countP fun task => !task.ended
  order : (b.flushes.map (·.items)).Pairwise fun is js => ∀ i ∈ is, ∀ j ∈ js,
    b.keyOf i = b.keyOf j → i < j
  earlier : ∀ task ∈ b.flushes, ∀ i ∈ task.items, ∀ j, b.stateOf j = some .pending →
    b.keyOf i = b.keyOf j → i < j

/-- The future of an item has a value when the item is completed or cancelled, and the
    value is what its batch or the shutdown made it. -/
structure ItemsGood (b : DynamicBatcher) : Prop where
  keyed : ∀ (i : ItemId) (item : BatchItem), b.items[i]? = some item →
    item.key = compatibilityKey item.tenantId item.request
  future : ∀ (i : ItemId) (item : BatchItem), b.items[i]? = some item →
    (item.future.done = true ↔ item.state = .completed ∨ item.state = .cancelled)
  cancelled : ∀ (i : ItemId) (item : BatchItem), b.items[i]? = some item →
    (item.state = .cancelled ↔ item.future = .cancelled)
  result : ∀ (i : ItemId) (item : BatchItem) (response : Response), b.items[i]? = some item →
    item.future = .result response → b.Served i response
  exception : ∀ (i : ItemId) (item : BatchItem) (e : BatchError), b.items[i]? = some item →
    item.future = .exception e → b.Failed i e

/-- The invariant. -/
structure Good (b : DynamicBatcher) : Prop where
  maxSize : 2 ≤ b.maxSize
  groups : GroupsGood b
  small : GroupsSmall b
  flushes : FlushesGood b
  items : ItemsGood b
  closed : b.closed = true → b.groups.keys = []
  shut : b.closed = true → ∀ task ∈ b.flushes, task.state = .finished ∨ task.cancelRequested = true

/-! ## What the parts depend on -/

section Congruences

variable {b b' : DynamicBatcher}

theorem GroupsGood.congr (h : GroupsGood b) (hgroups : b'.groups = b.groups)
    (hbatches : b'.batches = b.batches) (hpending : b'.pending = b.pending)
    (hkeys : ∀ i, b'.keyOf i = b.keyOf i)
    (hstates : ∀ i, b'.stateOf i = some .pending ↔ b.stateOf i = some .pending)
    (htimers : ∀ (t : TimerId) (timer : TimerTask), b.timers[t]? = some timer → ∃ timer' : TimerTask,
      b'.timers[t]? = some timer' ∧ timer'.batch = timer.batch ∧
        ((∃ key, b.groups.get? key = some timer.batch) → timer'.alive = timer.alive))
    (hlength : b'.timers.length = b.timers.length) : GroupsGood b' where
  batch key bt hget := by
    rw [hgroups] at hget
    obtain ⟨batch, hbatch, hkey, hne, hsorted, t, timer, ht, htimer, hbt, halive⟩ :=
      h.batch key bt hget
    obtain ⟨timer', htimer', hbt', halive'⟩ := htimers t timer htimer
    refine ⟨batch, hbatches ▸ hbatch, hkey, hne, hsorted, t, timer', ht, htimer', hbt'.trans hbt, ?_⟩
    rw [halive' ⟨key, hbt ▸ hget⟩]
    exact halive
  member key bt batch hget hbatch i hi := by
    rw [hkeys, hstates]
    exact h.member key bt batch (hgroups ▸ hget) (hbatches ▸ hbatch) i hi
  pending i key hst hk := by
    rw [hgroups, hbatches]
    exact h.pending i key ((hstates i).mp hst) ((hkeys i).symm.trans hk)
  count := by
    rw [hpending, hgroups, h.count]
    refine Dict.sum_congr fun key bt _ => ?_
    unfold batchSize
    rw [hbatches]
  timer t timer' htimer' := by
    have ht : t < b.timers.length := hlength ▸ (List.getElem?_eq_some_iff.mp htimer').1
    obtain ⟨timer'', htimer'', hbt, -⟩ := htimers t _ (List.getElem?_eq_getElem ht)
    obtain rfl := Option.some.inj (htimer'.symm.trans htimer'')
    rw [hbt, hbatches]
    exact h.timer t _ (List.getElem?_eq_getElem ht)

theorem FlushesGood.congr (h : FlushesGood b) (hflushes : b'.flushes = b.flushes)
    (hmax : b'.maxSize = b.maxSize) (hinflight : b'.inflight = b.inflight)
    (hclosed : b.closed = true → b'.closed = true)
    (hkeys : ∀ i key, b.keyOf i = some key → b'.keyOf i = some key)
    (hpending : ∀ i, b'.stateOf i = some .pending → b.stateOf i = some .pending ∨
      ∀ task ∈ b.flushes, ∀ j ∈ task.items, j < i)
    (hrunning : ∀ i, b.stateOf i = some .dispatched →
      b'.stateOf i = some .dispatched ∨ b'.stateOf i = some .cancelled)
    (hcancelled : ∀ i, b.stateOf i = some .cancelled → b'.stateOf i = some .cancelled)
    (hdispatched : ∀ i, b'.stateOf i = some .dispatched → b.stateOf i = some .dispatched) :
    FlushesGood b' := by
  have hkey : ∀ task ∈ b.flushes, ∀ i ∈ task.items, b'.keyOf i = b.keyOf i := by
    intro task htask i hi
    obtain ⟨key, hk⟩ := h.member task htask
    rw [(hk i hi).1]
    exact hkeys i key (hk i hi).1
  constructor
  case sound =>
    rw [hflushes]
    intro task htask
    have hsound := h.sound task htask
    exact { hsound with cancelled := fun hc => hclosed (hsound.cancelled hc) }
  case size => rw [hflushes, hmax]; exact h.size
  case sorted => rw [hflushes]; exact h.sorted
  case distinct => rw [hflushes]; exact h.distinct
  case member =>
    rw [hflushes]
    intro task htask
    obtain ⟨key, hk⟩ := h.member task htask
    refine ⟨key, fun i hi => ⟨hkeys i key (hk i hi).1, fun hst => ?_⟩⟩
    rcases hpending i hst with hold | hlt
    · exact (hk i hi).2 hold
    · exact Nat.lt_irrefl i (hlt task htask i hi)
  case running =>
    rw [hflushes]
    intro task htask hover i hi
    rcases h.running task htask hover i hi with hst | hst
    · exact hrunning i hst
    · exact .inr (hcancelled i hst)
  case dispatched =>
    rw [hflushes]
    exact fun i hst => h.dispatched i (hdispatched i hst)
  case count => rw [hflushes, hinflight, h.count]
  case order =>
    rw [hflushes]
    refine h.order.imp_of_mem fun {is js} his hjs hlt i hi j hj => ?_
    obtain ⟨task, htask, rfl⟩ := List.mem_map.mp his
    obtain ⟨task', htask', rfl⟩ := List.mem_map.mp hjs
    rw [hkey task htask i hi, hkey task' htask' j hj]
    exact hlt i hi j hj
  case earlier =>
    rw [hflushes]
    intro task htask i hi j hst heq
    rcases hpending j hst with hold | hlt
    · refine h.earlier task htask i hi j hold ?_
      obtain ⟨key, hk⟩ := keyOf_of_stateOf hold
      rw [← hkey task htask i hi, heq, hk]
      exact hkeys j key hk
    · exact hlt task htask i hi

theorem Served.mono {i : ItemId} {response : Response} (h : b.Served i response)
    (hflushes : ∀ task ∈ b.flushes, task.answer.isSome = true → ∃ task' ∈ b'.flushes,
      task'.items = task.items ∧ task'.answer = task.answer) : b'.Served i response := by
  obtain ⟨task, htask, answer, j, ha, hfail, hj, hr⟩ := h
  obtain ⟨task', htask', hitems, ha'⟩ := hflushes task htask (by simp [ha])
  exact ⟨task', htask', answer, j, ha'.trans ha, hitems ▸ hfail, hitems ▸ hj, hr⟩

theorem Failed.mono {i : ItemId} {e : BatchError} (h : b.Failed i e)
    (hflushes : ∀ task ∈ b.flushes, task.answer.isSome = true → ∃ task' ∈ b'.flushes,
      task'.items = task.items ∧ task'.answer = task.answer)
    (hclosed : b.closed = true → b'.closed = true)
    (hback : b.closed = true → ∀ task' ∈ b'.flushes, i ∈ task'.items → ∃ task ∈ b.flushes,
      i ∈ task.items ∧
        (task.started = false ∧ task.ended = true → task'.started = false ∧ task'.ended = true)) :
    b'.Failed i e := by
  rcases h with ⟨task, htask, answer, hi, ha, hfail⟩ | ⟨hc, he, hall⟩
  · obtain ⟨task', htask', hitems, ha'⟩ := hflushes task htask (by simp [ha])
    exact .inl ⟨task', htask', answer, hitems ▸ hi, ha'.trans ha, hitems ▸ hfail⟩
  · refine .inr ⟨hclosed hc, he, fun task' htask' hi => ?_⟩
    obtain ⟨task, htask, hmem, himp⟩ := hback hc task' htask' hi
    exact himp (hall task htask hmem)

theorem FlushesGood.of_same (h : FlushesGood b) (hitems : b'.items = b.items)
    (hflushes : b'.flushes = b.flushes) (hmax : b'.maxSize = b.maxSize)
    (hinflight : b'.inflight = b.inflight) (hclosed : b'.closed = b.closed) : FlushesGood b' := by
  have hstates : ∀ i, b'.stateOf i = b.stateOf i := fun i => by unfold stateOf; rw [hitems]
  have hkeys : ∀ i, b'.keyOf i = b.keyOf i := fun i => by unfold keyOf; rw [hitems]
  refine h.congr hflushes hmax hinflight hclosed.trans (fun i _ hk => (hkeys i).trans hk) (fun i hst => ?_)
    (fun i hst => .inl ((hstates i).trans hst)) (fun i hst => (hstates i).trans hst)
    fun i hst => (hstates i).symm.trans hst
  exact .inl ((hstates i).symm.trans hst)

theorem ItemsGood.of_same (h : ItemsGood b) (hitems : b'.items = b.items)
    (hflushes : b'.flushes = b.flushes) (hclosed : b'.closed = b.closed) : ItemsGood b' := by
  constructor
  case keyed => rw [hitems]; exact h.keyed
  case future => rw [hitems]; exact h.future
  case cancelled => rw [hitems]; exact h.cancelled
  case result =>
    unfold Served
    rw [hitems, hflushes]
    exact h.result
  case exception =>
    unfold Failed
    rw [hitems, hflushes, hclosed]
    exact h.exception

end Congruences

/-! ## Later states -/

/-- What a later state keeps of an earlier one: the requests, the values of futures, the
    members of detached batches; and no item is pending, or is detached, that was settled
    or detached before. -/
structure Evolves (b b' : DynamicBatcher) : Prop where
  closed : b.closed = true → b'.closed = true
  item : ∀ (i : ItemId) (item : BatchItem), b.items[i]? = some item → ∃ item' : BatchItem,
    b'.items[i]? = some item' ∧ item'.tenantId = item.tenantId ∧ item'.request = item.request ∧
      (item.future.done = true → item' = item)
  pending : ∀ i, b'.stateOf i = some .pending → b.stateOf i = some .pending ∨ b.items.length ≤ i
  task : ∀ (f : FlushId) (task : FlushTask), b.flushes[f]? = some task → ∃ task' : FlushTask,
    b'.flushes[f]? = some task' ∧ task'.items = task.items ∧
      (task.started = true → task'.started = true)
  detached : ∀ (f : FlushId) (task' : FlushTask), b'.flushes[f]? = some task' →
    f < b.flushes.length ∨
      ∀ i ∈ task'.items, b.stateOf i = some .pending ∨ b.items.length ≤ i

section Evolves

variable {b b' b'' : DynamicBatcher}

theorem Evolves.length (h : Evolves b b') : b.items.length ≤ b'.items.length := by
  rcases Nat.eq_zero_or_pos b.items.length with hzero | hpos
  · omega
  · have hlast : b.items.length - 1 < b.items.length := by omega
    obtain ⟨item', hitem', -⟩ := h.item _ _ (List.getElem?_eq_getElem hlast)
    have hlt := (List.getElem?_eq_some_iff.mp hitem').1
    omega

theorem Evolves.refl (b : DynamicBatcher) : Evolves b b where
  closed := id
  item _ item hitem := ⟨item, hitem, rfl, rfl, fun _ => rfl⟩
  pending _ := .inl
  task _ task htask := ⟨task, htask, rfl, id⟩
  detached _ _ htask := .inl (List.getElem?_eq_some_iff.mp htask).1

theorem Evolves.trans (h : Evolves b b') (h' : Evolves b' b'') : Evolves b b'' where
  closed hc := h'.closed (h.closed hc)
  item i item hitem := by
    obtain ⟨item', hitem', htenant, hrequest, hkeep⟩ := h.item i item hitem
    obtain ⟨item'', hitem'', htenant', hrequest', hkeep'⟩ := h'.item i item' hitem'
    refine ⟨item'', hitem'', htenant'.trans htenant, hrequest'.trans hrequest, fun hdone => ?_⟩
    obtain rfl := hkeep hdone
    exact hkeep' hdone
  pending i hst := by
    rcases h'.pending i hst with hst' | hlt
    · exact h.pending i hst'
    · exact .inr (Nat.le_trans h.length hlt)
  task f task htask := by
    obtain ⟨task', htask', hitems, hstarted⟩ := h.task f task htask
    obtain ⟨task'', htask'', hitems', hstarted'⟩ := h'.task f task' htask'
    exact ⟨task'', htask'', hitems'.trans hitems, fun hs => hstarted' (hstarted hs)⟩
  detached f task'' htask'' := by
    rcases h'.detached f task'' htask'' with hlt | hnew
    · -- the task was there in between, with the same items
      obtain ⟨task₁, htask₁, hitems, -⟩ := h'.task f _ (List.getElem?_eq_getElem hlt)
      obtain rfl := Option.some.inj (htask''.symm.trans htask₁)
      rw [hitems]
      exact h.detached f _ (List.getElem?_eq_getElem hlt)
    · refine .inr fun i hi => ?_
      rcases hnew i hi with hst | hle
      · exact h.pending i hst
      · exact .inr (Nat.le_trans h.length hle)

/-- A section that touches neither the items nor the detached batches. -/
theorem Evolves.of_same (hitems : b'.items = b.items) (hflushes : b'.flushes = b.flushes)
    (hclosed : b'.closed = b.closed) : Evolves b b' where
  closed hc := hclosed.trans hc
  item _ item hitem := ⟨item, hitems ▸ hitem, rfl, rfl, fun _ => rfl⟩
  pending i hst := by
    unfold stateOf at hst ⊢
    exact .inl (hitems ▸ hst)
  task _ task htask := ⟨task, hflushes ▸ htask, rfl, id⟩
  detached _ _ htask := .inl (List.getElem?_eq_some_iff.mp (hflushes ▸ htask)).1

/-- No item is cancelled. -/
def KeepsCancelled (b b' : DynamicBatcher) : Prop :=
  ∀ i, b'.stateOf i = some .cancelled → b.stateOf i = some .cancelled

/-- Tasks are created by an open batcher only, and those that have finished stay so. -/
structure KeepsTasks (b b' : DynamicBatcher) : Prop where
  closed : b'.closed = b.closed
  timer : ∀ (t : TimerId) (timer' : TimerTask), b'.timers[t]? = some timer' →
    b.closed = false ∧ (timer'.tracked = false → timer'.state = .finished) ∨
      ∃ timer : TimerTask, b.timers[t]? = some timer ∧
        (timer.state = .finished → timer'.state = .finished) ∧
        (timer'.tracked = false → timer.tracked = false ∨ timer'.state = .finished)
  flush : ∀ (f : FlushId) (task' : FlushTask), b'.flushes[f]? = some task' →
    b.closed = false ∨ ∃ task : FlushTask, b.flushes[f]? = some task ∧
      (task.state = .finished → task'.state = .finished)

theorem KeepsTasks.trans (h : KeepsTasks b b') (h' : KeepsTasks b' b'') : KeepsTasks b b'' where
  closed := h'.closed.trans h.closed
  timer t timer'' htimer'' := by
    rcases h'.timer t timer'' htimer'' with ⟨hopen, ht⟩ | ⟨timer', htimer', hst', htracked'⟩
    · exact .inl ⟨h.closed.symm.trans hopen, ht⟩
    rcases h.timer t timer' htimer' with ⟨hopen, ht⟩ | ⟨timer, htimer, hst, htracked⟩
    · refine .inl ⟨hopen, fun hun => ?_⟩
      rcases htracked' hun with hun' | hfin
      · exact hst' (ht hun')
      · exact hfin
    · refine .inr ⟨timer, htimer, fun hfin => hst' (hst hfin), fun ht => ?_⟩
      rcases htracked' ht with ht' | hfin
      · rcases htracked ht' with ht | hfin
        · exact .inl ht
        · exact .inr (hst' hfin)
      · exact .inr hfin
  flush f task'' htask'' := by
    rcases h'.flush f task'' htask'' with hopen | ⟨task', htask', hst'⟩
    · exact .inl (h.closed.symm.trans hopen)
    rcases h.flush f task' htask' with hopen | ⟨task, htask, hst⟩
    · exact .inl hopen
    · exact .inr ⟨task, htask, fun hfin => hst' (hst hfin)⟩

theorem KeepsTasks.of_same (hclosed : b'.closed = b.closed) (htimers : b'.timers = b.timers)
    (hflushes : b'.flushes = b.flushes) : KeepsTasks b b' where
  closed := hclosed
  timer _ timer' htimer := .inr ⟨timer', htimers ▸ htimer, id, .inl⟩
  flush _ task' htask := .inr ⟨task', hflushes ▸ htask, id⟩

end Evolves

end DynamicBatcher

end Gateway
