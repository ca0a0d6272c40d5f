import Gateway.Spec.BatcherSystem

/-!
# Resolution of submitted requests

What a client of the batcher may rely on, over whole runs: the structure the batcher
keeps between its steps, and that every accepted request is resolved once and is in one
call of `generate_batch` at most.

## Key results

- `structured`: the structure of the batcher
- `resolved_once`: the fate of every accepted request
-/

namespace Gateway.BatcherSystem

open DynamicBatcher

variable {s s' : BatcherSystem} {b : DynamicBatcher} {i : ItemId} {t : TimerId} {f : FlushId}

/-! ## A run -/

/-- A request with nothing set. -/
def plainRequest : ChatCompletionRequest where
  model := "m"
  messages := []
  temperature := none
  topP := none
  maxTokens := none
  stop := none
  seed := none
  n := none
  stream := none
  streamOptions := none
  n_pos := by simp
  options_streaming := by simp

/-- A system with a batcher of two. -/
def pairSystem : BatcherSystem where
  batcher :=
    { maxSize := 2, groups := .empty, pending := 0, inflight := 0, closed := false
      observer := none, items := [], batches := [], timers := [], flushes := [] }
  submits := []
  shutdownLock := .new
  shutdowns := []
  calls := []

theorem pairSystem_init : Init pairSystem := ⟨rfl, rfl, rfl, rfl, 2, 1, false, rfl⟩

/-- Two tenants submit; one batch is full and is answered, the other is waiting, and a
    member cancels. -/
def pairRun : List BatcherAction :=
  [.submit "a" plainRequest 0 0, .submit "b" plainRequest 0 0, .timer 1 0,
   .submit "a" plainRequest 1 1, .flush 0, .cancel 0, .resume 0,
   .answer 0 (.result ⟨[[], [("id", .null)]], none, .missing⟩), .resume 2]

/-! ## The structure of the batcher -/

/-- A timer task of a pending batch that is neither cancelled nor finished. -/
def LiveTimer (b : DynamicBatcher) (bt : BatchId) (t : TimerId) : Prop :=
  ∃ timer : TimerTask, b.timers[t]? = some timer ∧ timer.batch = bt ∧
    timer.cancelRequested = false ∧ timer.state ≠ .finished

/-- The structure of the batcher between two steps. -/
structure Structured (b : DynamicBatcher) : Prop where
  pending : b.pending = b.groups.sum fun bt => b.batchSize bt
  group : ∀ key bt, b.groups.get? key = some bt → ∃ batch : PendingBatch,
    b.batches[bt]? = some batch ∧ batch.key = key ∧
      0 < batch.items.length ∧ batch.items.length < b.maxSize ∧
      batch.items.Pairwise (· < ·) ∧
      (∀ i ∈ batch.items, ∃ item : BatchItem, b.items[i]? = some item ∧ item.state = .pending ∧
        compatibilityKey item.tenantId item.request = key) ∧
      ∃ t, batch.timerTask = some t ∧ ∀ t', LiveTimer b bt t' ↔ t' = t
  inflight : b.inflight = b.flushes.countP fun task => !task.ended
  flush : ∀ task ∈ b.flushes, 1 ≤ task.items.length ∧ task.items.length ≤ b.maxSize ∧
    (task.flushReason = .size ↔ task.items.length = b.maxSize) ∧ task.items.Pairwise (· < ·)
  order : ∀ (f f' : FlushId) (task task' : FlushTask), f < f' → b.flushes[f]? = some task →
    b.flushes[f']? = some task' → ∀ i ∈ task.items, ∀ j ∈ task'.items,
      b.keyOf i = b.keyOf j → i < j

/-- A timer task detaches nothing, or the pending batch it was created for. -/
def DetachesOwn (b : DynamicBatcher) (t : TimerId) (b' : DynamicBatcher) : Prop :=
  b'.flushes = b.flushes ∧ b'.groups = b.groups ∨
    ∃ (timer : TimerTask) (batch : PendingBatch) (task : FlushTask), b.timers[t]? = some timer ∧
      b.batches[timer.batch]? = some batch ∧ batch.timerTask = some t ∧
      b.groups.get? batch.key = some timer.batch ∧ b'.groups = b.groups.erase batch.key ∧
      b'.flushes = b.flushes ++ [task] ∧ task.items = batch.items ∧ task.flushReason = .timeout

theorem Good.isStructured (h : Good b) : Structured b where
  pending := h.groups.count
  group key bt hget := by
    obtain ⟨batch, hbatch, hkey, hne, hsorted, t, timer, ht, htimer, hbt, halive⟩ :=
      h.groups.batch key bt hget
    refine ⟨batch, hbatch, hkey, List.length_pos_of_ne_nil hne, h.small key bt batch hget hbatch,
      hsorted, fun i hi => ?_, t, ht, fun t' => ⟨?_, ?_⟩⟩
    · obtain ⟨hst, hk⟩ := h.groups.member key bt batch hget hbatch i hi
      obtain ⟨item, hitem, hst⟩ := stateOf_eq_some.mp hst
      obtain ⟨item', hitem', hk⟩ := keyOf_eq_some.mp hk
      obtain rfl := Option.some.inj (hitem.symm.trans hitem')
      exact ⟨item, hitem, hst, (h.items.keyed i item hitem).symm.trans hk⟩
    · rintro ⟨timer', htimer', hbt', -⟩
      -- every timer made for the batch is the timer of the batch
      obtain ⟨batch', hbatch', ht'⟩ := h.groups.timer t' timer' htimer'
      rw [hbt'] at hbatch'
      obtain rfl := Option.some.inj (hbatch.symm.trans hbatch')
      exact Option.some.inj (ht'.symm.trans ht)
    · rintro rfl
      simp only [TimerTask.alive, Bool.and_eq_true, Bool.not_eq_true', decide_eq_true_eq] at halive
      exact ⟨timer, htimer, hbt, halive⟩
  inflight := h.flushes.count
  flush task htask := by
    obtain ⟨hpos, hle, hreason⟩ := h.flushes.size task htask
    exact ⟨hpos, hle, hreason, h.flushes.sorted task htask⟩
  order f f' task task' hlt hf hf' := by
    have hpairwise := List.pairwise_map.mp h.flushes.order
    obtain ⟨hlt₁, rfl⟩ := List.getElem?_eq_some_iff.mp hf
    obtain ⟨hlt₂, rfl⟩ := List.getElem?_eq_some_iff.mp hf'
    exact List.pairwise_iff_getElem.mp hpairwise f f' hlt₁ hlt₂ hlt

theorem SystemGood.detachesOwn (h : SystemGood s) {now : Int}
    (hstep : s.step (.timer t now) = .ok s') : DetachesOwn s.batcher t s'.batcher := by
  cases htimer : s.batcher.timers[t]? with
  | none => simp [step, htimer] at hstep
  | some timer =>
    simp only [step, htimer] at hstep
    split at hstep
    · cases hstep
    · obtain rfl := Except.ok.inj hstep
      exact .inl ⟨rfl, rfl⟩
    · obtain ⟨b₁, hok, -, -, hdetached⟩ := h.batcher.timerExpired htimer now
      rw [hok] at hstep
      obtain rfl := Except.ok.inj hstep
      rcases hdetached with ⟨rfl, -⟩ | ⟨batch, dispatched, hbatch, hget, rfl, -⟩
      · exact .inl ⟨rfl, rfl⟩
      · obtain ⟨batch', hbatch', ht⟩ := h.batcher.groups.timer t timer htimer
        obtain rfl := Option.some.inj (hbatch.symm.trans hbatch')
        have hgroups : (s.batcher.detach batch dispatched .timeout (some t) now).groups =
            s.batcher.groups.erase batch.key := detach_groups
        exact .inr ⟨timer, batch, _, htimer, hbatch, ht, hget, hgroups, detach_flushes, rfl, rfl⟩
    · obtain rfl := Except.ok.inj hstep
      exact .inl ⟨rfl, rfl⟩

/-- The batcher keeps its structure in every reachable state; a timer never detaches a
    batch that is not its own, and no error of broken bookkeeping is raised. -/
theorem structured (h : lts.Reachable s) : Structured s.batcher ∧
    (∀ t now s', s.step (.timer t now) = .ok s' → DetachesOwn s.batcher t s'.batcher) ∧
    ∀ a fault, s.step a ≠ .error (.fault fault) := by
  have hgood := systemGood_inductive.holds h
  refine ⟨Good.isStructured hgood.batcher, fun t now s' => hgood.detachesOwn, fun a fault hfault => ?_⟩
  rcases hgood.step_ok a with ⟨s', hok, -⟩ | hdisabled
  · exact nomatch hfault.symm.trans hok
  · exact nomatch hfault.symm.trans hdisabled

theorem structured_pairRun : ∃ s, Lts.exec step pairSystem pairRun = .ok s ∧
    (Structured s.batcher ∧
      (∀ t now s', s.step (.timer t now) = .ok s' → DetachesOwn s.batcher t s'.batcher) ∧
      ∀ a fault, s.step a ≠ .error (.fault fault)) ∧
    s.batcher.pending = 1 ∧ s.batcher.flushes.length = 1 :=
  ⟨_, rfl, structured (Lts.reachable_of_exec pairSystem_init (s := pairSystem) (l := pairRun) rfl),
    rfl, rfl⟩

/-! ## The fate of a request -/

/-- Why a `submit` ended as it did: its own response, the exception of the batch it was
    in or of the shutdown, or its own cancellation. -/
def Explained (b : DynamicBatcher) (i : ItemId) (call : SubmitCall) : SubmitOutcome → Prop
  | .returned response => b.Served i response
  | .raised e => b.Failed i e
  | .cancelled => call.cancelRequested = true

/-- Some task of the batcher has still to run that will settle the item. -/
def Waiting (b : DynamicBatcher) (i : ItemId) : Prop :=
  (∃ key bt batch t, b.groups.get? key = some bt ∧ b.batches[bt]? = some batch ∧
    i ∈ batch.items ∧ LiveTimer b bt t) ∨
  ∃ task ∈ b.flushes, i ∈ task.items ∧ task.state ≠ .finished ∧
    (task.started = true ∨ task.cancelRequested = false)

/-- What happens to the requests the batcher has accepted, now and in every later state. -/
structure Resolution (s : BatcherSystem) : Prop where
  outcome : ∀ (i : ItemId) (call : SubmitCall) outcome, s.submits[i]? = some call →
    call.outcome = some outcome → Explained s.batcher i call outcome
  oneBatch : ∀ (f f' : FlushId) (task task' : FlushTask) i, s.batcher.flushes[f]? = some task →
    s.batcher.flushes[f']? = some task' → i ∈ task.items → i ∈ task'.items → f = f'
  once : ∀ s', lts.Run s s' → ∀ (i : ItemId) (call : SubmitCall), s.submits[i]? = some call →
    call.outcome.isSome = true → s'.submits[i]? = some call
  settledOnce : ∀ s', lts.Run s s' → ∀ (i : ItemId) (item : BatchItem),
    s.batcher.items[i]? = some item → item.future.done = true → s'.batcher.items[i]? = some item
  accepted : s.submits.length = s.batcher.items.length
  unsettled : ∀ (i : ItemId) (item : BatchItem), s.batcher.items[i]? = some item →
    item.future.done = false → Waiting s.batcher i
  ends : ∀ (i : ItemId) (item : BatchItem) c, s.batcher.items[i]? = some item →
    item.future.done = true → s.submits[i]? = some ⟨c, none⟩ → ∃ s' outcome,
      s.step (.resume i) = .ok s' ∧ s'.submits[i]? = some ⟨c, some outcome⟩
  calledOnce : ∀ i, s.calls.flatten.count i ≤ 1
  neverCalled : ∀ s', lts.Run s s' → ∀ (i : ItemId) (item : BatchItem),
    s.batcher.items[i]? = some item → item.future.done = true →
      (∀ task ∈ s.batcher.flushes, i ∉ task.items) → ∀ is ∈ s'.calls, i ∉ is
  shutdown : .returned ∈ s.shutdowns →
    (∀ item ∈ s.batcher.items, item.future.done = true) ∧ s.batcher.pending = 0 ∧
      s.batcher.inflight = 0 ∧ ∀ task ∈ s.batcher.flushes, task.state = .finished

theorem later_of_run (hs : SystemGood s) (h : lts.Run s s') : SystemGood s' ∧ Later s s' := by
  induction h with
  | refl => exact ⟨hs, .refl s⟩
  | tail _ _ hstep ih =>
    obtain ⟨hgood, hlater⟩ := ih.1.next hstep
    exact ⟨hgood, ih.2.trans hlater⟩

/-- An item that is not settled waits for a timer or for its batch. -/
theorem Good.waiting (h : Good b) {item : BatchItem} (hitem : b.items[i]? = some item)
    (hdone : item.future.done = false) : Waiting b i := by
  have hopen : item.state = .pending ∨ item.state = .dispatched := by
    have hnot : ¬(item.state = .completed ∨ item.state = .cancelled) := by
      rw [← h.items.future i item hitem, hdone]
      nofun
    cases hst : item.state <;> simp [hst] at hnot ⊢
  rcases hopen with hst | hst
  · obtain ⟨bt, batch, hget, hbatch, hi⟩ :=
      h.groups.pending i item.key (hst ▸ stateOf_of hitem) (keyOf_of hitem)
    obtain ⟨batch', hbatch', -, -, -, -, -, t, -, hlive⟩ :=
      (Good.isStructured h).group item.key bt hget
    exact .inl ⟨item.key, bt, batch, t, hget, hbatch, hi, (hlive t).mpr rfl⟩
  · obtain ⟨task, htask, hi, hover⟩ := h.flushes.dispatched i (hst ▸ stateOf_of hitem)
    refine .inr ⟨task, htask, hi, ?_⟩
    simp only [FlushTask.ended, Bool.or_eq_false_iff, decide_eq_false_iff_not,
      Bool.and_eq_false_iff, Bool.not_eq_false'] at hover
    exact ⟨hover.1, hover.2.symm⟩

/-- A `submit` whose item is settled ends when its task resumes. -/
theorem submit_ends {item : BatchItem} {c : Bool}
    (hitem : s.batcher.items[i]? = some item) (hdone : item.future.done = true)
    (hcall : s.submits[i]? = some ⟨c, none⟩) : ∃ s' outcome,
      s.step (.resume i) = .ok s' ∧ s'.submits[i]? = some ⟨c, some outcome⟩ := by
  have hend : ∀ (b : DynamicBatcher) outcome,
      ({ s with batcher := b }.endSubmit i outcome).submits[i]? = some ⟨c, some outcome⟩ := by
    intro b outcome
    simp [endSubmit, hcall]
  simp only [step, hcall, resumeSubmit, hitem]
  cases c with
  | true => exact ⟨_, .cancelled, rfl, hend _ _⟩
  | false =>
    cases hfu : item.future with
    | pending => simp [hfu] at hdone
    | result response => exact ⟨_, .returned response, rfl, hend s.batcher _⟩
    | exception e => exact ⟨_, .raised e, rfl, hend s.batcher _⟩
    | cancelled => exact ⟨_, .cancelled, rfl, hend _ _⟩

/-- A settled item that is in no detached batch is in none later. -/
theorem Evolves.undetached {b' : DynamicBatcher} (h : Evolves b b') (hb : ItemsGood b)
    {item : BatchItem} (hitem : b.items[i]? = some item) (hdone : item.future.done = true)
    (hout : ∀ task ∈ b.flushes, i ∉ task.items) (task' : FlushTask) (htask' : task' ∈ b'.flushes) :
    i ∉ task'.items := by
  intro hi
  obtain ⟨f, hf⟩ := List.mem_iff_getElem?.mp htask'
  rcases h.detached f task' hf with hlt | hnew
  · obtain ⟨task₁, htask₁, hitems, -⟩ := h.task f _ (List.getElem?_eq_getElem hlt)
    obtain rfl := Option.some.inj (hf.symm.trans htask₁)
    exact hout _ (List.getElem_mem hlt) (hitems ▸ hi)
  · rcases hnew i hi with hst | hle
    · obtain ⟨item', hitem', hst⟩ := stateOf_eq_some.mp hst
      obtain rfl := Option.some.inj (hitem.symm.trans hitem')
      rcases (hb.future i item hitem).mp hdone with hst' | hst' <;> exact nomatch hst.symm.trans hst'
    · exact absurd (List.getElem?_eq_some_iff.mp hitem).1 (Nat.not_lt_of_le hle)

/-- When every task has finished, everything is settled. -/
theorem Good.settled (h : Good b) (hc : b.closed = true) (hfs : FlushesLeft b []) :
    (∀ item ∈ b.items, item.future.done = true) ∧ b.pending = 0 ∧ b.inflight = 0 ∧
      ∀ task ∈ b.flushes, task.state = .finished := by
  have hfinished : ∀ task ∈ b.flushes, task.state = .finished := by
    intro task htask
    obtain ⟨f, hf⟩ := List.mem_iff_getElem?.mp htask
    rcases hfs f task hf with hfin | hin
    · exact hfin
    · exact nomatch hin
  refine ⟨fun item hin => ?_, ?_, ?_, hfinished⟩
  · obtain ⟨i, hitem⟩ := List.mem_iff_getElem?.mp hin
    by_contra hdone
    rcases Good.waiting h hitem (Bool.not_eq_true _ ▸ hdone) with
      ⟨key, bt, batch, t, hget, -⟩ | ⟨task, htask, -, hst, -⟩
    · have hmem : key ∈ b.groups.keys := Dict.mem_keys.mpr ⟨bt, hget⟩
      rw [h.closed hc] at hmem
      exact nomatch hmem
    · exact hst (hfinished task htask)
  · rw [h.groups.count]
    refine Dict.sum_eq_zero fun key bt hget => ?_
    have hmem : key ∈ b.groups.keys := Dict.mem_keys.mpr ⟨bt, hget⟩
    rw [h.closed hc] at hmem
    exact nomatch hmem
  · rw [h.flushes.count, Int.natCast_eq_zero, List.countP_eq_zero]
    intro task htask
    simp [FlushTask.ended, hfinished task htask]

/-- Every accepted request is resolved once, with its own response, the exception of its
    batch, the shutdown or its own cancellation, and it is in one call of
    `generate_batch` at most; a `shutdown` that has returned has left nothing. -/
theorem resolved_once (h : lts.Reachable s) : Resolution s := by
  have hgood := systemGood_inductive.holds h
  constructor
  case outcome =>
    intro i call outcome hcall ho
    have hlt : i < s.batcher.items.length := hgood.length ▸ (List.getElem?_eq_some_iff.mp hcall).1
    have hitem := List.getElem?_eq_getElem hlt
    have hmatches := hgood.submits i call _ hcall hitem
    cases outcome with
    | returned response =>
      exact hgood.batcher.items.result i _ response hitem (hmatches.returned response ho)
    | raised e => exact hgood.batcher.items.exception i _ e hitem (hmatches.raised e ho)
    | cancelled => exact hmatches.cancelled ho
  case oneBatch => exact fun f f' task task' i hf hf' hi hi' => hgood.batcher.flushes.unique hf hf' hi hi'
  case once =>
    intro s' hrun i call hcall hsome
    obtain ⟨call', hcall', hkeep⟩ := (later_of_run hgood hrun).2.submit i call hcall
    exact hkeep hsome ▸ hcall'
  case settledOnce =>
    intro s' hrun i item hitem hdone
    obtain ⟨item', hitem', -, -, hkeep⟩ := (later_of_run hgood hrun).2.evolves.item i item hitem
    exact hkeep hdone ▸ hitem'
  case accepted => exact hgood.length
  case unsettled => exact fun i item hitem hdone => Good.waiting hgood.batcher hitem hdone
  case ends => exact fun i item c hitem hdone hcall => submit_ends hitem hdone hcall
  case calledOnce => exact fun i => List.nodup_iff_count_le_one.mp hgood.once i
  case neverCalled =>
    intro s' hrun i item hitem hdone hout is his hi
    obtain ⟨hgood', hlater⟩ := later_of_run hgood hrun
    obtain ⟨task', htask', -, rfl⟩ := hgood'.calls is his
    exact Evolves.undetached hlater.evolves hgood.batcher.items hitem hdone hout task' htask' hi
  case shutdown =>
    intro hreturned
    have hc := hgood.shutdown.closed _ hreturned (.inr rfl)
    exact Good.settled hgood.batcher hc (hgood.shutdown.returned hreturned).2

theorem resolved_once_pairRun : ∃ s,
    Lts.exec step pairSystem (pairRun ++ [.shutdown, .timer 0 2, .timer 1 2, .resumeShutdown 0,
      .resumeShutdown 0]) = .ok s ∧
    Resolution s ∧ .returned ∈ s.shutdowns ∧ s.batcher.items.length = 3 :=
  ⟨_, rfl, resolved_once (Lts.reachable_of_exec pairSystem_init (s := pairSystem)
    (l := pairRun ++ [.shutdown, .timer 0 2, .timer 1 2, .resumeShutdown 0, .resumeShutdown 0]) rfl),
    by decide, rfl⟩

end Gateway.BatcherSystem
