import Gateway.Spec.BatcherRequests
import Gateway.Spec.BatcherResolution

/-!
# What the observer of the batcher hears

Every detached batch is announced once and reported once, with the outcome that its answer,
or the shutdown, gave it. The last call of `batch_state_changed` has the counters of the
batcher.

## Key results

- `Says`: what a section of the code tells the observer, against what it does
- `Heard`: all that the observer was told, against the batcher
- `heard_of_reachable`
-/

namespace Gateway

/-! ## The calls by their kind -/

namespace BatchObservation

/-- The gauges of a call of `batch_state_changed`. -/
def gauges? : BatchObservation → Option (Int × Int)
  | stateChanged pending inflight => some (pending, inflight)
  | _ => none

/-- The arguments of a call of `batch_dispatched`. -/
def dispatch? : BatchObservation → Option (FlushReason × Nat × List Int)
  | dispatched flushReason size waitSeconds => some (flushReason, size, waitSeconds)
  | _ => none

/-- The arguments of a call of `batch_completed`. -/
def completion? : BatchObservation → Option (FlushReason × BatchOutcome)
  | completed flushReason outcome => some (flushReason, outcome)
  | _ => none

/-- The arguments of a call of `observe_batch_usage`. -/
def usage? : BatchObservation → Option (BatchUsage × Option Int × Nat)
  | usage usageResult completionTokens memberCount =>
    some (usageResult, completionTokens, memberCount)
  | _ => none

end BatchObservation

/-! ## What the batcher has to say of a batch -/

/-- The outcome of a batch of `size` members with this answer. -/
def BatchAnswer.outcome (size : Nat) : BatchAnswer → BatchOutcome
  | .result r => if r.responses.length ≠ size then .error else .success
  | .foreign => .error
  | .raised _ => .error
  | .cancelled => .cancelled

/-- The usage of a batch of `size` members with this answer, `members` of which were there to
    get their response. -/
def BatchAnswer.usage? (size members : Nat) :
    BatchAnswer → Option (BatchUsage × Option Int × Nat)
  | .result r =>
    if r.responses.length ≠ size then none
    else some (r.usageResult, r.aggregateCompletionTokens, members)
  | _ => none

/-- How many of the items have a response. -/
def DynamicBatcher.responded (items : List BatchItem) (is : List ItemId) : Nat :=
  is.countP fun i => items[i]?.any fun item => item.future.isResult

namespace FlushTask

/-- How the operation was completed; a batch that was stopped before its task ran has no
    answer. -/
def outcome? (t : FlushTask) : Option BatchOutcome :=
  if t.ended then some (t.answer.elim .cancelled fun answer => answer.outcome t.items.length)
  else none

/-- The completion to report. -/
def completion? (t : FlushTask) : Option (FlushReason × BatchOutcome) :=
  t.outcome?.map fun outcome => (t.flushReason, outcome)

/-- The usage to report. -/
def usage? (items : List BatchItem) (t : FlushTask) : Option (BatchUsage × Option Int × Nat) :=
  t.answer.bind fun answer =>
    answer.usage? t.items.length (DynamicBatcher.responded items t.items)

/-- What a flush task keeps once it has it. -/
def label (t : FlushTask) : FlushReason × List ItemId × Option BatchAnswer :=
  (t.flushReason, t.items, t.answer)

/-- A call of `batch_dispatched` with the item count and one wait for each member. -/
structure Announced (t : FlushTask) (call : FlushReason × Nat × List Int) : Prop where
  reason : call.1 = t.flushReason
  size : call.2.1 = t.items.length
  waits : call.2.2.length = t.items.length
  nonneg : ∀ wait ∈ call.2.2, 0 ≤ wait

end FlushTask

/-! ## Lists -/

section Lists

variable {α β γ : Type}

/-- A relation that reads the left list through a function. -/
theorem forall₂_of_map_eq {R : α → γ → Prop} {f : α → β} {l l' : List α} {cs : List γ}
    (hR : ∀ x y c, f x = f y → R x c → R y c) (heq : l.map f = l'.map f)
    (h : List.Forall₂ R l cs) : List.Forall₂ R l' cs := by
  induction h generalizing l' with
  | nil =>
    rw [List.map_nil, eq_comm, List.map_eq_nil_iff] at heq
    rw [heq]
    exact .nil
  | cons hx _ ih =>
    rw [List.map_cons, eq_comm, List.map_eq_cons_iff] at heq
    obtain ⟨y, ys, rfl, hy, hys⟩ := heq
    exact .cons (hR _ _ _ hy.symm hx) (ih hys.symm)

theorem filterMap_set_same {g : α → Option β} {l : List α} {k : Nat} {x y : α}
    (hx : l[k]? = some x) (hxy : g y = g x) : (l.set k y).filterMap g = l.filterMap g := by
  induction l generalizing k with
  | nil => rfl
  | cons z l ih =>
    cases k with
    | zero =>
      obtain rfl := Option.some.inj hx
      rw [List.set_cons_zero, List.filterMap_cons, List.filterMap_cons, hxy]
    | succ k => rw [List.set_cons_succ, List.filterMap_cons, List.filterMap_cons, ih hx]

/-- An element that had no value before may get one. -/
theorem filterMap_set_perm {g : α → Option β} {l : List α} {k : Nat} {x y : α}
    (hx : l[k]? = some x) (hnone : g x = none) :
    ((l.set k y).filterMap g).Perm (l.filterMap g ++ (g y).toList) := by
  induction l generalizing k with
  | nil => cases hx
  | cons w l ih =>
    cases k with
    | zero =>
      obtain rfl := Option.some.inj hx
      rw [List.set_cons_zero, List.filterMap_cons_none hnone]
      cases hy : g y with
      | none => simp [List.filterMap_cons_none hy]
      | some z =>
        rw [List.filterMap_cons_some hy]
        exact (List.perm_append_singleton z _).symm
    | succ k =>
      rw [List.set_cons_succ]
      cases hw : g w with
      | none =>
        rw [List.filterMap_cons_none hw, List.filterMap_cons_none hw]
        exact ih hx
      | some v =>
        rw [List.filterMap_cons_some hw, List.filterMap_cons_some hw]
        exact (ih hx).cons v

end Lists

namespace DynamicBatcher

variable {b b' b'' : DynamicBatcher} {os os' : List BatchObservation} {f : FlushId}
  {task : FlushTask}

/-! ## Sections that do not settle a batch -/

/-- What a section tells the observer, when no batch gets its answer in it. -/
structure Says (b : DynamicBatcher) (os : List BatchObservation) (b' : DynamicBatcher) : Prop where
  observer : b'.observer = b.observer.map (· ++ os)
  gauges : (os.filterMap (·.gauges?)).getLast?.getD (b.pending, b.inflight) =
    (b'.pending, b'.inflight)
  dispatched : ∃ news : List FlushTask, b'.flushes.map (·.label) = (b.flushes ++ news).map (·.label) ∧
    (∀ task ∈ news, task.answer = none) ∧
    List.Forall₂ FlushTask.Announced news (os.filterMap (·.dispatch?))
  completed : (b'.flushes.filterMap (·.completion?)).Perm
    (b.flushes.filterMap (·.completion?) ++ os.filterMap (·.completion?))
  usage : os.filterMap (·.usage?) = []

/-- A section that tells nothing and changes no counter. -/
theorem Says.quiet (hobserver : b'.observer = b.observer) (hpending : b'.pending = b.pending)
    (hinflight : b'.inflight = b.inflight)
    (hlabels : b'.flushes.map (·.label) = b.flushes.map (·.label))
    (hcompleted : b'.flushes.filterMap (·.completion?) = b.flushes.filterMap (·.completion?)) :
    Says b [] b' := by
  constructor
  case observer =>
    rw [hobserver]
    cases b.observer <;> simp
  case gauges =>
    show (b.pending, b.inflight) = (b'.pending, b'.inflight)
    rw [hpending, hinflight]
  case dispatched => exact ⟨[], by rw [List.append_nil, hlabels], by simp, .nil⟩
  case completed =>
    rw [hcompleted]
    simp
  case usage => rfl

theorem Says.of_same (hobserver : b'.observer = b.observer) (hpending : b'.pending = b.pending)
    (hinflight : b'.inflight = b.inflight) (hflushes : b'.flushes = b.flushes) : Says b [] b' :=
  .quiet hobserver hpending hinflight (by rw [hflushes]) (by rw [hflushes])

theorem Says.trans (h : Says b os b') (h' : Says b' os' b'') : Says b (os ++ os') b'' := by
  constructor
  case observer =>
    rw [h'.observer, h.observer]
    cases b.observer <;> simp
  case gauges =>
    rw [List.filterMap_append, List.getLast?_append]
    have hlast := h.gauges
    have hlast' := h'.gauges
    cases hg : (os'.filterMap (·.gauges?)).getLast? with
    | none =>
      rw [hg] at hlast'
      simpa using hlast.trans hlast'
    | some g =>
      rw [hg] at hlast'
      simpa using hlast'
  case dispatched =>
    obtain ⟨news, hlabels, hnone, hcalls⟩ := h.dispatched
    obtain ⟨news', hlabels', hnone', hcalls'⟩ := h'.dispatched
    refine ⟨news ++ news', ?_, ?_, ?_⟩
    · rw [hlabels', List.map_append, hlabels, ← List.map_append, List.append_assoc]
    · intro task htask
      rcases List.mem_append.mp htask with hold | hnew
      · exact hnone task hold
      · exact hnone' task hnew
    · rw [List.filterMap_append]
      exact List.rel_append hcalls hcalls'
  case completed =>
    rw [List.filterMap_append, ← List.append_assoc]
    exact h'.completed.trans (h.completed.append_right _)
  case usage => rw [List.filterMap_append, h.usage, h'.usage, List.append_nil]

/-- `_notify_state`, once the counters have changed. -/
theorem Says.notifyState (hobserver : b'.observer = b.observer) (hflushes : b'.flushes = b.flushes) :
    Says b [.stateChanged b'.pending b'.inflight] b'.notifyState := by
  constructor
  case observer =>
    rw [← hobserver]
    rfl
  case gauges => rfl
  case dispatched => exact ⟨[], by rw [List.append_nil, ← hflushes]; rfl, by simp, .nil⟩
  case completed =>
    rw [← hflushes]
    simp [DynamicBatcher.notifyState, observe, BatchObservation.completion?]
  case usage => rfl

/-- A flush task changes, but nothing that is told of it. -/
theorem Says.modifyFlush {g : FlushTask → FlushTask} (hf : b.flushes[f]? = some task)
    (hlabel : (g task).label = task.label) (hended : (g task).ended = task.ended) :
    Says b [] (b.modifyFlush f g) := by
  have hset : (b.modifyFlush f g).flushes = b.flushes.set f (g task) := modify_eq_set hf
  have hcompletion : (g task).completion? = task.completion? := by
    simp only [FlushTask.label, Prod.mk.injEq] at hlabel
    unfold FlushTask.completion? FlushTask.outcome?
    rw [hended, hlabel.1, hlabel.2.1, hlabel.2.2]
  refine .quiet rfl rfl rfl ?_ ?_
  · obtain ⟨hlt, heq⟩ := List.getElem?_eq_some_iff.mp hf
    rw [hset, List.map_set, hlabel, ← List.map_set, ← heq, List.set_getElem_self]
  · rw [hset]
    exact filterMap_set_same hf hcompletion

theorem cancelTimer_observer (timerTask current : Option TimerId) :
    (b.cancelTimer timerTask current).observer = b.observer := by
  unfold cancelTimer
  split
  · split <;> rfl
  · rfl

/-- A batch is detached: its gauges first, then the batch. -/
theorem Says.detach (batch : PendingBatch) (dispatched : List BatchItem) (reason : FlushReason)
    (current : Option TimerId) (now : Int) :
    Says b [.stateChanged (b.pending - batch.items.length) (b.inflight + 1),
        .dispatched reason batch.items.length (waits batch.items dispatched now)]
      (b.detach batch dispatched reason current now) := by
  constructor
  case observer =>
    have hobserver : (cancelTimer { b with groups := b.groups.erase batch.key } batch.timerTask
        current).observer = b.observer := cancelTimer_observer ..
    simp only [DynamicBatcher.detach, DynamicBatcher.notifyState, observe, hobserver,
      cancelTimer_pending, cancelTimer_inflight]
    cases b.observer <;> simp
  case gauges =>
    rw [detach_pending, detach_inflight]
    rfl
  case dispatched =>
    rw [detach_flushes]
    refine ⟨_, rfl, by simp, .cons ⟨rfl, rfl, by simp [waits], ?_⟩ .nil⟩
    intro wait hwait
    obtain ⟨i, -, rfl⟩ := List.mem_map.mp hwait
    exact Int.le_max_left ..
  case completed =>
    -- the new operation is not completed
    rw [detach_flushes, List.filterMap_append]
    rfl
  case usage => rfl

theorem Says.detachLocked {batchId : BatchId} {reason : FlushReason} {current : Option TimerId}
    {now : Int} (h : b.detachLocked batchId reason current now = .ok b') : ∃ os, Says b os b' := by
  have hsame : ∀ {b' : DynamicBatcher}, Except.ok (ε := Fault) b = .ok b' → ∃ os, Says b os b' := by
    intro b' hok
    obtain rfl := Except.ok.inj hok
    exact ⟨[], .of_same rfl rfl rfl rfl⟩
  unfold DynamicBatcher.detachLocked at h
  split at h
  · exact hsame h
  split at h
  · exact hsame h
  split at h
  · cases h
  · rw [← Except.ok.inj h]
    exact ⟨_, .detach ..⟩

theorem ensureBatch_frame (b : DynamicBatcher) (key : String) :
    (b.ensureBatch key).2.observer = b.observer ∧ (b.ensureBatch key).2.pending = b.pending ∧
      (b.ensureBatch key).2.inflight = b.inflight := by
  unfold ensureBatch
  split <;> exact ⟨rfl, rfl, rfl⟩

/-- An item joins a batch, which may be detached then. -/
theorem Says.submitLocked {tenantId : String} {request : ChatCompletionRequest}
    {submittedAt dispatchedAt : Int}
    (h : b.submitLocked tenantId request submittedAt dispatchedAt = .ok b') :
    ∃ os, Says b os b' := by
  unfold DynamicBatcher.submitLocked at h
  dsimp only at h
  have hjoin : ∀ bt, ∃ os, Says b os
      (((b.addItem tenantId request submittedAt).ensureBatch
        (compatibilityKey tenantId request)).2.enqueue bt b.items.length) := by
    intro bt
    refine ⟨_, .notifyState ?_ ?_⟩
    · exact (ensureBatch_frame _ _).1
    · exact ensureBatch_flushes _ _
  split at h
  · obtain ⟨os, hos⟩ := hjoin ((b.addItem tenantId request submittedAt).ensureBatch
      (compatibilityKey tenantId request)).1
    obtain ⟨os', hos'⟩ := detachLocked h
    exact ⟨_, hos.trans hos'⟩
  · rw [← Except.ok.inj h]
    exact hjoin _

theorem Says.leaveBatch (b : DynamicBatcher) (i : ItemId) (key : String) :
    ∃ os, Says b os (b.leaveBatch i key) := by
  have hsame : ∃ os, Says b os b := ⟨[], .of_same rfl rfl rfl rfl⟩
  unfold DynamicBatcher.leaveBatch
  split
  · exact hsame
  split
  · exact hsame
  next batchId _ batch _ =>
  split
  · refine ⟨_, .notifyState ?_ ?_⟩
    · split
      · rw [cancelTimer_observer]
      · rfl
    · split
      · rw [cancelTimer_flushes]
      · rfl
  · exact hsame

/-- A cancelled item leaves its batch, if that is not detached. -/
theorem Says.cancelItem (b : DynamicBatcher) (i : ItemId) : ∃ os, Says b os (b.cancelItem i) := by
  have hmodify : ∀ (b : DynamicBatcher) (g : BatchItem → BatchItem), Says b [] (b.modifyItem i g) :=
    fun b g => .of_same rfl rfl rfl rfl
  unfold DynamicBatcher.cancelItem
  split
  · exact ⟨[], .of_same rfl rfl rfl rfl⟩
  next item _ =>
  cases item.state with
  | pending =>
    obtain ⟨os, hos⟩ := leaveBatch b i item.key
    exact ⟨_, (hos.trans (hmodify _ _)).trans (hmodify _ _)⟩
  | dispatched => exact ⟨_, (hmodify _ _).trans (hmodify _ _)⟩
  | completed => exact ⟨_, hmodify _ _⟩
  | cancelled => exact ⟨_, hmodify _ _⟩

/-! ## The shutdown -/

theorem failPending_frame (is : List ItemId) (b : DynamicBatcher) :
    (failPending is b).observer = b.observer ∧ (failPending is b).inflight = b.inflight := by
  induction is generalizing b with
  | nil => exact ⟨rfl, rfl⟩
  | cons i is ih =>
    unfold failPending
    split
    · exact ih _
    · exact ih b

theorem closeBatches_frame (bts : List BatchId) (b : DynamicBatcher) :
    (closeBatches bts b).observer = b.observer ∧ (closeBatches bts b).inflight = b.inflight := by
  induction bts generalizing b with
  | nil => exact ⟨rfl, rfl⟩
  | cons bt bts ih =>
    unfold closeBatches
    split
    · exact ih b
    next batch _ =>
    obtain ⟨hobserver, hinflight⟩ := ih (failPending batch.items (b.cancelTimer batch.timerTask none))
    obtain ⟨hobserver', hinflight'⟩ :=
      failPending_frame batch.items (b.cancelTimer batch.timerTask none)
    rw [hobserver, hobserver', hinflight, hinflight', cancelTimer_observer, cancelTimer_inflight]
    exact ⟨rfl, rfl⟩

/-- A flush task of an open batcher: nobody has cancelled it, and before it runs it has
    neither finished nor an answer. -/
structure FlushTask.Open (t : FlushTask) : Prop where
  uncancelled : t.cancelRequested = false
  unfinished : t.started = false → t.state ≠ .finished
  unanswered : t.started = false → t.answer = none

theorem FlushTask.Sound.isOpen (h : FlushTask.Sound task false) : FlushTask.Open task := by
  have huncancelled : task.cancelRequested = false := by
    apply Bool.eq_false_iff.mpr
    intro hc
    exact absurd (h.cancelled hc) (by simp)
  constructor
  case uncancelled => exact huncancelled
  case unfinished =>
    intro hun hst
    rcases h.finished hst with ⟨hs, -⟩ | ⟨-, hc⟩
    · exact absurd (hun.symm.trans hs) (by simp)
    · exact absurd (huncancelled.symm.trans hc) (by simp)
  case unanswered => exact fun hun => h.answered (.inr hun)

/-- What the loop over the flush tasks does: the operations with these reasons end without
    having run. -/
structure Stops (b : DynamicBatcher) (reasons : List FlushReason) (b' : DynamicBatcher) : Prop where
  observer : b'.observer = b.observer
  labels : b'.flushes.map (·.label) = b.flushes.map (·.label)
  completed : (b'.flushes.filterMap (·.completion?)).Perm
    (b.flushes.filterMap (·.completion?) ++ reasons.map fun reason => (reason, .cancelled))

theorem cancel_label : task.cancel.label = task.label := by
  simp [FlushTask.label]

theorem FlushTask.Open.running (h : FlushTask.Open task) (hun : task.started = false) :
    task.completion? = none := by
  have hst := h.unfinished hun
  simp [FlushTask.completion?, FlushTask.outcome?, FlushTask.ended, h.uncancelled, hst]

/-- Cancelling a task that has not run completes its operation. -/
theorem FlushTask.Open.stopped (h : FlushTask.Open task) (hun : task.started = false) :
    task.cancel.completion? = some (task.flushReason, .cancelled) := by
  have hcancelled : task.cancel = { task with cancelRequested := true } :=
    if_neg (h.unfinished hun)
  rw [hcancelled]
  simp [FlushTask.completion?, FlushTask.outcome?, FlushTask.ended, hun, h.unanswered hun]

theorem cancelFlushes_stops {fs : List FlushId} {reasons : List FlushReason} (hnodup : fs.Nodup)
    (hopen : ∀ f ∈ fs, ∀ task : FlushTask, b.flushes[f]? = some task → FlushTask.Open task)
    (h : cancelFlushes fs b = .ok (reasons, b')) : Stops b reasons b' := by
  induction fs generalizing b reasons with
  | nil =>
    cases h
    exact ⟨rfl, rfl, by simp⟩
  | cons f fs ih =>
    obtain ⟨hf, hnodup⟩ := List.nodup_cons.mp hnodup
    have hlater : ∀ {b₁ : DynamicBatcher} {task' : FlushTask}, b₁.flushes = b.flushes.set f task' →
        ∀ f' ∈ fs, ∀ task : FlushTask, b₁.flushes[f']? = some task → FlushTask.Open task := by
      intro b₁ task' hflushes f' hf' task htask
      have hne : f ≠ f' := by
        rintro rfl
        exact hf hf'
      rw [hflushes, List.getElem?_set, if_neg hne] at htask
      exact hopen f' (List.mem_cons_of_mem _ hf') task htask
    unfold cancelFlushes at h
    split at h
    · exact ih hnodup (fun f' hf' => hopen f' (List.mem_cons_of_mem _ hf')) h
    next task hget =>
    have hset : (b.modifyFlush f (·.cancel)).flushes = b.flushes.set f task.cancel :=
      modify_eq_set hget
    have htask := hopen f (List.mem_cons_self ..) task hget
    have hlabels : (b.flushes.set f task.cancel).map (·.label) = b.flushes.map (·.label) := by
      obtain ⟨hlt, heq⟩ := List.getElem?_eq_some_iff.mp hget
      rw [List.map_set, cancel_label, ← List.map_set, ← heq, List.set_getElem_self]
    split at h
    · next hstarted =>
      have hrest := ih hnodup (hlater hset) h
      have hsame : task.cancel.completion? = task.completion? := by
        have hrun := cancel_sameRun hstarted
        unfold FlushTask.completion? FlushTask.outcome?
        rw [hrun.ended, hrun.answer, hrun.items, hrun.flushReason]
      constructor
      · exact hrest.observer
      · rw [hrest.labels, hset, hlabels]
      · have hcompleted := hrest.completed
        rw [hset, filterMap_set_same hget hsame] at hcompleted
        exact hcompleted
    · next hun =>
      rw [Bool.not_eq_true] at hun
      split at h
      · cases h
      split at h
      · cases h
      · next reasons' b'' hok =>
        cases h
        have hrest := ih (b := { b.modifyFlush f (·.cancel) with
          items := failDetached task.items b.items, inflight := b.inflight - 1 })
          hnodup (hlater hset) hok
        constructor
        · exact hrest.observer
        · exact hrest.labels.trans ((congrArg _ hset).trans hlabels)
        · have hcompleted := hrest.completed
          have hset' : ({ b.modifyFlush f (·.cancel) with
            items := failDetached task.items b.items
            inflight := b.inflight - 1 } : DynamicBatcher).flushes = b.flushes.set f task.cancel :=
            hset
          rw [hset'] at hcompleted
          apply hcompleted.trans
          rw [List.map_cons, ← List.singleton_append (l := reasons'.map _), ← List.append_assoc]
          have hset := filterMap_set_perm (y := task.cancel) hget (htask.running hun)
          rw [htask.stopped hun] at hset
          exact hset.append_right _

/-- The calls of `batch_completed` of a shutdown. -/
def stopCalls (reasons : List FlushReason) : List BatchObservation :=
  reasons.map fun reason => .completed reason .cancelled

theorem foldl_observe_completed (reasons : List FlushReason) (b : DynamicBatcher) :
    reasons.foldl (fun b reason => b.observe (.completed reason .cancelled)) b =
      { b with observer := b.observer.map (· ++ stopCalls reasons) } := by
  induction reasons generalizing b with
  | nil =>
    have hsame : b.observer.map (· ++ stopCalls []) = b.observer := by
      cases b.observer <;> simp [stopCalls]
    rw [hsame]
    rfl
  | cons reason reasons ih =>
    have hmore : (b.observe (.completed reason .cancelled)).observer.map (· ++ stopCalls reasons) =
        b.observer.map (· ++ stopCalls (reason :: reasons)) := by
      unfold observe
      cases b.observer <;> simp [stopCalls]
    rw [List.foldl_cons, ih, hmore]
    rfl

/-- Of the calls only those of `batch_completed` say something. -/
theorem stopCalls_filterMap {β : Type} {g : BatchObservation → Option β} (reasons : List FlushReason)
    (hg : ∀ reason outcome, g (.completed reason outcome) = none) :
    (stopCalls reasons).filterMap g = [] := by
  rw [List.filterMap_eq_nil_iff]
  intro o ho
  obtain ⟨reason, -, rfl⟩ := List.mem_map.mp ho
  exact hg reason _

/-- The section of `shutdown` tells the gauges, and the end of each operation it stops. -/
theorem Says.shutdownLocked (h : Good b) (hopen : b.closed = false)
    {tasks : List TimerId × List FlushId} (hok : b.shutdownLocked = .ok (tasks, b')) :
    ∃ os, Says b os b' := by
  unfold DynamicBatcher.shutdownLocked at hok
  dsimp only at hok
  obtain ⟨hobserver, -⟩ :=
    closeBatches_frame b.groups.values { b with closed := true, groups := .empty }
  have hflushes := closeBatches_flushes b.groups.values { b with closed := true, groups := .empty }
  generalize closeBatches b.groups.values { b with closed := true, groups := .empty } = b₁
    at hok hobserver hflushes
  split at hok
  · cases hok
  next reasons b₂ hcancel =>
  have hstops : Stops b₁ reasons b₂ := by
    apply cancelFlushes_stops trackedIds_nodup _ hcancel
    intro f _ task htask
    apply FlushTask.Sound.isOpen
    rw [← hopen]
    exact h.flushes.sound task (List.mem_of_getElem? (hflushes ▸ htask))
  have hb' := (Prod.mk.inj (Except.ok.inj hok)).2
  rw [foldl_observe_completed] at hb'
  rw [← hb']
  refine ⟨.stateChanged b₂.pending b₂.inflight :: stopCalls reasons, ?_⟩
  constructor
  case observer =>
    show (b₂.observer.map _).map _ = _
    rw [hstops.observer, hobserver]
    cases b.observer <;> simp
  case gauges =>
    rw [List.filterMap_cons, stopCalls_filterMap reasons fun _ _ => rfl]
    rfl
  case dispatched =>
    refine ⟨[], ?_, by simp, ?_⟩
    · rw [List.append_nil]
      show b₂.flushes.map (·.label) = _
      rw [hstops.labels, hflushes]
    · rw [List.filterMap_cons_none rfl, stopCalls_filterMap reasons fun _ _ => rfl]
      exact .nil
  case completed =>
    have hcompleted := hstops.completed
    rw [hflushes] at hcompleted
    have hcalls : (stopCalls reasons).filterMap (·.completion?) =
        reasons.map fun reason => (reason, BatchOutcome.cancelled) := by
      rw [stopCalls, List.filterMap_map, ← List.filterMap_eq_map]
      rfl
    rw [List.filterMap_cons_none rfl, hcalls]
    exact hcompleted
  case usage =>
    rw [List.filterMap_cons_none rfl]
    exact stopCalls_filterMap reasons fun _ _ => rfl

/-! ## The answer of a batch -/

theorem completeItems_other {l : List (ItemId × Response)} {items items' : List BatchItem}
    {delivered : Nat} (h : completeItems l items = .ok (items', delivered)) {i : ItemId}
    (hi : i ∉ l.map Prod.fst) : items'[i]? = items[i]? := by
  induction l generalizing items delivered with
  | nil =>
    cases h
    rfl
  | cons p l ih =>
    obtain ⟨j, response⟩ := p
    simp only [List.map_cons, List.mem_cons, not_or] at hi
    unfold completeItems at h
    split at h
    · exact ih h hi.2
    split at h
    · exact ih h hi.2
    · split at h
      · cases h
      · next hrest =>
        cases h
        rw [ih hrest hi.2, getElem?_modify_eq, if_neg (Ne.symm hi.1)]
    · cases h

/-- A dispatched item has had no value, and a cancelled one no response. -/
def Undelivered (items : List BatchItem) (is : List ItemId) : Prop :=
  ∀ i ∈ is, ∀ item, items[i]? = some item →
    (item.state = .dispatched → item.future.done = false) ∧
      (item.state = .cancelled → item.future = .cancelled)

/-- The count of `_complete_success` is that of the members that have a response then. -/
theorem completeItems_delivered {l : List (ItemId × Response)} {items items' : List BatchItem}
    {delivered : Nat} (hnodup : (l.map Prod.fst).Nodup)
    (hitems : Undelivered items (l.map Prod.fst)) (hrun : Running (l.map Prod.fst) items)
    (h : completeItems l items = .ok (items', delivered)) :
    delivered = responded items' (l.map Prod.fst) := by
  induction l generalizing items delivered with
  | nil =>
    cases h
    rfl
  | cons p l ih =>
    obtain ⟨i, response⟩ := p
    obtain ⟨hi, hnodup⟩ := List.nodup_cons.mp hnodup
    obtain ⟨item, hitem, hst⟩ := hrun i (List.mem_cons_self ..)
    obtain ⟨hpending, hcancelled⟩ := hitems i (List.mem_cons_self ..) item hitem
    have hcount : responded items' (((i, response) :: l).map Prod.fst) =
        responded items' (l.map Prod.fst) +
          if items'[i]?.any fun item => item.future.isResult then 1 else 0 :=
      List.countP_cons
    rw [hcount]
    unfold completeItems at h
    simp only [hitem] at h
    rcases hst with hst | hst
    · simp only [hst] at h
      split at h
      · cases h
      next items₁ delivered₁ hrest =>
      cases h
      have hother := completeItems_other hrest hi
      rw [getElem?_modify_eq, if_pos rfl, hitem] at hother
      rw [hother, hpending hst]
      have hlater : Undelivered (items.modify i fun item => item.complete (.result response))
          (l.map Prod.fst) := by
        intro j hj item' hitem'
        have hne : i ≠ j := by
          rintro rfl
          exact hi hj
        rw [getElem?_modify_eq, if_neg hne] at hitem'
        exact hitems j (List.mem_cons_of_mem _ hj) item' hitem'
      rw [← ih hnodup hlater (hrun.modify hi) hrest]
      simp [BatchItem.complete, hpending hst, Future.isResult]
    · simp only [hst] at h
      rw [completeItems_other h hi, hitem,
        ← ih hnodup (fun j hj => hitems j (List.mem_cons_of_mem _ hj))
          (fun j hj => hrun j (List.mem_cons_of_mem _ hj)) h]
      simp [hcancelled hst, Future.isResult]

/-- What is told when the answer of a batch has come. -/
def answerCalls (b' : DynamicBatcher) (task : FlushTask) (answer : BatchAnswer) :
    List BatchObservation :=
  (answer.usage? task.items.length (responded b'.items task.items)).toList.map
      (fun call => .usage call.1 call.2.1 call.2.2) ++
    [.stateChanged b'.pending b'.inflight,
      .completed task.flushReason (answer.outcome task.items.length)]

theorem resolveBatch_tells {is : List ItemId} {answer : BatchAnswer} {outcome : BatchOutcome}
    (hnodup : is.Nodup) (hrun : Running is b.items) (hitems : Undelivered b.items is)
    (h : b.resolveBatch is answer = .ok (outcome, b')) :
    outcome = answer.outcome is.length ∧
      b'.observer = b.observer.map (· ++ (answer.usage? is.length (responded b'.items is)).toList.map
        fun call => .usage call.1 call.2.1 call.2.2) := by
  have hquiet : b.observer = b.observer.map (· ++ []) := by cases b.observer <;> simp
  have hfail : ∀ {e o}, b.failBatch is e o = .ok (outcome, b') →
      outcome = o ∧ b'.observer = b.observer.map (· ++ []) := by
    intro e o hok
    unfold failBatch at hok
    split at hok
    · cases hok
    · cases hok
      exact ⟨rfl, hquiet⟩
  cases answer with
  | foreign => exact hfail h
  | raised e => exact hfail h
  | cancelled => exact hfail h
  | result r =>
    simp only [resolveBatch] at h
    by_cases hlength : r.responses.length ≠ is.length
    · rw [if_pos hlength] at h
      simp only [BatchAnswer.outcome, BatchAnswer.usage?, if_pos hlength]
      exact hfail h
    rw [if_neg hlength] at h
    split at h
    · cases h
    next items' delivered hok =>
    cases h
    rw [not_not] at hlength
    have hmap : (is.zip r.responses).map Prod.fst = is :=
      List.map_fst_zip (Nat.le_of_eq hlength.symm)
    have hdelivered := completeItems_delivered (hmap.symm ▸ hnodup) (hmap.symm ▸ hitems)
      (hmap.symm ▸ hrun) hok
    rw [hmap] at hdelivered
    constructor
    · simp [BatchAnswer.outcome, hlength]
    · simp only [BatchAnswer.usage?, hlength, ne_eq, not_true_eq_false, if_false]
      rw [hdelivered]
      rfl

/-- The batch gets its answer, and the observer is told of it. -/
theorem Good.answerFlush_tells (h : Good b) {answer : BatchAnswer} (hf : b.flushes[f]? = some task)
    (hst : task.state = .awaiting) (hok : b.answerFlush f task answer = .ok b') :
    b'.observer = b.observer.map (· ++ answerCalls b' task answer) := by
  have hmem : task ∈ b.flushes := List.mem_of_getElem? hf
  have hover : task.ended = false := by
    simp [FlushTask.ended, hst, (h.flushes.sound task hmem).awaiting hst]
  have hnodup : task.items.Nodup := (h.flushes.sorted task hmem).imp fun hlt => Nat.ne_of_lt hlt
  have hrun : Running task.items b.items := by
    intro i hi
    rcases h.flushes.running task hmem hover i hi with hst' | hst'
    · obtain ⟨item, hitem, heq⟩ := stateOf_eq_some.mp hst'
      exact ⟨item, hitem, .inl heq⟩
    · obtain ⟨item, hitem, heq⟩ := stateOf_eq_some.mp hst'
      exact ⟨item, hitem, .inr heq⟩
  have hitems : Undelivered b.items task.items := by
    intro i _ item hitem
    refine ⟨fun hdispatched => ?_, (h.items.cancelled i item hitem).mp⟩
    apply Bool.eq_false_iff.mpr
    intro hdone
    rcases (h.items.future i item hitem).mp hdone with hst' | hst' <;> simp [hdispatched] at hst'
  unfold DynamicBatcher.answerFlush at hok
  split at hok
  · cases hok
  next outcome b₁ hresolve =>
  obtain ⟨rfl, hobserver⟩ := resolveBatch_tells hnodup hrun hitems hresolve
  unfold finishFlush at hok
  split at hok
  · cases hok
  · rw [← Except.ok.inj hok]
    show (b₁.observer.map _).map _ = _
    rw [hobserver]
    cases b.observer <;> simp [answerCalls, DynamicBatcher.modifyFlush, observe,
      DynamicBatcher.notifyState]

/-! ## All that was told -/

/-- All that the observer was told, against the batcher: the counters, every batch once, and
    every completed operation once, with the usage of those that succeeded. -/
structure Heard (b : DynamicBatcher) (log : List BatchObservation) : Prop where
  gauges : (log.filterMap (·.gauges?)).getLast? = some (b.pending, b.inflight)
  dispatched : List.Forall₂ FlushTask.Announced b.flushes (log.filterMap (·.dispatch?))
  completed : (log.filterMap (·.completion?)).Perm (b.flushes.filterMap (·.completion?))
  usage : (log.filterMap (·.usage?)).Perm (b.flushes.filterMap (·.usage? b.items))

theorem announced_of_same {task task' : FlushTask} {call : FlushReason × Nat × List Int}
    (hreason : task.flushReason = task'.flushReason) (hitems : task.items = task'.items)
    (h : task.Announced call) : task'.Announced call :=
  ⟨hreason ▸ h.reason, hitems ▸ h.size, hitems ▸ h.waits, h.nonneg⟩

/-- The members of a batch with an answer are settled, so its usage stays. -/
theorem Good.usage_kept (h : Good b) (hevolves : Evolves b b') (hmem : task ∈ b.flushes) :
    task.usage? b'.items = task.usage? b.items := by
  unfold FlushTask.usage?
  cases hanswer : task.answer with
  | none => rfl
  | some answer =>
    have hended : task.ended = true := by
      have hsound := h.flushes.sound task hmem
      have hst : task.state = .finished := by
        by_contra hne
        exact absurd (hanswer.symm.trans (hsound.answered (.inl hne))) (by simp)
      simp [FlushTask.ended, hst]
    have hsame : ∀ i ∈ task.items, b'.items[i]? = b.items[i]? := by
      intro i hi
      obtain ⟨key, hkey⟩ := h.flushes.member task hmem
      obtain ⟨item, hitem, -⟩ := keyOf_eq_some.mp (hkey i hi).1
      -- it is neither pending nor dispatched
      have hpending : item.state ≠ .pending := by
        intro hst
        exact (hkey i hi).2 (hst ▸ stateOf_of hitem)
      have hdispatched : item.state ≠ .dispatched := by
        intro hst
        obtain ⟨task', hmem', hi', hover⟩ := h.flushes.dispatched i (hst ▸ stateOf_of hitem)
        obtain ⟨k, hk⟩ := List.mem_iff_getElem?.mp hmem
        obtain ⟨k', hk'⟩ := List.mem_iff_getElem?.mp hmem'
        obtain rfl := h.flushes.unique hk hk' hi hi'
        obtain rfl := Option.some.inj (hk.symm.trans hk')
        exact absurd (hended.symm.trans hover) (by simp)
      have hdone : item.future.done = true := by
        apply (h.items.future i item hitem).mpr
        cases hst : item.state with
        | pending => exact absurd hst hpending
        | dispatched => exact absurd hst hdispatched
        | completed => exact .inl rfl
        | cancelled => exact .inr rfl
      obtain ⟨item', hitem', -, -, hkeep⟩ := hevolves.item i item hitem
      rw [hitem', hitem, hkeep hdone]
    have hcount : responded b'.items task.items = responded b.items task.items := by
      apply List.countP_congr
      intro i hi
      rw [hsame i hi]
    show answer.usage? _ (responded b'.items task.items) =
      answer.usage? _ (responded b.items task.items)
    rw [hcount]

theorem Good.filterMap_usage (h : Good b) (hevolves : Evolves b b') :
    b.flushes.filterMap (·.usage? b'.items) = b.flushes.filterMap (·.usage? b.items) := by
  apply List.filterMap_congr
  intro task hmem
  exact h.usage_kept hevolves hmem

/-- A section that does not settle a batch. -/
theorem Heard.spoken {log : List BatchObservation} (h : Heard b log) (hb : Good b)
    (hevolves : Evolves b b') (hspoken : Says b os b') : Heard b' (log ++ os) := by
  obtain ⟨news, hlabels, hnone, hcalls⟩ := hspoken.dispatched
  constructor
  case gauges =>
    rw [List.filterMap_append, List.getLast?_append, h.gauges]
    have hlast := hspoken.gauges
    cases hg : (os.filterMap (·.gauges?)).getLast? with
    | none =>
      rw [hg] at hlast
      simpa using hlast
    | some g =>
      rw [hg] at hlast
      simpa using hlast
  case dispatched =>
    rw [List.filterMap_append]
    apply forall₂_of_map_eq (R := FlushTask.Announced) (f := FlushTask.label) _ hlabels.symm
    · exact List.rel_append h.dispatched hcalls
    · intro task task' call hlabel
      exact announced_of_same (congrArg (·.1) hlabel) (congrArg (·.2.1) hlabel)
  case completed =>
    rw [List.filterMap_append]
    exact (h.completed.append_right _).trans hspoken.completed.symm
  case usage =>
    -- the usage of a task depends on its label
    have hread : ∀ l : List FlushTask, l.filterMap (·.usage? b'.items) =
        (l.map (·.label)).filterMap fun label => label.2.2.bind fun answer =>
          answer.usage? label.2.1.length (responded b'.items label.2.1) := by
      intro l
      rw [List.filterMap_map]
      rfl
    have hnews : news.filterMap (·.usage? b'.items) = [] := by
      rw [List.filterMap_eq_nil_iff]
      intro task htask
      simp [FlushTask.usage?, hnone task htask]
    rw [List.filterMap_append, hspoken.usage, List.append_nil, hread, hlabels, ← hread,
      List.filterMap_append, hnews, List.append_nil, hb.filterMap_usage hevolves]
    exact h.usage

/-- The step that settles a batch. -/
theorem Heard.answerFlush {log : List BatchObservation} (h : Heard b log) (hb : Good b)
    {answer : BatchAnswer} (hf : b.flushes[f]? = some task) (hst : task.state = .awaiting)
    (hok : b.answerFlush f task answer = .ok b') : Heard b' (log ++ answerCalls b' task answer) := by
  obtain ⟨b₁, value, hok₁, -, hevolves, hcompletes⟩ := hb.answerFlush hf hst answer
  obtain rfl := Except.ok.inj (hok.symm.trans hok₁)
  have hnone : task.answer = none :=
    (hb.flushes.sound task (List.mem_of_getElem? hf)).answered (.inl (by simp [hst]))
  have hkinds : ∀ {β : Type} {g : BatchObservation → Option β},
      (∀ u t n, g (.usage u t n) = none) → (answerCalls b' task answer).filterMap g =
        [.stateChanged b'.pending b'.inflight,
          .completed task.flushReason (answer.outcome task.items.length)].filterMap g := by
    intro β g hg
    unfold answerCalls
    rw [List.filterMap_append, List.filterMap_map]
    cases answer.usage? task.items.length (responded b'.items task.items) <;> simp [hg]
  constructor
  case gauges =>
    rw [List.filterMap_append, hkinds fun _ _ _ => rfl]
    exact List.getLast?_concat ..
  case dispatched =>
    rw [List.filterMap_append, hkinds fun _ _ _ => rfl]
    show List.Forall₂ _ _ (_ ++ [])
    rw [List.append_nil, hcompletes.flushes]
    apply forall₂_of_map_eq (R := FlushTask.Announced) (f := fun t => (t.flushReason, t.items)) _ _
      h.dispatched
    · intro task task' call hsame
      exact announced_of_same (congrArg (·.1) hsame) (congrArg (·.2) hsame)
    · obtain ⟨hlt, heq⟩ := List.getElem?_eq_some_iff.mp hf
      rw [List.map_set, ← heq, ← List.map_set (a := b.flushes[f]), List.set_getElem_self]
  case completed =>
    rw [List.filterMap_append, hkinds fun _ _ _ => rfl, hcompletes.flushes]
    have hrunning : task.completion? = none := by
      simp [FlushTask.completion?, FlushTask.outcome?, hcompletes.running]
    have hset := filterMap_set_perm (g := (·.completion?))
      (y := { task with state := .finished, answer := some answer }) hf hrunning
    exact (h.completed.append_right _).trans hset.symm
  case usage =>
    have hunreported : task.usage? b'.items = none := by
      simp [FlushTask.usage?, hnone]
    have hset := filterMap_set_perm (g := (·.usage? b'.items))
      (y := { task with state := .finished, answer := some answer }) hf hunreported
    rw [hcompletes.flushes]
    rw [hb.filterMap_usage hevolves] at hset
    rw [List.filterMap_append]
    refine ((h.usage.append_right _).trans ?_).trans hset.symm
    apply List.Perm.append_left
    unfold answerCalls
    rw [List.filterMap_append, List.filterMap_map]
    show List.Perm _ (answer.usage? _ _).toList
    cases answer.usage? task.items.length (responded b'.items task.items) <;>
      simp [BatchObservation.usage?]

end DynamicBatcher

/-! ## Runs -/

namespace BatcherSystem

open DynamicBatcher

variable {s s' : BatcherSystem} {a : BatcherAction}

theorem says_shutdownSection {k : Nat} {s₀ : BatcherSystem} (hgood : Good s.batcher)
    (h : s₀.shutdownSection k = .ok s') (hbatcher : s₀.batcher = s.batcher) :
    ∃ os, Says s.batcher os s'.batcher := by
  unfold shutdownSection at h
  split at h
  · cases h
    exact ⟨[], .of_same (by rw [← hbatcher]; rfl) (by rw [← hbatcher]; rfl) (by rw [← hbatcher]; rfl)
      (by rw [← hbatcher]; rfl)⟩
  next hopen =>
  split at h
  · cases h
  next hlocked =>
  cases h
  rw [hbatcher] at hlocked
  rw [hbatcher, Bool.not_eq_true] at hopen
  exact Says.shutdownLocked hgood hopen hlocked

/-- A flush task starts, or finishes without having run. -/
theorem says_flush {f : FlushId} (hgood : Good s.batcher) (h : s.step (.flush f) = .ok s') :
    ∃ os, Says s.batcher os s'.batcher := by
  rw [step] at h
  split at h
  · cases h
  next task hf =>
  split at h
  · cases h
  next hst =>
  rw [not_not] at hst
  have hunstarted := (hgood.flushes.sound task (List.mem_of_getElem? hf)).created hst
  split at h
  · next hc =>
    cases h
    refine ⟨[], .modifyFlush hf rfl ?_⟩
    simp [FlushTask.ended, hc, hunstarted]
  · next hc =>
    cases h
    refine ⟨[], .modifyFlush hf rfl ?_⟩
    simp [FlushTask.ended, hst, hc]

/-- A step tells the observer what it does, or settles a batch. -/
theorem says_step (hgood : Good s.batcher) (h : s.step a = .ok s') :
    (∃ os, Says s.batcher os s'.batcher) ∨
      ∃ f task answer, s.batcher.flushes[f]? = some task ∧ task.state = .awaiting ∧
        s.batcher.answerFlush f task answer = .ok s'.batcher := by
  have hsame : ∃ os, Says s.batcher os s.batcher := ⟨[], .of_same rfl rfl rfl rfl⟩
  cases a with
  | submit tenantId request submittedAt dispatchedAt =>
    rw [step] at h
    split at h
    · cases h
      exact .inl hsame
    · obtain ⟨b, hb, rfl⟩ := update_ok h
      exact .inl (Says.submitLocked hb)
  | cancel i =>
    rw [step] at h
    split at h
    · cases h
      exact .inl hsame
    · cases h
  | resume i =>
    have hcancelled : ∃ os, Says s.batcher os (s.submitCancelled i).batcher := Says.cancelItem ..
    rw [step] at h
    split at h
    · unfold resumeSubmit at h
      split at h
      · cases h
      split at h
      · cases h
        exact .inl hcancelled
      split at h
      · cases h
      · cases h
        exact .inl hsame
      · cases h
        exact .inl hsame
      · cases h
        exact .inl hcancelled
    · cases h
  | timer t now =>
    have htimer : ∀ g, Says s.batcher [] (s.batcher.modifyTimer t g) :=
      fun g => .of_same rfl rfl rfl rfl
    rw [step] at h
    split at h
    · cases h
    dsimp only at h
    split at h
    · cases h
    · cases h
      exact .inl ⟨[], htimer _⟩
    · obtain ⟨b, hb, rfl⟩ := update_ok h
      obtain ⟨os, hos⟩ := Says.detachLocked hb
      exact .inl ⟨_, (htimer _).trans hos⟩
    · cases h
      exact .inl ⟨[], htimer _⟩
  | flush f => exact .inl (says_flush hgood h)
  | answer f answer =>
    rw [step] at h
    split at h
    · cases h
    next task hf =>
    split at h
    · cases h
    next hst =>
    obtain ⟨b, hb, rfl⟩ := update_ok h
    exact .inr ⟨f, task, answer, hf, not_not.mp hst, hb⟩
  | timerDone t =>
    rw [step] at h
    split at h
    · cases h
      exact .inl ⟨[], .of_same rfl rfl rfl rfl⟩
    · cases h
  | flushDone f =>
    rw [step] at h
    split at h
    · next htask =>
      cases h
      cases hf : s.batcher.flushes[f]? with
      | none => simp [hf] at htask
      | some task => exact .inl ⟨[], .modifyFlush hf rfl rfl⟩
    · cases h
  | shutdown =>
    rw [step] at h
    split at h
    · exact .inl (says_shutdownSection hgood h rfl)
    · cases h
      exact .inl hsame
  | resumeShutdown k =>
    rw [step] at h
    split at h
    · split at h
      · exact .inl (says_shutdownSection hgood h rfl)
      · cases h
    · split at h
      · cases h
        exact .inl hsame
      · cases h
    · split at h
      · cases h
        exact .inl hsame
      · cases h
    · cases h

/-- What holds of the observer, if there is one. -/
def Observed (s : BatcherSystem) : Prop :=
  ∀ log, s.batcher.observer = some log → Heard s.batcher log

theorem observed_init (h : Init s) : Observed s := by
  obtain ⟨-, -, -, -, maxSize, maxWaitSeconds, observed, hinit⟩ := h
  intro log hlog
  unfold DynamicBatcher.init at hinit
  split at hinit
  · cases hinit
  split at hinit
  · cases hinit
  rw [← Option.some.inj hinit] at hlog ⊢
  obtain ⟨log', hlog', rfl⟩ := Option.map_eq_some_iff.mp hlog
  have hempty : log' = [] := by
    change (if observed then some [] else none) = some log' at hlog'
    cases observed with
    | false => cases hlog'
    | true => exact (Option.some.inj hlog').symm
  rw [hempty]
  exact ⟨rfl, .nil, .refl _, .refl _⟩

theorem SystemGood.observed_step (h : SystemGood s) (hobserved : Observed s)
    (hstep : lts.Step s a s') : Observed s' := by
  intro log' hlog'
  obtain ⟨-, hlater⟩ := h.next hstep
  rcases says_step h.batcher hstep with ⟨os, hspoken⟩ | ⟨f, task, answer, hf, hst, hok⟩
  · rw [hspoken.observer] at hlog'
    obtain ⟨log, hlog, rfl⟩ := Option.map_eq_some_iff.mp hlog'
    exact (hobserved log hlog).spoken h.batcher hlater.evolves hspoken
  · rw [h.batcher.answerFlush_tells hf hst hok] at hlog'
    obtain ⟨log, hlog, rfl⟩ := Option.map_eq_some_iff.mp hlog'
    exact (hobserved log hlog).answerFlush h.batcher hf hst hok

theorem observed_inductive : lts.Inductive fun s => SystemGood s ∧ Observed s where
  init _ hinit := ⟨systemGood_init hinit, observed_init hinit⟩
  step _ _ _ hs _ hstep := ⟨(hs.1.next hstep).1, hs.1.observed_step hs.2 hstep⟩

/-! ## What a run has told -/

theorem heard_of_reachable (h : lts.Reachable s) {log : List BatchObservation}
    (hlog : s.batcher.observer = some log) : Heard s.batcher log :=
  (observed_inductive.holds h).2 log hlog

/-- The observations of the batches, in the words of their answers. -/
structure Balanced (b : DynamicBatcher) (log : List BatchObservation) : Prop where
  /-- each detached batch has one call, in the order of their detachment -/
  dispatched : List.Forall₂ FlushTask.Announced b.flushes (log.filterMap (·.dispatch?))
  /-- each completed operation has one call -/
  completed : (log.filterMap (·.completion?)).Perm (b.flushes.filterMap (·.completion?))
  running : ((log.filterMap (·.dispatch?)).length : Int) =
    (log.filterMap (·.completion?)).length + b.inflight
  success : ∀ task ∈ b.flushes, task.outcome? = some .success ↔
    ∃ r, task.answer = some (.result r) ∧ r.responses.length = task.items.length
  cancelled : ∀ task ∈ b.flushes, task.outcome? = some .cancelled ↔
    task.answer = some .cancelled ∨ task.started = false ∧ task.ended = true
  /-- each operation that succeeded has one call, with the number of its responses -/
  usage : (log.filterMap (·.usage?)).Perm (b.flushes.filterMap (·.usage? b.items))
  reported : ∀ task ∈ b.flushes,
    (task.usage? b.items).isSome = true ↔ task.outcome? = some .success

end BatcherSystem

namespace DynamicBatcher

open BatcherSystem

variable {b : DynamicBatcher} {task : FlushTask} {closed : Bool}

/-- An operation that has an answer is completed with the outcome of that. -/
theorem FlushTask.Sound.outcome_answered (h : FlushTask.Sound task closed) {answer : BatchAnswer}
    (hanswer : task.answer = some answer) :
    task.outcome? = some (answer.outcome task.items.length) := by
  have hst : task.state = .finished := by
    by_contra hne
    exact absurd (hanswer.symm.trans (h.answered (.inl hne))) (by simp)
  simp [FlushTask.outcome?, FlushTask.ended, hst, hanswer]

theorem FlushTask.outcome_unanswered (hanswer : task.answer = none) :
    task.outcome? = if task.ended then some .cancelled else none := by
  simp [FlushTask.outcome?, hanswer]

theorem BatchAnswer.outcome_eq_success {size : Nat} {answer : BatchAnswer} :
    answer.outcome size = .success ↔ ∃ r, answer = .result r ∧ r.responses.length = size := by
  cases answer with
  | result r => by_cases hlength : r.responses.length = size <;> simp [BatchAnswer.outcome, hlength]
  | foreign => simp [BatchAnswer.outcome]
  | raised e => simp [BatchAnswer.outcome]
  | cancelled => simp [BatchAnswer.outcome]

theorem BatchAnswer.outcome_eq_cancelled {size : Nat} {answer : BatchAnswer} :
    answer.outcome size = .cancelled ↔ answer = .cancelled := by
  cases answer with
  | result r => by_cases hlength : r.responses.length = size <;> simp [BatchAnswer.outcome, hlength]
  | foreign => simp [BatchAnswer.outcome]
  | raised e => simp [BatchAnswer.outcome]
  | cancelled => simp [BatchAnswer.outcome]

theorem FlushTask.Sound.success_iff (h : FlushTask.Sound task closed) :
    task.outcome? = some .success ↔
      ∃ r, task.answer = some (.result r) ∧ r.responses.length = task.items.length := by
  cases hanswer : task.answer with
  | none =>
    rw [FlushTask.outcome_unanswered hanswer]
    cases task.ended <;> simp
  | some answer =>
    rw [h.outcome_answered hanswer, Option.some.injEq, BatchAnswer.outcome_eq_success]
    simp

theorem FlushTask.Sound.cancelled_iff (h : FlushTask.Sound task closed) :
    task.outcome? = some .cancelled ↔
      task.answer = some .cancelled ∨ task.started = false ∧ task.ended = true := by
  cases hanswer : task.answer with
  | none =>
    rw [FlushTask.outcome_unanswered hanswer]
    cases hended : task.ended with
    | false => simp
    | true =>
      -- a task that has run finishes with an answer
      have hunstarted : task.started = false := by
        rcases Bool.or_eq_true_iff.mp hended with hst | hcancel
        · rcases h.finished (of_decide_eq_true hst) with ⟨-, hsome⟩ | ⟨hun, -⟩
          · simp [hanswer] at hsome
          · exact hun
        · simpa using (Bool.and_eq_true_iff.mp hcancel).2
      simp [hunstarted]
  | some answer =>
    have hstarted : task.started ≠ false := by
      intro hun
      exact absurd (hanswer.symm.trans (h.answered (.inr hun))) (by simp)
    rw [h.outcome_answered hanswer, Option.some.injEq, BatchAnswer.outcome_eq_cancelled]
    simp [hstarted]

theorem FlushTask.Sound.reported_iff (h : FlushTask.Sound task closed) (items : List BatchItem) :
    (task.usage? items).isSome = true ↔ task.outcome? = some .success := by
  rw [h.success_iff]
  unfold FlushTask.usage?
  cases task.answer with
  | none => simp
  | some answer =>
    cases answer with
    | result r =>
      by_cases hlength : r.responses.length = task.items.length <;> simp [BatchAnswer.usage?, hlength]
    | foreign => simp [BatchAnswer.usage?]
    | raised e => simp [BatchAnswer.usage?]
    | cancelled => simp [BatchAnswer.usage?]

/-- The calls of `batch_completed` are as many as the completed operations. -/
theorem length_completions (flushes : List FlushTask) :
    (flushes.filterMap (·.completion?)).length = flushes.countP (·.ended) := by
  induction flushes with
  | nil => rfl
  | cons task flushes ih =>
    cases hended : task.ended with
    | false =>
      have hnone : task.completion? = none := by
        simp [FlushTask.completion?, FlushTask.outcome?, hended]
      rw [List.filterMap_cons_none hnone, ih, List.countP_cons_of_neg (by simp [hended])]
    | true =>
      have hsome : ∃ c, task.completion? = some c := by
        simp [FlushTask.completion?, FlushTask.outcome?, hended]
      obtain ⟨c, hc⟩ := hsome
      rw [List.filterMap_cons_some hc, List.length_cons, ih, List.countP_cons_of_pos hended]

theorem Heard.balanced {log : List BatchObservation} (h : Heard b log) (hb : Good b) :
    Balanced b log where
  dispatched := h.dispatched
  completed := h.completed
  running := by
    have hdispatched := h.dispatched.length_eq
    have hcompleted := h.completed.length_eq
    have hcount := List.length_eq_countP_add_countP (·.ended) (l := b.flushes)
    have hinflight := hb.flushes.count
    rw [length_completions] at hcompleted
    rw [← hdispatched, hcompleted, hinflight]
    simp only [Bool.not_eq_true, Bool.decide_eq_false] at hcount
    omega
  success task hmem := (hb.flushes.sound task hmem).success_iff
  cancelled task hmem := (hb.flushes.sound task hmem).cancelled_iff
  usage := h.usage
  reported task hmem := (hb.flushes.sound task hmem).reported_iff b.items

end DynamicBatcher

namespace BatcherSystem

open DynamicBatcher

variable {s : BatcherSystem}

/-- Every detached batch is announced once and every completed operation reported once, in
    any interleaving of the tasks. -/
theorem observations_balanced (h : lts.Reachable s) {log : List BatchObservation}
    (hlog : s.batcher.observer = some log) : Balanced s.batcher log :=
  (heard_of_reachable h hlog).balanced (systemGood_inductive.holds h).batcher

/-- A batcher of two with an observer. -/
def observedPair : BatcherSystem :=
  { pairSystem with batcher := { pairSystem.batcher with observer := some [.stateChanged 0 0] } }

theorem observedPair_init : Init observedPair := ⟨rfl, rfl, rfl, rfl, 2, 1, true, rfl⟩

theorem observations_balanced_pairRun : ∃ s log,
    Lts.exec step observedPair (pairRun ++ [.shutdown]) = .ok s ∧
      s.batcher.observer = some log ∧ Balanced s.batcher log ∧ log.length = 10 :=
  ⟨_, _, rfl, rfl, observations_balanced (Lts.reachable_of_exec observedPair_init
    (s := observedPair) (l := pairRun ++ [.shutdown]) rfl) rfl, rfl⟩

/-- Between any two sections the last call of `batch_state_changed` has the counters of the
    batcher. -/
theorem gauges_mirror (h : lts.Reachable s) {log : List BatchObservation}
    (hlog : s.batcher.observer = some log) :
    (log.filterMap (·.gauges?)).getLast? = some (s.batcher.pending, s.batcher.inflight) :=
  (heard_of_reachable h hlog).gauges

theorem gauges_mirror_pairRun : ∃ s log,
    Lts.exec step observedPair pairRun = .ok s ∧ s.batcher.observer = some log ∧
      (log.filterMap (·.gauges?)).getLast? = some (s.batcher.pending, s.batcher.inflight) ∧
      s.batcher.pending = 1 :=
  ⟨_, _, rfl, rfl, gauges_mirror (Lts.reachable_of_exec observedPair_init
    (s := observedPair) (l := pairRun) rfl) rfl, rfl⟩

end BatcherSystem

end Gateway
