import Gateway.Spec.BatcherSections

/-!
# Items join and leave

The sections of `submit` and of `_cancel_item` keep the invariant and raise no error of
broken bookkeeping.

## Key results

- `Good.submitLocked`: a request is accepted
- `Good.cancelItem`: a member cancels
-/

namespace Gateway.DynamicBatcher

variable {b b' : DynamicBatcher} {i : ItemId} {bt : BatchId}

/-! ## Submitting a request -/

section Submit

/-- The batcher when a new item has joined its pending batch, before a full batch is
    detached. -/
structure Joined (b : DynamicBatcher) (item : BatchItem) (bt : BatchId) (b' : DynamicBatcher) :
    Prop where
  maxSize : b'.maxSize = b.maxSize
  closed : b'.closed = b.closed
  inflight : b'.inflight = b.inflight
  flushes : b'.flushes = b.flushes
  items : b'.items = b.items ++ [item]
  groups : GroupsGood b'
  get : b'.groups.get? item.key = some bt
  size : b'.batchSize bt ≤ b.maxSize
  small : ∀ key bt' (batch' : PendingBatch), b'.groups.get? key = some bt' →
    b'.batches[bt']? = some batch' → bt' ≠ bt → batch'.items.length < b.maxSize
  timer : ∀ (t : TimerId) (timer : TimerTask), b'.timers[t]? = some timer →
    timer.tracked = true ∨ b.timers[t]? = some timer

theorem readings_append {item : BatchItem} (h : b'.items = b.items ++ [item]) :
    b'.stateOf b.items.length = some item.state ∧ b'.keyOf b.items.length = some item.key ∧
      (∀ j, j ≠ b.items.length → b'.stateOf j = b.stateOf j) ∧
      (∀ j, j ≠ b.items.length → b'.keyOf j = b.keyOf j) ∧ b.stateOf b.items.length = none := by
  have hother : ∀ j, j ≠ b.items.length → (b.items ++ [item])[j]? = b.items[j]? := by
    intro j hne
    rcases Nat.lt_or_gt_of_ne hne with hlt | hgt
    · exact List.getElem?_append_left hlt
    · rw [List.getElem?_eq_none (Nat.le_of_lt hgt), List.getElem?_eq_none]
      rw [List.length_append]
      exact hgt
  unfold stateOf keyOf
  rw [h]
  refine ⟨by simp, by simp, fun j hne => ?_, fun j hne => ?_, by simp⟩
  · rw [hother j hne]
  · rw [hother j hne]

/-- The new item joins the pending batch its key has. -/
theorem Good.joined_old (h : Good b) {item : BatchItem} (hst : item.state = .pending)
    (hget : b.groups.get? item.key = some bt) (hmax : b'.maxSize = b.maxSize)
    (hclosed : b'.closed = b.closed) (hinflight : b'.inflight = b.inflight)
    (hflushes : b'.flushes = b.flushes) (hitems : b'.items = b.items ++ [item])
    (hgroups : b'.groups = b.groups)
    (hbatches : b'.batches = b.batches.modify bt fun batch =>
      { batch with items := batch.items ++ [b.items.length] })
    (htimers : b'.timers = b.timers) (hpending : b'.pending = b.pending + 1) :
    Joined b item bt b' := by
  obtain ⟨hstate, hkey, hstates, hkeys, hnew⟩ := readings_append hitems
  obtain ⟨batch, hbatch, hbatchKey, -, hsorted, t, timer, ht, htimer, hbt, halive⟩ :=
    h.groups.batch _ bt hget
  have hmember := h.groups.member _ bt batch hget hbatch
  have hread : ∀ bt' : BatchId, b'.batches[bt']? =
      if bt = bt' then some { key := item.key, items := batch.items ++ [b.items.length]
                              timerTask := some t } else b.batches[bt']? := by
    intro bt'
    rw [hbatches, getElem?_modify_eq]
    by_cases heq : bt = bt'
    · rw [if_pos heq, if_pos heq, ← heq, hbatch, ← hbatchKey, ← ht]
      rfl
    · rw [if_neg heq, if_neg heq]
  have hsize : b'.batchSize bt = batch.items.length + 1 := by
    unfold batchSize
    rw [hread, if_pos rfl]
    simp
  refine ⟨hmax, hclosed, hinflight, hflushes, hitems, ?_, hgroups ▸ hget, ?_, ?_,
    fun _ _ htimer => .inr (htimers ▸ htimer)⟩
  · refine h.groups.join batch.items (fun key' => ?_) hread
      (fun key' hget' => h.groups.key_unique hget' hget) hmember (fun j hst hkj => ?_) ?_
      (hst ▸ hstate) hkey hstates hkeys hnew ⟨timer, htimers ▸ htimer, hbt, halive⟩
      (fun _ _ htimer' => htimers ▸ htimer') (fun t' timer' htimer' => ?_) ?_
    · rw [hgroups]
      by_cases heq : item.key = key'
      · rw [if_pos heq, ← heq, hget]
      · rw [if_neg heq]
    · obtain ⟨bt', batch', hget', hbatch', hj⟩ := h.groups.pending j _ hst hkj
      obtain rfl := Option.some.inj (hget'.symm.trans hget)
      obtain rfl := Option.some.inj (hbatch.symm.trans hbatch')
      exact hj
    · refine List.pairwise_append.mpr ⟨hsorted, by simp, fun j hj j' hj' => ?_⟩
      rw [List.mem_singleton.mp hj']
      exact lt_of_stateOf (hmember j hj).1
    · rw [htimers] at htimer'
      by_cases heq : timer'.batch = bt
      · refine .inl ⟨heq, ?_⟩
        obtain ⟨batch', hbatch', htask⟩ := h.groups.timer t' timer' htimer'
        rw [heq] at hbatch'
        obtain rfl := Option.some.inj (hbatch.symm.trans hbatch')
        exact Option.some.inj (htask.symm.trans ht)
      · exact .inr ⟨heq, htimer'⟩
    · have hsum := Dict.sum_change (fun bt => (b.batchSize bt : Int))
        (fun bt => (b'.batchSize bt : Int)) hget fun key' bt' hne' hget' => by
          have hbt' : bt ≠ bt' := by
            rintro rfl
            exact hne' (h.groups.key_unique hget' hget)
          unfold batchSize
          rw [hread, if_neg hbt']
      rw [hgroups, hsum, hsize, batchSize_of hbatch, hpending, h.groups.count]
      omega
  · rw [hsize]
    exact h.small _ bt batch hget hbatch
  · intro key' bt' batch' hget' hbatch' hbt'
    rw [hread, if_neg (Ne.symm hbt')] at hbatch'
    exact h.small key' bt' batch' (hgroups ▸ hget') hbatch'

/-- The new item begins a pending batch, with a timer of its own. -/
theorem Good.joined_new (h : Good b) {item : BatchItem} (hst : item.state = .pending)
    (hget : b.groups.get? item.key = none) (hmax : b'.maxSize = b.maxSize)
    (hclosed : b'.closed = b.closed) (hinflight : b'.inflight = b.inflight)
    (hflushes : b'.flushes = b.flushes) (hitems : b'.items = b.items ++ [item])
    (hgroups : b'.groups = b.groups.set item.key b.batches.length)
    (hbatches : b'.batches = b.batches ++
      [{ key := item.key, items := [b.items.length], timerTask := some b.timers.length }])
    (htimers : b'.timers = b.timers ++
      [{ batch := b.batches.length, state := .created, cancelRequested := false
         tracked := true }])
    (hpending : b'.pending = b.pending + 1) : Joined b item b.batches.length b' := by
  obtain ⟨hstate, hkey, hstates, hkeys, hnew⟩ := readings_append hitems
  have hread : ∀ bt' : BatchId, b'.batches[bt']? =
      if b.batches.length = bt' then
        some { key := item.key, items := [] ++ [b.items.length], timerTask := some b.timers.length }
      else b.batches[bt']? := by
    intro bt'
    rw [hbatches]
    by_cases heq : b.batches.length = bt'
    · rw [if_pos heq, ← heq, List.getElem?_concat_length]
      rfl
    · rw [if_neg heq]
      rcases Nat.lt_or_gt_of_ne heq with hgt | hlt
      · rw [List.getElem?_eq_none (Nat.le_of_lt hgt), List.getElem?_eq_none]
        rw [List.length_append]
        exact hgt
      · exact List.getElem?_append_left hlt
  have hfresh : ∀ key' bt', b.groups.get? key' = some bt' → b.batches.length ≠ bt' := by
    rintro key' bt' hget' rfl
    obtain ⟨batch, hbatch, -⟩ := h.groups.batch key' _ hget'
    exact Nat.lt_irrefl _ (List.getElem?_eq_some_iff.mp hbatch).1
  have hsize : b'.batchSize b.batches.length = 1 := by
    unfold batchSize
    rw [hread, if_pos rfl]
    rfl
  refine ⟨hmax, hclosed, hinflight, hflushes, hitems, ?_, ?_, ?_, ?_, fun t' timer' htimer' => ?_⟩
  · refine h.groups.join [] (fun key' => ?_) hread
      (fun key' hget' => absurd rfl (hfresh key' _ hget')) (by intros; contradiction) (fun j hst hkj => ?_) (by simp)
      (hst ▸ hstate) hkey hstates hkeys hnew
      ⟨⟨b.batches.length, .created, false, true⟩, ?_, rfl, rfl⟩
      (fun t' timer' htimer' => ?_) (fun t' timer' htimer' => ?_) ?_
    · rw [hgroups]
      exact Dict.get?_set ..
    · obtain ⟨bt', batch', hget', -⟩ := h.groups.pending j _ hst hkj
      cases hget.symm.trans hget'
    · rw [htimers]
      exact List.getElem?_concat_length
    · have hlt : t' < b.timers.length := (List.getElem?_eq_some_iff.mp htimer').1
      rw [htimers]
      exact (List.getElem?_append_left hlt).trans htimer'
    · rw [htimers] at htimer'
      rcases Nat.lt_trichotomy t' b.timers.length with hlt | rfl | hgt
      · rw [List.getElem?_append_left hlt] at htimer'
        refine .inr ⟨?_, htimer'⟩
        obtain ⟨batch', hbatch', -⟩ := h.groups.timer t' timer' htimer'
        exact Nat.ne_of_lt (List.getElem?_eq_some_iff.mp hbatch').1
      · rw [List.getElem?_concat_length] at htimer'
        obtain rfl := Option.some.inj htimer'
        exact .inl ⟨rfl, rfl⟩
      · have hlength := (List.getElem?_eq_some_iff.mp htimer').1
        rw [List.length_append] at hlength
        exact absurd (Nat.le_of_lt_succ hlength) (Nat.not_le_of_gt hgt)
    · have hsum : b.groups.sum (fun bt => (b'.batchSize bt : Int)) =
          b.groups.sum fun bt => (b.batchSize bt : Int) := by
        refine Dict.sum_congr fun key' bt' hget' => ?_
        unfold batchSize
        rw [hread, if_neg (hfresh key' bt' hget')]
      rw [hgroups, Dict.sum_set_new hget, hsum, hsize, hpending, h.groups.count]
      rfl
  · rw [hgroups, Dict.get?_set, if_pos rfl]
  · rw [hsize]
    exact Nat.le_trans (by decide) h.maxSize
  · intro key' bt' batch' hget' hbatch' hbt'
    rw [hgroups, Dict.get?_set] at hget'
    split at hget'
    · exact absurd (Option.some.inj hget').symm hbt'
    rw [hread, if_neg (Ne.symm hbt')] at hbatch'
    exact h.small key' bt' batch' hget' hbatch'
  · rw [htimers, List.getElem?_append] at htimer'
    split at htimer'
    · exact .inr htimer'
    · refine .inl ?_
      rw [List.getElem?_singleton] at htimer'
      split at htimer'
      · obtain rfl := Option.some.inj htimer'
        rfl
      · cases htimer'

/-- The new item of a `submit`. -/
def newItem (tenantId : String) (request : ChatCompletionRequest) (submittedAt : Int) : BatchItem where
  tenantId := tenantId
  request := request
  key := compatibilityKey tenantId request
  submittedAt := submittedAt
  state := .pending
  future := .pending

/-- `submit` up to the test of the size. -/
theorem Good.joined (h : Good b) (tenantId : String) (request : ChatCompletionRequest)
    (submittedAt : Int) : ∃ bt b',
    (((b.addItem tenantId request submittedAt).ensureBatch (compatibilityKey tenantId request)).1 = bt ∧
      ((b.addItem tenantId request submittedAt).ensureBatch
        (compatibilityKey tenantId request)).2.enqueue bt b.items.length = b') ∧
      Joined b (newItem tenantId request submittedAt) bt b' := by
  unfold ensureBatch
  cases hget : b.groups.get? (compatibilityKey tenantId request) with
  | some bt =>
    have hget' : (b.addItem tenantId request submittedAt).groups.get?
        (compatibilityKey tenantId request) = some bt := hget
    rw [hget']
    exact ⟨_, _, ⟨rfl, rfl⟩,
      h.joined_old rfl hget rfl rfl rfl rfl rfl rfl rfl rfl rfl⟩
  | none =>
    have hget' : (b.addItem tenantId request submittedAt).groups.get?
        (compatibilityKey tenantId request) = none := hget
    rw [hget']
    refine ⟨_, _, ⟨rfl, rfl⟩, h.joined_new rfl hget rfl rfl rfl rfl rfl rfl ?_ rfl rfl⟩
    -- the batch was made empty and the item is its first
    refine List.ext_getElem? fun bt' => ?_
    simp only [enqueue, notifyState, observe_batches, addItem, getElem?_modify_eq]
    split
    · next heq =>
      rw [← heq, List.getElem?_concat_length, List.getElem?_concat_length]
      rfl
    · next hne =>
      rcases Nat.lt_or_gt_of_ne hne with hgt | hlt
      · rw [List.getElem?_eq_none, List.getElem?_eq_none] <;> simp <;> omega
      · rw [List.getElem?_append_left hlt, List.getElem?_append_left hlt]

section Joined

variable {item : BatchItem}

theorem Joined.flushesGood (hj : Joined b item bt b') (h : Good b) (hpending : item.state = .pending) :
    FlushesGood b' := by
  obtain ⟨hstate, -, hstates, hkeys, -⟩ := readings_append hj.items
  have hold : ∀ j st, b.stateOf j = some st → j ≠ b.items.length :=
    fun j st hst => Nat.ne_of_lt (lt_of_stateOf hst)
  refine h.flushes.congr hj.flushes hj.maxSize hj.inflight hj.closed.trans (fun j key hk => ?_)
    (fun j hst => ?_) (fun j hst => ?_) (fun j hst => ?_) fun j hst => ?_
  · obtain ⟨item', hitem', -⟩ := keyOf_eq_some.mp hk
    rw [hkeys j (Nat.ne_of_lt (List.getElem?_eq_some_iff.mp hitem').1)]
    exact hk
  · by_cases hne : j = b.items.length
    · -- the new item comes after all that were ever detached
      refine .inr fun task htask k hk => ?_
      obtain ⟨key, hmem⟩ := h.flushes.member task htask
      obtain ⟨item', hitem', -⟩ := keyOf_eq_some.mp (hmem k hk).1
      rw [hne]
      exact (List.getElem?_eq_some_iff.mp hitem').1
    · exact .inl ((hstates j hne).symm.trans hst)
  · exact .inl ((hstates j (hold j _ hst)).trans hst)
  · exact (hstates j (hold j _ hst)).trans hst
  · by_cases hne : j = b.items.length
    · rw [hne, hstate, hpending] at hst
      exact nomatch hst
    · exact (hstates j hne).symm.trans hst

theorem Joined.itemsGood (hj : Joined b item bt b') (h : Good b) (hopen : b.closed = false)
    (hkey : item.key = compatibilityKey item.tenantId item.request)
    (hpending : item.state = .pending) (hfuture : item.future = .pending) : ItemsGood b' := by
  have hsame : ∀ task ∈ b.flushes, task.answer.isSome = true → ∃ task' ∈ b'.flushes,
      task'.items = task.items ∧ task'.answer = task.answer :=
    fun task htask _ => ⟨task, hj.flushes ▸ htask, rfl, rfl⟩
  refine h.items.step (fun i item' hitem' => ?_) (fun _ _ hserved => hserved.mono hsame)
    fun _ _ _ _ _ hfailed => hfailed.mono hsame (fun hc => hj.closed.trans hc) fun hc => ?_
  · rw [hj.items] at hitem'
    rcases Nat.lt_trichotomy i b.items.length with hlt | rfl | hgt
    · rw [List.getElem?_append_left hlt] at hitem'
      exact .old item' hitem' rfl rfl rfl (.inl (.refl item'))
    · rw [List.getElem?_concat_length] at hitem'
      obtain rfl := Option.some.inj hitem'
      exact .new hkey hpending hfuture
    · have hlength := (List.getElem?_eq_some_iff.mp hitem').1
      rw [List.length_append] at hlength
      exact absurd (Nat.le_of_lt_succ hlength) (Nat.not_le_of_gt hgt)
  · rw [hopen] at hc
    exact nomatch hc

theorem Joined.evolves (hj : Joined b item bt b') : Evolves b b' where
  closed hc := hj.closed.trans hc
  item i item' hitem' := by
    refine ⟨item', ?_, rfl, rfl, fun _ => rfl⟩
    rw [hj.items, List.getElem?_append_left (List.getElem?_eq_some_iff.mp hitem').1]
    exact hitem'
  pending i hst := by
    rcases Nat.lt_or_ge i b.items.length with hlt | hge
    · obtain ⟨-, -, hstates, -⟩ := readings_append hj.items
      exact .inl ((hstates i (Nat.ne_of_lt hlt)).symm.trans hst)
    · exact .inr hge
  task _ task htask := ⟨task, hj.flushes ▸ htask, rfl, id⟩
  detached _ _ htask := .inl (List.getElem?_eq_some_iff.mp (hj.flushes ▸ htask)).1

theorem Joined.keepsCancelled (hj : Joined b item bt b') (hpending : item.state = .pending) :
    KeepsCancelled b b' := by
  obtain ⟨hstate, -, hstates, -⟩ := readings_append hj.items
  intro i hst
  by_cases hne : i = b.items.length
  · rw [hne, hstate, hpending] at hst
    exact nomatch hst
  · exact (hstates i hne).symm.trans hst

end Joined

/-- The section of `submit` keeps the invariant. -/
theorem Good.submitLocked (h : Good b) (hopen : b.closed = false) (tenantId : String)
    (request : ChatCompletionRequest) (submittedAt dispatchedAt : Int) :
    ∃ b', b.submitLocked tenantId request submittedAt dispatchedAt = .ok b' ∧ Good b' ∧
      Evolves b b' ∧ b'.items.length = b.items.length + 1 ∧
      (∃ item : BatchItem, b'.items[b.items.length]? = some item ∧ item.tenantId = tenantId ∧
        item.request = request) ∧ KeepsCancelled b b' ∧ KeepsTasks b b' := by
  obtain ⟨bt, b₂, ⟨hbt, hb₂⟩, hj⟩ := h.joined tenantId request submittedAt
  have hnew : b₂.items[b.items.length]? = some (newItem tenantId request submittedAt) := by
    rw [hj.items, List.getElem?_concat_length]
  have hflushes := hj.flushesGood h rfl
  have hitems := hj.itemsGood h hopen rfl rfl rfl
  have hopen₂ : b₂.closed = false := hj.closed.trans hopen
  have hmax : 2 ≤ b₂.maxSize := by rw [hj.maxSize]; exact h.maxSize
  have hlength : b₂.items.length = b.items.length + 1 := by simp [hj.items]
  unfold DynamicBatcher.submitLocked
  simp only [hbt, hb₂]
  split
  · next hfull =>
    have hsize : ∀ batch : PendingBatch, b₂.batches[bt]? = some batch →
        b₂.groups.get? batch.key = some bt → batch.items.length ≤ b₂.maxSize ∧
          (FlushReason.size = .size ↔ batch.items.length = b₂.maxSize) := by
      intro batch hbatch _
      have hle := hj.size
      rw [batchSize_of hbatch] at hfull hle
      rw [hj.maxSize]
      exact ⟨hle, by simp [Nat.le_antisymm hle hfull]⟩
    obtain ⟨b₃, hok, hgood, hevolves, hdetached⟩ :=
      Good.detachLocked hmax hj.groups hflushes hitems hopen₂ (hj.maxSize ▸ hj.small) hsize
    obtain ⟨item, hitem, htenant, hrequest, -⟩ := hevolves.item _ _ hnew
    refine ⟨b₃, hok, hgood, hj.evolves.trans hevolves, hdetached.length.trans hlength,
      ⟨item, hitem, htenant, hrequest⟩, fun i hst => hj.keepsCancelled rfl i (hdetached.keepsCancelled i hst),
      hdetached.closed.trans hj.closed, fun t timer' htimer' => ?_, fun _ _ _ => .inl hopen⟩
    obtain ⟨timer, htimer, hstate, htracked⟩ := hdetached.timers htimer'
    rcases hj.timer t timer htimer with hnew | hold
    · exact .inl ⟨hopen, fun ht => nomatch (htracked.trans hnew).symm.trans ht⟩
    · exact .inr ⟨timer, hold, fun hst => hstate.trans hst, fun ht => .inl (htracked ▸ ht)⟩
  · next hfree =>
    refine ⟨b₂, rfl, ⟨hmax, hj.groups, ?_, hflushes, hitems, ?_, ?_⟩, hj.evolves, hlength,
      ⟨_, hnew, rfl, rfl⟩, hj.keepsCancelled rfl, hj.closed, fun t timer' htimer' => ?_, fun _ _ _ => .inl hopen⟩
    · intro key bt' batch' hget' hbatch'
      by_cases hne : bt' = bt
      · subst hne
        rw [batchSize_of hbatch'] at hfree
        rw [hj.maxSize]
        exact Nat.lt_of_not_le hfree
      · rw [hj.maxSize]
        exact hj.small key bt' batch' hget' hbatch' hne
    · intro hc
      rw [hopen₂] at hc
      exact nomatch hc
    · intro hc
      rw [hopen₂] at hc
      exact nomatch hc
    · rcases hj.timer t timer' htimer' with hnew | hold
      · exact .inl ⟨hopen, fun ht => nomatch hnew.symm.trans ht⟩
      · exact .inr ⟨timer', hold, id, .inl⟩

end Submit

/-! ## Cancelling a member -/

section Cancel

variable {item : BatchItem}

/-- An unsettled item is cancelled, and no detached batch changes. -/
structure Cancels (b : DynamicBatcher) (i : ItemId) (b' : DynamicBatcher) : Prop where
  maxSize : b'.maxSize = b.maxSize
  closed : b'.closed = b.closed
  inflight : b'.inflight = b.inflight
  flushes : b'.flushes = b.flushes
  unsettled : b.stateOf i = some .pending ∨ b.stateOf i = some .dispatched
  read : ∀ j : ItemId, b'.items[j]? =
    if i = j then b.items[j]?.map ({ · with state := .cancelled, future := .cancelled })
    else b.items[j]?

theorem Cancels.keyOf (h : Cancels b i b') (j : ItemId) : b'.keyOf j = b.keyOf j := by
  unfold DynamicBatcher.keyOf
  rw [h.read]
  split
  · rw [Option.map_map]
    rfl
  · rfl

theorem Cancels.stateOf_self (h : Cancels b i b') : b'.stateOf i = some .cancelled := by
  have hitem : ∃ item, b.items[i]? = some item := by
    rcases h.unsettled with hst | hst <;>
    · obtain ⟨item, hitem, -⟩ := stateOf_eq_some.mp hst
      exact ⟨item, hitem⟩
  obtain ⟨item, hitem⟩ := hitem
  refine stateOf_eq_some.mpr ⟨{ item with state := .cancelled, future := .cancelled }, ?_, rfl⟩
  rw [h.read, if_pos rfl, hitem]
  rfl

theorem Cancels.stateOf_other (h : Cancels b i b') {j : ItemId} (hne : j ≠ i) :
    b'.stateOf j = b.stateOf j := by
  unfold DynamicBatcher.stateOf
  rw [h.read, if_neg (Ne.symm hne)]

theorem Cancels.pending_iff (h : Cancels b i b') (j : ItemId) :
    b'.stateOf j = some .pending ↔ b.stateOf j = some .pending ∧ j ≠ i := by
  by_cases hj : j = i
  · subst hj
    simp [h.stateOf_self]
  · simp [h.stateOf_other hj, hj]

theorem Cancels.flushesGood (h : Cancels b i b') (hb : FlushesGood b) : FlushesGood b' := by
  refine hb.congr h.flushes h.maxSize h.inflight h.closed.trans (fun j key hk => (h.keyOf j).trans hk)
    (fun j hst => .inl ((h.pending_iff j).mp hst).1) (fun j hst => ?_) (fun j hst => ?_)
    fun j hst => ?_
  · by_cases hj : j = i
    · exact .inr (hj ▸ h.stateOf_self)
    · exact .inl ((h.stateOf_other hj).trans hst)
  · by_cases hj : j = i
    · exact hj ▸ h.stateOf_self
    · exact (h.stateOf_other hj).trans hst
  · have hj : j ≠ i := by
      rintro rfl
      exact nomatch h.stateOf_self.symm.trans hst
    exact (h.stateOf_other hj).symm.trans hst

theorem Cancels.itemsGood (h : Cancels b i b') (hb : ItemsGood b) : ItemsGood b' := by
  have hsame : ∀ task ∈ b.flushes, task.answer.isSome = true → ∃ task' ∈ b'.flushes,
      task'.items = task.items ∧ task'.answer = task.answer :=
    fun task htask _ => ⟨task, h.flushes ▸ htask, rfl, rfl⟩
  refine hb.step (fun j item' hitem' => ?_) (fun _ _ hserved => hserved.mono hsame)
    fun _ _ _ _ _ hfailed => hfailed.mono hsame (fun hc => h.closed.trans hc)
      fun _ task htask hj => ⟨task, h.flushes ▸ htask, hj, id⟩
  rw [h.read] at hitem'
  split at hitem'
  · obtain ⟨item, hitem, rfl⟩ := Option.map_eq_some_iff.mp hitem'
    exact .old item hitem rfl rfl rfl (.inr (.inr ⟨rfl, rfl⟩))
  · exact .old item' hitem' rfl rfl rfl (.inl (.refl item'))

theorem Cancels.evolves (h : Cancels b i b') (hb : ItemsGood b) : Evolves b b' where
  closed hc := h.closed.trans hc
  item j item hitem := by
    rw [h.read]
    by_cases hj : i = j
    · subst hj
      rw [if_pos rfl, hitem]
      refine ⟨_, rfl, rfl, rfl, fun hdone => ?_⟩
      -- an unsettled item has no value
      rcases (hb.future i item hitem).mp hdone with hst | hst <;>
      · rcases h.unsettled with hst' | hst' <;>
          exact nomatch (stateOf_of hitem).symm.trans hst' |>.symm.trans (congrArg some hst)
    · rw [if_neg hj]
      exact ⟨item, hitem, rfl, rfl, fun _ => rfl⟩
  pending j hst := .inl ((h.pending_iff j).mp hst).1
  task _ task htask := ⟨task, h.flushes ▸ htask, rfl, id⟩
  detached _ _ htask := .inl (List.getElem?_eq_some_iff.mp (h.flushes ▸ htask)).1

/-- A dispatched item is in no pending batch. -/
theorem Cancels.groupsGood (h : Cancels b i b') (hb : GroupsGood b)
    (hst : b.stateOf i = some .dispatched) (hgroups : b'.groups = b.groups)
    (hbatches : b'.batches = b.batches) (hpending : b'.pending = b.pending)
    (htimers : b'.timers = b.timers) : GroupsGood b' := by
  refine hb.congr hgroups hbatches hpending h.keyOf (fun j => ?_)
    (fun t timer htimer => ⟨timer, htimers ▸ htimer, rfl, fun _ => rfl⟩) (htimers ▸ rfl)
  rw [h.pending_iff]
  refine ⟨And.left, fun hj => ⟨hj, ?_⟩⟩
  rintro rfl
  exact nomatch hst.symm.trans hj

theorem Cancels.good (h : Cancels b i b') (hb : Good b) (hgroups : GroupsGood b')
    (hsmall : GroupsSmall b') (hclosed : b'.closed = true → b'.groups.keys = []) : Good b' where
  maxSize := by rw [h.maxSize]; exact hb.maxSize
  groups := hgroups
  small := hsmall
  flushes := h.flushesGood hb.flushes
  items := h.itemsGood hb.items
  closed := hclosed
  shut hc := by
    rw [h.flushes]
    exact hb.shut (h.closed ▸ hc)

/-- After the shutdown no item is pending. -/
theorem Good.not_pending_of_closed (h : Good b) (hc : b.closed = true) (i : ItemId) :
    b.stateOf i ≠ some .pending := by
  intro hst
  obtain ⟨key, hkey⟩ := keyOf_of_stateOf hst
  obtain ⟨bt, -, hget, -⟩ := h.groups.pending i key hst hkey
  have hmem : key ∈ b.groups.keys := Dict.mem_keys.mpr ⟨bt, hget⟩
  rw [h.closed hc] at hmem
  exact nomatch hmem

/-- Leaving a batch changes the pending batches only. -/
theorem leaveBatch_frame (b : DynamicBatcher) (i : ItemId) (key : String) :
    (b.leaveBatch i key).maxSize = b.maxSize ∧ (b.leaveBatch i key).closed = b.closed ∧
      (b.leaveBatch i key).inflight = b.inflight ∧ (b.leaveBatch i key).flushes = b.flushes ∧
      (b.leaveBatch i key).items = b.items := by
  unfold leaveBatch
  split
  · simp
  split
  · simp
  next batch _ =>
  split
  · by_cases hrest : batch.items.erase i = [] <;> simp only [notifyState, hrest] <;> simp
  · simp

/-- A pending item leaves its batch; the batch goes if it was the last one. -/
theorem Good.leaveBatch (h : Good b) (hcancels : Cancels b i b') (hitem : b.items[i]? = some item)
    (hst : item.state = .pending) (hgroups : b'.groups = (b.leaveBatch i item.key).groups)
    (hbatches : b'.batches = (b.leaveBatch i item.key).batches)
    (hpending : b'.pending = (b.leaveBatch i item.key).pending)
    (htimers : b'.timers = (b.leaveBatch i item.key).timers) :
    GroupsGood b' ∧ GroupsSmall b' := by
  obtain ⟨bt, batch, hget, hbatch, hi⟩ :=
    h.groups.pending i item.key (hst ▸ stateOf_of hitem) (keyOf_of hitem)
  have hlt : bt < b.batches.length := (List.getElem?_eq_some_iff.mp hbatch).1
  unfold DynamicBatcher.leaveBatch at hgroups hbatches hpending htimers
  simp only [hget, hbatch, hi, if_true, notifyState, observe_groups, observe_batches,
    observe_pending, observe_timers] at hgroups hbatches hpending htimers
  by_cases hrest : batch.items.erase i = []
  · simp only [hrest, if_true, cancelTimer_groups, cancelTimer_batches, cancelTimer_pending]
      at hgroups hbatches hpending htimers
    have honly : batch.items = [i] := by
      rcases List.erase_eq_nil_iff.mp hrest with hnil | hone
      · rw [hnil] at hi
        cases hi
      · exact hone
    have hread : ∀ bt', bt' ≠ bt → b'.batches[bt']? = b.batches[bt']? := by
      intro bt' hne
      rw [hbatches, List.getElem?_set, if_neg (Ne.symm hne)]
    constructor
    · refine h.groups.erase hget hbatch hgroups hread ⟨{ batch with items := [] }, ?_, rfl⟩ ?_
        hcancels.keyOf (fun j => ?_) (fun t timer htimer => ?_) ?_
      · rw [hbatches, List.getElem?_set, if_pos rfl, if_pos hlt]
      · rw [hpending, honly]
        rfl
      · rw [hcancels.pending_iff, honly, List.mem_singleton]
      · rw [htimers]
        exact h.groups.cancelTimer_other hget hbatch htimer rfl
      · rw [htimers]
        exact cancelTimer_length
    · intro key' bt' batch' hget' hbatch'
      rw [hgroups, Dict.get?_erase] at hget'
      split at hget'
      · cases hget'
      next hne =>
      have hbt : bt' ≠ bt := by
        rintro rfl
        exact hne (h.groups.key_unique hget hget')
      rw [hread bt' hbt] at hbatch'
      rw [hcancels.maxSize]
      exact h.small key' bt' batch' hget' hbatch'
  · simp only [hrest, if_false] at hgroups hbatches hpending htimers
    refine ⟨h.groups.leave hget hbatch hi hrest hgroups hbatches hpending hcancels.keyOf
      hcancels.pending_iff htimers, fun key' bt' batch' hget' hbatch' => ?_⟩
    rw [hgroups] at hget'
    rw [hcancels.maxSize]
    rw [hbatches, List.getElem?_set] at hbatch'
    split at hbatch'
    · next heq =>
      subst heq
      obtain rfl := Option.some.inj hbatch'
      exact Nat.lt_of_le_of_lt List.length_erase_le (h.small key' bt batch hget' hbatch)
    · exact h.small key' bt' batch' hget' hbatch'

theorem leaveBatch_timers {key : String} {t : TimerId} {timer' : TimerTask}
    (h : (b.leaveBatch i key).timers[t]? = some timer') : ∃ timer, b.timers[t]? = some timer ∧
      timer'.state = timer.state ∧ timer'.tracked = timer.tracked := by
  unfold DynamicBatcher.leaveBatch at h
  split at h
  · exact ⟨timer', h, rfl, rfl⟩
  split at h
  · exact ⟨timer', h, rfl, rfl⟩
  next batch _ =>
  split at h
  · by_cases hrest : batch.items.erase i = []
    · simp only [hrest, if_true, notifyState, observe_timers] at h
      exact cancelTimer_back h rfl
    · simp only [hrest, if_false, notifyState, observe_timers] at h
      exact ⟨timer', h, rfl, rfl⟩
  · exact ⟨timer', h, rfl, rfl⟩

/-- Two updates of one item, read at an item. -/
theorem modifyItem_modifyItem {g g' : BatchItem → BatchItem} (j : ItemId) :
    ((b.modifyItem i g).modifyItem i g').items[j]? =
      if i = j then b.items[j]?.map (g' ∘ g) else b.items[j]? := by
  simp only [modifyItem, getElem?_modify_eq]
  split
  · rw [Option.map_map]
  · rfl

/-- The cancelled item has had no value. -/
theorem ItemsGood.cancel_read (h : ItemsGood b) (hitem : b.items[i]? = some item)
    (hst : item.state = .pending ∨ item.state = .dispatched) (j : ItemId) :
    (if i = j then b.items[j]?.map ((fun item => { item with future := item.future.cancel }) ∘
      ({ · with state := .cancelled })) else b.items[j]?) =
    if i = j then b.items[j]?.map ({ · with state := .cancelled, future := .cancelled })
    else b.items[j]? := by
  split
  · next heq =>
    rw [← heq, hitem]
    have hdone : item.future = .pending := by
      refine Future.done_eq_false.mp (Bool.eq_false_iff.mpr fun hdone => ?_)
      rcases (h.future i item hitem).mp hdone with hst' | hst' <;>
        simp [hst'] at hst
    simp [hdone, Future.cancel]
  · rfl

/-- The section of `_cancel_item` keeps the invariant. -/
theorem Good.cancelItem (h : Good b) (i : ItemId) :
    Good (b.cancelItem i) ∧ Evolves b (b.cancelItem i) ∧
      (b.cancelItem i).items.length = b.items.length ∧
      (∀ j, j ≠ i → (b.cancelItem i).stateOf j = b.stateOf j) ∧ KeepsTasks b (b.cancelItem i) := by
  unfold DynamicBatcher.cancelItem
  split
  · exact ⟨h, .refl b, rfl, fun _ _ => rfl, .of_same rfl rfl rfl⟩
  next item hitem =>
  split
  · next hst =>
    obtain ⟨hmax, hclosed, hinflight, hflushes, hitems⟩ := leaveBatch_frame b i item.key
    have hcancels : Cancels b i (((b.leaveBatch i item.key).modifyItem i
        ({ · with state := .cancelled })).modifyItem i
          fun item => { item with future := item.future.cancel }) := by
      refine ⟨hmax, hclosed, hinflight, hflushes, .inl (hst ▸ stateOf_of hitem), fun j => ?_⟩
      rw [modifyItem_modifyItem, hitems]
      exact h.items.cancel_read hitem (.inl hst) j
    obtain ⟨hgroups, hsmall⟩ := h.leaveBatch hcancels hitem hst rfl rfl rfl rfl
    have hgood := hcancels.good h hgroups hsmall fun hc =>
      absurd (hst ▸ stateOf_of hitem) (h.not_pending_of_closed (hclosed ▸ hc) i)
    refine ⟨hgood, hcancels.evolves h.items, by simp [modifyItem, hitems],
      fun j hne => hcancels.stateOf_other hne, hclosed, fun t timer' htimer' => ?_,
      fun f task' htask' => .inr ⟨task', hflushes ▸ htask', id⟩⟩
    obtain ⟨timer, htimer, hstate, htracked⟩ := leaveBatch_timers htimer'
    exact .inr ⟨timer, htimer, fun hs => hstate.trans hs, fun ht => .inl (htracked ▸ ht)⟩
  · next hst =>
    have hcancels : Cancels b i ((b.modifyItem i ({ · with state := .cancelled })).modifyItem i
        fun item => { item with future := item.future.cancel }) := by
      refine ⟨rfl, rfl, rfl, rfl, .inr (hst ▸ stateOf_of hitem), fun j => ?_⟩
      rw [modifyItem_modifyItem]
      exact h.items.cancel_read hitem (.inr hst) j
    have hgroups := hcancels.groupsGood h.groups (hst ▸ stateOf_of hitem) rfl rfl rfl rfl
    exact ⟨hcancels.good h hgroups h.small h.closed, hcancels.evolves h.items, by simp [modifyItem],
      fun j hne => hcancels.stateOf_other hne, .of_same rfl rfl rfl⟩
  · next hpending hdispatched =>
    -- a settled item keeps its value
    have hdone : item.future.done = true := by
      refine (h.items.future i item hitem).mpr ?_
      cases hst : item.state with
      | pending => exact absurd hst hpending
      | dispatched => exact absurd hst hdispatched
      | completed => exact .inl rfl
      | cancelled => exact .inr rfl
    have hsame : b.modifyItem i (fun item => { item with future := item.future.cancel }) = b := by
      unfold modifyItem
      rw [modify_of_fixed hitem (by rw [Future.cancel_of_done hdone])]
    simp only [hsame]
    exact ⟨h, .refl b, trivial, fun _ _ => trivial, .of_same rfl rfl rfl⟩

/-- A cancelled member has a value: it is settled. -/
theorem cancelItem_done (h : b.items[i]? = some item) : ∃ item',
    (b.cancelItem i).items[i]? = some item' ∧ item'.future.done = true := by
  obtain ⟨hlt, -⟩ := List.getElem?_eq_some_iff.mp h
  have hmodify : ∀ b₁ : DynamicBatcher, b₁.items.length = b.items.length → ∃ item' : BatchItem,
      (b₁.modifyItem i fun item => { item with future := item.future.cancel }).items[i]? =
        some item' ∧ item'.future.done = true := by
    intro b₁ hlength
    have hlt₁ : i < b₁.items.length := hlength ▸ hlt
    refine ⟨{ b₁.items[i] with future := b₁.items[i].future.cancel }, ?_, Future.done_cancel _⟩
    unfold modifyItem
    rw [getElem?_modify_eq, if_pos rfl, List.getElem?_eq_getElem hlt₁]
    rfl
  unfold DynamicBatcher.cancelItem
  simp only [h]
  refine hmodify _ ?_
  split
  · simp [modifyItem, (leaveBatch_frame b i item.key).2.2.2.2]
  · simp [modifyItem]
  · rfl

end Cancel

end Gateway.DynamicBatcher
