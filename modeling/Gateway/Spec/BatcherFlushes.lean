import Gateway.Spec.BatcherGroups

/-!
# Detached batches through the sections

How the two things that happen to a detached batch keep `FlushesGood`: it is detached,
and its task changes.

## Key results

- `FlushesGood.detach`, `FlushesGood.replace`
-/

namespace Gateway.DynamicBatcher

variable {b b' : DynamicBatcher} {f : FlushId} {task task' : FlushTask}

theorem mem_set_iff {α : Type} {l : List α} {k : Nat} {x y : α} (hk : k < l.length) :
    y ∈ l.set k x ↔ y = x ∨ ∃ j, j ≠ k ∧ l[j]? = some y := by
  rw [List.mem_iff_getElem?]
  constructor
  · rintro ⟨j, hj⟩
    rw [List.getElem?_set] at hj
    split at hj
    · exact .inl (Option.some.inj hj).symm
    · next hne => exact .inr ⟨j, Ne.symm hne, hj⟩
  · rintro (rfl | ⟨j, hne, hj⟩)
    · exact ⟨k, by rw [List.getElem?_set, if_pos rfl, if_pos hk]⟩
    · exact ⟨j, by rw [List.getElem?_set, if_neg (Ne.symm hne)]; exact hj⟩

/-- An item is in one detached batch at most. -/
theorem FlushesGood.unique (h : FlushesGood b) {f' : FlushId} {i : ItemId}
    (hf : b.flushes[f]? = some task) (hf' : b.flushes[f']? = some task') (hi : i ∈ task.items)
    (hi' : i ∈ task'.items) : f = f' := by
  have hdisjoint := (List.nodup_flatten.mp h.distinct).2
  by_contra hne
  have hmap : ∀ {g : FlushId} {t : FlushTask}, b.flushes[g]? = some t →
      (b.flushes.map (·.items))[g]? = some t.items := by
    intro g t hg
    rw [List.getElem?_map, hg]
    rfl
  obtain ⟨hlt, heq⟩ := List.getElem?_eq_some_iff.mp (hmap hf)
  obtain ⟨hlt', heq'⟩ := List.getElem?_eq_some_iff.mp (hmap hf')
  rcases Nat.lt_or_gt_of_ne hne with hless | hless
  · have hd := List.pairwise_iff_getElem.mp hdisjoint f f' hlt hlt' hless
    exact hd (heq ▸ hi) (heq' ▸ hi')
  · have hd := List.pairwise_iff_getElem.mp hdisjoint f' f hlt' hlt hless
    exact hd (heq' ▸ hi') (heq ▸ hi)

/-- A pending batch is detached. -/
theorem FlushesGood.detach (h : FlushesGood b) (hgroups : GroupsGood b) {key : String}
    {bt : BatchId} {batch : PendingBatch} (hget : b.groups.get? key = some bt)
    (hbatch : b.batches[bt]? = some batch) (hflushes : b'.flushes = b.flushes ++ [task])
    (hitems : task.items = batch.items) (hsound : FlushTask.Sound task b'.closed)
    (hover : task.ended = false)
    (hsize : 1 ≤ task.items.length ∧ task.items.length ≤ b.maxSize ∧
      (task.flushReason = .size ↔ task.items.length = b.maxSize))
    (hmax : b'.maxSize = b.maxSize) (hinflight : b'.inflight = b.inflight + 1)
    (hclosed : b'.closed = b.closed) (hkeys : ∀ i, b'.keyOf i = b.keyOf i)
    (hstates : ∀ i, i ∉ batch.items → b'.stateOf i = b.stateOf i)
    (hdispatched : ∀ i ∈ batch.items, b'.stateOf i = some .dispatched) : FlushesGood b' := by
  have hmember := hgroups.member key bt batch hget hbatch
  have hsorted : batch.items.Pairwise (· < ·) := by
    obtain ⟨batch', hbatch', -, -, hsorted, -⟩ := hgroups.batch key bt hget
    obtain rfl := Option.some.inj (hbatch.symm.trans hbatch')
    exact hsorted
  -- the items of the batch were pending, so no detached batch has them
  have hfree : ∀ old ∈ b.flushes, ∀ i ∈ old.items, i ∉ batch.items := by
    intro old hold i hi hmem
    obtain ⟨_, hk⟩ := h.member old hold
    exact (hk i hi).2 (hmember i hmem).1
  have hold : ∀ {P : FlushTask → Prop}, (∀ t ∈ b.flushes, P t) → P task →
      ∀ t ∈ b'.flushes, P t := by
    intro P hP hnew t ht
    rw [hflushes, List.mem_append, List.mem_singleton] at ht
    rcases ht with ht | rfl
    · exact hP t ht
    · exact hnew
  constructor
  case sound => exact hold (hclosed ▸ h.sound) hsound
  case size => exact hmax ▸ hold h.size hsize
  case sorted => exact hold h.sorted (hitems ▸ hsorted)
  case distinct =>
    rw [hflushes, List.map_append, List.flatten_append, List.nodup_append]
    have hnodup : batch.items.Nodup := hsorted.imp fun hlt => Nat.ne_of_lt hlt
    refine ⟨h.distinct, by simpa [hitems] using hnodup, ?_⟩
    rintro i hi j hj rfl
    obtain ⟨is, his, hmem⟩ := List.mem_flatten.mp hi
    obtain ⟨old, htask, rfl⟩ := List.mem_map.mp his
    exact hfree old htask i hmem (by simpa [hitems] using hj)
  case member =>
    refine hold (fun old htask => ?_) ⟨key, fun i hi => ?_⟩
    · obtain ⟨key', hk⟩ := h.member old htask
      refine ⟨key', fun i hi => ?_⟩
      rw [hkeys, hstates i (hfree old htask i hi)]
      exact hk i hi
    · rw [hitems] at hi
      rw [hkeys, hdispatched i hi]
      exact ⟨(hmember i hi).2, nofun⟩
  case running =>
    refine hold (fun old htask hrun i hi => ?_) fun _ i hi => .inl (hdispatched i (hitems ▸ hi))
    rw [hstates i (hfree old htask i hi)]
    exact h.running old htask hrun i hi
  case dispatched =>
    intro i hst
    rw [hflushes]
    by_cases hi : i ∈ batch.items
    · exact ⟨task, List.mem_append_right _ (List.mem_singleton.mpr rfl), hitems ▸ hi, hover⟩
    · rw [hstates i hi] at hst
      obtain ⟨old, htask, hmem, hrun⟩ := h.dispatched i hst
      exact ⟨old, List.mem_append_left _ htask, hmem, hrun⟩
  case count =>
    rw [hinflight, hflushes, List.countP_append, h.count]
    simp [hover]
  case order =>
    rw [hflushes, List.map_append, List.pairwise_append]
    refine ⟨?_, by simp, ?_⟩
    · simpa only [hkeys] using h.order
    · rintro is his js hjs i hi j hj heq
      obtain ⟨old, htask, rfl⟩ := List.mem_map.mp his
      have hjs' : js = batch.items := by simpa [hitems] using hjs
      rw [hkeys, hkeys] at heq
      exact h.earlier old htask i hi j (hmember j (hjs' ▸ hj)).1 heq
  case earlier =>
    -- what is pending after the batch has gone has another key or was pending before
    have hpending : ∀ j, b'.stateOf j = some .pending → j ∉ batch.items ∧
        b.stateOf j = some .pending := by
      intro j hst
      have hj : j ∉ batch.items := fun hmem => nomatch (hdispatched j hmem).symm.trans hst
      exact ⟨hj, (hstates j hj).symm.trans hst⟩
    refine hold (fun old htask i hi j hst heq => ?_) fun i hi j hst heq => ?_
    · rw [hkeys, hkeys] at heq
      exact h.earlier old htask i hi j (hpending j hst).2 heq
    · obtain ⟨hj, hst'⟩ := hpending j hst
      rw [hkeys, hkeys, (hmember i (hitems ▸ hi)).2] at heq
      obtain ⟨bt', batch', hget', hbatch', hmem⟩ := hgroups.pending j key hst' heq.symm
      obtain rfl := Option.some.inj (hget'.symm.trans hget)
      obtain rfl := Option.some.inj (hbatch.symm.trans hbatch')
      exact absurd hmem hj

/-- The task of a detached batch changes, and its items may be settled with it. -/
theorem FlushesGood.replace (h : FlushesGood b) (hf : b.flushes[f]? = some task)
    (hflushes : b'.flushes = b.flushes.set f task') (hitems : task'.items = task.items)
    (hreason : task'.flushReason = task.flushReason) (hsound : FlushTask.Sound task' b'.closed)
    (hmax : b'.maxSize = b.maxSize) (hclosed : b'.closed = b.closed)
    (hinflight : b'.inflight =
      b.inflight - (if task.ended then 0 else 1) + if task'.ended then 0 else 1)
    (hkeys : ∀ i, b'.keyOf i = b.keyOf i)
    (hstates : ∀ i, i ∉ task.items → b'.stateOf i = b.stateOf i)
    (hsettled : ∀ i ∈ task.items, b'.stateOf i ≠ some .pending)
    (hrunning : task'.ended = false → ∀ i ∈ task.items,
      b'.stateOf i = some .dispatched ∨ b'.stateOf i = some .cancelled)
    (hdispatched : ∀ i ∈ task.items, b'.stateOf i = some .dispatched → task'.ended = false) :
    FlushesGood b' := by
  have hlt : f < b.flushes.length := (List.getElem?_eq_some_iff.mp hf).1
  have hmem : task ∈ b.flushes := List.mem_of_getElem? hf
  have hmap : b'.flushes.map (·.items) = b.flushes.map (·.items) := by
    rw [hflushes, List.map_set, hitems]
    refine List.ext_getElem? fun k => ?_
    rw [List.getElem?_set]
    split
    · next heq =>
      rw [if_pos (by simpa using hlt), ← heq, List.getElem?_map, hf]
      rfl
    · rfl
  -- a task of now is the changed one, or one of before with other items
  have hcases : ∀ t ∈ b'.flushes, t = task' ∨ t ∈ b.flushes ∧ ∀ i ∈ t.items, i ∉ task.items := by
    intro t ht
    rw [hflushes, mem_set_iff hlt] at ht
    rcases ht with rfl | ⟨f', hne, hf'⟩
    · exact .inl rfl
    · exact .inr ⟨List.mem_of_getElem? hf', fun i hi hi' => hne (h.unique hf' hf hi hi')⟩
  have hnotPending : ∀ i, b'.stateOf i = some .pending → b.stateOf i = some .pending := by
    intro i hst
    have hout : i ∉ task.items := fun hi => hsettled i hi hst
    exact (hstates i hout).symm.trans hst
  constructor
  case sound =>
    intro t ht
    rcases hcases t ht with rfl | ⟨hold, -⟩
    · exact hsound
    · exact hclosed ▸ h.sound t hold
  case size =>
    intro t ht
    rw [hmax]
    rcases hcases t ht with rfl | ⟨hold, -⟩
    · rw [hitems, hreason]
      exact h.size task hmem
    · exact h.size t hold
  case sorted =>
    intro t ht
    rcases hcases t ht with rfl | ⟨hold, -⟩
    · exact hitems ▸ h.sorted task hmem
    · exact h.sorted t hold
  case distinct => exact hmap ▸ h.distinct
  case member =>
    intro t ht
    rcases hcases t ht with rfl | ⟨hold, hout⟩
    · obtain ⟨key, hk⟩ := h.member task hmem
      refine ⟨key, fun i hi => ?_⟩
      rw [hitems] at hi
      exact ⟨(hkeys i).trans (hk i hi).1, hsettled i hi⟩
    · obtain ⟨key, hk⟩ := h.member t hold
      refine ⟨key, fun i hi => ?_⟩
      rw [hkeys, hstates i (hout i hi)]
      exact hk i hi
  case running =>
    intro t ht hover i hi
    rcases hcases t ht with rfl | ⟨hold, hout⟩
    · exact hrunning hover i (hitems ▸ hi)
    · rw [hstates i (hout i hi)]
      exact h.running t hold hover i hi
  case dispatched =>
    intro i hst
    rw [hflushes]
    by_cases hi : i ∈ task.items
    · exact ⟨task', List.mem_set hlt _, hitems ▸ hi, hdispatched i hi hst⟩
    · rw [hstates i hi] at hst
      obtain ⟨t, ht, hit, hover⟩ := h.dispatched i hst
      refine ⟨t, (mem_set_iff hlt).mpr (.inr ?_), hit, hover⟩
      obtain ⟨f', hf'⟩ := List.mem_iff_getElem?.mp ht
      refine ⟨f', ?_, hf'⟩
      rintro rfl
      obtain rfl := Option.some.inj (hf.symm.trans hf')
      exact hi hit
  case count =>
    have hget : b.flushes[f] = task := (List.getElem?_eq_some_iff.mp hf).2
    have hpos : task.ended = false → 0 < b.flushes.countP fun t => !t.ended := fun hover =>
      List.countP_pos_iff.mpr ⟨task, hmem, by simp [hover]⟩
    rw [hinflight, hflushes, List.countP_set hlt, hget, h.count]
    generalize b.flushes.countP (fun t => !t.ended) = n at hpos
    cases hover : task.ended with
    | true =>
      cases task'.ended <;> simp
    | false =>
      have hn := hpos hover
      cases task'.ended <;> simp <;> omega
  case order =>
    rw [hmap]
    simpa only [hkeys] using h.order
  case earlier =>
    intro t ht i hi j hst heq
    rw [hkeys, hkeys] at heq
    rcases hcases t ht with rfl | ⟨hold, -⟩
    · exact h.earlier task hmem i (hitems ▸ hi) j (hnotPending j hst) heq
    · exact h.earlier t hold i hi j (hnotPending j hst) heq

end Gateway.DynamicBatcher
