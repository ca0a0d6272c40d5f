import Gateway.Spec.BatcherInvariant

/-!
# Pending batches through the sections

How the three things that happen to a pending batch keep `GroupsGood`: an item joins
it, an item leaves it, or it goes as a whole.

## Key results

- `GroupsGood.join`, `GroupsGood.leave`, `GroupsGood.erase`
-/

namespace Gateway.DynamicBatcher

variable {b b' : DynamicBatcher} {key : String} {bt : BatchId} {batch : PendingBatch}

theorem getElem?_modify_eq {α : Type} (l : List α) (k j : Nat) (g : α → α) :
    (l.modify k g)[j]? = if k = j then l[j]?.map g else l[j]? := by
  rw [List.getElem?_modify]
  split
  · rfl
  · exact Option.map_id'

theorem modify_of_fixed {α : Type} {l : List α} {k : Nat} {x : α} {g : α → α} (h : l[k]? = some x)
    (hg : g x = x) : l.modify k g = l := by
  refine List.ext_getElem? fun j => ?_
  rw [getElem?_modify_eq]
  split
  · next heq => rw [← heq, h, Option.map_some, hg]
  · rfl

theorem length_eq_of_map {α : Type} {l l' : List α} {g : Nat → α → α}
    (h : ∀ i : Nat, l'[i]? = l[i]?.map (g i)) : l'.length = l.length := by
  have hout : ∀ i : Nat, l'[i]? = none ↔ l[i]? = none := by
    intro i
    rw [h]
    exact Option.map_eq_none_iff
  exact Nat.le_antisymm (by simpa using hout l.length) (by simpa using hout l'.length)

theorem batchSize_of (h : b.batches[bt]? = some batch) : b.batchSize bt = batch.items.length := by
  simp [batchSize, h]

/-- A pending batch is the group of its own key only. -/
theorem GroupsGood.key_eq (h : GroupsGood b) (hget : b.groups.get? key = some bt)
    (hbatch : b.batches[bt]? = some batch) : batch.key = key := by
  obtain ⟨batch', hbatch', hkey, -⟩ := h.batch key bt hget
  obtain rfl := Option.some.inj (hbatch.symm.trans hbatch')
  exact hkey

theorem GroupsGood.key_unique (h : GroupsGood b) {key' : String}
    (hget : b.groups.get? key = some bt) (hget' : b.groups.get? key' = some bt) : key = key' := by
  obtain ⟨batch, hbatch, hkey, -⟩ := h.batch key bt hget
  exact hkey.symm.trans (h.key_eq hget' hbatch)

/-- A pending batch goes, with its items. -/
theorem GroupsGood.erase (h : GroupsGood b) (hget : b.groups.get? key = some bt)
    (hbatch : b.batches[bt]? = some batch) (hgroups : b'.groups = b.groups.erase key)
    (hbatches : ∀ bt', bt' ≠ bt → b'.batches[bt']? = b.batches[bt']?)
    (htimer : ∃ batch' : PendingBatch, b'.batches[bt]? = some batch' ∧
      batch'.timerTask = batch.timerTask)
    (hpending : b'.pending = b.pending - batch.items.length)
    (hkeys : ∀ i, b'.keyOf i = b.keyOf i)
    (hstates : ∀ i, b'.stateOf i = some .pending ↔
      b.stateOf i = some .pending ∧ i ∉ batch.items)
    (htimers : ∀ (t : TimerId) (timer : TimerTask), b.timers[t]? = some timer →
      ∃ timer' : TimerTask, b'.timers[t]? = some timer' ∧ timer'.batch = timer.batch ∧
        (timer.batch ≠ bt → timer'.alive = timer.alive))
    (hlength : b'.timers.length = b.timers.length) : GroupsGood b' := by
  -- the groups that stay have other batches
  have hother : ∀ key' bt', b'.groups.get? key' = some bt' →
      key' ≠ key ∧ b.groups.get? key' = some bt' ∧ bt' ≠ bt := by
    intro key' bt' hget'
    rw [hgroups, Dict.get?_erase] at hget'
    split at hget'
    · cases hget'
    next hne =>
    refine ⟨Ne.symm hne, hget', ?_⟩
    rintro rfl
    exact hne (h.key_unique hget hget')
  constructor
  case batch =>
    intro key' bt' hget'
    obtain ⟨-, hold, hne⟩ := hother key' bt' hget'
    obtain ⟨batch', hbatch', hkey, hitems, hsorted, t, timer, ht, htimer, hbt, halive⟩ :=
      h.batch key' bt' hold
    obtain ⟨timer', htimer', hbt', halive'⟩ := htimers t timer htimer
    refine ⟨batch', (hbatches bt' hne).trans hbatch', hkey, hitems, hsorted, t, timer', ht, htimer',
      hbt'.trans hbt, ?_⟩
    rw [halive' (hbt ▸ hne)]
    exact halive
  case member =>
    intro key' bt' batch' hget' hbatch' i hi
    obtain ⟨hne, hold, hbt⟩ := hother key' bt' hget'
    rw [hbatches bt' hbt] at hbatch'
    obtain ⟨hst, hk⟩ := h.member key' bt' batch' hold hbatch' i hi
    refine ⟨(hstates i).mpr ⟨hst, fun hmem => hne ?_⟩, (hkeys i).trans hk⟩
    obtain ⟨-, hk'⟩ := h.member key bt batch hget hbatch i hmem
    exact Option.some.inj (hk.symm.trans hk')
  case pending =>
    intro i key' hst hk
    rw [hkeys] at hk
    obtain ⟨hst, hout⟩ := (hstates i).mp hst
    obtain ⟨bt', batch', hget', hbatch', hi⟩ := h.pending i key' hst hk
    have hbt : bt' ≠ bt := by
      rintro rfl
      obtain rfl := Option.some.inj (hbatch.symm.trans hbatch')
      exact hout hi
    have hne : key ≠ key' := by
      rintro rfl
      exact hbt (Option.some.inj (hget'.symm.trans hget))
    refine ⟨bt', batch', ?_, (hbatches bt' hbt).trans hbatch', hi⟩
    rw [hgroups, Dict.get?_erase, if_neg hne]
    exact hget'
  case count =>
    have hsum : b'.groups.sum (fun bt => b'.batchSize bt) =
        (b.groups.erase key).sum fun bt => b.batchSize bt := by
      rw [hgroups]
      refine Dict.sum_congr fun key' bt' hget' => ?_
      rw [← hgroups] at hget'
      unfold batchSize
      rw [hbatches bt' (hother key' bt' hget').2.2]
    rw [hpending, hsum, Dict.sum_erase hget, h.count, batchSize_of hbatch]
  case timer =>
    intro t timer' htimer'
    have ht : t < b.timers.length := hlength ▸ (List.getElem?_eq_some_iff.mp htimer').1
    have htimer₀ := List.getElem?_eq_getElem ht
    obtain ⟨timer'', htimer'', hbt, -⟩ := htimers t _ htimer₀
    obtain rfl := Option.some.inj (htimer'.symm.trans htimer'')
    obtain ⟨batch₀, hbatch₀, htask⟩ := h.timer t _ htimer₀
    rw [hbt]
    by_cases heq : b.timers[t].batch = bt
    · rw [heq] at hbatch₀ ⊢
      obtain rfl := Option.some.inj (hbatch.symm.trans hbatch₀)
      obtain ⟨batch', hbatch', htask'⟩ := htimer
      exact ⟨batch', hbatch', htask'.trans htask⟩
    · exact ⟨batch₀, (hbatches _ heq).trans hbatch₀, htask⟩

/-- An item leaves a pending batch that has others. -/
theorem GroupsGood.leave (h : GroupsGood b) {i : ItemId} (hget : b.groups.get? key = some bt)
    (hbatch : b.batches[bt]? = some batch) (hi : i ∈ batch.items)
    (hrest : batch.items.erase i ≠ []) (hgroups : b'.groups = b.groups)
    (hbatches : b'.batches = b.batches.set bt { batch with items := batch.items.erase i })
    (hpending : b'.pending = b.pending - 1) (hkeys : ∀ j, b'.keyOf j = b.keyOf j)
    (hstates : ∀ j, b'.stateOf j = some .pending ↔ b.stateOf j = some .pending ∧ j ≠ i)
    (htimers : b'.timers = b.timers) : GroupsGood b' := by
  have hlt : bt < b.batches.length := (List.getElem?_eq_some_iff.mp hbatch).1
  have hread : ∀ bt' : BatchId, b'.batches[bt']? =
      if bt = bt' then some { batch with items := batch.items.erase i } else b.batches[bt']? := by
    intro bt'
    rw [hbatches, List.getElem?_set]
    by_cases heq : bt = bt'
    · rw [if_pos heq, if_pos heq, if_pos (heq ▸ hlt)]
    · rw [if_neg heq, if_neg heq]
  have hkey := h.key_eq hget hbatch
  have hsorted : batch.items.Pairwise (· < ·) := by
    obtain ⟨batch', hbatch', -, -, hsorted, -⟩ := h.batch key bt hget
    obtain rfl := Option.some.inj (hbatch.symm.trans hbatch')
    exact hsorted
  have hnodup : batch.items.Nodup := hsorted.imp fun hlt => Nat.ne_of_lt hlt
  -- the other batches do not have the item
  have hfree : ∀ key' bt' (batch' : PendingBatch), b.groups.get? key' = some bt' →
      b.batches[bt']? = some batch' → i ∈ batch'.items → bt' = bt := by
    intro key' bt' batch' hget' hbatch' hi'
    obtain ⟨-, hk⟩ := h.member key bt batch hget hbatch i hi
    obtain ⟨-, hk'⟩ := h.member key' bt' batch' hget' hbatch' i hi'
    obtain rfl := Option.some.inj (hk.symm.trans hk')
    exact Option.some.inj (hget'.symm.trans hget)
  constructor
  case batch =>
    intro key' bt' hget'
    rw [hgroups] at hget'
    obtain ⟨batch', hbatch', hkey', hitems, hsorted', t, timer, ht, htimer, hbt, halive⟩ :=
      h.batch key' bt' hget'
    rw [htimers, hread]
    by_cases heq : bt = bt'
    · subst heq
      obtain rfl := Option.some.inj (hbatch.symm.trans hbatch')
      rw [if_pos rfl]
      exact ⟨_, rfl, hkey', hrest, hsorted.sublist List.erase_sublist, t, timer, ht, htimer, hbt,
        halive⟩
    · rw [if_neg heq]
      exact ⟨batch', hbatch', hkey', hitems, hsorted', t, timer, ht, htimer, hbt, halive⟩
  case member =>
    intro key' bt' batch' hget' hbatch' j hj
    rw [hgroups] at hget'
    rw [hread] at hbatch'
    rw [hkeys, hstates]
    split at hbatch'
    · next heq =>
      subst heq
      obtain rfl := Option.some.inj hbatch'
      obtain rfl := h.key_unique hget hget'
      obtain ⟨hst, hk⟩ := h.member key bt batch hget hbatch j (List.mem_of_mem_erase hj)
      refine ⟨⟨hst, ?_⟩, hk⟩
      exact ((List.Nodup.mem_erase_iff hnodup).mp hj).1
    · next hne =>
      obtain ⟨hst, hk⟩ := h.member key' bt' batch' hget' hbatch' j hj
      refine ⟨⟨hst, ?_⟩, hk⟩
      rintro rfl
      exact hne (hfree key' bt' batch' hget' hbatch' hj).symm
  case pending =>
    intro j key' hst hk
    rw [hkeys] at hk
    obtain ⟨hst, hne⟩ := (hstates j).mp hst
    obtain ⟨bt', batch', hget', hbatch', hj⟩ := h.pending j key' hst hk
    rw [hgroups]
    refine ⟨bt', ?_⟩
    rw [hread]
    by_cases heq : bt = bt'
    · subst heq
      obtain rfl := Option.some.inj (hbatch.symm.trans hbatch')
      rw [if_pos rfl]
      exact ⟨_, hget', rfl, (List.Nodup.mem_erase_iff hnodup).mpr ⟨hne, hj⟩⟩
    · rw [if_neg heq]
      exact ⟨batch', hget', hbatch', hj⟩
  case count =>
    have hlength : (batch.items.erase i).length = batch.items.length - 1 :=
      List.length_erase_of_mem hi
    have hpos : 0 < batch.items.length := List.length_pos_of_mem hi
    have hsize : b'.batchSize bt = batch.items.length - 1 := by
      unfold batchSize
      rw [hread, if_pos rfl, ← hlength]
      rfl
    have hsum := Dict.sum_change (fun bt => (b.batchSize bt : Int))
      (fun bt => (b'.batchSize bt : Int)) hget fun key' bt' hne hget' => by
        have hbt : bt ≠ bt' := by
          rintro rfl
          exact hne (h.key_unique hget' hget)
        unfold batchSize
        rw [hread, if_neg hbt]
    rw [hpending, hgroups, h.count, hsum, hsize, batchSize_of hbatch]
    omega
  case timer =>
    intro t timer htimer
    rw [htimers] at htimer
    obtain ⟨batch', hbatch', htask⟩ := h.timer t timer htimer
    rw [hread]
    by_cases heq : bt = timer.batch
    · rw [if_pos heq]
      rw [← heq] at hbatch'
      obtain rfl := Option.some.inj (hbatch.symm.trans hbatch')
      exact ⟨_, rfl, htask⟩
    · rw [if_neg heq]
      exact ⟨batch', hbatch', htask⟩

/-- An item joins the pending batch of its key, which may be a new one. -/
theorem GroupsGood.join (h : GroupsGood b) {i : ItemId} {t : TimerId} (old : List ItemId)
    (hgroups : ∀ key', b'.groups.get? key' = if key = key' then some bt else b.groups.get? key')
    (hbatches : ∀ bt' : BatchId, b'.batches[bt']? =
      if bt = bt' then some { key, items := old ++ [i], timerTask := some t } else b.batches[bt']?)
    (hfresh : ∀ key', b.groups.get? key' = some bt → key' = key)
    (hmember : ∀ j ∈ old, b.stateOf j = some .pending ∧ b.keyOf j = some key)
    (hall : ∀ j, b.stateOf j = some .pending → b.keyOf j = some key → j ∈ old)
    (hsorted : (old ++ [i]).Pairwise (· < ·))
    (hstate : b'.stateOf i = some .pending) (hkey : b'.keyOf i = some key)
    (hstates : ∀ j, j ≠ i → b'.stateOf j = b.stateOf j)
    (hkeys : ∀ j, j ≠ i → b'.keyOf j = b.keyOf j) (hnew : b.stateOf i = none)
    (htimer : ∃ timer : TimerTask, b'.timers[t]? = some timer ∧ timer.batch = bt ∧
      timer.alive = true)
    (htimers : ∀ (t' : TimerId) (timer : TimerTask), b.timers[t']? = some timer →
      b'.timers[t']? = some timer)
    (hback : ∀ (t' : TimerId) (timer : TimerTask), b'.timers[t']? = some timer →
      timer.batch = bt ∧ t' = t ∨ timer.batch ≠ bt ∧ b.timers[t']? = some timer)
    (hcount : b'.pending = b'.groups.sum fun bt => b'.batchSize bt) : GroupsGood b' := by
  have hne : ∀ j, b.stateOf j = some .pending → j ≠ i := by
    rintro j hst rfl
    exact nomatch hnew.symm.trans hst
  -- another group has another batch
  have hother : ∀ key' bt', b'.groups.get? key' = some bt' → key ≠ key' →
      b.groups.get? key' = some bt' ∧ bt ≠ bt' := by
    intro key' bt' hget' hk
    rw [hgroups, if_neg hk] at hget'
    refine ⟨hget', ?_⟩
    rintro rfl
    exact hk (hfresh key' hget').symm
  constructor
  case batch =>
    intro key' bt' hget'
    by_cases hk : key = key'
    · subst hk
      rw [hgroups, if_pos rfl] at hget'
      obtain rfl := Option.some.inj hget'
      obtain ⟨timer, htm, hbt, halive⟩ := htimer
      refine ⟨_, by rw [hbatches, if_pos rfl], rfl, ?_, hsorted, t, timer, rfl, htm, hbt, halive⟩
      simp
    · obtain ⟨hget, hbt⟩ := hother key' bt' hget' hk
      obtain ⟨batch, hbatch, hkey', hitems, hsorted', t', timer, ht', htm, hbt', halive⟩ :=
        h.batch key' bt' hget
      refine ⟨batch, by rw [hbatches, if_neg hbt]; exact hbatch, hkey', hitems, hsorted', t', timer,
        ht', htimers t' timer htm, hbt', halive⟩
  case member =>
    intro key' bt' batch hget' hbatch j hj
    by_cases hk : key = key'
    · subst hk
      rw [hgroups, if_pos rfl] at hget'
      obtain rfl := Option.some.inj hget'
      rw [hbatches, if_pos rfl] at hbatch
      obtain rfl := Option.some.inj hbatch
      rcases List.mem_append.mp hj with hold | hlast
      · obtain ⟨hst, hkj⟩ := hmember j hold
        rw [hstates j (hne j hst), hkeys j (hne j hst)]
        exact ⟨hst, hkj⟩
      · rw [List.mem_singleton.mp hlast]
        exact ⟨hstate, hkey⟩
    · obtain ⟨hget, hbt⟩ := hother key' bt' hget' hk
      rw [hbatches, if_neg hbt] at hbatch
      obtain ⟨hst, hkj⟩ := h.member key' bt' batch hget hbatch j hj
      rw [hstates j (hne j hst), hkeys j (hne j hst)]
      exact ⟨hst, hkj⟩
  case pending =>
    intro j key' hst hkj
    by_cases hj : j = i
    · subst hj
      obtain rfl := Option.some.inj (hkey.symm.trans hkj)
      refine ⟨bt, _, by rw [hgroups, if_pos rfl], by rw [hbatches, if_pos rfl], ?_⟩
      simp
    · rw [hstates j hj] at hst
      rw [hkeys j hj] at hkj
      by_cases hk : key = key'
      · subst hk
        refine ⟨bt, _, by rw [hgroups, if_pos rfl], by rw [hbatches, if_pos rfl], ?_⟩
        exact List.mem_append_left _ (hall j hst hkj)
      · obtain ⟨bt', batch, hget, hbatch, hmem⟩ := h.pending j key' hst hkj
        have hget' : b'.groups.get? key' = some bt' := by rw [hgroups, if_neg hk]; exact hget
        obtain ⟨-, hbt⟩ := hother key' bt' hget' hk
        exact ⟨bt', batch, hget', by rw [hbatches, if_neg hbt]; exact hbatch, hmem⟩
  case count => exact hcount
  case timer =>
    intro t' timer htm
    rw [hbatches]
    rcases hback t' timer htm with ⟨hbt, rfl⟩ | ⟨hbt, hold⟩
    · rw [if_pos hbt.symm]
      exact ⟨_, rfl, rfl⟩
    · rw [if_neg (Ne.symm hbt)]
      exact h.timer t' timer hold

end Gateway.DynamicBatcher
