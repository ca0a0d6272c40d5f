/-!
# A fair lock of an event loop

A lock with a queue of waiters, as event loops have it. It is taken at once only
if it is free and nobody waits for it. Releasing it wakes the first waiter, which
takes it when its task resumes. A waiter can be cancelled before and after it was
woken; in both cases its task resumes without the lock, and if the lock is free by
then it wakes the next waiter.

## Key results

- `acquire_idle`: an idle lock is taken at once
- `Used`: the lock was taken at some time and somebody still holds or wants it
- `Orderly`: only the first waiter can be woken, and nobody is while the lock is held
-/

/-- What a waiter of a lock will find when its task resumes. -/
inductive LockWaiter
  | waiting
  | woken
  /-- cancelled while waiting -/
  | cancelled
  /-- cancelled after it was woken -/
  | interrupted
deriving DecidableEq, Repr

/-- A lock, with its waiters in the order they came. -/
structure AsyncLock where
  locked : Bool
  waiters : List (Nat × LockWaiter)
  /-- the number of the next waiter -/
  next : Nat
deriving DecidableEq, Repr

namespace AsyncLock

/-- A new lock. -/
def new : AsyncLock := ⟨false, [], 0⟩

/-- Take the lock, or queue a waiter and get its number. -/
def acquire (lock : AsyncLock) : Option Nat × AsyncLock :=
  if !lock.locked && lock.waiters.all fun w => w.2 = .cancelled then
    (none, { lock with locked := true })
  else
    (some lock.next,
      { lock with waiters := lock.waiters ++ [(lock.next, .waiting)], next := lock.next + 1 })

/-- Wake the first waiter, unless it will resume anyway. -/
def wakeUpFirst (lock : AsyncLock) : AsyncLock :=
  match lock.waiters with
  | (n, .waiting) :: rest => { lock with waiters := (n, .woken) :: rest }
  | _ => lock

/-- Give the lock back. -/
def release (lock : AsyncLock) : AsyncLock := wakeUpFirst { lock with locked := false }

/-- Cancel a waiter. -/
def cancel (lock : AsyncLock) (n : Nat) : AsyncLock :=
  { lock with
    waiters := lock.waiters.map fun w =>
      if w.1 = n then
        match w.2 with
        | .waiting => (n, .cancelled)
        | .woken => (n, .interrupted)
        | _ => w
      else w }

/-- A waiter's task resumes: whether it has the lock. `none` while it has to wait. -/
def resume (lock : AsyncLock) (n : Nat) : Option (Bool × AsyncLock) :=
  match lock.waiters.find? fun w => w.1 = n with
  | some (_, .woken) =>
    some (true, { lock with
      locked := true
      waiters := lock.waiters.filter fun w => w.1 ≠ n })
  | some (_, .cancelled) | some (_, .interrupted) =>
    let lock := { lock with waiters := lock.waiters.filter fun w => w.1 ≠ n }
    some (false, if lock.locked then lock else wakeUpFirst lock)
  | _ => none

/-- Somebody holds the lock or waits for it. -/
def Used (lock : AsyncLock) : Prop := lock.locked = true ∨ lock.waiters ≠ []

theorem not_used_new : ¬new.Used := by simp [new, Used]

/-- An idle lock is taken at once. -/
theorem acquire_idle {lock : AsyncLock} (h : ¬lock.Used) :
    lock.acquire = (none, { lock with locked := true }) := by
  have hfree : lock.locked = false ∧ lock.waiters = [] := by simpa [Used] using h
  simp [acquire, hfree.1, hfree.2]

/-! ## Mutual exclusion -/

/-- Only the first waiter is woken, and nobody is while the lock is held. -/
structure Orderly (lock : AsyncLock) : Prop where
  held : lock.locked = true → ∀ w ∈ lock.waiters, w.2 ≠ .woken
  tail : ∀ w ∈ lock.waiters.tail, w.2 ≠ .woken

variable {lock lock' : AsyncLock} {n : Nat}

theorem orderly_new : new.Orderly := ⟨nofun, nofun⟩

theorem orderly_idle (h : ¬lock.Used) : Orderly { lock with locked := true } := by
  have hfree : lock.locked = false ∧ lock.waiters = [] := by simpa [Used] using h
  exact ⟨by simp [hfree.2], by simp [hfree.2]⟩

/-- Who takes the lock at once finds it free. -/
theorem Orderly.acquire_now (h : lock.acquire = (none, lock')) :
    lock.locked = false ∧ lock'.locked = true ∧ lock'.Orderly := by
  unfold acquire at h
  split at h
  · next hfree =>
    simp only [Bool.and_eq_true, Bool.not_eq_true', List.all_eq_true, decide_eq_true_eq] at hfree
    obtain ⟨-, rfl⟩ := Prod.mk.inj h
    have hnone : ∀ w ∈ lock.waiters, w.2 ≠ .woken := by
      intro w hw heq
      exact nomatch (hfree.2 w hw).symm.trans heq
    exact ⟨hfree.1, rfl, fun _ => hnone, fun w hw => hnone w (List.mem_of_mem_tail hw)⟩
  · exact nomatch h

/-- Who does not is queued behind the others. -/
theorem Orderly.acquire_later (h : lock.Orderly) (heq : lock.acquire = (some n, lock')) :
    lock'.locked = lock.locked ∧ lock'.Orderly := by
  unfold acquire at heq
  split at heq
  · exact nomatch heq
  · obtain ⟨-, rfl⟩ := Prod.mk.inj heq
    refine ⟨rfl, fun hl w hw => ?_, fun w hw => ?_⟩
    · rcases List.mem_append.mp hw with hold | hnew
      · exact h.held hl w hold
      · rw [List.mem_singleton.mp hnew]
        nofun
    · cases hwaiters : lock.waiters with
      | nil => simp [hwaiters] at hw
      | cons first rest =>
        rw [hwaiters, List.cons_append, List.tail_cons] at hw
        rcases List.mem_append.mp hw with hold | hnew
        · exact h.tail w (by rw [hwaiters]; exact hold)
        · rw [List.mem_singleton.mp hnew]
          nofun

theorem Orderly.release (h : lock.Orderly) :
    lock.release.locked = false ∧ lock.release.Orderly := by
  unfold AsyncLock.release wakeUpFirst
  split
  · next rest heq =>
    have hwaiters : lock.waiters = _ := heq
    refine ⟨rfl, nofun, fun w hw => h.tail w ?_⟩
    rw [hwaiters]
    exact hw
  · exact ⟨rfl, nofun, h.tail⟩

/-- A woken waiter finds the lock free. -/
theorem Orderly.resume (h : lock.Orderly) (heq : lock.resume n = some (true, lock')) :
    lock.locked = false ∧ lock'.locked = true ∧ lock'.Orderly := by
  unfold AsyncLock.resume at heq
  split at heq
  · next m hfind =>
    have hmem : (m, LockWaiter.woken) ∈ lock.waiters := List.mem_of_find?_eq_some hfind
    have hn : m = n := by simpa using List.find?_some hfind
    have hfree : lock.locked = false :=
      Bool.eq_false_iff.mpr fun hl => h.held hl _ hmem rfl
    obtain rfl := (Prod.mk.inj (Option.some.inj heq)).2
    -- the woken waiter is the first, and the others are not woken
    have hrest : ∀ w ∈ lock.waiters.filter (fun w => w.1 ≠ n), w.2 ≠ .woken := by
      intro w hw
      obtain ⟨hw, hne⟩ := List.mem_filter.mp hw
      cases hwaiters : lock.waiters with
      | nil => simp [hwaiters] at hw
      | cons first rest =>
        rw [hwaiters] at hw hmem
        have htail : ∀ w ∈ rest, w.2 ≠ .woken := fun w hw =>
          h.tail w (by rw [hwaiters]; exact hw)
        rcases List.mem_cons.mp hmem with hfirst | hin
        · rcases List.mem_cons.mp hw with rfl | hin
          · rw [← hfirst, hn] at hne
            simp at hne
          · exact htail w hin
        · exact absurd rfl (htail _ hin)
    exact ⟨hfree, rfl, fun _ => hrest, fun w hw => hrest w (List.mem_of_mem_tail hw)⟩
  · simp at heq
  · simp at heq
  · exact nomatch heq

/-- Cancelling a waiter wakes nobody. -/
theorem Orderly.cancel (h : lock.Orderly) (n : Nat) :
    (lock.cancel n).locked = lock.locked ∧ (lock.cancel n).Orderly := by
  have hwoken : ∀ w : Nat × LockWaiter, w.2 ≠ .woken →
      (if w.1 = n then match w.2 with
        | .waiting => (n, LockWaiter.cancelled)
        | .woken => (n, .interrupted)
        | _ => w
      else w).2 ≠ .woken := by
    intro w hw
    split
    · split <;> simp_all
    · exact hw
  refine ⟨rfl, fun hl w hw => ?_, fun w hw => ?_⟩
  · obtain ⟨w', hw', rfl⟩ := List.mem_map.mp hw
    exact hwoken w' (h.held hl w' hw')
  · have hw : w ∈ (lock.cancel n).waiters.tail := hw
    unfold AsyncLock.cancel at hw
    rw [← List.map_tail] at hw
    obtain ⟨w', hw', rfl⟩ := List.mem_map.mp hw
    exact hwoken w' (h.tail w' hw')

/-- A waiter that leaves the queue. -/
theorem Orderly.remove (h : lock.Orderly) (n : Nat) :
    Orderly { lock with waiters := lock.waiters.filter fun w => w.1 ≠ n } := by
  refine ⟨fun hl w hw => h.held hl w (List.mem_filter.mp hw).1, fun w hw => h.tail w ?_⟩
  show w ∈ lock.waiters.tail
  change w ∈ (lock.waiters.filter fun w => w.1 ≠ n).tail at hw
  cases hwaiters : lock.waiters with
  | nil => simp [hwaiters] at hw
  | cons first rest =>
    rw [hwaiters, List.filter_cons] at hw
    split at hw
    · exact (List.mem_filter.mp hw).1
    · exact (List.mem_filter.mp (List.mem_of_mem_tail hw)).1

/-- A waiter that was cancelled leaves the lock as it is. -/
theorem Orderly.resume_cancelled (h : lock.Orderly) (heq : lock.resume n = some (false, lock')) :
    lock'.locked = lock.locked ∧ lock'.Orderly := by
  have hremove := h.remove n
  have hleft : lock' = if lock.locked then { lock with waiters := lock.waiters.filter fun w => w.1 ≠ n }
      else wakeUpFirst { lock with waiters := lock.waiters.filter fun w => w.1 ≠ n } := by
    unfold AsyncLock.resume at heq
    split at heq
    · simp at heq
    · exact (Prod.mk.inj (Option.some.inj heq)).2.symm
    · exact (Prod.mk.inj (Option.some.inj heq)).2.symm
    · exact nomatch heq
  subst hleft
  split
  · exact ⟨rfl, hremove⟩
  · next hfree =>
    -- waking the first waiter of a free lock is what a release does
    have hrelease := hremove.release
    have hlocked : lock.locked = false := by simpa using hfree
    have hsame : AsyncLock.release { lock with waiters := lock.waiters.filter fun w => w.1 ≠ n } =
        wakeUpFirst { lock with waiters := lock.waiters.filter fun w => w.1 ≠ n } := by
      unfold AsyncLock.release
      rw [← hlocked]
    rw [← hsame, hlocked]
    exact hrelease

end AsyncLock
