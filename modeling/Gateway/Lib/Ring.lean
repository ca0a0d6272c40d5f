import Mathlib.Data.List.Basic

/-!
# Order in a ring

A ring of waiting parties is a list served from its head; parties that are passed
over or served go to its tail. `Ahead a b ring` says that `a` will be served
before `b`. Serving anybody else, and adding or removing anybody but `b`, never
puts `a` ahead of `b`.

## Key results

- `Ahead.of_append`, `Ahead.of_erase`: arrivals and departures
- `ahead_cons_of_ne`, `not_ahead_of_notMem`: serving the head
-/

variable {α : Type} [DecidableEq α]

/-- `a` is in the ring, before `b`. -/
def Ahead (a b : α) (ring : List α) : Prop := ring.idxOf a < ring.idxOf b

instance (a b : α) (ring : List α) : Decidable (Ahead a b ring) :=
  inferInstanceAs (Decidable (_ < _))

variable {a b x : α} {ring tail : List α}

theorem not_ahead_nil : ¬Ahead a b [] := Nat.lt_irrefl 0

/-- Who is not in the ring is not ahead. -/
theorem not_ahead_of_notMem (ha : a ∉ ring) : ¬Ahead a b ring := by
  rw [Ahead, List.idxOf_of_notMem ha, Nat.not_lt]
  exact List.idxOf_le_length

/-- The head is ahead of everybody else. -/
theorem ahead_cons_self (h : a ≠ b) : Ahead a b (a :: ring) := by
  rw [Ahead, List.idxOf_cons_self, List.idxOf_cons_ne _ h]
  exact Nat.succ_pos _

/-- Removing the head leaves the order of the others. -/
theorem ahead_cons_of_ne (ha : x ≠ a) (hb : x ≠ b) : Ahead a b (x :: ring) ↔ Ahead a b ring := by
  rw [Ahead, List.idxOf_cons_ne _ ha, List.idxOf_cons_ne _ hb, Ahead]
  exact Nat.succ_lt_succ_iff

/-- Nobody who arrives at the tail is ahead of `b`. -/
theorem Ahead.of_append (hb : b ∈ ring) (h : Ahead a b (ring ++ tail)) : Ahead a b ring := by
  rw [Ahead, List.idxOf_append_of_mem hb] at h
  by_cases ha : a ∈ ring
  · rwa [List.idxOf_append_of_mem ha] at h
  · rw [List.idxOf_append_of_notMem ha] at h
    have := List.idxOf_lt_length_of_mem hb
    omega

/-- Nobody gets ahead of `b` when somebody else leaves. -/
theorem Ahead.of_erase (hb : x ≠ b) (h : Ahead a b (ring.erase x)) : Ahead a b ring := by
  induction ring with
  | nil => exact h
  | cons y ring ih =>
    by_cases hy : y = x
    · subst hy
      rw [List.erase_cons_head] at h
      by_cases ha : y = a
      · subst ha
        exact ahead_cons_self hb
      · exact (ahead_cons_of_ne ha hb).mpr h
    · rw [List.erase_cons_tail (by simpa using hy)] at h
      by_cases ha : y = a
      · subst ha
        refine ahead_cons_self ?_
        rintro rfl
        exact Nat.lt_irrefl _ h
      · by_cases hyb : y = b
        · subst hyb
          simp [Ahead] at h
        · exact (ahead_cons_of_ne ha hyb).mpr (ih ((ahead_cons_of_ne ha hyb).mp h))
