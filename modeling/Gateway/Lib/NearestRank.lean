import Mathlib.Data.List.Count
import Mathlib.Order.Lattice

/-!
# Order statistics and counts

The element of a rank in a sorted list, by how many elements there are up to a bound.

## Key results

- `le_iff_lt_countP`: an element of a sorted list is at most a bound just when more elements
  than its index are
-/

namespace NearestRank

variable {α : Type} [LinearOrder α]

theorem countP_eq_zero_of_lt {l : List α} {b : α} (h : ∀ x ∈ l, b < x) :
    l.countP (· ≤ b) = 0 := by
  rw [List.countP_eq_zero]
  intro x hx
  simpa using h x hx

/-- An element of a sorted list is at most `b` just when more elements than its index are. -/
theorem le_iff_lt_countP {l : List α} (hl : l.Pairwise (· ≤ ·)) {r : Nat} {q : α}
    (hq : l[r]? = some q) (b : α) : q ≤ b ↔ r < l.countP (· ≤ b) := by
  induction l generalizing r with
  | nil => simp at hq
  | cons x l ih =>
    rw [List.pairwise_cons] at hl
    have hx : x ≤ q := by
      cases r with
      | zero =>
        obtain rfl : x = q := by simpa using hq
        exact le_refl x
      | succ r => exact hl.1 q (List.mem_of_getElem? (by simpa using hq))
    by_cases hb : x ≤ b
    · rw [List.countP_cons_of_pos (by simpa using hb)]
      cases r with
      | zero =>
        obtain rfl : x = q := by simpa using hq
        simp [hb]
      | succ r =>
        rw [ih hl.2 (by simpa using hq)]
        omega
    · -- everything is above the bound
      have hlt : b < x := lt_of_not_ge hb
      have hzero : l.countP (· ≤ b) = 0 :=
        countP_eq_zero_of_lt fun y hy => lt_of_lt_of_le hlt (hl.1 y hy)
      have hq : ¬q ≤ b := fun hle => hb (le_trans hx hle)
      rw [List.countP_cons_of_neg (by simpa using hb), hzero]
      simp [hq]

end NearestRank
