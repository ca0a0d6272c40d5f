import Mathlib.Algebra.Order.Field.Basic
import Mathlib.Data.List.GetD
import Mathlib.Data.List.Sort
import Mathlib.Tactic.Linarith

/-!
# The median of a list

The middle of the sorted values, or the mean of the two in the middle. At least half of the
values are not above it, and at least half are not below it.

## Key results

- `isMedian_median`
-/

namespace Median

variable {α : Type} [Field α] [LinearOrder α]

/-- The median of sorted values. -/
def ofSorted (values : List α) : α :=
  let n := values.length
  if n % 2 = 1 then values.getD (n / 2) 0
  else (values.getD (n / 2 - 1) 0 + values.getD (n / 2) 0) / (2 : Nat)

/-- The median of values. -/
def median (values : List α) : α := ofSorted (values.insertionSort (· ≤ ·))

/-- At least half of the values are at most `m`, and at least half are at least `m`. -/
structure IsMedian (values : List α) (m : α) : Prop where
  below : values.length ≤ 2 * values.countP (· ≤ m)
  above : values.length ≤ 2 * values.countP (m ≤ ·)

variable {values : List α}

omit [Field α] in
/-- The values up to a place of a sorted list are at most what is at the place. -/
theorem countP_le (h : values.Pairwise (· ≤ ·)) {i : Nat} (hi : i < values.length) {m : α}
    (hm : values[i] ≤ m) : i + 1 ≤ values.countP (· ≤ m) := by
  have htake : (values.take (i + 1)).countP (· ≤ m) = (values.take (i + 1)).length := by
    rw [List.countP_eq_length]
    intro v hv
    obtain ⟨j, hj, rfl⟩ := List.mem_take_iff_getElem.mp hv
    have hle : values[j] ≤ values[i] := by
      rcases Nat.lt_or_eq_of_le (show j ≤ i by omega) with hlt | heq
      · exact List.pairwise_iff_getElem.mp h j i (by omega) hi hlt
      · subst heq
        exact le_refl _
    exact decide_eq_true (hle.trans hm)
  have hsub := (List.take_sublist (i + 1) values).countP_le (p := fun v => decide (v ≤ m))
  rw [htake, List.length_take] at hsub
  omega

omit [Field α] in
/-- The values from a place of a sorted list on are at least what is at the place. -/
theorem countP_ge (h : values.Pairwise (· ≤ ·)) {i : Nat} (hi : i < values.length) {m : α}
    (hm : m ≤ values[i]) : values.length - i ≤ values.countP (m ≤ ·) := by
  have hdrop : (values.drop i).countP (m ≤ ·) = (values.drop i).length := by
    rw [List.countP_eq_length]
    intro v hv
    obtain ⟨j, hj, rfl⟩ := List.mem_drop_iff_getElem.mp hv
    have hle : values[i] ≤ values[i + j] := by
      rcases Nat.eq_zero_or_pos j with hzero | hpos
      · subst hzero
        exact le_refl _
      · exact List.pairwise_iff_getElem.mp h i (i + j) hi (by omega) (by omega)
    exact decide_eq_true (hm.trans hle)
  have hsub := (List.drop_sublist i values).countP_le (p := fun v => decide (m ≤ v))
  rw [hdrop, List.length_drop] at hsub
  exact hsub

variable [IsStrictOrderedRing α]

theorem isMedian_ofSorted (h : values.Pairwise (· ≤ ·)) (hne : values ≠ []) :
    IsMedian values (ofSorted values) := by
  have hpos : 0 < values.length := List.length_pos_iff.mpr hne
  unfold ofSorted
  dsimp only
  split
  · next hodd =>
    have hi : values.length / 2 < values.length := by omega
    rw [List.getD_eq_getElem _ _ hi]
    have hbelow := countP_le h hi (le_refl _)
    have habove := countP_ge h hi (le_refl _)
    constructor
    · omega
    · omega
  · next heven =>
    have hi : values.length / 2 - 1 < values.length := by omega
    have hj : values.length / 2 < values.length := by omega
    rw [List.getD_eq_getElem _ _ hi, List.getD_eq_getElem _ _ hj, Nat.cast_ofNat]
    have hle : values[values.length / 2 - 1] ≤ values[values.length / 2] :=
      List.pairwise_iff_getElem.mp h _ _ hi hj (by omega)
    -- the mean of the two in the middle is between them
    have hbelow := countP_le h hi
      (show values[values.length / 2 - 1] ≤
        (values[values.length / 2 - 1] + values[values.length / 2]) / 2 by linarith)
    have habove := countP_ge h hj
      (show (values[values.length / 2 - 1] + values[values.length / 2]) / 2 ≤
        values[values.length / 2] by linarith)
    constructor
    · omega
    · omega

/-- The median is one. -/
theorem isMedian_median (hne : values ≠ []) : IsMedian values (median values) := by
  have hperm : (values.insertionSort (· ≤ ·)).Perm values := List.perm_insertionSort _ _
  have hsorted : (values.insertionSort (· ≤ ·)).Pairwise (· ≤ ·) :=
    List.pairwise_insertionSort _ _
  have hmedian := isMedian_ofSorted hsorted fun hnil => hne (List.nil_perm.mp (hnil ▸ hperm))
  constructor
  · rw [← hperm.length_eq, ← hperm.countP_eq]
    exact hmedian.below
  · rw [← hperm.length_eq, ← hperm.countP_eq]
    exact hmedian.above

end Median
