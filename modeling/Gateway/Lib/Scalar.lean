import Mathlib.Data.Char
import Mathlib.Data.List.Lex
import Mathlib.Data.List.Sort
import Mathlib.Data.Prod.Lex
import Gateway.Lib.PythonJson

/-!
# Values that Python can hash

The JSON values that may be keys of a dictionary or members of a set, up to equality: `1`, `1.0`
and `True` are one value. Tuples of them are sorted as Python sorts them, which fails when two
tuples first differ in values of different kinds.

## Key results

- `sortTuples_perm`, `sortTuples_sorted`: what sorting makes
- `ofJson_eq_iff`: equal values
-/

/-- A value that can be hashed. -/
inductive Scalar
  | null
  | number (q : Rat)
  | str (s : String)
deriving DecidableEq, Repr

namespace Scalar

/-- A value, if it can be hashed. -/
def ofJson : Json → Option Scalar
  | .null => some .null
  | .str s => some (.str s)
  | .arr _ => none
  | .obj _ => none
  | j => j.number.map .number

theorem ofJson_cases {a : Json} {x : Scalar} (h : ofJson a = some x) :
    (a = .null ∧ x = .null) ∨ (∃ s, a = .str s ∧ x = .str s) ∨
      ∃ q, a.number = some q ∧ x = .number q := by
  have hnumber : a.number.map .number = some x → ∃ q, a.number = some q ∧ x = .number q := by
    intro hmap
    obtain ⟨q, hq, rfl⟩ := Option.map_eq_some_iff.mp hmap
    exact ⟨q, hq, rfl⟩
  cases a with
  | null => exact .inl ⟨rfl, (Option.some.inj h).symm⟩
  | str s => exact .inr (.inl ⟨s, rfl, (Option.some.inj h).symm⟩)
  | arr xs => cases h
  | obj fields => cases h
  | bool b => exact .inr (.inr (hnumber h))
  | int n => exact .inr (.inr (hnumber h))
  | float f => exact .inr (.inr (hnumber h))

/-- Values are the same scalar just when they are equal. -/
theorem ofJson_eq_iff {a b : Json} {x y : Scalar} (ha : ofJson a = some x) (hb : ofJson b = some y) :
    Json.pyEq a b = true ↔ x = y := by
  rcases ofJson_cases ha with ⟨rfl, rfl⟩ | ⟨s, rfl, rfl⟩ | ⟨q, hq, rfl⟩
  · rw [Json.pyEq_null]
    rcases ofJson_cases hb with ⟨rfl, rfl⟩ | ⟨t, rfl, rfl⟩ | ⟨r, hr, rfl⟩
    · simp
    · simp
    · have hne : b ≠ .null := by
        intro heq
        rw [heq] at hr
        cases hr
      simp [hne]
  · have hsame : Json.pyEq (.str s) b = true ↔ b = .str s := by
      cases b <;> simp [Json.pyEq, Json.number, eq_comm]
    rw [hsame]
    rcases ofJson_cases hb with ⟨rfl, rfl⟩ | ⟨t, rfl, rfl⟩ | ⟨r, hr, rfl⟩
    · simp
    · simp [eq_comm]
    · have hne : b ≠ .str s := by
        intro heq
        rw [heq] at hr
        cases hr
      simp [hne]
  · constructor
    · intro heq
      have hbq := Json.number_of_pyEq hq heq
      rcases ofJson_cases hb with ⟨rfl, rfl⟩ | ⟨t, rfl, rfl⟩ | ⟨r, hr, rfl⟩
      · cases hbq
      · cases hbq
      · rw [hbq] at hr
        rw [Option.some.inj hr]
    · intro heq
      subst heq
      rcases ofJson_cases hb with ⟨-, hy⟩ | ⟨t, -, hy⟩ | ⟨r, hr, hy⟩
      · cases hy
      · cases hy
      · cases hy
        exact Json.pyEq_of_number hq hr

/-- A linear order that is the one of Python on numbers and on strings. -/
def rank : Scalar → ℕ ×ₗ ℚ ×ₗ Text
  | .null => toLex (0, toLex (0, []))
  | .number q => toLex (1, toLex (q, []))
  | .str s => toLex (2, toLex (0, s.toList))

theorem rank_injective : Function.Injective rank := by
  intro x y h
  cases x <;> cases y <;> simp_all [rank, String.toList_inj]

instance : LinearOrder Scalar := LinearOrder.lift' rank rank_injective

/-- `<` is defined between two values. -/
def ordered : Scalar → Scalar → Bool
  | .number _, .number _ => true
  | .str _, .str _ => true
  | _, _ => false

/-- `<` is defined between two tuples: the first values in which they differ have an order. -/
def tuplesOrdered : List Scalar → List Scalar → Bool
  | a :: as, b :: bs => if a = b then tuplesOrdered as bs else a.ordered b
  | _, _ => true

/-- `sorted` of different tuples; `none` is the error of values without an order. -/
def sortTuples (tuples : List (List Scalar)) : Option (List (List Scalar)) :=
  if tuples.all fun t => tuples.all fun u => tuplesOrdered t u then
    some (tuples.insertionSort (· ≤ ·))
  else none

theorem sortTuples_perm {tuples sorted : List (List Scalar)} (h : sortTuples tuples = some sorted) :
    sorted.Perm tuples := by
  unfold sortTuples at h
  split at h
  · rw [← Option.some.inj h]
    exact List.perm_insertionSort _ _
  · cases h

theorem ordered_of_sortTuples {tuples sorted : List (List Scalar)}
    (h : sortTuples tuples = some sorted) {t u : List Scalar} (ht : t ∈ tuples) (hu : u ∈ tuples) :
    tuplesOrdered t u = true := by
  unfold sortTuples at h
  split at h
  · next hall => exact List.all_eq_true.mp (List.all_eq_true.mp hall t ht) u hu
  · cases h

/-- Tuples that are ordered two by two can be sorted. -/
theorem exists_sortTuples {tuples : List (List Scalar)}
    (h : ∀ t ∈ tuples, ∀ u ∈ tuples, tuplesOrdered t u = true) :
    ∃ sorted, sortTuples tuples = some sorted := by
  refine ⟨_, if_pos ?_⟩
  rw [List.all_eq_true]
  intro t ht
  rw [List.all_eq_true]
  exact h t ht

theorem sortTuples_sorted {tuples sorted : List (List Scalar)} (hnodup : tuples.Nodup)
    (h : sortTuples tuples = some sorted) : sorted.Pairwise (· < ·) := by
  have hperm := sortTuples_perm h
  unfold sortTuples at h
  split at h
  · rw [← Option.some.inj h] at hperm ⊢
    have hle : (tuples.insertionSort (· ≤ ·)).Pairwise (· ≤ ·) :=
      List.pairwise_insertionSort _ _
    have hne : (tuples.insertionSort (· ≤ ·)).Nodup := hperm.nodup_iff.mpr hnodup
    exact (hle.and hne).imp fun hboth => lt_of_le_of_ne hboth.1 hboth.2
  · cases h

end Scalar
