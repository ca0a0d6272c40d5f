import Mathlib.Data.Nat.Init

/-!
# Places on a ring

`n` places, counted upwards and around. `ahead n c k` is how many places `k` is ahead of
`c`: the places from `c` on are `c`, …, and `k` is the one at offset `ahead n c k`.

## Key results

- `ahead_lt`, `place_ahead`: every place is at its offset
- `ahead_place`: how far a place is ahead of one that is passed on the way to it
- `ahead_next`: and of the one after it
-/

namespace Cyclic

/-- How many places `k` is ahead of `c`. -/
def ahead (n c k : Nat) : Nat := if c ≤ k then k - c else k + n - c

/-- The place at an offset. -/
theorem place_eq {n c o : Nat} (hc : c < n) (ho : o < n) :
    (c + o) % n = if c + o < n then c + o else c + o - n := by
  split
  · next h => exact Nat.mod_eq_of_lt h
  · next h =>
    rw [Nat.mod_eq_sub_mod (by omega)]
    exact Nat.mod_eq_of_lt (by omega)

theorem place_lt {n c o : Nat} (hc : c < n) : (c + o) % n < n := Nat.mod_lt _ (by omega)

theorem ahead_lt {n c k : Nat} (hc : c < n) (hk : k < n) : ahead n c k < n := by
  unfold ahead
  split <;> omega

theorem place_ahead {n c k : Nat} (hc : c < n) (hk : k < n) : (c + ahead n c k) % n = k := by
  rw [place_eq hc (ahead_lt hc hk)]
  unfold ahead
  split <;> split <;> omega

/-- On the way to `k`, the distance to it goes down. -/
theorem ahead_place {n c k o : Nat} (hc : c < n) (hk : k < n) (ho : o ≤ ahead n c k) :
    ahead n ((c + o) % n) k = ahead n c k - o := by
  have hlt := ahead_lt hc hk
  rw [place_eq hc (by omega)]
  unfold ahead at *
  split at ho <;> split <;> split <;> omega

/-- The place after one that is passed is closer by one. -/
theorem ahead_next {n c k o : Nat} (hc : c < n) (hk : k < n) (ho : o < ahead n c k) :
    ahead n (((c + o) % n + 1) % n) k = ahead n c k - (o + 1) := by
  rw [Nat.mod_add_mod, Nat.add_assoc]
  exact ahead_place hc hk ho

/-- A place is at no distance only from itself. -/
theorem ahead_eq_zero {n c k : Nat} (hc : c < n) : ahead n c k = 0 ↔ c = k := by
  unfold ahead
  split <;> omega

end Cyclic
