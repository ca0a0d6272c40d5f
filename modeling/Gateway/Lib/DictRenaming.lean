import Mathlib.Data.List.Forall2
import Mathlib.Logic.Relator
import Gateway.Lib.Dict

/-!
# Dictionaries that are indexed differently

Two dictionaries with the same entries in the same order, up to a relation between their keys
and one between their values. When the relation between the keys is one to one, the operations
keep this, so that programs which index the same data by different keys compute the same.

## Key results

- `Renamed.set`, `Renamed.foldl_set`: related dictionaries stay related
- `Renamed.get?_eq`: reading them at related keys
- `Renamed.any`, `Renamed.sum`: what is computed from related entries
-/

namespace Dict

variable {κ κ' ν ν' : Type} {R : κ → κ' → Prop} {V : ν → ν' → Prop}

/-- The entries of two dictionaries are related one by one. -/
def Renamed (R : κ → κ' → Prop) (V : ν → ν' → Prop) (d : Dict κ ν) (d' : Dict κ' ν') : Prop :=
  List.Forall₂ (fun e e' => R e.1 e'.1 ∧ V e.2 e'.2) d.entries d'.entries

theorem renamed_empty : Renamed R V (.empty : Dict κ ν) (.empty : Dict κ' ν') := .nil

variable {d : Dict κ ν} {d' : Dict κ' ν'} {k : κ} {k' : κ'}

theorem Renamed.exists_right (h : Renamed R V d d') {e : κ × ν} (he : e ∈ d.entries) :
    ∃ e' ∈ d'.entries, R e.1 e'.1 ∧ V e.2 e'.2 := by
  obtain ⟨i, hi, rfl⟩ := List.getElem_of_mem he
  have hlength : d.entries.length = d'.entries.length := List.Forall₂.length_eq h
  exact ⟨_, List.getElem_mem (hlength ▸ hi), h.get hi (hlength ▸ hi)⟩

theorem Renamed.flip (h : Renamed R V d d') :
    Renamed (fun k' k => R k k') (fun v' v => V v v') d' d :=
  List.Forall₂.flip h

theorem Renamed.mem_keys (hR : Relator.BiUnique R) (h : Renamed R V d d') (hk : R k k') :
    k ∈ d.keys ↔ k' ∈ d'.keys := by
  constructor
  · intro hmem
    obtain ⟨e, he, rfl⟩ := List.mem_map.mp hmem
    obtain ⟨e', he', hkeys, -⟩ := h.exists_right he
    rw [hR.2 hk hkeys]
    exact List.mem_map_of_mem he'
  · intro hmem
    obtain ⟨e', he', rfl⟩ := List.mem_map.mp hmem
    obtain ⟨e, he, hkeys, -⟩ := h.flip.exists_right he'
    rw [hR.1 hk hkeys]
    exact List.mem_map_of_mem he

section

variable [DecidableEq κ] [DecidableEq κ']

/-- Where the values are the same, so is what is read at related keys. -/
theorem Renamed.get?_eq {d' : Dict κ' ν} (hR : Relator.BiUnique R) (h : Renamed R (· = ·) d d')
    (hk : R k k') : d.get? k = d'.get? k' := by
  cases hget : d.get? k with
  | none =>
    have habsent : k' ∉ d'.keys := by
      rw [← h.mem_keys hR hk]
      exact get?_eq_none.mp hget
    exact (get?_eq_none.mpr habsent).symm
  | some v =>
    obtain ⟨e', he', hkeys, hvalues⟩ := h.exists_right (get?_eq_some.mp hget)
    have hvalue : v = e'.2 := hvalues
    symm
    rw [get?_eq_some, hR.2 hk hkeys, hvalue]
    exact he'

/-- Setting related keys to related values. -/
theorem Renamed.set (hR : Relator.BiUnique R) (h : Renamed R V d d') (hk : R k k') {v : ν} {v' : ν'}
    (hv : V v v') : Renamed R V (d.set k v) (d'.set k' v') := by
  by_cases hmem : k ∈ d.keys
  · show List.Forall₂ _ (d.set k v).entries (d'.set k' v').entries
    rw [entries_set_present hmem, entries_set_present ((h.mem_keys hR hk).mp hmem),
      List.forall₂_map_left_iff, List.forall₂_map_right_iff]
    apply List.Forall₂.imp _ h
    intro e e' he
    by_cases heq : e.1 = k
    · have heq' : e'.1 = k' := hR.2 (heq ▸ he.1) hk
      rw [if_pos heq, if_pos heq']
      exact ⟨hk, hv⟩
    · have heq' : e'.1 ≠ k' := fun hsame => heq (hR.1 (hsame ▸ he.1) hk)
      rw [if_neg heq, if_neg heq']
      exact he
  · have hmem' : k' ∉ d'.keys := fun hin => hmem ((h.mem_keys hR hk).mpr hin)
    show List.Forall₂ _ (d.set k v).entries (d'.set k' v').entries
    rw [entries_set_new (get?_eq_none.mpr hmem), entries_set_new (get?_eq_none.mpr hmem')]
    exact List.rel_append h (.cons ⟨hk, hv⟩ .nil)

/-- Setting related entries one after the other. -/
theorem Renamed.foldl_set (hR : Relator.BiUnique R) (h : Renamed R V d d') {l : List (κ × ν)}
    {l' : List (κ' × ν')} (hl : List.Forall₂ (fun e e' => R e.1 e'.1 ∧ V e.2 e'.2) l l') :
    Renamed R V (l.foldl (fun d e => d.set e.1 e.2) d) (l'.foldl (fun d e => d.set e.1 e.2) d') := by
  induction hl generalizing d d' with
  | nil => exact h
  | cons hfirst _ ih => exact ih (h.set hR hfirst.1 hfirst.2)

end

/-! ## What is computed from the entries -/

theorem Renamed.entries_eq_nil (h : Renamed R V d d') : d.entries = [] ↔ d'.entries = [] := by
  have hlength : d.entries.length = d'.entries.length := List.Forall₂.length_eq h
  rw [← List.length_eq_zero_iff, ← List.length_eq_zero_iff, hlength]

/-- Related entries meet related conditions. -/
theorem Renamed.any (h : Renamed R V d d') {p : κ × ν → Bool} {p' : κ' × ν' → Bool}
    (hp : ∀ e e', R e.1 e'.1 → V e.2 e'.2 → p e = p' e') :
    d.entries.any p = d'.entries.any p' := by
  unfold Renamed at h
  generalize d.entries = l at h ⊢
  generalize d'.entries = l' at h ⊢
  induction h with
  | nil => rfl
  | cons hfirst _ ih => rw [List.any_cons, List.any_cons, hp _ _ hfirst.1 hfirst.2, ih]

/-- Related entries contribute the same to a sum. -/
theorem Renamed.sum {M : Type} [AddMonoid M] (h : Renamed R V d d') {f : κ × ν → M}
    {f' : κ' × ν' → M} (hf : ∀ e e', R e.1 e'.1 → V e.2 e'.2 → f e = f' e') :
    (d.entries.map f).sum = (d'.entries.map f').sum := by
  unfold Renamed at h
  generalize d.entries = l at h ⊢
  generalize d'.entries = l' at h ⊢
  induction h with
  | nil => rfl
  | cons hfirst _ ih =>
    rw [List.map_cons, List.map_cons, List.sum_cons, List.sum_cons, hf _ _ hfirst.1 hfirst.2, ih]

end Dict
