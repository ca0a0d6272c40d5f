import Mathlib.Data.List.Nodup
import Mathlib.Algebra.BigOperators.Group.List.Basic
import Mathlib.Algebra.BigOperators.Ring.Finset

/-!
# Insertion-ordered dictionaries

An association list with distinct keys. Setting a present key keeps its place,
a new key goes to the end, and deletion keeps the order of the rest. The
distinctness of the keys is a field, so every dictionary built by the operations
below is well formed by construction.

## Key results

- `get?_set`, `get?_erase`, `get?_modify`: reading after an update
- `entries_foldl_set_new`: the dictionary that distinct new keys make
- `sum_modify`: the sum of an attribute over the values, after one value changed
-/

/-- An insertion-ordered dictionary. -/
structure Dict (κ ν : Type) where
  entries : List (κ × ν)
  nodup : (entries.map Prod.fst).Nodup

namespace Dict

variable {κ ν : Type}

/-- The keys, in insertion order. -/
def keys (d : Dict κ ν) : List κ := d.entries.map Prod.fst

/-- The values, in insertion order. -/
def values (d : Dict κ ν) : List ν := d.entries.map Prod.snd

/-- The empty dictionary. -/
def empty : Dict κ ν := ⟨[], List.nodup_nil⟩

/-- The sum of an integer attribute over the values. -/
def sum (d : Dict κ ν) (g : ν → Int) : Int := (d.values.map g).sum

theorem ext_entries {d d' : Dict κ ν} (h : d.entries = d'.entries) : d = d' := by
  cases d
  cases d'
  cases h
  rfl

variable [DecidableEq κ]

private def lookup (k : κ) : List (κ × ν) → Option ν
  | [] => none
  | (k', v) :: rest => if k' = k then some v else lookup k rest

/-- The value at a key. -/
def get? (d : Dict κ ν) (k : κ) : Option ν := lookup k d.entries

private def upsert (k : κ) (v : ν) : List (κ × ν) → List (κ × ν)
  | [] => [(k, v)]
  | (k', v') :: rest => if k' = k then (k, v) :: rest else (k', v') :: upsert k v rest

private theorem keys_upsert (k : κ) (v : ν) (l : List (κ × ν)) :
    (upsert k v l).map Prod.fst =
      if k ∈ l.map Prod.fst then l.map Prod.fst else l.map Prod.fst ++ [k] := by
  induction l with
  | nil => simp [upsert]
  | cons p l ih =>
    obtain ⟨k', v'⟩ := p
    simp only [upsert]
    by_cases hk : k' = k
    · simp [hk]
    · rw [if_neg hk, List.map_cons, ih]
      by_cases hmem : k ∈ l.map Prod.fst
      · simp [hmem]
      · simp [hmem, Ne.symm hk]

/-- `d[k] = v`: a present key keeps its place, a new one goes to the end. -/
def set (d : Dict κ ν) (k : κ) (v : ν) : Dict κ ν :=
  ⟨upsert k v d.entries, by
    rw [keys_upsert]
    split
    · exact d.nodup
    · rename_i hk
      exact List.nodup_append.mpr ⟨d.nodup, List.nodup_singleton k, by
        rintro a ha b hb rfl
        exact hk (List.mem_singleton.mp hb ▸ ha)⟩⟩

/-- `del d[k]`, which does nothing for an absent key. -/
def erase (d : Dict κ ν) (k : κ) : Dict κ ν :=
  ⟨d.entries.filter fun p => p.1 ≠ k,
    (List.Sublist.map Prod.fst List.filter_sublist).nodup d.nodup⟩

private def update (k : κ) (f : ν → ν) (l : List (κ × ν)) : List (κ × ν) :=
  l.map fun p => if p.1 = k then (p.1, f p.2) else p

private theorem keys_update (k : κ) (f : ν → ν) (l : List (κ × ν)) :
    (update k f l).map Prod.fst = l.map Prod.fst := by
  simp only [update, List.map_map]
  refine List.map_congr_left fun p _ => ?_
  simp only [Function.comp_apply]
  split <;> rfl

/-- Change the value at a key in place; an absent key is left absent. -/
def modify (d : Dict κ ν) (k : κ) (f : ν → ν) : Dict κ ν :=
  ⟨update k f d.entries, by rw [keys_update]; exact d.nodup⟩

/-- Change every value in place. -/
def mapValues (d : Dict κ ν) (f : ν → ν) : Dict κ ν :=
  ⟨d.entries.map fun p => (p.1, f p.2), by rw [List.map_map]; exact d.nodup⟩

@[simp] theorem keys_modify (d : Dict κ ν) (k : κ) (f : ν → ν) : (d.modify k f).keys = d.keys :=
  keys_update k f d.entries

omit [DecidableEq κ] in
@[simp] theorem keys_mapValues (d : Dict κ ν) (f : ν → ν) : (d.mapValues f).keys = d.keys := by
  simp [keys, mapValues]

/-- `{k: v for ...}`: later values of a repeated key replace earlier ones. -/
def ofList (l : List (κ × ν)) : Dict κ ν := l.foldl (fun d p => d.set p.1 p.2) empty

/-! ## Reading -/

@[simp] theorem get?_empty (k : κ) : (empty : Dict κ ν).get? k = none := rfl

private theorem lookup_upsert (k k' : κ) (v : ν) (l : List (κ × ν)) :
    lookup k' (upsert k v l) = if k = k' then some v else lookup k' l := by
  induction l with
  | nil => simp [upsert, lookup]
  | cons p l ih =>
    obtain ⟨k₁, v₁⟩ := p
    simp only [upsert]
    by_cases h₁ : k₁ = k
    · subst h₁
      by_cases h : k₁ = k' <;> simp [lookup, h]
    · rw [if_neg h₁]
      simp only [lookup, ih]
      by_cases h : k₁ = k'
      · subst h
        simp [Ne.symm h₁]
      · simp [h]

theorem get?_set (d : Dict κ ν) (k k' : κ) (v : ν) :
    (d.set k v).get? k' = if k = k' then some v else d.get? k' :=
  lookup_upsert k k' v d.entries

private theorem lookup_filter (k k' : κ) (l : List (κ × ν)) :
    lookup k' (l.filter fun p => p.1 ≠ k) = if k = k' then none else lookup k' l := by
  induction l with
  | nil => simp [lookup]
  | cons p l ih =>
    obtain ⟨k₁, v₁⟩ := p
    rw [List.filter_cons]
    by_cases h₁ : k₁ = k
    · subst h₁
      simp only [ne_eq, not_true_eq_false, decide_false, Bool.false_eq_true, if_false]
      rw [ih]
      by_cases h : k₁ = k' <;> simp [lookup, h]
    · simp only [ne_eq, h₁, not_false_eq_true, decide_true, if_true, lookup]
      rw [ih]
      by_cases h : k₁ = k'
      · subst h
        simp [Ne.symm h₁]
      · simp [h]

theorem get?_erase (d : Dict κ ν) (k k' : κ) :
    (d.erase k).get? k' = if k = k' then none else d.get? k' :=
  lookup_filter k k' d.entries

private theorem lookup_update (k k' : κ) (f : ν → ν) (l : List (κ × ν)) :
    lookup k' (update k f l) = if k = k' then (lookup k' l).map f else lookup k' l := by
  induction l with
  | nil => simp [update, lookup]
  | cons p l ih =>
    obtain ⟨k₁, v₁⟩ := p
    simp only [update, List.map_cons] at ih ⊢
    by_cases h₁ : k₁ = k
    · subst h₁
      by_cases h : k₁ = k'
      · simp [lookup, h]
      · simp only [if_true, lookup, h, if_false] at ih ⊢
        exact ih
    · by_cases h : k₁ = k'
      · subst h
        simp [lookup, h₁, Ne.symm h₁]
      · simp only [h₁, if_false, lookup, h] at ih ⊢
        exact ih

theorem get?_modify (d : Dict κ ν) (k k' : κ) (f : ν → ν) :
    (d.modify k f).get? k' = if k = k' then (d.get? k').map f else d.get? k' :=
  lookup_update k k' f d.entries

theorem get?_modify_self {d : Dict κ ν} {k : κ} {v : ν} (h : d.get? k = some v) (f : ν → ν) :
    (d.modify k f).get? k = some (f v) := by
  rw [get?_modify, if_pos rfl, h, Option.map_some]

theorem get?_modify_ne (d : Dict κ ν) {k k' : κ} (h : k ≠ k') (f : ν → ν) :
    (d.modify k f).get? k' = d.get? k' := by
  rw [get?_modify, if_neg h]

private theorem lookup_eq_some {k : κ} {v : ν} {l : List (κ × ν)} (h : (l.map Prod.fst).Nodup) :
    lookup k l = some v ↔ (k, v) ∈ l := by
  induction l with
  | nil => simp [lookup]
  | cons p l ih =>
    obtain ⟨k₁, v₁⟩ := p
    simp only [List.map_cons, List.nodup_cons] at h
    simp only [lookup, List.mem_cons, Prod.mk.injEq]
    by_cases hk : k₁ = k
    · subst hk
      have hnot : (k₁, v) ∉ l := fun hm => h.1 (List.mem_map.mpr ⟨_, hm, rfl⟩)
      simp [hnot, eq_comm]
    · rw [if_neg hk, ih h.2]
      simp [Ne.symm hk]

private theorem update_congr {k : κ} {v : ν} {f g : ν → ν} {l : List (κ × ν)}
    (hn : (l.map Prod.fst).Nodup) (h : lookup k l = some v) (hfg : f v = g v) :
    update k f l = update k g l := by
  refine List.map_congr_left fun p hp => ?_
  by_cases hk : p.1 = k
  · have hv : p.2 = v := by
      have := (lookup_eq_some hn).mpr (show (k, p.2) ∈ l from hk ▸ hp)
      exact Option.some.inj (this.symm.trans h)
    rw [if_pos hk, if_pos hk, hv, hfg]
  · rw [if_neg hk, if_neg hk]

/-- Only the function's value at the present value matters. -/
theorem modify_congr {d : Dict κ ν} {k : κ} {v : ν} {f g : ν → ν} (h : d.get? k = some v)
    (hfg : f v = g v) : d.modify k f = d.modify k g := by
  simp only [modify, Dict.mk.injEq]
  exact update_congr d.nodup h hfg

/-- Changing a value to itself. -/
theorem modify_eq_self {d : Dict κ ν} {k : κ} {v : ν} {f : ν → ν} (h : d.get? k = some v)
    (hf : f v = v) : d.modify k f = d := by
  rw [modify_congr h (show f v = id v from hf)]
  apply ext_entries
  show d.entries.map _ = d.entries
  simp

theorem modify_modify (d : Dict κ ν) (k : κ) (f g : ν → ν) :
    (d.modify k f).modify k g = d.modify k fun v => g (f v) := by
  simp only [modify, update, List.map_map, Dict.mk.injEq]
  refine List.map_congr_left fun p _ => ?_
  by_cases h : p.1 = k <;> simp [h]

private theorem lookup_mapValues (k : κ) (f : ν → ν) (l : List (κ × ν)) :
    lookup k (l.map fun p => (p.1, f p.2)) = (lookup k l).map f := by
  induction l with
  | nil => rfl
  | cons p l ih =>
    simp only [List.map_cons, lookup, ih]
    split <;> rfl

theorem get?_mapValues (d : Dict κ ν) (k : κ) (f : ν → ν) :
    (d.mapValues f).get? k = (d.get? k).map f :=
  lookup_mapValues k f d.entries

private theorem lookup_isSome (k : κ) (l : List (κ × ν)) :
    (lookup k l).isSome ↔ k ∈ l.map Prod.fst := by
  induction l with
  | nil => simp [lookup]
  | cons p l ih =>
    obtain ⟨k₁, v₁⟩ := p
    simp only [lookup, List.map_cons, List.mem_cons]
    by_cases h : k₁ = k
    · simp [h]
    · simp only [h, if_false, ih, Ne.symm h, false_or]

theorem mem_keys {d : Dict κ ν} {k : κ} : k ∈ d.keys ↔ ∃ v, d.get? k = some v :=
  (lookup_isSome k d.entries).symm.trans Option.isSome_iff_exists

theorem get?_eq_some {d : Dict κ ν} {k : κ} {v : ν} :
    d.get? k = some v ↔ (k, v) ∈ d.entries := lookup_eq_some d.nodup

/-- A relation that holds between the values of any two keys. -/
theorem pairwise_values {d : Dict κ ν} {R : ν → ν → Prop}
    (h : ∀ k v k' v', d.get? k = some v → d.get? k' = some v' → k ≠ k' → R v v') :
    d.values.Pairwise R := by
  have hkeys : d.entries.Pairwise fun p q => p.1 ≠ q.1 := List.pairwise_map.mp d.nodup
  refine List.pairwise_map.mpr (hkeys.imp_of_mem fun {p q} hp hq hne => ?_)
  exact h p.1 p.2 q.1 q.2 (get?_eq_some.mpr hp) (get?_eq_some.mpr hq) hne

theorem mem_values {d : Dict κ ν} {v : ν} : v ∈ d.values ↔ ∃ k, d.get? k = some v := by
  simp only [values, List.mem_map, get?_eq_some]
  exact ⟨fun ⟨p, hp, hv⟩ => ⟨p.1, hv ▸ hp⟩, fun ⟨k, hk⟩ => ⟨(k, v), hk, rfl⟩⟩

private theorem get?_foldl_set {k : κ} {v : ν} (l : List (κ × ν)) (d : Dict κ ν)
    (h : (l.foldl (fun d p => d.set p.1 p.2) d).get? k = some v) :
    (k, v) ∈ l ∨ d.get? k = some v := by
  induction l generalizing d with
  | nil => exact .inr h
  | cons p l ih =>
    rcases ih _ h with hmem | hget
    · exact .inl (List.mem_cons_of_mem p hmem)
    · rw [get?_set] at hget
      split at hget
      · next hk => exact .inl (List.mem_cons.mpr (.inl (by rw [← hk, ← Option.some.inj hget])))
      · exact .inr hget

/-- What a dictionary made from a list holds, the list holds. -/
theorem mem_of_get?_ofList {l : List (κ × ν)} {k : κ} {v : ν} (h : (ofList l).get? k = some v) :
    (k, v) ∈ l :=
  (get?_foldl_set l empty h).resolve_right nofun

/-! ## New keys -/

private theorem upsert_new {k : κ} (v : ν) {l : List (κ × ν)} (h : lookup k l = none) :
    upsert k v l = l ++ [(k, v)] := by
  induction l with
  | nil => rfl
  | cons p l ih =>
    obtain ⟨k₁, v₁⟩ := p
    simp only [lookup] at h
    split at h
    · exact nomatch h
    · next hk => rw [upsert, if_neg hk, ih h, List.cons_append]

/-- A new key goes to the end. -/
theorem entries_set_new {d : Dict κ ν} {k : κ} (h : d.get? k = none) (v : ν) :
    (d.set k v).entries = d.entries ++ [(k, v)] :=
  upsert_new v h

private theorem upsert_present {k : κ} (v : ν) {l : List (κ × ν)} (hnodup : (l.map Prod.fst).Nodup)
    (h : k ∈ l.map Prod.fst) :
    upsert k v l = l.map fun p => if p.1 = k then (k, v) else p := by
  induction l with
  | nil => cases h
  | cons p l ih =>
    obtain ⟨k₁, v₁⟩ := p
    rw [List.map_cons, List.nodup_cons] at hnodup
    rw [upsert, List.map_cons]
    by_cases hk : k₁ = k
    · -- the other keys differ from this one
      have hrest : l.map (fun p => if p.1 = k then (k, v) else p) = l := by
        apply (List.map_congr_left _).trans (List.map_id l)
        intro p hp
        apply if_neg
        intro heq
        exact hnodup.1 (List.mem_map.mpr ⟨p, hp, heq.trans hk.symm⟩)
      rw [if_pos hk, if_pos hk, hrest]
    · rw [if_neg hk, if_neg hk, ih hnodup.2 ((List.mem_cons.mp h).resolve_left (Ne.symm hk))]

/-- A present key keeps its place. -/
theorem entries_set_present {d : Dict κ ν} {k : κ} (h : k ∈ d.keys) (v : ν) :
    (d.set k v).entries = d.entries.map fun p => if p.1 = k then (k, v) else p :=
  upsert_present v d.nodup h

theorem get?_eq_none {d : Dict κ ν} {k : κ} : d.get? k = none ↔ k ∉ d.keys := by
  rw [mem_keys, Option.eq_none_iff_forall_not_mem, not_exists]
  rfl

/-- Setting distinct new keys one after the other appends their entries. -/
theorem entries_foldl_set_new {l : List (κ × ν)} {d : Dict κ ν}
    (h : (d.keys ++ l.map Prod.fst).Nodup) :
    (l.foldl (fun d p => d.set p.1 p.2) d).entries = d.entries ++ l := by
  induction l generalizing d with
  | nil => simp
  | cons p l ih =>
    have hnew : p.1 ∉ d.keys := fun hmem =>
      (List.nodup_append.mp h).2.2 p.1 hmem p.1 (by simp) rfl
    have hset : (d.set p.1 p.2).entries = d.entries ++ [p] :=
      entries_set_new (get?_eq_none.mpr hnew) p.2
    have hkeys : (d.set p.1 p.2).keys = d.keys ++ [p.1] := by simp [keys, hset]
    rw [List.foldl_cons, ih (by rw [hkeys]; simpa using h), hset]
    simp

/-- Dictionaries with the same values at the same keys have the same entries, in some order. -/
theorem entries_perm {d d' : Dict κ ν} (h : ∀ k, d.get? k = d'.get? k) :
    d.entries.Perm d'.entries := by
  apply (List.perm_ext_iff_of_nodup d.nodup.of_map d'.nodup.of_map).mpr
  intro p
  rw [← get?_eq_some, ← get?_eq_some, h]

/-! ## Sums over the values -/

/-- A pointwise equal attribute has the same sum. -/
theorem sum_congr {d : Dict κ ν} {g g' : ν → Int} (h : ∀ k v, d.get? k = some v → g v = g' v) :
    d.sum g = d.sum g' := by
  unfold sum
  congr 1
  refine List.map_congr_left fun v hv => ?_
  obtain ⟨k, hk⟩ := mem_values.mp hv
  exact h k v hk

/-- The sum of an attribute that is zero everywhere. -/
theorem sum_eq_zero {d : Dict κ ν} {g : ν → Int} (h : ∀ k v, d.get? k = some v → g v = 0) :
    d.sum g = 0 := by
  have hzero : d.sum g = d.sum fun _ => 0 := sum_congr h
  rw [hzero]
  simp [sum]

private theorem sum_update {k : κ} {v : ν} {l : List (κ × ν)} (f : ν → ν) (g : ν → Int)
    (hn : (l.map Prod.fst).Nodup) (h : lookup k l = some v) :
    (((update k f l).map Prod.snd).map g).sum = ((l.map Prod.snd).map g).sum + (g (f v) - g v) := by
  induction l with
  | nil => exact nomatch h
  | cons p l ih =>
    obtain ⟨k₁, v₁⟩ := p
    simp only [List.map_cons, List.nodup_cons] at hn
    simp only [lookup] at h
    by_cases hk : k₁ = k
    · subst hk
      obtain rfl : v₁ = v := by simpa using h
      -- the key does not occur again, so the rest is unchanged
      have hrest : update k₁ f l = l := by
        refine (List.map_congr_left fun p hp => if_neg fun hpk => hn.1 ?_).trans (List.map_id l)
        exact hpk ▸ List.mem_map.mpr ⟨p, hp, rfl⟩
      have hcons : update k₁ f ((k₁, v₁) :: l) = (k₁, f v₁) :: update k₁ f l := by simp [update]
      rw [hcons, hrest]
      simp only [List.map_cons, List.sum_cons]
      omega
    · rw [if_neg hk] at h
      have hcons : update k f ((k₁, v₁) :: l) = (k₁, v₁) :: update k f l := by simp [update, hk]
      have := ih hn.2 h
      rw [hcons]
      simp only [List.map_cons, List.sum_cons] at this ⊢
      omega

/-- Changing one value changes the sum by the change of its attribute. -/
theorem sum_modify {d : Dict κ ν} {k : κ} {v : ν} (h : d.get? k = some v) (f : ν → ν)
    (g : ν → Int) : (d.modify k f).sum g = d.sum g + (g (f v) - g v) :=
  sum_update f g d.nodup h

/-- Changing one value without changing its attribute keeps the sum. -/
theorem sum_modify_eq (d : Dict κ ν) (k : κ) {f : ν → ν} {g : ν → Int} (h : ∀ v, g (f v) = g v) :
    (d.modify k f).sum g = d.sum g := by
  simp only [sum, values, modify, update, List.map_map]
  congr 1
  refine List.map_congr_left fun p _ => ?_
  simp only [Function.comp_apply]
  split
  · exact h p.2
  · rfl

omit [DecidableEq κ] in
/-- The sum of a natural-number attribute, computed before the cast. -/
theorem sum_natCast (d : Dict κ ν) (g : ν → Nat) :
    d.sum (fun v => g v) = ((d.values.map g).sum : Nat) := by
  simp only [sum, Nat.cast_list_sum, List.map_map, Function.comp_def]

omit [DecidableEq κ] in
/-- The sum over changed values is the sum of the changed attribute. -/
theorem sum_mapValues (d : Dict κ ν) (f : ν → ν) (g : ν → Int) :
    (d.mapValues f).sum g = d.sum fun v => g (f v) := by
  simp only [sum, values, mapValues, List.map_map]
  rfl

private theorem sum_filter {k : κ} {v : ν} {l : List (κ × ν)} (g : ν → Int)
    (hn : (l.map Prod.fst).Nodup) (h : lookup k l = some v) :
    (((l.filter fun p => p.1 ≠ k).map Prod.snd).map g).sum = ((l.map Prod.snd).map g).sum - g v := by
  induction l with
  | nil => exact nomatch h
  | cons p l ih =>
    obtain ⟨k₁, v₁⟩ := p
    simp only [List.map_cons, List.nodup_cons] at hn
    simp only [lookup] at h
    by_cases hk : k₁ = k
    · subst hk
      obtain rfl : v₁ = v := by simpa using h
      have hrest : (l.filter fun p => p.1 ≠ k₁) = l := by
        refine List.filter_eq_self.mpr fun p hp => decide_eq_true fun hpk => hn.1 ?_
        exact hpk ▸ List.mem_map.mpr ⟨p, hp, rfl⟩
      have hcons : (((k₁, v₁) :: l).filter fun p => p.1 ≠ k₁) = l.filter fun p => p.1 ≠ k₁ := by
        simp
      rw [hcons, hrest]
      simp only [List.map_cons, List.sum_cons]
      omega
    · rw [if_neg hk] at h
      have hcons : (((k₁, v₁) :: l).filter fun p => p.1 ≠ k) = (k₁, v₁) :: l.filter fun p => p.1 ≠ k := by
        simp [hk]
      have := ih hn.2 h
      rw [hcons]
      simp only [List.map_cons, List.sum_cons] at this ⊢
      omega

/-- Deleting a key takes its attribute off the sum. -/
theorem sum_erase {d : Dict κ ν} {k : κ} {v : ν} (h : d.get? k = some v) (g : ν → Int) :
    (d.erase k).sum g = d.sum g - g v :=
  sum_filter g d.nodup h

/-- A new key adds its attribute to the sum. -/
theorem sum_set_new {d : Dict κ ν} {k : κ} (h : d.get? k = none) (v : ν) (g : ν → Int) :
    (d.set k v).sum g = d.sum g + g v := by
  have hset : (d.set k v).get? k = some v := by rw [get?_set, if_pos rfl]
  have herase : ((d.set k v).erase k).sum g = d.sum g := by
    unfold sum
    congr 2
    show ((upsert k v d.entries).filter fun p => p.1 ≠ k).map Prod.snd = d.entries.map Prod.snd
    have habsent : ∀ l : List (κ × ν), lookup k l = none →
        ((upsert k v l).filter fun p => p.1 ≠ k) = l := by
      intro l hl
      induction l with
      | nil => simp [upsert]
      | cons p l ih =>
        obtain ⟨k₁, v₁⟩ := p
        simp only [lookup] at hl
        split at hl
        · exact nomatch hl
        next hk =>
          have hrest := ih hl
          simp only [ne_eq, decide_not] at hrest
          simp [upsert, hk, hrest]
    rw [habsent _ h]
  have := sum_erase hset g
  omega

/-- An attribute that differs at one key only. -/
theorem sum_change {d : Dict κ ν} {k : κ} {v : ν} (g g' : ν → Int) (h : d.get? k = some v)
    (hother : ∀ k' v', k' ≠ k → d.get? k' = some v' → g' v' = g v') :
    d.sum g' = d.sum g + (g' v - g v) := by
  have hrest : (d.erase k).sum g' = (d.erase k).sum g := by
    refine sum_congr fun k' v' hv' => ?_
    rw [get?_erase] at hv'
    split at hv'
    · exact nomatch hv'
    next hne => exact hother k' v' (Ne.symm hne) hv'
  have hg := sum_erase h g
  have hg' := sum_erase h g'
  omega

end Dict
