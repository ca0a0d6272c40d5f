import Gateway.Model.BackendPool
import Mathlib.Algebra.Order.BigOperators.Group.List
import Mathlib.Algebra.Order.Ring.Int
import Mathlib.Data.List.Basic

/-!
# The accounts of the backend pool

`Accounts` says that the inflight count of every slot is the total weight of its
unreleased leases and that `_active_leases` is the set of these leases. Every
section of the pool keeps it, and under it `_release` never raises.

## Key results

- `select_ok`: what `_select` does when it returns
- `Accounts.select`, `Accounts.release`: the sections keep the accounts
- `release_ok`: `_release` of a lease of the pool never raises
-/

namespace Gateway

/-- The total weight of the unreleased leases of a slot. -/
def unreleasedWeight (leases : List BackendLease) (backendId : String) : Int :=
  ((leases.filter fun l => !l.released && l.backendId = backendId).map (·.weight)).sum

section Weights

variable {leases : List BackendLease} {l : BackendLease} {b : String} {i : Nat}

theorem unreleasedWeight_append (leases : List BackendLease) (l : BackendLease) (b : String) :
    unreleasedWeight (leases ++ [l]) b = unreleasedWeight leases b +
      if !l.released && l.backendId = b then l.weight else 0 := by
  unfold unreleasedWeight
  rw [List.filter_append, List.map_append, List.sum_append]
  by_cases h : (!l.released && decide (l.backendId = b)) = true <;> simp [h]

/-- Releasing a lease takes its weight from its slot. -/
theorem unreleasedWeight_set (h : leases[i]? = some l) (hl : l.released = false) (b : String) :
    unreleasedWeight (leases.set i { l with released := true }) b =
      unreleasedWeight leases b - if l.backendId = b then l.weight else 0 := by
  unfold unreleasedWeight
  induction leases generalizing i with
  | nil => simp at h
  | cons l' leases ih =>
    cases i with
    | zero =>
      obtain rfl : l' = l := by simpa using h
      by_cases hb : l'.backendId = b <;> simp [hb, hl]
    | succ i =>
      have hrest := ih (i := i) (by simpa using h)
      by_cases hp : (!l'.released && decide (l'.backendId = b)) = true
      · simp only [List.set_cons_succ, List.filter_cons, hp, if_true, List.map_cons,
          List.sum_cons, hrest]
        omega
      · simpa only [List.set_cons_succ, List.filter_cons, hp, Bool.false_eq_true, if_false]
          using hrest

/-- An unreleased lease weighs no more than its slot carries. -/
theorem weight_le_unreleasedWeight (hpos : ∀ l ∈ leases, 0 < l.weight)
    (h : leases[i]? = some l) (hl : l.released = false) :
    l.weight ≤ unreleasedWeight leases l.backendId := by
  refine List.single_le_sum (fun w hw => ?_) l.weight ?_
  · obtain ⟨l', hl', rfl⟩ := List.mem_map.mp hw
    exact (hpos l' (List.mem_filter.mp hl').1).le
  · exact List.mem_map.mpr ⟨l, List.mem_filter.mpr ⟨List.mem_of_getElem? h, by simp [hl]⟩, rfl⟩

end Weights

namespace BackendPool

variable {p p' : BackendPool} {lease : BackendLeaseId} {l : BackendLease} {b : String} {w : Int}

/-- Whether the lease exists and was released. -/
def leaseReleased (p : BackendPool) (lease : BackendLeaseId) : Bool :=
  (p.leases[lease]?).any (·.released)

/-- The inflight counts and the set of active leases agree with the leases. -/
structure Accounts (p : BackendPool) : Prop where
  inflight : ∀ b slot, p.slots.get? b = some slot → slot.inflight = unreleasedWeight p.leases b
  weight : ∀ l ∈ p.leases, 0 < l.weight
  slot : ∀ l ∈ p.leases, ∃ slot, p.slots.get? l.backendId = some slot
  active : ∀ i, i ∈ p.activeLeases ↔ ∃ l, p.leases[i]? = some l ∧ l.released = false

/-- The accounts depend on the leases and the inflight counts only. -/
theorem Accounts.congr (h : Accounts p) (hl : p'.leases = p.leases)
    (ha : p'.activeLeases = p.activeLeases)
    (hs : ∀ b, (p'.slots.get? b).map (·.inflight) = (p.slots.get? b).map (·.inflight)) :
    Accounts p' where
  inflight b slot hslot := by
    have hb := hs b
    rw [hslot] at hb
    obtain ⟨slot', hslot', heq⟩ := Option.map_eq_some_iff.mp hb.symm
    rw [hl, ← h.inflight b slot' hslot']
    exact heq.symm
  weight := hl ▸ h.weight
  slot l hmem := by
    obtain ⟨slot, hslot⟩ := h.slot l (hl ▸ hmem)
    have hb := hs l.backendId
    rw [hslot] at hb
    obtain ⟨slot', hslot', -⟩ := Option.map_eq_some_iff.mp hb
    exact ⟨slot', hslot'⟩
  active := by rw [hl, ha]; exact h.active

/-- The accounts do not depend on the observer. -/
theorem Accounts.withObserver {observer : Option (List BackendObservation)} (h : Accounts p) :
    Accounts { p with observer := observer } :=
  h.congr rfl rfl fun _ => rfl

/-! ## Selection -/

/-- The selected index is that of a healthy slot. -/
theorem selectedIndex_healthy {index : Nat} (h : p.selectedIndex = some index) :
    ∃ b slot, p.slots.entries[index]? = some (b, slot) ∧ slot.healthy = some true := by
  unfold selectedIndex at h
  split at h
  · exact nomatch h
  · have hmem := List.find?_some h
    simp only [healthyIndices, decide_eq_true_eq, List.mem_filterMap] at hmem
    obtain ⟨⟨⟨b, slot⟩, i⟩, hentry, hhealthy⟩ := hmem
    split at hhealthy
    · next hslot =>
      obtain ⟨rfl, -⟩ : i = index ∧ _ := by simpa using hhealthy
      exact ⟨b, slot, by simpa using List.mem_zipIdx_iff_getElem?.mp hentry, hslot⟩
    · exact nomatch hhealthy

/-- What `_select` does when it returns: it picks a healthy slot and hands out a new
    lease of it. -/
theorem select_ok (h : p.select w = .ok (lease, p')) :
    0 < w ∧ p.closed = false ∧ lease = p.leases.length ∧
      ∃ b slot, p.slots.get? b = some slot ∧ slot.healthy = some true ∧
        p'.slots = p.slots.modify b (fun s => { s with inflight := s.inflight + w }) ∧
        p'.leases = p.leases ++ [⟨b, w, false⟩] ∧
        p'.activeLeases = insert p.leases.length p.activeLeases ∧
        p'.activeStreams = p.activeStreams ∧ p'.closed = p.closed := by
  unfold select at h
  split at h
  · exact nomatch h
  next hw =>
  split at h
  · exact nomatch h
  next hclosed =>
  split at h
  · exact nomatch h
  next index hindex =>
  obtain ⟨b, slot, hentry, hhealthy⟩ := selectedIndex_healthy hindex
  rw [hentry] at h
  obtain ⟨rfl, rfl⟩ : p.leases.length = lease ∧ _ := by simpa using h
  exact ⟨by omega, by simpa using hclosed, rfl, b, slot,
    Dict.get?_eq_some.mpr (List.mem_of_getElem? hentry), hhealthy, rfl, rfl, rfl, rfl, rfl⟩

theorem leaseReleased_of_le (h : p.leases.length ≤ lease) : p.leaseReleased lease = false := by
  rw [leaseReleased, List.getElem?_eq_none h]
  rfl

/-- `_select` releases nothing, and its new lease is unreleased. -/
theorem select_leaseReleased (h : p.select w = .ok (lease, p')) (lease' : BackendLeaseId) :
    p'.leaseReleased lease' = p.leaseReleased lease' := by
  obtain ⟨-, -, -, b, -, -, -, -, hleases, -⟩ := select_ok h
  rcases Nat.lt_or_ge lease' p.leases.length with hold | hnew
  · rw [leaseReleased, hleases, List.getElem?_append_left hold]
    rfl
  · rw [leaseReleased_of_le hnew, leaseReleased, hleases, List.getElem?_append_right hnew]
    cases lease' - p.leases.length <;> simp

theorem Accounts.select (h : Accounts p) (hsel : p.select w = .ok (lease, p')) :
    Accounts p' := by
  obtain ⟨hw, -, -, b, slot, hslot, -, hslots, hleases, hactive, -, -⟩ := select_ok hsel
  constructor
  case inflight =>
    intro b' slot' hslot'
    rw [hslots, Dict.get?_modify] at hslot'
    rw [hleases, unreleasedWeight_append]
    split at hslot'
    · next hb =>
      subst hb
      rw [hslot] at hslot'
      obtain rfl := Option.some.inj hslot'
      simp [h.inflight b slot hslot]
    · next hb =>
      simp [h.inflight b' slot' hslot', hb]
  case weight =>
    intro l hl
    rw [hleases] at hl
    rcases List.mem_append.mp hl with hold | hnew
    · exact h.weight l hold
    · rw [List.mem_singleton.mp hnew]
      exact hw
  case slot =>
    intro l hl
    rw [hleases] at hl
    have hold : ∃ s, p.slots.get? l.backendId = some s := by
      rcases List.mem_append.mp hl with hold | hnew
      · exact h.slot l hold
      · rw [List.mem_singleton.mp hnew]
        exact ⟨slot, hslot⟩
    obtain ⟨s, hs⟩ := hold
    rw [hslots, Dict.get?_modify]
    split
    · exact ⟨_, by rw [hs]; rfl⟩
    · exact ⟨s, hs⟩
  case active =>
    intro i
    rw [hactive, hleases, Finset.mem_insert, h.active]
    constructor
    · intro hi
      rcases hi with rfl | ⟨l, hl, hfree⟩
      · exact ⟨_, List.getElem?_concat_length, rfl⟩
      · exact ⟨l, List.getElem?_append_left (List.getElem?_eq_some_iff.mp hl).1 ▸ hl, hfree⟩
    · intro hi
      obtain ⟨l, hl, hfree⟩ := hi
      rcases Nat.lt_trichotomy i p.leases.length with hlt | heq | hgt
      · exact .inr ⟨l, by rwa [List.getElem?_append_left hlt] at hl, hfree⟩
      · exact .inl heq
      · rw [List.getElem?_eq_none (by simp; omega)] at hl
        exact nomatch hl

/-! ## Release -/

/-- What `_release` does to a lease of the pool: it never raises, and only the first
    time it does something. -/
theorem release_ok (h : Accounts p) (hl : p.leases[lease]? = some l) :
    ∃ p', p.release lease = .ok p' ∧
      (l.released = true → p' = p) ∧
      (l.released = false →
        p'.slots = p.slots.modify l.backendId
          (fun s => { s with inflight := s.inflight - l.weight }) ∧
        p'.leases = p.leases.set lease { l with released := true } ∧
        p'.activeLeases = p.activeLeases.erase lease) ∧
      p'.activeStreams = p.activeStreams ∧ p'.closed = p.closed := by
  unfold release
  rw [hl]
  by_cases hreleased : l.released = true
  · exact ⟨p, if_pos hreleased, fun _ => rfl, fun hfree => by simp [hfree] at hreleased, rfl, rfl⟩
  · have hfree : l.released = false := by simpa using hreleased
    obtain ⟨slot, hslot⟩ := h.slot l (List.mem_of_getElem? hl)
    -- the slot carries at least the weight of this lease
    have hle : l.weight ≤ slot.inflight :=
      h.inflight _ _ hslot ▸ weight_le_unreleasedWeight h.weight hl hfree
    simp only [hfree, Bool.false_eq_true, if_false, hslot, if_neg (not_lt.mpr hle)]
    exact ⟨_, rfl, (by intros; contradiction), fun _ => ⟨rfl, rfl, rfl⟩, rfl, rfl⟩

theorem Accounts.release (h : Accounts p) (hl : p.leases[lease]? = some l)
    (hrel : p.release lease = .ok p') : Accounts p' := by
  obtain ⟨q, hq, hsame, hchange, -, -⟩ := release_ok h hl
  obtain rfl : q = p' := by simpa [hq] using hrel
  by_cases hreleased : l.released = true
  · rw [hsame hreleased]
    exact h
  have hfree : l.released = false := by simpa using hreleased
  obtain ⟨hslots, hleases, hactive⟩ := hchange hfree
  have hlt : lease < p.leases.length := (List.getElem?_eq_some_iff.mp hl).1
  have hmem : ∀ l' ∈ q.leases, l' ∈ p.leases ∨ l' = { l with released := true } := by
    intro l' hl'
    rw [hleases] at hl'
    exact List.mem_or_eq_of_mem_set hl'
  constructor
  case inflight =>
    intro b slot' hslot'
    rw [hslots, Dict.get?_modify] at hslot'
    rw [hleases, unreleasedWeight_set hl hfree]
    split at hslot'
    · next hb =>
      obtain ⟨slot, hslot, rfl⟩ := Option.map_eq_some_iff.mp hslot'
      simp [h.inflight b slot hslot, hb]
    · next hb => simp [h.inflight b slot' hslot', hb]
  case weight =>
    intro l' hl'
    rcases hmem l' hl' with hold | rfl
    · exact h.weight l' hold
    · exact h.weight l (List.mem_of_getElem? hl)
  case slot =>
    intro l' hl'
    have hold : ∃ s, p.slots.get? l'.backendId = some s := by
      rcases hmem l' hl' with hold | rfl
      · exact h.slot l' hold
      · exact h.slot l (List.mem_of_getElem? hl)
    obtain ⟨s, hs⟩ := hold
    rw [hslots, Dict.get?_modify]
    split
    · exact ⟨_, by rw [hs]; rfl⟩
    · exact ⟨s, hs⟩
  case active =>
    intro i
    rw [hactive, hleases, Finset.mem_erase, h.active, List.getElem?_set]
    by_cases hi : lease = i
    · subst hi
      simp [hlt]
    · simp [hi, Ne.symm hi]

/-! ## The other sections -/

theorem Accounts.setHealth (h : Accounts p) (b : String) (healthy : Bool) :
    Accounts (p.setHealth b healthy) := by
  unfold BackendPool.setHealth
  split
  · exact h
  · refine h.congr rfl rfl fun b' => ?_
    show ((p.slots.modify b _).get? b').map _ = _
    rw [Dict.get?_modify]
    split
    · rw [Option.map_map]
      rfl
    · rfl

theorem Accounts.finishClose (h : Accounts p) : Accounts p.finishClose := by
  refine h.congr rfl rfl fun b => ?_
  show ((p.slots.mapValues _).get? b).map _ = _
  rw [Dict.get?_mapValues, Option.map_map]
  rfl

@[simp] theorem setHealth_leases (p : BackendPool) (b : String) (healthy : Bool) :
    (p.setHealth b healthy).leases = p.leases := by
  unfold BackendPool.setHealth
  split <;> rfl

@[simp] theorem setHealth_closed (p : BackendPool) (b : String) (healthy : Bool) :
    (p.setHealth b healthy).closed = p.closed := by
  unfold BackendPool.setHealth
  split <;> rfl

@[simp] theorem setHealth_activeStreams (p : BackendPool) (b : String) (healthy : Bool) :
    (p.setHealth b healthy).activeStreams = p.activeStreams := by
  unfold BackendPool.setHealth
  split <;> rfl

theorem leaseReleased_congr (h : p'.leases = p.leases) (lease : BackendLeaseId) :
    p'.leaseReleased lease = p.leaseReleased lease := by
  rw [leaseReleased, leaseReleased, h]

/-- What the constructor accepts has no leases. -/
theorem init_ok {backendIds : List String} {blank : String → Bool} {interval timeout : Rat}
    {observed : Bool} (h : init backendIds blank interval timeout observed = .ok p) :
    p.leases = [] ∧ p.activeLeases = ∅ ∧ p.activeStreams = ∅ ∧
      ∀ b slot, p.slots.get? b = some slot → slot = ⟨none, 0⟩ := by
  unfold init at h
  split at h
  · exact nomatch h
  split at h
  · exact nomatch h
  split at h
  · exact nomatch h
  simp only at h
  split at h
  · exact nomatch h
  obtain rfl := Except.ok.inj h
  refine ⟨rfl, rfl, rfl, fun b slot hslot => ?_⟩
  obtain ⟨b', -, heq⟩ := List.mem_map.mp (Dict.mem_of_get?_ofList hslot)
  exact (Prod.mk.inj heq).2.symm

theorem Accounts.init {backendIds : List String} {blank : String → Bool} {interval timeout : Rat}
    {observed : Bool} (h : init backendIds blank interval timeout observed = .ok p) :
    Accounts p := by
  obtain ⟨hleases, hactive, -, hslots⟩ := init_ok h
  constructor
  · intro b slot hslot
    rw [hslots b slot hslot, hleases]
    rfl
  · simp [hleases]
  · simp [hleases]
  · simp [hleases, hactive]

end BackendPool

end Gateway
