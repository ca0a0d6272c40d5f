import Gateway.Lib.Cyclic
import Gateway.Model.PoolSections
import Gateway.Spec.PoolAccounting

/-!
# Least-inflight selection

`_select` takes the first backend from the cursor on that is healthy and carries no more
than any healthy one, and moves the cursor past it.

A backend that is a candidate again and again is ahead of the cursor by fewer places
after every selection that passes it over, so it is chosen before long. The counts of the
healthy backends stay close, because only a smallest one grows.

## Key results

- `select_spec`: which backend `_select` chooses
- `no_starvation`: a backend that stays a candidate is chosen in time
- `load_balanced`: the inflight counts of healthy backends stay close
-/

namespace Gateway.BackendPool

variable {p p' : BackendPool} {b : String} {w : Int} {lease : BackendLeaseId}

/-! ## What is selected -/

/-- A backend that `_select` may choose: healthy, and no healthy one carries less. -/
def Candidate (p : BackendPool) (b : String) : Prop :=
  ∃ slot, p.slots.get? b = some slot ∧ slot.healthy = some true ∧
    ∀ b' slot', p.slots.get? b' = some slot' → slot'.healthy = some true →
      slot.inflight ≤ slot'.inflight

theorem mem_healthyIndices {i : Nat} {m : Int} : (i, m) ∈ p.healthyIndices ↔
    ∃ b slot, p.slots.entries[i]? = some (b, slot) ∧ slot.healthy = some true ∧
      slot.inflight = m := by
  simp only [healthyIndices, List.mem_filterMap]
  constructor
  · rintro ⟨⟨⟨b, slot⟩, j⟩, hentry, hsome⟩
    split at hsome
    · next hhealthy =>
      obtain ⟨rfl, rfl⟩ := Prod.mk.inj (Option.some.inj hsome)
      exact ⟨b, slot, by simpa using List.mem_zipIdx_iff_getElem?.mp hentry, hhealthy, rfl⟩
    · cases hsome
  · rintro ⟨b, slot, hentry, hhealthy, hinflight⟩
    refine ⟨((b, slot), i), List.mem_zipIdx_iff_getElem?.mpr (by simpa using hentry), ?_⟩
    rw [if_pos hhealthy, hinflight]

/-- The indices that carry the least are those of the candidates. -/
theorem candidate_iff {m : Int} (hmin : (p.healthyIndices.map Prod.snd).min? = some m) {i : Nat}
    (hkey : p.slots.keys[i]? = some b) : (i, m) ∈ p.healthyIndices ↔ p.Candidate b := by
  obtain ⟨hmem, hle⟩ := List.min?_eq_some_iff.mp hmin
  obtain ⟨⟨b₀, slot⟩, hentry, hb⟩ : ∃ e, p.slots.entries[i]? = some e ∧ e.1 = b := by
    rw [Dict.keys, List.getElem?_map] at hkey
    exact Option.map_eq_some_iff.mp hkey
  obtain rfl : b₀ = b := hb
  have hget : p.slots.get? b₀ = some slot := Dict.get?_eq_some.mpr (List.mem_of_getElem? hentry)
  rw [mem_healthyIndices]
  constructor
  · rintro ⟨b', slot', hentry', hhealthy, hinflight⟩
    obtain ⟨rfl, rfl⟩ := Prod.mk.inj (Option.some.inj (hentry.symm.trans hentry'))
    refine ⟨slot, hget, hhealthy, ?_⟩
    intro b' slot' hget' hhealthy'
    obtain ⟨j, hj⟩ := List.mem_iff_getElem?.mp (Dict.get?_eq_some.mp hget')
    rw [hinflight]
    apply hle
    exact List.mem_map.mpr ⟨(j, slot'.inflight),
      mem_healthyIndices.mpr ⟨b', slot', hj, hhealthy', rfl⟩, rfl⟩
  · rintro ⟨slot', hget', hhealthy, hleast⟩
    obtain rfl := Option.some.inj (hget.symm.trans hget')
    refine ⟨b₀, slot, hentry, hhealthy, le_antisymm ?_ ?_⟩
    · obtain ⟨⟨j, m'⟩, hj, rfl⟩ := List.mem_map.mp hmem
      obtain ⟨b', slot', hentry', hhealthy', hm⟩ := mem_healthyIndices.mp hj
      rw [← hm]
      exact hleast b' slot' (Dict.get?_eq_some.mpr (List.mem_of_getElem? hentry')) hhealthy'
    · apply hle
      exact List.mem_map.mpr ⟨(i, slot.inflight),
        mem_healthyIndices.mpr ⟨b₀, slot, hentry, hhealthy, rfl⟩, rfl⟩

/-- The first candidate from the cursor on is selected. -/
theorem selectedIndex_spec {index : Nat} (h : p.selectedIndex = some index) :
    ∃ o b, o < p.slots.keys.length ∧ index = (p.cursor + o) % p.slots.keys.length ∧
      p.slots.keys[index]? = some b ∧ p.Candidate b ∧
      ∀ o' < o, ∀ b', p.slots.keys[(p.cursor + o') % p.slots.keys.length]? = some b' →
        ¬p.Candidate b' := by
  have hlength : p.slots.keys.length = p.slots.entries.length := by simp [Dict.keys]
  unfold selectedIndex at h
  split at h
  · cases h
  next m hmin =>
  rw [List.find?_map, Option.map_eq_some_iff] at h
  obtain ⟨o, hfind, rfl⟩ := h
  obtain ⟨hfound, ho, hbefore⟩ := List.find?_range_eq_some.mp hfind
  have hlt := List.mem_range.mp ho
  simp only [Function.comp_apply, decide_eq_true_eq] at hfound
  obtain ⟨b, slot, hentry, -⟩ := mem_healthyIndices.mp hfound
  rw [hlength]
  have hkey : p.slots.keys[(p.cursor + o) % p.slots.entries.length]? = some b := by
    rw [Dict.keys, List.getElem?_map, hentry]
    rfl
  refine ⟨o, b, hlt, rfl, hkey, (candidate_iff hmin hkey).mp hfound, ?_⟩
  intro o' ho' b' hkey' hcandidate
  have hnot := hbefore o' ho'
  simp only [Function.comp_apply, Bool.not_eq_true', decide_eq_false_iff_not] at hnot
  exact hnot ((candidate_iff hmin hkey').mpr hcandidate)

/-- What `_select` does when it returns: it takes the first candidate from the cursor on,
    and the cursor goes to the place after it. -/
theorem select_spec (h : p.select w = .ok (lease, p')) :
    ∃ o b, o < p.slots.keys.length ∧
      p.slots.keys[(p.cursor + o) % p.slots.keys.length]? = some b ∧ p.Candidate b ∧
      (∀ o' < o, ∀ b', p.slots.keys[(p.cursor + o') % p.slots.keys.length]? = some b' →
        ¬p.Candidate b') ∧
      0 < w ∧ p'.slots = p.slots.modify b (fun s => { s with inflight := s.inflight + w }) ∧
      p'.cursor = ((p.cursor + o) % p.slots.keys.length + 1) % p.slots.keys.length ∧
      p'.chosen = b := by
  unfold select at h
  split at h
  · cases h
  next hw =>
  split at h
  · cases h
  split at h
  · cases h
  next index hindex =>
  obtain ⟨o, b, ho, rfl, hkey, hcandidate, hbefore⟩ := selectedIndex_spec hindex
  have hlength : p.slots.keys.length = p.slots.entries.length := by simp [Dict.keys]
  split at h
  · cases h
  next b' slot hentry =>
  have hkey' : p.slots.keys[(p.cursor + o) % p.slots.keys.length]? = some b' := by
    rw [Dict.keys, List.getElem?_map]
    exact congrArg (Option.map Prod.fst) hentry
  obtain rfl := Option.some.inj (hkey'.symm.trans hkey)
  cases h
  refine ⟨o, b', ho, hkey, hcandidate, hbefore, by omega, rfl, ?_, ?_⟩
  · show ((p.cursor + o) % p.slots.keys.length + 1) % p.slots.entries.length = _
    rw [hlength]
  · simp [chosen, notifyObserver]

/-! ## No starvation -/

/-- The cursor is at a slot. -/
def CursorGood (p : BackendPool) : Prop := p.cursor < p.slots.keys.length

/-- A section other than `_select` leaves the cursor and the order of the slots alone. -/
theorem step_cursor {a : PoolSection} (h : p.step a = .ok p') (hselect : ∀ w, a ≠ .select w) :
    p'.slots.keys = p.slots.keys ∧ p'.cursor = p.cursor := by
  cases a with
  | select w => exact absurd rfl (hselect w)
  | release lease =>
    simp only [step, release] at h
    split at h
    · cases h
    split at h
    · cases h
      exact ⟨rfl, rfl⟩
    split at h
    · cases h
    split at h
    · cases h
    · cases h
      exact ⟨Dict.keys_modify .., rfl⟩
  | registerStream stream =>
    cases h
    unfold registerStream
    split <;> exact ⟨rfl, rfl⟩
  | setHealth backendId healthy =>
    cases h
    unfold setHealth
    split
    · exact ⟨rfl, rfl⟩
    · exact ⟨Dict.keys_modify .., rfl⟩
  | finishClose =>
    cases h
    exact ⟨Dict.keys_mapValues .., rfl⟩
  | _ =>
    cases h
    exact ⟨rfl, rfl⟩

theorem step_select (h : p.step (.select w) = .ok p') : ∃ lease, p.select w = .ok (lease, p') := by
  simp only [step] at h
  split at h
  · next lease p'' hselect =>
    cases h
    exact ⟨lease, hselect⟩
  · cases h

theorem step_keys {a : PoolSection} (h : p.step a = .ok p') : p'.slots.keys = p.slots.keys := by
  by_cases hselect : ∃ w, a = .select w
  · obtain ⟨w, rfl⟩ := hselect
    obtain ⟨lease, hselect⟩ := step_select h
    obtain ⟨o, b, -, -, -, -, -, hslots, -⟩ := select_spec hselect
    rw [hslots, Dict.keys_modify]
  · exact (step_cursor h fun w heq => hselect ⟨w, heq⟩).1

theorem cursorGood_inductive : sections.Inductive CursorGood where
  init p h := by
    obtain ⟨backendIds, blank, interval, timeout, observed, h⟩ := h
    unfold init at h
    split at h
    · cases h
    next hne =>
    split at h
    · cases h
    split at h
    · cases h
    dsimp only at h
    split at h
    · cases h
    next hlength =>
    cases h
    have hpos := List.length_pos_of_ne_nil hne
    rw [not_not] at hlength
    show 0 < (Dict.ofList (backendIds.map fun id => (id, BackendSlot.mk none 0))).keys.length
    rw [Dict.keys, List.length_map, hlength]
    exact hpos
  step p a p' h _ hstep := by
    have hkeys := step_keys hstep
    by_cases hselect : ∃ w, a = .select w
    · obtain ⟨w, rfl⟩ := hselect
      obtain ⟨lease, hselect⟩ := step_select hstep
      obtain ⟨o, b, ho, -, -, -, -, -, hcursor, -⟩ := select_spec hselect
      unfold CursorGood
      rw [hkeys, hcursor]
      exact Nat.mod_lt _ (by omega)
    · have hcursor := (step_cursor hstep fun w heq => hselect ⟨w, heq⟩).2
      unfold CursorGood
      rw [hkeys, hcursor]
      exact h

/-- A selection that passes a candidate over chooses a backend on the way to it, and leaves
    the cursor closer to it. -/
theorem select_passes {k : Nat} (hgood : CursorGood p) (hselect : p.select w = .ok (lease, p'))
    (hkey : p.slots.keys[k]? = some b) (hcandidate : p.Candidate b) :
    p'.chosen = b ∨ ∃ j, p.slots.keys[j]? = some p'.chosen ∧ j < p.slots.keys.length ∧
      Cyclic.ahead p.slots.keys.length j k ≤ Cyclic.ahead p.slots.keys.length p.cursor k ∧
      Cyclic.ahead p.slots.keys.length p'.cursor k < Cyclic.ahead p.slots.keys.length j k := by
  obtain ⟨o, b', ho, hkey', -, hbefore, -, -, hcursor', hchosen⟩ := select_spec hselect
  have hk : k < p.slots.keys.length := (List.getElem?_eq_some_iff.mp hkey).1
  have hcursor : p.cursor < p.slots.keys.length := hgood
  -- the candidate is at its offset, so no later one is looked at
  have hle : o ≤ Cyclic.ahead p.slots.keys.length p.cursor k := by
    by_contra hgt
    apply hbefore _ (Nat.lt_of_not_le hgt) b _ hcandidate
    rw [Cyclic.place_ahead hcursor hk]
    exact hkey
  rcases Nat.lt_or_ge o (Cyclic.ahead p.slots.keys.length p.cursor k) with hlt | hge
  · refine .inr ⟨(p.cursor + o) % p.slots.keys.length, hchosen ▸ hkey', Cyclic.place_lt hcursor, ?_, ?_⟩
    · rw [Cyclic.ahead_place hcursor hk hle]
      omega
    · rw [hcursor', Cyclic.ahead_next hcursor hk hlt, Cyclic.ahead_place hcursor hk hle]
      omega
  · refine .inl ?_
    have heq : (p.cursor + o) % p.slots.keys.length = k := by
      rw [Nat.le_antisymm hle hge]
      exact Cyclic.place_ahead hcursor hk
    rw [heq, hkey] at hkey'
    rw [hchosen]
    exact (Option.some.inj hkey').symm

/-- While a backend stays a candidate and is not chosen, the cursor comes closer to it with
    every selection, and the backends that are chosen before it are different. -/
theorem selections_passing {k : Nat} {as : List PoolSection} (hgood : CursorGood p)
    (hkey : p.slots.keys[k]? = some b) (hcandidate : ∀ x ∈ selections p as, Candidate x.1 b) :
    (Cyclic.ahead p.slots.keys.length p.cursor k < (selections p as).length →
      b ∈ (selections p as).map Prod.snd) ∧
    (((selections p as).map Prod.snd).takeWhile (· ≠ b)).Nodup ∧
    ∀ c ∈ ((selections p as).map Prod.snd).takeWhile (· ≠ b), ∃ j, p.slots.keys[j]? = some c ∧
      Cyclic.ahead p.slots.keys.length j k ≤ Cyclic.ahead p.slots.keys.length p.cursor k := by
  induction as generalizing p with
  | nil => simp [selections]
  | cons a as ih =>
    cases hstep : p.step a with
    | error e => simp [selections, hstep]
    | ok p' =>
      have hkeys := step_keys hstep
      have hgood' : CursorGood p' := cursorGood_inductive.step p a p' hgood trivial hstep
      by_cases hselect : ∃ w, a = .select w
      · obtain ⟨w, rfl⟩ := hselect
        obtain ⟨lease, hselect⟩ := step_select hstep
        have hlist : selections p (.select w :: as) = (p, p'.chosen) :: selections p' as := by
          simp [selections, hstep]
        rw [hlist] at hcandidate ⊢
        have hcand := hcandidate _ List.mem_cons_self
        obtain ⟨hin, hnodup, hdist⟩ := ih hgood' (hkeys ▸ hkey)
          fun x hx => hcandidate x (List.mem_cons_of_mem _ hx)
        rw [hkeys] at hin hdist
        rw [List.map_cons, List.length_cons]
        by_cases hchosen : p'.chosen = b
        · refine ⟨fun _ => hchosen ▸ List.mem_cons_self, ?_⟩
          rw [List.takeWhile_cons_of_neg (by simpa using hchosen)]
          simp
        · rcases select_passes hgood hselect hkey hcand with heq | ⟨j, hj, hjlt, hle, hlt⟩
          · exact absurd heq hchosen
          rw [List.takeWhile_cons_of_pos (by simpa using hchosen)]
          refine ⟨?_, ?_, ?_⟩
          · intro hlength
            exact List.mem_cons_of_mem _ (hin (by omega))
          · apply List.nodup_cons.mpr
            refine ⟨?_, hnodup⟩
            intro hmem
            -- what is chosen later is closer to the candidate
            obtain ⟨i, hi, hile⟩ := hdist _ hmem
            have hsame : i = j := by
              have hilt : i < p.slots.keys.length := (List.getElem?_eq_some_iff.mp hi).1
              exact (List.getElem?_inj hilt p.slots.nodup).mp (hi.trans hj.symm)
            rw [hsame] at hile
            omega
          · intro c hc
            rcases List.mem_cons.mp hc with rfl | hc
            · exact ⟨j, hj, hle⟩
            · obtain ⟨i, hi, hile⟩ := hdist c hc
              exact ⟨i, hi, by omega⟩
      · have hlist : selections p (a :: as) = selections p' as := by
          cases a with
          | select w => exact absurd ⟨w, rfl⟩ hselect
          | _ => simp only [selections, hstep]
        have hcursor := (step_cursor hstep fun w heq => hselect ⟨w, heq⟩).2
        rw [hlist] at hcandidate ⊢
        have hrest := ih hgood' (hkeys ▸ hkey) hcandidate
        rw [hkeys, hcursor] at hrest
        exact hrest

theorem selections_keys {as : List PoolSection} {x : BackendPool × String}
    (h : x ∈ selections p as) : x.1.slots.keys = p.slots.keys := by
  induction as generalizing p with
  | nil => cases h
  | cons a as ih =>
    simp only [selections] at h
    split at h
    · cases h
    next p' hstep =>
    have hkeys := step_keys hstep
    split at h
    · rcases List.mem_cons.mp h with rfl | h
      · rfl
      · exact (ih h).trans hkeys
    · exact (ih h).trans hkeys

/-- A backend that is a candidate at `n` selections of a run in a row, where `n` is the number
    of slots, is chosen by one of them, and no other backend is chosen twice before it. -/
theorem no_starvation (h : sections.Reachable p) {as : List PoolSection}
    (hcount : (selections p as).length = p.slots.keys.length)
    (hcandidate : ∀ x ∈ selections p as, Candidate x.1 b) :
    b ∈ (selections p as).map Prod.snd ∧
    ∀ c ≠ b, (((selections p as).map Prod.snd).takeWhile (· ≠ b)).count c ≤ 1 := by
  have hgood : p.cursor < p.slots.keys.length := cursorGood_inductive.holds h
  -- the backend has a slot, as it is a candidate of some selection
  obtain ⟨x, hx⟩ := List.exists_mem_of_length_pos (l := selections p as) (by omega)
  obtain ⟨slot, hslot, -⟩ := hcandidate x hx
  have hmem : b ∈ p.slots.keys := selections_keys hx ▸ Dict.mem_keys.mpr ⟨slot, hslot⟩
  obtain ⟨k, hkey⟩ := List.mem_iff_getElem?.mp hmem
  have hk : k < p.slots.keys.length := (List.getElem?_eq_some_iff.mp hkey).1
  obtain ⟨hin, hnodup, -⟩ := selections_passing hgood hkey hcandidate
  constructor
  · apply hin
    rw [hcount]
    exact Cyclic.ahead_lt hgood hk
  · intro c _
    exact List.nodup_iff_count_le_one.mp hnodup c

/-! ### A run -/

/-- A pool of two backends that were found healthy. -/
def pairPool : BackendPool where
  slots := Dict.ofList [("a", ⟨some true, 0⟩), ("b", ⟨some true, 0⟩)]
  cursor := 0
  closeLock := .new
  activeLeases := ∅
  activeStreams := ∅
  closed := false
  observer := none
  leases := []

theorem pairPool_reachable : sections.Reachable pairPool := by
  let start : BackendPool :=
    { pairPool with slots := Dict.ofList [("a", ⟨none, 0⟩), ("b", ⟨none, 0⟩)] }
  have hinit : Init start := ⟨["a", "b"], fun _ => false, 1, 1, false, rfl⟩
  exact Lts.reachable_of_exec (l := [.setHealth "a" true, .setHealth "b" true]) hinit rfl

theorem candidate_of_entries {slot : BackendSlot} (h : (b, slot) ∈ p.slots.entries)
    (hhealthy : slot.healthy = some true)
    (hleast : ∀ e ∈ p.slots.entries, e.2.healthy = some true → slot.inflight ≤ e.2.inflight) :
    Candidate p b :=
  ⟨slot, Dict.get?_eq_some.mpr h, hhealthy,
    fun b' slot' hget => hleast (b', slot') (Dict.get?_eq_some.mp hget)⟩

/-- Both backends carry the same at both selections. -/
theorem no_starvation_pairPool :
    "b" ∈ (selections pairPool [.select 1, .release 0, .select 2]).map Prod.snd ∧
    ∀ c ≠ "b", (((selections pairPool [.select 1, .release 0, .select 2]).map Prod.snd).takeWhile
      (· ≠ "b")).count c ≤ 1 := by
  apply no_starvation pairPool_reachable
  · rfl
  · have hselections : selections pairPool [.select 1, .release 0, .select 2] =
        [(_, "a"), (_, "b")] := rfl
    rw [hselections]
    intro x hx
    rcases List.mem_cons.mp hx with rfl | hx
    · exact @candidate_of_entries _ _ ⟨some true, 0⟩ (by decide) rfl (by decide)
    · rw [List.mem_singleton.mp hx]
      exact @candidate_of_entries _ _ ⟨some true, 0⟩ (by decide) rfl (by decide)

/-! ## Balance -/

/-- The inflight counts of any two healthy backends differ by at most `W`. -/
def Balanced (p : BackendPool) (W : Int) : Prop :=
  ∀ b b' slot slot', p.slots.get? b = some slot → p.slots.get? b' = some slot' →
    slot.healthy = some true → slot'.healthy = some true → slot.inflight - slot'.inflight ≤ W

/-- The inflight counts of the healthy backends, all together. -/
def healthyInflight (p : BackendPool) : Int :=
  p.slots.sum fun slot => if slot.healthy = some true then slot.inflight else 0

/-- A selection adds its weight to a least loaded healthy backend. -/
theorem Balanced.select {W : Int} (h : p.Balanced W) (hw : w ≤ W)
    (hselect : p.select w = .ok (lease, p')) : p'.Balanced W := by
  obtain ⟨-, b, -, -, ⟨slot, hslot, hhealthy, hleast⟩, -, hpos, hslots, -⟩ := select_spec hselect
  have hread : ∀ {c slot'}, p'.slots.get? c = some slot' → slot'.healthy = some true →
      ∃ slot₀, p.slots.get? c = some slot₀ ∧ slot₀.healthy = some true ∧
        (c = b ∧ slot'.inflight = slot.inflight + w ∧ slot₀ = slot ∨ slot'.inflight = slot₀.inflight) := by
    intro c slot' hget hhealthy'
    rw [hslots, Dict.get?_modify] at hget
    split at hget
    · next heq =>
      subst heq
      rw [hslot] at hget
      cases hget
      exact ⟨slot, hslot, hhealthy, .inl ⟨rfl, rfl, rfl⟩⟩
    · exact ⟨slot', hget, hhealthy', .inr rfl⟩
  intro c c' s s' hc hc' hs hs'
  obtain ⟨s₀, hc, hs, hval⟩ := hread hc hs
  obtain ⟨s₀', hc', hs', hval'⟩ := hread hc' hs'
  have hold := h c c' s₀ s₀' hc hc' hs hs'
  have hmin' := hleast c' s₀' hc' hs'
  rcases hval with ⟨rfl, hval, rfl⟩ | hval <;> rcases hval' with ⟨heq, hval', rfl⟩ | hval'
  · omega
  · omega
  · omega
  · omega

/-- In a run of selections of weights from 1 to `W`, the inflight counts of any two healthy
    backends keep differing by at most `W`, and together they grow by the weights. -/
theorem load_balanced {W : Int} {weights : List Int} (hweights : ∀ w ∈ weights, 1 ≤ w ∧ w ≤ W)
    (hbalanced : p.Balanced W) (hrun : Lts.exec step p (weights.map .select) = .ok p') :
    p'.Balanced W ∧ p'.healthyInflight = p.healthyInflight + weights.sum ∧
      p'.slots.sum (·.inflight) = p.slots.sum (·.inflight) + weights.sum := by
  induction weights generalizing p with
  | nil =>
    cases hrun
    simp [hbalanced]
  | cons w weights ih =>
    obtain ⟨hpos, hle⟩ := hweights w List.mem_cons_self
    simp only [List.map_cons, Lts.exec] at hrun
    split at hrun
    · next q hstep =>
      obtain ⟨lease, hselect⟩ := step_select hstep
      obtain ⟨hbalanced', hhealthy, htotal⟩ := ih
        (fun w' hw' => hweights w' (List.mem_cons_of_mem _ hw')) (hbalanced.select hle hselect) hrun
      obtain ⟨-, b, -, -, ⟨slot, hslot, hslotHealthy, -⟩, -, -, hslots, -⟩ := select_spec hselect
      have hgrow : ∀ g : BackendSlot → Int, (∀ s : BackendSlot, s.healthy = some true →
          g s = s.inflight) → q.slots.sum g = p.slots.sum g + w := by
        intro g hg
        rw [hslots, Dict.sum_modify hslot, hg _ hslotHealthy,
          hg { slot with inflight := slot.inflight + w } hslotHealthy]
        show p.slots.sum g + (slot.inflight + w - slot.inflight) = p.slots.sum g + w
        omega
      have hgrowHealthy : q.healthyInflight = p.healthyInflight + w :=
        hgrow _ fun s hs => if_pos hs
      have hgrowTotal := hgrow (·.inflight) fun _ _ => rfl
      rw [List.sum_cons]
      refine ⟨hbalanced', ?_, ?_⟩ <;> omega
    · cases hrun

theorem balanced_of_entries {W : Int} (h : ∀ e ∈ p.slots.entries, ∀ e' ∈ p.slots.entries,
    e.2.healthy = some true → e'.2.healthy = some true → e.2.inflight - e'.2.inflight ≤ W) :
    p.Balanced W := by
  intro b b' slot slot' hget hget'
  exact h (b, slot) (Dict.get?_eq_some.mp hget) (b', slot') (Dict.get?_eq_some.mp hget')

theorem load_balanced_pairPool : ∃ p', Lts.exec step pairPool ([2, 1, 3].map .select) = .ok p' ∧
    (p'.Balanced 3 ∧ p'.healthyInflight = pairPool.healthyInflight + [2, 1, 3].sum ∧
      p'.slots.sum (·.inflight) = pairPool.slots.sum (·.inflight) + [2, 1, 3].sum) ∧
    p'.healthyInflight = 6 :=
  ⟨_, rfl, load_balanced (by decide) (balanced_of_entries (by decide)) rfl, rfl⟩

end Gateway.BackendPool
