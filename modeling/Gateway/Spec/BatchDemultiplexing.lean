import Gateway.Model.VLLMBackend

/-!
# Demultiplexing a batch response

`_demultiplex_batch_response` gives every member of a batch the choice with its index. It
checks the choices one by one; together the checks say that the indices are a permutation
of the positions in the batch.

## Key results

- `byIndex_ok_iff`: which choices the loop over them accepts
- `demultiplex_ok`: the result for choices whose indices are a permutation
- `demultiplex_error`: there is none for others
- `demultiplex_strict`
-/

namespace Gateway.VLLMBackend

/-- The index of a choice. -/
def choiceIndex : Json → Option Int
  | .obj fields =>
    match Json.getField fields "index" with
    | some (.int index) => some index
    | _ => none
  | _ => none

theorem choiceIndex_eq_some {choice : Json} {index : Int} :
    choiceIndex choice = some index ↔
      ∃ fields, choice = .obj fields ∧ Json.getField fields "index" = some (.int index) := by
  cases choice with
  | obj fields =>
    simp only [choiceIndex, Json.obj.injEq, exists_eq_left']
    cases hfield : Json.getField fields "index" with
    | none => simp
    | some x => cases x <;> simp
  | _ => simp [choiceIndex]

/-- The indices of the choices are the positions `0`, …, `n - 1`, in some order. -/
def Indexed (choices : List Json) (n : Nat) : Prop :=
  (choices.map choiceIndex).Perm ((List.range n).map fun i => some (Int.ofNat i))

/-! ## The loop over the choices -/

/-- The places of indices, recorded one after the other. -/
def record : List Int → Nat → Dict Int Nat → Dict Int Nat
  | [], _, found => found
  | index :: indices, place, found => record indices (place + 1) (found.set index place)

theorem get?_record_of_not_mem {indices : List Int} {index : Int} (h : index ∉ indices)
    (place : Nat) (found : Dict Int Nat) :
    (record indices place found).get? index = found.get? index := by
  induction indices generalizing place found with
  | nil => rfl
  | cons i indices ih =>
    have hne : i ≠ index := fun heq => h (heq ▸ List.mem_cons_self)
    rw [record, ih (fun hmem => h (List.mem_cons_of_mem _ hmem)), Dict.get?_set, if_neg hne]

/-- The place of an index. -/
theorem get?_record {indices : List Int} (hnodup : indices.Nodup) {k : Nat} {index : Int}
    (h : indices[k]? = some index) (place : Nat) (found : Dict Int Nat) :
    (record indices place found).get? index = some (place + k) := by
  induction indices generalizing k place found with
  | nil => cases h
  | cons i indices ih =>
    obtain ⟨hfresh, hnodup⟩ := List.nodup_cons.mp hnodup
    cases k with
    | zero =>
      rw [List.getElem?_cons_zero] at h
      rw [← Option.some.inj h, record, get?_record_of_not_mem hfresh, Dict.get?_set, if_pos rfl]
      rfl
    | succ k =>
      rw [List.getElem?_cons_succ] at h
      rw [record, ih hnodup h]
      congr 1
      omega

/-- The loop accepts choices with different indices in range that are not recorded yet. -/
theorem byIndex_ok_iff {n : Nat} {choices : List Json} {place : Nat} {found found' : Dict Int Nat} :
    byIndex n choices place found = .ok found' ↔
      ∃ indices : List Int, choices.map choiceIndex = indices.map some ∧
        (∀ i ∈ indices, (0 ≤ i ∧ i < n) ∧ found.get? i = none) ∧ indices.Nodup ∧
        found' = record indices place found := by
  induction choices generalizing place found with
  | nil =>
    constructor
    · intro h
      exact ⟨[], rfl, (by simp), List.nodup_nil, (Except.ok.inj h).symm⟩
    · rintro ⟨indices, hindices, _, _, hfound⟩
      rw [List.map_eq_nil_iff.mp hindices.symm] at hfound
      rw [hfound]
      rfl
  | cons choice choices ih =>
    have hbad : choiceIndex choice = none →
        (byIndex n (choice :: choices) place found = .ok found' ↔
          ∃ indices : List Int, (choice :: choices).map choiceIndex = indices.map some ∧
            (∀ i ∈ indices, (0 ≤ i ∧ i < n) ∧ found.get? i = none) ∧ indices.Nodup ∧
            found' = record indices place found) := by
      intro hnone
      constructor
      · intro h
        exfalso
        unfold byIndex at h
        split at h
        · next fields =>
          split at h
          · next index hindex =>
            rw [choiceIndex_eq_some.mpr ⟨fields, rfl, hindex⟩] at hnone
            cases hnone
          · cases h
        · cases h
      · rintro ⟨indices, hindices, _⟩
        rw [List.map_cons, hnone] at hindices
        cases indices <;> cases hindices
    cases hchoice : choiceIndex choice with
    | none => exact hbad hchoice
    | some index =>
      obtain ⟨fields, rfl, hindex⟩ := choiceIndex_eq_some.mp hchoice
      have hstep : byIndex n (.obj fields :: choices) place found =
          if index < 0 ∨ (n : Int) ≤ index ∨ (found.get? index).isSome then .error .protocol
          else byIndex n choices (place + 1) (found.set index place) := by
        rw [byIndex, hindex]
      rw [hstep]
      constructor
      · intro h
        split at h
        · cases h
        next hfresh =>
        obtain ⟨hnonneg, hlt, hnone⟩ := not_or.mp hfresh |>.imp_right not_or.mp
        obtain ⟨indices, hindices, hrange, hnodup, hfound⟩ := ih.mp h
        refine ⟨index :: indices, ?_, ?_, ?_, hfound⟩
        · rw [List.map_cons, hchoice, hindices]
          rfl
        · intro i hi
          rcases List.mem_cons.mp hi with rfl | hi
          · exact ⟨⟨by omega, by omega⟩, Option.not_isSome_iff_eq_none.mp hnone⟩
          · obtain ⟨hi, hget⟩ := hrange i hi
            refine ⟨hi, ?_⟩
            rw [Dict.get?_set] at hget
            split at hget
            · cases hget
            · exact hget
        · apply List.nodup_cons.mpr
          refine ⟨?_, hnodup⟩
          intro hmem
          have hget := (hrange index hmem).2
          rw [Dict.get?_set, if_pos rfl] at hget
          cases hget
      · rintro ⟨indices, hindices, hrange, hnodup, hfound⟩
        cases indices with
        | nil => cases hindices
        | cons i indices =>
          rw [List.map_cons, List.map_cons, hchoice] at hindices
          obtain ⟨hi, hrest⟩ := List.cons.inj hindices
          obtain rfl := Option.some.inj hi
          obtain ⟨hfresh, hnodup⟩ := List.nodup_cons.mp hnodup
          obtain ⟨⟨hnonneg, hlt⟩, hnone⟩ := hrange index List.mem_cons_self
          rw [if_neg (by rw [hnone]; simp; omega)]
          rw [ih]
          refine ⟨indices, hrest, ?_, hnodup, hfound⟩
          intro j hj
          obtain ⟨hj', hget⟩ := hrange j (List.mem_cons_of_mem _ hj)
          refine ⟨hj', ?_⟩
          rw [Dict.get?_set, if_neg fun (heq : index = j) => hfresh (heq ▸ hj)]
          exact hget

theorem byIndex_error {n : Nat} {choices : List Json} {place : Nat} {found : Dict Int Nat}
    {e : BackendError} (h : byIndex n choices place found = .error e) : e = .protocol := by
  induction choices generalizing place found with
  | nil => cases h
  | cons choice choices ih =>
    unfold byIndex at h
    split at h
    · split at h
      · split at h
        · exact (Except.error.inj h).symm
        · exact ih h
      · exact (Except.error.inj h).symm
    · exact (Except.error.inj h).symm

/-! ## Together the checks say that the indices are a permutation -/

theorem mem_range_map {n : Nat} {i : Int} :
    i ∈ (List.range n).map Int.ofNat ↔ 0 ≤ i ∧ i < n := by
  rw [List.mem_map]
  constructor
  · intro ⟨k, hk, heq⟩
    have hlt := List.mem_range.mp hk
    rw [← heq]
    show 0 ≤ (k : Int) ∧ (k : Int) < n
    omega
  · intro ⟨hnonneg, hlt⟩
    exact ⟨i.toNat, List.mem_range.mpr (by omega), by simp; omega⟩

theorem nodup_range_map (n : Nat) : ((List.range n).map Int.ofNat).Nodup :=
  List.nodup_range.map fun _ _ h => Int.ofNat.inj h

/-- Different indices in range, as many as there are positions, are the positions. -/
theorem perm_range {n : Nat} {indices : List Int} (hnodup : indices.Nodup)
    (hrange : ∀ i ∈ indices, 0 ≤ i ∧ i < n) (hlength : indices.length = n) :
    indices.Perm ((List.range n).map Int.ofNat) := by
  have hsub : indices.Subperm ((List.range n).map Int.ofNat) :=
    List.subperm_of_subset hnodup fun i hi => mem_range_map.mpr (hrange i hi)
  apply hsub.perm_of_length_le
  rw [List.length_map, List.length_range, hlength]

/-- A list with the members of a list of values has values only. -/
theorem eq_map_some {α : Type} {l : List (Option α)} {m : List α} (h : l.Perm (m.map some)) :
    ∃ values : List α, l = values.map some ∧ values.Perm m := by
  refine ⟨l.filterMap id, ?_, ?_⟩
  · have hsome : ∀ x ∈ l, ∃ a, x = some a := by
      intro x hx
      obtain ⟨a, -, ha⟩ := List.mem_map.mp (h.mem_iff.mp hx)
      exact ⟨a, ha.symm⟩
    clear h
    induction l with
    | nil => rfl
    | cons x l ih =>
      obtain ⟨a, rfl⟩ := hsome x List.mem_cons_self
      show some a :: l = some a :: (l.filterMap id).map some
      rw [← ih fun y hy => hsome y (List.mem_cons_of_mem _ hy)]
  · have hfilter := h.filterMap id
    simpa using hfilter

theorem indexed_iff {choices : List Json} {n : Nat} :
    Indexed choices n ↔ ∃ indices : List Int, choices.map choiceIndex = indices.map some ∧
      indices.Perm ((List.range n).map Int.ofNat) := by
  have hrange : ((List.range n).map fun i => some (Int.ofNat i)) =
      ((List.range n).map Int.ofNat).map some := by
    rw [List.map_map]
    rfl
  unfold Indexed
  rw [hrange]
  constructor
  · exact eq_map_some
  · intro ⟨indices, hindices, hperm⟩
    rw [hindices]
    exact hperm.map some

theorem covers_of_perm {n : Nat} {indices : List Int}
    (h : indices.Perm ((List.range n).map Int.ofNat)) :
    covers (record indices 0 .empty) n = true := by
  have hnodup := h.nodup_iff.mpr (nodup_range_map n)
  have hsome : ∀ {i : Int}, i ∈ indices → ((record indices 0 .empty).get? i).isSome = true := by
    intro i hi
    obtain ⟨k, hk⟩ := List.mem_iff_getElem?.mp hi
    rw [get?_record hnodup hk]
    rfl
  unfold covers
  rw [Bool.and_eq_true, List.all_eq_true, List.all_eq_true]
  constructor
  · intro i hi
    have hmem : i ∈ indices := by
      by_contra hnot
      obtain ⟨place, hplace⟩ := Dict.mem_keys.mp hi
      rw [get?_record_of_not_mem hnot] at hplace
      cases hplace
    have := mem_range_map.mp (h.mem_iff.mp hmem)
    simpa using this
  · intro i hi
    apply hsome
    rw [h.mem_iff]
    exact List.mem_map_of_mem hi

/-! ## The copies of the choices -/

/-- The copy of the choice at a place, with index 0. -/
def copied (dicts : Store) (place : Nat) : Fields :=
  Json.setField ((dicts[place]?).getD []) "index" (.int 0)

theorem modify_last {α : Type} (l : List α) (a : α) (f : α → α) :
    (l ++ [a]).modify l.length f = l ++ [f a] := by
  induction l with
  | nil => rfl
  | cons b l ih => simp [ih]

/-- Each member gets a fresh copy of its choice; the dictionaries at hand stay as they are. -/
theorem memberChoices_eq {found : Dict Int Nat} {dicts : Store} {indices : List Nat}
    (h : ∀ i ∈ indices, ∃ place, found.get? (i : Int) = some place ∧ place < dicts.length)
    (copies : Store) :
    memberChoices found indices (dicts ++ copies) =
      .ok (List.range' (dicts.length + copies.length) indices.length,
        dicts ++ copies ++
          indices.map fun i : Nat => copied dicts ((found.get? (i : Int)).getD 0)) := by
  induction indices generalizing copies with
  | nil => simp [memberChoices]
  | cons i indices ih =>
    obtain ⟨place, hplace, hlt⟩ := h i List.mem_cons_self
    have hread : ((dicts ++ copies)[place]?).getD [] = (dicts[place]?).getD [] := by
      rw [List.getElem?_append_left hlt]
    have hchange : ((dicts ++ copies) ++ [(dicts[place]?).getD []]).modify (dicts ++ copies).length
        (fun fields => Json.setField fields "index" (.int 0)) =
          dicts ++ (copies ++ [copied dicts place]) := by
      rw [modify_last, List.append_assoc]
      rfl
    have hrest := ih (fun j hj => h j (List.mem_cons_of_mem _ hj)) (copies ++ [copied dicts place])
    rw [memberChoices, hplace]
    dsimp only
    rw [hread, hchange, hrest]
    simp [List.range'_succ, Nat.add_assoc, hplace]

/-- The choices are as they were if their dictionaries are. -/
theorem payloadAfter_eq {payload : Fields} {choices : List Json}
    (h : Json.getField payload "choices" = some (.arr choices)) (copies : Store) :
    payloadAfter payload choices (choices.map dictOf ++ copies) = payload := by
  have hchoices : (choices.mapIdx fun place choice =>
      choiceAfter (choices.map dictOf ++ copies) choice place) = choices := by
    apply List.ext_getElem?
    intro place
    rw [List.getElem?_mapIdx]
    cases hplace : choices[place]? with
    | none => rfl
    | some choice =>
      have hlt : place < (choices.map dictOf).length := by
        rw [List.length_map]
        exact (List.getElem?_eq_some_iff.mp hplace).1
      cases choice with
      | obj fields =>
        simp [choiceAfter, List.getElem?_append_left hlt, hplace, dictOf]
      | _ => rfl
  have hfind : payload.find? (fun f => f.1 = "choices") = some ("choices", .arr choices) := by
    obtain ⟨f, hf, hvalue⟩ := Option.map_eq_some_iff.mp h
    have hkey : f.1 = "choices" := by simpa using List.find?_some hf
    rw [hf, ← hkey, ← hvalue]
  unfold payloadAfter
  rw [hchoices]
  apply List.ext_getElem?
  intro k
  rw [List.getElem?_modify]
  split
  · next hk =>
    rw [← hk, ← List.find?_eq_getElem?_findIdx, hfind]
    rfl
  · simp

/-! ## The result -/

/-- The choice with an index. -/
def choiceAt (choices : List Json) (index : Nat) : Fields :=
  dictOf ((choices.find? fun choice => choiceIndex choice = some (index : Int)).getD .null)

/-- The response of the member at a position. -/
def responseAt (payload : Fields) (choices : List Json) (index : Nat) : Response :=
  safeBatchFields payload ++
    [("choices", .arr [.obj (Json.setField (choiceAt choices index) "index" (.int 0))])]

theorem find?_of_nodup {α β : Type} [DecidableEq β] {l : List α} {f : α → β}
    (hnodup : (l.map f).Nodup) {k : Nat} {a : α} (h : l[k]? = some a) :
    l.find? (fun x => f x = f a) = some a := by
  induction l generalizing k with
  | nil => cases h
  | cons b l ih =>
    obtain ⟨hfresh, hnodup⟩ := List.nodup_cons.mp (show (f b :: l.map f).Nodup from hnodup)
    cases k with
    | zero =>
      rw [List.getElem?_cons_zero] at h
      simp [Option.some.inj h]
    | succ k =>
      rw [List.getElem?_cons_succ] at h
      have hne : f b ≠ f a := by
        intro heq
        exact hfresh (heq ▸ List.mem_map_of_mem (List.mem_of_getElem? h))
      rw [List.find?_cons_of_neg (by simpa using hne)]
      exact ih hnodup h

/-- The choice with an index is the only one with it. -/
theorem choiceAt_eq {choices : List Json} {n i : Nat} (h : Indexed choices n) {fields : Fields}
    (hmem : .obj fields ∈ choices) (hindex : Json.getField fields "index" = some (.int i)) :
    choiceAt choices i = fields := by
  have hnodup : (choices.map choiceIndex).Nodup := by
    apply h.nodup_iff.mpr
    apply List.nodup_range.map
    intro a b hab
    exact Int.ofNat.inj (Option.some.inj hab)
  obtain ⟨place, hplace⟩ := List.mem_iff_getElem?.mp hmem
  have hfind := find?_of_nodup hnodup hplace
  rw [choiceIndex_eq_some.mpr ⟨fields, rfl, hindex⟩] at hfind
  rw [choiceAt, hfind]
  rfl

/-- Every position has its choice. -/
theorem exists_choice {choices : List Json} {n i : Nat} (h : Indexed choices n) (hi : i < n) :
    ∃ fields, .obj fields ∈ choices ∧ Json.getField fields "index" = some (.int i) := by
  have hmem : some (i : Int) ∈ choices.map choiceIndex :=
    h.mem_iff.mpr (List.mem_map.mpr ⟨i, List.mem_range.mpr hi, rfl⟩)
  obtain ⟨choice, hchoice, hindex⟩ := List.mem_map.mp hmem
  obtain ⟨fields, rfl, hfield⟩ := choiceIndex_eq_some.mp hindex
  exact ⟨fields, hchoice, hfield⟩

/-- The result for choices whose indices are the positions in the batch. -/
theorem demultiplex_ok {payload : Fields} {choices : List Json} {n : Nat}
    (hget : Json.getField payload "choices" = some (.arr choices)) (h : Indexed choices n) :
    demultiplexBatchResponse payload n =
      (.ok
        { responses := (List.range n).map (responseAt payload choices)
          aggregateCompletionTokens := (batchUsage payload).1
          usageResult := (batchUsage payload).2 }, payload) := by
  have hlength : choices.length = n := by simpa using h.length_eq
  obtain ⟨indices, hindices, hperm⟩ := indexed_iff.mp h
  have hnodup : indices.Nodup := hperm.nodup_iff.mpr (nodup_range_map n)
  have hfound : byIndex n choices 0 .empty = .ok (record indices 0 .empty) := by
    rw [byIndex_ok_iff]
    refine ⟨indices, hindices, ?_, hnodup, rfl⟩
    intro i hi
    exact ⟨mem_range_map.mp (hperm.mem_iff.mp hi), rfl⟩
  -- where the choice of a position is
  have hplace : ∀ i < n, ∃ place fields, (record indices 0 .empty).get? (i : Int) = some place ∧
      choices[place]? = some (.obj fields) ∧ choiceAt choices i = fields := by
    intro i hi
    have hmem : (i : Int) ∈ indices :=
      hperm.mem_iff.mpr (List.mem_map.mpr ⟨i, List.mem_range.mpr hi, rfl⟩)
    obtain ⟨place, hplace⟩ := List.mem_iff_getElem?.mp hmem
    have hchoice : (choices.map choiceIndex)[place]? = some (some (i : Int)) := by
      rw [hindices, List.getElem?_map, hplace]
      rfl
    rw [List.getElem?_map] at hchoice
    obtain ⟨choice, hchoice, hindex⟩ := Option.map_eq_some_iff.mp hchoice
    obtain ⟨fields, rfl, hfield⟩ := choiceIndex_eq_some.mp hindex
    refine ⟨place, fields, ?_, hchoice, ?_⟩
    · rw [get?_record hnodup hplace, Nat.zero_add]
    · exact choiceAt_eq h (List.mem_of_getElem? hchoice) hfield
  have hplaced : ∀ i ∈ List.range n, ∃ place, (record indices 0 .empty).get? (i : Int) = some place ∧
      place < (choices.map dictOf).length := by
    intro i hi
    obtain ⟨place, fields, hget, hchoice, -⟩ := hplace i (List.mem_range.mp hi)
    refine ⟨place, hget, ?_⟩
    rw [List.length_map]
    exact (List.getElem?_eq_some_iff.mp hchoice).1
  have hcopies := memberChoices_eq hplaced []
  rw [List.append_nil] at hcopies
  unfold demultiplexBatchResponse
  rw [hget]
  dsimp only
  rw [if_neg (by simp [hlength]), hfound]
  dsimp only
  rw [if_neg (by rw [covers_of_perm hperm]; simp), hcopies]
  dsimp only
  rw [payloadAfter_eq hget]
  congr 3
  apply List.ext_getElem?
  intro i
  by_cases hi : i < n
  · obtain ⟨place, fields, hfoundAt, hchoice, hat⟩ := hplace i hi
    have hcopy : copied (choices.map dictOf) place =
        Json.setField (choiceAt choices i) "index" (.int 0) := by
      rw [copied, List.getElem?_map, hchoice, hat]
      rfl
    simp [hi, memberResponse, responseAt, hfoundAt, hcopy]
  · simp [hi]

/-- There is no result for other choices. -/
theorem demultiplex_error {payload : Fields} {n : Nat}
    (h : ¬∃ choices, Json.getField payload "choices" = some (.arr choices) ∧ Indexed choices n) :
    demultiplexBatchResponse payload n = (.error .protocol, payload) := by
  unfold demultiplexBatchResponse
  split
  · next choices hget =>
    split
    · rfl
    next hlength =>
    split
    · next e he => rw [byIndex_error he]
    · next found hfound =>
      exfalso
      apply h
      refine ⟨choices, hget, ?_⟩
      obtain ⟨indices, hindices, hrange, hnodup, -⟩ := byIndex_ok_iff.mp hfound
      rw [indexed_iff]
      refine ⟨indices, hindices, perm_range hnodup (fun i hi => (hrange i hi).1) ?_⟩
      have hlen := congrArg List.length hindices
      simp only [List.length_map] at hlen
      omega
  · rfl

/-- The members that a response has besides its choices. -/
theorem getField_safeBatchFields (payload : Fields) (key : String) :
    Json.getField (safeBatchFields payload) key =
      if key ∈ ["id", "object", "created", "model", "system_fingerprint"] then
        Json.getField payload key else none := by
  have hkeys : ∀ keys : List String,
      Json.getField (keys.filterMap fun name =>
        (Json.getField payload name).map fun value => (name, value)) key =
        if key ∈ keys then Json.getField payload key else none := by
    intro keys
    induction keys with
    | nil => rfl
    | cons name keys ih =>
      cases hname : Json.getField payload name with
      | none =>
        rw [List.filterMap_cons_none (by rw [hname]; rfl), ih]
        by_cases hkey : key = name
        · simp [hkey, hname]
        · simp [hkey]
      | some value =>
        rw [List.filterMap_cons_some (b := (name, value)) (by rw [hname]; rfl), Json.getField_cons,
          ih]
        by_cases hkey : key = name
        · simp [hkey, hname]
        · simp [hkey, Ne.symm hkey]
  exact hkeys _

/-- The order of the choices does not matter. -/
theorem responseAt_perm {payload : Fields} {choices choices' : List Json} {n i : Nat}
    (h : Indexed choices n) (hperm : choices.Perm choices') (hi : i < n) :
    responseAt payload choices' i = responseAt payload choices i := by
  obtain ⟨fields, hmem, hindex⟩ := exists_choice h hi
  have h' : Indexed choices' n := (hperm.map choiceIndex).symm.trans h
  unfold responseAt
  rw [choiceAt_eq h hmem hindex, choiceAt_eq h' (hperm.mem_iff.mp hmem) hindex]

/-- A response depends on the choices and on the members that are passed on. -/
theorem safeBatchFields_setField (payload : Fields) (value : Json) :
    safeBatchFields (Json.setField payload "choices" value) = safeBatchFields payload := by
  unfold safeBatchFields
  apply List.filterMap_congr
  intro key hkey
  rw [Json.getField_setField, if_neg]
  rintro rfl
  revert hkey
  decide

theorem batchUsage_setField (payload : Fields) (value : Json) :
    batchUsage (Json.setField payload "choices" value) = batchUsage payload := by
  unfold batchUsage
  rw [Json.getField_setField, if_neg (by decide)]

/-- `_demultiplex_batch_response` succeeds exactly if the payload has as many choices as the
    batch has members, and their indices are the positions in it. The member at a position
    gets the choice with its index, now 0, and the safe members of the payload; the order of
    the choices does not matter, and the payload stays as it is. -/
theorem demultiplex_strict (payload : Fields) (n : Nat) :
    ((∃ result, (demultiplexBatchResponse payload n).1 = .ok result) ↔
      ∃ choices, Json.getField payload "choices" = some (.arr choices) ∧
        (choices.map choiceIndex).Perm ((List.range n).map fun i => some (Int.ofNat i))) ∧
    (∀ result, (demultiplexBatchResponse payload n).1 = .ok result →
      result.responses.length = n ∧
      ∀ i < n, ∃ choices fields response,
        Json.getField payload "choices" = some (.arr choices) ∧ .obj fields ∈ choices ∧
        Json.getField fields "index" = some (.int i) ∧
        result.responses[i]? = some response ∧
        Json.getField response "choices" =
          some (.arr [.obj (Json.setField fields "index" (.int 0))]) ∧
        ∀ key ≠ "choices", Json.getField response key =
          if key ∈ ["id", "object", "created", "model", "system_fingerprint"] then
            Json.getField payload key else none) ∧
    (∀ choices choices', Json.getField payload "choices" = some (.arr choices) →
      choices.Perm choices' →
      (demultiplexBatchResponse (Json.setField payload "choices" (.arr choices')) n).1 =
        (demultiplexBatchResponse payload n).1) ∧
    (demultiplexBatchResponse payload n).2 = payload := by
  by_cases h : ∃ choices, Json.getField payload "choices" = some (.arr choices) ∧ Indexed choices n
  · obtain ⟨choices, hget, hindexed⟩ := h
    have hok := demultiplex_ok hget hindexed
    rw [hok]
    refine ⟨?_, ?_, ?_, rfl⟩
    · exact ⟨fun _ => ⟨choices, hget, hindexed⟩, fun _ => ⟨_, rfl⟩⟩
    · intro result hresult
      rw [← Except.ok.inj hresult]
      refine ⟨by simp, ?_⟩
      intro i hi
      obtain ⟨fields, hmem, hindex⟩ := exists_choice hindexed hi
      refine ⟨choices, fields, responseAt payload choices i, hget, hmem, hindex, by simp [hi], ?_, ?_⟩
      · rw [responseAt, Json.getField_append, getField_safeBatchFields, if_neg (by decide),
          choiceAt_eq hindexed hmem hindex]
        rfl
      · intro key hkey
        rw [responseAt, Json.getField_append, getField_safeBatchFields, Json.getField_cons,
          if_neg (Ne.symm hkey)]
        simp
    · intro choices₁ choices' hget₁ hperm
      obtain rfl : choices = choices₁ := by
        rw [hget] at hget₁
        exact Json.arr.inj (Option.some.inj hget₁)
      have hget' : Json.getField (Json.setField payload "choices" (.arr choices')) "choices" =
          some (.arr choices') := by
        rw [Json.getField_setField, if_pos rfl]
      rw [demultiplex_ok hget' ((hperm.map choiceIndex).symm.trans hindexed)]
      have hresponses : (List.range n).map
          (responseAt (Json.setField payload "choices" (.arr choices')) choices') =
            (List.range n).map (responseAt payload choices) := by
        apply List.map_congr_left
        intro i hi
        rw [← responseAt_perm hindexed hperm (List.mem_range.mp hi)]
        unfold responseAt
        rw [safeBatchFields_setField]
      rw [hresponses, batchUsage_setField]
  · rw [demultiplex_error h]
    refine ⟨?_, ?_, ?_, rfl⟩
    · exact ⟨fun ⟨_, hresult⟩ => (nomatch hresult), fun hexists => absurd hexists h⟩
    · intro result hresult
      cases hresult
    · intro choices choices' hget hperm
      rw [demultiplex_error]
      rintro ⟨choices₁, hget₁, hindexed⟩
      rw [Json.getField_setField, if_pos rfl] at hget₁
      obtain rfl := Json.arr.inj (Option.some.inj hget₁)
      exact h ⟨choices, hget, (hperm.map choiceIndex).trans hindexed⟩

end Gateway.VLLMBackend
