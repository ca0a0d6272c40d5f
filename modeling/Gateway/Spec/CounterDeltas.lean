import Gateway.Model.Histogram
import Gateway.Spec.PrometheusRoundTrip

/-!
# Counter deltas, series by series

What `CounterDelta` computes, said of the series of the two snapshots rather than of their
keys: a series is its name and its label set.

## Key results

- `counterDelta_eq`: the delta as a sum over the series of the family
- `reset_of_decreased`: a series that decreased is noticed
- `value_of_kept`: without a reset and a vanished series, the delta is the exact one
-/

namespace Gateway

namespace Prometheus

/-- A snapshot is indexed by the keys of its series, as `Parse` makes it (`Indexed.keyed`). -/
def Keyed (snapshot : Snapshot Rat) : Prop :=
  ∀ k series, snapshot.get? k = some series → k = key series.name series.labels

theorem Keyed.values_key {snapshot : Snapshot Rat} (h : Keyed snapshot) :
    snapshot.values.map (fun series => key series.name series.labels) = snapshot.keys := by
  rw [Dict.values, Dict.keys, List.map_map]
  apply List.map_congr_left
  intro entry hentry
  exact (h entry.1 entry.2 (Dict.get?_eq_some.mpr hentry)).symm

/-- One label set, whatever its order. -/
def SameLabels (labels labels' : Dict Text Text) : Prop :=
  ∀ label, labels.get? label = labels'.get? label

theorem SameLabels.symm {labels labels' : Dict Text Text} (h : SameLabels labels labels') :
    SameLabels labels' labels := fun label => (h label).symm

/-- The label sets agree on the labels that they have. -/
def sameLabelsBool (labels labels' : Dict Text Text) : Bool :=
  (labels.keys ++ labels'.keys).all fun label => labels.get? label = labels'.get? label

theorem sameLabelsBool_iff {labels labels' : Dict Text Text} :
    sameLabelsBool labels labels' = true ↔ SameLabels labels labels' := by
  constructor
  · intro h label
    by_cases hmem : label ∈ labels.keys ++ labels'.keys
    · exact of_decide_eq_true (List.all_eq_true.mp h label hmem)
    · rw [List.mem_append, not_or] at hmem
      rw [Dict.get?_eq_none.mpr hmem.1, Dict.get?_eq_none.mpr hmem.2]
  · intro h
    rw [sameLabelsBool, List.all_eq_true]
    intro label _
    exact decide_eq_true (h label)

instance (labels labels' : Dict Text Text) : Decidable (SameLabels labels labels') :=
  decidable_of_iff _ sameLabelsBool_iff

/-- The series that `CounterDelta` looks at. -/
def family (snapshot : Snapshot Rat) (name : Text) (labels : Dict Text Text) : List (Series Rat) :=
  snapshot.values.filter fun series => series.name = name ∧ containsLabels series.labels labels

/-- A series was there before and is not there after. -/
def Vanished (before after : Snapshot Rat) (name : Text) (labels : Dict Text Text) : Prop :=
  ∃ s ∈ family before name labels, ∀ s' ∈ family after name labels, ¬SameLabels s.labels s'.labels

/-- A series decreased. -/
def Decreased (before after : Snapshot Rat) (name : Text) (labels : Dict Text Text) : Prop :=
  ∃ s ∈ family before name labels, ∃ s' ∈ family after name labels,
    SameLabels s.labels s'.labels ∧ s'.value < s.value

/-- The value of a series before: zero if it was not there. -/
def previous (before : Snapshot Rat) (series : Series Rat) : Rat :=
  ((before.values.find? fun s => s.name = series.name ∧ SameLabels s.labels series.labels).map
    Series.value).getD 0

/-- The sum of the differences of the series. -/
def exactDelta (before after : Snapshot Rat) (name : Text) (labels : Dict Text Text) : Rat :=
  ((family after name labels).map fun s => s.value - previous before s).sum

/-- No series of the family decreased, and none vanished. -/
structure Complete (before after : Snapshot Rat) (name : Text) (labels : Dict Text Text) :
    Prop where
  kept : ¬Vanished before after name labels
  notDecreased : ¬Decreased before after name labels

/-! ## Keys -/

theorem key_append (name : Text) (labels : Dict Text Text) :
    key name labels = name ++ key [] labels := rfl

theorem containsLabels_congr {labels labels' : Dict Text Text} (h : SameLabels labels labels')
    (wanted : Dict Text Text) : containsLabels labels wanted = containsLabels labels' wanted := by
  have hget : ∀ label, labels.get? label = labels'.get? label := h
  unfold containsLabels
  simp only [hget]

variable {before after : Snapshot Rat} {name : Text} {labels : Dict Text Text}

theorem mem_family {snapshot : Snapshot Rat} {series : Series Rat} :
    series ∈ family snapshot name labels ↔
      series ∈ snapshot.values ∧ series.name = name ∧
        containsLabels series.labels labels = true := by
  simp [family]

theorem nodup_key_family {snapshot : Snapshot Rat} (h : Keyed snapshot) :
    ((family snapshot name labels).map fun s => key [] s.labels).Nodup := by
  have hkeys : (snapshot.values.map fun s => key s.name s.labels).Nodup := by
    rw [h.values_key]
    exact snapshot.nodup
  have hfamily : ((family snapshot name labels).map fun s => key s.name s.labels).Nodup :=
    (List.Sublist.map _ List.filter_sublist).nodup hkeys
  have hname : (family snapshot name labels).map (fun s => key s.name s.labels) =
      ((family snapshot name labels).map fun s => key [] s.labels).map (name ++ ·) := by
    rw [List.map_map]
    apply List.map_congr_left
    intro s hs
    rw [key_append, (mem_family.mp hs).2.1]
    rfl
  rw [hname] at hfamily
  exact hfamily.of_map _

/-- A series of the family is determined by its key. -/
theorem eq_of_key {snapshot : Snapshot Rat} (h : Keyed snapshot) {s s' : Series Rat}
    (hs : s ∈ family snapshot name labels) (hs' : s' ∈ family snapshot name labels)
    (hkey : key [] s.labels = key [] s'.labels) : s = s' :=
  List.inj_on_of_nodup_map (nodup_key_family h) hs hs' hkey

theorem entries_matching {snapshot : Snapshot Rat} (h : Keyed snapshot) :
    (matching snapshot name labels).entries =
      (family snapshot name labels).map fun s => (key [] s.labels, s.value) := by
  let keyed := (family snapshot name labels).map fun s => (key [] s.labels, s.value)
  have hkeys : ((Dict.empty : Dict Text Rat).keys ++ keyed.map Prod.fst).Nodup := by
    show (keyed.map Prod.fst).Nodup
    rw [List.map_map]
    exact nodup_key_family h
  have hentries := Dict.entries_foldl_set_new hkeys
  rw [List.foldl_map] at hentries
  exact hentries

theorem get?_matching {snapshot : Snapshot Rat} (h : Keyed snapshot) {k : Text} {value : Rat} :
    (matching snapshot name labels).get? k = some value ↔
      ∃ s ∈ family snapshot name labels, key [] s.labels = k ∧ s.value = value := by
  rw [Dict.get?_eq_some, entries_matching h, List.mem_map]
  simp only [Prod.mk.injEq]

/-- The value that `CounterDelta` compares a series with. -/
def beforeValue (before : Snapshot Rat) (name : Text) (labels : Dict Text Text) (s : Series Rat) :
    Rat :=
  ((matching before name labels).get? (key [] s.labels)).getD 0

/-- The delta, over the series of the family. -/
theorem counterDelta_eq (hafter : Keyed after) (hne : family after name labels ≠ []) :
    (counterDelta before after name labels).found = true ∧
      (counterDelta before after name labels).reset =
        (family after name labels).any (fun s => s.value < beforeValue before name labels s) ∧
      (counterDelta before after name labels).value =
        ((family after name labels).map fun s =>
          if s.value < beforeValue before name labels s then 0
          else s.value - beforeValue before name labels s).sum := by
  have hentries : (matching after name labels).entries ≠ [] := by
    rw [entries_matching hafter]
    simpa using hne
  unfold counterDelta
  rw [if_neg hentries, entries_matching hafter]
  refine ⟨rfl, ?_, ?_⟩
  · rw [List.any_map]
    rfl
  · rw [List.map_map]
    rfl

theorem counterDelta_nil (hafter : Keyed after) (hnil : family after name labels = []) :
    counterDelta before after name labels = ⟨0, false, false, true⟩ := by
  have hentries : (matching after name labels).entries = [] := by
    rw [entries_matching hafter, hnil]
    rfl
  unfold counterDelta
  rw [if_pos hentries]

/-! ## Series -/

/-- A series that decreased is noticed. -/
theorem reset_of_decreased (hbefore : Keyed before) (hafter : Keyed after)
    (h : Decreased before after name labels) :
    (counterDelta before after name labels).reset = true := by
  obtain ⟨s, hs, s', hs', hsame, hlt⟩ := h
  have hvalue : beforeValue before name labels s' = s.value := by
    unfold beforeValue
    rw [(get?_matching hbefore).mpr ⟨s, hs, key_congr hsame, rfl⟩]
    rfl
  rw [(counterDelta_eq hafter (List.ne_nil_of_mem hs')).2.1, List.any_eq_true]
  exact ⟨s', hs', by simpa [hvalue] using hlt⟩

theorem previous_eq_of_mem (hbefore : Keyed before) {s s' : Series Rat}
    (hs : s ∈ family before name labels) (hname : s'.name = name)
    (hsame : SameLabels s.labels s'.labels) : previous before s' = s.value := by
  have hs' := mem_family.mp hs
  unfold previous
  cases hfind : before.values.find? fun t => t.name = s'.name ∧ SameLabels t.labels s'.labels with
  | none =>
    have hnot := List.find?_eq_none.mp hfind s hs'.1
    simp [hs'.2.1, hname, hsame] at hnot
  | some t =>
    have ht := List.find?_some hfind
    simp only [decide_eq_true_eq] at ht
    have htfamily : t ∈ family before name labels := by
      refine mem_family.mpr ⟨List.mem_of_find?_eq_some hfind, ht.1.trans hname, ?_⟩
      rw [containsLabels_congr ht.2, ← containsLabels_congr hsame]
      exact hs'.2.2
    have hsame' : SameLabels t.labels s.labels := fun label => (ht.2 label).trans (hsame label).symm
    rw [eq_of_key hbefore htfamily hs (key_congr hsame')]
    rfl

/-- Where nothing vanished, a key stands for one series. -/
theorem beforeValue_eq_previous (hbefore : Keyed before) (hafter : Keyed after)
    (hkept : ¬Vanished before after name labels) {s : Series Rat}
    (hs : s ∈ family after name labels) :
    beforeValue before name labels s = previous before s := by
  unfold beforeValue
  cases hget : (matching before name labels).get? (key [] s.labels) with
  | none =>
    have hnone : before.values.find? (fun t => t.name = s.name ∧ SameLabels t.labels s.labels) =
        none := by
      rw [List.find?_eq_none]
      intro t ht hboth
      simp only [decide_eq_true_eq] at hboth
      have htfamily : t ∈ family before name labels := by
        refine mem_family.mpr ⟨ht, hboth.1.trans (mem_family.mp hs).2.1, ?_⟩
        rw [containsLabels_congr hboth.2]
        exact (mem_family.mp hs).2.2
      have hsome := (get?_matching hbefore).mpr ⟨t, htfamily, key_congr hboth.2, rfl⟩
      rw [hget] at hsome
      cases hsome
    rw [previous, hnone]
    rfl
  | some value =>
    obtain ⟨t, ht, hkey, rfl⟩ := (get?_matching hbefore).mp hget
    -- the series from before is still there, and has the key of `s`
    have hstill : ∃ s' ∈ family after name labels, SameLabels t.labels s'.labels := by
      by_contra hnot
      exact hkept ⟨t, ht, fun s' hs' hsame => hnot ⟨s', hs', hsame⟩⟩
    obtain ⟨s', hs', hsame⟩ := hstill
    obtain rfl : s' = s := eq_of_key hafter hs' hs ((key_congr hsame).symm.trans hkey)
    rw [previous_eq_of_mem hbefore ht (mem_family.mp hs).2.1 hsame]
    rfl

/-- Without a reset and a vanished series, the delta is exact and no series decreased. -/
theorem value_of_kept (hbefore : Keyed before) (hafter : Keyed after)
    (hkept : ¬Vanished before after name labels)
    (hreset : (counterDelta before after name labels).reset = false) :
    Complete before after name labels ∧
      (counterDelta before after name labels).value = exactDelta before after name labels := by
  refine ⟨⟨hkept, ?_⟩, ?_⟩
  · intro hdecreased
    rw [reset_of_decreased hbefore hafter hdecreased] at hreset
    cases hreset
  · by_cases hnil : family after name labels = []
    · rw [counterDelta_nil hafter hnil, exactDelta, hnil]
      rfl
    · obtain ⟨-, hany, hvalue⟩ := @counterDelta_eq before after name labels hafter hnil
      rw [hany, List.any_eq_false] at hreset
      rw [hvalue, exactDelta]
      congr 1
      apply List.map_congr_left
      intro s hs
      have hnot := hreset s hs
      rw [decide_eq_true_eq] at hnot
      rw [if_neg hnot, beforeValue_eq_previous hbefore hafter hkept hs]

end Prometheus

end Gateway
