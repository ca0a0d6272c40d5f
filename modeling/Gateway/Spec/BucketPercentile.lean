import Gateway.Lib.NearestRank
import Gateway.Spec.CounterDeltas

/-!
# The bucket percentile refines the nearest rank

A histogram is scraped before and after a run. What `HistogramPercentile` makes of the two
scrapes is the bucket that the nearest-rank percentile of the run's observations falls in.

## Key results

- `scan_eq`: the first loop, as a list of the bounds it considers
- `reachRank_least`, `reachRank_greatest`: the second loop, over sorted buckets
- `bucketDelta_eq`: the delta of a bucket counts the observations up to its bound
- `histogramPercentile_exact`: the estimate
-/

namespace Gateway

namespace Prometheus

variable {β : Type} [LinearOrder β]

/-! ## The first loop -/

/-- Membership of a bound among bounds is decided by their equality. -/
local instance boundsLawful : LawfulBEq β := inferInstance

/-- The bounds that the first loop considers, each with its `le`. -/
def consumeBound (parseFloat : Text → Option β) (base : Text) (bounds : List (β × Text))
    (series : Series Rat) : List (β × Text) :=
  if series.name ≠ bucketName base then bounds
  else
    (parseFloat series.le).elim bounds fun upper =>
      if upper ∈ bounds.map Prod.fst then bounds else bounds ++ [(upper, series.le)]

/-- The bounds of the buckets after the run, in the order of the first loop. -/
def consumedBounds (parseFloat : Text → Option β) (after : Snapshot Rat) (base : Text) :
    List (β × Text) :=
  after.values.foldl (consumeBound parseFloat base) []

/-- The state of the first loop, by the bounds it has considered. -/
def scanOf (before after : Snapshot Rat) (base : Text) (bounds : List (β × Text)) :
    BucketScan β where
  seen := bounds.map Prod.fst
  reset := bounds.any fun bound => (bucketDelta before after base bound.2).reset
  buckets := bounds.map fun bound => ⟨bound.1, (bucketDelta before after base bound.2).value⟩

theorem mem_family_bucket {snapshot : Snapshot Rat} {base le : Text} {series : Series Rat} :
    series ∈ family snapshot (bucketName base) (oneLabel "le".toList le) ↔
      series ∈ snapshot.values ∧ series.name = bucketName base ∧ series.le = le := by
  rw [mem_family]
  have hcontains : containsLabels series.labels (oneLabel "le".toList le) = true ↔
      series.le = le := by
    show ([("le".toList, le)].all fun label =>
      (series.labels.get? label.1).getD [] = label.2) = true ↔ _
    simp [Series.le]
  rw [hcontains]

/-- The first loop, as a list of the bounds it considers: each of them has a series. -/
theorem scan_eq (parseFloat : Text → Option β) {before after : Snapshot Rat}
    (hafter : Keyed after) (base : Text) :
    after.values.foldl (scanSeries parseFloat before after base) ⟨[], false, []⟩ =
      scanOf before after base (consumedBounds parseFloat after base) := by
  have hfold : ∀ series ⊆ after.values, ∀ bounds : List (β × Text),
      series.foldl (scanSeries parseFloat before after base) (scanOf before after base bounds) =
        scanOf before after base (series.foldl (consumeBound parseFloat base) bounds) := by
    intro series hseries
    induction series with
    | nil => exact fun _ => rfl
    | cons s series ih =>
      intro bounds
      have hs : s ∈ after.values := hseries (List.mem_cons_self ..)
      have hstep : scanSeries parseFloat before after base (scanOf before after base bounds) s =
          scanOf before after base (consumeBound parseFloat base bounds s) := by
        unfold scanSeries consumeBound
        by_cases hname : s.name = bucketName base
        · rw [if_neg (not_not.mpr hname), if_neg (not_not.mpr hname)]
          cases hread : parseFloat s.le with
          | none => rfl
          | some upper =>
            dsimp only
            rw [Option.elim_some]
            have hfound : (bucketDelta before after base s.le).found = true :=
              (counterDelta_eq hafter
                (List.ne_nil_of_mem (mem_family_bucket.mpr ⟨hs, hname, rfl⟩))).1
            have hseenOf : (scanOf before after base bounds).seen = bounds.map Prod.fst := rfl
            rw [hseenOf]
            by_cases hseen : upper ∈ bounds.map Prod.fst
            · rw [if_pos hseen, if_pos hseen]
            · rw [if_neg hseen, if_neg hseen, if_pos hfound]
              simp [scanOf]
        · rw [if_pos hname, if_pos hname]
      rw [List.foldl_cons, List.foldl_cons, hstep,
        ih fun t ht => hseries (List.mem_cons_of_mem _ ht)]
  exact hfold after.values (List.Subset.refl _) []

/-- The bounds of series are those that they have a readable `le` for, once each. -/
structure Considered (parseFloat : Text → Option β) (base : Text) (series : List (Series Rat))
    (bounds : List (β × Text)) : Prop where
  nodup : (bounds.map Prod.fst).Nodup
  exists_series : ∀ bound ∈ bounds, ∃ s ∈ series, s.name = bucketName base ∧
    parseFloat s.le = some bound.1 ∧ s.le = bound.2
  mem : ∀ s ∈ series, s.name = bucketName base → ∀ upper, parseFloat s.le = some upper →
    upper ∈ bounds.map Prod.fst

theorem Considered.step {parseFloat : Text → Option β} {base : Text} {series : List (Series Rat)}
    {bounds : List (β × Text)} (h : Considered parseFloat base series bounds) (s : Series Rat) :
    Considered parseFloat base (series ++ [s]) (consumeBound parseFloat base bounds s) := by
  -- what was considered stays so
  have hexists : ∀ bound ∈ bounds, ∃ t ∈ series ++ [s], t.name = bucketName base ∧
      parseFloat t.le = some bound.1 ∧ t.le = bound.2 := by
    intro bound hbound
    obtain ⟨t, ht, hrest⟩ := h.exists_series bound hbound
    exact ⟨t, List.mem_append_left _ ht, hrest⟩
  unfold consumeBound
  by_cases hname : s.name = bucketName base
  · rw [if_neg (not_not.mpr hname)]
    cases hread : parseFloat s.le with
    | none =>
      refine ⟨h.nodup, hexists, fun t ht htname upper hupper => ?_⟩
      rcases List.mem_append.mp ht with ht | ht
      · exact h.mem t ht htname upper hupper
      · rw [List.mem_singleton.mp ht, hread] at hupper
        cases hupper
    | some upper =>
      rw [Option.elim_some]
      by_cases hseen : upper ∈ bounds.map Prod.fst
      · rw [if_pos hseen]
        refine ⟨h.nodup, hexists, fun t ht htname upper' hupper => ?_⟩
        rcases List.mem_append.mp ht with ht | ht
        · exact h.mem t ht htname upper' hupper
        · rw [List.mem_singleton.mp ht, hread] at hupper
          cases hupper
          exact hseen
      · rw [if_neg hseen]
        refine ⟨?_, ?_, ?_⟩
        · rw [List.map_append, List.nodup_append]
          refine ⟨h.nodup, by simp, ?_⟩
          intro a ha b hb hab
          obtain rfl : b = upper := by simpa using hb
          exact hseen (hab ▸ ha)
        · intro bound hbound
          rcases List.mem_append.mp hbound with hbound | hbound
          · exact hexists bound hbound
          · rw [List.mem_singleton.mp hbound]
            exact ⟨s, by simp, hname, hread, rfl⟩
        · intro t ht htname upper' hupper
          rw [List.map_append, List.mem_append]
          rcases List.mem_append.mp ht with ht | ht
          · exact .inl (h.mem t ht htname upper' hupper)
          · rw [List.mem_singleton.mp ht, hread] at hupper
            cases hupper
            exact .inr (by simp)
  · rw [if_pos hname]
    refine ⟨h.nodup, hexists, fun t ht htname upper hupper => ?_⟩
    rcases List.mem_append.mp ht with ht | ht
    · exact h.mem t ht htname upper hupper
    · rw [List.mem_singleton.mp ht] at htname
      exact absurd htname hname

theorem considered_consumedBounds (parseFloat : Text → Option β) (after : Snapshot Rat)
    (base : Text) :
    Considered parseFloat base after.values (consumedBounds parseFloat after base) := by
  have hfold : ∀ rest series bounds, Considered parseFloat base series bounds →
      Considered parseFloat base (series ++ rest)
        (rest.foldl (consumeBound parseFloat base) bounds) := by
    intro rest
    induction rest with
    | nil =>
      intro series bounds h
      rw [List.append_nil]
      exact h
    | cons s rest ih =>
      intro series bounds h
      have hrest := ih (series ++ [s]) _ (h.step s)
      rw [List.append_assoc] at hrest
      exact hrest
  exact hfold after.values [] [] ⟨by simp, by simp, by simp⟩

/-! ## The second loop -/

variable [OrderTop β]

/-- Sorted buckets, whose counts reach the rank from `q` on. -/
structure Reaching (rank : Int) (q : β) (buckets : List (Bucket β)) : Prop where
  sorted : buckets.Pairwise fun a b => a.upper < b.upper
  reaches : ∀ item ∈ buckets, (item.count ≥ rank) ↔ q ≤ item.upper

omit [OrderTop β] in
theorem Reaching.tail {rank : Int} {q : β} {item : Bucket β} {buckets : List (Bucket β)}
    (h : Reaching rank q (item :: buckets)) : Reaching rank q buckets :=
  ⟨(List.pairwise_cons.mp h.sorted).2, fun b hb => h.reaches b (List.mem_cons_of_mem _ hb)⟩

/-- If a finite bound is reached, the estimate is the least bound that is. -/
theorem reachRank_least {rank : Int} {q : β} {buckets : List (Bucket β)}
    (h : Reaching rank q buckets) (hfinite : ∃ item ∈ buckets, item.upper ≠ ⊤ ∧ q ≤ item.upper)
    (lastFinite : β) :
    ∃ v, reachRank rank lastFinite buckets = some v ∧
      IsLeast {upper | upper ∈ buckets.map Bucket.upper ∧ q ≤ upper} v := by
  induction buckets generalizing lastFinite with
  | nil => simp at hfinite
  | cons item buckets ih =>
    have hsorted := (List.pairwise_cons.mp h.sorted).1
    by_cases hreached : q ≤ item.upper
    · -- the first bound that is reached is finite, as a finite one comes no earlier
      have hitem : item.upper ≠ ⊤ := by
        intro htop
        obtain ⟨b, hb, hne, -⟩ := hfinite
        rcases List.mem_cons.mp hb with rfl | hb
        · exact hne htop
        · exact absurd (htop ▸ hsorted b hb) not_top_lt
      refine ⟨item.upper, ?_, ⟨by simp, hreached⟩, ?_⟩
      · rw [reachRank, if_pos ((h.reaches item (List.mem_cons_self ..)).mpr hreached), if_neg hitem]
      · intro upper hupper
        rcases List.mem_cons.mp hupper.1 with rfl | hmem
        · exact le_refl _
        · obtain ⟨b, hb, rfl⟩ := List.mem_map.mp hmem
          exact (hsorted b hb).le
    · have hrest : ∃ b ∈ buckets, b.upper ≠ ⊤ ∧ q ≤ b.upper := by
        obtain ⟨b, hb, hne, hle⟩ := hfinite
        rcases List.mem_cons.mp hb with rfl | hb
        · exact absurd hle hreached
        · exact ⟨b, hb, hne, hle⟩
      have hnot : ¬item.count ≥ rank :=
        fun hcount => hreached ((h.reaches item (List.mem_cons_self ..)).mp hcount)
      obtain ⟨v, hv, hleast⟩ := ih h.tail hrest (if item.upper ≠ ⊤ then item.upper else lastFinite)
      refine ⟨v, by rw [reachRank, if_neg hnot, hv],
        ⟨List.mem_cons_of_mem _ hleast.1.1, hleast.1.2⟩, ?_⟩
      intro upper hupper
      rcases List.mem_cons.mp hupper.1 with rfl | hmem
      · exact absurd hupper.2 hreached
      · exact hleast.2 ⟨hmem, hupper.2⟩

/-- If no finite bound is reached, the estimate is the greatest finite one. -/
theorem reachRank_greatest {rank : Int} {q : β} {buckets : List (Bucket β)}
    (h : Reaching rank q buckets) (htop : ⊤ ∈ buckets.map Bucket.upper)
    (hunreached : ∀ item ∈ buckets, item.upper ≠ ⊤ → ¬q ≤ item.upper) (lastFinite : β) :
    ∃ v, reachRank rank lastFinite buckets = some v ∧
      (∀ item ∈ buckets, item.upper ≠ ⊤ → item.upper ≤ v) ∧
      (v = lastFinite ∨ ∃ item ∈ buckets, item.upper ≠ ⊤ ∧ item.upper = v) ∧
      ((∃ item ∈ buckets, item.upper ≠ ⊤) → ∃ item ∈ buckets, item.upper ≠ ⊤ ∧ item.upper = v) := by
  induction buckets generalizing lastFinite with
  | nil => simp at htop
  | cons item buckets ih =>
    have hsorted := (List.pairwise_cons.mp h.sorted).1
    have hreaches := h.reaches item (List.mem_cons_self ..)
    by_cases hitem : item.upper = ⊤
    · -- `+Inf` is the last bucket, and is reached
      have hlast : buckets = [] := by
        by_contra hne
        obtain ⟨b, rest, rfl⟩ := List.exists_cons_of_ne_nil hne
        exact absurd (hitem ▸ hsorted b (List.mem_cons_self ..)) not_top_lt
      subst hlast
      refine ⟨lastFinite, ?_, by simp [hitem], .inl rfl, by simp [hitem]⟩
      rw [reachRank, if_pos (hreaches.mpr (hitem ▸ le_top)), if_pos hitem]
      simp [hitem]
    · have hnot : ¬item.count ≥ rank :=
        fun hcount => hunreached item (List.mem_cons_self ..) hitem (hreaches.mp hcount)
      have htop' : ⊤ ∈ buckets.map Bucket.upper := by
        rcases List.mem_cons.mp htop with heq | htop
        · exact absurd heq.symm hitem
        · exact htop
      obtain ⟨v, hv, hgreatest, hfrom, -⟩ := ih h.tail htop'
        (fun b hb => hunreached b (List.mem_cons_of_mem _ hb)) item.upper
      have hmem : ∃ b ∈ item :: buckets, b.upper ≠ ⊤ ∧ b.upper = v := by
        rcases hfrom with rfl | ⟨b, hb, hb'⟩
        · exact ⟨item, List.mem_cons_self .., hitem, rfl⟩
        · exact ⟨b, List.mem_cons_of_mem _ hb, hb'⟩
      refine ⟨v, ?_, ?_, .inr hmem, fun _ => hmem⟩
      · rw [reachRank, if_neg hnot, if_pos hitem]
        exact hv
      · intro b hb hne
        rcases List.mem_cons.mp hb with rfl | hb
        · rcases hfrom with rfl | ⟨b', hb', -, rfl⟩
          · exact le_refl _
          · exact (hsorted b' hb').le
        · exact hgreatest b hb hne

/-! ## Recorded histograms -/

/-- One label set of a histogram: what was observed before the run, if it was there, and what
was observed during the run. -/
structure LabelSeries (β : Type) where
  labels : Dict Text Text
  before : Option (List β)
  during : List β

/-- A histogram over a run: its bounds, each with its `le`, and its label sets. -/
structure RecordedHistogram (parseFloat : Text → Option β) where
  bounds : List (Text × β)
  series : List (LabelSeries β)
  bounds_read : ∀ bound ∈ bounds, parseFloat bound.1 = some bound.2
  bounds_nodup : (bounds.map Prod.snd).Nodup
  infinite : ⊤ ∈ bounds.map Prod.snd
  finite : ∃ bound ∈ bounds, bound.2 ≠ ⊤
  noLe : ∀ s ∈ series, s.labels.get? "le".toList = none
  distinct : series.Pairwise fun s s' => ¬SameLabels s.labels s'.labels

namespace RecordedHistogram

variable {parseFloat : Text → Option β} (run : RecordedHistogram parseFloat)

/-- What was observed during the run. -/
def observations : List β := run.series.flatMap LabelSeries.during

end RecordedHistogram

/-- The series of one bucket: how many observations there are up to its bound. -/
def bucketSeries (base : Text) (labels : Dict Text Text) (observations : List β)
    (bound : Text × β) : Series Rat where
  name := bucketName base
  labels := labels.set "le".toList bound.1
  value := observations.countP (· ≤ bound.2)

namespace RecordedHistogram

variable {parseFloat : Text → Option β} (run : RecordedHistogram parseFloat)

/-- The buckets of the scrape before the run. -/
def seriesBefore (base : Text) : List (Series Rat) :=
  run.series.flatMap fun s =>
    s.before.toList.flatMap fun history => run.bounds.map (bucketSeries base s.labels history)

/-- The buckets of the scrape after the run. -/
def seriesAfter (base : Text) : List (Series Rat) :=
  run.series.flatMap fun s =>
    run.bounds.map (bucketSeries base s.labels (s.before.getD [] ++ s.during))

end RecordedHistogram

/-- The series of a name in a snapshot are exactly the given ones. -/
def Holds (snapshot : Snapshot Rat) (name : Text) (series : List (Series Rat)) : Prop :=
  ∃ listed, listed.Perm series ∧
    List.Forall₂ SameSeries (snapshot.values.filter (·.name = name)) listed

/-! ## The delta of a bucket -/

omit [OrderTop β] in
theorem le_bucketSeries (base : Text) (labels : Dict Text Text) (observations : List β)
    (bound : Text × β) : (bucketSeries base labels observations bound).le = bound.1 := by
  simp [bucketSeries, Series.le, Dict.get?_set]

theorem SameSeries.symm {series series' : Series Rat} (h : SameSeries series series') :
    SameSeries series' series :=
  ⟨h.name.symm, fun label => (h.labels label).symm, h.value.symm⟩

theorem SameSeries.le_eq {series series' : Series Rat} (h : SameSeries series series') :
    series.le = series'.le := by
  unfold Series.le
  rw [h.labels]

/-- The label sets without `le` are determined by the labels of a bucket. -/
theorem sameLabels_of_set {labels labels' : Dict Text Text} {le le' : Text}
    (hnone : labels.get? "le".toList = none) (hnone' : labels'.get? "le".toList = none)
    (h : SameLabels (labels.set "le".toList le) (labels'.set "le".toList le')) :
    SameLabels labels labels' := by
  intro label
  by_cases hlabel : "le".toList = label
  · rw [← hlabel, hnone, hnone']
  · have hat := h label
    rw [Dict.get?_set, Dict.get?_set, if_neg hlabel, if_neg hlabel] at hat
    exact hat

theorem family_bucket {snapshot : Snapshot Rat} (base le : Text) :
    family snapshot (bucketName base) (oneLabel "le".toList le) =
      (snapshot.values.filter (·.name = bucketName base)).filter (·.le = le) := by
  rw [List.filter_filter]
  apply List.filter_congr
  intro s hs
  have hmem : s ∈ family snapshot (bucketName base) (oneLabel "le".toList le) ↔
      s ∈ snapshot.values ∧ s.name = bucketName base ∧ s.le = le := mem_family_bucket
  rw [mem_family] at hmem
  simp only [hs, true_and] at hmem
  rw [Bool.and_comm, ← Bool.decide_and]
  exact decide_eq_decide.mpr hmem

theorem Holds.exists_listed {snapshot : Snapshot Rat} {name : Text} {series : List (Series Rat)}
    (h : Holds snapshot name series) {s : Series Rat} (hs : s ∈ snapshot.values)
    (hname : s.name = name) : ∃ listed ∈ series, SameSeries s listed := by
  obtain ⟨listed, hperm, hsame⟩ := h
  have hmem : s ∈ snapshot.values.filter (·.name = name) :=
    List.mem_filter.mpr ⟨hs, decide_eq_true hname⟩
  obtain ⟨e, he, hse⟩ := exists_of_forall₂ (hsame.flip.imp fun _ _ h => h.symm) hmem
  exact ⟨e, hperm.mem_iff.mp he, hse.symm⟩

theorem Holds.exists_read {snapshot : Snapshot Rat} {name : Text} {series : List (Series Rat)}
    (h : Holds snapshot name series) {s : Series Rat} (hs : s ∈ series) :
    ∃ read ∈ snapshot.values, read.name = name ∧ SameSeries read s := by
  obtain ⟨listed, hperm, hsame⟩ := h
  obtain ⟨read, hread, hsame⟩ := exists_of_forall₂ hsame (hperm.mem_iff.mpr hs)
  have hread := List.mem_filter.mp hread
  exact ⟨read, hread.1, of_decide_eq_true hread.2, hsame⟩

namespace RecordedHistogram

variable {parseFloat : Text → Option β} {run : RecordedHistogram parseFloat}

/-- A bound has one `le`. -/
theorem bound_eq {bound bound' : Text × β} (h : bound ∈ run.bounds) (h' : bound' ∈ run.bounds)
    (htext : bound.1 = bound'.1) : bound = bound' := by
  have hread := run.bounds_read bound h
  rw [htext, run.bounds_read bound' h'] at hread
  exact Prod.ext htext (Option.some.inj hread).symm

theorem filter_bounds {bound : Text × β} (h : bound ∈ run.bounds) :
    run.bounds.filter (·.1 = bound.1) = [bound] := by
  have hfilter : run.bounds.filter (·.1 = bound.1) = run.bounds.filter (· = bound) := by
    apply List.filter_congr
    intro bound' h'
    exact decide_eq_decide.mpr ⟨bound_eq h' h, fun heq => heq ▸ rfl⟩
  rw [hfilter, List.filter_eq, List.count_eq_one_of_mem (run.bounds_nodup.of_map _) h]
  rfl

/-- The series of one bound after the run: one for each label set. -/
theorem filter_seriesAfter (base : Text) {bound : Text × β} (h : bound ∈ run.bounds) :
    (run.seriesAfter base).filter (·.le = bound.1) =
      run.series.map fun s =>
        bucketSeries base s.labels (s.before.getD [] ++ s.during) bound := by
  have hone : ∀ labels : Dict Text Text, ∀ observations : List β,
      (run.bounds.map (bucketSeries base labels observations)).filter (·.le = bound.1) =
        [bucketSeries base labels observations bound] := by
    intro labels observations
    rw [List.filter_map]
    have hle : ((fun s : Series Rat => decide (s.le = bound.1)) ∘
        bucketSeries base labels observations) = fun b => decide (b.1 = bound.1) := by
      funext b
      rw [Function.comp_apply, le_bucketSeries]
    rw [hle, filter_bounds h]
    rfl
  rw [seriesAfter, List.filter_flatMap]
  simp only [hone]
  exact List.map_eq_flatMap.symm

variable {before after : Snapshot Rat} {base : Text}

/-- The series of a bucket after the run, label set by label set. -/
theorem family_after (h : Holds after (bucketName base) (run.seriesAfter base))
    {bound : Text × β} (hbound : bound ∈ run.bounds) :
    ∃ listed, (family after (bucketName base) (oneLabel "le".toList bound.1)).Perm listed ∧
      List.Forall₂ (fun t (s : LabelSeries β) =>
        SameSeries t (bucketSeries base s.labels (s.before.getD [] ++ s.during) bound))
        listed run.series := by
  obtain ⟨listed, hperm, hsame⟩ := h
  have hfilter := List.rel_filter (p := fun t : Series Rat => decide (t.le = bound.1))
    (q := fun t : Series Rat => decide (t.le = bound.1))
    (fun t t' (htt' : SameSeries t t') => by simp [htt'.le_eq]) hsame
  have hperm := hperm.filter fun t => t.le = bound.1
  rw [filter_seriesAfter base hbound] at hperm
  rw [← family_bucket] at hfilter
  have hcomp : Relation.Comp List.Perm (List.Forall₂ SameSeries)
      (family after (bucketName base) (oneLabel "le".toList bound.1))
      (run.series.map fun s =>
        bucketSeries base s.labels (s.before.getD [] ++ s.during) bound) := by
    rw [← List.forall₂_comp_perm_eq_perm_comp_forall₂]
    exact ⟨_, hfilter, hperm⟩
  obtain ⟨listed', hperm', hsame'⟩ := hcomp
  exact ⟨listed', hperm', List.forall₂_map_right_iff.mp hsame'⟩

theorem eq_of_sameLabels {s s' : LabelSeries β} (hs : s ∈ run.series) (hs' : s' ∈ run.series)
    (h : SameLabels s.labels s'.labels) : s = s' := by
  by_contra hne
  have hsymm : Std.Symm fun a b : LabelSeries β => ¬SameLabels a.labels b.labels :=
    ⟨fun _ _ hab hba => hab hba.symm⟩
  exact run.distinct.forall hs hs' hne h

theorem mem_seriesBefore {t : Series Rat} :
    t ∈ run.seriesBefore base ↔ ∃ s ∈ run.series, ∃ history, s.before = some history ∧
      ∃ bound ∈ run.bounds, bucketSeries base s.labels history bound = t := by
  simp [seriesBefore]

theorem mem_seriesAfter {t : Series Rat} :
    t ∈ run.seriesAfter base ↔ ∃ s ∈ run.series, ∃ bound ∈ run.bounds,
      bucketSeries base s.labels (s.before.getD [] ++ s.during) bound = t := by
  simp [seriesAfter]

/-- The series that a bucket after the run is compared with. -/
theorem previous_bucket (hkeyed : Keyed before)
    (h : Holds before (bucketName base) (run.seriesBefore base)) {s : LabelSeries β}
    (hs : s ∈ run.series) {bound : Text × β} (hbound : bound ∈ run.bounds) {t : Series Rat}
    {observations : List β} (ht : SameSeries t (bucketSeries base s.labels observations bound)) :
    previous before t = (s.before.getD []).countP (· ≤ bound.2) := by
  cases hhistory : s.before with
  | some history =>
    have hmem : bucketSeries base s.labels history bound ∈ run.seriesBefore base :=
      mem_seriesBefore.mpr ⟨s, hs, history, hhistory, bound, hbound, rfl⟩
    obtain ⟨r, hr, hname, hsame⟩ := h.exists_read hmem
    have hle : r.le = bound.1 := hsame.le_eq.trans (le_bucketSeries ..)
    have hlabels : SameLabels r.labels t.labels :=
      fun label => (hsame.labels label).trans (ht.labels label).symm
    rw [previous_eq_of_mem hkeyed (mem_family_bucket.mpr ⟨hr, hname, hle⟩) ht.name hlabels,
      hsame.value]
    rfl
  | none =>
    -- a series with these labels would be of the same label set
    have hnone : before.values.find? (fun u => u.name = t.name ∧ SameLabels u.labels t.labels) =
        none := by
      rw [List.find?_eq_none]
      intro u hu hboth
      simp only [decide_eq_true_eq] at hboth
      obtain ⟨listed, hlisted, hsame⟩ := h.exists_listed hu (hboth.1.trans ht.name)
      obtain ⟨s', hs', history, hhistory', bound', -, rfl⟩ := mem_seriesBefore.mp hlisted
      have hset : SameLabels (s'.labels.set "le".toList bound'.1)
          (s.labels.set "le".toList bound.1) := fun label =>
        (hsame.labels label).symm.trans ((hboth.2 label).trans (ht.labels label))
      obtain rfl := eq_of_sameLabels hs' hs
        (sameLabels_of_set (run.noLe s' hs') (run.noLe s hs) hset)
      rw [hhistory] at hhistory'
      cases hhistory'
    rw [previous, hnone]
    rfl

/-- A bucket grew by the observations of the run up to its bound. -/
theorem difference_bucket (hkeyed : Keyed before)
    (h : Holds before (bucketName base) (run.seriesBefore base)) {s : LabelSeries β}
    (hs : s ∈ run.series) {bound : Text × β} (hbound : bound ∈ run.bounds) {t : Series Rat}
    (ht : SameSeries t (bucketSeries base s.labels (s.before.getD [] ++ s.during) bound)) :
    t.value - previous before t = (s.during.countP (· ≤ bound.2) : Nat) := by
  rw [previous_bucket hkeyed h hs hbound ht, ht.value]
  show ((((s.before.getD [] ++ s.during).countP (· ≤ bound.2) : Nat) : Rat) - _) = _
  rw [List.countP_append, Nat.cast_add, add_sub_cancel_left]

/-- No bucket vanishes. -/
theorem not_vanished_bucket (hbefore : Holds before (bucketName base) (run.seriesBefore base))
    (hafter : Holds after (bucketName base) (run.seriesAfter base)) (le : Text) :
    ¬Vanished before after (bucketName base) (oneLabel "le".toList le) := by
  rintro ⟨t, ht, hgone⟩
  obtain ⟨ht, hname, hle⟩ := mem_family_bucket.mp ht
  obtain ⟨listed, hlisted, hsame⟩ := hbefore.exists_listed ht hname
  obtain ⟨s, hs, history, hhistory, bound, hbound, rfl⟩ := mem_seriesBefore.mp hlisted
  have hmem : bucketSeries base s.labels (s.before.getD [] ++ s.during) bound ∈
      run.seriesAfter base := mem_seriesAfter.mpr ⟨s, hs, bound, hbound, rfl⟩
  obtain ⟨r, hr, hrname, hrsame⟩ := hafter.exists_read hmem
  have hrle : r.le = le := by
    rw [hrsame.le_eq, le_bucketSeries, ← hle, hsame.le_eq, le_bucketSeries]
  apply hgone r (mem_family_bucket.mpr ⟨hr, hrname, hrle⟩)
  exact fun label => (hsame.labels label).trans (hrsame.labels label).symm

/-- The delta of a bucket counts the observations of the run up to its bound. -/
theorem bucketDelta_eq (hkeyed : Keyed before) (hkeyed' : Keyed after)
    (hbefore : Holds before (bucketName base) (run.seriesBefore base))
    (hafter : Holds after (bucketName base) (run.seriesAfter base)) {bound : Text × β}
    (hbound : bound ∈ run.bounds) :
    (bucketDelta before after base bound.1).reset = false ∧
      (bucketDelta before after base bound.1).value =
        (run.observations.countP (· ≤ bound.2) : Nat) := by
  obtain ⟨listed, hperm, hlisted⟩ := family_after hafter hbound
  have hkept := not_vanished_bucket hbefore hafter bound.1
  have hdifferences : listed.map (fun t => t.value - previous before t) =
      run.series.map fun s => ((s.during.countP (· ≤ bound.2) : Nat) : Rat) := by
    rw [← List.forall₂_eq_eq_eq, List.forall₂_map_left_iff, List.forall₂_map_right_iff,
      List.forall₂_iff_get]
    rw [List.forall₂_iff_get] at hlisted
    exact ⟨hlisted.1, fun i hi hi' =>
      difference_bucket hkeyed hbefore (List.get_mem ..) hbound (hlisted.2 i hi hi')⟩
  have hreset : (bucketDelta before after base bound.1).reset = false := by
    by_cases hnil : family after (bucketName base) (oneLabel "le".toList bound.1) = []
    · rw [bucketDelta, counterDelta_nil hkeyed' hnil]
    · rw [bucketDelta, (counterDelta_eq hkeyed' hnil).2.1, List.any_eq_false]
      intro t ht
      rw [decide_eq_true_eq, not_lt, beforeValue_eq_previous hkeyed hkeyed' hkept ht]
      have hmem := List.mem_map_of_mem (f := fun t => t.value - previous before t)
        (hperm.mem_iff.mp ht)
      rw [hdifferences] at hmem
      obtain ⟨s, -, hs⟩ := List.mem_map.mp hmem
      have hnonneg : (0 : Rat) ≤ (s.during.countP (· ≤ bound.2) : Nat) := Nat.cast_nonneg _
      rw [hs] at hnonneg
      exact sub_nonneg.mp hnonneg
  refine ⟨hreset, ?_⟩
  rw [bucketDelta, (value_of_kept hkeyed hkeyed' hkept hreset).2, exactDelta,
    (hperm.map _).sum_eq, hdifferences, observations, List.countP_flatMap, Nat.cast_list_sum,
    List.map_map]
  rfl

end RecordedHistogram

/-! ## The estimate -/

/-- What stands for a percentile `q` among bounds: the least one from `q` on, and if no finite
one is, the greatest finite one. -/
structure IsEstimate (bounds : List β) (q v : β) : Prop where
  least : (∃ u ∈ bounds, u ≠ ⊤ ∧ q ≤ u) → IsLeast {u | u ∈ bounds ∧ q ≤ u} v
  greatest : (∀ u ∈ bounds, u ≠ ⊤ → u < q) → IsGreatest {u | u ∈ bounds ∧ u ≠ ⊤} v

theorem IsEstimate.congr {bounds bounds' : List β} {q v : β} (h : IsEstimate bounds q v)
    (hmem : ∀ u, u ∈ bounds ↔ u ∈ bounds') : IsEstimate bounds' q v := by
  have hleast : {u | u ∈ bounds' ∧ q ≤ u} = {u | u ∈ bounds ∧ q ≤ u} := by
    ext u
    exact and_congr_left' (hmem u).symm
  have hgreatest : {u | u ∈ bounds' ∧ u ≠ ⊤} = {u | u ∈ bounds ∧ u ≠ ⊤} := by
    ext u
    exact and_congr_left' (hmem u).symm
  refine ⟨fun hsome => ?_, fun hall => ?_⟩
  · obtain ⟨u, hu, hrest⟩ := hsome
    rw [hleast]
    exact h.least ⟨u, (hmem u).mpr hu, hrest⟩
  · rw [hgreatest]
    exact h.greatest fun u hu => hall u ((hmem u).mp hu)

omit [OrderTop β] in
theorem percentile_eq {observations : List β} (hne : observations ≠ []) {p : Rat} (hp : 0 < p)
    (hp' : p ≤ 1) :
    percentile observations p =
      (observations.insertionSort (· ≤ ·))[(⌈p * observations.length⌉ - 1).toNat]? := by
  have hvalid : ¬(observations = [] ∨ p ≤ 0 ∨ p > 1) := by
    rw [not_or, not_or]
    exact ⟨hne, not_le.mpr hp, not_lt.mpr hp'⟩
  unfold percentile
  rw [if_neg hvalid]
  simp only [List.length_insertionSort]

/-- The rank of a percentile is one of the ranks. -/
theorem rank_bounds {n : Nat} (hn : 0 < n) {p : Rat} (hp : 0 < p) (hp' : p ≤ 1) :
    1 ≤ ⌈p * n⌉ ∧ ⌈p * n⌉ ≤ n := by
  have hn' : (0 : Rat) < n := Nat.cast_pos.mpr hn
  constructor
  · exact Int.ceil_pos.mpr (mul_pos hp hn')
  · rw [Int.ceil_le]
    have hle : p * n ≤ 1 * n := mul_le_mul_of_nonneg_right hp' hn'.le
    simpa using hle

omit [OrderTop β] in
/-- Buckets that count observations are reached from the percentile on. -/
theorem reaching_percentile {buckets : List (Bucket β)} {observations : List β}
    (hnodup : (buckets.map Bucket.upper).Nodup)
    (hcount : ∀ item ∈ buckets, item.count = (observations.countP (· ≤ item.upper) : Nat))
    (hne : observations ≠ []) {p : Rat} (hp : 0 < p) (hp' : p ≤ 1) :
    ∃ q, percentile observations p = some q ∧
      Reaching ⌈p * observations.length⌉ q
        (buckets.insertionSort fun a b => a.upper ≤ b.upper) := by
  let ordered := observations.insertionSort (· ≤ ·)
  let sorted := buckets.insertionSort fun a b => a.upper ≤ b.upper
  have hperm : sorted.Perm buckets := List.perm_insertionSort ..
  obtain ⟨hone, hlength⟩ := rank_bounds (List.length_pos_of_ne_nil hne) hp hp'
  have hindex : (⌈p * observations.length⌉ - 1).toNat < ordered.length := by
    rw [List.length_insertionSort]
    omega
  obtain ⟨q, hq⟩ : ∃ q, ordered[(⌈p * observations.length⌉ - 1).toNat]? = some q :=
    ⟨_, List.getElem?_eq_getElem hindex⟩
  refine ⟨q, (percentile_eq hne hp hp').trans hq, ?_, ?_⟩
  · have hle : sorted.Pairwise fun a b => a.upper ≤ b.upper := List.pairwise_insertionSort ..
    have hdistinct : sorted.Pairwise fun a b => a.upper ≠ b.upper :=
      List.pairwise_map.mp ((hperm.map Bucket.upper).nodup_iff.mpr hnodup)
    exact hle.imp₂ (fun _ _ hab hne => lt_of_le_of_ne hab hne) hdistinct
  · intro item hitem
    have hordered : ordered.Pairwise (· ≤ ·) := List.pairwise_insertionSort ..
    have hcast : ∀ count : Nat, (⌈p * observations.length⌉ : Rat) ≤ count ↔
        ⌈p * observations.length⌉ ≤ count := fun count => by
      rw [← Int.cast_natCast count, Int.cast_le]
    rw [NearestRank.le_iff_lt_countP hordered hq, (List.perm_insertionSort ..).countP_eq,
      hcount item (hperm.mem_iff.mp hitem), ge_iff_le, hcast]
    omega

/-- The estimate from buckets that count observations. -/
theorem bucketEstimate_exact [Zero β] {buckets : List (Bucket β)} {observations : List β}
    (hnodup : (buckets.map Bucket.upper).Nodup)
    (hcount : ∀ item ∈ buckets, item.count = (observations.countP (· ≤ item.upper) : Nat))
    (htop : ⊤ ∈ buckets.map Bucket.upper) (hfinite : ∃ item ∈ buckets, item.upper ≠ ⊤)
    (hne : observations ≠ []) {p : Rat} (hp : 0 < p) (hp' : p ≤ 1) :
    ∃ q v, percentile observations p = some q ∧ bucketEstimate buckets p = some v ∧
      IsEstimate (buckets.map Bucket.upper) q v := by
  obtain ⟨q, hq, hreaching⟩ := reaching_percentile hnodup hcount hne hp hp'
  let sorted := buckets.insertionSort fun a b => a.upper ≤ b.upper
  have hperm : sorted.Perm buckets := List.perm_insertionSort ..
  have hmem : ∀ u, u ∈ sorted.map Bucket.upper ↔ u ∈ buckets.map Bucket.upper :=
    fun u => (hperm.map _).mem_iff
  -- the last bucket is `+Inf`, and counts everything
  have htotal : (sorted.getLast?.map Bucket.count).getD 0 = observations.length := by
    obtain ⟨item, hitem, hupper⟩ := List.mem_map.mp ((hmem ⊤).mpr htop)
    have hsorted : sorted ≠ [] := List.ne_nil_of_mem hitem
    have hlast : (sorted.getLast hsorted).upper = ⊤ := by
      rw [eq_top_iff, ← hupper]
      have hle : sorted.Pairwise fun a b => a.upper ≤ b.upper :=
        hreaching.sorted.imp fun hlt => hlt.le
      exact hle.rel_getLast hitem
    rw [List.getLast?_eq_some_getLast hsorted, Option.map_some, Option.getD_some,
      hcount _ (hperm.mem_iff.mp (List.getLast_mem hsorted)), hlast]
    simp
  have hpos : ¬((observations.length : Rat) ≤ 0) :=
    not_le.mpr (Nat.cast_pos.mpr (List.length_pos_of_ne_nil hne))
  have hestimate : bucketEstimate buckets p = reachRank ⌈p * observations.length⌉ 0 sorted := by
    show (if (sorted.getLast?.map Bucket.count).getD 0 ≤ 0 then none
      else reachRank ⌈p * (sorted.getLast?.map Bucket.count).getD 0⌉ 0 sorted) = _
    rw [htotal, if_neg hpos]
  suffices hsorted : ∃ v, reachRank ⌈p * observations.length⌉ 0 sorted = some v ∧
      IsEstimate (sorted.map Bucket.upper) q v by
    obtain ⟨v, hv, hisEstimate⟩ := hsorted
    exact ⟨q, v, hq, hestimate.trans hv, hisEstimate.congr hmem⟩
  by_cases hreached : ∃ item ∈ sorted, item.upper ≠ ⊤ ∧ q ≤ item.upper
  · obtain ⟨v, hv, hleast⟩ := reachRank_least hreaching hreached 0
    refine ⟨v, hv, fun _ => hleast, fun hall => ?_⟩
    obtain ⟨item, hitem, hne, hle⟩ := hreached
    exact absurd hle (not_le.mpr (hall item.upper (List.mem_map_of_mem hitem) hne))
  · have hunreached : ∀ item ∈ sorted, item.upper ≠ ⊤ → ¬q ≤ item.upper :=
      fun item hitem hne hle => hreached ⟨item, hitem, hne, hle⟩
    obtain ⟨v, hv, hgreatest, -, hfrom⟩ :=
      reachRank_greatest hreaching ((hmem ⊤).mpr htop) hunreached 0
    obtain ⟨item, hitem, hupper⟩ := hfinite
    obtain ⟨item', hitem', hne', rfl⟩ := hfrom ⟨item, hperm.mem_iff.mpr hitem, hupper⟩
    refine ⟨item'.upper, hv, fun hsome => ?_, fun _ => ⟨⟨List.mem_map_of_mem hitem', hne'⟩, ?_⟩⟩
    · obtain ⟨u, hu, hne, hle⟩ := hsome
      obtain ⟨b, hb, rfl⟩ := List.mem_map.mp hu
      exact absurd hle (hunreached b hb hne)
    · intro u hu
      obtain ⟨b, hb, rfl⟩ := List.mem_map.mp hu.1
      exact hgreatest b hb hu.2

namespace RecordedHistogram

variable {parseFloat : Text → Option β} {run : RecordedHistogram parseFloat}
  {before after : Snapshot Rat} {base : Text}

/-- The bounds of the run, as numbers. -/
def uppers (run : RecordedHistogram parseFloat) : List β := run.bounds.map Prod.snd

theorem mem_bounds_of_consumed (hafter : Holds after (bucketName base) (run.seriesAfter base))
    {bound : β × Text} (h : bound ∈ consumedBounds parseFloat after base) :
    (bound.2, bound.1) ∈ run.bounds := by
  obtain ⟨t, ht, hname, hread, hle⟩ :=
    (considered_consumedBounds parseFloat after base).exists_series bound h
  obtain ⟨listed, hlisted, hsame⟩ := hafter.exists_listed ht hname
  obtain ⟨s, -, bound', hbound', rfl⟩ := mem_seriesAfter.mp hlisted
  have htext : bound'.1 = bound.2 := by
    rw [← hle, hsame.le_eq, le_bucketSeries]
  have hupper : bound'.2 = bound.1 := by
    have hread' := run.bounds_read bound' hbound'
    rw [htext, ← hle, hread] at hread'
    exact (Option.some.inj hread').symm
  rw [← htext, ← hupper]
  exact hbound'

theorem consumed_of_mem_bounds (hafter : Holds after (bucketName base) (run.seriesAfter base))
    (hne : run.observations ≠ []) {bound : Text × β} (hbound : bound ∈ run.bounds) :
    bound.2 ∈ (consumedBounds parseFloat after base).map Prod.fst := by
  obtain ⟨x, hx⟩ := List.exists_mem_of_ne_nil _ hne
  obtain ⟨s, hs, -⟩ := List.mem_flatMap.mp hx
  have hmem : bucketSeries base s.labels (s.before.getD [] ++ s.during) bound ∈
      run.seriesAfter base := mem_seriesAfter.mpr ⟨s, hs, bound, hbound, rfl⟩
  obtain ⟨t, ht, hname, hsame⟩ := hafter.exists_read hmem
  apply (considered_consumedBounds parseFloat after base).mem t ht hname
  rw [hsame.le_eq, le_bucketSeries]
  exact run.bounds_read bound hbound

end RecordedHistogram

/-! ## A histogram of two label sets -/

/-- The snapshot that a list of series makes. -/
def snapshotOf (series : List (Series Rat)) : Snapshot Rat :=
  series.foldl (fun snapshot s => snapshot.set (key s.name s.labels) s) .empty

theorem keyed_snapshotOf (series : List (Series Rat)) : Keyed (snapshotOf series) := by
  have hfold : ∀ (rest : List (Series Rat)) (snapshot : Snapshot Rat), Keyed snapshot →
      Keyed (rest.foldl (fun snapshot s => snapshot.set (key s.name s.labels) s) snapshot) := by
    intro rest
    induction rest with
    | nil => exact fun _ h => h
    | cons s rest ih =>
      intro snapshot h
      apply ih
      intro k t ht
      rw [Dict.get?_set] at ht
      by_cases hk : key s.name s.labels = k
      · rw [if_pos hk] at ht
        cases ht
        exact hk.symm
      · rw [if_neg hk] at ht
        exact h k t ht
  apply hfold series
  intro k t ht
  cases ht

theorem holds_snapshotOf {series : List (Series Rat)} {name : Text}
    (hkeys : (series.map fun s => key s.name s.labels).Nodup)
    (hname : ∀ s ∈ series, s.name = name) : Holds (snapshotOf series) name series := by
  refine ⟨series, .refl _, ?_⟩
  rw [snapshotOf, values_foldl_set hkeys,
    List.filter_eq_self.mpr fun s hs => decide_eq_true (hname s hs)]
  exact List.forall₂_same.mpr fun s _ => ⟨rfl, fun _ => rfl, rfl⟩

/-- `strconv.ParseFloat`, on three bounds. -/
def readBound (text : Text) : Option (WithTop Nat) :=
  if text = "1".toList then some 1
  else if text = "2".toList then some 2
  else if text = "+Inf".toList then some ⊤
  else none

/-- A label set that was there before the run, and one that was not. -/
def sampleHistogram : RecordedHistogram readBound where
  bounds := [("1".toList, 1), ("2".toList, 2), ("+Inf".toList, ⊤)]
  series := [⟨.empty, some [2], [1, 2]⟩, ⟨oneLabel ['m'] ['x'], none, [2, 5]⟩]
  bounds_read := by decide
  bounds_nodup := by decide
  infinite := by decide
  finite := ⟨("1".toList, 1), by decide, by decide⟩
  noLe := by decide
  distinct := by decide

end Prometheus

end Gateway
