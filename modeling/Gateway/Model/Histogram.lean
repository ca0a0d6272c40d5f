import Gateway.Model.Prometheus
import Mathlib.Data.Rat.Floor
import Mathlib.Order.BoundedOrder.Basic

/-!
# Histogram estimates

`HistogramMean` and `HistogramPercentile` of `benchmark/internal/metrics/prometheus.go`, and
`Percentile` of `benchmark/internal/stats/stats.go`. Bounds and observations are of some
ordered type with a greatest element, which is `+Inf`; `NaN` is left out. The loop over the
series of a snapshot goes in the order of the dictionary, which is any order.
-/

namespace Gateway

namespace Prometheus

/-- `HistogramMean`: the mean, and whether a counter was reset. -/
def histogramMean (before after : Snapshot Rat) (base : Text) : Option Rat × Bool :=
  let sum := counterDelta before after (base ++ "_sum".toList) .empty
  let count := counterDelta before after (base ++ "_count".toList) .empty
  if sum.reset || count.reset then (none, true)
  else if !sum.found || !count.found || count.value ≤ 0 then (none, false)
  else (some (sum.value / count.value), false)

/-- The name of the series of a histogram's buckets. -/
def bucketName (base : Text) : Text := base ++ "_bucket".toList

/-- `series.Labels["le"]` -/
def Series.le {ν : Type} (series : Series ν) : Text := (series.labels.get? "le".toList).getD []

/-- `map[string]string{name: value}` -/
def oneLabel (name value : Text) : Dict Text Text := Dict.empty.set name value

/-- `CounterDelta` of the series of one bucket. -/
def bucketDelta (before after : Snapshot Rat) (base le : Text) : Delta :=
  counterDelta before after (bucketName base) (oneLabel "le".toList le)

variable {β : Type}

/-- `bucket` -/
structure Bucket (β : Type) where
  upper : β
  count : Rat

/-- The state of the first loop of `HistogramPercentile`. -/
structure BucketScan (β : Type) where
  seen : List β
  reset : Bool
  buckets : List (Bucket β)

variable [LinearOrder β]

/-- The body of the first loop. -/
def scanSeries (parseFloat : Text → Option β) (before after : Snapshot Rat) (base : Text)
    (scan : BucketScan β) (series : Series Rat) : BucketScan β :=
  if series.name ≠ bucketName base then scan
  else
    match parseFloat series.le with
    | none => scan
    | some upper =>
      if upper ∈ scan.seen then scan
      else
        let delta := bucketDelta before after base series.le
        { seen := scan.seen ++ [upper]
          reset := scan.reset || delta.reset
          buckets := if delta.found then scan.buckets ++ [⟨upper, delta.value⟩] else scan.buckets }

variable [OrderTop β]

/-- The second loop of `HistogramPercentile`. -/
def reachRank (rank : Int) (lastFinite : β) : List (Bucket β) → Option β
  | [] => none
  | item :: rest =>
    let lastFinite := if item.upper ≠ ⊤ then item.upper else lastFinite
    if item.count ≥ rank then
      if item.upper = ⊤ then some lastFinite else some item.upper
    else reachRank rank lastFinite rest

/-- `HistogramPercentile` after its first loop. -/
def bucketEstimate [Zero β] (buckets : List (Bucket β)) (p : Rat) : Option β :=
  let buckets := buckets.insertionSort fun a b => a.upper ≤ b.upper
  let total := (buckets.getLast?.map Bucket.count).getD 0
  if total ≤ 0 then none else reachRank ⌈p * total⌉ 0 buckets

/-- `HistogramPercentile`: the estimate, and whether a counter was reset. -/
def histogramPercentile [Zero β] (parseFloat : Text → Option β) (before after : Snapshot Rat)
    (base : Text) (p : Rat) : Option β × Bool :=
  let scan := after.values.foldl (scanSeries parseFloat before after base) ⟨[], false, []⟩
  if scan.reset || scan.buckets.isEmpty then (none, scan.reset)
  else (bucketEstimate scan.buckets p, false)

omit [OrderTop β] in
/-- `stats.Percentile` -/
def percentile (values : List β) (p : Rat) : Option β :=
  if values = [] ∨ p ≤ 0 ∨ p > 1 then none
  else
    let ordered := values.insertionSort (· ≤ ·)
    ordered[(⌈p * ordered.length⌉ - 1).toNat]?

end Prometheus

end Gateway
