import Gateway.Model.Histogram

/-!
# The metrics of a benchmark result

`analyzeMetrics` of `benchmark/cmd/gateway-bench/main.go`, with `markReset`, and
`Availability` of `benchmark/internal/results/results.go`. A snapshot that is not there is
`nil` in the source. Of the summary of the runner only the two fields are here that
`analyzeMetrics` writes.
-/

namespace Gateway

namespace Prometheus

/-- `gatewayMetrics` -/
def gatewayMetrics : List Text :=
  ["gateway_requests_total", "gateway_request_duration_seconds",
    "gateway_admission_queue_wait_seconds", "gateway_client_ttft_seconds",
    "gateway_backend_ttft_seconds", "gateway_observed_output_tokens_total",
    "gateway_token_accounting_requests_total", "gateway_errors_total",
    "gateway_batch_eligibility_total", "gateway_batches_total", "gateway_batch_size",
    "gateway_batch_wait_seconds", "gateway_admission_inflight", "gateway_admission_queued",
    "gateway_backend_healthy", "gateway_backend_inflight", "gateway_batch_pending",
    "gateway_batch_inflight"].map String.toList

/-- `vllmMetrics` -/
def vllmMetrics : List Text :=
  ["vllm:generation_tokens", "vllm:prompt_tokens", "vllm:request_success",
    "vllm:num_preemptions", "vllm:num_requests_running", "vllm:num_requests_waiting",
    "vllm:kv_cache_usage_perc", "vllm:time_to_first_token_seconds",
    "vllm:e2e_request_latency_seconds", "vllm:request_queue_time_seconds",
    "vllm:request_time_per_output_token_seconds"].map String.toList

/-- `Snapshot.Has`; a missing snapshot has no series. -/
def has (snapshot : Option (Snapshot Rat)) (name : Text) : Bool :=
  snapshot.any fun s => s.values.any fun series => series.name = name

/-- `metricFamilyAvailable` -/
def metricFamilyAvailable (snapshot : Snapshot Rat) (name : Text) : Bool :=
  has (some snapshot) name || has (some snapshot) (name ++ "_count".toList) ||
    has (some snapshot) (bucketName name)

/-- `Availability`: the names that are there, and those that are not. -/
def availability (expected : List Text) (has : Text → Bool) : List Text × List Text :=
  ((expected.filter has).insertionSort (· ≤ ·),
    (expected.filter fun name => !has name).insertionSort (· ≤ ·))

/-- `Validity` -/
structure Validity where
  valid : Bool
  reasons : List Text
deriving DecidableEq

/-- `markReset` -/
def markReset (reset : Bool) (metric : Text) (validity : Validity) : Validity :=
  if !reset then validity
  else
    let reason := "invalid_counter_reset:".toList ++ metric
    if reason ∈ validity.reasons then { validity with valid := false }
    else ⟨false, validity.reasons ++ [reason]⟩

/-- `BatchSummary` -/
structure BatchSummary (β : Type) where
  meanSize : Option Rat
  sizeP95 : Option β
  waitP95Ms : Option β
  queueWaitP95Ms : Option β
  sizeFlushes : Option Rat
  timeoutFlushes : Option Rat

/-- An entry of `CounterDeltas`. -/
inductive CounterEntry
  /-- `map[string]any{"missing": true}` -/
  | missing
  | delta (delta : Delta)

/-- `MetricsSummary` -/
structure MetricsSummary (β : Type) where
  gatewayAvailable : List Text
  gatewayMissing : List Text
  vllmAvailable : List Text
  vllmMissing : List Text
  counterDeltas : List (Text × CounterEntry)
  batch : Option (BatchSummary β)

/-- The fields of `runner.Summary` that `analyzeMetrics` writes. -/
structure ThroughputSummary where
  outputThroughputTps : Option Rat
  outputTokenSource : Text
deriving DecidableEq

variable {β : Type} [LinearOrder β] [OrderTop β] [Zero β]

/-- `0.95` -/
def p95 : Rat := 95 / 100

/-- The part of `analyzeMetrics` about batches; `toMilliseconds` multiplies by a thousand. -/
def analyzeBatches (parseFloat : Text → Option β) (toMilliseconds : β → β)
    (before after : Snapshot Rat) (validity : Validity) : BatchSummary β × Validity :=
  let mean := histogramMean before after "gateway_batch_size".toList
  let validity := markReset mean.2 "gateway_batch_size".toList validity
  let size := histogramPercentile parseFloat before after "gateway_batch_size".toList p95
  let validity := markReset size.2 "gateway_batch_size".toList validity
  let wait := histogramPercentile parseFloat before after "gateway_batch_wait_seconds".toList p95
  let validity := markReset wait.2 "gateway_batch_wait_seconds".toList validity
  let queueWait := histogramPercentile parseFloat before after
    "gateway_admission_queue_wait_seconds".toList p95
  let validity := markReset queueWait.2 "gateway_admission_queue_wait_seconds".toList validity
  let sizeFlushes := counterDelta before after "gateway_batches_total".toList
    (oneLabel "flush_reason".toList "size".toList)
  let timeoutFlushes := counterDelta before after "gateway_batches_total".toList
    (oneLabel "flush_reason".toList "timeout".toList)
  let validity := markReset sizeFlushes.reset "gateway_batches_total".toList validity
  let validity := markReset timeoutFlushes.reset "gateway_batches_total".toList validity
  ({ meanSize := mean.1
     sizeP95 := size.1
     waitP95Ms := wait.1.map toMilliseconds
     queueWaitP95Ms := queueWait.1.map toMilliseconds
     sizeFlushes := if sizeFlushes.found && !sizeFlushes.reset then some sizeFlushes.value else none
     timeoutFlushes :=
       if timeoutFlushes.found && !timeoutFlushes.reset then some timeoutFlushes.value else none },
    validity)

/-- The source of the output counter: the first snapshot that has it. -/
def counterSource (after : Dict Text (Snapshot Rat)) (outputCounter : Text) : Option Text :=
  ["gateway".toList, "vllm".toList].find? fun candidate => has (after.get? candidate) outputCounter

/-- `"prometheus_counter:" + outputCounter` -/
def prometheusSource (outputCounter : Text) : Text := "prometheus_counter:".toList ++ outputCounter

/-- The part of `analyzeMetrics` about the output counter. -/
def analyzeOutput (before after : Dict Text (Snapshot Rat)) (outputCounter : Text)
    (durationSeconds : Rat) (summary : ThroughputSummary) (validity : Validity) :
    List (Text × CounterEntry) × ThroughputSummary × Validity :=
  if outputCounter = [] then ([], summary, validity)
  else
    match counterSource after outputCounter with
    | none =>
      ([(outputCounter, .missing)], summary,
        ⟨false, validity.reasons ++ ["output_token_counter_missing".toList]⟩)
    | some source =>
      let delta := counterDelta ((before.get? source).getD .empty) ((after.get? source).getD .empty)
        outputCounter .empty
      let entries := [(outputCounter, CounterEntry.delta delta)]
      if delta.reset then (entries, ⟨none, []⟩, markReset true outputCounter validity)
      else if delta.found && !delta.missing && 0 < durationSeconds then
        (entries, ⟨some (delta.value / durationSeconds), prometheusSource outputCounter⟩, validity)
      else (entries, summary, validity)

/-- `analyzeMetrics` -/
def analyzeMetrics (parseFloat : Text → Option β) (toMilliseconds : β → β)
    (before after : Dict Text (Snapshot Rat)) (outputCounter : Text) (durationSeconds : Rat)
    (summary : ThroughputSummary) (validity : Validity) :
    MetricsSummary β × ThroughputSummary × Validity :=
  let gateway := after.get? "gateway".toList
  let gatewayNames := (gateway.map fun snapshot =>
    availability gatewayMetrics (metricFamilyAvailable snapshot)).getD ([], [])
  let batch := gateway.map fun snapshot =>
    analyzeBatches parseFloat toMilliseconds ((before.get? "gateway".toList).getD .empty) snapshot
      validity
  let validity := (batch.map Prod.snd).getD validity
  let vllmNames := ((after.get? "vllm".toList).map fun snapshot =>
    availability vllmMetrics (metricFamilyAvailable snapshot)).getD ([], [])
  let output := analyzeOutput before after outputCounter durationSeconds summary validity
  ({ gatewayAvailable := gatewayNames.1
     gatewayMissing := gatewayNames.2
     vllmAvailable := vllmNames.1
     vllmMissing := vllmNames.2
     counterDeltas := output.1
     batch := batch.map Prod.fst },
    output.2)

end Prometheus

end Gateway
