import Gateway.Lib.FlagSet
import Gateway.Lib.Strconv
import Gateway.Model.BenchmarkClient

/-!
# The benchmark command

`run` of `benchmark/cmd/gateway-bench/main.go`, from the command line to the result, with
`parseFlags` and `makeConfiguration`, `Load` of `benchmark/internal/workload/workload.go`, and the
structures of `benchmark/internal/results/results.go`. A result is the JSON value that its text
denotes. `none` stands for an exit with an error; infinities, NaN and the sign of a zero are
left out.

The packages `time`, `net/url` and `encoding/json`, SHA-256 and what the run sees of the world are
parameters, with `Fingerprint` and `loadNonSecretJSON`. The other files that the run writes are
left out.
-/

namespace Gateway.GatewayBench

open StreamClient (Bytes Decoders Exchange Result StreamClock isStreaming seconds milliseconds)

/-! ## The command line -/

/-- `options` -/
structure Options where
  baseUrl : String
  endpoint : String
  model : String
  dataset : String
  mode : String
  concurrency : Int
  requests : Int
  warmup : Int
  timeout : Int
  label : String
  output : String
  temperature : Rat
  topP : Rat
  maxTokens : Int
  seed : Int
  gatewayMetricsUrl : String
  vllmMetricsUrl : String
  sampleInterval : Int
  gpuSampleInterval : Int
  outputTokenCounter : String
  runId : String
  repeatIndex : Int
  executionOrder : Int
  batchingEnabled : String
  batchMaxSize : Int
  batchMaxWait : Rat
  tenantMaxInflight : Int
  globalMaxInflight : Int
  prefixCaching : String
  gatewayVersion : String
  gatewayGitSha : String
  vllmVersion : String
  vllmConfigPath : String
  gatewayConfigPath : String
  environmentPath : String
deriving DecidableEq

/-- `harnessVersion` -/
def harnessVersion : String := "0.9.0"

/-- The defaults of the flags; a duration is in nanoseconds. -/
def defaults : Options where
  baseUrl := ""
  endpoint := "/v1/chat/completions"
  model := ""
  dataset := ""
  mode := "non_streaming"
  concurrency := 1
  requests := 200
  warmup := 20
  timeout := 120 * 10 ^ 9
  label := ""
  output := ""
  temperature := 0
  topP := 1
  maxTokens := 128
  seed := 1
  gatewayMetricsUrl := ""
  vllmMetricsUrl := ""
  sampleInterval := 0
  gpuSampleInterval := 0
  outputTokenCounter := ""
  runId := ""
  repeatIndex := 1
  executionOrder := 1
  batchingEnabled := "not_applicable"
  batchMaxSize := 0
  batchMaxWait := 0
  tenantMaxInflight := 0
  globalMaxInflight := 0
  prefixCaching := "unknown"
  gatewayVersion := harnessVersion
  gatewayGitSha := ""
  vllmVersion := "unknown"
  vllmConfigPath := ""
  gatewayConfigPath := ""
  environmentPath := ""

open FlagSet (Flag)

/-- `StringVar` -/
def stringVar (name : String) (set : String → Options → Options) : Flag Options :=
  ⟨name, fun value options => some (set value options)⟩

/-- `IntVar` -/
def intVar (name : String) (set : Int → Options → Options) : Flag Options :=
  ⟨name, fun value options => (Strconv.parseInt value.toList).map fun n => set n options⟩

/-- `Float64Var` -/
def float64Var (name : String) (set : Rat → Options → Options) : Flag Options :=
  ⟨name, fun value options => (Strconv.parseFloat value.toList).map fun x => set x options⟩

/-- `DurationVar`, with `time.ParseDuration` -/
def durationVar (parseDuration : String → Option Int) (name : String)
    (set : Int → Options → Options) : Flag Options :=
  ⟨name, fun value options => (parseDuration value).map fun d => set d options⟩

/-- The flags of `parseFlags`. -/
def flags (parseDuration : String → Option Int) : List (Flag Options) :=
  [stringVar "base-url" fun v o => { o with baseUrl := v },
    stringVar "endpoint" fun v o => { o with endpoint := v },
    stringVar "model" fun v o => { o with model := v },
    stringVar "dataset" fun v o => { o with dataset := v },
    stringVar "mode" fun v o => { o with mode := v },
    intVar "concurrency" fun v o => { o with concurrency := v },
    intVar "requests" fun v o => { o with requests := v },
    intVar "warmup" fun v o => { o with warmup := v },
    durationVar parseDuration "timeout" fun v o => { o with timeout := v },
    stringVar "label" fun v o => { o with label := v },
    stringVar "output" fun v o => { o with output := v },
    float64Var "temperature" fun v o => { o with temperature := v },
    float64Var "top-p" fun v o => { o with topP := v },
    intVar "max-tokens" fun v o => { o with maxTokens := v },
    intVar "seed" fun v o => { o with seed := v },
    stringVar "gateway-metrics-url" fun v o => { o with gatewayMetricsUrl := v },
    stringVar "vllm-metrics-url" fun v o => { o with vllmMetricsUrl := v },
    durationVar parseDuration "sample-interval" fun v o => { o with sampleInterval := v },
    durationVar parseDuration "gpu-sample-interval" fun v o => { o with gpuSampleInterval := v },
    stringVar "output-token-counter" fun v o => { o with outputTokenCounter := v },
    stringVar "run-id" fun v o => { o with runId := v },
    intVar "repeat" fun v o => { o with repeatIndex := v },
    intVar "execution-order" fun v o => { o with executionOrder := v },
    stringVar "batching-enabled" fun v o => { o with batchingEnabled := v },
    intVar "batch-max-size" fun v o => { o with batchMaxSize := v },
    float64Var "batch-max-wait-seconds" fun v o => { o with batchMaxWait := v },
    intVar "tenant-max-inflight" fun v o => { o with tenantMaxInflight := v },
    intVar "global-max-inflight" fun v o => { o with globalMaxInflight := v },
    stringVar "prefix-caching" fun v o => { o with prefixCaching := v },
    stringVar "gateway-version" fun v o => { o with gatewayVersion := v },
    stringVar "gateway-git-sha" fun v o => { o with gatewayGitSha := v },
    stringVar "vllm-version" fun v o => { o with vllmVersion := v },
    stringVar "vllm-config" fun v o => { o with vllmConfigPath := v },
    stringVar "gateway-config" fun v o => { o with gatewayConfigPath := v },
    stringVar "environment" fun v o => { o with environmentPath := v }]

/-- `isFullGitSHA` -/
def isFullGitSha (value : String) : Bool :=
  value.length = 40 && value.toList.all Strconv.isHexDigit

/-- The checks of `parseFlags`; `urlAccepted` is that `url.Parse` finds no error, credentials,
query or fragment. -/
def accepted (urlAccepted : String → Bool) (o : Options) : Bool :=
  o.baseUrl ≠ "" && o.model ≠ "" && o.dataset ≠ "" && o.label ≠ "" && o.output ≠ "" &&
    (o.mode = "streaming" || o.mode = "non_streaming") &&
    0 < o.requests && 0 < o.concurrency && 0 ≤ o.warmup && 0 < o.maxTokens &&
    0 < o.repeatIndex && 0 < o.executionOrder &&
    o.batchingEnabled ∈ ["true", "false", "not_applicable"] &&
    (o.gatewayGitSha = "" || isFullGitSha o.gatewayGitSha) &&
    [o.baseUrl, o.gatewayMetricsUrl, o.vllmMetricsUrl].all fun target =>
      target = "" || urlAccepted target

/-- `parseFlags` -/
def parseFlags (parseDuration : String → Option Int) (urlAccepted : String → Bool)
    (arguments : List String) : Option Options := do
  let (options, rest) ← FlagSet.parse (flags parseDuration) defaults arguments
  if rest = [] ∧ accepted urlAccepted options then some options else none

/-! ## The corpus -/

/-- `Record`, with the role and the content of each message. -/
structure Record where
  id : String
  messages : List (String × String)
deriving DecidableEq

/-- `Corpus` -/
structure Corpus where
  records : List Record
  sha256 : String

/-- `maxRecordBytes` -/
def maxRecordBytes : Nat := 2 ^ 20

/-- The lines of a text, without their line feeds. -/
def scanLines (raw : Bytes) : List Bytes :=
  let lines := raw.splitOn SSE.lf
  if lines.getLast? = some [] then lines.dropLast else lines

/-- A message that `Load` accepts. -/
def messageAccepted (message : String × String) : Bool :=
  message.1 ∈ ["system", "user", "assistant"] && message.2 ≠ ""

/-- The loop of `Load`; `decode` is `json.Unmarshal`, and `blank` that `bytes.TrimSpace` leaves
nothing of a line. -/
def loadRecords (decode : Bytes → Option Record) (blank : Bytes → Bool) (seen : List String) :
    List Bytes → Option (List Record)
  | [] => some []
  | line :: lines =>
    if line.length ≥ maxRecordBytes then none
    else if blank (StreamClient.trimCr line) then loadRecords decode blank seen lines
    else do
      let record ← decode (StreamClient.trimCr line)
      if record.id = "" ∨ record.messages = [] ∨ record.id ∈ seen ∨
          !record.messages.all messageAccepted then none
      else
        let records ← loadRecords decode blank (record.id :: seen) lines
        some (record :: records)

/-! ## Results -/

/-- The members of an object. -/
abbrev Fields := List (String × Json)

/-- A member that is left out when it is empty. -/
def omitEmpty (key : String) (isEmpty : Bool) (value : Json) : Fields :=
  if isEmpty then [] else [(key, value)]

/-- The numeral of a `float64` that `encoding/json` writes: in fixed-point notation from `1e-6`
up to `1e21`. -/
def floatNumeral (x : Rat) : Numeral :=
  Double.numeral (fun y => 1 / 10 ^ 6 ≤ y ∧ y < 10 ^ 21) x

theorem printable_floatNumeral (x : Rat) : (floatNumeral x).Printable :=
  Double.printable_numeral _ x

/-- A `float64`, as it is read back. -/
def floatJson (x : Rat) : Json := Json.ofNumeral (floatNumeral x) (printable_floatNumeral x)

/-- A `*float64` -/
def optionalFloat : Option Rat → Json
  | some x => floatJson x
  | none => .null

/-- `Metadata` -/
structure Metadata where
  runId : String
  timestampUtc : String
  label : String
  repeatIndex : Int
  executionOrder : Int

def Metadata.toJson (m : Metadata) : Json :=
  .obj [("run_id", .str m.runId), ("timestamp_utc", .str m.timestampUtc), ("label", .str m.label),
    ("repeat", .int m.repeatIndex), ("execution_order", .int m.executionOrder)]

/-- `Configuration`; its `Extra` is never set. -/
structure Configuration where
  baseUrl : String
  endpoint : String
  model : String
  mode : String
  concurrency : Int
  requests : Int
  warmup : Int
  timeoutSeconds : Rat
  datasetSha256 : String
  temperature : Rat
  topP : Rat
  maxTokens : Int
  seed : Int
  n : Int
  stream : Bool
  streamIncludeUsage : Bool
  batchingEnabled : String
  batchMaxSize : Int
  batchMaxWaitSeconds : Rat
  tenantMaxInflight : Int
  globalMaxInflight : Int
  prefixCaching : String
  workloadFingerprint : String
  gatewayFingerprint : String
  vllmFingerprint : String

/-- The members of a configuration. -/
def Configuration.fields (c : Configuration) : Fields :=
  [("base_url", .str c.baseUrl), ("endpoint", .str c.endpoint), ("model", .str c.model),
    ("mode", .str c.mode), ("concurrency", .int c.concurrency), ("requests", .int c.requests),
    ("warmup", .int c.warmup), ("timeout_seconds", floatJson c.timeoutSeconds),
    ("dataset_sha256", .str c.datasetSha256), ("temperature", floatJson c.temperature),
    ("top_p", floatJson c.topP), ("max_tokens", .int c.maxTokens), ("seed", .int c.seed),
    ("n", .int c.n), ("stream", .bool c.stream),
    ("stream_include_usage", .bool c.streamIncludeUsage),
    ("batching_enabled", .str c.batchingEnabled)] ++
    omitEmpty "batch_max_size" (c.batchMaxSize = 0) (.int c.batchMaxSize) ++
    omitEmpty "batch_max_wait_seconds" (c.batchMaxWaitSeconds = 0)
      (floatJson c.batchMaxWaitSeconds) ++
    omitEmpty "tenant_max_inflight" (c.tenantMaxInflight = 0) (.int c.tenantMaxInflight) ++
    omitEmpty "global_max_inflight" (c.globalMaxInflight = 0) (.int c.globalMaxInflight) ++
    [("prefix_caching", .str c.prefixCaching), ("workload_fingerprint", .str c.workloadFingerprint),
      ("gateway_config_fingerprint", .str c.gatewayFingerprint),
      ("vllm_config_fingerprint", .str c.vllmFingerprint)]

theorem getField_omitEmpty (key key' : String) (isEmpty : Bool) (value : Json) :
    Json.getField (omitEmpty key isEmpty value) key' =
      if isEmpty = false ∧ key = key' then some value else none := by
  cases isEmpty <;> simp [omitEmpty, Json.getField_cons]

/-- A limit of zero is left out. -/
theorem Configuration.getField_limits (c : Configuration) :
    Json.getField c.fields "batch_max_size" =
        (if c.batchMaxSize = 0 then none else some (.int c.batchMaxSize)) ∧
      Json.getField c.fields "batch_max_wait_seconds" =
        (if c.batchMaxWaitSeconds = 0 then none else some (floatJson c.batchMaxWaitSeconds)) ∧
      Json.getField c.fields "tenant_max_inflight" =
        (if c.tenantMaxInflight = 0 then none else some (.int c.tenantMaxInflight)) ∧
      Json.getField c.fields "global_max_inflight" =
        (if c.globalMaxInflight = 0 then none else some (.int c.globalMaxInflight)) := by
  refine ⟨?_, ?_, ?_, ?_⟩
  all_goals simp [fields, Json.getField_append, Json.getField_cons, getField_omitEmpty]

/-- The fields after the limits are always there. -/
theorem Configuration.getField_last (c : Configuration) :
    Json.getField c.fields "prefix_caching" = some (.str c.prefixCaching) ∧
      Json.getField c.fields "workload_fingerprint" = some (.str c.workloadFingerprint) ∧
      Json.getField c.fields "gateway_config_fingerprint" = some (.str c.gatewayFingerprint) ∧
      Json.getField c.fields "vllm_config_fingerprint" = some (.str c.vllmFingerprint) := by
  refine ⟨?_, ?_, ?_, ?_⟩
  all_goals simp [fields, Json.getField_append, Json.getField_cons, getField_omitEmpty]

/-- The configuration that `makeConfiguration` returns, with its fingerprints. -/
def configurationOf (o : Options) (corpus : Corpus)
    (workloadFingerprint gatewayFingerprint vllmFingerprint : String) : Configuration where
  baseUrl := o.baseUrl
  endpoint := o.endpoint
  model := o.model
  mode := o.mode
  concurrency := o.concurrency
  requests := o.requests
  warmup := o.warmup
  timeoutSeconds := seconds o.timeout
  datasetSha256 := corpus.sha256
  temperature := o.temperature
  topP := o.topP
  maxTokens := o.maxTokens
  seed := o.seed
  n := 1
  stream := isStreaming o.mode
  streamIncludeUsage := isStreaming o.mode
  batchingEnabled := o.batchingEnabled
  batchMaxSize := o.batchMaxSize
  batchMaxWaitSeconds := o.batchMaxWait
  tenantMaxInflight := o.tenantMaxInflight
  globalMaxInflight := o.globalMaxInflight
  prefixCaching := o.prefixCaching
  workloadFingerprint := workloadFingerprint
  gatewayFingerprint := gatewayFingerprint
  vllmFingerprint := vllmFingerprint

/-- `makeConfiguration` -/
def makeConfiguration (fingerprint : Json → Option String) (o : Options) (corpus : Corpus)
    (gatewayConfig vllmConfig : Json) : Option Configuration := do
  let workloadFingerprint ← fingerprint (.obj
    [("dataset_sha256", .str corpus.sha256), ("model", .str o.model), ("mode", .str o.mode),
      ("temperature", floatJson o.temperature), ("top_p", floatJson o.topP),
      ("max_tokens", .int o.maxTokens), ("seed", .int o.seed), ("n", .int 1),
      ("requests", .int o.requests), ("concurrency", .int o.concurrency)])
  let gatewayFingerprint ← fingerprint (.obj
    [("launch_configuration", gatewayConfig), ("gateway_version", .str o.gatewayVersion),
      ("gateway_git_sha", .str o.gatewayGitSha), ("batching_enabled", .str o.batchingEnabled),
      ("batch_max_size", .int o.batchMaxSize),
      ("batch_max_wait_seconds", floatJson o.batchMaxWait),
      ("tenant_max_inflight", .int o.tenantMaxInflight),
      ("global_max_inflight", .int o.globalMaxInflight)])
  let vllmFingerprint ← fingerprint (.obj
    [("launch_configuration", vllmConfig), ("version", .str o.vllmVersion),
      ("prefix_caching", .str o.prefixCaching)])
  some (configurationOf o corpus workloadFingerprint gatewayFingerprint vllmFingerprint)

/-- `Timing` -/
structure Timing where
  measuredStartUtc : String
  measuredEndUtc : String
  durationSeconds : Rat

def Timing.toJson (t : Timing) : Json :=
  .obj [("measured_start_utc", .str t.measuredStartUtc),
    ("measured_end_utc", .str t.measuredEndUtc),
    ("duration_seconds", floatJson t.durationSeconds)]

/-- `WarmupSummary` -/
structure WarmupSummary where
  attempted : Nat
  success : Nat
  failed : Nat
deriving DecidableEq

/-- The summary of the results of a warmup. -/
def warmupSummary (results : List Result) : WarmupSummary where
  attempted := results.length
  success := (results.filter (·.success)).length
  failed := (results.filter fun result => !result.success).length

def WarmupSummary.toJson (w : WarmupSummary) : Json :=
  .obj [("attempted", .int w.attempted), ("success", .int w.success), ("failed", .int w.failed)]

def latenciesJson (l : StreamClient.Latencies) : Json :=
  .obj [("p50_ms", optionalFloat l.p50), ("p90_ms", optionalFloat l.p90),
    ("p95_ms", optionalFloat l.p95), ("p99_ms", optionalFloat l.p99)]

/-- The members of a summary. -/
def summaryFields (s : StreamClient.Summary) (t : Prometheus.ThroughputSummary) : Fields :=
  [("attempted", .int s.attempted), ("successful", .int s.successful), ("failed", .int s.failed),
    ("error_rate", floatJson s.errorRate),
    ("errors_by_category", .obj (s.errorsByCategory.map fun e => (e.1, .int e.2))),
    ("e2e", latenciesJson s.e2e), ("ttft", (s.ttft.map latenciesJson).getD .null),
    ("request_throughput_rps", floatJson s.requestThroughputRps),
    ("output_throughput_tps", optionalFloat t.outputThroughputTps)] ++
    omitEmpty "output_token_source" t.outputTokenSource.isEmpty
      (.str (String.ofList t.outputTokenSource)) ++
    [("authoritative_token_coverage", .int s.authoritativeTokenCoverage)]

/-- The members of a result of `Do`. -/
def requestFields (r : Result) : Fields :=
  [("sequence", .int r.sequence), ("request_id", .str r.requestId),
    ("start_offset_ms", floatJson (milliseconds r.startOffset)),
    ("e2e_ms", floatJson (milliseconds r.endToEnd)),
    ("ttft_ms", optionalFloat (r.ttft.map milliseconds)), ("http_status", .int r.httpStatus),
    ("success", .bool r.success)] ++
    omitEmpty "error_category" (r.errorCategory = "") (.str r.errorCategory) ++
    omitEmpty "error_code" (r.errorCode = "") (.str r.errorCode) ++
    [("response_bytes", .int r.responseBytes),
      ("completion_tokens", (r.completionTokens.map .int).getD .null)]

/-- `Artifacts`, by what is sampled. -/
def artifactFields (o : Options) (gpuSampled : Bool) : Fields :=
  [("manifest", .str "manifest.json"), ("summary", .str "summary.json")] ++
    omitEmpty "gateway_before" (o.gatewayMetricsUrl = "") (.str "gateway-before.prom") ++
    omitEmpty "gateway_after" (o.gatewayMetricsUrl = "") (.str "gateway-after.prom") ++
    omitEmpty "vllm_before" (o.vllmMetricsUrl = "") (.str "vllm-before.prom") ++
    omitEmpty "vllm_after" (o.vllmMetricsUrl = "") (.str "vllm-after.prom") ++
    [("samples", .str "samples.csv")] ++ omitEmpty "gpu" (!gpuSampled) (.str "gpu.csv")

def validityFields (v : Prometheus.Validity) : Fields :=
  [("valid", .bool v.valid), ("reasons", .arr (v.reasons.map fun r => .str (String.ofList r)))]

variable {β : Type}

/-- `Result` of the package `results`; the fields of the output throughput are apart. -/
structure BenchResult (β : Type) where
  metadata : Metadata
  configuration : Configuration
  timing : Timing
  warmup : WarmupSummary
  summary : StreamClient.Summary
  throughput : Prometheus.ThroughputSummary
  perRequest : List Result
  metrics : Prometheus.MetricsSummary β
  artifacts : Fields
  environment : Fields
  validity : Prometheus.Validity

/-- The members of a result. -/
def BenchResult.fields (metricsFields : Prometheus.MetricsSummary β → Fields)
    (r : BenchResult β) : Fields :=
  [("schema_version", .int 1), ("metadata", r.metadata.toJson),
    ("configuration", .obj r.configuration.fields), ("timing", r.timing.toJson),
    ("warmup", r.warmup.toJson), ("summary", .obj (summaryFields r.summary r.throughput)),
    ("per_request", .arr (r.perRequest.map fun request => .obj (requestFields request))),
    ("metrics", .obj (metricsFields r.metrics)), ("metric_artifacts", .obj r.artifacts),
    ("environment", .obj r.environment), ("validity", .obj (validityFields r.validity))]

/-! ## The run -/

/-- What the run asks the packages and the file system for. -/
structure Host (β : Type) where
  parseDuration : String → Option Int
  urlAccepted : String → Bool
  /-- `New` of the client accepts the base URL -/
  baseUrlAccepted : String → Bool
  readFile : String → Option ByteArray
  /-- SHA-256 in hexadecimal -/
  sha256 : ByteArray → String
  decodeRecord : Bytes → Option Record
  isBlank : Bytes → Bool
  decoders : Decoders
  fingerprint : Json → Option String
  loadNonSecretJson : String → Option Json
  parseFloat : Text → Option β
  toMilliseconds : β → β

/-- A request of the run: when it starts, its clock and what it meets. -/
structure Attempt where
  startOffset : Int
  clock : StreamClock
  exchange : Exchange

/-- What the run sees of the world. -/
structure Observation where
  /-- the time of `NewMetadata`, in the format of a run's name and in that of a timestamp -/
  stamp : String
  timestampUtc : String
  startedUtc : String
  endedUtc : String
  duration : Int
  warmup : Nat → Attempt
  measured : Nat → Attempt
  before : Dict Text (Prometheus.Snapshot Rat)
  after : Dict Text (Prometheus.Snapshot Rat)
  gpuSampled : Bool
  /-- `buildEnvironment`, of what the operator recorded -/
  environment : Json → Fields

/-- `NewMetadata` -/
def newMetadata (seen : Observation) (o : Options) : Metadata where
  runId := if o.runId = "" then seen.stamp ++ "-" ++ o.label else o.runId
  timestampUtc := seen.timestampUtc
  label := o.label
  repeatIndex := o.repeatIndex
  executionOrder := o.executionOrder

/-- `Load` -/
def load (host : Host β) (path : String) : Option Corpus := do
  let raw ← host.readFile path
  let records ← loadRecords host.decodeRecord host.isBlank [] (scanLines raw.data.toList)
  if records = [] then none else some ⟨records, host.sha256 raw⟩

/-- The results of a phase: the index of a result is the index of its request. -/
def phaseResults (host : Host β) (mode : String) (corpus : Corpus) (persisted : Nat → Int)
    (attempts : Nat → Attempt) (count : Nat) : List Result :=
  (List.range count).map fun sequence =>
    let record := corpus.records[sequence % corpus.records.length]?
    let attempt := attempts sequence
    StreamClient.doRequest mode host.decoders attempt.clock (persisted sequence)
      ((record.map (·.id)).getD "") attempt.startOffset attempt.exchange

/-- The validity that a run begins with. -/
def initialValidity (attempted : Nat) (vllmConfigPath : String) : Prometheus.Validity :=
  let validity : Prometheus.Validity :=
    if 0 < attempted then ⟨true, []⟩ else ⟨false, ["zero_measured_requests".toList]⟩
  if vllmConfigPath = "" then
    ⟨false, validity.reasons ++ ["vllm_launch_config_not_recorded".toList]⟩
  else validity

variable [LinearOrder β] [OrderTop β] [Zero β]

/-- `run` -/
def run (host : Host β) (seen : Observation) (arguments : List String) :
    Option (BenchResult β) := do
  let o ← parseFlags host.parseDuration host.urlAccepted arguments
  let corpus ← load host o.dataset
  if o.timeout ≤ 0 ∨ !host.baseUrlAccepted o.baseUrl then none
  else
    let warmup := phaseResults host o.mode corpus (fun i => -i - 1) seen.warmup o.warmup.toNat
    let requests := phaseResults host o.mode corpus (fun i => i) seen.measured o.requests.toNat
    let vllmConfig ← host.loadNonSecretJson o.vllmConfigPath
    let gatewayConfig ← host.loadNonSecretJson o.gatewayConfigPath
    let environmentExtra ← host.loadNonSecretJson o.environmentPath
    let configuration ← makeConfiguration host.fingerprint o corpus gatewayConfig vllmConfig
    let summary := StreamClient.summarize requests seen.duration
    let analyzed := Prometheus.analyzeMetrics host.parseFloat host.toMilliseconds seen.before
      seen.after o.outputTokenCounter.toList (seconds seen.duration)
      (StreamClient.clientThroughput requests seen.duration)
      (initialValidity summary.attempted o.vllmConfigPath)
    some
      { metadata := newMetadata seen o
        configuration := configuration
        timing := ⟨seen.startedUtc, seen.endedUtc, seconds seen.duration⟩
        warmup := warmupSummary warmup
        summary := summary
        throughput := analyzed.2.1
        perRequest := requests
        metrics := analyzed.1
        artifacts := artifactFields o seen.gpuSampled
        environment := seen.environment environmentExtra
        validity := analyzed.2.2 }

end Gateway.GatewayBench
