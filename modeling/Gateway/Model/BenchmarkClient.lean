import Gateway.Lib.Double
import Gateway.Model.MetricsAnalysis
import Gateway.Model.StreamClient

/-!
# One request of the benchmark, and the summary of all

`Do`, `readJSON`, `safeErrorCode` and `statusCategory` of `benchmark/internal/client/client.go`,
`summarize` of `benchmark/internal/runner/runner.go` and `Summarize` of
`benchmark/internal/stats/stats.go`. What the request meets is an `Exchange`;
`json.Unmarshal` into the structures of the source is a parameter. A double is the rational that
it is.
-/

namespace Gateway.StreamClient

/-- `Mode` is `Streaming`. -/
def isStreaming (mode : String) : Bool := mode = "streaming"

/-- What the request of `Do` meets. -/
inductive Exchange
  /-- the payload cannot be encoded -/
  | encodeError
  /-- the request cannot be built -/
  | buildError
  /-- there is no response, possibly for a timeout -/
  | transportError (timeout : Bool)
  /-- a response: its status, what `io.ReadAll` makes of the limited body and whether it fails,
  and what `ReadSlice` makes of the body -/
  | response (status : Int) (raw : Bytes) (readFailed : Bool) (slices : List Slice)

/-- What `json.Unmarshal` makes of a payload; `none` is an error. -/
structure Decoders where
  /-- an event of a stream -/
  event : Bytes → Option StreamEvent
  /-- the `completion_tokens` of the usage of a response -/
  usage : Bytes → Option (Option Int)
  /-- the `code` of an error -/
  errorCode : Bytes → Option String

/-- `maxResponseBytes` -/
def maxResponseBytes : Nat := 16 * 2 ^ 20

/-- `defaultSSELimit` -/
def defaultSseLimit : Int := 2 ^ 20

/-- `statusCategory` -/
def statusCategory (status : Int) : String :=
  if status = 429 then "http_429"
  else if status ≥ 400 ∧ status < 500 then "http_4xx"
  else if status ≥ 500 then "http_5xx"
  else "other"

/-- A character of an error code that is kept. -/
def isCodeChar (c : Char) : Bool :=
  (97 ≤ c.toNat && c.toNat ≤ 122) || (65 ≤ c.toNat && c.toNat ≤ 90) ||
    (48 ≤ c.toNat && c.toNat ≤ 57) || c ∈ ['_', '.', '-']

/-- `safeErrorCode` -/
def safeErrorCode (decoders : Decoders) (raw : Bytes) : String :=
  match decoders.errorCode raw with
  | some code =>
    if code ≠ "" ∧ code.utf8ByteSize ≤ 64 ∧ code.toList.all isCodeChar then code else "http_error"
  | none => "http_error"

/-- `readJSON` -/
def readJson (decoders : Decoders) (elapsed : Int) (raw : Bytes) (readFailed : Bool)
    (result : Result) : Result :=
  let result := { result with responseBytes := raw.length }
  if readFailed ∨ raw.length > maxResponseBytes then
    finish result elapsed "other" "response_read_error"
  else
    match decoders.usage raw with
    | none => finish result elapsed "other" "response_json_error"
    | some usage =>
      let result :=
        match usage with
        | some tokens =>
          if tokens ≥ 0 then { result with completionTokens := some tokens } else result
        | none => result
      finish { result with success := true } elapsed "" ""

/-- `Do` -/
def doRequest (mode : String) (decoders : Decoders) (clock : StreamClock) (sequence : Int)
    (requestId : String) (startOffset : Int) : Exchange → Result
  | .encodeError =>
    finish (.begun sequence requestId startOffset 0) clock.atEnd "other" "request_encode_error"
  | .buildError =>
    finish (.begun sequence requestId startOffset 0) clock.atEnd "other" "request_build_error"
  | .transportError timeout =>
    let category := if timeout then "timeout" else "transport"
    finish (.begun sequence requestId startOffset 0) clock.atEnd category category
  | .response status raw readFailed slices =>
    let result := Result.begun sequence requestId startOffset status
    if status < 200 ∨ status ≥ 300 then
      let result :=
        { result with
          responseBytes := raw.length
          errorCode := safeErrorCode decoders raw
          errorCategory := statusCategory status }
      finish result clock.atEnd result.errorCategory result.errorCode
    else if isStreaming mode then readStream defaultSseLimit decoders.event clock result slices
    else readJson decoders clock.atEnd raw readFailed result

@[simp] theorem finish_ttft (result : Result) (elapsed : Int) (category code : String) :
    (finish result elapsed category code).ttft = result.ttft := by
  unfold finish
  dsimp only
  split <;> rfl

theorem readJson_ttft (decoders : Decoders) (elapsed : Int) (raw : Bytes) (readFailed : Bool)
    (result : Result) : (readJson decoders elapsed raw readFailed result).ttft = result.ttft := by
  unfold readJson
  dsimp only
  split
  · rw [finish_ttft]
  split
  · rw [finish_ttft]
  · rw [finish_ttft]
    split
    · split <;> rfl
    · rfl

/-- A request that is not for a stream has no time to the first token. -/
theorem doRequest_ttft {mode : String} (h : isStreaming mode = false) (decoders : Decoders)
    (clock : StreamClock) (sequence : Int) (requestId : String) (startOffset : Int)
    (exchange : Exchange) :
    (doRequest mode decoders clock sequence requestId startOffset exchange).ttft = none := by
  cases exchange with
  | encodeError => exact finish_ttft ..
  | buildError => exact finish_ttft ..
  | transportError timeout => exact finish_ttft ..
  | response status raw readFailed slices =>
    simp only [doRequest, h, Bool.false_eq_true, if_false]
    split
    · exact finish_ttft ..
    · exact readJson_ttft ..

/-! ## The summary -/

/-- The double next to a number; the numbers here are in its range. -/
def double (x : Rat) : Rat := (Double.round x).getD x

/-- `float64(d.Nanoseconds()) / 1e6` -/
def milliseconds (nanoseconds : Int) : Rat := double (double nanoseconds / 10 ^ 6)

/-- `Duration.Seconds` -/
def seconds (nanoseconds : Int) : Rat :=
  double (double (nanoseconds.tdiv (10 ^ 9)) + double (nanoseconds.tmod (10 ^ 9) / 10 ^ 9))

/-- `Latencies`, in milliseconds. -/
structure Latencies where
  p50 : Option Rat
  p90 : Option Rat
  p95 : Option Rat
  p99 : Option Rat
deriving DecidableEq

/-- `Summarize` -/
def latencies (values : List Rat) : Latencies where
  p50 := Prometheus.percentile values (1 / 2)
  p90 := Prometheus.percentile values (9 / 10)
  p95 := Prometheus.percentile values (95 / 100)
  p99 := Prometheus.percentile values (99 / 100)

/-- `Summary`, without the two fields of the output throughput. -/
structure Summary where
  attempted : Nat
  successful : Nat
  failed : Nat
  errorRate : Rat
  errorsByCategory : List (String × Nat)
  e2e : Latencies
  ttft : Option Latencies
  requestThroughputRps : Rat
  authoritativeTokenCoverage : Nat
deriving DecidableEq

/-- How often each category of an error occurs. -/
def errorsByCategory (results : List Result) : List (String × Nat) :=
  let categories := (results.filter fun result => !result.success).map (·.errorCategory)
  (categories.dedup.insertionSort (· ≤ ·)).map fun category => (category, categories.count category)

/-- `summarize` -/
def summarize (results : List Result) (duration : Int) : Summary :=
  let succeeded := results.filter (·.success)
  let failed := results.filter fun result => !result.success
  let ttft := succeeded.filterMap (·.ttft)
  { attempted := results.length
    successful := succeeded.length
    failed := failed.length
    errorRate := if results = [] then 0 else double (failed.length / results.length)
    errorsByCategory := errorsByCategory results
    e2e := latencies (succeeded.map fun result => milliseconds result.endToEnd)
    ttft := if ttft = [] then none else some (latencies (ttft.map milliseconds))
    requestThroughputRps :=
      if 0 < seconds duration then double (succeeded.length / seconds duration) else 0
    authoritativeTokenCoverage := (succeeded.filter (·.completionTokens.isSome)).length }

/-- The two fields of the output throughput that `summarize` sets. -/
def clientThroughput (results : List Result) (duration : Int) : Prometheus.ThroughputSummary :=
  let succeeded := results.filter (·.success)
  let tokens := succeeded.filterMap (·.completionTokens)
  if 0 < seconds duration ∧ succeeded ≠ [] ∧ tokens.length = succeeded.length then
    ⟨some (double (double tokens.sum / seconds duration)), "client_usage".toList⟩
  else ⟨none, []⟩

end Gateway.StreamClient
