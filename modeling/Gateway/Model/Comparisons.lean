import Gateway.Lib.Median
import Gateway.Lib.Scalar
import Gateway.Model.RunMatrix
import Gateway.Model.Summarize

/-!
# Comparisons of results

`flatten`, `artifact_counter_deltas`, `comparison_errors`, `build_comparisons` and
`aggregate_comparisons`, of `benchmark/scripts/summarize.py`, and what `main` reports. A result
is the fields of its JSON object. `none` stands for every exception, and for a compared value
that is no number. Differences, ratios and medians are exact.

The text of the file of a name beside a result is the parameter `artifact`, and the text of a
key of a group the parameter `keyText`.
-/

namespace Gateway

namespace Comparisons

open RunMatrix (asDict)
open Summarize (CounterDelta parsePrometheusText counterDelta)
open ValidateResult (get validate)

/-- The JSON object of a result. -/
abbrev ResultFields := List (String × Json)

/-- `ARMS` -/
def arms : List String := ["direct", "gateway_no_batch", "gateway_batch"]

/-- `result["configuration"]` -/
def configurationOf (result : ResultFields) : Option ResultFields :=
  (Json.getField result "configuration").bind asDict

/-- `value.get(name)` of an object, and `None` of anything else. -/
def optionalField (value : Json) (name : String) : Json :=
  match value with
  | .obj fields => get fields name .null
  | _ => .null

/-- `optional` -/
def optional (mapping : Json) (names : List String) : Json := names.foldl optionalField mapping

/-! ## `flatten` -/

/-- `value or default` -/
def orElse (value default : Json) : Json := if value.truthy then value else default

/-- `";".join(reasons)` -/
def joinReasons (reasons : Json) : Option Json := do
  let reasons ← RunMatrix.iterate reasons
  let texts ← reasons.mapM fun reason =>
    match reason with
    | .str text => some text
    | _ => none
  some (.str (";".intercalate texts))

/-- `flatten` -/
def flatten (result : ResultFields) : Option ResultFields := do
  let summary ← (Json.getField result "summary").bind asDict
  let configuration ← configurationOf result
  let metadata ← (Json.getField result "metadata").bind asDict
  let batch ← asDict (orElse (optional (.obj result) ["metrics", "batch"]) (.obj []))
  let validity ← asDict (get result "validity" (.obj []))
  some [
    ("run_id", ← Json.getField metadata "run_id"),
    ("repeat", ← Json.getField metadata "repeat"),
    ("target", ← Json.getField metadata "label"),
    ("mode", ← Json.getField configuration "mode"),
    ("concurrency", ← Json.getField configuration "concurrency"),
    ("requests", ← Json.getField summary "attempted"),
    ("success", ← Json.getField summary "successful"),
    ("error_rate", ← Json.getField summary "error_rate"),
    ("e2e_p50_ms", optional (.obj summary) ["e2e", "p50_ms"]),
    ("e2e_p95_ms", optional (.obj summary) ["e2e", "p95_ms"]),
    ("e2e_p99_ms", optional (.obj summary) ["e2e", "p99_ms"]),
    ("ttft_p50_ms", optional (.obj summary) ["ttft", "p50_ms"]),
    ("ttft_p95_ms", optional (.obj summary) ["ttft", "p95_ms"]),
    ("ttft_p99_ms", optional (.obj summary) ["ttft", "p99_ms"]),
    ("request_throughput_rps", ← Json.getField summary "request_throughput_rps"),
    ("output_throughput_tps", get summary "output_throughput_tps" .null),
    ("mean_batch_size", get batch "mean_size" .null),
    ("batch_wait_p95_ms", get batch "wait_p95_ms" .null),
    ("queue_wait_p95_ms", get batch "queue_wait_p95_ms" .null),
    ("valid", get validity "valid" (.bool false)),
    ("invalid_reasons", ← joinReasons (orElse (get validity "reasons" .null) (.arr [])))]

/-! ## Counters -/

/-- The sources of `artifact_counter_deltas`, and their counters. -/
def counterSources : List (String × String) :=
  [("gateway", "gateway_observed_output_tokens_total"), ("vllm", "vllm:generation_tokens")]

section

variable (unicode : Unicode) (artifact : String → Option Text)

/-- The delta of one source, if both snapshots are there. -/
def sourceDelta (artifacts : ResultFields) (source : String × String) :
    Option (Option (String × CounterDelta)) :=
  let beforeName := get artifacts (source.1 ++ "_before") .null
  let afterName := get artifacts (source.1 ++ "_after") .null
  if beforeName.truthy = false ∨ afterName.truthy = false then some none
  else
    match beforeName, afterName with
    | .str beforeName, .str afterName =>
      match artifact beforeName, artifact afterName with
      | some before, some after => do
        let before ← parsePrometheusText unicode before
        let after ← parsePrometheusText unicode after
        some (some (source.2, counterDelta before after source.2.toList))
      | _, _ => some none
    | _, _ => none

/-- `artifact_counter_deltas` -/
def artifactCounterDeltas (result : ResultFields) : Option (List (String × CounterDelta)) := do
  let artifacts ← asDict (get result "metric_artifacts" (.obj []))
  let deltas ← counterSources.mapM (sourceDelta unicode artifact artifacts)
  some (deltas.filterMap id)

end

/-! ## `comparison_errors` -/

/-- The fields in which the arms must not differ. -/
def comparedFields : List String :=
  ["dataset_sha256", "model", "workload_fingerprint", "vllm_config_fingerprint"]

/-- `[message] if condition else []` -/
def errorIf (condition : Bool) (message : String) : List String :=
  if condition then [message] else []

/-- What is wrong with one arm. -/
def armErrors (arm : String × ResultFields) : Option (List String) := do
  let validity ← asDict (get arm.2 "validity" (.obj []))
  let summary ← asDict (get arm.2 "summary" (.obj []))
  let metadata ← asDict (get arm.2 "metadata" (.obj []))
  some (errorIf (!(get validity "valid" .null).truthy) (arm.1 ++ " run is invalid") ++
    errorIf ((get summary "attempted" (.int 0)).pyEq (.int 0))
      (arm.1 ++ " has zero measured requests") ++
    errorIf (!(get metadata "label" .null).truthy) (arm.1 ++ " is missing target metadata"))

/-- Whether a field differs between configurations. -/
def differs (configurations : List ResultFields) (field : String) : Option Bool := do
  let values ← configurations.mapM fun configuration =>
    Scalar.ofJson (get configuration field .null)
  some (values.dedup.length ≠ 1)

/-- The commit of the gateway. -/
def gatewaySha (result : ResultFields) : Option Json := do
  let environment ← asDict (get result "environment" (.obj []))
  some (get environment "gateway_git_sha" .null)

/-- `comparison_errors` -/
def comparisonErrors (group : Dict String ResultFields) : Option (List String) :=
  if group.keys.all (· ∈ arms) = false ∨ arms.all (· ∈ group.keys) = false then
    some ["comparison requires direct, gateway_no_batch, gateway_batch"]
  else do
    let armMessages ← group.entries.mapM armErrors
    let configurations ← arms.mapM fun label => (group.get? label).bind configurationOf
    let fieldMessages ← comparedFields.mapM fun field => do
      let different ← differs configurations field
      some (errorIf different ("different " ++ field ++ " across compared arms"))
    let off ← group.get? "gateway_no_batch"
    let on ← group.get? "gateway_batch"
    let offSha ← gatewaySha off
    let onSha ← gatewaySha on
    let offConfiguration ← configurationOf off
    let onConfiguration ← configurationOf on
    some (armMessages.flatten ++ fieldMessages.flatten ++
      errorIf (!offSha.truthy || offSha.pyEq (.str "unknown") || !offSha.pyEq onSha)
        "gateway OFF/ON Git SHA is missing or different" ++
      errorIf (!(get offConfiguration "batching_enabled" .null).pyEq (.str "false"))
        "gateway_no_batch does not record batching_enabled=false" ++
      errorIf (!(get onConfiguration "batching_enabled" .null).pyEq (.str "true"))
        "gateway_batch does not record batching_enabled=true")

/-! ## `build_comparisons` -/

/-- A number, or `None`. -/
def numberOrNone : Json → Option (Option Rat)
  | .null => some none
  | j => j.number.map some

/-- `value` -/
def value (result : ResultFields) (metric : String) : Option (Option Rat) := do
  let summary ← Json.getField result "summary"
  if metric = "e2e_p95_ms" then numberOrNone (optional summary ["e2e", "p95_ms"])
  else
    let fields ← asDict summary
    numberOrNone (get fields metric .null)

/-- The metrics of a comparison. -/
def comparedMetrics : List String :=
  ["e2e_p95_ms", "request_throughput_rps", "output_throughput_tps", "error_rate"]

/-- The mode, the concurrency and the repetition of a result. -/
abbrev GroupKey := List Scalar

/-- The results of a group, by their arms. -/
abbrev Group := Dict String ResultFields

/-- A comparison: for each metric the value of each arm, and the differences. -/
structure Comparison where
  mode : Scalar
  concurrency : Scalar
  repetition : Scalar
  targets : List (String × List (String × Option Rat))
  gatewayOverhead : List (String × Option Rat)
  batchingEffect : List (String × Option Rat)
deriving DecidableEq

/-- `None if a is None or b is None else a - b` -/
def difference (a b : Option Rat) : Option Rat := do
  let x ← a
  let y ← b
  some (x - y)

/-- `None if off in {None, 0} or on is None else (on / off - 1) * 100` -/
def relativePercent (off on : Option Rat) : Option Rat := do
  let x ← off
  let y ← on
  if x = 0 then none else some ((y / x - 1) * 100)

/-- The effects of one metric; a throughput also has a relative one. -/
def batchingEffects (metric : String) (off on : Option Rat) : List (String × Option Rat) :=
  (metric, difference on off) ::
    if metric = "request_throughput_rps" ∨ metric = "output_throughput_tps" then
      [(metric ++ "_relative_percent", relativePercent off on)]
    else []

/-- The comparison of three results. -/
def compare (key : GroupKey) (direct off on : ResultFields) : Option Comparison := do
  let rows ← comparedMetrics.mapM fun metric => do
    let direct ← value direct metric
    let off ← value off metric
    let on ← value on metric
    some (metric, direct, off, on)
  match key with
  | [mode, concurrency, repetition] =>
    some {
      mode := mode
      concurrency := concurrency
      repetition := repetition
      targets := rows.map fun row =>
        (row.1, [("direct", row.2.1), ("gateway_no_batch", row.2.2.1),
          ("gateway_batch", row.2.2.2)])
      gatewayOverhead := rows.map fun row => (row.1, difference row.2.2.1 row.2.1)
      batchingEffect := rows.flatMap fun row => batchingEffects row.1 row.2.2.1 row.2.2.2 }
  | _ => none

section

variable (unicode : Unicode) (artifact : String → String → Option Text)
  (keyText : GroupKey → String)

/-- A result, and the path of its file. -/
structure Loaded where
  path : String
  result : ResultFields

/-- `result["metadata"]["label"]` -/
def labelOf (result : ResultFields) : Option Json := do
  let metadata ← (Json.getField result "metadata").bind asDict
  Json.getField metadata "label"

/-- The key of the group of a result. -/
def keyOf (result : ResultFields) : Option GroupKey := do
  let configuration ← configurationOf result
  let metadata ← (Json.getField result "metadata").bind asDict
  let mode ← Json.getField configuration "mode"
  let concurrency ← Json.getField configuration "concurrency"
  let repetition ← Json.getField metadata "repeat"
  [mode, concurrency, repetition].mapM Scalar.ofJson

/-- The groups, and the errors so far. -/
structure Grouping where
  groups : Dict GroupKey Group
  errors : List String

/-- The messages about counters that went down. -/
def resetErrors (loaded : Loaded) : Option (List String) := do
  let deltas ← artifactCounterDeltas unicode (artifact loaded.path) loaded.result
  some (deltas.flatMap fun delta =>
    errorIf delta.2.reset (loaded.path ++ ": invalid_counter_reset:" ++ delta.1))

/-- One turn of the first loop of `build_comparisons`. -/
def addResult (grouping : Grouping) (loaded : Loaded) : Option Grouping := do
  let resets ← resetErrors unicode artifact loaded
  let label ← labelOf loaded.result
  match label with
  | .str label =>
    if label ∈ arms then do
      let key ← keyOf loaded.result
      let group := (grouping.groups.get? key).getD .empty
      some {
        groups := grouping.groups.set key (group.set label loaded.result)
        errors := grouping.errors ++ resets ++
          errorIf (label ∈ group.keys) ("duplicate arm " ++ label ++ " for " ++ keyText key) }
    else some { grouping with errors := grouping.errors ++ resets }
  | _ => some { grouping with errors := grouping.errors ++ resets }

/-- One turn of the second loop. -/
def addComparison (groups : Dict GroupKey Group) (report : List Comparison × List String)
    (key : GroupKey) : Option (List Comparison × List String) := do
  let group ← groups.get? key
  let messages ← comparisonErrors group
  if messages = [] then do
    let direct ← group.get? "direct"
    let off ← group.get? "gateway_no_batch"
    let on ← group.get? "gateway_batch"
    let comparison ← compare key direct off on
    some (report.1 ++ [comparison], report.2)
  else some (report.1, report.2 ++ messages.map fun message => keyText key ++ ": " ++ message)

/-- `build_comparisons` -/
def buildComparisons (loaded : List Loaded) : Option (List Comparison × List String) := do
  let grouping ← loaded.foldlM (addResult unicode artifact keyText) ⟨.empty, []⟩
  let keys ← Scalar.sortTuples grouping.groups.keys
  keys.foldlM (addComparison keyText grouping.groups) ([], grouping.errors)

end

/-! ## `aggregate_comparisons` -/

/-- The figures of `median_range`. -/
structure Range where
  median : Rat
  min : Rat
  max : Rat
deriving DecidableEq

/-- `median_range` -/
def medianRange (values : List Rat) : Option Range := do
  let low ← values.min?
  let high ← values.max?
  some ⟨Median.median values, low, high⟩

/-- The figures of a mode and a concurrency. -/
structure Aggregate where
  mode : Scalar
  concurrency : Scalar
  repeats : List Scalar
  targets : List (String × List (String × Option Range))
  gatewayOverhead : List (String × Option Range)
  batchingEffect : List (String × Option Range)

/-- The names that the items have in a section, sorted. -/
def sectionKeys {α : Type} (items : List Comparison) (part : Comparison → List (String × α)) :
    List String :=
  (items.flatMap fun item => (part item).map Prod.fst).dedup.insertionSort (· ≤ ·)

/-- The range of a value that each item has; `None` values are passed over. -/
def column (items : List Comparison) (read : Comparison → Option (Option Rat)) :
    Option (Option Range) := do
  let values ← items.mapM read
  some (medianRange (values.filterMap id))

/-- The aggregate of the items of a group. -/
def aggregate (key : GroupKey) (items : List Comparison) : Option Aggregate := do
  let targets ← (sectionKeys items Comparison.targets).mapM fun name => do
    let ranges ← arms.mapM fun arm => do
      let range ← column items fun item => (item.targets.lookup name).bind (·.lookup arm)
      some (arm, range)
    some (name, ranges)
  let overhead ← (sectionKeys items Comparison.gatewayOverhead).mapM fun name => do
    let range ← column items fun item => item.gatewayOverhead.lookup name
    some (name, range)
  let effect ← (sectionKeys items Comparison.batchingEffect).mapM fun name => do
    let range ← column items fun item => item.batchingEffect.lookup name
    some (name, range)
  match key with
  | [mode, concurrency] =>
    some {
      mode := mode
      concurrency := concurrency
      repeats := items.map Comparison.repetition
      targets := targets
      gatewayOverhead := overhead
      batchingEffect := effect }
  | _ => none

/-- The items, by mode and concurrency. -/
def aggregateGroups (perRepeat : List Comparison) : Dict GroupKey (List Comparison) :=
  perRepeat.foldl
    (fun groups item =>
      let key := [item.mode, item.concurrency]
      groups.set key ((groups.get? key).getD [] ++ [item]))
    .empty

/-- `aggregate_comparisons` -/
def aggregateComparisons (perRepeat : List Comparison) : Option (List Aggregate) := do
  let groups := aggregateGroups perRepeat
  let keys ← Scalar.sortTuples groups.keys
  keys.mapM fun key => do
    let items ← groups.get? key
    aggregate key items

/-! ## `main` -/

/-- What `main` writes and returns. -/
structure Report where
  rows : List ResultFields
  perRepeat : List Comparison
  aggregated : List Aggregate
  counterDeltas : List (String × List (String × CounterDelta))
  errors : List String

/-- The exit status. -/
def Report.status (report : Report) : Nat := if report.errors = [] then 0 else 2

section

variable (inner : Json → Text) (unicode : Unicode) (artifact : String → String → Option Text)
  (keyText : GroupKey → String)

/-- A file that `main` reads: its path, and what `json.loads` makes of it or the text of its
error. -/
abbrev Source := String × Except String Json

/-- The messages about a file. -/
def sourceErrors (source : Source) : Option (List String) :=
  match source.2 with
  | .error message => some [source.1 ++ ": " ++ message]
  | .ok result => (validate inner result).map fun messages =>
      messages.map fun message => source.1 ++ ": " ++ message

/-- The result of a file, if it was read; `flatten` needs an object. -/
def loadedOf (source : Source) : Option (List Loaded) :=
  match source.2 with
  | .error _ => some []
  | .ok result => (asDict result).map fun fields => [⟨source.1, fields⟩]

/-- `main`, on files. -/
def main (sources : List Source) : Option Report := do
  let validation ← sources.mapM (sourceErrors inner)
  let loaded ← sources.mapM loadedOf
  let rows ← loaded.flatten.mapM fun loaded => flatten loaded.result
  let comparisons ← buildComparisons unicode artifact keyText loaded.flatten
  let aggregated ← aggregateComparisons comparisons.1
  let deltas ← loaded.flatten.mapM fun loaded => do
    let deltas ← artifactCounterDeltas unicode (artifact loaded.path) loaded.result
    some (loaded.path, deltas)
  some {
    rows := rows
    perRepeat := comparisons.1
    aggregated := aggregated
    counterDeltas := deltas
    errors := validation.flatten ++ comparisons.2 }

end

end Comparisons

end Gateway
