import Mathlib
import Gateway.Lib.JsonAscii
import Gateway.Lib.TransitionSystem
import Gateway.Model.ValidateResult

/-!
# The matrix runner

The planning of `benchmark/scripts/run_matrix.py`, what `execute` does to an output directory,
and what `completed_run` accepts there. A configuration is the JSON value that `load_config`
returns. `none` stands for an exception.

What the runner asks of its surroundings is a parameter: the files (`readFile`), where a path
leads from the benchmark directory (`resolvePath`), the output path of a run (`outputPath`),
SHA-256 (`sha256`) and the texts of `str` for lists and dictionaries (`inner`). The delay between
runs and what is printed are left out.
-/

namespace Gateway

namespace RunMatrix

open ValidateResult (get)

/-- The members of a dictionary. -/
abbrev Fields := List (String × Json)

/-- `RunCoordinate` -/
structure RunCoordinate where
  runId : String
  label : String
  mode : String
  concurrency : Int
  repeatIndex : Nat
  executionOrder : Nat
  requests : Int
deriving DecidableEq

/-- `asdict` of a coordinate. -/
def RunCoordinate.asdict (c : RunCoordinate) : Json :=
  .obj [("run_id", .str c.runId), ("label", .str c.label), ("mode", .str c.mode),
    ("concurrency", .int c.concurrency), ("repeat", .int c.repeatIndex),
    ("execution_order", .int c.executionOrder), ("requests", .int c.requests)]

/-- The contents of the files that a plan refers to. -/
structure InputFiles where
  dataset : Option ByteArray
  environment : Option ByteArray
  gatewayConfig : Option ByteArray
  vllmConfig : Option ByteArray
deriving DecidableEq

/-- What a run is executed with: its command and coordinate, the contents of its input files,
and the name of the variable that has the credential. -/
structure Plan where
  command : List String
  coordinate : RunCoordinate
  inputs : InputFiles
  credentialEnvName : Json
deriving DecidableEq

/-- `referenced_input_hashes` -/
def referencedInputHashes (sha256 : ByteArray → String) (inputs : InputFiles) :
    List (String × String) :=
  [("dataset", inputs.dataset), ("environment", inputs.environment),
    ("gateway_config", inputs.gatewayConfig), ("vllm_config", inputs.vllmConfig)].filterMap
    fun reference => reference.2.map fun contents => (reference.1, sha256 contents)

/-- `resume_plan_sha256` -/
def resumePlanSha256 (sha256 : ByteArray → String) (command : List String)
    (expected : RunCoordinate) (inputHashes : List (String × String))
    (credentialEnvName : Json) : String :=
  let plan : Json :=
    .obj [("schema_version", .int 1), ("command", .arr (command.map .str)),
      ("coordinate", expected.asdict),
      ("input_sha256", .obj (inputHashes.map fun hash => (hash.1, .str hash.2))),
      ("credential_env_name", credentialEnvName)]
  sha256 (Json.dumpsAsciiSorted plan).toUTF8

/-- The fingerprint of a plan. -/
def Plan.fingerprint (sha256 : ByteArray → String) (plan : Plan) : String :=
  resumePlanSha256 sha256 plan.command plan.coordinate (referencedInputHashes sha256 plan.inputs)
    plan.credentialEnvName

/-! ### Planning -/

/-- `config[key]` -/
def item (fields : Fields) (key : String) : Option Json := Json.getField fields key

/-- What `value.get` needs. -/
def asDict : Json → Option Fields
  | .obj fields => some fields
  | _ => none

/-- What a `for` loop goes through. -/
def iterate : Json → Option (List Json)
  | .arr xs => some xs
  | .obj fields => some (fields.map fun field => .str field.1)
  | .str s => some (s.toList.map fun c => .str (String.singleton c))
  | _ => none

section

variable (inner : Json → Text) (unicode : Unicode)

/-- `str(value)` -/
def str (value : Json) : String := String.ofList (value.toText inner)

/-- `requests_for` -/
def requestsFor (config : Fields) (concurrency : Int) : Option Int :=
  let configured := get config "requests" (.str "auto")
  if configured = .str "auto" then some (max 200 (concurrency * 20))
  else configured.toInt unicode

/-- `add_optional` -/
def addOptional (command : List String) (flagName : String) (value : Json) : List String :=
  if value ≠ .null ∧ value ≠ .str "" then command ++ [flagName, str inner value] else command

/-- `target.get(key, config.get(key))` -/
def targetOrConfig (config target : Fields) (key : String) : Json :=
  get target key (get config key .null)

/-- `build_command` -/
def buildCommand (resolvePath : String → String) (config target : Fields) (mode : String)
    (concurrency : Int) (repeatIndex order : Nat) (output runId : String) :
    Option (List String) := do
  let generation ← asDict (get config "generation" (.obj []))
  let baseUrl ← item target "base_url"
  let model ← item config "model"
  let dataset ← item config "dataset"
  let requests ← requestsFor unicode config concurrency
  let label ← item target "label"
  let command :=
    ["go", "run", "./cmd/gateway-bench",
      "--base-url", str inner baseUrl,
      "--endpoint", str inner (get config "endpoint" (.str "/v1/chat/completions")),
      "--model", str inner model,
      "--dataset", resolvePath (str inner dataset),
      "--mode", mode,
      "--concurrency", str inner (.int concurrency),
      "--requests", str inner (.int requests),
      "--warmup", str inner (get config "warmup" (.int 20)),
      "--timeout", str inner (get config "timeout" (.str "120s")),
      "--label", str inner label,
      "--output", output,
      "--temperature", str inner (get generation "temperature" (.int 0)),
      "--top-p", str inner (get generation "top_p" (.int 1)),
      "--max-tokens", str inner (get generation "max_tokens" (.int 128)),
      "--seed", str inner (get generation "seed" (.int 1)),
      "--run-id", runId,
      "--repeat", str inner (.int repeatIndex),
      "--execution-order", str inner (.int order),
      "--batching-enabled", str inner (get target "batching_enabled" (.str "not_applicable")),
      "--prefix-caching", str inner (get config "prefix_caching" (.str "unknown")),
      "--vllm-version", str inner (get config "vllm_version" (.str "unknown"))]
  let command :=
    [("--gateway-metrics-url", "gateway_metrics_url"),
      ("--vllm-metrics-url", "vllm_metrics_url"),
      ("--output-token-counter", "output_token_counter"),
      ("--batch-max-size", "batch_max_size"),
      ("--batch-max-wait-seconds", "batch_max_wait_seconds"),
      ("--tenant-max-inflight", "tenant_max_inflight"),
      ("--global-max-inflight", "global_max_inflight"),
      ("--gateway-git-sha", "gateway_git_sha")].foldl
      (fun command flag =>
        addOptional inner command flag.1 (targetOrConfig config target flag.2)) command
  let command :=
    [("--sample-interval", "sample_interval"), ("--gpu-sample-interval", "gpu_sample_interval"),
      ("--vllm-config", "vllm_config"), ("--environment", "environment")].foldl
      (fun command flag =>
        let value := get config flag.2 .null
        let value :=
          if flag.2 ∈ ["vllm_config", "environment"] ∧ value.truthy then
            .str (resolvePath (str inner value))
          else value
        addOptional inner command flag.1 value) command
  let gatewayConfig := get target "gateway_config" .null
  pure <| if gatewayConfig.truthy then
      addOptional inner command "--gateway-config" (.str (resolvePath (str inner gatewayConfig)))
    else command

/-- The contents of a file that a configuration refers to, when it does; the outer `none` is
an exception. -/
def readReference (resolvePath : String → String) (readFile : String → Option ByteArray)
    (reference : Json) : Option (Option ByteArray) :=
  if reference.truthy then (readFile (resolvePath (str inner reference))).map some else some none

/-- The files of `referenced_input_hashes`. -/
def referencedInputs (resolvePath : String → String) (readFile : String → Option ByteArray)
    (config target : Fields) : Option InputFiles := do
  let dataset ← readReference inner resolvePath readFile (get config "dataset" .null)
  let environment ← readReference inner resolvePath readFile (get config "environment" .null)
  let gatewayConfig ←
    readReference inner resolvePath readFile (get target "gateway_config" .null)
  let vllmConfig ← readReference inner resolvePath readFile (get config "vllm_config" .null)
  pure ⟨dataset, environment, gatewayConfig, vllmConfig⟩

/-- The fields of `planned_result_configuration` that are there when they are configured, with
what converts their values. -/
def optionalFields : List (String × (Json → Option Json)) :=
  [("batch_max_size", fun value => (value.toInt unicode).map .int),
    ("batch_max_wait_seconds", fun value => (value.toFloat unicode).map .ofDouble),
    ("tenant_max_inflight", fun value => (value.toInt unicode).map .int),
    ("global_max_inflight", fun value => (value.toInt unicode).map .int)]

/-- The configured ones of `optionalFields`, converted. -/
def plannedOptional (config target : Fields) (field : String × (Json → Option Json)) :
    Option Fields :=
  let value := targetOrConfig config target field.1
  if value ≠ .null ∧ value ≠ .str "" then (field.2 value).map fun x => [(field.1, x)]
  else some []

/-- `planned_result_configuration` -/
def plannedResultConfiguration (config target : Fields) (mode : String) (concurrency : Int)
    (inputHashes : List (String × String)) : Option Fields := do
  let generation ← asDict (get config "generation" (.obj []))
  let baseUrl ← item target "base_url"
  let model ← item config "model"
  let requests ← requestsFor unicode config concurrency
  let warmup ← (get config "warmup" (.int 20)).toInt unicode
  let dataset ← (inputHashes.find? fun hash => hash.1 = "dataset").map (·.2)
  let maxTokens ← (get generation "max_tokens" (.int 128)).toInt unicode
  let seed ← (get generation "seed" (.int 1)).toInt unicode
  let optional ← (optionalFields unicode).mapM (plannedOptional config target)
  pure <|
    [("base_url", .str (str inner baseUrl)),
      ("endpoint", .str (str inner (get config "endpoint" (.str "/v1/chat/completions")))),
      ("model", .str (str inner model)),
      ("mode", .str mode),
      ("concurrency", .int concurrency),
      ("requests", .int requests),
      ("warmup", .int warmup),
      ("dataset_sha256", .str dataset),
      ("temperature", get generation "temperature" (.int 0)),
      ("top_p", get generation "top_p" (.int 1)),
      ("max_tokens", .int maxTokens),
      ("seed", .int seed),
      ("n", .int 1),
      ("stream", .bool (mode = "streaming")),
      ("stream_include_usage", .bool (mode = "streaming")),
      ("batching_enabled",
        .str (str inner (get target "batching_enabled" (.str "not_applicable")))),
      ("prefix_caching", .str (str inner (get config "prefix_caching" (.str "unknown"))))] ++
    optional.flatten

/-- A run of the matrix: what it is executed with, the configuration that its result must have,
and where the result goes. -/
structure PlannedRun where
  plan : Plan
  configuration : Fields
  output : String

/-- Where the harness finds things, and what it names them. -/
structure Surroundings where
  sha256 : ByteArray → String
  /-- the contents of a file; `none` is an exception -/
  readFile : String → Option ByteArray
  /-- `str(resolve_path(path))` -/
  resolvePath : String → String
  /-- the output path of a run, by the parts of the path; `none` is an exception -/
  outputPath : (matrixId mode concurrency : String) → (repeatIndex : Nat) → (label : Json) →
    Option String

/-- The body of the loops of `run_matrix`, up to the decision whether to execute. -/
def planRun (env : Surroundings) (config : Fields) (matrixId mode : String) (concurrency : Json)
    (repeatIndex order : Nat) (target : Fields) : Option PlannedRun := do
  let label ← item target "label"
  let count ← concurrency.toInt unicode
  let runId := matrixId ++ "-" ++ mode ++ "-c" ++ str inner concurrency ++ "-r" ++
    str inner (.int repeatIndex) ++ "-" ++ str inner label
  let requests ← requestsFor unicode config count
  let output ← env.outputPath matrixId mode (str inner concurrency) repeatIndex label
  let command ← buildCommand inner unicode env.resolvePath config target mode count repeatIndex
    order output runId
  let inputs ← referencedInputs inner env.resolvePath env.readFile config target
  let configuration ← plannedResultConfiguration inner unicode config target mode count
    (referencedInputHashes env.sha256 inputs)
  pure
    { plan :=
        { command := command
          coordinate := ⟨runId, str inner label, mode, count, repeatIndex, order, requests⟩
          inputs := inputs
          credentialEnvName := get target "auth_token_env" .null }
      configuration := configuration
      output := output }

/-- `rotated` -/
def rotated (targets : List Json) (repeatIndex : Nat) : List Json :=
  targets.rotate (repeatIndex - 1)

/-- A mode that `run_matrix` accepts. -/
def modeName : Json → Option String
  | .str name => if name = "streaming" ∨ name = "non_streaming" then some name else none
  | _ => none

/-- The targets that are selected. -/
def selectTargets (config : Fields) (selected : Json → Bool) : Option (List Json) := do
  let targets ← iterate (← item config "targets")
  targets.filterM fun target => do
    let fields ← asDict target
    let label ← item fields "label"
    pure (selected label)

/-- The nested loops of `run_matrix`: mode, concurrency, repetition, order and target. -/
def loops (modes points : List Json) (repetitions : Nat) (targets : List Json) :
    List (Json × Json × Nat × Nat × Json) :=
  modes.flatMap fun mode => points.flatMap fun concurrency =>
    (List.range' 1 repetitions).flatMap fun repeatIndex =>
      ((rotated targets repeatIndex).zipIdx 1).map fun target =>
        (mode, concurrency, repeatIndex, target.2, target.1)

/-- The runs that `run_matrix` goes through, in order. -/
def plannedRuns (env : Surroundings) (config : Fields) (matrixId : String)
    (selected : Json → Bool) : Option (List PlannedRun) := do
  let targets ← selectTargets config selected
  if targets = [] then none
  let modes ← iterate (get config "modes" (.arr [.str "non_streaming"]))
  let points ← iterate (← item config "concurrency")
  let repetitions ← (← item config "repetitions").toInt unicode
  (loops modes points repetitions.toNat targets).mapM fun point => do
    let mode ← modeName point.1
    let target ← asDict point.2.2.2.2
    planRun inner unicode env config matrixId mode point.2.1 point.2.2.1 point.2.2.2.1 target

end

/-! ### Execution -/

/-- A file of an output directory: its JSON value, or `none` while its text is not JSON. A
result is marked with the plan of the process that wrote it. -/
structure ResultFile where
  value : Option Json
  writer : Plan

/-- The files of an output directory that decide about a resumption. The logs are left out. -/
structure Directory where
  result : Option ResultFile
  process : Option (Option Json)

/-- How far `execute` is. -/
inductive Phase
  /-- the benchmark process runs, and the result file is as it was -/
  | launched
  /-- it opened the result file -/
  | created
  /-- it wrote the result file -/
  | written
  /-- it exited -/
  | exited (exitCode : Int)
  | stdoutWritten (exitCode : Int)
  | stderrWritten (exitCode : Int)
  /-- `process.json` was opened -/
  | recordCreated (exitCode : Int)
deriving DecidableEq

/-- A history of calls of `execute` on one output directory. -/
structure ExecutionState where
  directory : Directory
  running : Option (Plan × Phase)

/-- What happens next. A process that did not write its result exits with an error. -/
inductive ExecutionAction
  | launch (plan : Plan)
  | createResult
  | writeResult (value : Json)
  | exit (exitCode : Int)
  | writeStdout
  | writeStderr
  | createRecord
  | writeRecord (startedUtc endedUtc : String)
  /-- the runner and its process are killed -/
  | kill

/-- The `metadata` that `execute` saves. -/
def processRecord (sha256 : ByteArray → String) (plan : Plan) (exitCode : Int)
    (startedUtc endedUtc : String) : Json :=
  .obj [("started_utc", .str startedUtc), ("ended_utc", .str endedUtc),
    ("exit_code", .int exitCode), ("command", .arr (plan.command.map .str)),
    ("resume_plan_sha256", .str (plan.fingerprint sha256)),
    ("credential_source",
      .str (if plan.credentialEnvName.truthy then "environment" else "none"))]

/-- An action that is not possible. -/
inductive NotPossible
  | notPossible

/-- `execute`, one effect at a time. -/
def executeStep (sha256 : ByteArray → String) (s : ExecutionState) :
    ExecutionAction → Except NotPossible ExecutionState
  | .launch plan =>
    match s.running with
    | none => .ok { s with running := some (plan, .launched) }
    | some _ => .error .notPossible
  | .createResult =>
    match s.running with
    | some (plan, .launched) =>
      .ok { directory := { s.directory with result := some ⟨none, plan⟩ }
            running := some (plan, .created) }
    | _ => .error .notPossible
  | .writeResult value =>
    match s.running with
    | some (plan, .created) =>
      .ok { directory := { s.directory with result := some ⟨some value, plan⟩ }
            running := some (plan, .written) }
    | _ => .error .notPossible
  | .exit exitCode =>
    match s.running with
    | some (plan, .written) => .ok { s with running := some (plan, .exited exitCode) }
    | some (plan, .launched) =>
      if exitCode = 0 then .error .notPossible
      else .ok { s with running := some (plan, .exited exitCode) }
    | some (plan, .created) =>
      if exitCode = 0 then .error .notPossible
      else .ok { s with running := some (plan, .exited exitCode) }
    | _ => .error .notPossible
  | .writeStdout =>
    match s.running with
    | some (plan, .exited exitCode) => .ok { s with running := some (plan, .stdoutWritten exitCode) }
    | _ => .error .notPossible
  | .writeStderr =>
    match s.running with
    | some (plan, .stdoutWritten exitCode) =>
      .ok { s with running := some (plan, .stderrWritten exitCode) }
    | _ => .error .notPossible
  | .createRecord =>
    match s.running with
    | some (plan, .stderrWritten exitCode) =>
      .ok { directory := { s.directory with process := some none }
            running := some (plan, .recordCreated exitCode) }
    | _ => .error .notPossible
  | .writeRecord startedUtc endedUtc =>
    match s.running with
    | some (plan, .recordCreated exitCode) =>
      let record := processRecord sha256 plan exitCode startedUtc endedUtc
      .ok { directory := { s.directory with process := some (some record) }, running := none }
    | _ => .error .notPossible
  | .kill =>
    match s.running with
    | some _ => .ok { s with running := none }
    | none => .error .notPossible

/-- The histories on a directory that was empty at first. -/
def executions (sha256 : ByteArray → String) : Lts ExecutionState ExecutionAction :=
  Lts.ofStep (fun s => s = ⟨⟨none, none⟩, none⟩) (executeStep sha256)

/-! ### Resumption -/

/-- A section of a result that passed the validator. -/
def objectSection (result : Fields) (name : String) : Fields :=
  match get result name (.obj []) with
  | .obj fields => fields
  | _ => []

/-- What `completed_run` requires of the process record. -/
def recordMatches (metadata : Fields) (command : List String) (planSha256 : String) : Bool :=
  Json.pyEq (get metadata "exit_code" .null) (.int 0) &&
    Json.pyEq (get metadata "command" .null) (.arr (command.map .str)) &&
    Json.pyEq (get metadata "resume_plan_sha256" .null) (.str planSha256)

/-- What `completed_run` requires of a result that passed the validator. -/
def resultMatches (result : Fields) (expected : RunCoordinate) (expectedConfiguration : Fields) :
    Bool :=
  let metadata := objectSection result "metadata"
  let configuration := objectSection result "configuration"
  let summary := objectSection result "summary"
  let validity := objectSection result "validity"
  Json.pyEq (get metadata "run_id" .null) (.str expected.runId) &&
    Json.pyEq (get metadata "label" .null) (.str expected.label) &&
    Json.pyEq (get metadata "repeat" .null) (.int expected.repeatIndex) &&
    Json.pyEq (get metadata "execution_order" .null) (.int expected.executionOrder) &&
    Json.pyEq (get configuration "mode" .null) (.str expected.mode) &&
    Json.pyEq (get configuration "concurrency" .null) (.int expected.concurrency) &&
    Json.pyEq (get configuration "requests" .null) (.int expected.requests) &&
    expectedConfiguration.all (fun field =>
      Json.pyEq (get configuration field.1 .null) field.2) &&
    Json.pyEq (get summary "attempted" .null) (.int expected.requests) &&
    Json.pyEq (get summary "successful" .null) (.int expected.requests) &&
    Json.pyEq (get summary "failed" .null) (.int 0) &&
    (match get result "per_request" (.arr []) with
      | .arr requests => decide ((requests.length : Int) = expected.requests)
      | _ => false) &&
    get validity "valid" .null = .bool true

/-- `completed_run`; `none` is an exception. -/
def completedRun (inner : Json → Text) (directory : Directory) (command : List String)
    (expected : RunCoordinate) (expectedConfiguration : Fields) (planSha256 : String) :
    Option Bool :=
  match directory.result.bind (·.value), directory.process.join with
  | some (.obj result), some (.obj metadata) =>
    match ValidateResult.validate inner (.obj result) with
    | some [] =>
      some (recordMatches metadata command planSha256 &&
        resultMatches result expected expectedConfiguration)
    | some _ => some false
    | none => none
  | _, _ => some false

/-- `completed_run` for a planned run. -/
def PlannedRun.completed (env : Surroundings) (inner : Json → Text) (run : PlannedRun)
    (directory : Directory) : Option Bool :=
  completedRun inner directory run.plan.command run.plan.coordinate run.configuration
    (run.plan.fingerprint env.sha256)

end RunMatrix

end Gateway
