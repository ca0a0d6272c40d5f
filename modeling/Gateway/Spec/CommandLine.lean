import Gateway.Model.GatewayBench
import Gateway.Model.RunMatrix

/-!
# The command line between the harness and the benchmark

The command that `build_command` makes is a list of flags with their texts, and `parseFlags` of
the benchmark reads each flag as its text: a flag that is there has the value of its text, a flag
that is not there its default.

## Key results

- `buildCommand_eq`: the command as a table of flags
- `options_of_given`: what the benchmark makes of a flag of the table
-/

namespace Gateway

namespace RunMatrix

open ValidateResult (get)

variable {inner : Json → Text} {unicode : Unicode} {resolvePath : String → String}
  {config target : Fields} {mode : String} {concurrency : Int} {repeatIndex order : Nat}
  {output runId : String}

/-! ## The table of flags -/

/-- The flags of a table that have a text. -/
def given (table : List (String × Option String)) : List (String × String) :=
  table.filterMap fun e => e.2.map fun text => (e.1, text)

theorem given_append (table table' : List (String × Option String)) :
    given (table ++ table') = given table ++ given table' :=
  List.filterMap_append

theorem mem_given {table : List (String × Option String)} {name text : String} :
    (name, text) ∈ given table ↔ (name, some text) ∈ table := by
  simp only [given, List.mem_filterMap, Option.map_eq_some_iff]
  constructor
  · intro h
    obtain ⟨e, he, t, ht, hpair⟩ := h
    obtain ⟨rfl, rfl⟩ := Prod.mk.inj hpair
    rw [← ht]
    exact he
  · intro h
    exact ⟨_, h, text, rfl, rfl⟩

theorem given_names (table : List (String × Option String)) :
    ((given table).map Prod.fst).Sublist (table.map Prod.fst) := by
  induction table with
  | nil => exact List.Sublist.slnil
  | cons e table ih =>
    obtain ⟨name, text⟩ := e
    cases text with
    | none => exact ih.cons name
    | some text => exact ih.cons_cons name

/-- The text that `add_optional` adds for a value. -/
def optionalText (inner : Json → Text) (value : Json) : Option String :=
  if value ≠ .null ∧ value ≠ .str "" then some (str inner value) else none

/-- What `build_command` looks up and may fail at. -/
structure CommandParts where
  generation : Fields
  baseUrl : Json
  model : Json
  dataset : Json
  requests : Int
  label : Json

/-- Where the parts of a command come from. -/
structure CommandParts.Of (unicode : Unicode) (config target : Fields) (concurrency : Int)
    (p : CommandParts) : Prop where
  generation : asDict (get config "generation" (.obj [])) = some p.generation
  baseUrl : item target "base_url" = some p.baseUrl
  model : item config "model" = some p.model
  dataset : item config "dataset" = some p.dataset
  requests : requestsFor unicode config concurrency = some p.requests
  label : item target "label" = some p.label

/-- The flags that a command always has, with their texts. -/
def fixedFlags (inner : Json → Text) (resolvePath : String → String) (config target : Fields)
    (mode : String) (concurrency : Int) (repeatIndex order : Nat) (output runId : String)
    (p : CommandParts) : List (String × Option String) :=
  [("base-url", some (str inner p.baseUrl)),
    ("endpoint", some (str inner (get config "endpoint" (.str "/v1/chat/completions")))),
    ("model", some (str inner p.model)),
    ("dataset", some (resolvePath (str inner p.dataset))),
    ("mode", some mode),
    ("concurrency", some (str inner (.int concurrency))),
    ("requests", some (str inner (.int p.requests))),
    ("warmup", some (str inner (get config "warmup" (.int 20)))),
    ("timeout", some (str inner (get config "timeout" (.str "120s")))),
    ("label", some (str inner p.label)),
    ("output", some output),
    ("temperature", some (str inner (get p.generation "temperature" (.int 0)))),
    ("top-p", some (str inner (get p.generation "top_p" (.int 1)))),
    ("max-tokens", some (str inner (get p.generation "max_tokens" (.int 128)))),
    ("seed", some (str inner (get p.generation "seed" (.int 1)))),
    ("run-id", some runId),
    ("repeat", some (str inner (.int repeatIndex))),
    ("execution-order", some (str inner (.int order))),
    ("batching-enabled",
      some (str inner (get target "batching_enabled" (.str "not_applicable")))),
    ("prefix-caching", some (str inner (get config "prefix_caching" (.str "unknown")))),
    ("vllm-version", some (str inner (get config "vllm_version" (.str "unknown"))))]

/-- The flags that take their value from the target or the configuration, with its key. -/
def targetFlags : List (String × String) :=
  [("gateway-metrics-url", "gateway_metrics_url"), ("vllm-metrics-url", "vllm_metrics_url"),
    ("output-token-counter", "output_token_counter"), ("batch-max-size", "batch_max_size"),
    ("batch-max-wait-seconds", "batch_max_wait_seconds"),
    ("tenant-max-inflight", "tenant_max_inflight"), ("global-max-inflight", "global_max_inflight"),
    ("gateway-git-sha", "gateway_git_sha")]

/-- The flags that take their value from the configuration, with its key. -/
def configFlags : List (String × String) :=
  [("sample-interval", "sample_interval"), ("gpu-sample-interval", "gpu_sample_interval"),
    ("vllm-config", "vllm_config"), ("environment", "environment")]

/-- The value of one of `configFlags`. -/
def configValue (inner : Json → Text) (resolvePath : String → String) (config : Fields)
    (key : String) : Json :=
  let value := get config key .null
  if key ∈ ["vllm_config", "environment"] ∧ value.truthy then
    .str (resolvePath (str inner value))
  else value

/-- The text of the flag for the configuration of the gateway. -/
def gatewayConfigText (inner : Json → Text) (resolvePath : String → String) (target : Fields) :
    Option String :=
  let value := get target "gateway_config" .null
  if value.truthy then optionalText inner (.str (resolvePath (str inner value))) else none

/-- The flags of a command, with their texts. -/
def flagTable (inner : Json → Text) (resolvePath : String → String) (config target : Fields)
    (mode : String) (concurrency : Int) (repeatIndex order : Nat) (output runId : String)
    (p : CommandParts) : List (String × Option String) :=
  fixedFlags inner resolvePath config target mode concurrency repeatIndex order output runId p ++
    targetFlags.map (fun flag => (flag.1, optionalText inner (targetOrConfig config target flag.2))) ++
    configFlags.map (fun flag =>
      (flag.1, optionalText inner (configValue inner resolvePath config flag.2))) ++
    [("gateway-config", gatewayConfigText inner resolvePath target)]

/-- The names of the flags of a command. -/
def flagNames : List String :=
  ["base-url", "endpoint", "model", "dataset", "mode", "concurrency", "requests", "warmup",
    "timeout", "label", "output", "temperature", "top-p", "max-tokens", "seed", "run-id", "repeat",
    "execution-order", "batching-enabled", "prefix-caching", "vllm-version", "gateway-metrics-url",
    "vllm-metrics-url", "output-token-counter", "batch-max-size", "batch-max-wait-seconds",
    "tenant-max-inflight", "global-max-inflight", "gateway-git-sha", "sample-interval",
    "gpu-sample-interval", "vllm-config", "environment", "gateway-config"]

theorem flagTable_names (p : CommandParts) :
    (flagTable inner resolvePath config target mode concurrency repeatIndex order output runId
      p).map Prod.fst = flagNames := rfl

theorem nodup_flagNames : flagNames.Nodup := by decide

theorem plain_flagNames : ∀ name ∈ flagNames, FlagSet.Plain name := by decide

/-- What starts the benchmark. -/
def launcher : List String := ["go", "run", "./cmd/gateway-bench"]

/-- A command with the flags of a table. -/
def commandOf (table : List (String × Option String)) : List String :=
  launcher ++ FlagSet.arguments (given table)

theorem addOptional_commandOf (table : List (String × Option String)) (name : String)
    (value : Json) :
    addOptional inner (commandOf table) ("--" ++ name) value =
      commandOf (table ++ [(name, optionalText inner value)]) := by
  unfold addOptional commandOf optionalText
  rw [given_append]
  split
  · simp [given, FlagSet.arguments]
  · simp [given]

/-- A flag without a text adds nothing. -/
theorem commandOf_absent (table : List (String × Option String)) (name : String) :
    commandOf (table ++ [(name, none)]) = commandOf table := by
  rw [commandOf, given_append]
  simp [given, commandOf]

theorem foldl_commandOf {κ : Type} (value : κ → Json) (flags : List (String × κ))
    (table : List (String × Option String)) :
    (flags.map fun flag => ("--" ++ flag.1, flag.2)).foldl
        (fun command flag => addOptional inner command flag.1 (value flag.2)) (commandOf table) =
      commandOf (table ++ flags.map fun flag => (flag.1, optionalText inner (value flag.2))) := by
  induction flags generalizing table with
  | nil => simp
  | cons flag flags ih =>
    rw [List.map_cons, List.foldl_cons, addOptional_commandOf, ih, List.append_assoc,
      List.map_cons]
    rfl

/-- The command of `build_command` is a table of flags. -/
theorem buildCommand_eq {command : List String}
    (h : buildCommand inner unicode resolvePath config target mode concurrency repeatIndex order
      output runId = some command) :
    ∃ p : CommandParts, p.Of unicode config target concurrency ∧
      command = commandOf (flagTable inner resolvePath config target mode concurrency repeatIndex
        order output runId p) := by
  simp only [buildCommand, bind, Option.bind_eq_some_iff, pure] at h
  obtain ⟨generation, hgeneration, baseUrl, hbaseUrl, model, hmodel, dataset, hdataset, requests,
    hrequests, label, hlabel, hcommand⟩ := h
  refine ⟨⟨generation, baseUrl, model, dataset, requests, label⟩,
    ⟨hgeneration, hbaseUrl, hmodel, hdataset, hrequests, hlabel⟩, ?_⟩
  have htarget := @foldl_commandOf inner _ (targetOrConfig config target) targetFlags
  have hconfig := @foldl_commandOf inner _ (configValue inner resolvePath config)
    configFlags
  have hfixed := Eq.refl (commandOf (fixedFlags inner resolvePath config target mode concurrency
    repeatIndex order output runId ⟨generation, baseUrl, model, dataset, requests, label⟩))
  conv at hfixed =>
    rhs
    simp only [commandOf, fixedFlags, launcher, given, FlagSet.arguments, List.filterMap_cons,
      List.filterMap_nil, Option.map_some, List.flatMap_cons, List.flatMap_nil, List.cons_append,
      List.nil_append, String.reduceAppend]
  simp only [targetFlags, List.map_cons, List.map_nil, String.reduceAppend] at htarget
  simp only [configFlags, configValue, List.map_cons, List.map_nil, String.reduceAppend] at hconfig
  rw [← hfixed, htarget, hconfig] at hcommand
  split at hcommand
  · next htruthy =>
    have hgateway : "--gateway-config" = "--" ++ "gateway-config" := by decide
    rw [hgateway, addOptional_commandOf] at hcommand
    rw [← Option.some.inj hcommand, flagTable, gatewayConfigText]
    rw [if_pos htruthy]
    rfl
  · next htruthy =>
    rw [← Option.some.inj hcommand, flagTable, gatewayConfigText]
    rw [if_neg htruthy]
    exact (commandOf_absent ..).symm

end RunMatrix

/-! ## The variables of the benchmark -/

namespace GatewayBench

open FlagSet (Flag Writes)

variable {parseDuration : String → Option Int}

theorem nodup_flags : ((flags parseDuration).map Flag.name).Nodup := by
  show ["base-url", "endpoint", "model", "dataset", "mode", "concurrency", "requests", "warmup",
    "timeout", "label", "output", "temperature", "top-p", "max-tokens", "seed",
    "gateway-metrics-url", "vllm-metrics-url", "sample-interval", "gpu-sample-interval",
    "output-token-counter", "run-id", "repeat", "execution-order", "batching-enabled",
    "batch-max-size", "batch-max-wait-seconds", "tenant-max-inflight", "global-max-inflight",
    "prefix-caching", "gateway-version", "gateway-git-sha", "vllm-version", "vllm-config",
    "gateway-config", "environment"].Nodup
  decide

theorem keeps_stringVar {α : Type} {get : Options → α} {name own : String}
    {set : String → Options → Options} (h : own ≠ name → ∀ v o, get (set v o) = get o) :
    (stringVar own set).Keeps get name := by
  intro hne value o o' hset
  rw [← Option.some.inj hset]
  exact h hne value o

/-- The other kinds of flags, by what they read of their text. -/
theorem keeps_map {α β : Type} {get : Options → α} {name own : String} {read : String → Option β}
    {set : β → Options → Options} (h : own ≠ name → ∀ v o, get (set v o) = get o) :
    Flag.Keeps ⟨own, fun value o => (read value).map fun v => set v o⟩ get name := by
  intro hne value o o' hset
  obtain ⟨v, hv, rfl⟩ := Option.map_eq_some_iff.mp hset
  exact h hne v o

/-- Variables of strings, with how their flags set them. -/
def stringVars : List (String × (Options → String) × (String → Options → Options)) :=
  [("base-url", (·.baseUrl), fun v o => { o with baseUrl := v }),
    ("endpoint", (·.endpoint), fun v o => { o with endpoint := v }),
    ("model", (·.model), fun v o => { o with model := v }),
    ("dataset", (·.dataset), fun v o => { o with dataset := v }),
    ("mode", (·.mode), fun v o => { o with mode := v }),
    ("label", (·.label), fun v o => { o with label := v }),
    ("run-id", (·.runId), fun v o => { o with runId := v }),
    ("batching-enabled", (·.batchingEnabled), fun v o => { o with batchingEnabled := v }),
    ("prefix-caching", (·.prefixCaching), fun v o => { o with prefixCaching := v })]

/-- Variables of integers, with how their flags set them. -/
def intVars : List (String × (Options → Int) × (Int → Options → Options)) :=
  [("concurrency", (·.concurrency), fun v o => { o with concurrency := v }),
    ("requests", (·.requests), fun v o => { o with requests := v }),
    ("warmup", (·.warmup), fun v o => { o with warmup := v }),
    ("max-tokens", (·.maxTokens), fun v o => { o with maxTokens := v }),
    ("seed", (·.seed), fun v o => { o with seed := v }),
    ("repeat", (·.repeatIndex), fun v o => { o with repeatIndex := v }),
    ("execution-order", (·.executionOrder), fun v o => { o with executionOrder := v }),
    ("batch-max-size", (·.batchMaxSize), fun v o => { o with batchMaxSize := v }),
    ("tenant-max-inflight", (·.tenantMaxInflight), fun v o => { o with tenantMaxInflight := v }),
    ("global-max-inflight", (·.globalMaxInflight), fun v o => { o with globalMaxInflight := v })]

/-- Variables of floats, with how their flags set them. -/
def floatVars : List (String × (Options → Rat) × (Rat → Options → Options)) :=
  [("temperature", (·.temperature), fun v o => { o with temperature := v }),
    ("top-p", (·.topP), fun v o => { o with topP := v }),
    ("batch-max-wait-seconds", (·.batchMaxWait), fun v o => { o with batchMaxWait := v })]

theorem stringVars_mem : ∀ var ∈ stringVars, stringVar var.1 var.2.2 ∈ flags parseDuration := by
  simp only [stringVars, flags, List.forall_mem_cons, List.not_mem_nil, IsEmpty.forall_iff,
    implies_true, and_true]
  simp only [List.mem_cons, true_or, or_true, and_self]

theorem intVars_mem : ∀ var ∈ intVars, intVar var.1 var.2.2 ∈ flags parseDuration := by
  simp only [intVars, flags, List.forall_mem_cons, List.not_mem_nil, IsEmpty.forall_iff,
    implies_true, and_true]
  simp only [List.mem_cons, true_or, or_true, and_self]

theorem floatVars_mem : ∀ var ∈ floatVars, float64Var var.1 var.2.2 ∈ flags parseDuration := by
  simp only [floatVars, flags, List.forall_mem_cons, List.not_mem_nil, IsEmpty.forall_iff,
    implies_true, and_true]
  simp only [List.mem_cons, true_or, or_true, and_self]

-- a flag other than the own one writes another field of the record

theorem stringVars_keep : ∀ var ∈ stringVars, ∀ flag ∈ flags parseDuration,
    flag.Keeps var.2.1 var.1 := by
  simp only [stringVars, flags, List.forall_mem_cons, List.not_mem_nil, IsEmpty.forall_iff,
    implies_true, and_true]
  repeat' apply And.intro
  all_goals first
    | exact keeps_stringVar fun _ _ _ => rfl
    | exact keeps_map fun _ _ _ => rfl
    | exact keeps_stringVar fun hne => absurd rfl hne

theorem intVars_keep : ∀ var ∈ intVars, ∀ flag ∈ flags parseDuration,
    flag.Keeps var.2.1 var.1 := by
  simp only [intVars, flags, List.forall_mem_cons, List.not_mem_nil, IsEmpty.forall_iff,
    implies_true, and_true]
  repeat' apply And.intro
  all_goals first
    | exact keeps_stringVar fun _ _ _ => rfl
    | exact keeps_map fun _ _ _ => rfl
    | exact keeps_map fun hne => absurd rfl hne

theorem floatVars_keep : ∀ var ∈ floatVars, ∀ flag ∈ flags parseDuration,
    flag.Keeps var.2.1 var.1 := by
  simp only [floatVars, flags, List.forall_mem_cons, List.not_mem_nil, IsEmpty.forall_iff,
    implies_true, and_true]
  repeat' apply And.intro
  all_goals first
    | exact keeps_stringVar fun _ _ _ => rfl
    | exact keeps_map fun _ _ _ => rfl
    | exact keeps_map fun hne => absurd rfl hne

theorem stringVars_writes {name : String} {get : Options → String}
    {set : String → Options → Options} (h : (name, get, set) ∈ stringVars) :
    Writes (flags parseDuration) get name.toList some := by
  have hget : ∀ var ∈ stringVars, ∀ v o, var.2.1 (var.2.2 v o) = v := by simp [stringVars]
  show Writes _ get (stringVar name set).name.toList _
  refine FlagSet.writes_of_keeps nodup_flags (stringVars_mem _ h) ?_
    (stringVars_keep _ h)
  intro value o o' hset
  rw [← Option.some.inj hset]
  exact congrArg some (hget _ h value o).symm

theorem intVars_writes {name : String} {get : Options → Int} {set : Int → Options → Options}
    (h : (name, get, set) ∈ intVars) :
    Writes (flags parseDuration) get name.toList fun value => Strconv.parseInt value.toList := by
  have hget : ∀ var ∈ intVars, ∀ v o, var.2.1 (var.2.2 v o) = v := by simp [intVars]
  show Writes _ get (intVar name set).name.toList _
  refine FlagSet.writes_of_keeps nodup_flags (intVars_mem _ h) ?_
    (intVars_keep _ h)
  intro value o o' hset
  obtain ⟨v, hv, rfl⟩ := Option.map_eq_some_iff.mp hset
  rw [hv]
  exact congrArg some (hget _ h v o).symm

theorem floatVars_writes {name : String} {get : Options → Rat} {set : Rat → Options → Options}
    (h : (name, get, set) ∈ floatVars) :
    Writes (flags parseDuration) get name.toList fun value => Strconv.parseFloat value.toList := by
  have hget : ∀ var ∈ floatVars, ∀ v o, var.2.1 (var.2.2 v o) = v := by simp [floatVars]
  show Writes _ get (float64Var name set).name.toList _
  refine FlagSet.writes_of_keeps nodup_flags (floatVars_mem _ h) ?_
    (floatVars_keep _ h)
  intro value o o' hset
  obtain ⟨v, hv, rfl⟩ := Option.map_eq_some_iff.mp hset
  rw [hv]
  exact congrArg some (hget _ h v o).symm

end GatewayBench

/-! ## What the benchmark reads -/

namespace RunMatrix

open FlagSet (Writes)
open GatewayBench (Options parseFlags flags defaults accepted)

variable {parseDuration : String → Option Int} {urlAccepted : String → Bool}
  {table : List (String × Option String)} {o : Options} {α : Type} {get : Options → α}
  {name : String} {read : String → Option α}

theorem parse_of_parseFlags
    (h : parseFlags parseDuration urlAccepted ((commandOf table).drop 3) = some o) :
    FlagSet.parse (flags parseDuration) defaults (FlagSet.arguments (given table)) = some (o, []) ∧
      accepted urlAccepted o = true := by
  simp only [parseFlags, bind, Option.bind_eq_some_iff] at h
  obtain ⟨parsed, hparse, hrest⟩ := h
  have hdrop : (commandOf table).drop 3 = FlagSet.arguments (given table) := rfl
  rw [hdrop] at hparse
  split at hrest
  · next hcond =>
    rw [← Option.some.inj hrest, ← hcond.1]
    exact ⟨hparse, hcond.2⟩
  · cases hrest

/-- A flag with a text has the value of the text. -/
theorem options_of_given (hnames : table.map Prod.fst = flagNames)
    (hwrites : Writes (flags parseDuration) get name.toList read)
    (h : parseFlags parseDuration urlAccepted ((commandOf table).drop 3) = some o)
    {text : String} (hmem : (name, some text) ∈ table) : read text = some (get o) := by
  have hsub := given_names table
  rw [hnames] at hsub
  refine hwrites.of_parse ?_ (nodup_flagNames.sublist hsub) (mem_given.mpr hmem)
    (parse_of_parseFlags h).1
  intro p hp
  exact plain_flagNames p.1 (hsub.subset (List.mem_map_of_mem hp))

end RunMatrix

end Gateway
