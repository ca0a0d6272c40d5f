import Gateway.Model.RunMatrix

/-!
# Resuming after crashes

`completed_run` accepts a result of its own plan: if the process record in a directory is that
of a plan and of a successful exit, the result next to it was written under this plan. The
exception is an execution that was killed after its process had written the result and before
the runner opened the record, which leaves the result of one plan and the record of another.

## Key results

- `Plan.same_of_fingerprint`: a fingerprint tells plans apart
- `Coherent`: what holds of a directory at each point of `execute`
- `resume_sound`: what `completed_run` accepts
-/

namespace Gateway.RunMatrix

variable {sha256 : ByteArray → String} {p q plan : Plan}

/-! ## Fingerprints -/

/-- Two plans with one command, coordinate and contents of the input files, and one name of the
    credential, up to the order in a dictionary. -/
structure Plan.Same (p q : Plan) : Prop where
  command : p.command = q.command
  coordinate : p.coordinate = q.coordinate
  inputs : p.inputs = q.inputs
  credentialEnvName : Json.sortKeys p.credentialEnvName = Json.sortKeys q.credentialEnvName

theorem RunCoordinate.eq_of_sortKeys {c d : RunCoordinate}
    (h : Json.sortKeys c.asdict = Json.sortKeys d.asdict) : c = d := by
  have hkeyed : ∀ c : RunCoordinate, Json.Keyed
      [("run_id", Json.str c.runId), ("label", .str c.label), ("mode", .str c.mode),
        ("concurrency", .int c.concurrency), ("repeat", .int c.repeatIndex),
        ("execution_order", .int c.executionOrder), ("requests", .int c.requests)] := by
    intro c
    show ["run_id", "label", "mode", "concurrency", "repeat", "execution_order",
      "requests"].Nodup
    decide
  have hfield := Json.getField_of_sortKeys_eq (hkeyed c) h
  have hrunId := hfield "run_id"
  have hlabel := hfield "label"
  have hmode := hfield "mode"
  have hconcurrency := hfield "concurrency"
  have hrepeat := hfield "repeat"
  have horder := hfield "execution_order"
  have hrequests := hfield "requests"
  simp [Json.getField, Json.sortKeys] at hrunId hlabel hmode hconcurrency hrepeat horder hrequests
  cases c
  cases d
  simp_all

/-- The members of `input_sha256`. -/
def inputFields (sha256 : ByteArray → String) (inputs : InputFiles) : Fields :=
  (referencedInputHashes sha256 inputs).map fun hash => (hash.1, .str hash.2)

theorem keyed_inputFields (inputs : InputFiles) : Json.Keyed (inputFields sha256 inputs) := by
  obtain ⟨dataset, environment, gatewayConfig, vllmConfig⟩ := inputs
  cases dataset <;> cases environment <;> cases gatewayConfig <;> cases vllmConfig <;>
    simp [Json.Keyed, inputFields, referencedInputHashes]

theorem getField_inputFields (inputs : InputFiles) :
    Json.getField (inputFields sha256 inputs) "dataset" =
        inputs.dataset.map (fun contents => .str (sha256 contents)) ∧
      Json.getField (inputFields sha256 inputs) "environment" =
        inputs.environment.map (fun contents => .str (sha256 contents)) ∧
      Json.getField (inputFields sha256 inputs) "gateway_config" =
        inputs.gatewayConfig.map (fun contents => .str (sha256 contents)) ∧
      Json.getField (inputFields sha256 inputs) "vllm_config" =
        inputs.vllmConfig.map (fun contents => .str (sha256 contents)) := by
  obtain ⟨dataset, environment, gatewayConfig, vllmConfig⟩ := inputs
  cases dataset <;> cases environment <;> cases gatewayConfig <;> cases vllmConfig <;>
    simp [Json.getField_cons, inputFields, referencedInputHashes]

/-- Files with the same hashes have the same contents. -/
theorem InputFiles.eq_of_sortKeys (hsha : Function.Injective sha256) {i j : InputFiles}
    (h : Json.sortKeys (.obj (inputFields sha256 i)) = Json.sortKeys (.obj (inputFields sha256 j))) :
    i = j := by
  have hcontents : ∀ x y : Option ByteArray,
      (x.map fun contents => Json.str (sha256 contents)).map Json.sortKeys =
        (y.map fun contents => Json.str (sha256 contents)).map Json.sortKeys → x = y := by
    intro x y hxy
    cases x with
    | none =>
      cases y with
      | none => rfl
      | some y => cases hxy
    | some x =>
      cases y with
      | none => cases hxy
      | some y =>
        have hhash : sha256 x = sha256 y := Json.str.inj (Option.some.inj hxy)
        rw [hsha hhash]
  have hfield := Json.getField_of_sortKeys_eq (keyed_inputFields i) h
  obtain ⟨hdataset, henvironment, hgateway, hvllm⟩ := @getField_inputFields sha256 i
  obtain ⟨hdataset', henvironment', hgateway', hvllm'⟩ := @getField_inputFields sha256 j
  have h₁ := hfield "dataset"
  have h₂ := hfield "environment"
  have h₃ := hfield "gateway_config"
  have h₄ := hfield "vllm_config"
  rw [hdataset, hdataset'] at h₁
  rw [henvironment, henvironment'] at h₂
  rw [hgateway, hgateway'] at h₃
  rw [hvllm, hvllm'] at h₄
  cases i
  cases j
  rw [InputFiles.mk.injEq]
  exact ⟨hcontents _ _ h₁, hcontents _ _ h₂, hcontents _ _ h₃, hcontents _ _ h₄⟩

/-- The document that `resume_plan_sha256` hashes. -/
def Plan.document (sha256 : ByteArray → String) (plan : Plan) : Fields :=
  [("schema_version", .int 1), ("command", .arr (plan.command.map .str)),
    ("coordinate", plan.coordinate.asdict),
    ("input_sha256", .obj (inputFields sha256 plan.inputs)),
    ("credential_env_name", plan.credentialEnvName)]

/-- A fingerprint tells plans apart. -/
theorem Plan.same_of_fingerprint (hsha : Function.Injective sha256)
    (h : p.fingerprint sha256 = q.fingerprint sha256) : p.Same q := by
  have htext : Json.dumpsAscii (Json.sortKeys (.obj (p.document sha256))) =
      Json.dumpsAscii (Json.sortKeys (.obj (q.document sha256))) :=
    String.toByteArray_inj.mp (hsha h)
  have hkeyed : Json.Keyed (p.document sha256) := by
    show ["schema_version", "command", "coordinate", "input_sha256", "credential_env_name"].Nodup
    decide
  have hfield := Json.getField_of_sortKeys_eq hkeyed (Json.dumpsAscii_injective htext)
  have hcommand := hfield "command"
  have hcoordinate := hfield "coordinate"
  have hinputs := hfield "input_sha256"
  have hcredential := hfield "credential_env_name"
  simp only [Plan.document, Json.getField_cons, Json.getField_nil, String.reduceEq, if_true,
    if_false, Option.map_some, Option.some.injEq] at hcommand hcoordinate hinputs hcredential
  constructor
  case command =>
    simp only [Json.sortKeys, Json.sortKeysItems_str, Json.arr.injEq] at hcommand
    exact List.map_injective_iff.mpr (fun _ _ => Json.str.inj) hcommand
  case coordinate => exact RunCoordinate.eq_of_sortKeys hcoordinate
  case inputs => exact InputFiles.eq_of_sortKeys hsha hinputs
  case credentialEnvName => exact hcredential

/-! ## Histories -/

variable {s s' : ExecutionState} {a : ExecutionAction} {d : Directory}

/-- The runner is between the end of the process's work on its result and `process.json`. -/
def Phase.unrecorded : Phase → Bool
  | .written | .exited _ | .stdoutWritten _ | .stderrWritten _ => true
  | _ => false

/-- The result is a document that a process wrote under a plan. -/
def Wrote (d : Directory) (plan : Plan) : Prop := ∃ value, d.result = some ⟨some value, plan⟩

/-- The process has written its result, and the record is still that of an earlier execution. -/
def Torn (s : ExecutionState) : Prop :=
  ∃ plan phase, s.running = some (plan, phase) ∧ phase.unrecorded = true ∧ Wrote s.directory plan

/-- A record of a successful exit is about the result that is there. -/
def Attributed (sha256 : ByteArray → String) (d : Directory) : Prop :=
  ∀ file value record, d.result = some file → file.value = some value →
    d.process = some (some record) → ∃ plan exitCode startedUtc endedUtc,
      record = processRecord sha256 plan exitCode startedUtc endedUtc ∧
        (exitCode = 0 → file.writer = plan)

/-- A successful exit comes after the result was written; if there was none, the directory is as
    it was. -/
def Exited (sha256 : ByteArray → String) (d : Directory) (plan : Plan) (exitCode : Int) : Prop :=
  Wrote d plan ∨ exitCode ≠ 0 ∧ Attributed sha256 d

/-- What holds of the directory while an execution is in some phase. -/
def Phase.Holds (sha256 : ByteArray → String) (d : Directory) (plan : Plan) : Phase → Prop
  | .launched => Attributed sha256 d
  | .created => ∃ writer, d.result = some ⟨none, writer⟩
  | .written => Wrote d plan
  | .exited exitCode => Exited sha256 d plan exitCode
  | .stdoutWritten exitCode => Exited sha256 d plan exitCode
  | .stderrWritten exitCode => Exited sha256 d plan exitCode
  | .recordCreated exitCode => d.process = some none ∧ (exitCode = 0 → Wrote d plan)

/-- What holds of the directory at each point of a history. -/
def Coherent (sha256 : ByteArray → String) (s : ExecutionState) : Prop :=
  s.running.elim (Attributed sha256 s.directory) fun run =>
    run.2.Holds sha256 s.directory run.1

theorem attributed_of_unfinished {writer : Plan} (h : d.result = some ⟨none, writer⟩) :
    Attributed sha256 d := by
  intro file value record hfile hvalue _
  rw [h] at hfile
  cases hfile
  cases hvalue

theorem attributed_of_unrecorded (h : d.process = some none) : Attributed sha256 d := by
  intro file value record _ _ hrecord
  rw [h] at hrecord
  cases hrecord

/-- A record is about the result of its own execution. -/
theorem attributed_of_recorded {exitCode : Int} {startedUtc endedUtc : String}
    (h : exitCode = 0 → Wrote d plan) : Attributed sha256
      { d with process := some (some (processRecord sha256 plan exitCode startedUtc endedUtc)) } := by
  intro file value record hfile _ hrecord
  refine ⟨plan, exitCode, startedUtc, endedUtc, ?_, ?_⟩
  · exact (Option.some.inj (Option.some.inj hrecord)).symm
  · intro hzero
    obtain ⟨value', hwrote⟩ := h hzero
    rw [show d.result = some file from hfile] at hwrote
    rw [Option.some.inj hwrote]

/-- After a kill that does not tear, the directory is what it was or has no usable pair. -/
theorem Coherent.kill {phase : Phase} (h : Coherent sha256 s) (hrunning : s.running = some (plan, phase))
    (huntorn : ¬Torn s) : Attributed sha256 s.directory := by
  unfold Coherent at h
  rw [hrunning] at h
  have hwindow : phase.unrecorded = true → ¬Wrote s.directory plan :=
    fun hunrecorded hwrote => huntorn ⟨plan, phase, hrunning, hunrecorded, hwrote⟩
  have hexited : ∀ exitCode, phase.unrecorded = true → Exited sha256 s.directory plan exitCode →
      Attributed sha256 s.directory := by
    intro exitCode hunrecorded hexited
    rcases hexited with hwrote | ⟨-, hkept⟩
    · exact absurd hwrote (hwindow hunrecorded)
    · exact hkept
  cases phase with
  | launched => exact h
  | created =>
    obtain ⟨writer, hresult⟩ := h
    exact attributed_of_unfinished hresult
  | written => exact absurd h (hwindow rfl)
  | exited exitCode => exact hexited exitCode rfl h
  | stdoutWritten exitCode => exact hexited exitCode rfl h
  | stderrWritten exitCode => exact hexited exitCode rfl h
  | recordCreated exitCode => exact attributed_of_unrecorded h.1

/-- Every effect of `execute` keeps the directory coherent. -/
theorem Coherent.step (h : Coherent sha256 s) (huntorn : a = .kill → ¬Torn s)
    (hstep : executeStep sha256 s a = .ok s') : Coherent sha256 s' := by
  cases a with
  | launch plan =>
    simp only [executeStep] at hstep
    split at hstep
    · next hidle =>
      cases hstep
      unfold Coherent at h
      rw [hidle] at h
      exact h
    · cases hstep
  | createResult =>
    simp only [executeStep] at hstep
    split at hstep
    · next plan hrunning =>
      cases hstep
      exact ⟨plan, rfl⟩
    · cases hstep
  | writeResult value =>
    simp only [executeStep] at hstep
    split at hstep
    · next plan hrunning =>
      cases hstep
      exact ⟨value, rfl⟩
    · cases hstep
  | exit exitCode =>
    simp only [executeStep] at hstep
    split at hstep
    · next plan hrunning =>
      cases hstep
      unfold Coherent at h
      rw [hrunning] at h
      exact .inl h
    · next plan hrunning =>
      split at hstep
      · cases hstep
      · next hne =>
        cases hstep
        unfold Coherent at h
        rw [hrunning] at h
        exact .inr ⟨hne, h⟩
    · next plan hrunning =>
      split at hstep
      · cases hstep
      · next hne =>
        cases hstep
        unfold Coherent at h
        rw [hrunning] at h
        obtain ⟨writer, hresult⟩ := h
        exact .inr ⟨hne, attributed_of_unfinished hresult⟩
    · cases hstep
  | writeStdout =>
    simp only [executeStep] at hstep
    split at hstep
    · next plan exitCode hrunning =>
      cases hstep
      unfold Coherent at h
      rw [hrunning] at h
      exact h
    · cases hstep
  | writeStderr =>
    simp only [executeStep] at hstep
    split at hstep
    · next plan exitCode hrunning =>
      cases hstep
      unfold Coherent at h
      rw [hrunning] at h
      exact h
    · cases hstep
  | createRecord =>
    simp only [executeStep] at hstep
    split at hstep
    · next plan exitCode hrunning =>
      cases hstep
      unfold Coherent at h
      rw [hrunning] at h
      refine ⟨rfl, fun hzero => ?_⟩
      rcases h with hwrote | ⟨hne, -⟩
      · exact hwrote
      · exact absurd hzero hne
    · cases hstep
  | writeRecord startedUtc endedUtc =>
    simp only [executeStep] at hstep
    split at hstep
    · next plan exitCode hrunning =>
      cases hstep
      unfold Coherent at h
      rw [hrunning] at h
      exact attributed_of_recorded h.2
    · cases hstep
  | kill =>
    have huntorn := huntorn rfl
    simp only [executeStep] at hstep
    split at hstep
    · next run hrunning =>
      cases hstep
      exact h.kill hrunning huntorn
    · cases hstep

/-- The kills that do not tear a result from its record. -/
def Untorn (s : ExecutionState) (a : ExecutionAction) : Prop := a = .kill → ¬Torn s

theorem coherent_inductive (sha256 : ByteArray → String) :
    (executions sha256).InductiveVia Untorn (Coherent sha256) where
  init s hinit := by
    rw [show s = ⟨⟨none, none⟩, none⟩ from hinit]
    intro file value record hfile
    cases hfile
  step s a s' h huntorn hstep := h.step huntorn hstep

/-! ## Resumption -/

/-- The record that `completed_run` accepts is one of a successful execution with the
    fingerprint of the plan. -/
theorem recordMatches_processRecord {command : List String} {planSha256 : String} {exitCode : Int}
    {startedUtc endedUtc : String} {metadata : Fields}
    (hrecord : Json.obj metadata = processRecord sha256 plan exitCode startedUtc endedUtc)
    (h : recordMatches metadata command planSha256 = true) :
    exitCode = 0 ∧ plan.fingerprint sha256 = planSha256 := by
  have hmetadata := Json.obj.inj hrecord
  unfold recordMatches at h
  simp only [Bool.and_eq_true, hmetadata, ValidateResult.get, Json.getField_cons, String.reduceEq,
    if_true, if_false, Option.getD_some] at h
  obtain ⟨⟨hexit, -⟩, hplan⟩ := h
  constructor
  · rw [Json.pyEq_int] at hexit
    simpa [Json.number] using hexit
  · rw [Json.pyEq_str] at hplan
    exact Json.str.inj hplan

/-- What `completed_run` accepts for a plan was written by a process that ran under this plan. -/
theorem resume_sound (hsha : Function.Injective sha256)
    (h : (executions sha256).ReachableVia Untorn s) (hidle : s.running = none)
    {inner : Json → Text} {expectedConfiguration : Fields}
    (hcompleted : completedRun inner s.directory plan.command plan.coordinate
      expectedConfiguration (plan.fingerprint sha256) = some true) :
    ∃ file, s.directory.result = some file ∧ file.writer.Same plan := by
  have hcoherent : Attributed sha256 s.directory := by
    have hcoherent := (coherent_inductive sha256).holds h
    unfold Coherent at hcoherent
    rw [hidle] at hcoherent
    exact hcoherent
  unfold completedRun at hcompleted
  split at hcompleted
  · next result metadata hresult hprocess =>
    split at hcompleted
    · have hmatches := Option.some.inj hcompleted
      rw [Bool.and_eq_true] at hmatches
      obtain ⟨file, hfile, hvalue⟩ := Option.bind_eq_some_iff.mp hresult
      have hrecord := Option.join_eq_some_iff.mp hprocess
      obtain ⟨writer, exitCode, startedUtc, endedUtc, heq, hwriter⟩ :=
        hcoherent file _ _ hfile hvalue hrecord
      obtain ⟨hexit, hfingerprint⟩ := recordMatches_processRecord heq hmatches.1
      refine ⟨file, hfile, ?_⟩
      rw [hwriter hexit]
      exact Plan.same_of_fingerprint hsha hfingerprint
    · cases hcompleted
    · cases hcompleted
  · cases hcompleted

/-- A digest that keeps all of its bytes. -/
def plainDigest (contents : ByteArray) : String :=
  String.ofList (contents.data.toList.map fun byte => Char.ofNat byte.toNat)

theorem plainDigest_injective : Function.Injective plainDigest := by
  intro x y h
  have hlists := String.ofList_injective h
  have hchar : Function.Injective fun byte : UInt8 => Char.ofNat byte.toNat := by
    intro i j hij
    have hnat := congrArg Char.toNat hij
    have hvalid : ∀ k : UInt8, (Char.ofNat k.toNat).toNat = k.toNat := by
      intro k
      have hlt := k.toNat_lt
      have hvalid : k.toNat.isValidChar := by
        left
        omega
      simp [Char.ofNat, hvalid]
    rw [hvalid, hvalid] at hnat
    exact UInt8.toNat_inj.mp hnat
  have hdata := List.map_injective_iff.mpr hchar hlists
  cases x
  cases y
  rw [ByteArray.mk.injEq]
  exact Array.toList_inj.mp hdata

/-- A plan of one request. -/
def samplePlan : Plan where
  command := ["go", "run", "./cmd/gateway-bench", "--requests", "1"]
  coordinate := ⟨"m-non_streaming-c1-r1-direct", "direct", "non_streaming", 1, 1, 1, 1⟩
  inputs := ⟨some ⟨#[1, 2]⟩, none, none, none⟩
  credentialEnvName := .null

/-- A result of the plan, as far as it is looked at. -/
def sampleResult : Json :=
  let zeros := String.ofList (List.replicate 64 '0')
  .obj
    [("schema_version", .int 1),
      ("metadata", .obj [("run_id", .str "m-non_streaming-c1-r1-direct"),
        ("timestamp_utc", .str "t"), ("label", .str "direct"), ("repeat", .int 1),
        ("execution_order", .int 1)]),
      ("configuration", .obj ([("mode", .str "non_streaming"), ("concurrency", .int 1),
        ("requests", .int 1), ("dataset_sha256", .str zeros)] ++
        (["base_url", "endpoint", "model", "warmup", "timeout_seconds", "temperature", "top_p",
          "max_tokens", "seed", "n", "stream", "stream_include_usage", "batching_enabled",
          "prefix_caching", "workload_fingerprint", "gateway_config_fingerprint",
          "vllm_config_fingerprint"].map fun field => (field, .str "x")))),
      ("timing", .obj [("measured_start_utc", .str "t"), ("measured_end_utc", .str "t"),
        ("duration_seconds", .int 1)]),
      ("warmup", .obj [("attempted", .int 0), ("success", .int 0), ("failed", .int 0)]),
      ("summary", .obj [("attempted", .int 1), ("successful", .int 1), ("failed", .int 0),
        ("error_rate", .int 0), ("errors_by_category", .obj []), ("e2e", .null), ("ttft", .null),
        ("request_throughput_rps", .int 1), ("output_throughput_tps", .null),
        ("authoritative_token_coverage", .int 0)]),
      ("per_request", .arr [.obj [("ttft_ms", .null)]]),
      ("metrics", .obj []),
      ("metric_artifacts", .obj []),
      ("environment", .obj []),
      ("validity", .obj [("valid", .bool true), ("reasons", .arr [])])]

/-- An execution from its launch to its record. -/
def sampleHistory : List ExecutionAction :=
  [.launch samplePlan, .createResult, .writeResult sampleResult, .exit 0, .writeStdout, .writeStderr,
    .createRecord, .writeRecord "s" "e"]

theorem resume_sound_sample : ∃ s,
    Lts.exec (executeStep plainDigest) ⟨⟨none, none⟩, none⟩ sampleHistory = .ok s ∧
      completedRun (fun _ => []) s.directory samplePlan.command samplePlan.coordinate
        [("n", .str "x")] (samplePlan.fingerprint plainDigest) = some true ∧
      ∃ file, s.directory.result = some file ∧ file.writer.Same samplePlan := by
  have hexec : Lts.exec (executeStep plainDigest) ⟨⟨none, none⟩, none⟩ sampleHistory =
      .ok ⟨⟨some ⟨some sampleResult, samplePlan⟩,
        some (some (processRecord plainDigest samplePlan 0 "s" "e"))⟩, none⟩ := rfl
  have hreachable : (executions plainDigest).ReachableVia Untorn
      ⟨⟨some ⟨some sampleResult, samplePlan⟩,
        some (some (processRecord plainDigest samplePlan 0 "s" "e"))⟩, none⟩ := by
    have hinit : (Lts.ofStep (fun s => s = ⟨⟨none, none⟩, none⟩)
        (executeStep plainDigest)).ReachableVia Untorn ⟨⟨none, none⟩, none⟩ := .init rfl
    refine hinit.exec ?_ hexec
    intro a ha s hkill
    rw [hkill] at ha
    simp [sampleHistory] at ha
  have hcompleted : completedRun (fun _ => [])
      ⟨some ⟨some sampleResult, samplePlan⟩,
        some (some (processRecord plainDigest samplePlan 0 "s" "e"))⟩ samplePlan.command
        samplePlan.coordinate [("n", .str "x")] (samplePlan.fingerprint plainDigest) = some true := by
    decide +kernel
  exact ⟨_, hexec, hcompleted, resume_sound plainDigest_injective hreachable rfl hcompleted⟩

end Gateway.RunMatrix
