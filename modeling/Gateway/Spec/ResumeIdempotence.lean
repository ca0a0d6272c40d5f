import Gateway.Spec.CommandLine

/-!
# A finished run is not executed again

The configuration that `planned_result_configuration` predicts from a matrix against the one that
the benchmark derives from its command line and writes with `omitempty`. A result of the benchmark
in which every request succeeded is accepted by `completed_run` exactly if the temperature and
`top_p` are numbers and no configured limit is zero: a number in quotes is not equal to the number
in the result, and a zero is left out of it.

## Key results

- `eq_of_parseInt`, `eq_of_parseFloat`: `flag` and Python read one value from a text
- `configuration_agrees`: when the predicted fields are those of the result
- `resume_idempotent`: when a resumption skips a run that succeeded
-/

namespace Gateway.RunMatrix

open ValidateResult (get)

variable {inner : Json → Text} {unicode : Unicode}

/-! ## Numbers and their texts -/

/-- An integer in quotes has no leading zero: package `flag` takes `010` for eight. -/
def PlainInteger (value : Json) : Prop :=
  ∀ s, value = .str s → (Numeral.scanSign s.toList).2 = ['0'] ∨
    (Numeral.scanSign s.toList).2.head? ≠ some '0'

theorem str_toList (value : Json) : (str inner value).toList = value.toText inner :=
  String.toList_ofList

/-- `flag` and `int` read one integer from a text. -/
theorem eq_of_parseInt {value : Json} {m n : Int} (hplain : PlainInteger value)
    (h : Strconv.parseInt (str inner value).toList = some m) (h' : value.toInt unicode = some n) :
    m = n := by
  rw [str_toList] at h
  cases value with
  | bool b => cases b <;> cases h
  | int k => rw [Strconv.parseInt_encodeInt h, ← Option.some.inj h']
  | float x =>
    have hnone : Strconv.parseInt x.text.toList = none := Strconv.parseInt_float x
    rw [Json.toText, hnone] at h
    cases h
  | str s => exact Strconv.parseInt_intOfText (hplain s rfl) h h'
  | null => cases h'
  | arr xs => cases h'
  | obj fields => cases h'

/-- `flag` and `float` read one number from a text. -/
theorem eq_of_parseFloat {value : Json} {x y : Rat}
    (h : Strconv.parseFloat (str inner value).toList = some x)
    (h' : value.toFloat unicode = some y) : x = y := by
  rw [str_toList] at h
  cases value with
  | bool b =>
    cases b
    · have hnone := Strconv.parseFloat_of_head (c := 'F') rfl (by decide) "alse".toList
      exact absurd (hnone.symm.trans h) (by simp)
    · have hnone := Strconv.parseFloat_of_head (c := 'T') rfl (by decide) "rue".toList
      exact absurd (hnone.symm.trans h) (by simp)
  | int k =>
    rw [Json.toText, Strconv.parseFloat_encodeInt] at h
    exact Option.some.inj (h.symm.trans h')
  | float f =>
    rw [Json.toText, Strconv.parseFloat_float] at h
    have hfloat : (Json.float f).toFloat unicode = (Json.float f).number.bind Double.round := rfl
    rw [hfloat, h] at h'
    obtain ⟨z, hz, hround⟩ : ∃ z, Numeral.read f.text.toList = some z ∧ Double.round z = some x :=
      Option.bind_eq_some_iff.mp h
    exact Option.some.inj ((Double.round_round hround).symm.trans h')
  | str s => exact Strconv.parseFloat_floatOfText h h'
  | null => cases h'
  | arr xs => cases h'
  | obj fields => cases h'

/-- A number is read from its text as it is. -/
theorem parseFloat_number {value : Json} {q x : Rat} (hvalue : value.number = some q)
    (hsmall : |q| < 2 ^ 53) (h : Strconv.parseFloat (str inner value).toList = some x) :
    x = q ∧ Double.round q = some q := by
  rw [str_toList] at h
  cases value with
  | bool b =>
    cases b
    · have hnone := Strconv.parseFloat_of_head (c := 'F') rfl (by decide) "alse".toList
      exact absurd (hnone.symm.trans h) (by simp)
    · have hnone := Strconv.parseFloat_of_head (c := 'T') rfl (by decide) "rue".toList
      exact absurd (hnone.symm.trans h) (by simp)
  | int k =>
    have hq : (k : Rat) = q := Option.some.inj hvalue
    have hk : k.natAbs ≤ 2 ^ 53 := by
      rw [← hq, ← Int.cast_abs, Int.abs_eq_natAbs, Int.cast_natCast] at hsmall
      exact_mod_cast hsmall.le
    rw [Json.toText, Strconv.parseFloat_encodeInt, Double.round_intCast hk] at h
    rw [← hq]
    exact ⟨(Option.some.inj h).symm, Double.round_intCast hk⟩
  | float f =>
    rw [Json.toText, Strconv.parseFloat_float, hvalue] at h
    obtain ⟨z, hz, hround⟩ : ∃ z, Numeral.read f.text.toList = some z ∧ Double.round z = some q :=
      Option.bind_eq_some_iff.mp hvalue
    exact ⟨(Option.some.inj h).symm, Double.round_round hround⟩
  | _ => cases hvalue

/-- A double is written so that it is read back, as an integer too. -/
theorem number_floatJson {x y : Rat} (h : Double.round y = some x) (hsmall : |x| < 2 ^ 53) :
    (GatewayBench.floatJson x).number = some x := by
  have hround : Double.round (GatewayBench.floatNumeral x).value = some x :=
    Double.round_numeral _ h
  rw [GatewayBench.floatJson, Json.number_ofNumeral]
  split
  · next hint =>
    -- the digits are those of an integer, and an integer below `2 ^ 53` is a double
    have hvalue : (GatewayBench.floatNumeral x).value =
        ((if (GatewayBench.floatNumeral x).negative then -1 else 1) *
          (Nat.ofDigitChars 10 (GatewayBench.floatNumeral x).whole 0 : Int) : Int) := by
      simp only [Numeral.value, hint.1, hint.2]
      cases (GatewayBench.floatNumeral x).negative <;> simp
    rw [hvalue] at hround ⊢
    exact congrArg some (Double.eq_of_round_intCast hround hsmall).symm
  · exact hround

/-- A float of the benchmark is a number. -/
theorem floatJson_number {x y : Rat} (h : Double.round y = some x) :
    ((GatewayBench.floatJson x).number).isSome := by
  have hround : Double.round (GatewayBench.floatNumeral x).value = some x :=
    Double.round_numeral _ h
  rw [GatewayBench.floatJson, Json.number_ofNumeral]
  split
  · rfl
  · rw [hround]
    rfl

/-! ## The sources of a planned run -/

/-- The run ID of `run_matrix`. -/
def runIdOf (inner : Json → Text) (matrixId mode : String) (concurrency : Json)
    (repeatIndex : Nat) (label : Json) : String :=
  matrixId ++ "-" ++ mode ++ "-c" ++ str inner concurrency ++ "-r" ++
    str inner (.int repeatIndex) ++ "-" ++ str inner label

/-- What a run is planned from: the parts of its command, and what Python converts. -/
structure Sources where
  parts : CommandParts
  count : Int
  output : String
  inputs : InputFiles
  dataset : String
  warmup : Int
  maxTokens : Int
  seed : Int
  optional : List Fields

/-- The fields that `planned_result_configuration` always has. -/
def fixedFields (inner : Json → Text) (config target : Fields) (mode : String) (s : Sources) :
    Fields :=
  [("base_url", .str (str inner s.parts.baseUrl)),
    ("endpoint", .str (str inner (get config "endpoint" (.str "/v1/chat/completions")))),
    ("model", .str (str inner s.parts.model)),
    ("mode", .str mode),
    ("concurrency", .int s.count),
    ("requests", .int s.parts.requests),
    ("warmup", .int s.warmup),
    ("dataset_sha256", .str s.dataset),
    ("temperature", get s.parts.generation "temperature" (.int 0)),
    ("top_p", get s.parts.generation "top_p" (.int 1)),
    ("max_tokens", .int s.maxTokens),
    ("seed", .int s.seed),
    ("n", .int 1),
    ("stream", .bool (mode = "streaming")),
    ("stream_include_usage", .bool (mode = "streaming")),
    ("batching_enabled",
      .str (str inner (get target "batching_enabled" (.str "not_applicable")))),
    ("prefix_caching", .str (str inner (get config "prefix_caching" (.str "unknown"))))]

variable {env : Surroundings} {config target : Fields} {matrixId mode : String}
  {concurrency : Json} {repeatIndex order : Nat} {run : PlannedRun}

/-- A run and what it was planned from. -/
structure Sources.Of (inner : Json → Text) (unicode : Unicode) (env : Surroundings)
    (config target : Fields) (matrixId mode : String) (concurrency : Json)
    (repeatIndex order : Nat) (run : PlannedRun) (s : Sources) : Prop where
  parts : s.parts.Of unicode config target s.count
  inputs : referencedInputs inner env.resolvePath env.readFile config target = some s.inputs
  dataset : ((referencedInputHashes env.sha256 s.inputs).find? fun hash =>
    hash.1 = "dataset").map (·.2) = some s.dataset
  warmup : (get config "warmup" (.int 20)).toInt unicode = some s.warmup
  maxTokens : (get s.parts.generation "max_tokens" (.int 128)).toInt unicode = some s.maxTokens
  seed : (get s.parts.generation "seed" (.int 1)).toInt unicode = some s.seed
  optional : (optionalFields unicode).mapM (plannedOptional config target) = some s.optional
  command : run.plan.command = commandOf (flagTable inner env.resolvePath config target mode
    s.count repeatIndex order s.output
    (runIdOf inner matrixId mode concurrency repeatIndex s.parts.label) s.parts)
  coordinate : run.plan.coordinate =
    ⟨runIdOf inner matrixId mode concurrency repeatIndex s.parts.label, str inner s.parts.label,
      mode, s.count, repeatIndex, order, s.parts.requests⟩
  configuration : run.configuration = fixedFields inner config target mode s ++ s.optional.flatten

theorem sources_of_planRun
    (h : planRun inner unicode env config matrixId mode concurrency repeatIndex order target =
      some run) :
    ∃ s : Sources, s.Of inner unicode env config target matrixId mode concurrency repeatIndex order
      run := by
  simp only [planRun, bind, Option.bind_eq_some_iff, pure, Option.some.injEq] at h
  obtain ⟨label, hlabel, count, hcount, requests, hrequests, output, houtput, command, hcommand,
    inputs, hinputs, configuration, hconfiguration, rfl⟩ := h
  obtain ⟨p, hp, rfl⟩ := buildCommand_eq hcommand
  simp only [plannedResultConfiguration, bind, Option.bind_eq_some_iff, pure,
    Option.some.injEq] at hconfiguration
  obtain ⟨generation, hgeneration, baseUrl, hbaseUrl, model, hmodel, requests', hrequests', warmup,
    hwarmup, dataset, hdataset, maxTokens, hmaxTokens, seed, hseed, optional, hoptional,
    rfl⟩ := hconfiguration
  obtain rfl := Option.some.inj (hp.generation.symm.trans hgeneration)
  obtain rfl := Option.some.inj (hp.baseUrl.symm.trans hbaseUrl)
  obtain rfl := Option.some.inj (hp.model.symm.trans hmodel)
  obtain rfl := Option.some.inj (hp.requests.symm.trans hrequests)
  obtain rfl := Option.some.inj (hp.requests.symm.trans hrequests')
  obtain rfl := Option.some.inj (hp.label.symm.trans hlabel)
  exact ⟨⟨p, count, output, inputs, dataset, warmup, maxTokens, seed, optional⟩,
    hp, hinputs, hdataset, hwarmup, hmaxTokens, hseed, hoptional, rfl, rfl, rfl⟩

/-! ## What the benchmark takes from the command line -/

section

open GatewayBench

variable {s : Sources} {parseDuration : String → Option Int} {urlAccepted : String → Bool}
  {o : Options}

/-- The options of a planned run: strings and the numbers of the plan as they are, and the
    configured numbers as `flag` reads their texts. -/
structure Taken (inner : Json → Text) (env : Surroundings) (config target : Fields)
    (s : Sources) (c : RunCoordinate) (o : Options) : Prop where
  baseUrl : o.baseUrl = str inner s.parts.baseUrl
  endpoint : o.endpoint = str inner (get config "endpoint" (.str "/v1/chat/completions"))
  model : o.model = str inner s.parts.model
  dataset : o.dataset = env.resolvePath (str inner s.parts.dataset)
  mode : o.mode = c.mode
  label : o.label = c.label
  runId : o.runId = c.runId
  batchingEnabled :
    o.batchingEnabled = str inner (get target "batching_enabled" (.str "not_applicable"))
  prefixCaching : o.prefixCaching = str inner (get config "prefix_caching" (.str "unknown"))
  concurrency : o.concurrency = c.concurrency
  requests : o.requests = c.requests
  repeatIndex : o.repeatIndex = c.repeatIndex
  executionOrder : o.executionOrder = c.executionOrder
  warmup : Strconv.parseInt (str inner (get config "warmup" (.int 20))).toList = some o.warmup
  maxTokens : Strconv.parseInt
    (str inner (get s.parts.generation "max_tokens" (.int 128))).toList = some o.maxTokens
  seed : Strconv.parseInt (str inner (get s.parts.generation "seed" (.int 1))).toList =
    some o.seed
  temperature : Strconv.parseFloat
    (str inner (get s.parts.generation "temperature" (.int 0))).toList = some o.temperature
  topP : Strconv.parseFloat (str inner (get s.parts.generation "top_p" (.int 1))).toList =
    some o.topP

theorem taken (hs : s.Of inner unicode env config target matrixId mode concurrency repeatIndex order
      run)
    (h : parseFlags parseDuration urlAccepted (run.plan.command.drop 3) = some o) :
    Taken inner env config target s run.plan.coordinate o := by
  rw [hs.command] at h
  rw [hs.coordinate]
  generalize hid : runIdOf inner matrixId mode concurrency repeatIndex s.parts.label = runId at *
  have hnames := @flagTable_names inner env.resolvePath config target mode s.count repeatIndex
    order s.output runId s.parts
  let fixed := fixedFlags inner env.resolvePath config target mode s.count repeatIndex order
    s.output runId s.parts
  have hfixed : ∀ {j : Nat} {e}, fixed[j]? = some e → e ∈ flagTable inner env.resolvePath config
      target mode s.count repeatIndex order s.output runId s.parts := by
    intro j e he
    exact List.mem_append_left _ (List.mem_append_left _ (List.mem_append_left _
      (List.mem_of_getElem? he)))
  -- a variable and its flag, by their places in the tables
  have hstring : ∀ (i j : Nat) {name text get set}, stringVars[i]? = some (name, get, set) →
      fixed[j]? = some (name, some text) → get o = text := by
    intro i j name text get set hvar hflag
    exact (Option.some.inj (options_of_given hnames (stringVars_writes (List.mem_of_getElem? hvar))
      h (hfixed hflag))).symm
  have hint : ∀ (i j : Nat) {name text get set}, intVars[i]? = some (name, get, set) →
      fixed[j]? = some (name, some text) → Strconv.parseInt text.toList = some (get o) := by
    intro i j name text get set hvar hflag
    exact options_of_given hnames (intVars_writes (List.mem_of_getElem? hvar)) h (hfixed hflag)
  have hfloat : ∀ (i j : Nat) {name text get set}, floatVars[i]? = some (name, get, set) →
      fixed[j]? = some (name, some text) → Strconv.parseFloat text.toList = some (get o) := by
    intro i j name text get set hvar hflag
    exact options_of_given hnames (floatVars_writes (List.mem_of_getElem? hvar)) h (hfixed hflag)
  have hnumber : ∀ {n m : Int}, Strconv.parseInt (str inner (.int n)).toList = some m → m = n := by
    intro n m hparse
    rw [str_toList] at hparse
    exact Strconv.parseInt_encodeInt hparse
  exact
    { baseUrl := hstring 0 0 rfl rfl
      endpoint := hstring 1 1 rfl rfl
      model := hstring 2 2 rfl rfl
      dataset := hstring 3 3 rfl rfl
      mode := hstring 4 4 rfl rfl
      label := hstring 5 9 rfl rfl
      runId := hstring 6 15 rfl rfl
      batchingEnabled := hstring 7 18 rfl rfl
      prefixCaching := hstring 8 19 rfl rfl
      concurrency := hnumber (hint 0 5 rfl rfl)
      requests := hnumber (hint 1 6 rfl rfl)
      repeatIndex := hnumber (hint 5 16 rfl rfl)
      executionOrder := hnumber (hint 6 17 rfl rfl)
      warmup := hint 2 7 rfl rfl
      maxTokens := hint 3 13 rfl rfl
      seed := hint 4 14 rfl rfl
      temperature := hfloat 0 11 rfl rfl
      topP := hfloat 1 12 rfl rfl }

/-- A limit of the target or the configuration is there. -/
theorem taken_limit {α : Type} {get' : Options → α} {read : String → Option α}
    (hs : s.Of inner unicode env config target matrixId mode concurrency repeatIndex order run)
    (h : parseFlags parseDuration urlAccepted (run.plan.command.drop 3) = some o)
    {name key : String} (hwrites : FlagSet.Writes (flags parseDuration) get' name.toList read)
    (hflag : (name, key) ∈ targetFlags) {text : String}
    (htext : optionalText inner (targetOrConfig config target key) = some text) :
    read text = some (get' o) := by
  rw [hs.command] at h
  refine options_of_given (flagTable_names _) hwrites h ?_
  apply List.mem_append_left
  apply List.mem_append_left
  apply List.mem_append_right
  exact List.mem_map.mpr ⟨(name, key), hflag, by rw [htext]⟩

end

/-! ## The limits -/

/-- A field is in a result as it was predicted. -/
def Agrees (result : Fields) (field : String × Json) : Bool :=
  Json.pyEq (get result field.1 .null) field.2

theorem plannedOptional_cases {field : String × (Json → Option Json)} {fields : Fields}
    (h : plannedOptional config target field = some fields) :
    (optionalText inner (targetOrConfig config target field.1) = none ∧ fields = []) ∨
      ∃ x, optionalText inner (targetOrConfig config target field.1) =
          some (str inner (targetOrConfig config target field.1)) ∧
        field.2 (targetOrConfig config target field.1) = some x ∧ fields = [(field.1, x)] := by
  unfold plannedOptional at h
  dsimp only at h
  unfold optionalText
  split at h
  · next hvalue =>
    obtain ⟨x, hx, rfl⟩ := Option.map_eq_some_iff.mp h
    exact .inr ⟨x, if_pos hvalue, hx, rfl⟩
  · next hvalue => exact .inl ⟨if_neg hvalue, (Option.some.inj h).symm⟩

/-- An integer limit is in the result as it was predicted, unless it is zero. -/
theorem intLimit_agrees {key : String} {result fields : Fields} {n : Int}
    (hplanned : plannedOptional config target
      (key, fun value => (value.toInt unicode).map .int) = some fields)
    (hwritten : get result key .null = if n = 0 then .null else .int n)
    (hplain : PlainInteger (targetOrConfig config target key))
    (hread : ∀ text, optionalText inner (targetOrConfig config target key) = some text →
      Strconv.parseInt text.toList = some n) :
    fields.all (Agrees result) = true ↔ ∀ x, fields = [(key, x)] → x.number ≠ some 0 := by
  rcases @plannedOptional_cases inner _ _ _ _ hplanned with ⟨-, rfl⟩ | ⟨x, htext, hx, rfl⟩
  · simp
  obtain ⟨m, hm, rfl⟩ := Option.map_eq_some_iff.mp hx
  have hsame : n = m := eq_of_parseInt hplain (hread _ htext) hm
  subst hsame
  have hiff : Agrees result (key, .int n) = true ↔ n ≠ 0 := by
    unfold Agrees
    dsimp only
    rw [hwritten, Json.pyEq_int]
    split
    · next hzero => simp [hzero, Json.number]
    · next hne => simp [hne, Json.number]
  simp only [List.all_cons, List.all_nil, Bool.and_true, hiff]
  constructor
  · intro hne x hx
    cases hx
    simpa [Json.number] using hne
  · intro hnumber hzero
    exact hnumber (.int n) rfl (by simp [Json.number, hzero])

/-- The limit on the wait is in the result as it was predicted, unless it is zero. -/
theorem waitLimit_agrees {key : String} {result fields : Fields} {w : Rat}
    (hplanned : plannedOptional config target
      (key, fun value => (value.toFloat unicode).map .ofDouble) = some fields)
    (hwritten : get result key .null = if w = 0 then .null else GatewayBench.floatJson w)
    (hsmall : ∀ x, (targetOrConfig config target key).toFloat unicode = some x → |x| < 2 ^ 53)
    (hread : ∀ text, optionalText inner (targetOrConfig config target key) = some text →
      Strconv.parseFloat text.toList = some w) :
    fields.all (Agrees result) = true ↔ ∀ x, fields = [(key, x)] → x.number ≠ some 0 := by
  rcases @plannedOptional_cases inner _ _ _ _ hplanned with ⟨-, rfl⟩ | ⟨x, htext, hx, rfl⟩
  · simp
  obtain ⟨y, hy, rfl⟩ := Option.map_eq_some_iff.mp hx
  have hsame : w = y := eq_of_parseFloat (hread _ htext) hy
  subst hsame
  obtain ⟨z, hround⟩ := Strconv.parseFloat_round (hread _ htext)
  have hpredicted : (Json.ofDouble w).number = some w := Json.number_ofDouble hround
  have hiff : Agrees result (key, .ofDouble w) = true ↔ w ≠ 0 := by
    unfold Agrees
    dsimp only
    rw [hwritten]
    split
    · next hzero =>
      refine iff_of_false ?_ (not_not.mpr hzero)
      intro heq
      cases Json.pyEq_null.mp heq
    · next hne =>
      exact iff_of_true (Json.pyEq_of_number (number_floatJson hround (hsmall _ hy)) hpredicted) hne
  simp only [List.all_cons, List.all_nil, Bool.and_true, hiff]
  constructor
  · intro hne x hx
    cases hx
    rw [hpredicted]
    simpa using hne
  · intro hnumber hzero
    exact hnumber _ rfl (by rw [hpredicted, hzero])

/-! ## The configuration -/

open GatewayBench (Options Configuration Corpus configurationOf floatJson)

/-- The parameters of the generation. -/
def generationOf (config : Fields) : Fields := (asDict (get config "generation" (.obj []))).getD []

/-- The numbers of a configuration keep their value on the way through a command line: an integer
    in quotes has no leading zero, and a float is below `2 ^ 53`. -/
structure PlainNumbers (unicode : Unicode) (config target : Fields) : Prop where
  warmup : PlainInteger (get config "warmup" (.int 20))
  maxTokens : PlainInteger (get (generationOf config) "max_tokens" (.int 128))
  seed : PlainInteger (get (generationOf config) "seed" (.int 1))
  batchMaxSize : PlainInteger (targetOrConfig config target "batch_max_size")
  tenantMaxInflight : PlainInteger (targetOrConfig config target "tenant_max_inflight")
  globalMaxInflight : PlainInteger (targetOrConfig config target "global_max_inflight")
  batchMaxWait : ∀ x,
    (targetOrConfig config target "batch_max_wait_seconds").toFloat unicode = some x → |x| < 2 ^ 53
  temperature : ∀ q, (get (generationOf config) "temperature" (.int 0)).number = some q →
    |q| < 2 ^ 53
  topP : ∀ q, (get (generationOf config) "top_p" (.int 1)).number = some q → |q| < 2 ^ 53

/-- A result can have what is predicted of it: the temperature and `top_p` are not in quotes, and
    no limit is zero. -/
structure Recordable (unicode : Unicode) (config target : Fields) : Prop where
  temperature : (get (generationOf config) "temperature" (.int 0)).number.isSome
  topP : (get (generationOf config) "top_p" (.int 1)).number.isSome
  limits : ∀ field ∈ optionalFields unicode, ∀ x,
    plannedOptional config target field = some [(field.1, x)] → x.number ≠ some 0

variable {s : Sources} {o : Options} {corpus : Corpus} {c : Configuration} {result : Fields}

theorem agrees_str {key text : String} (h : get result key .null = .str text) :
    Agrees result (key, .str text) = true :=
  Json.pyEq_str.mpr h

theorem agrees_int {key : String} {n : Int} (h : get result key .null = .int n) :
    Agrees result (key, .int n) = true := by
  rw [Agrees, Json.pyEq_int, h]
  rfl

theorem agrees_bool {key : String} {b : Bool} (h : get result key .null = .bool b) :
    Agrees result (key, .bool b) = true := by
  rw [Agrees, Json.pyEq_bool, h]
  rfl

/-- A float in a result is equal to the number in the configuration, and to nothing in quotes. -/
theorem agrees_float {key : String} {value : Json} {x : Rat}
    (h : get result key .null = floatJson x)
    (hread : Strconv.parseFloat (str inner value).toList = some x)
    (hsmall : ∀ q, value.number = some q → |q| < 2 ^ 53) :
    Agrees result (key, value) = value.number.isSome := by
  obtain ⟨y, hround⟩ := Strconv.parseFloat_round hread
  rw [Bool.eq_iff_iff]
  unfold Agrees
  dsimp only
  rw [h]
  constructor
  · intro heq
    obtain ⟨z, hz⟩ := Option.isSome_iff_exists.mp (floatJson_number hround)
    rw [Json.number_of_pyEq hz heq]
    rfl
  · intro hnumber
    obtain ⟨q, hq⟩ := Option.isSome_iff_exists.mp hnumber
    obtain ⟨rfl, -⟩ := parseFloat_number hq (hsmall q hq) hread
    exact Json.pyEq_of_number (number_floatJson hround (hsmall x hq)) hq

theorem fixed_agrees
    (hs : s.Of inner unicode env config target matrixId mode concurrency repeatIndex order run)
    (htaken : Taken inner env config target s run.plan.coordinate o)
    (hplain : PlainNumbers unicode config target) (hcorpus : corpus.sha256 = s.dataset)
    (workload gateway vllm : String) :
    (fixedFields inner config target mode s).all
        (Agrees (configurationOf o corpus workload gateway vllm).fields) =
      ((get (generationOf config) "temperature" (.int 0)).number.isSome &&
        (get (generationOf config) "top_p" (.int 1)).number.isSome) := by
  have hgeneration : generationOf config = s.parts.generation := by
    rw [generationOf, hs.parts.generation]
    rfl
  rw [hgeneration]
  have hwarmup := eq_of_parseInt hplain.warmup htaken.warmup hs.warmup
  have hmaxTokens := eq_of_parseInt (hgeneration ▸ hplain.maxTokens) htaken.maxTokens hs.maxTokens
  have hseed := eq_of_parseInt (hgeneration ▸ hplain.seed) htaken.seed hs.seed
  have hcoordinate := hs.coordinate
  have hmode : o.mode = mode := by rw [htaken.mode, hcoordinate]
  have hconcurrency : o.concurrency = s.count := by rw [htaken.concurrency, hcoordinate]
  have hrequests : o.requests = s.parts.requests := by rw [htaken.requests, hcoordinate]
  have hget : ∀ (key) {value},
      Json.getField (configurationOf o corpus workload gateway vllm).fields key = some value →
      get (configurationOf o corpus workload gateway vllm).fields key .null = value := by
    intro key value h
    rw [ValidateResult.get, h]
    rfl
  have hstr : ∀ (key) {text text'}, text = text' →
      Json.getField (configurationOf o corpus workload gateway vllm).fields key =
        some (.str text) →
      Agrees (configurationOf o corpus workload gateway vllm).fields (key, .str text') = true := by
    intro key text text' heq h
    exact agrees_str (heq ▸ hget key h)
  have hint : ∀ (key) {n n' : Int}, n = n' →
      Json.getField (configurationOf o corpus workload gateway vllm).fields key = some (.int n) →
      Agrees (configurationOf o corpus workload gateway vllm).fields (key, .int n') = true := by
    intro key n n' heq h
    exact agrees_int (heq ▸ hget key h)
  have hstream : ∀ (key), Json.getField (configurationOf o corpus workload gateway vllm).fields
        key = some (.bool (StreamClient.isStreaming o.mode)) →
      Agrees (configurationOf o corpus workload gateway vllm).fields
        (key, .bool (mode = "streaming")) = true := by
    intro key h
    rw [hmode] at h
    exact agrees_bool (hget key h)
  simp only [fixedFields, List.all_cons, List.all_nil, Bool.and_true, Bool.true_and,
    hstr "base_url" htaken.baseUrl rfl, hstr "endpoint" htaken.endpoint rfl,
    hstr "model" htaken.model rfl, hstr "mode" hmode rfl,
    hint "concurrency" hconcurrency rfl, hint "requests" hrequests rfl,
    hint "warmup" hwarmup rfl, hstr "dataset_sha256" hcorpus rfl,
    hint "max_tokens" hmaxTokens rfl, hint "seed" hseed rfl, hint "n" (rfl : (1 : Int) = 1) rfl,
    hstream "stream" rfl, hstream "stream_include_usage" rfl,
    hstr "batching_enabled" htaken.batchingEnabled rfl,
    hstr "prefix_caching" htaken.prefixCaching (Configuration.getField_last _).1,
    agrees_float (hget "temperature" rfl) htaken.temperature (hgeneration ▸ hplain.temperature),
    agrees_float (hget "top_p" rfl) htaken.topP (hgeneration ▸ hplain.topP)]

theorem optional_agrees
    (hs : s.Of inner unicode env config target matrixId mode concurrency repeatIndex order run)
    {parseDuration : String → Option Int} {urlAccepted : String → Bool}
    (hparse : GatewayBench.parseFlags parseDuration urlAccepted (run.plan.command.drop 3) = some o)
    (hplain : PlainNumbers unicode config target) (workload gateway vllm : String) :
    s.optional.flatten.all (Agrees (configurationOf o corpus workload gateway vllm).fields) =
        true ↔
      ∀ field ∈ optionalFields unicode, ∀ x,
        plannedOptional config target field = some [(field.1, x)] → x.number ≠ some 0 := by
  have hoptional := hs.optional
  simp only [optionalFields, List.mapM_cons, List.mapM_nil, bind, Option.bind_eq_some_iff, pure,
    Option.some.injEq] at hoptional
  obtain ⟨size, hsize, rest, ⟨wait, hwait, rest', ⟨tenant, htenant, rest'', ⟨global, hglobal, last,
    rfl, rfl⟩, rfl⟩, rfl⟩, hlist⟩ := hoptional
  rw [← hlist]
  obtain ⟨hgetSize, hgetWait, hgetTenant, hgetGlobal⟩ :=
    (configurationOf o corpus workload gateway vllm).getField_limits
  have hwritten : ∀ {fields : Fields} {key : String} {b : Prop} [Decidable b] {value : Json},
      Json.getField fields key = (if b then none else some value) →
      get fields key .null = if b then .null else value := by
    intro fields key b hb value h
    rw [ValidateResult.get, h]
    split <;> rfl
  have hsizeAgrees := intLimit_agrees hsize (hwritten hgetSize) hplain.batchMaxSize fun text htext =>
    taken_limit hs hparse (GatewayBench.intVars_writes (List.mem_of_getElem? (i := 7) rfl))
      (by simp [targetFlags]) htext
  have hwaitAgrees := waitLimit_agrees hwait (hwritten hgetWait) hplain.batchMaxWait
    fun text htext => taken_limit hs hparse
      (GatewayBench.floatVars_writes (List.mem_of_getElem? (i := 2) rfl)) (by simp [targetFlags]) htext
  have htenantAgrees := intLimit_agrees htenant (hwritten hgetTenant) hplain.tenantMaxInflight
    fun text htext => taken_limit hs hparse
      (GatewayBench.intVars_writes (List.mem_of_getElem? (i := 8) rfl)) (by simp [targetFlags]) htext
  have hglobalAgrees := intLimit_agrees hglobal (hwritten hgetGlobal) hplain.globalMaxInflight
    fun text htext => taken_limit hs hparse
      (GatewayBench.intVars_writes (List.mem_of_getElem? (i := 9) rfl)) (by simp [targetFlags]) htext
  simp only [List.flatten_cons, List.flatten_nil, List.append_nil, List.all_append,
    Bool.and_eq_true, hsizeAgrees, hwaitAgrees, htenantAgrees, hglobalAgrees, optionalFields,
    List.forall_mem_cons, List.not_mem_nil, IsEmpty.forall_iff, implies_true, and_true, hsize,
    hwait, htenant, hglobal, Option.some.injEq]

/-- The predicted fields are those of the result exactly if the configuration is recordable. -/
theorem configuration_agrees
    (hs : s.Of inner unicode env config target matrixId mode concurrency repeatIndex order run)
    {parseDuration : String → Option Int} {urlAccepted : String → Bool}
    (hparse : GatewayBench.parseFlags parseDuration urlAccepted (run.plan.command.drop 3) = some o)
    (hplain : PlainNumbers unicode config target) (hcorpus : corpus.sha256 = s.dataset)
    (workload gateway vllm : String) :
    run.configuration.all (Agrees (configurationOf o corpus workload gateway vllm).fields) =
        true ↔
      Recordable unicode config target := by
  rw [hs.configuration, List.all_append, Bool.and_eq_true,
    fixed_agrees hs (taken hs hparse) hplain hcorpus, optional_agrees hs hparse hplain,
    Bool.and_eq_true]
  constructor
  · intro h
    exact ⟨h.1.1, h.1.2, h.2⟩
  · intro h
    exact ⟨⟨h.temperature, h.topP⟩, h.limits⟩

/-- The benchmark hashes the file that the runner hashed. -/
theorem corpus_digest {β : Type} {host : GatewayBench.Host β}
    (hs : s.Of inner unicode env config target matrixId mode concurrency repeatIndex order run)
    (htaken : Taken inner env config target s run.plan.coordinate o)
    (hread : host.readFile = env.readFile) (hsha256 : host.sha256 = env.sha256)
    (hload : GatewayBench.load host o.dataset = some corpus) :
    corpus.sha256 = s.dataset ∧ ∃ contents, s.dataset = env.sha256 contents := by
  simp only [GatewayBench.load, bind, Option.bind_eq_some_iff] at hload
  obtain ⟨raw, hraw, records, -, hcorpus⟩ := hload
  have hdigest : corpus.sha256 = env.sha256 raw := by
    split at hcorpus
    · cases hcorpus
    · rw [← Option.some.inj hcorpus, hsha256]
  have hinputs := hs.inputs
  simp only [referencedInputs, bind, Option.bind_eq_some_iff, pure, Option.some.injEq] at hinputs
  obtain ⟨contents, hcontents, environment, -, gatewayConfig, -, vllmConfig, -, hsame⟩ := hinputs
  have hreference : get config "dataset" .null = s.parts.dataset := by
    rw [ValidateResult.get, show Json.getField config "dataset" = some s.parts.dataset from
      hs.parts.dataset]
    rfl
  rw [hreference] at hcontents
  have hdataset := hs.dataset
  rw [← hsame] at hdataset
  unfold readReference at hcontents
  split at hcontents
  · obtain ⟨raw', hraw', rfl⟩ := Option.map_eq_some_iff.mp hcontents
    rw [hread, htaken.dataset, hraw'] at hraw
    obtain rfl := Option.some.inj hraw
    have hhash : s.dataset = env.sha256 raw' := by
      simpa [referencedInputHashes] using hdataset.symm
    exact ⟨hdigest.trans hhash.symm, raw', hhash⟩
  · rw [← Option.some.inj hcontents] at hdataset
    cases environment <;> cases gatewayConfig <;> cases vllmConfig <;>
      simp [referencedInputHashes] at hdataset

/-! ## The validator -/

theorem missing_nil {label : String} {fields : Fields} {required : List String}
    (h : ∀ field ∈ required, (Json.getField fields field).isSome) :
    ValidateResult.missing label fields required = [] := by
  unfold ValidateResult.missing
  rw [List.map_eq_nil_iff, List.filter_eq_nil_iff]
  intro field hfield
  simp [Option.isSome_iff_ne_none.mp (h field hfield)]

theorem checkObject_nil {result fields : Fields} {name : String} {required : List String}
    (hsection : get result name (.obj []) = .obj fields)
    (h : ∀ field ∈ required, (Json.getField fields field).isSome) :
    ValidateResult.checkObject result name required = [] := by
  unfold ValidateResult.checkObject
  rw [hsection]
  exact missing_nil h

theorem checkRequests_nil {requests : List StreamClient.Result}
    (h : ∀ r ∈ requests, r.ttft = none) (index : Nat) :
    ValidateResult.checkRequests index
      (requests.map fun r => .obj (GatewayBench.requestFields r)) = [] := by
  induction requests generalizing index with
  | nil => rfl
  | cons r requests ih =>
    have hr : r.ttft = none := h r (List.mem_cons_self ..)
    have hget : get (GatewayBench.requestFields r) "ttft_ms" .null = .null := by
      simp [ValidateResult.get, GatewayBench.requestFields, Json.getField_cons, hr,
        GatewayBench.optionalFloat]
    rw [List.map_cons, ValidateResult.checkRequests, hget, if_pos rfl, List.nil_append]
    exact ih (fun r hr => h r (List.mem_cons_of_mem _ hr)) (index + 1)

/-- The members of an object that the validator requires are there. -/
theorem required_summary (summary : StreamClient.Summary)
    (throughput : Prometheus.ThroughputSummary) :
    ∀ field ∈ ["attempted", "successful", "failed", "error_rate", "errors_by_category", "e2e",
        "ttft", "request_throughput_rps", "output_throughput_tps", "authoritative_token_coverage"],
      (Json.getField (GatewayBench.summaryFields summary throughput) field).isSome := by
  simp [GatewayBench.summaryFields, Json.getField_cons, Json.getField_append,
    GatewayBench.getField_omitEmpty]

theorem required_configuration (c : Configuration) :
    ∀ field ∈ ValidateResult.configurationFields, (Json.getField c.fields field).isSome := by
  obtain ⟨hcaching, hworkload, hgateway, hvllm⟩ := c.getField_last
  simp only [ValidateResult.configurationFields, List.forall_mem_cons, List.not_mem_nil,
    IsEmpty.forall_iff, implies_true, and_true, hcaching, hworkload, hgateway, hvllm]
  refine ⟨rfl, rfl, rfl, rfl, rfl, rfl, rfl, rfl, rfl, rfl, rfl, rfl, rfl, rfl, rfl, rfl, rfl, rfl,
    rfl, rfl, rfl⟩

/-- The validator has nothing to say of a result of the benchmark. -/
theorem validate_fields {β : Type} {r : GatewayBench.BenchResult β}
    {metricsFields : Prometheus.MetricsSummary β → Fields}
    (hmode : r.configuration.mode = "streaming" ∨
      r.configuration.mode = "non_streaming" ∧ ∀ q ∈ r.perRequest, q.ttft = none)
    (hdigest : ValidateResult.isDigest r.configuration.datasetSha256.toList)
    (hattempted : r.summary.attempted = r.perRequest.length) :
    ValidateResult.validate inner (.obj (r.fields metricsFields)) = some [] := by
  have hconfiguration : get (r.fields metricsFields) "configuration" (.obj []) =
      .obj r.configuration.fields := rfl
  have hmodeField : get r.configuration.fields "mode" .null = .str r.configuration.mode := rfl
  have hdigestField : get r.configuration.fields "dataset_sha256" (.str "") =
      .str r.configuration.datasetSha256 := rfl
  have hrequests : get (r.fields metricsFields) "per_request" (.arr []) =
      .arr (r.perRequest.map fun q => .obj (GatewayBench.requestFields q)) := rfl
  have hsummary : get (r.fields metricsFields) "summary" (.obj []) =
      .obj (GatewayBench.summaryFields r.summary r.throughput) := rfl
  have hattemptedField : get (GatewayBench.summaryFields r.summary r.throughput) "attempted"
      .null = .int r.summary.attempted := rfl
  have hsections : ValidateResult.missing "" (r.fields metricsFields) ValidateResult.sections =
      [] := by
    apply missing_nil
    simp only [ValidateResult.sections, List.forall_mem_cons, List.not_mem_nil, IsEmpty.forall_iff,
      implies_true, and_true]
    refine ⟨rfl, rfl, rfl, rfl, rfl, rfl, rfl, rfl, rfl, rfl⟩
  have hobjects : ValidateResult.requiredObjectFields.flatMap (fun required =>
      ValidateResult.checkObject (r.fields metricsFields) required.1 required.2) = [] := by
    have hall : ∀ {fields : Fields} {required : List String},
        (required.all fun field => (Json.getField fields field).isSome) = true →
        ∀ field ∈ required, (Json.getField fields field).isSome := List.all_eq_true.mp
    rw [List.flatMap_eq_nil_iff]
    simp only [ValidateResult.requiredObjectFields, List.forall_mem_cons, List.not_mem_nil,
      IsEmpty.forall_iff, implies_true, and_true]
    exact ⟨checkObject_nil rfl (hall rfl), checkObject_nil rfl (hall rfl),
      checkObject_nil rfl (hall rfl), checkObject_nil hsummary (required_summary _ _),
      checkObject_nil rfl (hall rfl)⟩
  have hothers : ["metrics", "metric_artifacts", "environment"].flatMap
      (ValidateResult.checkObject (r.fields metricsFields) · []) = [] := by
    rw [List.flatMap_eq_nil_iff]
    simp only [List.forall_mem_cons, List.not_mem_nil, IsEmpty.forall_iff, implies_true, and_true]
    exact ⟨checkObject_nil rfl (by simp), checkObject_nil rfl (by simp),
      checkObject_nil rfl (by simp)⟩
  have hversion : Json.pyEq (get (r.fields metricsFields) "schema_version" .null) (.int 1) =
      true := rfl
  have hmessages : (if r.configuration.mode = "non_streaming" then
      ValidateResult.checkRequests 0
        (r.perRequest.map fun q => .obj (GatewayBench.requestFields q)) else []) = [] := by
    split
    · next hnon =>
      rcases hmode with hstreaming | hcalls
      · rw [hnon] at hstreaming
        exact absurd hstreaming (by decide)
      · exact checkRequests_nil hcalls.2 0
    · rfl
  have hvalid : r.configuration.mode = "streaming" ∨ r.configuration.mode = "non_streaming" :=
    hmode.imp_right And.left
  simp only [ValidateResult.validate, hconfiguration, hmodeField, hrequests, hsummary, hsections,
    hobjects, hothers, hversion, hdigestField, hattemptedField, if_true, List.nil_append,
    missing_nil (required_configuration r.configuration), Json.str.injEq, hvalid, hmessages,
    Json.toText, hdigest, ValidateResult.intValue, List.length_map, hattempted, ne_eq,
    not_true_eq_false, if_false]

/-! ## Resumption -/

variable {β : Type} {host : GatewayBench.Host β}
  {seen : GatewayBench.Observation} {r : GatewayBench.BenchResult β}

/-- What a run of the benchmark comes to. -/
structure Ran (host : GatewayBench.Host β) (seen : GatewayBench.Observation)
    (arguments : List String) (r : GatewayBench.BenchResult β) (o : Options) (corpus : Corpus) :
    Prop where
  parsed : GatewayBench.parseFlags host.parseDuration host.urlAccepted arguments = some o
  loaded : GatewayBench.load host o.dataset = some corpus
  configuration : ∃ workload gateway vllm,
    r.configuration = configurationOf o corpus workload gateway vllm
  metadata : r.metadata = GatewayBench.newMetadata seen o
  perRequest : r.perRequest =
    GatewayBench.phaseResults host o.mode corpus (fun i => i) seen.measured o.requests.toNat
  summary : r.summary = StreamClient.summarize r.perRequest seen.duration

theorem ran_of_run [LinearOrder β] [OrderTop β] [Zero β] {arguments : List String}
    (h : GatewayBench.run host seen arguments = some r) :
    ∃ o corpus, Ran host seen arguments r o corpus := by
  simp only [GatewayBench.run, bind, Option.bind_eq_some_iff] at h
  obtain ⟨o, hoptions, corpus, hcorpus, h⟩ := h
  split at h
  · cases h
  simp only [Option.bind_eq_some_iff, Option.some.injEq] at h
  obtain ⟨vllmConfig, -, gatewayConfig, -, extra, -, configuration, hconfiguration, rfl⟩ := h
  simp only [GatewayBench.makeConfiguration, bind, Option.bind_eq_some_iff,
    Option.some.injEq] at hconfiguration
  obtain ⟨workload, -, gateway, -, vllm, -, rfl⟩ := hconfiguration
  exact ⟨o, corpus, hoptions, hcorpus, ⟨workload, gateway, vllm, rfl⟩, rfl, rfl, rfl⟩

theorem pyEq_strings (texts : List String) :
    Json.pyEq (.arr (texts.map .str)) (.arr (texts.map .str)) = true := by
  rw [Json.pyEq]
  induction texts with
  | nil => rfl
  | cons text texts ih =>
    rw [List.map_cons, Json.pyEqItems, ih, Json.pyEq_str.mpr rfl]
    rfl

/-- The record of a successful execution is that of its plan. -/
theorem recordMatches_own (sha256 : ByteArray → String) (plan : Plan)
    (startedUtc endedUtc : String) :
    ∃ metadata, processRecord sha256 plan 0 startedUtc endedUtc = .obj metadata ∧
      recordMatches metadata plan.command (plan.fingerprint sha256) = true := by
  refine ⟨_, rfl, ?_⟩
  simp only [recordMatches, Bool.and_eq_true]
  exact ⟨⟨rfl, pyEq_strings plan.command⟩, Json.pyEq_str.mpr rfl⟩

theorem runIdOf_ne (label : Json) :
    runIdOf inner matrixId mode concurrency repeatIndex label ≠ "" := by
  intro h
  have hlength := congrArg String.length h
  simp [runIdOf] at hlength

theorem accepted_of_parseFlags {parseDuration : String → Option Int}
    {urlAccepted : String → Bool} {arguments : List String}
    (h : GatewayBench.parseFlags parseDuration urlAccepted arguments = some o) :
    (o.mode = "streaming" ∨ o.mode = "non_streaming") ∧ 0 < o.requests := by
  simp only [GatewayBench.parseFlags, bind, Option.bind_eq_some_iff] at h
  obtain ⟨parsed, -, hchecked⟩ := h
  split at hchecked
  · next hcond =>
    obtain rfl := Option.some.inj hchecked
    have haccepted := hcond.2
    simp only [GatewayBench.accepted, Bool.and_eq_true, Bool.or_eq_true, decide_eq_true_eq]
      at haccepted
    tauto
  · cases hchecked

/-- The requests of a run are as many as the plan says. -/
theorem Ran.length_perRequest {arguments : List String} (h : Ran host seen arguments r o corpus) :
    (r.perRequest.length : Int) = o.requests := by
  rw [h.perRequest, GatewayBench.phaseResults, List.length_map, List.length_range]
  exact Int.toNat_of_nonneg (accepted_of_parseFlags h.parsed).2.le

/-- The result of a run in which every request succeeded, against the plan of the run. -/
theorem resultMatches_run
    (hs : s.Of inner unicode env config target matrixId mode concurrency repeatIndex order run)
    (hran : Ran host seen (run.plan.command.drop 3) r o corpus)
    (hsucceeded : ∀ q ∈ r.perRequest, q.success = true) (hvalid : r.validity.valid = true)
    (metricsFields : Prometheus.MetricsSummary β → Fields) :
    resultMatches (r.fields metricsFields) run.plan.coordinate run.configuration =
      run.configuration.all (Agrees r.configuration.fields) := by
  have htaken := taken hs hran.parsed
  obtain ⟨workload, gateway, vllm, hconfiguration⟩ := hran.configuration
  have hlength : (r.perRequest.length : Int) = run.plan.coordinate.requests := by
    rw [hran.length_perRequest, htaken.requests]
  have hname : r.metadata.runId = run.plan.coordinate.runId := by
    have hne : o.runId ≠ "" := by
      rw [htaken.runId, hs.coordinate]
      exact runIdOf_ne _
    rw [hran.metadata, GatewayBench.newMetadata]
    dsimp only
    rw [if_neg hne, htaken.runId]
  have hattempted : (r.summary.attempted : Int) = run.plan.coordinate.requests := by
    rw [hran.summary]
    exact hlength
  have hsuccessful : (r.summary.successful : Int) = run.plan.coordinate.requests := by
    rw [hran.summary, StreamClient.summarize]
    dsimp only
    rw [List.filter_eq_self.mpr hsucceeded]
    exact hlength
  have hfailed : r.summary.failed = 0 := by
    rw [hran.summary, StreamClient.summarize]
    dsimp only
    rw [List.length_eq_zero_iff, List.filter_eq_nil_iff]
    intro q hq
    simp [hsucceeded q hq]
  have hmode : r.configuration.mode = run.plan.coordinate.mode := by
    rw [hconfiguration]
    exact htaken.mode
  have hconcurrency : r.configuration.concurrency = run.plan.coordinate.concurrency := by
    rw [hconfiguration]
    exact htaken.concurrency
  have hrequests : r.configuration.requests = run.plan.coordinate.requests := by
    rw [hconfiguration]
    exact htaken.requests
  have hlabel : r.metadata.label = run.plan.coordinate.label := by
    rw [hran.metadata]
    exact htaken.label
  have hrepeat : r.metadata.repeatIndex = run.plan.coordinate.repeatIndex := by
    rw [hran.metadata]
    exact htaken.repeatIndex
  have horder : r.metadata.executionOrder = run.plan.coordinate.executionOrder := by
    rw [hran.metadata]
    exact htaken.executionOrder
  -- what is looked up in the sections of the result
  have hstr : ∀ (part key) {text text'}, text = text' →
      Json.getField (objectSection (r.fields metricsFields) part) key = some (.str text) →
      Json.pyEq (get (objectSection (r.fields metricsFields) part) key .null) (.str text') =
        true := by
    intro part key text text' heq h
    rw [ValidateResult.get, h, heq]
    exact Json.pyEq_str.mpr rfl
  have hint : ∀ (part key) {n n' : Int}, n = n' →
      Json.getField (objectSection (r.fields metricsFields) part) key = some (.int n) →
      Json.pyEq (get (objectSection (r.fields metricsFields) part) key .null) (.int n') =
        true := by
    intro part key n n' heq h
    rw [ValidateResult.get, h, heq]
    exact Json.pyEq_int.mpr rfl
  have hrequestCount : get (r.fields metricsFields) "per_request" (.arr []) =
      .arr (r.perRequest.map fun q => .obj (GatewayBench.requestFields q)) := rfl
  have hvalidity : get (objectSection (r.fields metricsFields) "validity") "valid" .null =
      .bool true := congrArg Json.bool hvalid
  have hzero : (r.summary.failed : Int) = 0 := by
    rw [hfailed]
    rfl
  simp only [resultMatches, hstr "metadata" "run_id" hname rfl,
    hstr "metadata" "label" hlabel rfl, hint "metadata" "repeat" hrepeat rfl,
    hint "metadata" "execution_order" horder rfl, hstr "configuration" "mode" hmode rfl,
    hint "configuration" "concurrency" hconcurrency rfl,
    hint "configuration" "requests" hrequests rfl, hint "summary" "attempted" hattempted rfl,
    hint "summary" "successful" hsuccessful rfl, hint "summary" "failed" hzero rfl,
    hrequestCount, hvalidity, List.length_map, hlength, decide_true, Bool.true_and, Bool.and_true]
  rfl

/-- A run in which every request succeeded is not executed again exactly if its configuration is
    recordable; the resumption does not fail. -/
theorem resume_idempotent [LinearOrder β] [OrderTop β] [Zero β]
    (hplan : planRun inner unicode env config matrixId mode concurrency repeatIndex order target =
      some run)
    (hrun : GatewayBench.run host seen (run.plan.command.drop 3) = some r)
    (hread : host.readFile = env.readFile) (hsha256 : host.sha256 = env.sha256)
    (hdigest : ∀ contents, ValidateResult.isDigest (env.sha256 contents).toList)
    (hplain : PlainNumbers unicode config target)
    (hsucceeded : ∀ q ∈ r.perRequest, q.success = true) (hvalid : r.validity.valid = true)
    (metricsFields : Prometheus.MetricsSummary β → Fields) (startedUtc endedUtc : String) :
    ∃ accepted, run.completed env inner
        { result := some ⟨some (.obj (r.fields metricsFields)), run.plan⟩
          process := some (some (processRecord env.sha256 run.plan 0 startedUtc endedUtc)) } =
          some accepted ∧
      (accepted = true ↔ Recordable unicode config target) := by
  obtain ⟨s, hs⟩ := sources_of_planRun hplan
  obtain ⟨o, corpus, hran⟩ := ran_of_run hrun
  have htaken := taken hs hran.parsed
  obtain ⟨hcorpus, contents, hcontents⟩ := corpus_digest hs htaken hread hsha256 hran.loaded
  obtain ⟨workload, gateway, vllm, hconfiguration⟩ := hran.configuration
  obtain ⟨metadata, hmetadata, hrecord⟩ :=
    recordMatches_own env.sha256 run.plan startedUtc endedUtc
  have hvalidator : ValidateResult.validate inner (.obj (r.fields metricsFields)) = some [] := by
    apply validate_fields
    · rw [hconfiguration]
      rcases (accepted_of_parseFlags hran.parsed).1 with hstreaming | hnon
      · exact .inl hstreaming
      · refine .inr ⟨hnon, ?_⟩
        intro q hq
        rw [hran.perRequest, GatewayBench.phaseResults] at hq
        obtain ⟨i, -, rfl⟩ := List.mem_map.mp hq
        exact StreamClient.doRequest_ttft (by rw [hnon]; rfl) ..
    · rw [hconfiguration, show (configurationOf o corpus workload gateway vllm).datasetSha256 =
        corpus.sha256 from rfl, hcorpus, hcontents]
      exact hdigest contents
    · rw [hran.summary]
      rfl
  refine ⟨run.configuration.all (Agrees r.configuration.fields), ?_, ?_⟩
  · simp only [PlannedRun.completed, completedRun, Option.bind_some, Option.join_some, hmetadata,
      hvalidator, hrecord, Bool.true_and,
      resultMatches_run hs hran hsucceeded hvalid metricsFields]
  · rw [hconfiguration]
    exact configuration_agrees hs hran.parsed hplain hcorpus workload gateway vllm

/-- A matrix with one request. -/
def oneRequestConfig : Fields :=
  [("model", .str "m"), ("dataset", .str "d"), ("requests", .int 1), ("warmup", .int 0),
    ("vllm_config", .str "v")]

/-- The target of the matrix. -/
def oneRequestTarget : Fields := [("label", .str "direct"), ("base_url", .str "http://h")]

/-- A file system with one dataset. -/
def oneRequestSurroundings : Surroundings where
  sha256 := fun _ => String.ofList (List.replicate 64 '0')
  readFile := fun _ => some ⟨#[123, 125]⟩
  resolvePath := fun path => path
  outputPath := fun _ _ _ _ _ => some "client-result.json"

/-- The tables of Unicode, without the characters beyond ASCII. -/
def asciiOnly : Unicode := ⟨fun _ => none, fun _ => false, fun _ => none⟩

/-- A benchmark whose requests are answered. -/
def oneRequestHost : GatewayBench.Host (WithTop Nat) where
  parseDuration := fun _ => some (120 * 10 ^ 9)
  urlAccepted := fun _ => true
  baseUrlAccepted := fun _ => true
  readFile := oneRequestSurroundings.readFile
  sha256 := oneRequestSurroundings.sha256
  decodeRecord := fun _ => some ⟨"a", [("user", "x")]⟩
  isBlank := fun line => line = []
  decoders := ⟨fun _ => none, fun _ => some (some 3), fun _ => none⟩
  fingerprint := fun _ => some "f"
  loadNonSecretJson := fun _ => some (.obj [("recorded", .bool true)])
  parseFloat := fun _ => none
  toMilliseconds := fun x => x

/-- What the benchmark sees: one answer. -/
def oneRequestSeen : GatewayBench.Observation where
  stamp := "s"
  timestampUtc := "t"
  startedUtc := "t"
  endedUtc := "t"
  duration := 10 ^ 9
  warmup := fun _ => ⟨0, ⟨fun _ => 0, 1⟩, .response 200 [] false []⟩
  measured := fun _ => ⟨0, ⟨fun _ => 0, 1⟩, .response 200 [] false []⟩
  before := .empty
  after := .empty
  gpuSampled := false
  environment := fun _ => []

theorem resume_idempotent_oneRequest : ∃ run r,
    planRun (fun _ => []) asciiOnly oneRequestSurroundings oneRequestConfig "m" "non_streaming"
      (.int 1) 1 1 oneRequestTarget = some run ∧
    GatewayBench.run oneRequestHost oneRequestSeen (run.plan.command.drop 3) = some r ∧
    run.completed oneRequestSurroundings (fun _ => [])
      ⟨some ⟨some (.obj (r.fields fun _ => [])), run.plan⟩,
        some (some (processRecord oneRequestSurroundings.sha256 run.plan 0 "s" "e"))⟩ =
      some true := by
  have hrun : ((planRun (fun _ => []) asciiOnly oneRequestSurroundings oneRequestConfig "m"
      "non_streaming" (.int 1) 1 1 oneRequestTarget).bind fun run =>
      (GatewayBench.run oneRequestHost oneRequestSeen (run.plan.command.drop 3)).map fun r =>
        (r.perRequest.all (·.success), r.validity.valid)) = some (true, true) := by
    decide +kernel
  obtain ⟨run, hplan, hmap⟩ := Option.bind_eq_some_iff.mp hrun
  obtain ⟨r, hr, hpair⟩ := Option.map_eq_some_iff.mp hmap
  obtain ⟨hsucceeded, hvalid⟩ := Prod.mk.inj hpair
  have hzero : ∀ q : Rat, some (0 : Rat) = some q → |q| < 2 ^ 53 := by
    intro q hq
    rw [← Option.some.inj hq]
    norm_num
  have hone : ∀ q : Rat, some (1 : Rat) = some q → |q| < 2 ^ 53 := by
    intro q hq
    rw [← Option.some.inj hq]
    norm_num
  have hint : ∀ n : Int, PlainInteger (.int n) := by
    intro n t ht
    cases ht
  have hnull : PlainInteger .null := by
    intro t ht
    cases ht
  have hplain : PlainNumbers asciiOnly oneRequestConfig oneRequestTarget :=
    ⟨hint 0, hint 128, hint 1, hnull, hnull, hnull, (by intro x hx; cases hx), hzero, hone⟩
  have hrecordable : Recordable asciiOnly oneRequestConfig oneRequestTarget := by
    refine ⟨rfl, rfl, ?_⟩
    intro field hfield x hx
    have habsent : plannedOptional oneRequestConfig oneRequestTarget field = some [] := by
      simp only [optionalFields, List.mem_cons, List.not_mem_nil, or_false] at hfield
      rcases hfield with rfl | rfl | rfl | rfl <;> rfl
    rw [habsent] at hx
    cases hx
  have hdigest : ∀ contents,
      ValidateResult.isDigest (oneRequestSurroundings.sha256 contents).toList := by
    have hzeros : ValidateResult.isDigest (String.ofList (List.replicate 64 '0')).toList := by
      decide +kernel
    exact fun _ => hzeros
  obtain ⟨accepted, hcompleted, hiff⟩ := resume_idempotent hplan hr rfl rfl
    hdigest hplain (List.all_eq_true.mp hsucceeded) hvalid (fun _ => []) "s" "e"
  refine ⟨run, r, hplan, hr, ?_⟩
  rw [hcompleted, hiff.mpr hrecordable]

end Gateway.RunMatrix
