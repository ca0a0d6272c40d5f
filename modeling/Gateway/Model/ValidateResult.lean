import Gateway.Lib.PythonJson

/-!
# The result validator

`validate` of `benchmark/scripts/validate_result.py`, on the JSON value of a result.
-/

namespace Gateway

namespace ValidateResult

/-- `fields.get(key, default)` -/
def get (fields : List (String × Json)) (key : String) (default : Json) : Json :=
  (Json.getField fields key).getD default

/-- The sections that a result must have. -/
def sections : List String :=
  ["metadata", "configuration", "timing", "warmup", "summary", "per_request", "metrics",
    "metric_artifacts", "environment", "validity"]

/-- `required_object_fields` -/
def requiredObjectFields : List (String × List String) :=
  [("metadata", ["run_id", "timestamp_utc", "label", "repeat", "execution_order"]),
    ("timing", ["measured_start_utc", "measured_end_utc", "duration_seconds"]),
    ("warmup", ["attempted", "success", "failed"]),
    ("summary",
      ["attempted", "successful", "failed", "error_rate", "errors_by_category", "e2e", "ttft",
        "request_throughput_rps", "output_throughput_tps", "authoritative_token_coverage"]),
    ("validity", ["valid", "reasons"])]

/-- The fields that the configuration must have. -/
def configurationFields : List String :=
  ["base_url", "endpoint", "model", "mode", "concurrency", "requests", "warmup",
    "timeout_seconds", "dataset_sha256", "temperature", "top_p", "max_tokens", "seed", "n",
    "stream", "stream_include_usage", "batching_enabled", "prefix_caching",
    "workload_fingerprint", "gateway_config_fingerprint", "vllm_config_fingerprint"]

/-- The messages about the fields that are missing. -/
def missing (label : String) (fields : List (String × Json)) (required : List String) :
    List String :=
  (required.filter fun field => (Json.getField fields field).isNone).map (label ++ "missing " ++ ·)

/-- The messages about a section that must be an object with some fields. -/
def checkObject (result : List (String × Json)) (name : String) (required : List String) :
    List String :=
  match get result name (.obj []) with
  | .obj fields => missing (name ++ " ") fields required
  | _ => [name ++ " must be an object"]

/-- The messages about the requests of a non-streaming run, from an index on. -/
def checkRequests (index : Nat) : List Json → List String
  | [] => []
  | .obj request :: requests =>
    (if get request "ttft_ms" .null = .null then []
      else ["per_request[" ++ toString index ++ "] has TTFT in non-streaming mode"]) ++
      checkRequests (index + 1) requests
  | _ :: requests =>
    ("per_request[" ++ toString index ++ "] must be an object") :: checkRequests (index + 1) requests

/-- `re.fullmatch(r"[0-9a-f]{64}", text)` -/
def isDigest (t : Text) : Bool :=
  t.length = 64 && t.all fun c => Text.isDigit c || (97 ≤ c.toNat && c.toNat ≤ 102)

/-- The value of an `int`; a `bool` is one. -/
def intValue : Json → Option Int
  | .int n => some n
  | .bool b => some (if b then 1 else 0)
  | _ => none

/-- `validate`; `none` is an exception, of a mode that cannot be hashed. -/
def validate (inner : Json → Text) : Json → Option (List String)
  | .obj result =>
    let errors :=
      (if Json.pyEq (get result "schema_version" .null) (.int 1) then []
        else ["schema_version must equal 1"]) ++
      missing "" result sections ++
      requiredObjectFields.flatMap (fun required => checkObject result required.1 required.2) ++
      ["metrics", "metric_artifacts", "environment"].flatMap (checkObject result · [])
    match get result "configuration" (.obj []) with
    | .obj configuration =>
      match get configuration "mode" .null with
      | .arr _ => none
      | .obj _ => none
      | mode =>
        let requests : List Json :=
          match get result "per_request" (.arr []) with
          | .arr requests => requests
          | _ => []
        let errors := errors ++ missing "configuration " configuration configurationFields ++
          (if mode = .str "streaming" ∨ mode = .str "non_streaming" then []
            else ["configuration.mode is invalid"]) ++
          (match get result "per_request" (.arr []) with
            | .arr _ => []
            | _ => ["per_request must be an array"]) ++
          (if mode = .str "non_streaming" then checkRequests 0 requests else []) ++
          (if isDigest ((get configuration "dataset_sha256" (.str "")).toText inner) then []
            else ["dataset_sha256 must be a 64-character hex digest"])
        match get result "summary" (.obj []) with
        | .obj summary =>
          some (errors ++
            match intValue (get summary "attempted" .null) with
            | some attempted =>
              if attempted ≠ requests.length then
                ["summary.attempted does not match per_request length"]
              else []
            | none => [])
        | _ => some (errors ++ ["summary must be an object"])
    | _ => some (errors ++ ["configuration must be an object"])
  | _ => some ["root must be an object"]

end ValidateResult

end Gateway
