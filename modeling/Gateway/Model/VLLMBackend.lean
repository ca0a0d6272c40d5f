import Gateway.Lib.Dict
import Gateway.Lib.PythonJson
import Gateway.Model.Backend
import Gateway.Model.ChatSchema

/-!
# The vLLM backend

`generate` and `generate_batch` of `gateway/backends/vllm.py`, with
`_demultiplex_batch_response`. The HTTP client is the environment: it is given the JSON
body of a request and says how the request ends.

The choices of a batch response are dictionaries that the source refers to and copies, so
`_demultiplex_batch_response` works on a store of dictionaries here, and comes back with
the payload as it is afterwards.
-/

namespace Gateway

/-- The members of a dictionary. -/
abbrev Fields := List (String × Json)

/-- How a request of the HTTP client ends. -/
inductive UpstreamReply
  /-- `httpx2.TimeoutException` -/
  | timeout
  /-- any other `httpx2.RequestError` -/
  | requestError
  /-- a response, with its JSON body unless `response.json()` raises -/
  | response (statusCode : Int) (body : Option Json)

namespace VLLMBackend

/-! ## Requests -/

/-- `_raise_for_upstream_status`. -/
def raiseForUpstreamStatus (statusCode : Int) : Except BackendError Unit :=
  if 200 ≤ statusCode ∧ statusCode < 300 then .ok ()
  else if statusCode ∈ [400, 404, 422] then .error (.requestRejected statusCode)
  else if statusCode ∈ [401, 403] then .error .configuration
  else .error .http

/-- `generate` and `generate_batch` from the request to the payload of its response. -/
def receive : UpstreamReply → Except BackendError Fields
  | .timeout => .error .timeout
  | .requestError => .error .unavailable
  | .response statusCode body =>
    match raiseForUpstreamStatus statusCode with
    | .error e => .error e
    | .ok () =>
      match body with
      | some (.obj payload) => .ok payload
      | _ => .error .protocol

/-- `generate`. -/
def generate (request : ChatCompletionRequest) (post : Fields → UpstreamReply) :
    Except BackendError Response :=
  receive (post request.toUpstreamPayload)

/-! ## Batch responses -/

/-- The dictionaries at hand, by their identity: those of the choices at the places of
    the choices, then the copies of them. -/
abbrev Store := List Fields

/-- A choice's own dictionary; a choice that is none has no use for its place. -/
def dictOf : Json → Fields
  | .obj fields => fields
  | _ => []

/-- The loop over the choices: the places of the choices, by their indices. -/
def byIndex (batchSize : Nat) : List Json → Nat → Dict Int Nat → Except BackendError (Dict Int Nat)
  | [], _, found => .ok found
  | choice :: choices, place, found =>
    match choice with
    | .obj fields =>
      match Json.getField fields "index" with
      | some (.int index) =>
        if index < 0 ∨ (batchSize : Int) ≤ index ∨ (found.get? index).isSome then .error .protocol
        else byIndex batchSize choices (place + 1) (found.set index place)
      | _ => .error .protocol
    | _ => .error .protocol

/-- `set(by_index) != set(range(batch_size))`, negated. -/
def covers (found : Dict Int Nat) (batchSize : Nat) : Bool :=
  found.keys.all (fun index => 0 ≤ index ∧ index < batchSize) &&
    (List.range batchSize).all fun index => (found.get? (index : Int)).isSome

/-- The fields that a member's response shares with the others. -/
def safeBatchFields (payload : Fields) : Fields :=
  ["id", "object", "created", "model", "system_fingerprint"].filterMap fun key =>
    (Json.getField payload key).map fun value => (key, value)

/-- The copies that the members get, each with index 0. -/
def memberChoices (found : Dict Int Nat) : List Nat → Store → Except BackendError (List Nat × Store)
  | [], store => .ok ([], store)
  | index :: indices, store =>
    match found.get? (index : Int) with
    -- `KeyError`
    | none => .error (.other 0)
    | some place =>
      let copied := store ++ [(store[place]?).getD []]
      let changed := copied.modify store.length fun fields => Json.setField fields "index" (.int 0)
      match memberChoices found indices changed with
      | .error e => .error e
      | .ok (members, store') => .ok (store.length :: members, store')

/-- A member's response. -/
def memberResponse (payload : Fields) (store : Store) (member : Nat) : Response :=
  safeBatchFields payload ++ [("choices", .arr [.obj ((store[member]?).getD [])])]

/-- The usage of a batch response. -/
def batchUsage (payload : Fields) : Option Int × BatchUsage :=
  match Json.getField payload "usage" with
  | none => (none, .missing)
  | some (.obj usage) =>
    match Json.getField usage "completion_tokens" with
    | some (.int completionTokens) =>
      if completionTokens < 0 then (none, .invalid) else (some completionTokens, .observed)
    | _ => (none, .invalid)
  | _ => (none, .invalid)

/-- A choice, read back from its place. -/
def choiceAfter (store : Store) (choice : Json) (place : Nat) : Json :=
  match choice with
  | .obj _ => .obj ((store[place]?).getD [])
  | _ => choice

/-- The payload once the dictionaries of its choices are those of the store. -/
def payloadAfter (payload : Fields) (choices : List Json) (store : Store) : Fields :=
  payload.modify (payload.findIdx fun f => f.1 = "choices") fun f =>
    (f.1, .arr (choices.mapIdx fun place choice => choiceAfter store choice place))

/-- `_demultiplex_batch_response`: its result, and its payload afterwards. -/
def demultiplexBatchResponse (payload : Fields) (batchSize : Nat) :
    Except BackendError BackendBatchResult × Fields :=
  match Json.getField payload "choices" with
  | some (.arr choices) =>
    if choices.length ≠ batchSize then (.error .protocol, payload)
    else
      match byIndex batchSize choices 0 .empty with
      | .error e => (.error e, payload)
      | .ok found =>
        if covers found batchSize = false then (.error .protocol, payload)
        else
          match memberChoices found (List.range batchSize) (choices.map dictOf) with
          | .error e => (.error e, payload)
          | .ok (members, store) =>
            (.ok
              { responses := members.map (memberResponse payload store)
                aggregateCompletionTokens := (batchUsage payload).1
                usageResult := (batchUsage payload).2 },
              payloadAfter payload choices store)
  | _ => (.error .protocol, payload)

/-! ## Batches -/

/-- The checks of `generate_batch`, and the body that it sends. -/
def batchPayload : List ChatCompletionRequest → Except BackendError Fields
  | [] => .error .capability
  | first :: rest =>
    if (first :: rest).any fun request => request.streamValue || request.nValue ≠ 1 then
      .error .capability
    else if rest.any fun request =>
        !Json.pyEq (.obj request.toBatchSharedPayload) (.obj first.toBatchSharedPayload) then
      .error .capability
    else
      .ok (Json.setField first.toBatchSharedPayload "messages"
        (.arr ((first :: rest).filterMap fun request =>
          Json.getField request.toUpstreamPayload "messages")))

/-- `generate_batch`. -/
def generateBatch (requests : List ChatCompletionRequest) (post : Fields → UpstreamReply) :
    Except BackendError BackendBatchResult :=
  match batchPayload requests with
  | .error e => .error e
  | .ok body =>
    match receive (post body) with
    | .error e => .error e
    | .ok payload => (demultiplexBatchResponse payload requests.length).1

end VLLMBackend

end Gateway
