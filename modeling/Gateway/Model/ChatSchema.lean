import Gateway.Lib.Json

/-!
# Chat completion requests

`gateway/schemas/chat.py` after validation, `gateway/batching/eligibility.py` and
`compatibility_key` of `gateway/batching/dynamic.py`. A field is `none` if the client
did not supply it; a nullable field that was supplied as `null` is `some none`. Of the
validators only those are kept that relate fields of the batching path: the others
restrict single values.
-/

namespace Gateway

/-- `ChatMessage.role`. -/
inductive Role
  | system
  | user
  | assistant
deriving DecidableEq, Repr

/-- `ChatMessage`. -/
structure ChatMessage where
  role : Role
  content : String
deriving DecidableEq, Repr

/-- `ChatCompletionRequest.stop`. -/
inductive Stop
  | one (s : String)
  | many (ss : List String)
deriving DecidableEq, Repr

/-- `StreamOptions`. -/
structure StreamOptions where
  includeUsage : Option Bool
deriving DecidableEq, Repr

/-- `ChatCompletionRequest`. -/
structure ChatCompletionRequest where
  model : String
  messages : List ChatMessage
  temperature : Option JsonFloat
  topP : Option JsonFloat
  maxTokens : Option (Option Int)
  stop : Option (Option Stop)
  seed : Option (Option Int)
  n : Option Int
  stream : Option Bool
  streamOptions : Option (Option StreamOptions)
  /-- `Field(default=1, gt=0)` -/
  n_pos : ∀ k ∈ n, 0 < k
  /-- `validate_stream_options` -/
  options_streaming : streamOptions.join.isSome = true → stream = some true

/-- The JSON of a role. -/
def Role.toJson : Role → Json
  | .system => .str "system"
  | .user => .str "user"
  | .assistant => .str "assistant"

/-- The JSON of a message. -/
def ChatMessage.toJson (m : ChatMessage) : Json :=
  .obj [("role", m.role.toJson), ("content", .str m.content)]

/-- The JSON of a stop value. -/
def Stop.toJson : Stop → Json
  | .one s => .str s
  | .many ss => .arr (ss.map .str)

/-- The JSON of stream options: `exclude_unset` holds for nested models too. -/
def StreamOptions.toJson (o : StreamOptions) : Json :=
  .obj (match o.includeUsage with
    | some b => [("include_usage", .bool b)]
    | none => [])

namespace ChatCompletionRequest

/-- `request.n`. -/
def nValue (r : ChatCompletionRequest) : Int := r.n.getD 1

/-- `request.stream`. -/
def streamValue (r : ChatCompletionRequest) : Bool := r.stream.getD false

/-- A member of a dumped model: `exclude_none` and `exclude_unset` leave it out. -/
def member (name : String) (value : Option Json) : List (String × Json) :=
  match value with
  | some x => [(name, x)]
  | none => []

/-- The messages as they are sent. -/
def messagesJson (r : ChatCompletionRequest) : Json := .arr (r.messages.map (·.toJson))

/-- `to_upstream_payload`. -/
def toUpstreamPayload (r : ChatCompletionRequest) : List (String × Json) :=
  member "model" (some (.str r.model)) ++
  member "messages" (some r.messagesJson) ++
  member "temperature" (r.temperature.map .float) ++
  member "top_p" (r.topP.map .float) ++
  member "max_tokens" (r.maxTokens.join.map .int) ++
  member "stop" (r.stop.join.map (·.toJson)) ++
  member "seed" (r.seed.join.map .int) ++
  member "n" (r.n.map .int) ++
  member "stream" (r.stream.map .bool) ++
  member "stream_options" (r.streamOptions.join.map (·.toJson))

/-- `payload.pop(key, None)`. -/
def pop (key : String) (payload : List (String × Json)) : List (String × Json) :=
  payload.filter fun f => f.1 ≠ key

/-- `to_batch_shared_payload`. -/
def toBatchSharedPayload (r : ChatCompletionRequest) : List (String × Json) :=
  pop "n" (pop "stream_options" (pop "stream" (pop "messages" r.toUpstreamPayload)))

/-- The members that `to_batch_shared_payload` leaves. -/
theorem toBatchSharedPayload_eq (r : ChatCompletionRequest) : r.toBatchSharedPayload =
    member "model" (some (.str r.model)) ++
    member "temperature" (r.temperature.map .float) ++
    member "top_p" (r.topP.map .float) ++
    member "max_tokens" (r.maxTokens.join.map .int) ++
    member "stop" (r.stop.join.map (·.toJson)) ++
    member "seed" (r.seed.join.map .int) := by
  have hpop : ∀ (key name : String) (value : Option Json),
      pop key (member name value) = if name = key then [] else member name value := by
    intro key name value
    cases value <;> by_cases h : name = key <;> simp [pop, member, h]
  have happend : ∀ (key : String) (p q : List (String × Json)),
      pop key (p ++ q) = pop key p ++ pop key q := fun key p q => List.filter_append ..
  unfold toBatchSharedPayload toUpstreamPayload
  simp [happend, hpop]

end ChatCompletionRequest

/-- `compatibility_key`. -/
def compatibilityKey (tenantId : String) (request : ChatCompletionRequest) : String :=
  Json.dumps (.arr [.str tenantId, .str (Json.dumpsSorted (.obj request.toBatchSharedPayload))])

/-- `BatchEligibility`, by its reason. -/
inductive BatchEligibility
  | eligible
  | disabled
  | streaming
  | nGt1
deriving DecidableEq, Repr

/-- `batching_eligibility`. -/
def batchingEligibility (request : ChatCompletionRequest) (enabled : Bool) : BatchEligibility :=
  if !enabled then .disabled
  else if request.streamValue then .streaming
  else if request.nValue > 1 then .nGt1
  else .eligible

/-- An eligible request asks for one choice, not streamed. -/
theorem batchingEligibility_eligible {request : ChatCompletionRequest} {enabled : Bool}
    (h : batchingEligibility request enabled = .eligible) :
    request.streamValue = false ∧ request.nValue = 1 := by
  unfold batchingEligibility at h
  split at h
  · exact nomatch h
  split at h
  · exact nomatch h
  next hstream =>
  split at h
  · exact nomatch h
  next hn =>
  refine ⟨by simpa using hstream, ?_⟩
  have hpos : 0 < request.nValue := by
    unfold ChatCompletionRequest.nValue
    cases hval : request.n with
    | none => decide
    | some k => exact request.n_pos k hval
  omega

end Gateway
