import Gateway.Model.BatcherTasks
import Gateway.Model.VLLMBackend

/-!
# The chat completion endpoint

The non-streaming path of `gateway/api/chat.py`, over the dynamic batcher and its vLLM
backend: a call is checked against the configured limits, waits for admission and then
submits its request to the batcher if batching may be used for it.

When admission lets a call through, and whether it does, is the environment's choice here,
and so is what the upstream server replies to a batch. A streaming call and a call that
bypasses batching go their own way and are not followed further.
-/

namespace Gateway

/-- The settings that the endpoint reads. -/
structure ChatSettings where
  maxCompletionTokens : Int
  maxChoices : Int
  dynamicBatchingEnabled : Bool

/-- `_enforce_configured_limits`, with the text of its `InvalidRequestError`. -/
def enforceConfiguredLimits (payload : ChatCompletionRequest) (settings : ChatSettings) :
    Except String Unit :=
  if payload.maxTokens.join.any fun maxTokens => settings.maxCompletionTokens < maxTokens then
    .error ("max_tokens must not exceed " ++ toString settings.maxCompletionTokens)
  else if payload.nValue > settings.maxChoices then
    .error ("n must not exceed " ++ toString settings.maxChoices)
  else .ok ()

/-- Where a call of `create_chat_completion` stands. -/
inductive ChatCall
  /-- `async with admission.admit(tenant)` -/
  | admitting (tenantId : String) (payload : ChatCompletionRequest)
  /-- `await batcher.submit(...)`, by its item -/
  | submitted (i : ItemId)
  /-- `await backend.generate(payload)` -/
  | generating (payload : ChatCompletionRequest)
  /-- `return await _create_streaming_completion(...)` -/
  | streaming (payload : ChatCompletionRequest)
  /-- it has raised -/
  | failed

/-- How the backend of the batcher comes to its answer. -/
inductive BatchCallOutcome
  /-- `VLLMBackend.generate_batch`, with what the upstream server replies -/
  | vllm (post : Fields → UpstreamReply)
  /-- the pool raises before it has a backend -/
  | unrouted (e : BackendError)
  /-- `asyncio.CancelledError` -/
  | cancelled

/-- The calls of the endpoint, and the batcher. -/
structure ChatSystem where
  settings : ChatSettings
  batcher : BatcherSystem
  calls : List ChatCall

/-- What a call or the event loop does next. -/
inductive ChatAction
  /-- a client calls the endpoint -/
  | call (tenantId : String) (payload : ChatCompletionRequest)
  /-- admission lets a call through; the readings of the clock are those of `submit` -/
  | admitted (k : Nat) (submittedAt dispatchedAt : Int)
  /-- admission raises, or the client leaves -/
  | refused (k : Nat)
  /-- `generate_batch` comes back -/
  | answer (f : FlushId) (outcome : BatchCallOutcome)
  /-- any other step of the batcher -/
  | batcher (a : BatcherAction)

namespace ChatSystem

/-- The initial systems. -/
def Init (s : ChatSystem) : Prop := BatcherSystem.Init s.batcher ∧ s.calls = []

/-- The requests of items. -/
def requestsOf (b : DynamicBatcher) (is : List ItemId) : List ChatCompletionRequest :=
  is.filterMap fun i => b.items[i]?.map (·.request)

/-- What `generate_batch` of the requests of a batch comes back with. -/
def answerOf (requests : List ChatCompletionRequest) : BatchCallOutcome → BatchAnswer
  | .vllm post =>
    match VLLMBackend.generateBatch requests post with
    | .ok result => .result result
    | .error e => .raised e
  | .unrouted e => .raised e
  | .cancelled => .cancelled

/-- Go on with a step of the batcher. -/
def stepBatcher (s : ChatSystem) (a : BatcherAction) : Except BatcherSystem.StepError ChatSystem :=
  match s.batcher.step a with
  | .ok b => .ok { s with batcher := b }
  | .error e => .error e

/-- `create_chat_completion` up to its first wait. -/
def start (s : ChatSystem) (tenantId : String) (payload : ChatCompletionRequest) : ChatCall :=
  match enforceConfiguredLimits payload s.settings with
  | .error _ => .failed
  | .ok () => if payload.streamValue then .streaming payload else .admitting tenantId payload

/-- `create_chat_completion` from its admission. -/
def afterAdmission (s : ChatSystem) (k : Nat) (tenantId : String) (payload : ChatCompletionRequest)
    (submittedAt dispatchedAt : Int) : Except BatcherSystem.StepError ChatSystem :=
  if batchingEligibility payload s.settings.dynamicBatchingEnabled = .eligible then
    -- a closed batcher raises `BatchingUnavailableError`
    let call := if s.batcher.batcher.closed then .failed
      else .submitted s.batcher.batcher.items.length
    stepBatcher { s with calls := s.calls.set k call }
      (.submit tenantId payload submittedAt dispatchedAt)
  else .ok { s with calls := s.calls.set k (.generating payload) }

/-- One step. -/
def step (s : ChatSystem) : ChatAction → Except BatcherSystem.StepError ChatSystem
  | .call tenantId payload => .ok { s with calls := s.calls ++ [s.start tenantId payload] }
  | .admitted k submittedAt dispatchedAt =>
    match s.calls[k]? with
    | some (.admitting tenantId payload) => s.afterAdmission k tenantId payload submittedAt dispatchedAt
    | _ => .error .disabled
  | .refused k =>
    match s.calls[k]? with
    | some (.admitting _ _) => .ok { s with calls := s.calls.set k .failed }
    | _ => .error .disabled
  | .answer f outcome =>
    match s.batcher.batcher.flushes[f]? with
    | none => .error .disabled
    | some task =>
      s.stepBatcher (.answer f (answerOf (requestsOf s.batcher.batcher task.items) outcome))
  | .batcher a =>
    match a with
    -- only the endpoint submits, and answers are those of the backend
    | .submit .. | .answer .. => .error .disabled
    | a => s.stepBatcher a

/-- Every interleaving of the steps. -/
def lts : Lts ChatSystem ChatAction := Lts.ofStep Init step

end ChatSystem

end Gateway
