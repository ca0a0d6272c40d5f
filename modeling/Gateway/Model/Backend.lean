import Gateway.Lib.Json

/-!
# Backends

What the operations of an inference backend come back with: `BackendBatchResult` of
`gateway/backends/base.py`, and the exceptions of `gateway/core/errors.py` that a backend
raises.
-/

namespace Gateway

/-- A response of a chat completion. -/
abbrev Response := List (String × Json)

/-- The exceptions of a backend. -/
inductive BackendError
  | capability
  | configuration
  | http
  | protocol
  | requestRejected (statusCode : Int)
  | timeout
  | unavailable
  /-- any other `Exception` -/
  | other (e : Nat)
deriving DecidableEq, Repr

/-- `BackendBatchResult.usage_result`. -/
inductive BatchUsage
  | observed
  | missing
  | invalid
deriving DecidableEq, Repr

/-- `BackendBatchResult`. -/
structure BackendBatchResult where
  responses : List Response
  aggregateCompletionTokens : Option Int
  usageResult : BatchUsage
deriving DecidableEq

end Gateway
