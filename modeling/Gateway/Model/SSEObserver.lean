/-!
# The SSE metrics observer

The accounting half of `gateway/observability/sse.py`: what `SSEMetricsObserver`
records for each event it extracts and at the end of the stream. A chunk is the
list of the events that `_drain_events` extracts when the chunk arrives; the
extraction from bytes and the clock readings are left out.
-/

namespace Gateway

/-- What `_observe_event` finds in one event. -/
inductive SSEEvent
  /-- no data lines, or `[DONE]` -/
  | ignored
  /-- oversized, not JSON, or not an object -/
  | malformed
  /-- an object: whether some choice has non-empty content, and its `usage` if the
      key is present (`none` for a value that is not valid) -/
  | payload (content : Bool) (usage : Option (Option Nat))
deriving DecidableEq, Repr

/-- `_usage_result`. -/
inductive UsageResult
  | observed (completionTokens : Nat)
  | invalid
deriving DecidableEq, Repr

/-- One increment of the time-to-first-token coverage. -/
inductive TTFTCoverage
  | observed
  | missing
deriving DecidableEq, Repr

/-- `AccountingResult`, with the tokens that were counted. -/
inductive TokenAccounting
  | observed (completionTokens : Nat)
  | invalid
  | missing
deriving DecidableEq, Repr

/-- `SSEMetricsObserver`, with the records it made. -/
structure SSEMetricsObserver where
  firstContentSeen : Bool
  usageResult : Option UsageResult
  disabled : Bool
  finalized : Bool
  /-- the calls of `observe_ttft` and `record_missing_ttft` -/
  ttft : List TTFTCoverage
  /-- the calls of `record_token_accounting` -/
  tokens : List TokenAccounting
deriving DecidableEq, Repr

namespace SSEMetricsObserver

/-- `__init__`. -/
def new : SSEMetricsObserver := ⟨false, none, false, false, [], []⟩

/-- `_disable`. -/
def disable (o : SSEMetricsObserver) : SSEMetricsObserver := { o with disabled := true }

/-- `_observe_first_content`. -/
def observeFirstContent (o : SSEMetricsObserver) (content : Bool) : SSEMetricsObserver :=
  if o.firstContentSeen then o
  else if content then { o with firstContentSeen := true, ttft := o.ttft ++ [.observed] }
  else o

/-- `_observe_usage`. -/
def observeUsage (o : SSEMetricsObserver) (usage : Option (Option Nat)) : SSEMetricsObserver :=
  match o.usageResult, usage with
  | none, some (some completionTokens) => { o with usageResult := some (.observed completionTokens) }
  | none, some none => { o with usageResult := some .invalid }
  | _, _ => o

/-- `_observe_event`. -/
def observeEvent (o : SSEMetricsObserver) : SSEEvent → SSEMetricsObserver
  | .ignored => o
  | .malformed => o.disable
  | .payload content usage => (o.observeFirstContent content).observeUsage usage

/-- `_drain_events`: the events of a chunk, up to one that disables the observer. -/
def drainEvents (o : SSEMetricsObserver) : List SSEEvent → SSEMetricsObserver
  | [] => o
  | e :: events =>
    if (o.observeEvent e).disabled then o.observeEvent e
    else drainEvents (o.observeEvent e) events

/-- `observe_bytes`. -/
def observeBytes (o : SSEMetricsObserver) (chunk : List SSEEvent) : SSEMetricsObserver :=
  if o.disabled ∨ o.finalized then o else o.drainEvents chunk

/-- `finalize`. -/
def finalize (o : SSEMetricsObserver) : SSEMetricsObserver :=
  if o.finalized then o
  else
    { o with
      finalized := true
      ttft := if o.firstContentSeen then o.ttft else o.ttft ++ [.missing]
      tokens := o.tokens ++ [match o.usageResult with
        | some (.observed completionTokens) => .observed completionTokens
        | some .invalid => .invalid
        | none => if o.disabled then .invalid else .missing] }

/-- Only `finalize` finalizes. -/
theorem observeEvent_finalized (o : SSEMetricsObserver) (e : SSEEvent) :
    (o.observeEvent e).finalized = o.finalized := by
  cases e with
  | ignored => rfl
  | malformed => rfl
  | payload content usage =>
    unfold observeEvent observeFirstContent observeUsage
    repeat' split
    all_goals rfl

end SSEMetricsObserver

end Gateway
