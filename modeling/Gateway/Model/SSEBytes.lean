import Mathlib.Algebra.Ring.Int.Defs
import Gateway.Lib.Json

/-!
# The SSE metrics observer, from bytes

`SSEMetricsObserver` of `gateway/observability/sse.py` with its buffer: how events are
cut out of the bytes of a stream, and what is read from them. Bytes are `UInt8`.
`json.loads` of bytes is the parameter `loads`. A payload's members are those of the
`dict`, one for each key. Left out are the clock readings, the log and `backend_id`.

A method that can raise returns an `Except`, whose error is the observer as the
exception found it.

`Model.SSEObserver` has the same class from the extracted events on.
-/

namespace Gateway

/-- `AccountingResult`. -/
inductive AccountingResult
  | observed
  | missing
  | invalid
deriving DecidableEq, Repr

/-- The calls of `GatewayMetrics`, for a streaming request. -/
inductive StreamingMetricsCall
  | observeTtft
  | recordMissingTtft
  | recordTokenAccounting (result : AccountingResult) (completionTokens : Option Int)
deriving DecidableEq, Repr

/-- The exceptions of `json.loads`. -/
inductive LoadsError
  /-- `UnicodeDecodeError` or `json.JSONDecodeError` -/
  | decodeError
  /-- any other one: `RecursionError`, or the `ValueError` for a number of too many digits -/
  | other
deriving DecidableEq, Repr

namespace SSE

/-- `\r` -/
abbrev cr : UInt8 := 13

/-- `\n` -/
abbrev lf : UInt8 := 10

/-- The bytes of an ASCII text. -/
def ascii (s : String) : List UInt8 := s.toList.map fun c => UInt8.ofNat c.toNat

/-- `\r?\n` at the start: what comes after it. -/
def newline? : List UInt8 → Option (List UInt8)
  | 13 :: 10 :: rest => some rest
  | 10 :: rest => some rest
  | _ => none

/-- `_EVENT_BOUNDARY` at the start: what comes after it. -/
def boundary? (bytes : List UInt8) : Option (List UInt8) := (newline? bytes).bind newline?

/-- `_EVENT_BOUNDARY.search`: what comes before the first match, and what comes after. -/
def search : List UInt8 → Option (List UInt8 × List UInt8)
  | [] => none
  | b :: bytes =>
    match boundary? (b :: bytes) with
    | some rest => some ([], rest)
    | none => (search bytes).map fun found => (b :: found.1, found.2)

theorem newline?_length {bytes rest : List UInt8} (h : newline? bytes = some rest) :
    rest.length < bytes.length := by
  unfold newline? at h
  split at h <;> cases h <;> simp only [List.length_cons] <;> omega

theorem boundary?_length {bytes rest : List UInt8} (h : boundary? bytes = some rest) :
    rest.length < bytes.length := by
  obtain ⟨line, hline, hrest⟩ := Option.bind_eq_some_iff.mp h
  exact (newline?_length hrest).trans (newline?_length hline)

theorem search_length {bytes : List UInt8} {found : List UInt8 × List UInt8}
    (h : search bytes = some found) : found.2.length < bytes.length := by
  induction bytes generalizing found with
  | nil => cases h
  | cons b bytes ih =>
    rw [search] at h
    split at h
    · next rest hrest =>
      cases h
      exact boundary?_length hrest
    · obtain ⟨found', hfound, rfl⟩ := Option.map_eq_some_iff.mp h
      have hlt : found'.2.length < bytes.length := ih hfound
      exact Nat.lt_succ_of_lt hlt

/-- `bytes.splitlines()`, with the bytes of the line that was begun. -/
def splitLinesFrom (begun : List UInt8) : List UInt8 → List (List UInt8)
  | [] => if begun = [] then [] else [begun]
  | 13 :: 10 :: rest => begun :: splitLinesFrom [] rest
  | 13 :: rest => begun :: splitLinesFrom [] rest
  | 10 :: rest => begun :: splitLinesFrom [] rest
  | b :: rest => splitLinesFrom (begun ++ [b]) rest

/-- `bytes.splitlines()`. -/
def splitLines (bytes : List UInt8) : List (List UInt8) := splitLinesFrom [] bytes

/-- ASCII whitespace, as `bytes.strip` has it. -/
def isSpace (b : UInt8) : Bool := b = 32 || (9 ≤ b && b ≤ 13)

/-- `bytes.strip()`. -/
def strip (bytes : List UInt8) : List UInt8 :=
  ((bytes.dropWhile isSpace).reverse.dropWhile isSpace).reverse

/-- The data of one line, if it is a `data` line. -/
def dataOfLine (line : List UInt8) : Option (List UInt8) :=
  if line.head? = some 58 then none
  else if line = ascii "data" then some []
  else if ascii "data:" <+: line then
    let value := line.drop 5
    some (if value.head? = some 32 then value.drop 1 else value)
  else none

/-- What `_observe_event` finds in an event. -/
inductive EventData
  /-- no data lines, or `[DONE]` -/
  | ignored
  /-- not JSON, or not an object -/
  | malformed
  /-- `json.loads` raised what is not caught -/
  | raised
  | payload (fields : List (String × Json))
deriving DecidableEq

/-- `_observe_event` up to the payload. -/
def eventData (loads : List UInt8 → Except LoadsError Json) (event : List UInt8) : EventData :=
  match (splitLines event).filterMap dataOfLine with
  | [] => .ignored
  | line :: lines =>
    let data := [lf].intercalate (line :: lines)
    if strip data = ascii "[DONE]" then .ignored
    else
      match loads data with
      | .ok (.obj fields) => .payload fields
      | .ok _ => .malformed
      | .error .decodeError => .malformed
      | .error .other => .raised

/-- Whether a choice has content that is not empty. -/
def choiceContent : Json → Bool
  | .obj choice =>
    match Json.getField choice "delta" with
    | some (.obj delta) =>
      match Json.getField delta "content" with
      | some (.str content) => content ≠ ""
      | _ => false
    | _ => false
  | _ => false

/-- Whether a payload has content. -/
def hasContent (fields : List (String × Json)) : Bool :=
  match Json.getField fields "choices" with
  | some (.arr choices) => choices.any choiceContent
  | _ => false

/-- The completion tokens of a `usage` value; `none` if it is not valid. -/
def completionTokens : Json → Option Int
  | .obj usage =>
    match Json.getField usage "completion_tokens" with
    | some (.int tokens) => if tokens < 0 then none else some tokens
    | _ => none
  | _ => none

end SSE

/-- `SSEMetricsObserver`, with the metrics calls it made. -/
structure SSEBytesObserver where
  maxEventBytes : Nat
  buffer : List UInt8
  firstContentSeen : Bool
  usageResult : Option AccountingResult
  completionTokens : Option Int
  disabled : Bool
  finalized : Bool
  calls : List StreamingMetricsCall
deriving DecidableEq, Repr

namespace SSEBytesObserver

open SSE

/-- `__init__`; `none` stands for its `ValueError`. -/
def init (maxEventBytes : Int) : Option SSEBytesObserver :=
  if maxEventBytes ≤ 0 then none
  else
    some
      { maxEventBytes := maxEventBytes.toNat, buffer := [], firstContentSeen := false
        usageResult := none, completionTokens := none, disabled := false, finalized := false
        calls := [] }

/-- `_disable`. -/
def disable (o : SSEBytesObserver) : SSEBytesObserver :=
  if o.disabled then o else { o with disabled := true, buffer := [] }

/-- `_observe_first_content`. -/
def observeFirstContent (o : SSEBytesObserver) (fields : List (String × Json)) :
    SSEBytesObserver :=
  if o.firstContentSeen then o
  else if hasContent fields then
    { o with firstContentSeen := true, calls := o.calls ++ [.observeTtft] }
  else o

/-- `_observe_usage`. -/
def observeUsage (o : SSEBytesObserver) (fields : List (String × Json)) : SSEBytesObserver :=
  match o.usageResult, Json.getField fields "usage" with
  | none, some usage =>
    match SSE.completionTokens usage with
    | some tokens => { o with usageResult := some .observed, completionTokens := some tokens }
    | none => { o with usageResult := some .invalid }
  | _, _ => o

/-- `_observe_event`. -/
def observeEvent (loads : List UInt8 → Except LoadsError Json) (o : SSEBytesObserver)
    (event : List UInt8) : Except SSEBytesObserver SSEBytesObserver :=
  match eventData loads event with
  | .ignored => .ok o
  | .malformed => .ok o.disable
  | .raised => .error o
  | .payload fields => .ok ((o.observeFirstContent fields).observeUsage fields)

theorem disable_buffer_length (o : SSEBytesObserver) : o.disable.buffer.length ≤ o.buffer.length := by
  unfold disable
  split <;> simp

@[simp] theorem observeFirstContent_buffer (o : SSEBytesObserver) (fields : List (String × Json)) :
    (o.observeFirstContent fields).buffer = o.buffer := by
  unfold observeFirstContent
  split <;> [rfl; split <;> rfl]

@[simp] theorem observeUsage_buffer (o : SSEBytesObserver) (fields : List (String × Json)) :
    (o.observeUsage fields).buffer = o.buffer := by
  unfold observeUsage
  split <;> [split <;> rfl; rfl]

theorem observeEvent_buffer_length {loads : List UInt8 → Except LoadsError Json}
    {o o' : SSEBytesObserver} {event : List UInt8} (h : o.observeEvent loads event = .ok o') :
    o'.buffer.length ≤ o.buffer.length := by
  unfold observeEvent at h
  split at h <;> cases h
  · exact Nat.le_refl _
  · exact disable_buffer_length o
  · simp

/-- `_drain_events`. -/
def drainEvents (loads : List UInt8 → Except LoadsError Json) (o : SSEBytesObserver) :
    Except SSEBytesObserver SSEBytesObserver :=
  match _hsearch : search o.buffer with
  | none => .ok o
  | some (event, rest) =>
    if o.maxEventBytes < event.length then .ok { o with buffer := rest }.disable
    else
      match _hevent : { o with buffer := rest }.observeEvent loads event with
      | .error o' => .error o'
      | .ok o' => if o'.disabled then .ok o' else drainEvents loads o'
termination_by o.buffer.length
decreasing_by
  have hrest : rest.length < o.buffer.length := search_length _hsearch
  have hle : o'.buffer.length ≤ rest.length := observeEvent_buffer_length _hevent
  omega

/-- `observe_bytes`: the next bytes of the chunk are copied. -/
def copy (o : SSEBytesObserver) (chunk : List UInt8) : SSEBytesObserver :=
  { o with buffer := o.buffer ++ chunk.take (o.maxEventBytes - o.buffer.length) }

/-- `observe_bytes`: the bytes of the chunk that are not copied yet. -/
def uncopied (o : SSEBytesObserver) (chunk : List UInt8) : List UInt8 :=
  chunk.drop (o.maxEventBytes - o.buffer.length)

theorem uncopied_length {o : SSEBytesObserver} {chunk : List UInt8} (hne : chunk ≠ [])
    (hfree : ¬ o.maxEventBytes ≤ o.buffer.length) : (o.uncopied chunk).length < chunk.length := by
  have hpos : 0 < chunk.length := List.length_pos_of_ne_nil hne
  rw [uncopied, List.length_drop]
  omega

/-- The loop of `observe_bytes`. -/
def observeLoop (loads : List UInt8 → Except LoadsError Json) (o : SSEBytesObserver)
    (chunk : List UInt8) : Except SSEBytesObserver SSEBytesObserver :=
  if _hne : chunk = [] then .ok o
  else if _hfree : o.maxEventBytes ≤ o.buffer.length then .ok o.disable
  else
    match (o.copy chunk).drainEvents loads with
    | .error o' => .error o'
    | .ok o' => if o'.disabled then .ok o' else observeLoop loads o' (o.uncopied chunk)
termination_by chunk.length
decreasing_by exact uncopied_length _hne _hfree

/-- `except Exception: self._disable()`. -/
def caught : Except SSEBytesObserver SSEBytesObserver → SSEBytesObserver
  | .ok o => o
  | .error o => o.disable

/-- `observe_bytes`. -/
def observeBytes (loads : List UInt8 → Except LoadsError Json) (o : SSEBytesObserver)
    (chunk : List UInt8) : SSEBytesObserver :=
  if o.disabled ∨ o.finalized then o else caught (o.observeLoop loads chunk)

/-- `finalize`. -/
def finalize (o : SSEBytesObserver) : SSEBytesObserver :=
  if o.finalized then o
  else
    { o with
      finalized := true
      buffer := []
      calls := o.calls ++ (if o.firstContentSeen then [] else [.recordMissingTtft]) ++
        [if o.usageResult = some .observed then .recordTokenAccounting .observed o.completionTokens
          else if o.usageResult = some .invalid ∨ o.disabled then .recordTokenAccounting .invalid none
          else .recordTokenAccounting .missing none] }

end SSEBytesObserver

/-- `gateway_observed_output_tokens_total`, as `record_token_accounting` increments it. -/
def observedOutputTokens (calls : List StreamingMetricsCall) : Int :=
  (calls.map fun
    | .recordTokenAccounting .observed (some tokens) => tokens
    | _ => 0).sum

/-- `gateway_token_accounting_requests_total`. -/
def tokenAccountingRequests (calls : List StreamingMetricsCall) (result : AccountingResult) : Nat :=
  calls.countP fun
    | .recordTokenAccounting result' _ => result' = result
    | _ => false

end Gateway
