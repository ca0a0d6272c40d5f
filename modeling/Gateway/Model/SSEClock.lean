import Gateway.Model.SSEBytes

/-!
# The SSE metrics observer with its clock

`SSEMetricsObserver` of `gateway/observability/sse.py` with the arguments that
`Model.SSEBytes` leaves out: `backend_id`, the times the request and the request to the
backend started, and the clock. Times are of any type with a subtraction.

The clock is read by `_observe_first_content` only, at most once for an event: `clock n` is
its reading while `_observe_event` is at the `n`-th event.
-/

namespace Gateway

/-- The arguments of `observe_ttft`. -/
structure TTFTCall (τ : Type) where
  backendId : Option String
  clientSeconds : τ
  backendSeconds : Option τ
deriving DecidableEq, Repr

/-- `SSEMetricsObserver`, with the times. -/
structure TimedSSEObserver (τ : Type) where
  observer : SSEBytesObserver
  backendId : Option String
  requestStartedAt : τ
  upstreamRequestStartedAt : Option τ
  /-- how many events `_observe_event` was given -/
  events : Nat
  /-- the calls of `observe_ttft` -/
  ttft : List (TTFTCall τ)
deriving DecidableEq, Repr

namespace TimedSSEObserver

open SSE

variable {τ : Type}

/-- `__init__`; `none` stands for its `ValueError`. -/
def init (backendId : Option String) (requestStartedAt : τ) (upstreamRequestStartedAt : Option τ)
    (maxEventBytes : Int) : Option (TimedSSEObserver τ) :=
  (SSEBytesObserver.init maxEventBytes).map fun observer =>
    { observer, backendId, requestStartedAt, upstreamRequestStartedAt, events := 0, ttft := [] }

/-- `_disable`. -/
def disable (o : TimedSSEObserver τ) : TimedSSEObserver τ :=
  { o with observer := o.observer.disable }

/-- An observer with another buffer. -/
def withBuffer (o : TimedSSEObserver τ) (bytes : List UInt8) : TimedSSEObserver τ :=
  { o with observer := { o.observer with buffer := bytes } }

variable [Sub τ]

/-- What `observe_ttft` is called with when content is observed at a time. -/
def ttftAt (o : TimedSSEObserver τ) (observedAt : τ) : TTFTCall τ where
  backendId := o.backendId
  clientSeconds := observedAt - o.requestStartedAt
  backendSeconds := o.upstreamRequestStartedAt.map (observedAt - ·)

/-- `_observe_first_content`. -/
def observeFirstContent (clock : Nat → τ) (o : TimedSSEObserver τ) (fields : List (String × Json)) :
    TimedSSEObserver τ :=
  if o.observer.firstContentSeen then o
  else if hasContent fields then
    { o with
      observer := o.observer.observeFirstContent fields
      ttft := o.ttft ++ [o.ttftAt (clock o.events)] }
  else o

/-- `_observe_usage`. -/
def observeUsage (o : TimedSSEObserver τ) (fields : List (String × Json)) : TimedSSEObserver τ :=
  { o with observer := o.observer.observeUsage fields }

/-- `_observe_event`. -/
def observeEvent (loads : List UInt8 → Except LoadsError Json) (clock : Nat → τ)
    (o : TimedSSEObserver τ) (event : List UInt8) :
    Except (TimedSSEObserver τ) (TimedSSEObserver τ) :=
  match eventData loads event with
  | .ignored => .ok { o with events := o.events + 1 }
  | .malformed => .ok { o.disable with events := o.events + 1 }
  | .raised => .error { o with events := o.events + 1 }
  | .payload fields =>
    .ok { (o.observeFirstContent clock fields).observeUsage fields with events := o.events + 1 }

/-- The bytes and the flags of an observer do not depend on the clock. -/
theorem observeFirstContent_observer (clock : Nat → τ) (o : TimedSSEObserver τ)
    (fields : List (String × Json)) :
    (o.observeFirstContent clock fields).observer = o.observer.observeFirstContent fields := by
  unfold observeFirstContent SSEBytesObserver.observeFirstContent
  split
  · rfl
  · split <;> rfl

/-- The observer of bytes in what a method returns, or in what its exception finds. -/
def untimed : Except (TimedSSEObserver τ) (TimedSSEObserver τ) →
    Except SSEBytesObserver SSEBytesObserver
  | .ok o => .ok o.observer
  | .error o => .error o.observer

theorem untimed_observeEvent (loads : List UInt8 → Except LoadsError Json) (clock : Nat → τ)
    (o : TimedSSEObserver τ) (event : List UInt8) :
    untimed (o.observeEvent loads clock event) = o.observer.observeEvent loads event := by
  unfold observeEvent SSEBytesObserver.observeEvent
  cases eventData loads event with
  | ignored => rfl
  | malformed => rfl
  | raised => rfl
  | payload fields =>
    show Except.ok ((o.observeFirstContent clock fields).observer.observeUsage fields) = _
    rw [observeFirstContent_observer]

theorem observeEvent_buffer_length {loads : List UInt8 → Except LoadsError Json} {clock : Nat → τ}
    {o o' : TimedSSEObserver τ} {event : List UInt8} (h : o.observeEvent loads clock event = .ok o') :
    o'.observer.buffer.length ≤ o.observer.buffer.length := by
  have huntimed : o.observer.observeEvent loads event = .ok o'.observer := by
    rw [← untimed_observeEvent loads clock o event, h]
    rfl
  exact SSEBytesObserver.observeEvent_buffer_length huntimed

/-- `_drain_events`. -/
def drainEvents (loads : List UInt8 → Except LoadsError Json) (clock : Nat → τ)
    (o : TimedSSEObserver τ) : Except (TimedSSEObserver τ) (TimedSSEObserver τ) :=
  match _hsearch : search o.observer.buffer with
  | none => .ok o
  | some (event, rest) =>
    if o.observer.maxEventBytes < event.length then .ok (o.withBuffer rest).disable
    else
      match _hevent : (o.withBuffer rest).observeEvent loads clock event with
      | .error o' => .error o'
      | .ok o' => if o'.observer.disabled then .ok o' else drainEvents loads clock o'
termination_by o.observer.buffer.length
decreasing_by
  have hrest : rest.length < o.observer.buffer.length := search_length _hsearch
  have hle : o'.observer.buffer.length ≤ rest.length := observeEvent_buffer_length _hevent
  omega

/-- `observe_bytes`: the next bytes of the chunk are copied. -/
def copy (o : TimedSSEObserver τ) (chunk : List UInt8) : TimedSSEObserver τ :=
  { o with observer := o.observer.copy chunk }

/-- The loop of `observe_bytes`. -/
def observeLoop (loads : List UInt8 → Except LoadsError Json) (clock : Nat → τ)
    (o : TimedSSEObserver τ) (chunk : List UInt8) :
    Except (TimedSSEObserver τ) (TimedSSEObserver τ) :=
  if _hne : chunk = [] then .ok o
  else if _hfree : o.observer.maxEventBytes ≤ o.observer.buffer.length then .ok o.disable
  else
    match (o.copy chunk).drainEvents loads clock with
    | .error o' => .error o'
    | .ok o' =>
      if o'.observer.disabled then .ok o'
      else observeLoop loads clock o' (o.observer.uncopied chunk)
termination_by chunk.length
decreasing_by exact SSEBytesObserver.uncopied_length _hne _hfree

/-- `except Exception: self._disable()`. -/
def caught : Except (TimedSSEObserver τ) (TimedSSEObserver τ) → TimedSSEObserver τ
  | .ok o => o
  | .error o => o.disable

/-- `observe_bytes`. -/
def observeBytes (loads : List UInt8 → Except LoadsError Json) (clock : Nat → τ)
    (o : TimedSSEObserver τ) (chunk : List UInt8) : TimedSSEObserver τ :=
  if o.observer.disabled ∨ o.observer.finalized then o
  else caught (o.observeLoop loads clock chunk)

/-- `finalize`. -/
def finalize (o : TimedSSEObserver τ) : TimedSSEObserver τ :=
  { o with observer := o.observer.finalize }

end TimedSSEObserver

end Gateway
