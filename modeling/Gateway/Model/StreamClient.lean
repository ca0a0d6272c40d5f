import Gateway.Model.SSEBytes

/-!
# The streaming client of the benchmark

`readStream`, `readBoundedLine` and `parseEvent` of `benchmark/internal/client/client.go`.
What the buffered reader returns from each call of `ReadSlice` is a list of slices, and
`json.Unmarshal` into the event structure is the parameter `decode`. Times are in nanoseconds
since the start of the request; the source divides them by a million.
-/

namespace Gateway.StreamClient

open SSE (cr lf ascii)

/-- Bytes. -/
abbrev Bytes := List UInt8

/-! ## Results -/

/-- `Result`. -/
structure Result where
  sequence : Int
  requestId : String
  startOffset : Int
  endToEnd : Int
  ttft : Option Int
  httpStatus : Int
  success : Bool
  errorCategory : String
  errorCode : String
  responseBytes : Int
  completionTokens : Option Int
deriving DecidableEq, Repr

/-- The result as `Do` has it when it calls `readStream`. -/
def Result.begun (sequence : Int) (requestId : String) (startOffset httpStatus : Int) : Result where
  sequence := sequence
  requestId := requestId
  startOffset := startOffset
  endToEnd := 0
  ttft := none
  httpStatus := httpStatus
  success := false
  errorCategory := ""
  errorCode := ""
  responseBytes := 0
  completionTokens := none

/-- `finish` -/
def finish (result : Result) (elapsed : Int) (category code : String) : Result :=
  let result := { result with endToEnd := elapsed }
  if !result.success && category ≠ "" then
    { result with
      errorCategory := category
      errorCode := if result.errorCode = "" then code else result.errorCode }
  else result

/-! ## Lines -/

/-- The error of a call of `ReadSlice`. -/
inductive SliceError
  /-- `bufio.ErrBufferFull` -/
  | bufferFull
  /-- `io.EOF` -/
  | eof
  /-- another error of the response body -/
  | failed
deriving DecidableEq, Repr

/-- What a call of `ReadSlice('\n')` returns, and `counted.count` after it. -/
structure Slice where
  fragment : Bytes
  err : Option SliceError
  counted : Int

/-- The error of `readBoundedLine`. -/
inductive LineError
  /-- `errSSEEventTooLarge` -/
  | eventTooLarge
  /-- `io.EOF` -/
  | eof
  /-- another error of the response body -/
  | failed
deriving DecidableEq, Repr

/-- What `readBoundedLine` returns, with the slices that are still to come and `counted.count`. -/
structure BoundedLine where
  line : Bytes
  err : Option LineError
  rest : List Slice
  counted : Int

/-- The loop of `readBoundedLine`. -/
def readFragments (remaining : Int) (line : Bytes) (counted : Int) : List Slice → BoundedLine
  | [] => ⟨line, some .eof, [], counted⟩
  | slice :: rest =>
    if line.length + slice.fragment.length > remaining then
      ⟨[], some .eventTooLarge, rest, slice.counted⟩
    else
      match slice.err with
      | none => ⟨line ++ slice.fragment, none, rest, slice.counted⟩
      | some .bufferFull => readFragments remaining (line ++ slice.fragment) slice.counted rest
      | some .eof => ⟨line ++ slice.fragment, some .eof, rest, slice.counted⟩
      | some .failed => ⟨line ++ slice.fragment, some .failed, rest, slice.counted⟩

/-- `readBoundedLine` -/
def readBoundedLine (remaining : Int) (counted : Int) (slices : List Slice) : BoundedLine :=
  if remaining ≤ 0 then ⟨[], some .eventTooLarge, slices, counted⟩
  else readFragments remaining [] counted slices

theorem readFragments_rest {remaining : Int} {line : Bytes} {counted : Int} {slices : List Slice}
    (h : (readFragments remaining line counted slices).err = none) :
    (readFragments remaining line counted slices).rest.length < slices.length := by
  induction slices generalizing line counted with
  | nil => cases h
  | cons slice rest ih =>
    unfold readFragments at h ⊢
    split at h
    · cases h
    · next hfits =>
      rw [if_neg hfits]
      cases herr : slice.err with
      | none => simp
      | some e =>
        rw [herr] at h
        cases e with
        | bufferFull => exact Nat.lt_succ_of_lt (ih h)
        | eof => cases h
        | failed => cases h

theorem readBoundedLine_rest {remaining : Int} {counted : Int} {slices : List Slice}
    (h : (readBoundedLine remaining counted slices).err = none) :
    (readBoundedLine remaining counted slices).rest.length < slices.length := by
  unfold readBoundedLine at h ⊢
  split at h
  · cases h
  · next hpos =>
    rw [if_neg hpos]
    exact readFragments_rest h

/-! ## Events -/

/-- `strings.ReplaceAll(raw, "\r\n", "\n")` -/
def replaceCrlf : Bytes → Bytes
  | 13 :: 10 :: rest => lf :: replaceCrlf rest
  | b :: rest => b :: replaceCrlf rest
  | [] => []

/-- `strings.TrimSuffix(line, "\r")` -/
def trimCr (line : Bytes) : Bytes := if line.getLast? = some cr then line.dropLast else line

/-- The data of a line of an event. -/
def lineData (line : Bytes) : Option Bytes :=
  let line := trimCr line
  if line = [] ∨ ascii ":" <+: line then none
  else if ascii "data:" <+: line then
    let value := line.drop 5
    some (if ascii " " <+: value then value.drop 1 else value)
  else none

/-- The data of an event, line by line. -/
def eventData (raw : Bytes) : List Bytes := ((replaceCrlf raw).splitOn lf).filterMap lineData

/-- `strings.Join(data, "\n")` -/
def payload (data : List Bytes) : Bytes := List.intercalate [lf] data

/-- What `parseEvent` takes from a decoded event: the `content` of each choice that has a string
    there, and the `completion_tokens` of the usage, if there is one. -/
structure StreamEvent where
  contents : List (Option Bytes)
  completionTokens : Option (Option Int)

/-- `parseEvent`: whether it was the last event, and the result; `none` is an error of the JSON
    decoder. -/
def parseEvent (decode : Bytes → Option StreamEvent) (elapsed : Int) (raw : Bytes)
    (result : Result) : Option (Bool × Result) :=
  let data := eventData raw
  if data = [] then some (false, result)
  else if payload data = ascii "[DONE]" then some (true, result)
  else
    match decode (payload data) with
    | none => none
    | some event =>
      let result :=
        if result.ttft = none ∧ event.contents.any fun content => content.any (· ≠ []) then
          { result with ttft := some elapsed }
        else result
      match event.completionTokens.join with
      | some tokens =>
        if tokens ≥ 0 then some (false, { result with completionTokens := some tokens })
        else some (false, result)
      | none => some (false, result)

/-! ## The stream -/

/-- `strings.TrimRight(line, "\r\n")` -/
def trimRight (line : Bytes) : Bytes :=
  (line.reverse.dropWhile fun b => b = cr || b = lf).reverse

/-- What a line does to the loop of `readStream`. -/
inductive LineStep
  | failed (result : Result)
  | completed (result : Result)
  | next (event : Bytes) (result : Result)

/-- The body of the loop for a line: a blank one ends the event. -/
def takeLine (decode : Bytes → Option StreamEvent) (elapsed : Int) (line event : Bytes)
    (result : Result) : LineStep :=
  if line = [] then .next event result
  else if trimRight line = [] then
    match parseEvent decode elapsed event result with
    | none => .failed result
    | some (true, result) => .completed result
    | some (false, result) => .next [] result
  else .next (event ++ line) result

/-- The clock of a stream: what it shows after so many lines, and at the end. -/
structure StreamClock where
  atLine : Nat → Int
  atEnd : Int

section

variable (limit : Int) (decode : Bytes → Option StreamEvent) (clock : StreamClock)

/-- The end of `readStream`, after the loop. -/
def endStream (done : Bool) (counted : Int) (result : Result) : Result :=
  let result := { result with responseBytes := counted }
  if done then finish { result with success := true } clock.atEnd "" ""
  else finish result clock.atEnd "sse_protocol" "sse_missing_done"

/-- A return from the loop of `readStream`. -/
def failStream (counted : Int) (result : Result) (category code : String) : Result :=
  finish { result with responseBytes := counted } clock.atEnd category code

/-- The loop of `readStream`, after `n` lines. -/
def readLoop (n : Nat) (event : Bytes) (result : Result) (counted : Int) (slices : List Slice) :
    Result :=
  let read := readBoundedLine (limit - event.length) counted slices
  match _herr : read.err with
  | some .eventTooLarge =>
    failStream clock read.counted result "sse_protocol" "sse_event_too_large"
  | none =>
    match takeLine decode (clock.atLine n) read.line event result with
    | .failed result => failStream clock read.counted result "sse_protocol" "sse_parse_error"
    | .completed result => endStream clock true read.counted result
    | .next event result => readLoop (n + 1) event result read.counted read.rest
  | some .eof =>
    match takeLine decode (clock.atLine n) read.line event result with
    | .failed result => failStream clock read.counted result "sse_protocol" "sse_parse_error"
    | .completed result => endStream clock true read.counted result
    | .next event result =>
      if event = [] then endStream clock false read.counted result
      else
        match parseEvent decode (clock.atLine n) event result with
        | none => failStream clock read.counted result "sse_protocol" "sse_parse_error"
        | some (done, result) => endStream clock done read.counted result
  | some .failed =>
    match takeLine decode (clock.atLine n) read.line event result with
    | .failed result => failStream clock read.counted result "sse_protocol" "sse_parse_error"
    | .completed result => endStream clock true read.counted result
    | .next _ result => failStream clock read.counted result "transport" "stream_read_error"
termination_by slices.length
decreasing_by exact readBoundedLine_rest _herr

/-- `readStream`, with `MaxSSEEventBytes` as `limit`. -/
def readStream (result : Result) (slices : List Slice) : Result :=
  readLoop limit decode clock 0 [] result 0 slices

end

end Gateway.StreamClient
