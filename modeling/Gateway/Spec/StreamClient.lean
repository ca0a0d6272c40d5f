import Gateway.Model.StreamClient
import Mathlib.Data.List.TakeWhile

/-!
# The streaming client accepts the terminated protocol

What a body means is said of its bytes: they are cut into lines at line feeds and into
events at blank lines. The client's verdict depends on that alone, however the reader cuts
the body into slices.

## Key results

- `readFragments_line`, `readFragments_eof`: the line that the slices begin with
- `readLoop_consume`: the loop over slices does what `consume` does over events
- `consume_isSome`, `consume_eq`: what `consume` accepts, and what it has seen then
- `readStream_exact`: when the client reports success, and what it reports then
-/

namespace Gateway.StreamClient

open SSE (cr lf ascii)

/-! ## The body, cut into events -/

/-- The lines of a body, with their line feeds; `begun` is the line that was begun. -/
def linesFrom (begun : Bytes) : Bytes → List Bytes
  | [] => if begun = [] then [] else [begun]
  | b :: rest => if b = lf then (begun ++ [lf]) :: linesFrom [] rest else linesFrom (begun ++ [b]) rest

/-- The lines of a body. -/
def bodyLines (body : Bytes) : List Bytes := linesFrom [] body

/-- A blank line. -/
def IsBlank (line : Bytes) : Prop := (line.all fun b => b = cr || b = lf) = true

instance : DecidablePred IsBlank := fun line => inferInstanceAs (Decidable (line.all _ = true))

/-- An event, and the blank line that ends it. -/
structure StreamedEvent where
  raw : Bytes
  blank : Bytes
deriving DecidableEq

/-- The events that lines are cut into; `begun` is the event that was begun. -/
def eventsFrom (begun : Bytes) : List Bytes → List StreamedEvent
  | [] => []
  | line :: lines =>
    if IsBlank line then ⟨begun, line⟩ :: eventsFrom [] lines else eventsFrom (begun ++ line) lines

/-- The events of a body. -/
def bodyEvents (body : Bytes) : List StreamedEvent := eventsFrom [] (bodyLines body)

/-- Every event of the body is ended by a blank line. -/
def Terminated (body : Bytes) : Prop := ∀ line, (bodyLines body).getLast? = some line → IsBlank line

namespace StreamedEvent

variable (e : StreamedEvent) (decode : Bytes → Option StreamEvent)

/-- The bytes of the event with its blank line. -/
def size : Nat := e.raw.length + e.blank.length

/-- The event is `[DONE]`. -/
def IsDone : Prop := eventData e.raw ≠ [] ∧ payload (eventData e.raw) = ascii "[DONE]"

instance : Decidable e.IsDone := inferInstanceAs (Decidable (_ ∧ _))

/-- The decoder takes the payload of the event, if it has data. -/
def Accepted : Prop := eventData e.raw ≠ [] → (decode (payload (eventData e.raw))).isSome

instance : Decidable (e.Accepted decode) := inferInstanceAs (Decidable (_ → _))

/-- What the decoder makes of the event. -/
def decoded : Option StreamEvent :=
  if eventData e.raw = [] then none else decode (payload (eventData e.raw))

/-- A choice of the event has a string as content that is not empty. -/
def hasContent : Bool :=
  (e.decoded decode).any fun event => event.contents.any fun content => content.any (· ≠ [])

/-- The completion tokens that the event reports, if they are not negative. -/
def tokens : Option Int :=
  ((e.decoded decode).bind (·.completionTokens.join)).filter (0 ≤ ·)

end StreamedEvent

/-- The reader delivers a body: every slice but the last is a whole line or the rest of one, or
    has filled the buffer without a line feed. -/
inductive Delivers : List Slice → Bytes → Prop
  | eof {tail : Bytes} (counted : Int) (h : lf ∉ tail) : Delivers [⟨tail, some .eof, counted⟩] tail
  | full {fragment body : Bytes} {slices : List Slice} (counted : Int) (h : lf ∉ fragment)
      (rest : Delivers slices body) :
      Delivers (⟨fragment, some .bufferFull, counted⟩ :: slices) (fragment ++ body)
  | line {fragment body : Bytes} {slices : List Slice} (counted : Int) (h : lf ∉ fragment)
      (rest : Delivers slices body) :
      Delivers (⟨fragment ++ [lf], none, counted⟩ :: slices) (fragment ++ lf :: body)

/-! ## Reading a line -/

theorem linesFrom_line {text : Bytes} (h : lf ∉ text) (begun rest : Bytes) :
    linesFrom begun (text ++ lf :: rest) = (begun ++ text ++ [lf]) :: linesFrom [] rest := by
  induction text generalizing begun with
  | nil => simp [linesFrom]
  | cons b text ih =>
    have hb : b ≠ lf := fun heq => h (heq ▸ List.mem_cons_self ..)
    rw [List.cons_append, linesFrom, if_neg hb, ih fun hmem => h (List.mem_cons_of_mem _ hmem)]
    simp

theorem linesFrom_tail {text : Bytes} (h : lf ∉ text) (begun : Bytes) :
    linesFrom begun text = if begun ++ text = [] then [] else [begun ++ text] := by
  induction text generalizing begun with
  | nil => simp [linesFrom]
  | cons b text ih =>
    have hb : b ≠ lf := fun heq => h (heq ▸ List.mem_cons_self ..)
    rw [linesFrom, if_neg hb, ih fun hmem => h (List.mem_cons_of_mem _ hmem)]
    simp

/-- A body has a first line that ends with a line feed, or no line feed. -/
theorem split_line (body : Bytes) :
    lf ∉ body ∨ ∃ text rest, lf ∉ text ∧ body = text ++ lf :: rest := by
  induction body with
  | nil => exact .inl (by simp)
  | cons b body ih =>
    by_cases hb : b = lf
    · exact .inr ⟨[], body, by simp, by simp [hb]⟩
    · rcases ih with hnone | ⟨text, rest, htext, rfl⟩
      · exact .inl (by simp [hnone, Ne.symm hb])
      · exact .inr ⟨b :: text, rest, by simp [htext, Ne.symm hb], rfl⟩

/-- A body that begins with a fragment without a line feed, and has a line. -/
theorem split_append {fragment body text rest : Bytes} (hfragment : lf ∉ fragment)
    (htext : lf ∉ text) (h : fragment ++ body = text ++ lf :: rest) :
    ∃ text', text = fragment ++ text' ∧ body = text' ++ lf :: rest ∧ lf ∉ text' := by
  rcases List.append_eq_append_iff.mp h with ⟨text', htext', hbody⟩ | ⟨more, hmore, hrest⟩
  · exact ⟨text', htext', hbody, fun hmem => htext (htext' ▸ List.mem_append_right _ hmem)⟩
  · cases more with
    | nil =>
      refine ⟨[], by simpa using hmore.symm, by simpa using hrest.symm, by simp⟩
    | cons b more =>
      have hb : b = lf := (List.cons.inj hrest).1.symm
      exact absurd (by simp [hmore, hb]) hfragment

variable {remaining counted : Int} {slices : List Slice} {body : Bytes}

/-- The slices begin with a line: it is read if it fits. -/
theorem readFragments_line (h : Delivers slices body) {text rest : Bytes} (htext : lf ∉ text)
    (hbody : body = text ++ lf :: rest) (begun : Bytes) :
    if begun.length + text.length + 1 ≤ remaining then
      ∃ slices' counted', readFragments remaining begun counted slices =
        ⟨begun ++ text ++ [lf], none, slices', counted'⟩ ∧ Delivers slices' rest
    else (readFragments remaining begun counted slices).err = some .eventTooLarge := by
  induction h generalizing begun counted text with
  | eof counted' hnone =>
    exact absurd (hbody ▸ by simp) hnone
  | @full fragment body slices counted' hfragment hdelivers ih =>
    obtain ⟨text', rfl, hbody', htext'⟩ := split_append hfragment htext hbody
    have hrest := @ih counted' text' htext' hbody' (begun ++ fragment)
    rw [readFragments]
    by_cases hfits : begun.length + fragment.length > remaining
    · rw [if_pos hfits, if_neg (by simp only [List.length_append]; omega)]
    · rw [if_neg hfits]
      simp only [List.length_append, List.append_assoc] at hrest ⊢
      convert hrest using 1
      omega
  | @line fragment body slices counted' hfragment hdelivers ih =>
    obtain ⟨text', rfl, hbody', htext'⟩ := split_append hfragment htext hbody
    -- the line feed of the slice is the first one of the body
    cases text' with
    | cons b text' =>
      have hb : lf = b := (List.cons.inj hbody').1
      exact absurd (by simp [hb]) htext'
    | nil =>
      obtain rfl : body = rest := (List.cons.inj hbody').2
      rw [readFragments]
      simp only [List.append_nil, List.length_append, List.length_singleton]
      by_cases hfits : begun.length + fragment.length + 1 ≤ remaining
      · rw [if_pos hfits, if_neg (by omega)]
        exact ⟨slices, counted', by rw [List.append_assoc], hdelivers⟩
      · rw [if_neg hfits, if_pos (by omega)]

/-- The slices are the end of the body, without a line feed. -/
theorem readFragments_eof (h : Delivers slices body) (hnone : lf ∉ body) (begun : Bytes) :
    if begun.length + body.length ≤ remaining then
      ∃ slices' counted', readFragments remaining begun counted slices =
        ⟨begun ++ body, some .eof, slices', counted'⟩
    else (readFragments remaining begun counted slices).err = some .eventTooLarge := by
  induction h generalizing begun counted with
  | @eof tail counted' _ =>
    rw [readFragments]
    by_cases hfits : begun.length + tail.length ≤ remaining
    · rw [if_pos hfits, if_neg (by simpa using hfits)]
      exact ⟨[], counted', rfl⟩
    · rw [if_neg hfits, if_pos (by simpa using hfits)]
  | @full fragment body slices counted' _ hdelivers ih =>
    have hrest := @ih counted' (fun hmem => hnone (List.mem_append_right _ hmem)) (begun ++ fragment)
    rw [readFragments]
    by_cases hfits : begun.length + fragment.length > remaining
    · rw [if_pos hfits, if_neg (by simp only [List.length_append]; omega)]
    · rw [if_neg hfits]
      simp only [List.length_append, List.append_assoc] at hrest ⊢
      convert hrest using 1
      omega
  | line counted' _ _ _ => exact absurd (by simp) hnone

theorem readBoundedLine_line (h : Delivers slices body) {text rest : Bytes} (htext : lf ∉ text)
    (hbody : body = text ++ lf :: rest) :
    if (text ++ [lf]).length ≤ remaining then
      ∃ slices' counted', readBoundedLine remaining counted slices =
        ⟨text ++ [lf], none, slices', counted'⟩ ∧ Delivers slices' rest
    else (readBoundedLine remaining counted slices).err = some .eventTooLarge := by
  unfold readBoundedLine
  by_cases hpos : remaining ≤ 0
  · rw [if_pos hpos, if_neg (by simp only [List.length_append, List.length_singleton]; omega)]
  · have hread := @readFragments_line remaining counted _ _ h _ _ htext hbody []
    rw [if_neg hpos]
    simpa using hread

theorem readBoundedLine_eof (h : Delivers slices body) (hnone : lf ∉ body) :
    if 0 < remaining ∧ body.length ≤ remaining then
      ∃ slices' counted', readBoundedLine remaining counted slices =
        ⟨body, some .eof, slices', counted'⟩
    else (readBoundedLine remaining counted slices).err = some .eventTooLarge := by
  unfold readBoundedLine
  by_cases hpos : remaining ≤ 0
  · rw [if_pos hpos, if_neg (by omega)]
  · have hread := @readFragments_eof remaining counted _ _ h hnone []
    have hlt : 0 < remaining := by omega
    rw [if_neg hpos]
    simpa [hlt] using hread

/-! ## Events one after the other -/

/-- What has been seen of the events: whether there was content, and the last completion
    tokens. -/
def Result.seen (result : Result) : Bool × Option Int :=
  (result.ttft.isSome, result.completionTokens)

variable {limit : Int} {decode : Bytes → Option StreamEvent} {clock : StreamClock}

/-- What an event adds to it. -/
def observe (decode : Bytes → Option StreamEvent) (seen : Bool × Option Int) (e : StreamedEvent) :
    Bool × Option Int :=
  (seen.1 || e.hasContent decode, (e.tokens decode).or seen.2)

/-- The events up to `[DONE]`: what has been seen, or `none` if one is too large, is not
    accepted, or `[DONE]` does not come. -/
def consume (limit : Int) (decode : Bytes → Option StreamEvent)
    (seen : Bool × Option Int) : List StreamedEvent → Option (Bool × Option Int)
  | [] => none
  | e :: events =>
    if limit < e.size then none
    else if e.IsDone then some seen
    else if e.Accepted decode then consume limit decode (observe decode seen e) events
    else none

theorem parseEvent_done {e : StreamedEvent} (h : e.IsDone) (elapsed : Int) (result : Result) :
    parseEvent decode elapsed e.raw result = some (true, result) := by
  simp [parseEvent, h.1, h.2]

theorem parseEvent_rejected {e : StreamedEvent} (hdone : ¬e.IsDone) (h : ¬e.Accepted decode)
    (elapsed : Int) (result : Result) : parseEvent decode elapsed e.raw result = none := by
  unfold StreamedEvent.Accepted at h
  simp only [Classical.not_imp, Bool.not_eq_true, Option.isSome_eq_false_iff,
    Option.isNone_iff_eq_none] at h
  have hpayload : payload (eventData e.raw) ≠ ascii "[DONE]" := fun heq => hdone ⟨h.1, heq⟩
  simp [parseEvent, h.1, h.2, hpayload]

/-- The time of the first content, in a result. -/
def Result.timed (result : Result) (content : Bool) (elapsed : Int) : Result :=
  if result.ttft = none ∧ content then { result with ttft := some elapsed } else result

theorem Result.timed_fields (result : Result) (content : Bool) (elapsed : Int) :
    (result.timed content elapsed).success = result.success ∧
      (result.timed content elapsed).completionTokens = result.completionTokens ∧
      (result.timed content elapsed).ttft.isSome = (result.ttft.isSome || content) := by
  unfold Result.timed
  cases content <;> cases httft : result.ttft <;> simp [httft]

theorem parseEvent_accepted {e : StreamedEvent} (hdone : ¬e.IsDone) (h : e.Accepted decode)
    (elapsed : Int) (result : Result) :
    ∃ result', parseEvent decode elapsed e.raw result = some (false, result') ∧
      result'.success = result.success ∧ result'.seen = observe decode result.seen e := by
  by_cases hdata : eventData e.raw = []
  · refine ⟨result, by simp [parseEvent, hdata], rfl, ?_⟩
    simp [observe, Result.seen, StreamedEvent.hasContent, StreamedEvent.tokens,
      StreamedEvent.decoded, hdata]
  · have hpayload : payload (eventData e.raw) ≠ ascii "[DONE]" := fun heq => hdone ⟨hdata, heq⟩
    obtain ⟨event, hevent⟩ := Option.isSome_iff_exists.mp (h hdata)
    have hdecoded : e.decoded decode = some event := by simp [StreamedEvent.decoded, hdata, hevent]
    have hcontent : e.hasContent decode =
        event.contents.any fun content => content.any (· ≠ []) := by
      simp [StreamedEvent.hasContent, hdecoded]
    have htokens : e.tokens decode = event.completionTokens.join.filter (0 ≤ ·) := by
      simp [StreamedEvent.tokens, hdecoded]
    -- the first content sets the time; then the usage sets the tokens
    let timed := result.timed (e.hasContent decode) elapsed
    have htimed := result.timed_fields (e.hasContent decode) elapsed
    have hparse : parseEvent decode elapsed e.raw result =
        some (false, (event.completionTokens.join.filter (0 ≤ ·)).elim timed fun tokens =>
          { timed with completionTokens := some tokens }) := by
      simp only [timed, hcontent, Result.timed]
      rw [parseEvent, if_neg hdata, if_neg hpayload, hevent]
      dsimp only
      cases event.completionTokens.join with
      | none => rfl
      | some tokens =>
        by_cases hpos : 0 ≤ tokens
        · simp [Option.filter, hpos]
        · simp [Option.filter, hpos]
    refine ⟨_, hparse, ?_⟩
    rw [observe, Result.seen, htokens]
    cases event.completionTokens.join.filter (0 ≤ ·) with
    | none => simp [timed, htimed, Result.seen]
    | some tokens => simp [timed, htimed, Result.seen]

/-! ## The loop -/

theorem trimRight_eq_nil {line : Bytes} : trimRight line = [] ↔ IsBlank line := by
  unfold trimRight IsBlank
  rw [List.reverse_eq_nil_iff, List.dropWhile_eq_nil_iff]
  simp

theorem finish_success (result : Result) (elapsed : Int) (category code : String) :
    (finish result elapsed category code).success = result.success ∧
      (finish result elapsed category code).seen = result.seen := by
  unfold finish
  dsimp only
  split <;> exact ⟨rfl, rfl⟩

@[simp] theorem failStream_success (counted : Int) (result : Result) (category code : String) :
    (failStream clock counted result category code).success = result.success :=
  (finish_success _ _ _ _).1

theorem endStream_done (counted : Int) (result : Result) :
    (endStream clock true counted result).success = true ∧
      (endStream clock true counted result).seen = result.seen :=
  finish_success { result with responseBytes := counted, success := true } clock.atEnd "" ""

@[simp] theorem endStream_missing (counted : Int) (result : Result) :
    (endStream clock false counted result).success = result.success :=
  (finish_success _ _ _ _).1

/-- What has been read of an event counts against its limit. -/
theorem consume_large {begun : Bytes} (h : limit < begun.length) (seen : Bool × Option Int)
    (lines : List Bytes) : consume limit decode seen (eventsFrom begun lines) = none := by
  induction lines generalizing begun with
  | nil => rfl
  | cons line lines ih =>
    unfold eventsFrom
    split
    · have hsize : limit < (StreamedEvent.mk begun line).size := by
        simp only [StreamedEvent.size]
        omega
      rw [consume, if_pos hsize]
    · apply ih
      simp only [List.length_append]
      omega

theorem consume_large_line {event line : Bytes} (h : limit < event.length + line.length)
    (seen : Bool × Option Int) (lines : List Bytes) :
    consume limit decode seen (eventsFrom event (line :: lines)) = none := by
  unfold eventsFrom
  split
  · have hsize : limit < (StreamedEvent.mk event line).size := by
      simp only [StreamedEvent.size]
      omega
    rw [consume, if_pos hsize]
  · apply consume_large
    simp only [List.length_append]
    omega

/-- A result agrees with what has been consumed. -/
def Agrees (result : Result) : Option (Bool × Option Int) → Prop
  | some seen => result.success = true ∧ result.seen = seen
  | none => result.success = false

theorem Agrees.success {result : Result} {consumed : Option (Bool × Option Int)}
    (h : Agrees result consumed) : result.success = true ↔ consumed.isSome := by
  cases consumed with
  | none => simpa [Agrees] using h
  | some seen => simpa using h.1

theorem Agrees.seen {result : Result} {consumed : Option (Bool × Option Int)}
    (h : Agrees result consumed) (hsuccess : result.success = true) :
    ∃ seen, consumed = some seen ∧ result.seen = seen := by
  obtain ⟨seen, rfl⟩ := Option.isSome_iff_exists.mp (h.success.mp hsuccess)
  exact ⟨seen, rfl, h.2⟩

theorem readLoop_large {n : Nat} {event : Bytes} {result : Result}
    (hsuccess : result.success = false)
    (h : (readBoundedLine (limit - event.length) counted slices).err = some .eventTooLarge) :
    (readLoop limit decode clock n event result counted slices).success = false := by
  rw [readLoop]
  split <;> simp_all

theorem takeLine_text {line event : Bytes} (htext : ¬IsBlank line) (elapsed : Int)
    (result : Result) :
    takeLine decode elapsed line event result = .next (event ++ line) result := by
  have hne : line ≠ [] := by
    intro hnil
    exact htext (by simp [hnil, IsBlank])
  rw [takeLine, if_neg hne, if_neg (fun htrim => htext (trimRight_eq_nil.mp htrim))]

/-- A blank line does to the result what the event does. -/
theorem takeLine_event {line event : Bytes} (hblank : IsBlank line) (hne : line ≠ [])
    (hfits : event.length + line.length ≤ limit) (elapsed : Int) (result : Result) :
    (takeLine decode elapsed line event result = .completed result ∧
      ∀ events, consume limit decode result.seen (⟨event, line⟩ :: events) = some result.seen) ∨
    (takeLine decode elapsed line event result = .failed result ∧
      ∀ events, consume limit decode result.seen (⟨event, line⟩ :: events) = none) ∨
    ∃ result', takeLine decode elapsed line event result = .next [] result' ∧
      result'.success = result.success ∧
      ∀ events, consume limit decode result.seen (⟨event, line⟩ :: events) =
        consume limit decode result'.seen events := by
  have hsize : ¬limit < (StreamedEvent.mk event line).size := by
    simp only [StreamedEvent.size]
    omega
  have htrim := trimRight_eq_nil.mpr hblank
  by_cases hdone : (StreamedEvent.mk event line).IsDone
  · left
    have hparse : parseEvent decode elapsed event result = some (true, result) :=
      parseEvent_done hdone elapsed result
    refine ⟨?_, fun events => ?_⟩
    · rw [takeLine, if_neg hne, if_pos htrim, hparse]
    · rw [consume, if_neg hsize, if_pos hdone]
  right
  by_cases haccepted : (StreamedEvent.mk event line).Accepted decode
  · right
    obtain ⟨result', hparse, hsuccess, hseen⟩ := parseEvent_accepted hdone haccepted elapsed result
    refine ⟨result', ?_, hsuccess, fun events => ?_⟩
    · rw [takeLine, if_neg hne, if_pos htrim, show parseEvent decode elapsed event result = _ from hparse]
    · rw [consume, if_neg hsize, if_neg hdone, if_pos haccepted, hseen]
  · left
    have hparse : parseEvent decode elapsed event result = none :=
      parseEvent_rejected hdone haccepted elapsed result
    refine ⟨?_, fun events => ?_⟩
    · rw [takeLine, if_neg hne, if_pos htrim, hparse]
    · rw [consume, if_neg hsize, if_neg hdone, if_neg haccepted]

section

variable {n : Nat} {event line : Bytes} {result result' : Result} {err : Option LineError}
  {slices' : List Slice} {counted' : Int}

theorem readLoop_failed (h : readBoundedLine (limit - event.length) counted slices =
      ⟨line, err, slices', counted'⟩) (herr : err ≠ some .eventTooLarge)
    (htake : takeLine decode (clock.atLine n) line event result = .failed result') :
    readLoop limit decode clock n event result counted slices =
      failStream clock counted' result' "sse_protocol" "sse_parse_error" := by
  rw [readLoop]
  split <;> simp_all

theorem readLoop_completed (h : readBoundedLine (limit - event.length) counted slices =
      ⟨line, err, slices', counted'⟩) (herr : err ≠ some .eventTooLarge)
    (htake : takeLine decode (clock.atLine n) line event result = .completed result') :
    readLoop limit decode clock n event result counted slices =
      endStream clock true counted' result' := by
  rw [readLoop]
  split <;> simp_all

theorem readLoop_next {event' : Bytes} (h : readBoundedLine (limit - event.length) counted slices =
      ⟨line, none, slices', counted'⟩)
    (htake : takeLine decode (clock.atLine n) line event result = .next event' result') :
    readLoop limit decode clock n event result counted slices =
      readLoop limit decode clock (n + 1) event' result' counted' slices' := by
  conv => lhs; rw [readLoop]
  split <;> simp_all

theorem readLoop_end (h : readBoundedLine (limit - event.length) counted slices =
      ⟨line, some .eof, slices', counted'⟩)
    (htake : takeLine decode (clock.atLine n) line event result = .next [] result') :
    readLoop limit decode clock n event result counted slices =
      endStream clock false counted' result' := by
  rw [readLoop]
  split <;> simp_all

end

/-- The loop over the slices does what `consume` does over the events of the body. -/
theorem readLoop_consume (k : Nat) {body : Bytes} {slices : List Slice} (hk : body.length < k)
    (hdelivers : Delivers slices body) (hterm : Terminated body) {event : Bytes}
    (hbegun : body = [] → event = []) {result : Result} (hsuccess : result.success = false)
    (n : Nat) (counted : Int) :
    Agrees (readLoop limit decode clock n event result counted slices)
      (consume limit decode result.seen (eventsFrom event (bodyLines body))) := by
  induction k generalizing body slices event result n counted with
  | zero => omega
  | succ k ih =>
    rcases split_line body with hnolf | ⟨text, rest, htext, hbody⟩
    · -- the end of the body: nothing, or a blank line without a line feed
      have hlines : bodyLines body = if body = [] then [] else [body] := linesFrom_tail hnolf []
      have hread := @readBoundedLine_eof (limit - event.length) counted _ _ hdelivers hnolf
      by_cases hfits : 0 < limit - event.length ∧ (body.length : Int) ≤ limit - event.length
      · rw [if_pos hfits] at hread
        obtain ⟨slices', counted', hread⟩ := hread
        rw [hlines]
        by_cases hnil : body = []
        · have htake : takeLine decode (clock.atLine n) body event result = .next [] result := by
            rw [takeLine, if_pos hnil, hbegun hnil]
          rw [readLoop_end hread htake, if_pos hnil]
          exact (endStream_missing _ _).trans hsuccess
        · have hblank : IsBlank body := hterm body (by rw [hlines, if_neg hnil]; rfl)
          have hevents : eventsFrom event [body] = [⟨event, body⟩] := by
            simp [eventsFrom, hblank]
          rw [if_neg hnil, hevents]
          rcases takeLine_event hblank hnil (show event.length + body.length ≤ limit by omega)
              (clock.atLine n) result with
            ⟨htake, hconsume⟩ | ⟨htake, hconsume⟩ | ⟨result', htake, hsuccess', hconsume⟩
          · rw [readLoop_completed hread (by simp) htake, hconsume]
            exact endStream_done counted' result
          · rw [readLoop_failed hread (by simp) htake, hconsume]
            exact (failStream_success _ _ _ _).trans hsuccess
          · rw [readLoop_end hread htake, hconsume]
            exact (endStream_missing _ _).trans (hsuccess'.trans hsuccess)
      · rw [if_neg hfits] at hread
        have hnone : consume limit decode result.seen (eventsFrom event (bodyLines body)) = none := by
          rw [hlines]
          split
          · rfl
          · next hnil =>
            have hlength := List.length_pos_iff.mpr hnil
            exact consume_large_line (by omega) _ _
        rw [hnone]
        exact readLoop_large hsuccess hread
    · have hlines : bodyLines body = (text ++ [lf]) :: bodyLines rest := by
        rw [hbody]
        exact linesFrom_line htext [] rest
      have hread := @readBoundedLine_line (limit - event.length) counted _ _ hdelivers _ _ htext hbody
      have hshorter : rest.length < k := by
        simp only [hbody, List.length_append, List.length_cons] at hk
        omega
      -- the lines that are left end with a blank line too, if there are any
      have hterm' : Terminated rest := by
        intro line hline
        apply hterm
        rw [hlines, List.getLast?_cons, hline]
        rfl
      rw [hlines]
      by_cases hfits : ((text ++ [lf]).length : Int) ≤ limit - event.length
      · rw [if_pos hfits] at hread
        obtain ⟨slices', counted', hread, hdelivers'⟩ := hread
        by_cases hblank : IsBlank (text ++ [lf])
        · have hevents : eventsFrom event ((text ++ [lf]) :: bodyLines rest) =
              ⟨event, text ++ [lf]⟩ :: eventsFrom [] (bodyLines rest) := by
            rw [eventsFrom, if_pos hblank]
          rw [hevents]
          rcases takeLine_event hblank (by simp)
              (show event.length + (text ++ [lf]).length ≤ limit by omega) (clock.atLine n) result with
            ⟨htake, hconsume⟩ | ⟨htake, hconsume⟩ | ⟨result', htake, hsuccess', hconsume⟩
          · rw [readLoop_completed hread (by simp) htake, hconsume]
            exact endStream_done counted' result
          · rw [readLoop_failed hread (by simp) htake, hconsume]
            exact (failStream_success _ _ _ _).trans hsuccess
          · rw [readLoop_next hread htake, hconsume]
            exact ih hshorter hdelivers' hterm' (fun _ => rfl) (hsuccess'.trans hsuccess) _ _
        · have hevents : eventsFrom event ((text ++ [lf]) :: bodyLines rest) =
              eventsFrom (event ++ (text ++ [lf])) (bodyLines rest) := by
            rw [eventsFrom, if_neg hblank]
          have hmore : rest = [] → event ++ (text ++ [lf]) = [] := by
            intro hnil
            exact absurd (hterm (text ++ [lf]) (by rw [hlines, hnil]; rfl)) hblank
          rw [readLoop_next hread (takeLine_text hblank _ _), hevents]
          exact ih hshorter hdelivers' hterm' hmore hsuccess _ _
      · rw [if_neg hfits] at hread
        rw [consume_large_line (by omega)]
        exact readLoop_large hsuccess hread

/-! ## What is accepted -/

/-- The events are accepted if there is a `[DONE]` among them that comes in time. -/
theorem consume_isSome (seen : Bool × Option Int) (events : List StreamedEvent) :
    (consume limit decode seen events).isSome ↔
      ∃ before done after, events = before ++ done :: after ∧ done.IsDone ∧
        (∀ e ∈ before ++ [done], (e.size : Int) ≤ limit) ∧ ∀ e ∈ before, e.Accepted decode := by
  induction events generalizing seen with
  | nil => simp [consume]
  | cons e events ih =>
    constructor
    · intro h
      unfold consume at h
      split at h
      · cases h
      next hsize =>
      split at h
      · next hdone => exact ⟨[], e, events, rfl, hdone, by simp; omega, by simp⟩
      split at h
      · next haccepted =>
        obtain ⟨before, done, after, rfl, hdone, hsizes, hbefore⟩ := (ih _).mp h
        refine ⟨e :: before, done, after, rfl, hdone, ?_, ?_⟩
        · intro e' he'
          rcases List.mem_cons.mp he' with rfl | he'
          · omega
          · exact hsizes e' he'
        · intro e' he'
          rcases List.mem_cons.mp he' with rfl | he'
          · exact haccepted
          · exact hbefore e' he'
      · cases h
    · intro h
      obtain ⟨before, done, after, hevents, hdone, hsizes, hbefore⟩ := h
      cases before with
      | nil =>
        obtain ⟨rfl, rfl⟩ := List.cons.inj hevents
        have hsize := hsizes e (by simp)
        rw [consume, if_neg (by omega), if_pos hdone]
        rfl
      | cons e' before =>
        obtain ⟨rfl, rfl⟩ := List.cons.inj hevents
        have hsize := hsizes e (by simp)
        rw [consume, if_neg (by omega)]
        split
        · rfl
        · rw [if_pos (hbefore e (List.mem_cons_self ..))]
          exact (ih _).mpr ⟨before, done, after, rfl, hdone,
            fun e' he' => hsizes e' (List.mem_cons_of_mem _ he'),
            fun e' he' => hbefore e' (List.mem_cons_of_mem _ he')⟩

/-- What follows `[DONE]` is not looked at. -/
theorem consume_after {done : StreamedEvent} (hdone : done.IsDone) (seen : Bool × Option Int)
    (before after after' : List StreamedEvent) :
    consume limit decode seen (before ++ done :: after) =
      consume limit decode seen (before ++ done :: after') := by
  induction before generalizing seen with
  | nil => simp [consume, hdone]
  | cons e before ih => simp only [List.cons_append, consume, ih]

theorem consume_eq {before after : List StreamedEvent} {done : StreamedEvent}
    (hbefore : ∀ e ∈ before, ¬e.IsDone) (hdone : done.IsDone) {seen seen' : Bool × Option Int}
    (h : consume limit decode seen (before ++ done :: after) = some seen') :
    seen' = before.foldl (observe decode) seen := by
  induction before generalizing seen with
  | nil =>
    unfold consume at h
    simp only [List.nil_append, hdone, if_true] at h
    split at h
    · cases h
    · cases h
      rfl
  | cons e before ih =>
    rw [List.cons_append, consume, if_neg (hbefore e (List.mem_cons_self ..))] at h
    split at h
    · cases h
    split at h
    · exact ih (fun e' he' => hbefore e' (List.mem_cons_of_mem _ he')) h
    · cases h

theorem foldl_observe (events : List StreamedEvent) (seen : Bool × Option Int) :
    events.foldl (observe decode) seen =
      (seen.1 || events.any (·.hasContent decode),
        ((events.filterMap (·.tokens decode)).getLast?).or seen.2) := by
  induction events generalizing seen with
  | nil => simp
  | cons e events ih =>
    rw [List.foldl_cons, ih, observe, List.filterMap_cons]
    cases htokens : e.tokens decode with
    | none => simp [Bool.or_assoc]
    | some tokens =>
      rw [List.getLast?_cons]
      cases (events.filterMap (·.tokens decode)).getLast? <;> simp [Bool.or_assoc]

/-- The client reports success for a body whose events are all ended by blank lines just when
    there is a `[DONE]` that is not too large, after events that are not too large and that the
    decoder takes. It then reports a time to first token if one of the events before had
    content, and the last completion tokens of these events. What comes after `[DONE]` makes no
    difference, nor does it matter how the reader cuts the body into slices. -/
theorem readStream_exact (limit : Int) (decode : Bytes → Option StreamEvent) (clock : StreamClock)
    (sequence : Int) (requestId : String) (startOffset httpStatus : Int) {slices : List Slice}
    {body : Bytes} (hdelivers : Delivers slices body) (hterm : Terminated body) :
    let result := readStream limit decode clock
      (.begun sequence requestId startOffset httpStatus) slices
    (result.success = true ↔ ∃ before done after, bodyEvents body = before ++ done :: after ∧
      done.IsDone ∧ (∀ e ∈ before ++ [done], (e.size : Int) ≤ limit) ∧
      ∀ e ∈ before, e.Accepted decode) ∧
    (result.success = true → ∀ before done after, bodyEvents body = before ++ done :: after →
      done.IsDone → (∀ e ∈ before, ¬e.IsDone) →
      (result.ttft.isSome ↔ ∃ e ∈ before, e.hasContent decode) ∧
      result.completionTokens = (before.filterMap (·.tokens decode)).getLast?) ∧
    ∀ slices' body', Delivers slices' body' → Terminated body' →
      (∃ before done after after', bodyEvents body = before ++ done :: after ∧
        bodyEvents body' = before ++ done :: after' ∧ done.IsDone) →
      let result' := readStream limit decode clock
        (.begun sequence requestId startOffset httpStatus) slices'
      result'.success = result.success ∧
        (result.success = true → result'.ttft.isSome = result.ttft.isSome ∧
          result'.completionTokens = result.completionTokens) := by
  have hagrees : ∀ {slices : List Slice} {body : Bytes}, Delivers slices body → Terminated body →
      Agrees (readStream limit decode clock (.begun sequence requestId startOffset httpStatus) slices)
        (consume limit decode (false, none) (bodyEvents body)) := by
    intro slices body hdelivers hterm
    exact readLoop_consume (body.length + 1) (Nat.lt_succ_self _) hdelivers hterm
      (fun _ => rfl) rfl 0 0
  refine ⟨?_, ?_, ?_⟩
  · rw [(hagrees hdelivers hterm).success, consume_isSome]
  · intro hsuccess before done after hevents hdone hbefore
    obtain ⟨seen, hconsume, hseen⟩ := (hagrees hdelivers hterm).seen hsuccess
    rw [hevents] at hconsume
    have hfold := consume_eq hbefore hdone hconsume
    rw [foldl_observe] at hfold
    have hfields := hseen.trans hfold
    simp only [Result.seen, Bool.false_or, Option.or_none, Prod.mk.injEq] at hfields
    rw [hfields.1, hfields.2, List.any_eq_true]
    exact ⟨Iff.rfl, rfl⟩
  · intro slices' body' hdelivers' hterm' hsame
    obtain ⟨before, done, after, after', hevents, hevents', hdone⟩ := hsame
    have hconsume : consume limit decode (false, none) (bodyEvents body') =
        consume limit decode (false, none) (bodyEvents body) := by
      rw [hevents, hevents']
      exact consume_after hdone _ before after' after
    have h := hagrees hdelivers hterm
    have h' := hagrees hdelivers' hterm'
    rw [hconsume] at h'
    refine ⟨Bool.eq_iff_iff.mpr (h'.success.trans h.success.symm), ?_⟩
    intro hsuccess
    obtain ⟨seen, hseen, hresult⟩ := h.seen hsuccess
    obtain ⟨seen', hseen', hresult'⟩ := h'.seen (h'.success.mpr (h.success.mp hsuccess))
    obtain rfl : seen = seen' := Option.some.inj (hseen.symm.trans hseen')
    have hfields := hresult'.trans hresult.symm
    simpa [Result.seen] using hfields

/-! ### A stream of one event -/

/-- A decoder that takes one payload. -/
def helloDecode (bytes : Bytes) : Option StreamEvent :=
  if bytes = ascii "[1]" then some ⟨[some (ascii "hello")], some (some 4)⟩ else none

/-- The slices of a stream with one event and `[DONE]`. -/
def helloSlices : List Slice :=
  [⟨ascii "data: [1]" ++ [lf], none, 16⟩, ⟨[] ++ [lf], none, 16⟩,
    ⟨ascii "data: ", some .bufferFull, 30⟩, ⟨ascii "[DONE]" ++ [lf], none, 30⟩,
    ⟨[] ++ [lf], none, 30⟩, ⟨[], some .eof, 30⟩]

/-- What they deliver. -/
def helloBody : Bytes :=
  ascii "data: [1]" ++ lf :: ([] ++ lf :: (ascii "data: " ++ (ascii "[DONE]" ++ lf :: ([] ++ lf :: []))))

theorem readStream_exact_hello :
    (readStream 64 helloDecode ⟨fun n => n, 9⟩ (.begun 0 "r" 0 200) helloSlices).success = true ∧
      (readStream 64 helloDecode ⟨fun n => n, 9⟩ (.begun 0 "r" 0 200) helloSlices).ttft.isSome ∧
      (readStream 64 helloDecode ⟨fun n => n, 9⟩ (.begun 0 "r" 0 200) helloSlices).completionTokens =
        some 4 := by
  have hdelivers : Delivers helloSlices helloBody :=
    .line 16 (by decide +kernel) (.line 16 (by decide) (.full 30 (by decide +kernel)
      (.line 30 (by decide +kernel) (.line 30 (by decide) (.eof 30 (by decide))))))
  have hterm : Terminated helloBody := by
    intro line hline
    have hlast : (bodyLines helloBody).getLast? = some [lf] := by decide +kernel
    obtain rfl : line = [lf] := Option.some.inj (hline.symm.trans hlast)
    rfl
  let hello : StreamedEvent := ⟨ascii "data: [1]" ++ [lf], [lf]⟩
  let done : StreamedEvent := ⟨ascii "data: [DONE]" ++ [lf], [lf]⟩
  have hevents : bodyEvents helloBody = [hello] ++ done :: [] := by decide +kernel
  have hdone : done.IsDone := by decide +kernel
  have hnot : ¬hello.IsDone := by decide +kernel
  have haccepted : hello.Accepted helloDecode := by decide +kernel
  have hcontent : hello.hasContent helloDecode = true := by decide +kernel
  have htokens : [hello].filterMap (·.tokens helloDecode) = [4] := by decide +kernel
  obtain ⟨hiff, hreport, -⟩ :=
    readStream_exact 64 helloDecode ⟨fun n => n, 9⟩ 0 "r" 0 200 hdelivers hterm
  have hsuccess := hiff.mpr ⟨[hello], done, [], hevents, hdone, by decide +kernel,
    by simpa using haccepted⟩
  obtain ⟨httft, hcompletion⟩ := hreport hsuccess [hello] done [] hevents hdone (by simpa using hnot)
  refine ⟨hsuccess, httft.mpr ⟨hello, by simp, hcontent⟩, ?_⟩
  rw [hcompletion, htokens]
  rfl

end Gateway.StreamClient
