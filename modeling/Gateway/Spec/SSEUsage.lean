import Mathlib.Algebra.BigOperators.Group.List.Basic
import Gateway.Spec.SSEChunking
import Gateway.Model.SSEObserver

/-!
# The usage of a stream

A stream as the observer sees it: frames, each an event and the boundary that ends it.
An event whose frame fits in the buffer is observed as a whole, a longer one disables the
observer. `_observe_usage` keeps the first `usage` member it meets, so a `null` before the
final usage counts as the usage of the stream.

Key results:
- `foldl_frame`: the bytes of a frame that fits are its event, observed
- `accounted_iff`: when the final usage is the one that is counted
- `toObserver_observeBytes`: the observer of bytes refines the observer of events
-/

namespace Gateway

namespace SSE

/-- An event with the boundary that ends it. -/
structure EventFrame where
  event : List UInt8
  terminator : List UInt8
  framed : search (event ++ terminator) = some (event, [])

namespace EventFrame

/-- The bytes of a frame. -/
def bytes (f : EventFrame) : List UInt8 := f.event ++ f.terminator

/-- No part of a frame has a boundary. -/
theorem search_take (f : EventFrame) {n : Nat} (hlt : n < f.bytes.length) :
    search (f.bytes.take n) = none := by
  by_contra hne
  obtain ⟨⟨event, rest⟩, hsome⟩ := Option.ne_none_iff_exists'.mp hne
  have hall : search f.bytes = some (event, rest ++ f.bytes.drop n) := by
    simpa only [List.take_append_drop] using search_append hsome (f.bytes.drop n)
  rw [bytes, f.framed] at hall
  have hdrop : [] = rest ++ f.bytes.drop n := congrArg (Prod.snd ∘ Option.get!) hall
  have hlen : (f.bytes.drop n).length = 0 := by
    rw [(List.append_eq_nil_iff.mp hdrop.symm).2]
    rfl
  rw [List.length_drop] at hlen
  omega

end EventFrame

/-- The bytes of a stream of frames. -/
def frameBytes (frames : List EventFrame) : List UInt8 := frames.flatMap EventFrame.bytes

/-- The `usage` member of an event. -/
def usageOf (loads : List UInt8 → Except LoadsError Json) (event : List UInt8) : Option Json :=
  match eventData loads event with
  | .payload fields => Json.getField fields "usage"
  | _ => none

/-- An event that is ignored or has an object as its data. -/
def WellFormed (loads : List UInt8 → Except LoadsError Json) (event : List UInt8) : Prop :=
  eventData loads event ≠ .malformed ∧ eventData loads event ≠ .raised

end SSE

namespace SSEBytesObserver

open SSE

variable {loads : List UInt8 → Except LoadsError Json}

/-! ### One frame -/

/-- An observer between two frames that has not found a usage. -/
structure Ready (o : SSEBytesObserver) : Prop where
  on : o.disabled = false
  opened : o.finalized = false
  empty : o.buffer = []
  unseen : o.usageResult = none
  tokenless : o.completionTokens = none
  uncounted : ∀ call ∈ o.calls, call = .observeTtft

/-- A frame that fits in the buffer is observed. -/
theorem foldl_frame {o : SSEBytesObserver} (hready : o.Ready) (f : EventFrame)
    (hfits : f.bytes.length ≤ o.maxEventBytes) :
    f.bytes.foldl (step loads) o = o.observe loads f.event := by
  have hevent : ¬ (o.push f.bytes).maxEventBytes < f.event.length := by
    rw [EventFrame.bytes, List.length_append] at hfits
    show ¬ o.maxEventBytes < f.event.length
    omega
  have hsearch : search (o.push f.bytes).buffer = some (f.event, []) := by
    show search (o.buffer ++ f.bytes) = _
    rw [hready.empty, List.nil_append]
    exact f.framed
  have hrest : { o.push f.bytes with buffer := [] } = o := by
    rw [← hready.empty]
    rfl
  have hone : (o.push f.bytes).drainEvent loads f.event [] = o.observe loads f.event := by
    rw [drainEvent, if_neg hevent, hrest]
  have hdrained : o.Drained := fun _ => by
    rw [hready.empty]
    rfl
  rw [← drain_push_eq_foldl hready.on hready.opened hdrained f.bytes
    (by rw [hready.empty]; simpa using hfits), drain_of_some hsearch, hone]
  split
  · rfl
  · apply drain_of_none
    have hle : (o.observe loads f.event).buffer.length ≤ o.buffer.length :=
      observe_buffer_length o f.event
    rw [hready.empty, List.length_nil] at hle
    rw [List.eq_nil_of_length_eq_zero (Nat.le_zero.mp hle)]
    rfl

/-- A frame that does not fit disables the observer. -/
theorem foldl_long_frame {o : SSEBytesObserver} (hready : o.Ready) (f : EventFrame)
    (hlong : o.maxEventBytes < f.bytes.length) :
    f.bytes.foldl (step loads) o = o.disable := by
  have hfits : o.buffer.length + (f.bytes.take o.maxEventBytes).length ≤ o.maxEventBytes := by
    rw [hready.empty, List.length_take, List.length_nil]
    omega
  have hdrained : o.Drained := fun _ => by
    rw [hready.empty]
    rfl
  have hnone : search (o.push (f.bytes.take o.maxEventBytes)).buffer = none := by
    show search (o.buffer ++ f.bytes.take o.maxEventBytes) = none
    rw [hready.empty, List.nil_append]
    exact f.search_take hlong
  -- the buffer is full before the boundary ends, so the next byte finds no room
  have hfull : (f.bytes.take o.maxEventBytes).foldl (step loads) o =
      o.push (f.bytes.take o.maxEventBytes) := by
    rw [← drain_push_eq_foldl hready.on hready.opened hdrained _ hfits]
    exact drain_of_none hnone
  have hlen : (o.push (f.bytes.take o.maxEventBytes)).buffer.length = o.maxEventBytes := by
    show (o.buffer ++ f.bytes.take o.maxEventBytes).length = o.maxEventBytes
    rw [hready.empty, List.nil_append, List.length_take]
    omega
  have hstep : ∀ b, step loads (o.push (f.bytes.take o.maxEventBytes)) b = o.disable := by
    intro b
    have hon : ¬ ((o.push (f.bytes.take o.maxEventBytes)).disabled = true ∨
        (o.push (f.bytes.take o.maxEventBytes)).finalized = true) := by
      simp [push, hready.on, hready.opened]
    have hnoRoom : (o.push (f.bytes.take o.maxEventBytes)).maxEventBytes ≤
        (o.push (f.bytes.take o.maxEventBytes)).buffer.length := Nat.le_of_eq hlen.symm
    rw [step, if_neg hon, if_pos hnoRoom, push_disable hready.on]
  rw [← List.take_append_drop o.maxEventBytes f.bytes, List.foldl_append, hfull]
  obtain ⟨b, bytes, hdrop⟩ : ∃ b bytes, f.bytes.drop o.maxEventBytes = b :: bytes := by
    apply List.exists_cons_of_ne_nil
    rw [Ne, List.drop_eq_nil_iff]
    omega
  rw [hdrop, List.foldl_cons, hstep, foldl_step_of_disabled (disable_disabled o)]

/-! ### The verdict on the usage -/

/-- The first usage was found. -/
structure Settled (o : SSEBytesObserver) (result : AccountingResult) (tokens : Option Int) :
    Prop where
  verdict : o.usageResult = some result
  tokens : o.completionTokens = tokens
  opened : o.finalized = false
  uncounted : ∀ call ∈ o.calls, call = .observeTtft

/-- The observer went off before it found a usage. -/
structure Blind (o : SSEBytesObserver) : Prop where
  off : o.disabled = true
  unseen : o.usageResult = none
  opened : o.finalized = false
  uncounted : ∀ call ∈ o.calls, call = .observeTtft

/-- A property that the parts of `observe_bytes` keep. -/
structure Kept (P : SSEBytesObserver → Prop) : Prop where
  buffer : ∀ o bytes, P o → P { o with buffer := bytes }
  disable : ∀ o, P o → P o.disable
  content : ∀ o fields, P o → P (o.observeFirstContent fields)
  usage : ∀ o fields, P o → P (o.observeUsage fields)

variable {P : SSEBytesObserver → Prop}

theorem Kept.observe (hkept : Kept P) {o : SSEBytesObserver} (h : P o) (event : List UInt8) :
    P (o.observe loads event) := by
  unfold SSEBytesObserver.observe observeEvent
  cases eventData loads event with
  | ignored => exact h
  | malformed => exact hkept.disable o h
  | raised => exact hkept.disable o h
  | payload fields => exact hkept.usage _ fields (hkept.content o fields h)

theorem Kept.drain (hkept : Kept P) {o : SSEBytesObserver} (h : P o) : P (o.drain loads) := by
  cases hsearch : search o.buffer with
  | none =>
    rw [drain_of_none hsearch]
    exact h
  | some found =>
    obtain ⟨event, rest⟩ := found
    have hlt : rest.length < o.buffer.length := search_length hsearch
    have hle : (o.drainEvent loads event rest).buffer.length ≤ rest.length :=
      drainEvent_buffer_length o event rest
    have hevent : P (o.drainEvent loads event rest) := by
      unfold drainEvent
      split
      · exact hkept.disable _ (hkept.buffer o rest h)
      · exact hkept.observe (hkept.buffer o rest h) event
    rw [drain_of_some hsearch]
    split
    · exact hevent
    · exact Kept.drain hkept hevent
termination_by o.buffer.length

theorem Kept.foldl_step (hkept : Kept P) {o : SSEBytesObserver} (h : P o) (bytes : List UInt8) :
    P (bytes.foldl (SSEBytesObserver.step loads) o) := by
  induction bytes generalizing o with
  | nil => exact h
  | cons b bytes ih =>
    apply ih
    unfold SSEBytesObserver.step
    split
    · exact h
    split
    · exact hkept.disable o h
    · exact hkept.drain (hkept.buffer o _ h)

theorem observeFirstContent_calls {o : SSEBytesObserver} (h : ∀ call ∈ o.calls, call = .observeTtft)
    (fields : List (String × Json)) :
    ∀ call ∈ (o.observeFirstContent fields).calls, call = .observeTtft := by
  unfold observeFirstContent
  split
  · exact h
  split
  · intro call hmem
    rcases List.mem_append.mp hmem with hmem | hmem
    · exact h call hmem
    · exact List.mem_singleton.mp hmem
  · exact h

@[simp] theorem observeFirstContent_usageResult (o : SSEBytesObserver)
    (fields : List (String × Json)) :
    (o.observeFirstContent fields).usageResult = o.usageResult := by
  unfold observeFirstContent
  split <;> [rfl; split <;> rfl]

@[simp] theorem observeFirstContent_completionTokens (o : SSEBytesObserver)
    (fields : List (String × Json)) :
    (o.observeFirstContent fields).completionTokens = o.completionTokens := by
  unfold observeFirstContent
  split <;> [rfl; split <;> rfl]

@[simp] theorem observeFirstContent_finalized (o : SSEBytesObserver)
    (fields : List (String × Json)) :
    (o.observeFirstContent fields).finalized = o.finalized := by
  unfold observeFirstContent
  split <;> [rfl; split <;> rfl]

/-- Once there is a verdict, `_observe_usage` changes nothing. -/
theorem observeUsage_of_isSome {o : SSEBytesObserver} (h : o.usageResult.isSome)
    (fields : List (String × Json)) : o.observeUsage fields = o := by
  obtain ⟨result, hresult⟩ := Option.isSome_iff_exists.mp h
  simp [observeUsage, hresult]

theorem settled_kept (result : AccountingResult) (tokens : Option Int) :
    Kept (Settled · result tokens) where
  buffer _ _ h := ⟨h.verdict, h.tokens, h.opened, h.uncounted⟩
  disable o h := by
    unfold SSEBytesObserver.disable
    split
    · exact h
    · exact ⟨h.verdict, h.tokens, h.opened, h.uncounted⟩
  content o fields h :=
    ⟨by simpa using h.verdict, by simpa using h.tokens, by simpa using h.opened,
      observeFirstContent_calls h.uncounted fields⟩
  usage o fields h := by
    rw [observeUsage_of_isSome (by rw [h.verdict]; rfl)]
    exact h

theorem Blind.foldl_step {o : SSEBytesObserver} (h : o.Blind) (bytes : List UInt8) :
    (bytes.foldl (SSEBytesObserver.step loads) o).Blind := by
  rw [foldl_step_of_disabled h.off]
  exact h

/-! ### What a frame decides -/

/-- A frame without a `usage` member decides nothing. -/
theorem Ready.foldl_frame {o : SSEBytesObserver} (hready : o.Ready) {f : EventFrame}
    (hfits : f.bytes.length ≤ o.maxEventBytes) (hwell : WellFormed loads f.event)
    (hnone : usageOf loads f.event = none) :
    (f.bytes.foldl (SSEBytesObserver.step loads) o).Ready := by
  rw [SSEBytesObserver.foldl_frame hready f hfits]
  unfold SSEBytesObserver.observe observeEvent
  rw [usageOf] at hnone
  cases hdata : eventData loads f.event with
  | ignored => exact hready
  | malformed => exact absurd hdata hwell.1
  | raised => exact absurd hdata hwell.2
  | payload fields =>
    rw [hdata] at hnone
    have hsame : (o.observeFirstContent fields).observeUsage fields =
        o.observeFirstContent fields := by
      simp [observeUsage, hready.unseen, hnone]
    show ((o.observeFirstContent fields).observeUsage fields).Ready
    rw [hsame]
    exact ⟨by simpa using hready.on, by simpa using hready.opened, by simpa using hready.empty,
      by simpa using hready.unseen, by simpa using hready.tokenless,
      observeFirstContent_calls hready.uncounted fields⟩

/-- A frame with a `usage` member settles the verdict. -/
theorem Ready.settle {o : SSEBytesObserver} (hready : o.Ready) {f : EventFrame}
    (hfits : f.bytes.length ≤ o.maxEventBytes) {usage : Json}
    (hsome : usageOf loads f.event = some usage) :
    (f.bytes.foldl (SSEBytesObserver.step loads) o).Settled
      (if (SSE.completionTokens usage).isSome then .observed else .invalid)
      (SSE.completionTokens usage) := by
  rw [SSEBytesObserver.foldl_frame hready f hfits]
  unfold SSEBytesObserver.observe observeEvent
  rw [usageOf] at hsome
  split at hsome
  · next fields hdata =>
    rw [hdata]
    show ((o.observeFirstContent fields).observeUsage fields).Settled _ _
    cases htokens : SSE.completionTokens usage with
    | some tokens =>
      constructor
      · simp [observeUsage, hready.unseen, hsome, htokens]
      · simp [observeUsage, hready.unseen, hsome, htokens]
      · simp [observeUsage, hready.unseen, hsome, htokens, hready.opened]
      · simpa [observeUsage, hready.unseen, hsome, htokens] using
          observeFirstContent_calls hready.uncounted fields
    | none =>
      constructor
      · simp [observeUsage, hready.unseen, hsome, htokens]
      · simp [observeUsage, hready.unseen, hsome, htokens, hready.tokenless]
      · simp [observeUsage, hready.unseen, hsome, htokens, hready.opened]
      · simpa [observeUsage, hready.unseen, hsome, htokens] using
          observeFirstContent_calls hready.uncounted fields
  · cases hsome

/-- A frame that does not fit leaves the verdict open for good. -/
theorem Ready.blind {o : SSEBytesObserver} (hready : o.Ready) {f : EventFrame}
    (hlong : o.maxEventBytes < f.bytes.length) :
    (f.bytes.foldl (SSEBytesObserver.step loads) o).Blind := by
  rw [foldl_long_frame hready f hlong, disable, if_neg (by simp [hready.on])]
  exact ⟨rfl, hready.unseen, hready.opened, hready.uncounted⟩

/-- No usage will be counted. -/
def Lost (o : SSEBytesObserver) : Prop := o.Settled .invalid none ∨ o.Blind

theorem Lost.foldl_step {o : SSEBytesObserver} (h : o.Lost) (bytes : List UInt8) :
    (bytes.foldl (SSEBytesObserver.step loads) o).Lost := by
  rcases h with h | h
  · exact Or.inl ((settled_kept _ _).foldl_step h bytes)
  · exact Or.inr (h.foldl_step bytes)

theorem Ready.between {o : SSEBytesObserver} (hready : o.Ready) : o.Between := by
  constructor
  · rw [hready.empty]
    exact Nat.zero_le _
  · intro _
    rw [hready.empty]
    rfl

/-- The frames before the final usage, when none of them has a `usage` member. -/
theorem Ready.foldl_frames {o : SSEBytesObserver} (hready : o.Ready) {frames : List EventFrame}
    (hwell : ∀ f ∈ frames, WellFormed loads f.event)
    (hnone : ∀ f ∈ frames, usageOf loads f.event = none)
    (hfits : ∀ f ∈ frames, f.bytes.length ≤ o.maxEventBytes) :
    ((frameBytes frames).foldl (SSEBytesObserver.step loads) o).Ready := by
  induction frames generalizing o with
  | nil => exact hready
  | cons f frames ih =>
    have hmax : (f.bytes.foldl (SSEBytesObserver.step loads) o).maxEventBytes = o.maxEventBytes :=
      (SSEBytesObserver.foldl_step hready.between f.bytes).2.1
    rw [frameBytes, List.flatMap_cons, List.foldl_append]
    apply ih
    · apply hready.foldl_frame (hfits f (List.mem_cons_self ..)) (hwell f (List.mem_cons_self ..))
      exact hnone f (List.mem_cons_self ..)
    · exact fun g hg => hwell g (List.mem_cons_of_mem _ hg)
    · exact fun g hg => hnone g (List.mem_cons_of_mem _ hg)
    · intro g hg
      rw [hmax]
      exact hfits g (List.mem_cons_of_mem _ hg)

/-- The frames before the final usage, when one of them has a `usage` that is `null` or does
not fit. -/
theorem Ready.lost_frames {o : SSEBytesObserver} (hready : o.Ready) {frames : List EventFrame}
    (hwell : ∀ f ∈ frames, WellFormed loads f.event)
    (hnull : ∀ f ∈ frames, usageOf loads f.event = none ∨ usageOf loads f.event = some .null)
    (hbad : ∃ f ∈ frames, usageOf loads f.event ≠ none ∨ o.maxEventBytes < f.bytes.length) :
    ((frameBytes frames).foldl (SSEBytesObserver.step loads) o).Lost := by
  induction frames generalizing o with
  | nil => simp at hbad
  | cons f frames ih =>
    have hmax : (f.bytes.foldl (SSEBytesObserver.step loads) o).maxEventBytes = o.maxEventBytes :=
      (SSEBytesObserver.foldl_step hready.between f.bytes).2.1
    rw [frameBytes, List.flatMap_cons, List.foldl_append]
    by_cases hlong : o.maxEventBytes < f.bytes.length
    · exact Lost.foldl_step (Or.inr (hready.blind hlong)) _
    rcases hnull f (List.mem_cons_self ..) with hnone | hsome
    · apply ih
      · exact hready.foldl_frame (by omega) (hwell f (List.mem_cons_self ..)) hnone
      · exact fun g hg => hwell g (List.mem_cons_of_mem _ hg)
      · exact fun g hg => hnull g (List.mem_cons_of_mem _ hg)
      · obtain ⟨g, hg, hg'⟩ := hbad
        rcases List.mem_cons.mp hg with rfl | hg
        · exact absurd hg' (by simp [hnone, hlong])
        · exact ⟨g, hg, by rwa [hmax]⟩
    · exact Lost.foldl_step (Or.inl (hready.settle (by omega) hsome)) _

/-! ### The accounting -/

/-- The calls account for the request once, with `result`, and count `tokens`. -/
structure AccountedAs (calls : List StreamingMetricsCall) (result : AccountingResult)
    (tokens : Int) : Prop where
  once : ∀ result', tokenAccountingRequests calls result' = if result' = result then 1 else 0
  counted : observedOutputTokens calls = tokens

theorem accountedAs_append {calls : List StreamingMetricsCall}
    (h : ∀ call ∈ calls, call = .observeTtft ∨ call = .recordMissingTtft)
    (result : AccountingResult) (tokens : Option Int) :
    AccountedAs (calls ++ [.recordTokenAccounting result tokens]) result
      (if result = .observed then tokens.getD 0 else 0) := by
  have hnone : ∀ result', tokenAccountingRequests calls result' = 0 := by
    intro result'
    rw [tokenAccountingRequests, List.countP_eq_zero]
    intro call hmem
    rcases h call hmem with rfl | rfl <;> simp
  have hzero : observedOutputTokens calls = 0 := by
    apply List.sum_eq_zero
    intro n hn
    obtain ⟨call, hmem, rfl⟩ := List.mem_map.mp hn
    rcases h call hmem with rfl | rfl <;> rfl
  constructor
  · intro result'
    have happend : tokenAccountingRequests (calls ++ [.recordTokenAccounting result tokens]) result' =
        tokenAccountingRequests calls result' +
          tokenAccountingRequests [.recordTokenAccounting result tokens] result' :=
      List.countP_append
    rw [happend, hnone, tokenAccountingRequests, List.countP_singleton]
    cases result <;> cases result' <;> rfl
  · have happend : observedOutputTokens (calls ++ [.recordTokenAccounting result tokens]) =
        observedOutputTokens calls +
          observedOutputTokens [.recordTokenAccounting result tokens] := by
      simp [observedOutputTokens]
    rw [happend, hzero]
    cases result <;> cases tokens <;> simp [observedOutputTokens]

/-- The calls that `finalize` adds before it accounts for the tokens. -/
theorem finalize_calls_ttft {o : SSEBytesObserver} (h : ∀ call ∈ o.calls, call = .observeTtft) :
    ∀ call ∈ o.calls ++ (if o.firstContentSeen then [] else [.recordMissingTtft]),
      call = .observeTtft ∨ call = .recordMissingTtft := by
  intro call hmem
  rcases List.mem_append.mp hmem with hmem | hmem
  · exact Or.inl (h call hmem)
  · split at hmem
    · cases hmem
    · exact Or.inr (List.mem_singleton.mp hmem)

theorem Settled.finalize_observed {o : SSEBytesObserver} {k : Int}
    (h : o.Settled .observed (some k)) : AccountedAs o.finalize.calls .observed k := by
  rw [finalize, if_neg (by simp [h.opened])]
  dsimp only
  rw [if_pos h.verdict, h.tokens]
  exact accountedAs_append (finalize_calls_ttft h.uncounted) .observed (some k)

theorem Lost.finalize_invalid {o : SSEBytesObserver} (h : o.Lost) :
    AccountedAs o.finalize.calls .invalid 0 := by
  have hopen : o.finalized = false := h.elim Settled.opened Blind.opened
  have hcalls : ∀ call ∈ o.calls, call = .observeTtft :=
    h.elim Settled.uncounted Blind.uncounted
  have hverdict : o.usageResult ≠ some .observed := by
    rcases h with h | h
    · simp [h.verdict]
    · simp [h.unseen]
  have hinvalid : o.usageResult = some .invalid ∨ o.disabled = true := by
    rcases h with h | h
    · exact Or.inl h.verdict
    · exact Or.inr h.off
  rw [finalize, if_neg (by simp [hopen])]
  dsimp only
  rw [if_neg hverdict, if_pos hinvalid]
  exact accountedAs_append (finalize_calls_ttft hcalls) .invalid none

theorem AccountedAs.result_eq {calls : List StreamingMetricsCall} {result result' : AccountingResult}
    {tokens tokens' : Int} (h : AccountedAs calls result tokens)
    (h' : AccountedAs calls result' tokens') : result = result' := by
  by_contra hne
  have hone := h.once result
  have hzero := h'.once result
  rw [if_pos rfl] at hone
  rw [if_neg hne] at hzero
  omega

theorem ready_of_init {maxEventBytes : Int} {o : SSEBytesObserver}
    (hinit : init maxEventBytes = some o) : o.Ready := by
  unfold init at hinit
  split at hinit
  · cases hinit
  · cases hinit
    exact ⟨rfl, rfl, rfl, rfl, rfl, fun _ hmem => absurd hmem List.not_mem_nil⟩

/-- In a stream whose final usage has `k` completion tokens, and whose events before it have
no `usage` or a `usage` of `null`, under any chunking, the request is accounted for as observed
with `k` tokens exactly when no event before the final usage has a `usage` member and each
event up to the final usage fits, with its boundary, in the buffer. -/
theorem accounted_iff (loads : List UInt8 → Except LoadsError Json) {maxEventBytes : Int}
    {o : SSEBytesObserver} (hinit : init maxEventBytes = some o) {before after : List EventFrame}
    {final : EventFrame} {tail : List UInt8} {usage : List (String × Json)} {k : Int}
    (hwell : ∀ f ∈ before, WellFormed loads f.event)
    (hnull : ∀ f ∈ before, usageOf loads f.event = none ∨ usageOf loads f.event = some .null)
    (husage : usageOf loads final.event = some (.obj usage))
    (htokens : Json.getField usage "completion_tokens" = some (.int k)) (hk : 0 ≤ k)
    {chunks : List (List UInt8)}
    (hchunks : chunks.flatten = frameBytes (before ++ final :: after) ++ tail) :
    AccountedAs (chunks.foldl (observeBytes loads) o).finalize.calls .observed k ↔
      (∀ f ∈ before, usageOf loads f.event = none) ∧
        ∀ f ∈ before ++ [final], (f.bytes.length : Int) ≤ maxEventBytes := by
  obtain ⟨hbetween, hmax⟩ := between_of_init hinit
  have hready : o.Ready := ready_of_init hinit
  have hk' : SSE.completionTokens (.obj usage) = some k := by
    simp only [SSE.completionTokens, htokens]
    rw [if_neg (by omega)]
  have hsplit : chunks.foldl (observeBytes loads) o =
      (frameBytes after ++ tail).foldl (step loads)
        (final.bytes.foldl (step loads) ((frameBytes before).foldl (step loads) o)) := by
    rw [foldl_observeBytes hbetween, hchunks, frameBytes, List.flatMap_append, List.flatMap_cons,
      List.append_assoc, List.append_assoc, List.foldl_append, List.foldl_append]
    rfl
  have hsame : ((frameBytes before).foldl (step loads) o).maxEventBytes = o.maxEventBytes :=
    (foldl_step hbetween _).2.1
  rw [hsplit]
  constructor
  · intro haccounted
    by_contra hbad
    have hlost : ((frameBytes after ++ tail).foldl (step loads)
        (final.bytes.foldl (step loads) ((frameBytes before).foldl (step loads) o))).Lost := by
      apply Lost.foldl_step
      by_cases hbefore : ∃ f ∈ before, usageOf loads f.event ≠ none ∨
          o.maxEventBytes < f.bytes.length
      · exact (hready.lost_frames hwell hnull hbefore).foldl_step final.bytes
      · push Not at hbefore
        -- only the final usage can be too long
        have hlong : o.maxEventBytes < final.bytes.length := by
          by_contra hfits
          apply hbad
          refine ⟨fun f hf => (hbefore f hf).1, fun f hf => ?_⟩
          rcases List.mem_append.mp hf with hf | hf
          · have hle := (hbefore f hf).2
            omega
          · rw [List.mem_singleton.mp hf]
            omega
        have hready' := hready.foldl_frames hwell (fun f hf => (hbefore f hf).1)
          fun f hf => (hbefore f hf).2
        exact Or.inr (hready'.blind (by omega))
    cases haccounted.result_eq hlost.finalize_invalid
  · rintro ⟨hnone, hfits⟩
    have hfits' : ∀ f ∈ before, f.bytes.length ≤ o.maxEventBytes := by
      intro f hf
      have hle := hfits f (List.mem_append_left _ hf)
      omega
    have hfinal : (final.bytes.length : Int) ≤ maxEventBytes :=
      hfits final (List.mem_append_right _ (List.mem_singleton_self _))
    have hsettled := (hready.foldl_frames hwell hnone hfits').settle (by omega) husage
    rw [hk'] at hsettled
    exact ((settled_kept .observed (some k)).foldl_step hsettled _).finalize_observed

/-- The event of a stream with `include_usage` before its final usage. -/
def nullUsage : EventFrame where
  event := ascii "data: \x7b\"usage\":null\x7d"
  terminator := [lf, lf]
  framed := by decide

/-- A final usage of 3 tokens. -/
def finalUsage : EventFrame where
  event := ascii "data: \x7b\"usage\":\x7b\"completion_tokens\":3\x7d\x7d"
  terminator := [lf, lf]
  framed := by decide

/-- `json.loads` on the data of the two events. -/
def usageLoads (data : List UInt8) : Except LoadsError Json :=
  if data = ascii "\x7b\"usage\":null\x7d" then .ok (.obj [("usage", .null)])
  else if data = ascii "\x7b\"usage\":\x7b\"completion_tokens\":3\x7d\x7d" then
    .ok (.obj [("usage", .obj [("completion_tokens", .int 3)])])
  else .error .decodeError

theorem usageOf_nullUsage : usageOf usageLoads nullUsage.event = some .null := by decide

theorem usageOf_finalUsage :
    usageOf usageLoads finalUsage.event = some (.obj [("completion_tokens", .int 3)]) := by decide

theorem wellFormed_nullUsage : WellFormed usageLoads nullUsage.event := by
  constructor <;> decide

/-- A `null` usage before the final one: the tokens are not counted. -/
theorem null_usage_hides_final :
    ∃ o, init 64 = some o ∧ usageOf usageLoads nullUsage.event = some .null ∧
      usageOf usageLoads finalUsage.event = some (.obj [("completion_tokens", .int 3)]) ∧
      AccountedAs (o.observeBytes usageLoads
        (nullUsage.bytes ++ finalUsage.bytes)).finalize.calls .invalid 0 ∧
      ¬ AccountedAs (o.observeBytes usageLoads
        (nullUsage.bytes ++ finalUsage.bytes)).finalize.calls .observed 3 := by
  have hinit : init 64 = some ⟨64, [], false, none, none, false, false, []⟩ := rfl
  have hinvalid : AccountedAs (observeBytes usageLoads ⟨64, [], false, none, none, false, false, []⟩
      (nullUsage.bytes ++ finalUsage.bytes)).finalize.calls .invalid 0 := by
    rw [observeBytes_eq_foldl (between_of_init hinit).1, List.foldl_append]
    apply Lost.finalize_invalid
    apply Lost.foldl_step
    exact Or.inl ((ready_of_init hinit).settle (by decide) usageOf_nullUsage)
  refine ⟨_, hinit, usageOf_nullUsage, usageOf_finalUsage, hinvalid, fun hobserved => ?_⟩
  cases hobserved.result_eq hinvalid

/-- The final usage alone, its boundary in a chunk of its own. -/
theorem accounted_iff_finalUsage :
    AccountedAs ([finalUsage.event, finalUsage.terminator].foldl (observeBytes usageLoads)
      ⟨64, [], false, none, none, false, false, []⟩).finalize.calls .observed 3 := by
  have hinit : init 64 = some ⟨64, [], false, none, none, false, false, []⟩ := rfl
  have hchunks : [finalUsage.event, finalUsage.terminator].flatten =
      frameBytes ([] ++ finalUsage :: []) ++ [] := by decide
  apply (accounted_iff usageLoads hinit (fun _ hf => absurd hf List.not_mem_nil)
    (fun _ hf => absurd hf List.not_mem_nil) usageOf_finalUsage rfl (by decide) hchunks).mpr
  exact ⟨fun _ hf => absurd hf List.not_mem_nil, by decide⟩

/-! ### The observer of events -/

/-- An event, as the observer of events sees it. -/
def toEvent (loads : List UInt8 → Except LoadsError Json) (event : List UInt8) : SSEEvent :=
  match eventData loads event with
  | .ignored => .ignored
  | .malformed => .malformed
  | .raised => .malformed
  | .payload fields =>
    .payload (hasContent fields)
      ((Json.getField fields "usage").map fun usage => (SSE.completionTokens usage).map Int.toNat)

/-- The observer of events that an observer of bytes stands for. -/
def toObserver (o : SSEBytesObserver) : SSEMetricsObserver where
  firstContentSeen := o.firstContentSeen
  usageResult := o.usageResult.map fun result =>
    match result, o.completionTokens with
    | .observed, some tokens => .observed tokens.toNat
    | _, _ => .invalid
  disabled := o.disabled
  finalized := o.finalized
  ttft := o.calls.filterMap fun
    | .observeTtft => some .observed
    | .recordMissingTtft => some .missing
    | .recordTokenAccounting .. => none
  tokens := o.calls.filterMap fun
    | .recordTokenAccounting .observed tokens => some (.observed (tokens.getD 0).toNat)
    | .recordTokenAccounting .invalid _ => some .invalid
    | .recordTokenAccounting .missing _ => some .missing
    | _ => none

theorem toObserver_disable (o : SSEBytesObserver) : o.disable.toObserver = o.toObserver.disable := by
  unfold disable
  split
  · next hoff => simp [SSEMetricsObserver.disable, toObserver, hoff]
  · rfl

theorem toObserver_observeFirstContent (o : SSEBytesObserver) (fields : List (String × Json)) :
    (o.observeFirstContent fields).toObserver =
      o.toObserver.observeFirstContent (hasContent fields) := by
  cases hseen : o.firstContentSeen with
  | true => simp [observeFirstContent, SSEMetricsObserver.observeFirstContent, toObserver, hseen]
  | false =>
    cases hcontent : hasContent fields <;>
      simp [observeFirstContent, SSEMetricsObserver.observeFirstContent, toObserver, hseen, hcontent]

theorem toObserver_observeUsage (o : SSEBytesObserver) (fields : List (String × Json)) :
    (o.observeUsage fields).toObserver = o.toObserver.observeUsage
      ((Json.getField fields "usage").map fun usage => (SSE.completionTokens usage).map Int.toNat) := by
  cases hresult : o.usageResult with
  | some result => simp [observeUsage, SSEMetricsObserver.observeUsage, toObserver, hresult]
  | none =>
    cases husage : Json.getField fields "usage" with
    | none => simp [observeUsage, SSEMetricsObserver.observeUsage, toObserver, hresult, husage]
    | some usage =>
      cases htokens : SSE.completionTokens usage <;>
        simp [observeUsage, SSEMetricsObserver.observeUsage, toObserver, hresult, husage, htokens]

theorem toObserver_observe (o : SSEBytesObserver) (event : List UInt8) :
    (o.observe loads event).toObserver = o.toObserver.observeEvent (toEvent loads event) := by
  unfold observe observeEvent toEvent
  cases eventData loads event with
  | ignored => rfl
  | malformed => exact toObserver_disable o
  | raised => exact toObserver_disable o
  | payload fields =>
    show ((o.observeFirstContent fields).observeUsage fields).toObserver = _
    rw [toObserver_observeUsage, toObserver_observeFirstContent]
    rfl

/-- An event of the buffer is an event of the abstract observer; one that is too long counts
as malformed. -/
theorem toObserver_drainEvent (o : SSEBytesObserver) (event rest : List UInt8) :
    ∃ e, (o.drainEvent loads event rest).toObserver = o.toObserver.observeEvent e := by
  unfold drainEvent
  split
  · exact ⟨.malformed, toObserver_disable { o with buffer := rest }⟩
  · exact ⟨toEvent loads event, toObserver_observe { o with buffer := rest } event⟩

theorem toObserver_drain (o : SSEBytesObserver) :
    ∃ events, (o.drain loads).toObserver = o.toObserver.drainEvents events := by
  cases hsearch : search o.buffer with
  | none => exact ⟨[], by rw [drain_of_none hsearch]; rfl⟩
  | some found =>
    obtain ⟨event, rest⟩ := found
    have hlt : rest.length < o.buffer.length := search_length hsearch
    have hle : (o.drainEvent loads event rest).buffer.length ≤ rest.length :=
      drainEvent_buffer_length o event rest
    obtain ⟨e, he⟩ :
        ∃ e, (o.drainEvent loads event rest).toObserver = o.toObserver.observeEvent e :=
      toObserver_drainEvent o event rest
    have hoff : (o.toObserver.observeEvent e).disabled = (o.drainEvent loads event rest).disabled := by
      rw [← he]
      rfl
    rw [drain_of_some hsearch]
    split
    · next hdisabled =>
      exact ⟨[e], by rw [SSEMetricsObserver.drainEvents, if_pos (hoff.trans hdisabled), he]⟩
    · next hon =>
      obtain ⟨events, hevents⟩ := toObserver_drain (o.drainEvent loads event rest)
      refine ⟨e :: events, ?_⟩
      rw [SSEMetricsObserver.drainEvents, if_neg (by rw [hoff]; exact hon), hevents, he]
termination_by o.buffer.length

theorem toObserver_step (o : SSEBytesObserver) (b : UInt8) :
    ∃ events, (o.step loads b).toObserver = o.toObserver.observeBytes events := by
  unfold step
  split
  · next hoff => exact ⟨[], (if_pos hoff).symm⟩
  next hon =>
  have hon' : ¬ (o.toObserver.disabled = true ∨ o.toObserver.finalized = true) := hon
  split
  · refine ⟨[.malformed], ?_⟩
    rw [SSEMetricsObserver.observeBytes, if_neg hon', SSEMetricsObserver.drainEvents]
    exact toObserver_disable o
  · obtain ⟨events, hevents⟩ := toObserver_drain (o.push [b])
    refine ⟨events, ?_⟩
    rw [SSEMetricsObserver.observeBytes, if_neg hon']
    exact hevents

end SSEBytesObserver

namespace SSEMetricsObserver

theorem drainEvents_finalized (o : SSEMetricsObserver) (events : List SSEEvent) :
    (o.drainEvents events).finalized = o.finalized := by
  induction events generalizing o with
  | nil => rfl
  | cons e events ih =>
    rw [drainEvents]
    split
    · exact observeEvent_finalized o e
    · rw [ih, observeEvent_finalized]

theorem drainEvents_append (o : SSEMetricsObserver) (hon : o.disabled = false)
    (events events' : List SSEEvent) :
    o.drainEvents (events ++ events') =
      if (o.drainEvents events).disabled then o.drainEvents events
      else (o.drainEvents events).drainEvents events' := by
  induction events generalizing o with
  | nil => simp [drainEvents, hon]
  | cons e events ih =>
    rw [List.cons_append, drainEvents, drainEvents]
    split
    · simp
    · next hon' => exact ih _ (by simpa using hon')

/-- Two chunks of events are observed as one. -/
theorem observeBytes_append (o : SSEMetricsObserver) (events events' : List SSEEvent) :
    (o.observeBytes events).observeBytes events' = o.observeBytes (events ++ events') := by
  by_cases hoff : o.disabled = true ∨ o.finalized = true
  · rw [observeBytes, observeBytes, if_pos hoff, if_pos hoff, observeBytes, if_pos hoff]
  · have hon : o.disabled = false ∧ o.finalized = false := by simpa using hoff
    have hopen : (o.drainEvents events).finalized = false :=
      (drainEvents_finalized o events).trans hon.2
    rw [observeBytes, observeBytes, observeBytes, if_neg hoff, if_neg hoff,
      drainEvents_append o hon.1]
    cases hdisabled : (o.drainEvents events).disabled with
    | true => simp
    | false => simp [hopen]

end SSEMetricsObserver

namespace SSEBytesObserver

variable {loads : List UInt8 → Except LoadsError Json}

/-- What `observe_bytes` does to the observer of bytes is what it does to the observer of
events, for some events. -/
theorem toObserver_observeBytes {o : SSEBytesObserver} (hbetween : o.Between) (chunk : List UInt8) :
    ∃ events, (o.observeBytes loads chunk).toObserver = o.toObserver.observeBytes events := by
  rw [observeBytes_eq_foldl hbetween]
  induction chunk generalizing o with
  | nil =>
    refine ⟨[], ?_⟩
    rw [SSEMetricsObserver.observeBytes]
    split <;> rfl
  | cons b chunk ih =>
    obtain ⟨events, hevents⟩ : ∃ events, (o.step loads b).toObserver = _ := toObserver_step o b
    obtain ⟨events', hevents'⟩ := ih (hbetween.step b)
    refine ⟨events ++ events', ?_⟩
    rw [List.foldl_cons, hevents', hevents, SSEMetricsObserver.observeBytes_append]

/-- The verdict of an observer is one that `_observe_usage` gives. -/
def Verdict (o : SSEBytesObserver) : Prop :=
  match o.usageResult with
  | none => o.completionTokens = none
  | some .observed => ∃ tokens, o.completionTokens = some tokens
  | some .invalid => True
  | some .missing => False

theorem toObserver_finalize {o : SSEBytesObserver} (hverdict : o.Verdict) :
    o.finalize.toObserver = o.toObserver.finalize := by
  cases hdone : o.finalized with
  | true => simp [finalize, SSEMetricsObserver.finalize, toObserver, hdone]
  | false =>
    unfold Verdict at hverdict
    cases hseen : o.firstContentSeen <;> cases hresult : o.usageResult with
    | none =>
      cases hoff : o.disabled <;>
        simp [finalize, SSEMetricsObserver.finalize, toObserver, hdone, hseen, hresult, hoff]
    | some result =>
      rw [hresult] at hverdict
      cases result with
      | observed =>
        obtain ⟨tokens, htokens⟩ := hverdict
        simp [finalize, SSEMetricsObserver.finalize, toObserver, hdone, hseen, hresult, htokens]
      | invalid =>
        cases htokens : o.completionTokens <;>
          simp [finalize, SSEMetricsObserver.finalize, toObserver, hdone, hseen, hresult, htokens]
      | missing => exact hverdict.elim

theorem verdict_kept : Kept Verdict where
  buffer _ _ h := h
  disable o h := by
    unfold SSEBytesObserver.disable
    split <;> exact h
  content o fields h := by simpa [Verdict] using h
  usage o fields h := by
    cases hresult : o.usageResult with
    | some result =>
      rw [observeUsage_of_isSome (by rw [hresult]; rfl)]
      exact h
    | none =>
      rw [Verdict, hresult] at h
      cases husage : Json.getField fields "usage" with
      | none => simp [Verdict, observeUsage, hresult, husage, h]
      | some usage => cases htokens : SSE.completionTokens usage <;>
          simp [Verdict, observeUsage, hresult, husage, htokens]

/-- A stream of bytes is accounted for as a stream of events is. -/
theorem refines_observer {maxEventBytes : Int} {o : SSEBytesObserver}
    (hinit : init maxEventBytes = some o) (chunks : List (List UInt8)) :
    ∃ events : List (List SSEEvent),
      (chunks.foldl (observeBytes loads) o).finalize.toObserver =
        (events.foldl SSEMetricsObserver.observeBytes .new).finalize := by
  have hbetween : o.Between := (between_of_init hinit).1
  have hnew : o.toObserver = .new := by
    unfold init at hinit
    split at hinit <;> cases hinit
    rfl
  have hverdict : (chunks.foldl (observeBytes loads) o).Verdict := by
    rw [foldl_observeBytes hbetween]
    apply verdict_kept.foldl_step
    rw [Verdict, (ready_of_init hinit).unseen]
    exact (ready_of_init hinit).tokenless
  have hrun : ∃ events : List (List SSEEvent),
      (chunks.foldl (observeBytes loads) o).toObserver =
        events.foldl SSEMetricsObserver.observeBytes o.toObserver := by
    clear hnew hinit hverdict
    induction chunks generalizing o with
    | nil => exact ⟨[], rfl⟩
    | cons chunk chunks ih =>
      obtain ⟨event, hevent⟩ :
          ∃ event, (o.observeBytes loads chunk).toObserver = o.toObserver.observeBytes event :=
        toObserver_observeBytes hbetween chunk
      have hbetween' : (o.observeBytes loads chunk).Between := by
        rw [observeBytes_eq_foldl hbetween]
        exact (foldl_step hbetween chunk).1
      obtain ⟨events, hevents⟩ := ih hbetween'
      exact ⟨event :: events, by rw [List.foldl_cons, List.foldl_cons, hevents, hevent]⟩
  obtain ⟨events, hevents⟩ := hrun
  exact ⟨events, by rw [toObserver_finalize hverdict, hevents, hnew]⟩

end SSEBytesObserver

end Gateway
