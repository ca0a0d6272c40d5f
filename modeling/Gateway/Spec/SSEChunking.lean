import Gateway.Model.SSEBytes

/-!
# SSE observation does not depend on the chunking

An event that `_drain_events` finds in the buffer is found there whatever bytes follow, so
observing a chunk is observing its bytes one by one (`observeBytes_eq_foldl`), and two ways
to cut a stream leave the observer in the same state.

Key results:
- `search_append`: the first boundary stays the first when bytes are appended
- `drain_append`: events can be drained before or after more bytes arrive
- `observeBytes_eq_foldl`: a chunk is observed byte by byte
- `chunking_independent`
-/

namespace Gateway

namespace SSE

/-! ### The first event boundary -/

theorem newline?_append {x rest : List UInt8} (h : newline? x = some rest) (y : List UInt8) :
    newline? (x ++ y) = some (rest ++ y) := by
  unfold newline? at h
  split at h <;> cases h <;> rfl

theorem boundary?_append {x rest : List UInt8} (h : boundary? x = some rest) (y : List UInt8) :
    boundary? (x ++ y) = some (rest ++ y) := by
  obtain ⟨line, hline, hrest⟩ := Option.bind_eq_some_iff.mp h
  rw [boundary?, newline?_append hline, Option.bind_some, newline?_append hrest]

theorem newline?_cons_cons (a b : UInt8) (x : List UInt8) :
    newline? (a :: b :: x) =
      if a = cr ∧ b = lf then some x else if a = lf then some (b :: x) else none := by
  unfold newline?
  split <;> simp_all [cr, lf]

/-- Two bytes decide whether they begin with a newline. -/
theorem newline?_append_of_two_le {x : List UInt8} (hlong : 2 ≤ x.length) (y : List UInt8) :
    newline? (x ++ y) = (newline? x).map (· ++ y) := by
  match x, hlong with
  | a :: b :: x, _ =>
    rw [List.cons_append, List.cons_append, newline?_cons_cons, newline?_cons_cons]
    split
    · rfl
    · split <;> rfl

theorem length_le_of_newline? {x rest : List UInt8} (h : newline? x = some rest) :
    x.length ≤ rest.length + 2 := by
  unfold newline? at h
  split at h <;> cases h <;> simp

/-- Four bytes decide whether they begin with a boundary. -/
theorem boundary?_append_of_four_le {x : List UInt8} (hlong : 4 ≤ x.length) (y : List UInt8) :
    boundary? (x ++ y) = (boundary? x).map (· ++ y) := by
  rw [boundary?, boundary?, newline?_append_of_two_le (by omega)]
  cases hline : newline? x with
  | none => rfl
  | some line =>
    have hle : x.length ≤ line.length + 2 := length_le_of_newline? hline
    exact newline?_append_of_two_le (by omega) y

/-- Bytes that begin a boundary without ending it have no boundary after their first byte:
that would be a third newline. -/
theorem search_tail_of_boundary?_append {x y rest : List UInt8} (hnone : boundary? x = none)
    (hsome : boundary? (x ++ y) = some rest) : search x.tail = none := by
  match x with
  | [] => rfl
  | [a] => rfl
  | [a, b] => by_cases hb : b = 10 <;> simp [search, boundary?, newline?, hb]
  | [a, b, c] =>
    by_cases hb : b = 10 <;> by_cases hc : c = 10 <;> by_cases ha : a = 13 <;>
      by_cases ha' : a = 10 <;> simp_all [search, boundary?, newline?]
  | a :: b :: c :: d :: x =>
    rw [boundary?_append_of_four_le (by simp), hnone] at hsome
    cases hsome

theorem search_append {x : List UInt8} {event rest : List UInt8}
    (h : search x = some (event, rest)) (y : List UInt8) :
    search (x ++ y) = some (event, rest ++ y) := by
  induction x generalizing event with
  | nil => cases h
  | cons b x ih =>
    rw [List.cons_append, search, ← List.cons_append]
    rw [search] at h
    split at h
    · next rest' hrest =>
      cases h
      rw [boundary?_append hrest]
    · next hnone =>
      obtain ⟨found, hfound, heq⟩ := Option.map_eq_some_iff.mp h
      cases heq
      have hnone' : boundary? ((b :: x) ++ y) = none := by
        by_contra hne
        obtain ⟨rest', hsome⟩ := Option.ne_none_iff_exists'.mp hne
        have := search_tail_of_boundary?_append hnone hsome
        rw [List.tail_cons, hfound] at this
        cases this
      rw [hnone', ih hfound]
      rfl

end SSE

namespace SSEBytesObserver

open SSE

variable {loads : List UInt8 → Except LoadsError Json}

/-! ### Draining -/

/-- `_drain_events`, with the exceptions that `observe_bytes` catches. -/
def drain (loads : List UInt8 → Except LoadsError Json) (o : SSEBytesObserver) :
    SSEBytesObserver :=
  caught (o.drainEvents loads)

/-- `_observe_event`, with the exceptions that `observe_bytes` catches. -/
def observe (loads : List UInt8 → Except LoadsError Json) (o : SSEBytesObserver)
    (event : List UInt8) : SSEBytesObserver :=
  caught (o.observeEvent loads event)

/-- What `_drain_events` does with the first event of the buffer. -/
def drainEvent (loads : List UInt8 → Except LoadsError Json) (o : SSEBytesObserver)
    (event rest : List UInt8) : SSEBytesObserver :=
  if o.maxEventBytes < event.length then { o with buffer := rest }.disable
  else { o with buffer := rest }.observe loads event

@[simp] theorem disable_disabled (o : SSEBytesObserver) : o.disable.disabled = true := by
  unfold disable
  split <;> simp_all

theorem drain_of_none {o : SSEBytesObserver} (h : search o.buffer = none) :
    o.drain loads = o := by
  rw [drain, drainEvents]
  split
  · rfl
  · simp_all

theorem drain_of_some {o : SSEBytesObserver} {event rest : List UInt8}
    (h : search o.buffer = some (event, rest)) :
    o.drain loads = if (o.drainEvent loads event rest).disabled then o.drainEvent loads event rest
      else (o.drainEvent loads event rest).drain loads := by
  rw [drain, drainEvents]
  split
  · simp_all
  next event' rest' heq =>
  obtain ⟨rfl, rfl⟩ : event = event' ∧ rest = rest' := by simp_all
  unfold drainEvent observe
  split
  · rw [if_pos (disable_disabled _)]
    rfl
  · cases hevent : observeEvent loads { o with buffer := rest } event with
    | error o' =>
      show o'.disable = if o'.disable.disabled then o'.disable else _
      rw [if_pos (disable_disabled o')]
    | ok o' =>
      show caught (if o'.disabled then .ok o' else drainEvents loads o') =
        if o'.disabled then o' else o'.drain loads
      split <;> rfl

/-- An observer that is handed more bytes. -/
def push (o : SSEBytesObserver) (bytes : List UInt8) : SSEBytesObserver :=
  { o with buffer := o.buffer ++ bytes }

@[simp] theorem push_nil (o : SSEBytesObserver) : o.push [] = o := by simp [push]

@[simp] theorem push_push (o : SSEBytesObserver) (x y : List UInt8) :
    (o.push x).push y = o.push (x ++ y) := by simp [push]

theorem push_disable {o : SSEBytesObserver} (hon : o.disabled = false) (bytes : List UInt8) :
    (o.push bytes).disable = o.disable := by
  simp [disable, push, hon]

theorem observeFirstContent_push (o : SSEBytesObserver) (fields : List (String × Json))
    (bytes : List UInt8) :
    (o.push bytes).observeFirstContent fields = (o.observeFirstContent fields).push bytes := by
  unfold observeFirstContent push
  split <;> [rfl; split <;> rfl]

theorem observeUsage_push (o : SSEBytesObserver) (fields : List (String × Json))
    (bytes : List UInt8) :
    (o.push bytes).observeUsage fields = (o.observeUsage fields).push bytes := by
  cases hresult : o.usageResult with
  | some result => simp [observeUsage, push, hresult]
  | none =>
    cases husage : Json.getField fields "usage" with
    | none => simp [observeUsage, push, hresult, husage]
    | some usage => cases htokens : SSE.completionTokens usage <;>
        simp [observeUsage, push, hresult, husage, htokens]

@[simp] theorem observeFirstContent_disabled (o : SSEBytesObserver)
    (fields : List (String × Json)) : (o.observeFirstContent fields).disabled = o.disabled := by
  unfold observeFirstContent
  split <;> [rfl; split <;> rfl]

@[simp] theorem observeUsage_disabled (o : SSEBytesObserver) (fields : List (String × Json)) :
    (o.observeUsage fields).disabled = o.disabled := by
  unfold observeUsage
  split <;> [split <;> rfl; rfl]

/-- An event is read apart from the bytes that follow it, and they are dropped if it
disables the observer. -/
theorem observe_push {o : SSEBytesObserver} (hon : o.disabled = false) (event bytes : List UInt8) :
    (o.push bytes).observe loads event =
      if (o.observe loads event).disabled then o.observe loads event
      else (o.observe loads event).push bytes := by
  unfold observe observeEvent
  cases eventData loads event with
  | ignored => simp [caught, hon]
  | malformed => simp [caught, push_disable hon]
  | raised => simp [caught, push_disable hon]
  | payload fields =>
    simp [caught, observeFirstContent_push, observeUsage_push, hon]

theorem drainEvent_push {o : SSEBytesObserver} (hon : o.disabled = false)
    (event rest bytes : List UInt8) :
    (o.push bytes).drainEvent loads event (rest ++ bytes) =
      if (o.drainEvent loads event rest).disabled then o.drainEvent loads event rest
      else (o.drainEvent loads event rest).push bytes := by
  have hrest : { o.push bytes with buffer := rest ++ bytes } = { o with buffer := rest }.push bytes :=
    rfl
  have hon' : { o with buffer := rest }.disabled = false := hon
  by_cases hbig : o.maxEventBytes < event.length
  · have hbig' : (o.push bytes).maxEventBytes < event.length := hbig
    rw [drainEvent, drainEvent, if_pos hbig, if_pos hbig', if_pos (disable_disabled _), hrest]
    exact push_disable hon' bytes
  · have hbig' : ¬ (o.push bytes).maxEventBytes < event.length := hbig
    rw [drainEvent, drainEvent, if_neg hbig, if_neg hbig', hrest]
    exact observe_push hon' event bytes

theorem observe_buffer_length (o : SSEBytesObserver) (event : List UInt8) :
    (o.observe loads event).buffer.length ≤ o.buffer.length := by
  unfold observe observeEvent
  cases eventData loads event with
  | ignored => exact Nat.le_refl _
  | malformed => exact disable_buffer_length o
  | raised => exact disable_buffer_length o
  | payload fields => simp [caught]

theorem drainEvent_buffer_length (o : SSEBytesObserver) (event rest : List UInt8) :
    (o.drainEvent loads event rest).buffer.length ≤ rest.length := by
  unfold drainEvent
  split
  · exact disable_buffer_length _
  · exact observe_buffer_length _ event

/-- Events are drained before more bytes arrive, or after. -/
theorem drain_push (o : SSEBytesObserver) (hon : o.disabled = false) (bytes : List UInt8) :
    (o.push bytes).drain loads =
      if (o.drain loads).disabled then o.drain loads
      else ((o.drain loads).push bytes).drain loads := by
  cases hsearch : search o.buffer with
  | none => rw [drain_of_none hsearch, if_neg (by simp [hon])]
  | some found =>
    obtain ⟨event, rest⟩ := found
    have hpush : search (o.push bytes).buffer = some (event, rest ++ bytes) :=
      search_append hsearch bytes
    rw [drain_of_some hpush, drain_of_some hsearch, drainEvent_push hon]
    cases hoff : (o.drainEvent loads event rest).disabled with
    | true => simp [hoff]
    | false =>
      have hlt : (o.drainEvent loads event rest).buffer.length < o.buffer.length :=
        Nat.lt_of_le_of_lt (drainEvent_buffer_length o event rest) (search_length hsearch)
      have ih := drain_push (o.drainEvent loads event rest) hoff bytes
      simpa [hoff, push] using ih
termination_by o.buffer.length

theorem drain_buffer_length (o : SSEBytesObserver) :
    (o.drain loads).buffer.length ≤ o.buffer.length := by
  cases hsearch : search o.buffer with
  | none => rw [drain_of_none hsearch]
  | some found =>
    obtain ⟨event, rest⟩ := found
    have hlt : rest.length < o.buffer.length := search_length hsearch
    have hle : (o.drainEvent loads event rest).buffer.length ≤ rest.length :=
      drainEvent_buffer_length o event rest
    rw [drain_of_some hsearch]
    split
    · omega
    · have ih := drain_buffer_length (o.drainEvent loads event rest)
      omega
termination_by o.buffer.length

/-- Two observers with one size limit, both finalized or neither. -/
def SameLimits (o o' : SSEBytesObserver) : Prop :=
  o'.maxEventBytes = o.maxEventBytes ∧ o'.finalized = o.finalized

theorem disable_sameLimits (o : SSEBytesObserver) : SameLimits o o.disable := by
  unfold disable
  split <;> exact ⟨rfl, rfl⟩

theorem observe_sameLimits (o : SSEBytesObserver) (event : List UInt8) :
    SameLimits o (o.observe loads event) := by
  unfold observe observeEvent
  cases eventData loads event with
  | ignored => exact ⟨rfl, rfl⟩
  | malformed => exact disable_sameLimits o
  | raised => exact disable_sameLimits o
  | payload fields =>
    show SameLimits o ((o.observeFirstContent fields).observeUsage fields)
    unfold observeFirstContent observeUsage
    repeat' split
    all_goals exact ⟨rfl, rfl⟩

theorem drainEvent_sameLimits (o : SSEBytesObserver) (event rest : List UInt8) :
    SameLimits o (o.drainEvent loads event rest) := by
  unfold drainEvent
  split
  · exact disable_sameLimits { o with buffer := rest }
  · exact observe_sameLimits { o with buffer := rest } event

theorem drain_sameLimits (o : SSEBytesObserver) : SameLimits o (o.drain loads) := by
  cases hsearch : search o.buffer with
  | none =>
    rw [drain_of_none hsearch]
    exact ⟨rfl, rfl⟩
  | some found =>
    obtain ⟨event, rest⟩ := found
    have hlt : rest.length < o.buffer.length := search_length hsearch
    have hle : (o.drainEvent loads event rest).buffer.length ≤ rest.length :=
      drainEvent_buffer_length o event rest
    have hsame : SameLimits o (o.drainEvent loads event rest) := drainEvent_sameLimits o event rest
    rw [drain_of_some hsearch]
    split
    · exact hsame
    · have ih : SameLimits _ _ := drain_sameLimits (o.drainEvent loads event rest)
      exact ⟨ih.1.trans hsame.1, ih.2.trans hsame.2⟩
termination_by o.buffer.length

/-- No event is left in the buffer, unless the observer is off. -/
def Drained (o : SSEBytesObserver) : Prop := o.disabled = false → search o.buffer = none

theorem drain_drained (o : SSEBytesObserver) : (o.drain loads).Drained := by
  cases hsearch : search o.buffer with
  | none =>
    rw [drain_of_none hsearch]
    exact fun _ => hsearch
  | some found =>
    obtain ⟨event, rest⟩ := found
    have hlt : rest.length < o.buffer.length := search_length hsearch
    have hle : (o.drainEvent loads event rest).buffer.length ≤ rest.length :=
      drainEvent_buffer_length o event rest
    rw [drain_of_some hsearch]
    split
    · next hoff => exact fun hon => absurd hoff (by simp [hon])
    · exact drain_drained (o.drainEvent loads event rest)
termination_by o.buffer.length

/-! ### One byte at a time -/

/-- `observe_bytes` for one byte. -/
def step (loads : List UInt8 → Except LoadsError Json) (o : SSEBytesObserver) (b : UInt8) :
    SSEBytesObserver :=
  if o.disabled ∨ o.finalized then o
  else if o.maxEventBytes ≤ o.buffer.length then o.disable
  else (o.push [b]).drain loads

theorem foldl_step_of_disabled {o : SSEBytesObserver} (hoff : o.disabled = true)
    (bytes : List UInt8) : bytes.foldl (step loads) o = o := by
  induction bytes with
  | nil => rfl
  | cons b bytes ih =>
    rw [List.foldl_cons, step, if_pos (Or.inl hoff)]
    exact ih

/-- Bytes that fit in the buffer are drained together or one by one. -/
theorem drain_push_eq_foldl {o : SSEBytesObserver} (hon : o.disabled = false)
    (hopen : o.finalized = false) (hdrained : o.Drained) (bytes : List UInt8)
    (hfits : o.buffer.length + bytes.length ≤ o.maxEventBytes) :
    (o.push bytes).drain loads = bytes.foldl (step loads) o := by
  induction bytes generalizing o with
  | nil =>
    rw [push_nil]
    exact drain_of_none (hdrained hon)
  | cons b bytes ih =>
    rw [List.length_cons] at hfits
    have hstep : step loads o b = (o.push [b]).drain loads := by
      rw [step, if_neg (by simp [hon, hopen]), if_neg (by omega)]
    have hsplit : o.push (b :: bytes) = (o.push [b]).push bytes := by simp
    have hon' : (o.push [b]).disabled = false := hon
    rw [List.foldl_cons, hstep, hsplit, drain_push _ hon']
    cases hoff : ((o.push [b]).drain loads).disabled with
    | true =>
      rw [if_pos rfl, foldl_step_of_disabled hoff]
    | false =>
      have hsame : SameLimits (o.push [b]) ((o.push [b]).drain loads) := drain_sameLimits _
      have hle : ((o.push [b]).drain loads).buffer.length ≤ o.buffer.length + 1 := by
        simpa [push] using drain_buffer_length (o.push [b])
      have hmax : ((o.push [b]).drain loads).maxEventBytes = o.maxEventBytes := hsame.1
      rw [if_neg (by simp)]
      apply ih hoff
      · exact hsame.2.trans hopen
      · exact drain_drained _
      · omega

/-- What holds of an observer between two chunks. -/
structure Between (o : SSEBytesObserver) : Prop where
  bounded : o.buffer.length ≤ o.maxEventBytes
  drained : o.Drained

/-- The loop of `observe_bytes`, with the exceptions that are caught. -/
theorem caught_observeLoop {o : SSEBytesObserver} (hopen : o.finalized = false)
    (hon : o.disabled = false) (hbetween : o.Between) (chunk : List UInt8) :
    caught (o.observeLoop loads chunk) = chunk.foldl (step loads) o := by
  rw [observeLoop]
  split
  · next hnil =>
    subst hnil
    rfl
  split
  · next hne hfull =>
    obtain ⟨b, bytes, rfl⟩ := List.exists_cons_of_ne_nil hne
    have hstep : step loads o b = o.disable := by
      rw [step, if_neg (by simp [hon, hopen]), if_pos hfull]
    rw [List.foldl_cons, hstep, foldl_step_of_disabled (disable_disabled o)]
    rfl
  · next hne hfree =>
    have hcopied : chunk.take (o.maxEventBytes - o.buffer.length) ++ o.uncopied chunk = chunk :=
      List.take_append_drop _ chunk
    have hdrain : (o.copy chunk).drain loads =
        (chunk.take (o.maxEventBytes - o.buffer.length)).foldl (step loads) o := by
      apply drain_push_eq_foldl hon hopen hbetween.drained
      rw [List.length_take]
      omega
    have hfold : chunk.foldl (step loads) o =
        (o.uncopied chunk).foldl (step loads) ((o.copy chunk).drain loads) := by
      rw [hdrain, ← List.foldl_append, hcopied]
    rw [hfold]
    cases hraised : drainEvents loads (o.copy chunk) with
    | error o' =>
      have hoff : (o.copy chunk).drain loads = o'.disable := by rw [drain, hraised]; rfl
      rw [hoff, foldl_step_of_disabled (disable_disabled o')]
      rfl
    | ok o' =>
      have ho' : (o.copy chunk).drain loads = o' := by rw [drain, hraised]; rfl
      rw [ho']
      show caught (if o'.disabled then .ok o' else observeLoop loads o' (o.uncopied chunk)) = _
      split
      · next hoff => exact (foldl_step_of_disabled hoff _).symm
      · next hon' =>
        have hsame : SameLimits (o.copy chunk) o' := ho' ▸ drain_sameLimits (o.copy chunk)
        have hle : o'.buffer.length ≤ (o.copy chunk).buffer.length :=
          ho' ▸ drain_buffer_length (o.copy chunk)
        have hcopy : (o.copy chunk).buffer.length ≤ o.maxEventBytes := by
          rw [copy, List.length_append, List.length_take]
          omega
        have hlt : (o.uncopied chunk).length < chunk.length := uncopied_length hne hfree
        apply caught_observeLoop (hsame.2.trans hopen) (by simpa using hon')
        constructor
        · rw [hsame.1]
          exact hle.trans hcopy
        · exact ho' ▸ drain_drained (o.copy chunk)
termination_by chunk.length

/-- A chunk is observed byte by byte. -/
theorem observeBytes_eq_foldl {o : SSEBytesObserver} (hbetween : o.Between) (chunk : List UInt8) :
    o.observeBytes loads chunk = chunk.foldl (step loads) o := by
  rw [observeBytes]
  split
  · next hoff =>
    induction chunk with
    | nil => rfl
    | cons b bytes ih =>
      rw [List.foldl_cons, step, if_pos hoff]
      exact ih
  · next hon =>
    have hon' : o.finalized = false ∧ o.disabled = false := by simpa [and_comm] using hon
    exact caught_observeLoop hon'.1 hon'.2 hbetween chunk

theorem step_sameLimits (o : SSEBytesObserver) (b : UInt8) : SameLimits o (o.step loads b) := by
  unfold step
  split
  · exact ⟨rfl, rfl⟩
  split
  · exact disable_sameLimits o
  · exact drain_sameLimits (o.push [b])

theorem Between.step {o : SSEBytesObserver} (hbetween : o.Between) (b : UInt8) :
    (o.step loads b).Between := by
  unfold SSEBytesObserver.step
  split
  · exact hbetween
  split
  · constructor
    · rw [(disable_sameLimits o).1]
      exact (disable_buffer_length o).trans hbetween.bounded
    · exact fun hon => absurd hon (by simp)
  · next hfree =>
    have hle : ((o.push [b]).drain loads).buffer.length ≤ o.buffer.length + 1 := by
      simpa [push] using drain_buffer_length (o.push [b])
    have hmax : ((o.push [b]).drain loads).maxEventBytes = o.maxEventBytes :=
      (drain_sameLimits (o.push [b])).1
    exact ⟨by omega, drain_drained _⟩

theorem foldl_step {o : SSEBytesObserver} (hbetween : o.Between) (bytes : List UInt8) :
    (bytes.foldl (step loads) o).Between ∧ SameLimits o (bytes.foldl (step loads) o) := by
  induction bytes generalizing o with
  | nil => exact ⟨hbetween, rfl, rfl⟩
  | cons b bytes ih =>
    have hsame : SameLimits o (o.step loads b) := step_sameLimits o b
    obtain ⟨hbetween', hlimits⟩ := ih (hbetween.step b)
    exact ⟨hbetween', hlimits.1.trans hsame.1, hlimits.2.trans hsame.2⟩

/-! ### A stream -/

/-- The stream is observed as its bytes are, however it is cut into chunks. -/
theorem foldl_observeBytes {o : SSEBytesObserver} (hbetween : o.Between)
    (chunks : List (List UInt8)) :
    chunks.foldl (observeBytes loads) o = chunks.flatten.foldl (step loads) o := by
  induction chunks generalizing o with
  | nil => rfl
  | cons chunk chunks ih =>
    rw [List.foldl_cons, List.flatten_cons, List.foldl_append, observeBytes_eq_foldl hbetween]
    exact ih (foldl_step hbetween chunk).1

theorem between_of_init {maxEventBytes : Int} {o : SSEBytesObserver}
    (hinit : init maxEventBytes = some o) :
    o.Between ∧ (o.maxEventBytes : Int) = maxEventBytes := by
  unfold init at hinit
  split at hinit
  · cases hinit
  · cases hinit
    exact ⟨⟨Nat.zero_le _, fun _ => rfl⟩, by dsimp only; omega⟩

/-- The observer each time `observe_bytes` has copied bytes of a chunk into the buffer. -/
def copies (loads : List UInt8 → Except LoadsError Json) (o : SSEBytesObserver)
    (chunk : List UInt8) : List SSEBytesObserver :=
  if _hne : chunk = [] then []
  else if _hfree : o.maxEventBytes ≤ o.buffer.length then []
  else
    o.copy chunk ::
      match (o.copy chunk).drainEvents loads with
      | .error _ => []
      | .ok o' => if o'.disabled then [] else copies loads o' (o.uncopied chunk)
termination_by chunk.length
decreasing_by exact uncopied_length _hne _hfree

theorem copies_bounded (o : SSEBytesObserver) (chunk : List UInt8) :
    ∀ o' ∈ o.copies loads chunk, o'.buffer.length ≤ o.maxEventBytes := by
  intro o' hmem
  rw [copies] at hmem
  split at hmem
  · cases hmem
  split at hmem
  · cases hmem
  next hne hfree =>
  rcases List.mem_cons.mp hmem with rfl | hmem
  · rw [copy, List.length_append, List.length_take]
    omega
  · have hlt : (o.uncopied chunk).length < chunk.length := uncopied_length hne hfree
    split at hmem
    · cases hmem
    next o₁ hdrained =>
    split at hmem
    · cases hmem
    have hsame : SameLimits (o.copy chunk) o₁ := by
      have h : SameLimits (o.copy chunk) ((o.copy chunk).drain loads) := drain_sameLimits _
      rwa [drain, hdrained] at h
    have ih := copies_bounded o₁ (o.uncopied chunk) o' hmem
    rw [hsame.1] at ih
    exact ih
termination_by chunk.length

/-- Two ways to cut a stream into chunks leave the observer in the same state, and it makes
the same metrics calls; the buffer is never longer than `max_event_bytes`. -/
theorem chunking_independent (loads : List UInt8 → Except LoadsError Json) {maxEventBytes : Int}
    {o : SSEBytesObserver} (hinit : init maxEventBytes = some o) {chunks chunks' : List (List UInt8)}
    (hsame : chunks.flatten = chunks'.flatten) :
    chunks.foldl (observeBytes loads) o = chunks'.foldl (observeBytes loads) o ∧
      (chunks.foldl (observeBytes loads) o).finalize =
        (chunks'.foldl (observeBytes loads) o).finalize ∧
      ((chunks.foldl (observeBytes loads) o).buffer.length : Int) ≤ maxEventBytes ∧
      ∀ before chunk after, chunks = before ++ chunk :: after →
        ∀ o' ∈ (before.foldl (observeBytes loads) o).copies loads chunk,
          (o'.buffer.length : Int) ≤ maxEventBytes := by
  obtain ⟨hbetween, hmax⟩ := between_of_init hinit
  have heq : chunks.foldl (observeBytes loads) o = chunks'.foldl (observeBytes loads) o := by
    rw [foldl_observeBytes hbetween, foldl_observeBytes hbetween, hsame]
  refine ⟨heq, congrArg finalize heq, ?_, ?_⟩
  · obtain ⟨hbetween', hlimits⟩ :
        (chunks.flatten.foldl (step loads) o).Between ∧ SameLimits o _ :=
      foldl_step hbetween chunks.flatten
    have hle := hbetween'.bounded
    rw [hlimits.1] at hle
    rw [foldl_observeBytes hbetween]
    omega
  · intro before chunk after _ o' hmem
    have hle := copies_bounded _ chunk o' hmem
    rw [foldl_observeBytes hbetween, (foldl_step hbetween before.flatten).2.1] at hle
    omega

/-- An empty event of two newlines, in two chunks or in one. -/
theorem chunking_independent_lf :
    [[lf], [lf]].foldl (observeBytes fun _ => .error .decodeError)
        ⟨4, [], false, none, none, false, false, []⟩ =
      [[lf, lf]].foldl (observeBytes fun _ => .error .decodeError)
        ⟨4, [], false, none, none, false, false, []⟩ :=
  have hinit : init 4 = some ⟨4, [], false, none, none, false, false, []⟩ := rfl
  have hsame : [[lf], [lf]].flatten = [[lf, lf]].flatten := rfl
  (chunking_independent _ hinit hsame).1

end SSEBytesObserver

end Gateway
