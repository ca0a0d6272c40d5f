/-!
# Coroutines as stacks of frames

A coroutine that is suspended is a list of frames, innermost first: each frame is
one function waiting for the function it called. When the innermost call ends it
hands a signal (a result or an exception) to the frame below, which may call
again, suspend, or end with a signal of its own.

`Run` is what running a coroutine to its next suspension gives. `Run.Ensures`
describes such a run by what holds when it suspends and what holds when it ends,
and `Run.Keeps` is the case of an invariant over the state and the frames that are
alive.

## Key results

- `Run.Ensures.andThen`: a call followed by its continuation
- `deliver_ensures`: what every frame does with a signal, a whole stack does
-/

/-- How a run stops. -/
inductive RunResult (φ ς : Type)
  | suspended (frames : List φ)
  | done (signal : ς)
deriving Repr, DecidableEq

/-- The state a run leaves, and how it stopped. -/
structure Run (σ φ ς : Type) where
  state : σ
  result : RunResult φ ς

namespace Run

variable {σ φ ς : Type}

/-- A run that ends at once. -/
def done (s : σ) (signal : ς) : Run σ φ ς := ⟨s, .done signal⟩

/-- A run that suspends at once. -/
def suspend (s : σ) (frame : φ) : Run σ φ ς := ⟨s, .suspended [frame]⟩

/-- Call, and continue with `k` when the call ends: at once, or from `frame` later. -/
def andThen (r : Run σ φ ς) (frame : φ) (k : σ → ς → Run σ φ ς) : Run σ φ ς :=
  match r.result with
  | .suspended frames => ⟨r.state, .suspended (frames ++ [frame])⟩
  | .done signal => k r.state signal

/-- `P` holds of the frames when the run suspends, and `Q` of the signal when it ends. -/
def Ensures (r : Run σ φ ς) (P : σ → List φ → Prop) (Q : σ → ς → Prop) : Prop :=
  match r.result with
  | .suspended frames => P r.state frames
  | .done signal => Q r.state signal

variable {r : Run σ φ ς} {P P' : σ → List φ → Prop} {Q Q' : σ → ς → Prop} {s : σ}
  {frame : φ} {signal : ς} {k : σ → ς → Run σ φ ς}

@[simp] theorem ensures_done : (done s signal : Run σ φ ς).Ensures P Q ↔ Q s signal := Iff.rfl

@[simp] theorem ensures_suspend :
    (suspend s frame : Run σ φ ς).Ensures P Q ↔ P s [frame] := Iff.rfl

theorem Ensures.mono (h : r.Ensures P Q) (hP : ∀ s frames, P s frames → P' s frames)
    (hQ : ∀ s signal, Q s signal → Q' s signal) : r.Ensures P' Q' := by
  unfold Ensures at h ⊢
  split at h
  · exact hP _ _ h
  · exact hQ _ _ h

/-- A call that suspends leaves the caller's frame below its own; one that ends goes
    on with the continuation. -/
theorem Ensures.andThen (h : r.Ensures (fun s frames => P s (frames ++ [frame])) Q')
    (hk : ∀ s signal, Q' s signal → (k s signal).Ensures P Q) :
    (r.andThen frame k).Ensures P Q := by
  unfold Ensures at h
  unfold Run.andThen
  split at h
  · exact h
  · exact hk _ _ h

/-- The run keeps an invariant over the state and the frames that are alive, those of
    the run itself and the `rest`. -/
def Keeps (r : Run σ φ ς) (I : σ → List φ → Prop) (rest : List φ) : Prop :=
  r.Ensures (fun s frames => I s (frames ++ rest)) fun s _ => I s rest

variable {I : σ → List φ → Prop} {rest : List φ}

theorem Keeps.andThen (h : r.Keeps I (frame :: rest))
    (hk : ∀ s signal, I s (frame :: rest) → (k s signal).Keeps I rest) :
    (r.andThen frame k).Keeps I rest := by
  refine Ensures.andThen ?_ hk
  exact h.mono (fun s frames hs => by simpa using hs) fun _ _ hs => hs

end Run

variable {σ φ ς : Type}

/-- Hand a signal to a stack of frames. -/
def deliver (react : σ → φ → ς → Run σ φ ς) (s : σ) : List φ → ς → Run σ φ ς
  | [], signal => .done s signal
  | frame :: frames, signal =>
    match (react s frame signal).result with
    | .suspended called => ⟨(react s frame signal).state, .suspended (called ++ frames)⟩
    | .done signal' => deliver react (react s frame signal).state frames signal'

/-- A frame that ends at once hands its signal to the frame below. -/
theorem deliver_done {react : σ → φ → ς → Run σ φ ς} {s s' : σ} {frame : φ} {signal signal' : ς}
    (h : react s frame signal = .done s' signal') (frames : List φ) :
    deliver react s (frame :: frames) signal = deliver react s' frames signal' := by
  simp only [deliver, h, Run.done]

/-- A stack of one frame does what the frame does. -/
theorem deliver_singleton (react : σ → φ → ς → Run σ φ ς) (s : σ) (frame : φ) (signal : ς) :
    deliver react s [frame] signal = react s frame signal := by
  simp only [deliver]
  generalize react s frame signal = run
  obtain ⟨state, result⟩ := run
  cases result with
  | suspended called => simp
  | done signal' => rfl

/-- What every frame does with its signal, a stack of frames does: `P` is what holds
    when a signal is handed to a stack, and `Q` what holds when it suspends. -/
theorem deliver_ensures {react : σ → φ → ς → Run σ φ ς} {P : σ → List φ → ς → Prop}
    {Q : σ → List φ → Prop}
    (h : ∀ s frame frames signal, P s (frame :: frames) signal →
      (react s frame signal).Ensures (fun s' called => Q s' (called ++ frames))
        fun s' signal' => P s' frames signal')
    {s : σ} {frames : List φ} {signal : ς} (hP : P s frames signal) :
    (deliver react s frames signal).Ensures Q fun s' signal' => P s' [] signal' := by
  induction frames generalizing s signal with
  | nil => exact hP
  | cons frame frames ih =>
    have hframe := h s frame frames signal hP
    unfold Run.Ensures at hframe
    simp only [deliver]
    split at hframe
    · exact hframe
    · exact ih hframe
