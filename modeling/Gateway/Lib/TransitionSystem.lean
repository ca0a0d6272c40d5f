import Mathlib.Logic.Basic

/-!
# Labelled transition systems

States, actions and a step relation, with the two notions of reachability the
developments over it use: every state (`Lts.Reachable`), and the states of the
runs whose steps all meet a condition on their source state and action
(`Lts.ReachableVia`).

## Key results

- `Lts.Inductive.holds`: an inductive predicate holds in every reachable state
- `Lts.RunVia.preserves`: what every step preserves, every run preserves
- `Lts.reachable_of_exec`: a state computed by an executable step function is
  reachable
- `Lts.ReachableVia.forget`: a history variable adds no behaviour
-/

/-- A labelled transition system. -/
structure Lts (σ α : Type) where
  /-- The initial states. -/
  Init : σ → Prop
  /-- `Step s a s'`: action `a` can take the system from `s` to `s'`. -/
  Step : σ → α → σ → Prop

namespace Lts

variable {σ α ε : Type} {T : Lts σ α} {ok : σ → α → Prop} {s s' s'' : σ} {a : α}

/-- The states of the runs whose steps all meet `ok`. -/
inductive ReachableVia (T : Lts σ α) (ok : σ → α → Prop) : σ → Prop
  | init {s : σ} (h : T.Init s) : ReachableVia T ok s
  | step {s s' : σ} {a : α} (h : ReachableVia T ok s) (hok : ok s a)
      (hstep : T.Step s a s') : ReachableVia T ok s'

/-- The states of all runs. -/
abbrev Reachable (T : Lts σ α) : σ → Prop := T.ReachableVia fun _ _ => True

/-- `RunVia ok s s'`: some run whose steps all meet `ok` leads from `s` to `s'`. -/
inductive RunVia (T : Lts σ α) (ok : σ → α → Prop) (s : σ) : σ → Prop
  | refl : RunVia T ok s s
  | tail {s' s'' : σ} {a : α} (h : RunVia T ok s s') (hok : ok s' a)
      (hstep : T.Step s' a s'') : RunVia T ok s s''

/-- Some run leads from one state to the other. -/
abbrev Run (T : Lts σ α) : σ → σ → Prop := T.RunVia fun _ _ => True

/-- A predicate that holds initially and that every step meeting `ok` preserves. -/
structure InductiveVia (T : Lts σ α) (ok : σ → α → Prop) (I : σ → Prop) : Prop where
  init : ∀ s, T.Init s → I s
  step : ∀ s a s', I s → ok s a → T.Step s a s' → I s'

/-- A predicate that holds initially and that every step preserves. -/
abbrev Inductive (T : Lts σ α) : (σ → Prop) → Prop := T.InductiveVia fun _ _ => True

/-- An inductive predicate holds in every state of the runs it is inductive for. -/
theorem InductiveVia.holds {I : σ → Prop} (hI : T.InductiveVia ok I)
    (h : T.ReachableVia ok s) : I s := by
  induction h with
  | init h => exact hI.init _ h
  | step _ hok hstep ih => exact hI.step _ _ _ ih hok hstep

/-- The conjunction of two predicates is inductive when the second is inductive
    relative to the first. -/
theorem InductiveVia.and {I J : σ → Prop} (hI : T.InductiveVia ok I)
    (hinit : ∀ s, T.Init s → J s)
    (hstep : ∀ s a s', I s → J s → ok s a → T.Step s a s' → J s') :
    T.InductiveVia ok fun s => I s ∧ J s where
  init s h := ⟨hI.init s h, hinit s h⟩
  step s a s' h hok hs := ⟨hI.step s a s' h.1 hok hs, hstep s a s' h.1 h.2 hok hs⟩

/-- A stronger condition on the steps keeps a predicate inductive. -/
theorem InductiveVia.mono {I : σ → Prop} {ok' : σ → α → Prop} (hI : T.InductiveVia ok I)
    (h : ∀ s a, ok' s a → ok s a) : T.InductiveVia ok' I where
  init := hI.init
  step s a s' hs hok hstep := hI.step s a s' hs (h s a hok) hstep

theorem ReachableVia.mono {ok' : σ → α → Prop} (h : T.ReachableVia ok s)
    (hok : ∀ s a, ok s a → ok' s a) : T.ReachableVia ok' s := by
  induction h with
  | init h => exact .init h
  | step _ ha hstep ih => exact .step ih (hok _ _ ha) hstep

/-- The states of a conditioned run are reachable. -/
theorem ReachableVia.reachable (h : T.ReachableVia ok s) : T.Reachable s :=
  h.mono fun _ _ _ => trivial

theorem RunVia.run (h : T.RunVia ok s s') : T.Run s s' := by
  induction h with
  | refl => exact .refl
  | tail _ _ hstep ih => exact .tail ih trivial hstep

theorem RunVia.trans (h : T.RunVia ok s s') (h' : T.RunVia ok s' s'') : T.RunVia ok s s'' := by
  induction h' with
  | refl => exact h
  | tail _ hok hstep ih => exact .tail ih hok hstep

/-- A run extends a reachable state to a reachable state. -/
theorem RunVia.reachableVia (h : T.RunVia ok s s') (hs : T.ReachableVia ok s) :
    T.ReachableVia ok s' := by
  induction h with
  | refl => exact hs
  | tail _ hok hstep ih => exact .step ih hok hstep

/-- What every step preserves, every run preserves. The step may use an
    inductive predicate `I` of its source state. -/
theorem RunVia.preserves {I P : σ → Prop} (h : T.RunVia ok s s')
    (hI : T.InductiveVia ok I) (hs : I s)
    (hstep : ∀ s a s', I s → P s → ok s a → T.Step s a s' → P s') (hP : P s) : P s' := by
  have key : I s' ∧ P s' := by
    induction h with
    | refl => exact ⟨hs, hP⟩
    | tail _ hok hst ih =>
      exact ⟨hI.step _ _ _ ih.1 hok hst, hstep _ _ _ ih.1 ih.2 hok hst⟩
  exact key.2

/-! ## Executable step functions -/

/-- The system of an executable step function. -/
def ofStep (Init : σ → Prop) (step : σ → α → Except ε σ) : Lts σ α where
  Init := Init
  Step s a s' := step s a = .ok s'

/-- Run an executable step function on a list of actions. -/
def exec (step : σ → α → Except ε σ) : σ → List α → Except ε σ
  | s, [] => .ok s
  | s, a :: as =>
    match step s a with
    | .ok s' => exec step s' as
    | .error e => .error e

/-- A state computed by the step function is the end of a run. -/
theorem run_of_exec {Init : σ → Prop} {step : σ → α → Except ε σ} {as : List α}
    (h : exec step s as = .ok s') : (ofStep Init step).Run s s' := by
  induction as generalizing s with
  | nil =>
    simp only [exec, Except.ok.injEq] at h
    exact h ▸ .refl
  | cons a as ih =>
    simp only [exec] at h
    split at h
    · rename_i t ht
      exact (RunVia.tail .refl trivial ht).trans (ih h)
    · exact nomatch h

/-- Actions that meet the condition in every state extend a run that meets it. -/
theorem ReachableVia.exec {Init : σ → Prop} {step : σ → α → Except ε σ} {l : List α}
    (hs : (ofStep Init step).ReachableVia ok s) (hok : ∀ a ∈ l, ∀ s, ok s a)
    (h : Lts.exec step s l = .ok s') : (ofStep Init step).ReachableVia ok s' := by
  induction l generalizing s with
  | nil =>
    simp only [Lts.exec, Except.ok.injEq] at h
    exact h ▸ hs
  | cons a as ih =>
    simp only [Lts.exec] at h
    split at h
    · next t ht =>
      have hnext := hs.step (hok a (List.mem_cons_self ..) s) ht
      exact ih hnext (fun a' ha' => hok a' (List.mem_cons_of_mem _ ha')) h
    · exact nomatch h

/-- A state computed from an initial state is reachable. -/
theorem reachable_of_exec {Init : σ → Prop} {step : σ → α → Except ε σ} {l : List α}
    (hs : Init s) (h : exec step s l = .ok s') : (ofStep Init step).Reachable s' :=
  (run_of_exec h).reachableVia (.init hs)

/-! ## History variables -/

section History

variable {γ : Type} {Init : σ → Prop} {step : σ → α → Except ε σ} {start : γ}
  {note : γ → σ → α → γ} {x y : σ × γ}

/-- One step, with what it adds to a history variable. -/
def noted (step : σ → α → Except ε σ) (note : γ → σ → α → γ) (x : σ × γ) (a : α) :
    Except ε (σ × γ) :=
  match step x.1 a with
  | .ok s' => .ok (s', note x.2 x.1 a)
  | .error e => .error e

/-- The system of a step function with a history variable that is `start` at first. -/
def withHistory (Init : σ → Prop) (step : σ → α → Except ε σ) (start : γ) (note : γ → σ → α → γ) :
    Lts (σ × γ) α :=
  ofStep (fun x => Init x.1 ∧ x.2 = start) (noted step note)

theorem noted_eq_ok : noted step note x a = .ok y ↔ step x.1 a = .ok y.1 ∧ y.2 = note x.2 x.1 a := by
  unfold noted
  cases h : step x.1 a with
  | error e => simp
  | ok s' =>
    simp only [Except.ok.injEq]
    constructor
    · rintro rfl
      exact ⟨rfl, rfl⟩
    · rintro ⟨rfl, hy⟩
      exact Prod.ext rfl hy.symm

/-- A history variable adds no behaviour: without it a run is a run. -/
theorem ReachableVia.forget {ok : σ × γ → α → Prop}
    (h : (withHistory Init step start note).ReachableVia ok x) :
    (ofStep Init step).Reachable x.1 := by
  induction h with
  | init h => exact .init h.1
  | step _ _ hstep ih => exact .step ih trivial (noted_eq_ok.mp hstep).1

end History

end Lts
