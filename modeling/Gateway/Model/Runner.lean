import Gateway.Lib.Channel
import Gateway.Lib.TransitionSystem

/-!
# The closed-loop runner

`Runner.runPhase` of `benchmark/internal/runner/runner.go`: the goroutines of one phase as a
transition system. An action is one step of one goroutine. `Client.Do` is a call and, some
time later, an answer with the sequence of its request; the other fields of a result are the
body. What the phase panics with is left out: a state that panicked has no steps.

`Warmup` and `Measure` run a phase each; the summaries they make of it are left out.
-/

namespace Gateway

/-- `client.Request`; `runStart` is `none` for the zero time. -/
structure RunnerRequest (κ : Type) where
  sequence : Int
  record : κ
  runStart : Option Nat
deriving DecidableEq, Repr

/-- `client.Result`: its sequence and the other fields. -/
structure RunnerResult (β : Type) where
  sequence : Int
  body : β
deriving DecidableEq, Repr, Inhabited

/-- What a phase is run with: the corpus, `Config.Concurrency`, and the arguments of
`runPhase`. -/
structure Phase (κ : Type) where
  records : List κ
  concurrency : Nat
  count : Nat
  warmup : Bool

namespace Phase

variable {κ : Type}

/-- `min(runner.config.Concurrency, count)` -/
def workers (p : Phase κ) : Nat := min p.concurrency p.count

/-- `persistedSequence` -/
def persisted (p : Phase κ) (sequence : Nat) : Int :=
  if p.warmup then -(sequence : Int) - 1 else sequence

/-- The index of a result in `ordered`. -/
def index (p : Phase κ) (sequence : Int) : Int :=
  if p.warmup then -sequence - 1 else sequence

end Phase

/-- Where a worker is. -/
inductive WorkerPoint (β : Type)
  /-- at `range jobs` -/
  | receiving
  | received (sequence : Nat)
  /-- in `Client.Do` -/
  | calling (sequence : Int)
  /-- at `results <-` -/
  | sending (result : RunnerResult β)
  | exited
deriving DecidableEq, Repr

/-- Where the goroutine that feeds the jobs is. -/
inductive FeederPoint
  /-- not started -/
  | absent
  /-- at the head of its loop -/
  | feeding (sequence : Nat)
  /-- at `wait.Wait()` -/
  | waiting
  /-- at `close(results)` -/
  | closing
  | exited
deriving DecidableEq, Repr

/-- Where `runPhase` itself is. -/
inductive RunPoint
  /-- in the loop that starts the workers -/
  | spawning
  /-- at `range results` -/
  | collecting
  | returned
deriving DecidableEq, Repr

/-- The state of a phase. `calls` and `answered` are what `Client.Do` was called with and
what it returned. -/
structure PhaseState (κ β : Type) where
  point : RunPoint
  feeder : FeederPoint
  workers : List (WorkerPoint β)
  wait : Nat
  start : Option Nat
  jobs : Chan Nat
  results : Chan (RunnerResult β)
  ordered : List (Option (RunnerResult β))
  calls : List (RunnerRequest κ)
  answered : List (RunnerResult β)
  panicked : Bool
deriving Repr

/-- One step of one goroutine. -/
inductive PhaseAction (β : Type)
  | spawn
  /-- `start = time.Now()`, and the feeder starts -/
  | launch (now : Nat)
  /-- the feeder and worker `w` meet at `jobs` -/
  | handOver (w : Nat)
  | call (w : Nat)
  | answer (w : Nat) (body : β)
  | send (w : Nat)
  /-- worker `w` leaves its loop: `wait.Done()` -/
  | exit (w : Nat)
  | closeJobs
  | waited
  | closeResults
  | collect

namespace PhaseState

variable {κ β : Type}

/-- The state in which `runPhase` has made its channels. -/
def init (p : Phase κ) : PhaseState κ β where
  point := .spawning
  feeder := .absent
  workers := []
  wait := p.workers
  start := none
  jobs := .new 0
  results := .new p.count
  ordered := List.replicate p.count none
  calls := []
  answered := []
  panicked := false

/-- A goroutine panics. -/
def panic (s : PhaseState κ β) : PhaseState κ β := { s with panicked := true }

/-- The steps of `runPhase` up to the collecting loop. -/
def spawn (p : Phase κ) (s : PhaseState κ β) : Option (PhaseState κ β) :=
  if s.point = .spawning ∧ s.workers.length < p.workers then
    some { s with workers := s.workers ++ [.receiving] }
  else none

def launch (p : Phase κ) (s : PhaseState κ β) (now : Nat) : Option (PhaseState κ β) :=
  if s.point = .spawning ∧ ¬ s.workers.length < p.workers then
    some { s with point := .collecting, feeder := .feeding 0, start := some now }
  else none

/-- `jobs <- sequence`, received by worker `w`. -/
def handOver (p : Phase κ) (s : PhaseState κ β) (w : Nat) : Option (PhaseState κ β) :=
  match s.feeder, s.workers[w]? with
  | .feeding n, some .receiving =>
    if n < p.count then
      match s.jobs.handOver with
      | .ok jobs =>
        some { s with feeder := .feeding (n + 1), workers := s.workers.set w (.received n)
                      jobs := jobs }
      | .blocks => none
      | .panics => some s.panic
    else none
  | _, _ => none

/-- `runner.config.Client.Do`, entered. -/
def call (p : Phase κ) (s : PhaseState κ β) (w : Nat) : Option (PhaseState κ β) :=
  match s.workers[w]? with
  | some (.received n) =>
    match p.records[n % p.records.length]? with
    | some record =>
      some { s with workers := s.workers.set w (.calling (p.persisted n))
                    calls := s.calls ++ [⟨p.persisted n, record, s.start⟩] }
    | none => some s.panic
  | _ => none

/-- `runner.config.Client.Do`, returned. -/
def answer (s : PhaseState κ β) (w : Nat) (body : β) : Option (PhaseState κ β) :=
  match s.workers[w]? with
  | some (.calling sequence) =>
    some { s with workers := s.workers.set w (.sending ⟨sequence, body⟩)
                  answered := s.answered ++ [⟨sequence, body⟩] }
  | _ => none

/-- `results <-` -/
def send (s : PhaseState κ β) (w : Nat) : Option (PhaseState κ β) :=
  match s.workers[w]? with
  | some (.sending result) =>
    match s.results.send result with
    | .ok results => some { s with workers := s.workers.set w .receiving, results := results }
    | .blocks => none
    | .panics => some s.panic
  | _ => none

/-- The end of `range jobs`, and `wait.Done()`. -/
def exit (s : PhaseState κ β) (w : Nat) : Option (PhaseState κ β) :=
  match s.workers[w]?, s.jobs.receive with
  | some .receiving, .ended =>
    if s.wait = 0 then some s.panic
    else some { s with workers := s.workers.set w .exited, wait := s.wait - 1 }
  | _, _ => none

/-- `close(jobs)` -/
def closeJobs (p : Phase κ) (s : PhaseState κ β) : Option (PhaseState κ β) :=
  match s.feeder with
  | .feeding n =>
    if n < p.count then none
    else
      match s.jobs.close with
      | .ok jobs => some { s with feeder := .waiting, jobs := jobs }
      | .blocks => none
      | .panics => some s.panic
  | _ => none

/-- `wait.Wait()` -/
def waited (s : PhaseState κ β) : Option (PhaseState κ β) :=
  if s.feeder = .waiting ∧ s.wait = 0 then some { s with feeder := .closing } else none

/-- `close(results)` -/
def closeResults (s : PhaseState κ β) : Option (PhaseState κ β) :=
  if s.feeder = .closing then
    match s.results.close with
    | .ok results => some { s with feeder := .exited, results := results }
    | .blocks => none
    | .panics => some s.panic
  else none

/-- One turn of the collecting loop. -/
def collect (p : Phase κ) (s : PhaseState κ β) : Option (PhaseState κ β) :=
  if s.point = .collecting then
    match s.results.receive with
    | .value result results =>
      let index := p.index result.sequence
      if 0 ≤ index ∧ index < s.ordered.length then
        some { s with results := results, ordered := s.ordered.set index.toNat (some result) }
      else some { s with results := results }.panic
    | .ended => some { s with point := .returned }
    | .blocks => none
  else none

/-- One step of one goroutine; `none` if it cannot be taken. -/
def step (p : Phase κ) (s : PhaseState κ β) (a : PhaseAction β) : Option (PhaseState κ β) :=
  if s.panicked then none
  else
    match a with
    | .spawn => s.spawn p
    | .launch now => s.launch p now
    | .handOver w => s.handOver p w
    | .call w => s.call p w
    | .answer w body => s.answer w body
    | .send w => s.send w
    | .exit w => s.exit w
    | .closeJobs => s.closeJobs p
    | .waited => s.waited
    | .closeResults => s.closeResults
    | .collect => s.collect p

end PhaseState

/-- The phase as a transition system: every schedule of its goroutines. -/
def phaseSystem {κ : Type} (β : Type) (p : Phase κ) : Lts (PhaseState κ β) (PhaseAction β) where
  Init s := s = .init p
  Step s a s' := s.step p a = some s'

end Gateway
