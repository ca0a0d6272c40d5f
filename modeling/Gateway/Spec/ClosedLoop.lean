import Mathlib.Algebra.GroupWithZero.Nat
import Mathlib.Data.List.Nodup
import Mathlib.Data.List.Perm.Basic
import Mathlib.Data.List.ReduceOption
import Gateway.Model.Runner

/-!
# The closed loop loses and repeats nothing

Every sequence number that was fed is in one place: in the hands of a worker, in the results
channel or in the slice of results. Three permutations say so, one for each of the things a
sequence turns into: a call, an answer, an entry (`Inventory`). `Control` says where the
goroutines can be at the same time.

Key results:
- `phaseGood_inductive`: both hold in every reachable state
- `closed_loop`: no panic, no deadlock, bounded concurrency, and the slice that is returned
-/

namespace Gateway

variable {κ β : Type}

namespace WorkerPoint

/-- A sequence that `Client.Do` has not been called with. -/
@[simp] def received? : WorkerPoint β → Option Nat
  | .received n => some n
  | _ => none

/-- A sequence that `Client.Do` is called with. -/
@[simp] def calling? : WorkerPoint β → Option Int
  | .calling sequence => some sequence
  | _ => none

/-- A result on its way. -/
@[simp] def sending? : WorkerPoint β → Option (RunnerResult β)
  | .sending result => some result
  | _ => none

/-- Whether the worker has called `wait.Done()`. -/
@[simp] def isExited : WorkerPoint β → Bool
  | .exited => true
  | _ => false

end WorkerPoint

namespace FeederPoint

/-- How many sequences were handed out. -/
def fed (count : Nat) : FeederPoint → Nat
  | .absent => 0
  | .feeding n => n
  | _ => count

/-- Whether `close(jobs)` was passed. -/
def pastJobs : FeederPoint → Bool
  | .waiting | .closing | .exited => true
  | _ => false

/-- Whether `wait.Wait()` was passed. -/
def pastWait : FeederPoint → Bool
  | .closing | .exited => true
  | _ => false

end FeederPoint

/-- The request of a sequence, if the corpus has a record for it. -/
def Phase.request? (p : Phase κ) (start : Option Nat) (sequence : Nat) :
    Option (RunnerRequest κ) :=
  p.records[sequence % p.records.length]?.map fun record =>
    ⟨p.persisted sequence, record, start⟩

namespace PhaseState

/-- The calls of `Client.Do` that have not returned. -/
def outstanding (s : PhaseState κ β) : List Int := s.workers.filterMap WorkerPoint.calling?

/-- The results that were put into the slice. -/
def collected (s : PhaseState κ β) : List (RunnerResult β) := s.ordered.reduceOption

/-- Where the goroutines are. -/
structure Control (p : Phase κ) (s : PhaseState κ β) : Prop where
  spawned : s.workers.length ≤ p.workers
  allSpawned : s.point ≠ .spawning → s.workers.length = p.workers
  absent : s.feeder = .absent ↔ s.point = .spawning
  fed : s.feeder.fed p.count ≤ p.count
  started : s.point ≠ .spawning → s.start.isSome
  wait : s.wait + s.workers.countP WorkerPoint.isExited = p.workers
  jobsEmpty : s.jobs.buffer = []
  jobsClosed : s.jobs.closed = s.feeder.pastJobs
  exited : s.jobs.closed = false → s.workers.countP WorkerPoint.isExited = 0
  waited : s.feeder.pastWait = true → s.wait = 0
  resultsClosed : s.results.closed = true ↔ s.feeder = .exited
  capacity : s.results.capacity = p.count
  length : s.ordered.length = p.count
  returned : s.point = .returned → s.results.closed = true ∧ s.results.buffer = []
  unharmed : s.panicked = false

/-- Where the sequences are. -/
structure Inventory (p : Phase κ) (s : PhaseState κ β) : Prop where
  called : ((List.range (s.feeder.fed p.count)).map (p.request? s.start)).Perm
    (s.calls.map some ++ (s.workers.filterMap WorkerPoint.received?).map (p.request? s.start))
  answered : (s.calls.map RunnerRequest.sequence).Perm
    (s.outstanding ++ s.answered.map RunnerResult.sequence)
  kept : s.answered.Perm
    (s.workers.filterMap WorkerPoint.sending? ++ s.results.buffer ++ s.collected)
  placed : ∀ i r, s.ordered[i]? = some (some r) → r.sequence = p.persisted i

/-- The invariant of a phase. -/
structure PhaseGood (p : Phase κ) (s : PhaseState κ β) : Prop where
  control : s.Control p
  inventory : s.Inventory p

/-! ### Workers -/

/-- One worker and the others, before and after a step of it. -/
theorem workers_perm {workers : List (WorkerPoint β)} {w : Nat} {a : WorkerPoint β}
    (h : workers[w]? = some a) :
    workers.Perm (a :: workers.eraseIdx w) ∧
      ∀ b, (workers.set w b).Perm (b :: workers.eraseIdx w) := by
  obtain ⟨hlt, rfl⟩ := List.getElem?_eq_some_iff.mp h
  exact ⟨(List.getElem_cons_eraseIdx_perm hlt).symm, fun b => List.set_perm_cons_eraseIdx hlt b⟩

/-! ### Sequences -/

theorem persisted_injective (p : Phase κ) : Function.Injective p.persisted := by
  intro m n h
  unfold Phase.persisted at h
  split at h <;> omega

@[simp] theorem index_persisted (p : Phase κ) (n : Nat) : p.index (p.persisted n) = n := by
  unfold Phase.index Phase.persisted
  split <;> omega

theorem request?_eq_some {p : Phase κ} (hrecords : p.records ≠ []) (start : Option Nat) (n : Nat) :
    ∃ record, p.records[n % p.records.length]? = some record ∧
      p.request? start n = some ⟨p.persisted n, record, start⟩ := by
  have hpos : 0 < p.records.length := List.length_pos_of_ne_nil hrecords
  have hlt : n % p.records.length < p.records.length := Nat.mod_lt n hpos
  obtain ⟨record, hrecord⟩ : ∃ record, p.records[n % p.records.length]? = some record :=
    ⟨_, List.getElem?_eq_getElem hlt⟩
  exact ⟨record, hrecord, by rw [Phase.request?, hrecord]; rfl⟩

variable {p : Phase κ} {s s' : PhaseState κ β}

/-- The sequences that were fed: called, or received by a worker that has yet to call. -/
theorem Inventory.sequences (h : s.Inventory p) (hrecords : p.records ≠ []) :
    ((List.range (s.feeder.fed p.count)).map p.persisted).Perm
      (s.calls.map RunnerRequest.sequence ++
        (s.workers.filterMap WorkerPoint.received?).map p.persisted) := by
  have hsequence : (fun n => (p.request? s.start n).map RunnerRequest.sequence) =
      fun n => some (p.persisted n) := by
    funext n
    obtain ⟨record, _, hrequest⟩ := request?_eq_some hrecords s.start n
    rw [hrequest]
    rfl
  have hperm := h.called.filterMap (Option.map RunnerRequest.sequence)
  simpa [List.filterMap_append, List.filterMap_map, Function.comp_def, hsequence] using hperm

theorem Inventory.calls_nodup (h : s.Inventory p) (hrecords : p.records ≠ []) :
    (s.calls.map RunnerRequest.sequence).Nodup := by
  have hnodup : ((List.range (s.feeder.fed p.count)).map p.persisted).Nodup :=
    List.Nodup.map (persisted_injective p) List.nodup_range
  exact (List.nodup_append.mp ((h.sequences hrecords).nodup_iff.mp hnodup)).1

theorem Inventory.answered_nodup (h : s.Inventory p) (hrecords : p.records ≠ []) :
    (s.answered.map RunnerResult.sequence).Nodup :=
  (List.nodup_append.mp (h.answered.nodup_iff.mp (h.calls_nodup hrecords))).2.1

/-- An answer is the answer to a sequence that was fed. -/
theorem Inventory.sequence_of_answered (h : s.Inventory p) (hrecords : p.records ≠ [])
    {r : RunnerResult β} (hr : r ∈ s.answered) :
    ∃ n < s.feeder.fed p.count, r.sequence = p.persisted n := by
  have hcalled : r.sequence ∈ s.calls.map RunnerRequest.sequence := by
    rw [h.answered.mem_iff]
    exact List.mem_append_right _ (List.mem_map_of_mem hr)
  have hfed : r.sequence ∈ (List.range (s.feeder.fed p.count)).map p.persisted := by
    rw [(h.sequences hrecords).mem_iff]
    exact List.mem_append_left _ hcalled
  obtain ⟨n, hn, heq⟩ := List.mem_map.mp hfed
  exact ⟨n, List.mem_range.mp hn, heq.symm⟩

/-- The results are at most as many as the sequences that were fed. -/
theorem Inventory.length_le (h : s.Inventory p) :
    (s.workers.filterMap WorkerPoint.sending?).length + s.results.buffer.length +
      s.collected.length ≤ s.feeder.fed p.count := by
  have hkept := h.kept.length_eq
  have hanswered := h.answered.length_eq
  have hcalled := h.called.length_eq
  simp only [List.length_append, List.length_map, List.length_range] at hkept hanswered hcalled
  omega

theorem Control.jobs_open (hcontrol : s.Control p) {n : Nat} (h : s.feeder = .feeding n) :
    s.jobs.closed = false := by
  rw [hcontrol.jobsClosed, h]
  rfl

theorem Control.results_open_of_closing (hcontrol : s.Control p) (h : s.feeder = .closing) :
    s.results.closed = false := by
  by_contra hclosed
  have hexited : s.feeder = .exited := hcontrol.resultsClosed.mp (by simpa using hclosed)
  rw [h] at hexited
  cases hexited

/-! ### The steps of the main goroutine -/

theorem PhaseGood.spawn (hgood : s.PhaseGood p) (hstep : s.spawn p = some s') : s'.PhaseGood p := by
  obtain ⟨hcontrol, hinventory⟩ := hgood
  unfold PhaseState.spawn at hstep
  split at hstep
  · next h =>
    cases hstep
    constructor
    · exact
        { hcontrol with
          spawned := by rw [List.length_append]; exact h.2
          allSpawned := fun hne => absurd h.1 hne
          wait := by simpa using hcontrol.wait
          exited := fun hopen => by simpa using hcontrol.exited hopen }
    · exact
        { called := by simpa [List.filterMap_cons] using hinventory.called
          answered := by simpa [outstanding, List.filterMap_cons] using hinventory.answered
          kept := by simpa [collected, List.filterMap_cons] using hinventory.kept
          placed := hinventory.placed }
  · cases hstep

theorem PhaseGood.launch {now : Nat} (hgood : s.PhaseGood p) (hstep : s.launch p now = some s') :
    s'.PhaseGood p := by
  obtain ⟨hcontrol, hinventory⟩ := hgood
  unfold PhaseState.launch at hstep
  split at hstep
  · next h =>
    cases hstep
    have habsent : s.feeder = .absent := hcontrol.absent.mpr h.1
    have hclosed : s.jobs.closed = false := by
      rw [hcontrol.jobsClosed, habsent]
      rfl
    -- nothing was called before the feeder starts
    have hnil := hinventory.called.symm
    rw [habsent] at hnil
    have hnone := List.append_eq_nil_iff.mp (List.perm_nil.mp hnil)
    constructor
    · exact
        { hcontrol with
          allSpawned := fun _ => by
            have hle := hcontrol.spawned
            have hnlt := h.2
            show s.workers.length = p.workers
            omega
          absent := by simp
          fed := Nat.zero_le _
          started := fun _ => rfl
          jobsClosed := hclosed
          waited := fun hpast => by cases hpast
          resultsClosed := by
            show s.results.closed = true ↔ _
            rw [hcontrol.resultsClosed, habsent]
            simp
          returned := fun hpoint => by cases hpoint }
    · exact
        { hinventory with
          called := by
            show List.Perm [] (s.calls.map some ++ _)
            rw [hnone.1, List.map_eq_nil_iff.mp hnone.2]
            exact List.Perm.refl _ }
  · cases hstep

/-! ### The steps of the workers -/

/-- What a worker contributes to a projection of the workers, before and after its step. -/
theorem filterMap_perm {γ : Type} {workers : List (WorkerPoint β)} {w : Nat} {a : WorkerPoint β}
    (h : workers[w]? = some a) (f : WorkerPoint β → Option γ) :
    (workers.filterMap f).Perm ((f a).toList ++ (workers.eraseIdx w).filterMap f) ∧
      ∀ b, ((workers.set w b).filterMap f).Perm
        ((f b).toList ++ (workers.eraseIdx w).filterMap f) := by
  have hcons : ∀ b, (b :: workers.eraseIdx w).filterMap f =
      (f b).toList ++ (workers.eraseIdx w).filterMap f := by
    intro b
    rw [List.filterMap_cons]
    cases f b <;> rfl
  constructor
  · rw [← hcons]
    exact (workers_perm h).1.filterMap f
  · intro b
    rw [← hcons]
    exact ((workers_perm h).2 b).filterMap f

/-- A projection that does not tell the two points of a worker apart. -/
theorem filterMap_set_perm {γ : Type} {workers : List (WorkerPoint β)} {w : Nat}
    {a : WorkerPoint β} (h : workers[w]? = some a) (f : WorkerPoint β → Option γ)
    (b : WorkerPoint β) (hsame : f b = f a) : ((workers.set w b).filterMap f).Perm (workers.filterMap f) := by
  obtain ⟨hbefore, hafter⟩ := filterMap_perm h f
  have hb := hafter b
  rw [hsame] at hb
  exact hb.trans hbefore.symm

theorem countP_set_workers {workers : List (WorkerPoint β)} {w : Nat} {a b : WorkerPoint β}
    (h : workers[w]? = some a) (ha : a.isExited = false) :
    (workers.set w b).countP WorkerPoint.isExited =
      workers.countP WorkerPoint.isExited + if b.isExited then 1 else 0 := by
  obtain ⟨hbefore, hafter⟩ := workers_perm h
  rw [hbefore.countP_eq, (hafter b).countP_eq, List.countP_cons, List.countP_cons, ha]
  rfl

/-- A worker that moves on without leaving its loop keeps the control. -/
theorem Control.setWorker (hcontrol : s.Control p) {w : Nat} {a b : WorkerPoint β}
    (h : s.workers[w]? = some a) (ha : a.isExited = false) (hb : b.isExited = false) :
    { s with workers := s.workers.set w b }.Control p := by
  have hcount : (s.workers.set w b).countP WorkerPoint.isExited =
      s.workers.countP WorkerPoint.isExited := by
    rw [countP_set_workers h ha, hb]
    rfl
  exact
    { hcontrol with
      spawned := by simpa using hcontrol.spawned
      allSpawned := fun hne => by simpa using hcontrol.allSpawned hne
      wait := by rw [hcount]; exact hcontrol.wait
      exited := fun hopen => by rw [hcount]; exact hcontrol.exited hopen }

theorem PhaseGood.handOver {w : Nat} (hgood : s.PhaseGood p)
    (hstep : s.handOver p w = some s') : s'.PhaseGood p := by
  obtain ⟨hcontrol, hinventory⟩ := hgood
  unfold PhaseState.handOver at hstep
  split at hstep
  · next n hfeeder hworker =>
    split at hstep
    · next hlt =>
      have hopen : s.jobs.closed = false := hcontrol.jobs_open hfeeder
      rw [Chan.handOver_of_open hopen hcontrol.jobsEmpty] at hstep
      cases hstep
      have hmoved := hcontrol.setWorker (b := .received n) hworker rfl rfl
      constructor
      · exact
          { hmoved with
            absent := by
              show (FeederPoint.feeding (n + 1) = .absent) ↔ s.point = .spawning
              rw [← hcontrol.absent, hfeeder]
              simp
            fed := hlt
            jobsClosed := hopen
            waited := fun hpast => by cases hpast
            resultsClosed := by
              show s.results.closed = true ↔ (FeederPoint.feeding (n + 1) = .exited)
              rw [hcontrol.resultsClosed, hfeeder]
              simp }
      · obtain ⟨hbefore, hafter⟩ := filterMap_perm hworker WorkerPoint.received?
        have hreceived : ((s.workers.set w (.received n)).filterMap WorkerPoint.received?).Perm
            (n :: s.workers.filterMap WorkerPoint.received?) :=
          (hafter (.received n)).trans (hbefore.symm.cons n)
        have hcalled := hinventory.called
        rw [hfeeder] at hcalled
        exact
          { called := by
              show ((List.range (n + 1)).map (p.request? s.start)).Perm _
              rw [List.range_succ, List.map_append]
              refine (hcalled.append_right _).trans ?_
              rw [List.append_assoc]
              apply List.Perm.append_left
              refine (List.perm_append_singleton _ _).trans ?_
              exact (hreceived.map (p.request? s.start)).symm
            answered :=
              hinventory.answered.trans ((filterMap_set_perm hworker WorkerPoint.calling?
                (.received n) rfl).symm.append_right _)
            kept := by
              have hsending := filterMap_set_perm hworker WorkerPoint.sending? (.received n) rfl
              exact hinventory.kept.trans ((hsending.symm.append_right _).append_right _)
            placed := hinventory.placed }
    · cases hstep
  · cases hstep

theorem PhaseGood.call {w : Nat} (hgood : s.PhaseGood p) (hrecords : p.records ≠ [])
    (hstep : s.call p w = some s') : s'.PhaseGood p := by
  obtain ⟨hcontrol, hinventory⟩ := hgood
  unfold PhaseState.call at hstep
  split at hstep
  · next n hworker =>
    obtain ⟨record, hrecord, hrequest⟩ := request?_eq_some hrecords s.start n
    rw [hrecord] at hstep
    cases hstep
    constructor
    · have hmoved := hcontrol.setWorker (b := .calling (p.persisted n)) hworker rfl rfl
      exact { hmoved with }
    · obtain ⟨hbefore, hafter⟩ := filterMap_perm hworker WorkerPoint.received?
      obtain ⟨hbefore', hafter'⟩ := filterMap_perm hworker WorkerPoint.calling?
      have hcalling : (outstanding { s with workers := s.workers.set w (.calling (p.persisted n)) }).Perm
          (p.persisted n :: s.outstanding) :=
        (hafter' (.calling (p.persisted n))).trans (hbefore'.symm.cons _)
      have hreceived : (s.workers.filterMap WorkerPoint.received?).Perm
          (n :: (s.workers.set w (.calling (p.persisted n))).filterMap WorkerPoint.received?) :=
        hbefore.trans ((hafter (.calling (p.persisted n))).symm.cons n)
      exact
        { called := by
            refine hinventory.called.trans ?_
            refine ((hreceived.map (p.request? s.start)).append_left _).trans ?_
            rw [List.map_cons, hrequest, List.map_append, List.append_assoc]
            exact List.Perm.refl _
          answered := by
            show ((s.calls ++ [_]).map RunnerRequest.sequence).Perm _
            rw [List.map_append]
            refine (List.perm_append_singleton _ _).trans ?_
            exact (hinventory.answered.cons _).trans (hcalling.symm.append_right _)
          kept := by
            have hsending :=
              filterMap_set_perm hworker WorkerPoint.sending? (.calling (p.persisted n)) rfl
            exact hinventory.kept.trans ((hsending.symm.append_right _).append_right _)
          placed := hinventory.placed }
  · cases hstep

theorem PhaseGood.answer {w : Nat} {body : β} (hgood : s.PhaseGood p)
    (hstep : s.answer w body = some s') : s'.PhaseGood p := by
  obtain ⟨hcontrol, hinventory⟩ := hgood
  unfold PhaseState.answer at hstep
  split at hstep
  · next sequence hworker =>
    cases hstep
    constructor
    · have hmoved := hcontrol.setWorker (b := .sending ⟨sequence, body⟩) hworker rfl rfl
      exact { hmoved with }
    · obtain ⟨hbefore, hafter⟩ := filterMap_perm hworker WorkerPoint.calling?
      obtain ⟨hbefore', hafter'⟩ := filterMap_perm hworker WorkerPoint.sending?
      have hcalling : s.outstanding.Perm
          (sequence :: outstanding { s with workers := s.workers.set w (.sending ⟨sequence, body⟩) }) :=
        hbefore.trans ((hafter (.sending ⟨sequence, body⟩)).symm.cons _)
      have hsending : ((s.workers.set w (.sending ⟨sequence, body⟩)).filterMap
          WorkerPoint.sending?).Perm (⟨sequence, body⟩ :: s.workers.filterMap WorkerPoint.sending?) :=
        (hafter' (.sending ⟨sequence, body⟩)).trans (hbefore'.symm.cons _)
      exact
        { called := by
            have hreceived := filterMap_set_perm hworker WorkerPoint.received?
              (.sending ⟨sequence, body⟩) rfl
            exact hinventory.called.trans ((hreceived.symm.map _).append_left _)
          answered := by
            refine hinventory.answered.trans ((hcalling.append_right _).trans ?_)
            show (sequence :: _).Perm (_ ++ (s.answered ++ [_]).map RunnerResult.sequence)
            rw [List.map_append, ← List.append_assoc]
            exact (List.perm_append_singleton _ _).symm
          kept := by
            refine (List.perm_append_singleton _ _).trans ?_
            refine (hinventory.kept.cons _).trans ?_
            exact (hsending.symm.append_right _).append_right _
          placed := hinventory.placed }
  · cases hstep

/-- While a worker is in its loop, nobody has passed `wait.Wait()`. -/
theorem Control.wait_pos (hcontrol : s.Control p) {w : Nat} {a : WorkerPoint β}
    (h : s.workers[w]? = some a) (ha : a.isExited = false) : 0 < s.wait := by
  have hlt : s.workers.countP WorkerPoint.isExited < s.workers.length := by
    have hperm := (workers_perm h).1
    have hle : (s.workers.eraseIdx w).countP WorkerPoint.isExited ≤ (s.workers.eraseIdx w).length :=
      List.countP_le_length
    rw [hperm.countP_eq, hperm.length_eq, List.countP_cons, ha, List.length_cons]
    exact Nat.lt_succ_of_le hle
  have hwait := hcontrol.wait
  have hle := hcontrol.spawned
  omega

theorem Control.results_open (hcontrol : s.Control p) {w : Nat} {a : WorkerPoint β}
    (h : s.workers[w]? = some a) (ha : a.isExited = false) : s.results.closed = false := by
  by_contra hclosed
  have hexited : s.feeder = .exited := hcontrol.resultsClosed.mp (by simpa using hclosed)
  have hzero : s.wait = 0 := hcontrol.waited (by rw [hexited]; rfl)
  have hpos := hcontrol.wait_pos h ha
  omega

/-- A worker that has a result finds room for it. -/
theorem PhaseGood.send_eq {w : Nat} {result : RunnerResult β} (hgood : s.PhaseGood p)
    (h : s.workers[w]? = some (.sending result)) :
    s.results.send result = .ok { s.results with buffer := s.results.buffer ++ [result] } := by
  apply Chan.send_of_open (hgood.control.results_open h rfl)
  have hsending := (filterMap_perm h WorkerPoint.sending?).1.length_eq
  have hle := hgood.inventory.length_le
  have hfed := hgood.control.fed
  rw [hgood.control.capacity]
  simp only [WorkerPoint.sending?, Option.toList_some, List.length_append, List.length_singleton]
    at hsending
  omega

theorem PhaseGood.send {w : Nat} (hgood : s.PhaseGood p) (hstep : s.send w = some s') :
    s'.PhaseGood p := by
  obtain ⟨hcontrol, hinventory⟩ := id hgood
  unfold PhaseState.send at hstep
  split at hstep
  · next result hworker =>
    rw [hgood.send_eq hworker] at hstep
    cases hstep
    constructor
    · have hmoved := hcontrol.setWorker (b := .receiving) hworker rfl rfl
      have hopen := hcontrol.results_open hworker rfl
      exact
        { hmoved with
          returned := fun hpoint => by
            have hclosed := (hcontrol.returned hpoint).1
            rw [hopen] at hclosed
            cases hclosed }
    · obtain ⟨hbefore, hafter⟩ := filterMap_perm hworker WorkerPoint.sending?
      have hsending : (s.workers.filterMap WorkerPoint.sending?).Perm
          (result :: (s.workers.set w .receiving).filterMap WorkerPoint.sending?) :=
        hbefore.trans ((hafter .receiving).symm.cons _)
      exact
        { called := by
            have hreceived := filterMap_set_perm hworker WorkerPoint.received? .receiving rfl
            exact hinventory.called.trans ((hreceived.symm.map _).append_left _)
          answered := by
            have hcalling := filterMap_set_perm hworker WorkerPoint.calling? .receiving rfl
            exact hinventory.answered.trans (hcalling.symm.append_right _)
          kept := by
            refine hinventory.kept.trans ?_
            apply List.Perm.append_right
            refine (hsending.append_right _).trans ?_
            show (result :: _).Perm (_ ++ (s.results.buffer ++ [result]))
            rw [← List.append_assoc]
            exact (List.perm_append_singleton _ _).symm
          placed := hinventory.placed }
  · cases hstep

theorem PhaseGood.exit {w : Nat} (hgood : s.PhaseGood p) (hstep : s.exit w = some s') :
    s'.PhaseGood p := by
  obtain ⟨hcontrol, hinventory⟩ := hgood
  unfold PhaseState.exit at hstep
  split at hstep
  · next hworker hended =>
    have hpos : 0 < s.wait := hcontrol.wait_pos hworker rfl
    have hclosed : s.jobs.closed = true := by
      by_contra hopen
      rw [Chan.receive_nil hcontrol.jobsEmpty, if_neg hopen] at hended
      cases hended
    rw [if_neg (Nat.ne_of_gt hpos)] at hstep
    cases hstep
    have hcount : (s.workers.set w .exited).countP WorkerPoint.isExited =
        s.workers.countP WorkerPoint.isExited + 1 := countP_set_workers hworker rfl
    constructor
    · exact
        { hcontrol with
          spawned := by simpa using hcontrol.spawned
          allSpawned := fun hne => by simpa using hcontrol.allSpawned hne
          wait := by
            have hwait := hcontrol.wait
            show s.wait - 1 + (s.workers.set w .exited).countP WorkerPoint.isExited = p.workers
            omega
          exited := fun hopen => by
            rw [hclosed] at hopen
            cases hopen
          waited := fun hpast => by
            have hzero := hcontrol.waited hpast
            show s.wait - 1 = 0
            omega }
    · exact
        { called := by
            have hreceived := filterMap_set_perm hworker WorkerPoint.received? .exited rfl
            exact hinventory.called.trans ((hreceived.symm.map _).append_left _)
          answered := by
            have hcalling := filterMap_set_perm hworker WorkerPoint.calling? .exited rfl
            exact hinventory.answered.trans (hcalling.symm.append_right _)
          kept := by
            have hsending := filterMap_set_perm hworker WorkerPoint.sending? .exited rfl
            exact hinventory.kept.trans ((hsending.symm.append_right _).append_right _)
          placed := hinventory.placed }
  · cases hstep

/-! ### The steps of the feeder -/

theorem PhaseGood.closeJobs (hgood : s.PhaseGood p) (hstep : s.closeJobs p = some s') :
    s'.PhaseGood p := by
  obtain ⟨hcontrol, hinventory⟩ := hgood
  unfold PhaseState.closeJobs at hstep
  split at hstep
  · next n hfeeder =>
    split at hstep
    · cases hstep
    · next hnlt =>
      have hopen : s.jobs.closed = false := hcontrol.jobs_open hfeeder
      have hcount : n = p.count := by
        have hfed := hcontrol.fed
        rw [hfeeder] at hfed
        exact Nat.le_antisymm hfed (Nat.le_of_not_lt hnlt)
      rw [Chan.close_of_open hopen] at hstep
      cases hstep
      constructor
      · exact
          { hcontrol with
            absent := by
              rw [← hcontrol.absent, hfeeder]
              simp
            fed := Nat.le_refl _
            jobsEmpty := hcontrol.jobsEmpty
            jobsClosed := rfl
            exited := fun hopen' => by cases hopen'
            waited := fun hpast => by cases hpast
            resultsClosed := by
              rw [hcontrol.resultsClosed, hfeeder]
              simp }
      · have hcalled := hinventory.called
        rw [hfeeder] at hcalled
        exact
          { hinventory with
            called := by
              show ((List.range p.count).map (p.request? s.start)).Perm _
              rw [← hcount]
              exact hcalled }
  · cases hstep

theorem PhaseGood.waited (hgood : s.PhaseGood p) (hstep : s.waited = some s') :
    s'.PhaseGood p := by
  obtain ⟨hcontrol, hinventory⟩ := hgood
  unfold PhaseState.waited at hstep
  split at hstep
  · next h =>
    cases hstep
    constructor
    · exact
        { hcontrol with
          absent := by
            rw [← hcontrol.absent, h.1]
            simp
          fed := Nat.le_refl _
          jobsClosed := by
            rw [hcontrol.jobsClosed, h.1]
            rfl
          waited := fun _ => h.2
          resultsClosed := by
            rw [hcontrol.resultsClosed, h.1]
            simp }
    · have hcalled := hinventory.called
      rw [h.1] at hcalled
      exact { hinventory with called := hcalled }
  · cases hstep

theorem PhaseGood.closeResults (hgood : s.PhaseGood p) (hstep : s.closeResults = some s') :
    s'.PhaseGood p := by
  obtain ⟨hcontrol, hinventory⟩ := hgood
  unfold PhaseState.closeResults at hstep
  split at hstep
  · next hfeeder =>
    have hopen : s.results.closed = false := hcontrol.results_open_of_closing hfeeder
    rw [Chan.close_of_open hopen] at hstep
    cases hstep
    constructor
    · exact
        { hcontrol with
          absent := by
            rw [← hcontrol.absent, hfeeder]
            simp
          fed := Nat.le_refl _
          jobsClosed := by
            rw [hcontrol.jobsClosed, hfeeder]
            rfl
          waited := fun _ => hcontrol.waited (by rw [hfeeder]; rfl)
          resultsClosed := by simp
          capacity := hcontrol.capacity
          returned := fun hpoint => by
            have hclosed := (hcontrol.returned hpoint).1
            rw [hopen] at hclosed
            cases hclosed }
    · have hcalled := hinventory.called
      rw [hfeeder] at hcalled
      exact { hinventory with called := hcalled }
  · cases hstep

/-! ### The collecting loop -/

/-- A result is put into a free entry. -/
theorem reduceOption_set_perm {α : Type} {l : List (Option α)} {i : Nat} (h : l[i]? = some none)
    (a : α) : ((l.set i (some a)).reduceOption).Perm (a :: l.reduceOption) := by
  obtain ⟨hlt, hnone⟩ := List.getElem?_eq_some_iff.mp h
  have hbefore : (none :: l.eraseIdx i).Perm l := by
    rw [← hnone]
    exact List.getElem_cons_eraseIdx_perm hlt
  have hafter := (List.set_perm_cons_eraseIdx hlt (some a)).filterMap id
  have hold := hbefore.filterMap id
  rw [List.filterMap_cons_none (by rfl)] at hold
  rw [List.filterMap_cons_some (b := a) (by rfl)] at hafter
  exact hafter.trans (hold.cons a)

/-- The result that is received next belongs at an index of the slice that is still free. -/
theorem PhaseGood.free (hgood : s.PhaseGood p) (hrecords : p.records ≠ [])
    {r : RunnerResult β} {buffer : List (RunnerResult β)} (h : s.results.buffer = r :: buffer) :
    ∃ n, r.sequence = p.persisted n ∧ s.ordered[n]? = some none := by
  obtain ⟨hcontrol, hinventory⟩ := hgood
  have hkept := hinventory.kept
  rw [h] at hkept
  have hanswered : r ∈ s.answered := by
    rw [hkept.mem_iff]
    simp
  obtain ⟨n, hn, hsequence⟩ := hinventory.sequence_of_answered hrecords hanswered
  have hlt : n < s.ordered.length := by
    have hfed := hcontrol.fed
    rw [hcontrol.length]
    omega
  refine ⟨n, hsequence, ?_⟩
  rw [List.getElem?_eq_getElem hlt]
  cases hentry : s.ordered[n] with
  | none => rfl
  | some r' =>
    -- two results of one sequence
    exfalso
    have hplaced : s.ordered[n]? = some (some r') := by rw [List.getElem?_eq_getElem hlt, hentry]
    have hsame : r'.sequence = r.sequence := (hinventory.placed n r' hplaced).trans hsequence.symm
    have hcollected : r' ∈ s.collected := by
      rw [collected, List.reduceOption_mem_iff]
      exact List.mem_of_getElem? hplaced
    have hnodup := (hkept.map RunnerResult.sequence).nodup_iff.mp
      (hinventory.answered_nodup hrecords)
    rw [List.map_append, List.nodup_append] at hnodup
    refine hnodup.2.2 r.sequence ?_ r'.sequence (List.mem_map_of_mem hcollected) hsame.symm
    simp

theorem PhaseGood.collect (hgood : s.PhaseGood p) (hrecords : p.records ≠ [])
    (hstep : s.collect p = some s') : s'.PhaseGood p := by
  obtain ⟨hcontrol, hinventory⟩ := id hgood
  unfold PhaseState.collect at hstep
  split at hstep
  · next hpoint =>
    cases hbuffer : s.results.buffer with
    | nil =>
      rw [Chan.receive_nil hbuffer] at hstep
      cases hclosed : s.results.closed with
      | false => simp [hclosed] at hstep
      | true =>
        rw [hclosed] at hstep
        cases hstep
        constructor
        · exact
            { hcontrol with
              allSpawned := fun _ => hcontrol.allSpawned (by rw [hpoint]; simp)
              absent := by
                rw [hcontrol.absent, hpoint]
                simp
              started := fun _ => hcontrol.started (by rw [hpoint]; simp)
              returned := fun _ => ⟨hclosed, hbuffer⟩ }
        · exact { hinventory with }
    | cons r buffer =>
      rw [Chan.receive_cons hbuffer] at hstep
      obtain ⟨n, hsequence, hfree⟩ := hgood.free hrecords hbuffer
      obtain ⟨hlt, hnone⟩ := List.getElem?_eq_some_iff.mp hfree
      have hrange : 0 ≤ p.index r.sequence ∧ p.index r.sequence < s.ordered.length := by
        rw [hsequence, index_persisted]
        omega
      dsimp only at hstep
      rw [if_pos hrange, hsequence, index_persisted] at hstep
      cases hstep
      constructor
      · exact
          { hcontrol with
            resultsClosed := hcontrol.resultsClosed
            capacity := hcontrol.capacity
            length := by
              show (s.ordered.set n (some r)).length = p.count
              rw [List.length_set]
              exact hcontrol.length
            returned := fun hreturned => by
              rw [hpoint] at hreturned
              cases hreturned }
      · have hkept := hinventory.kept
        rw [hbuffer] at hkept
        have hcollected : ((s.ordered.set n (some r)).reduceOption).Perm (r :: s.collected) :=
          reduceOption_set_perm hfree r
        exact
          { hinventory with
            kept := by
              refine hkept.trans ?_
              show (_ ++ r :: buffer ++ s.collected).Perm
                (_ ++ buffer ++ (s.ordered.set n (some r)).reduceOption)
              rw [List.append_assoc, List.append_assoc]
              apply List.Perm.append_left
              exact List.perm_middle.symm.trans (hcollected.symm.append_left buffer)
            placed := by
              intro i r' h
              change (s.ordered.set n (some r))[i]? = some (some r') at h
              rw [List.getElem?_set] at h
              split at h
              · next heq =>
                cases h
                rw [← heq]
                exact hsequence
              · exact hinventory.placed i r' h }
  · cases hstep

/-! ### All steps -/

theorem phaseGood_init (p : Phase κ) : (PhaseState.init p : PhaseState κ β).PhaseGood p where
  control :=
    { spawned := Nat.zero_le _
      allSpawned := fun hne => absurd rfl hne
      absent := ⟨fun _ => rfl, fun _ => rfl⟩
      fed := Nat.zero_le _
      started := fun hne => absurd rfl hne
      wait := rfl
      jobsEmpty := rfl
      jobsClosed := rfl
      exited := fun _ => rfl
      waited := fun hpast => by cases hpast
      resultsClosed := by simp [init, Chan.new]
      capacity := rfl
      length := List.length_replicate
      returned := fun hpoint => by cases hpoint
      unharmed := rfl }
  inventory :=
    { called := List.Perm.refl _
      answered := List.Perm.refl _
      kept := by
        show List.Perm [] ([] ++ [] ++ (List.replicate p.count none).reduceOption)
        rw [List.reduceOption_replicate_none]
        exact List.Perm.refl _
      placed := by
        intro i r h
        have hmem := List.mem_of_getElem? h
        simp [init] at hmem }

theorem PhaseGood.step {a : PhaseAction β} (hgood : s.PhaseGood p) (hrecords : p.records ≠ [])
    (hstep : s.step p a = some s') : s'.PhaseGood p := by
  unfold PhaseState.step at hstep
  rw [if_neg (by simp [hgood.control.unharmed])] at hstep
  cases a with
  | spawn => exact hgood.spawn hstep
  | launch now => exact hgood.launch hstep
  | handOver w => exact hgood.handOver hstep
  | call w => exact hgood.call hrecords hstep
  | answer w body => exact hgood.answer hstep
  | send w => exact hgood.send hstep
  | exit w => exact hgood.exit hstep
  | closeJobs => exact hgood.closeJobs hstep
  | waited => exact hgood.waited hstep
  | closeResults => exact hgood.closeResults hstep
  | collect => exact hgood.collect hrecords hstep

theorem phaseGood_inductive (hrecords : p.records ≠ []) :
    (phaseSystem β p).Inductive (PhaseGood p) where
  init := by
    rintro s rfl
    exact phaseGood_init p
  step _ _ _ hgood _ hstep := hgood.step hrecords hstep

/-! ### Progress -/

/-- `runPhase` has returned and its goroutines have ended. -/
structure Finished (s : PhaseState κ β) : Prop where
  point : s.point = .returned
  feeder : s.feeder = .exited
  workers : ∀ w ∈ s.workers, w.isExited = true

theorem PhaseGood.step_eq (hgood : s.PhaseGood p) (a : PhaseAction β) :
    s.step p a = match a with
      | .spawn => s.spawn p
      | .launch now => s.launch p now
      | .handOver w => s.handOver p w
      | .call w => s.call p w
      | .answer w body => s.answer w body
      | .send w => s.send w
      | .exit w => s.exit w
      | .closeJobs => s.closeJobs p
      | .waited => s.waited
      | .closeResults => s.closeResults
      | .collect => s.collect p :=
  if_neg (by simp [hgood.control.unharmed])

/-- A worker that has a sequence or a result can go on. -/
theorem PhaseGood.busy_step [Inhabited β] (hgood : s.PhaseGood p) (hrecords : p.records ≠ [])
    {w : Nat} {a : WorkerPoint β} (h : s.workers[w]? = some a) (hreceiving : a ≠ .receiving)
    (hexited : a ≠ .exited) : ∃ a, (s.step p a).isSome := by
  cases a with
  | receiving => exact absurd rfl hreceiving
  | exited => exact absurd rfl hexited
  | received n =>
    obtain ⟨record, hrecord, -⟩ := request?_eq_some hrecords s.start n
    exact ⟨.call w, by simp [hgood.step_eq, PhaseState.call, h, hrecord]⟩
  | calling sequence =>
    exact ⟨.answer w default, by simp [hgood.step_eq, PhaseState.answer, h]⟩
  | sending result =>
    exact ⟨.send w, by simp [hgood.step_eq, PhaseState.send, h, hgood.send_eq h]⟩

theorem PhaseGood.exited_of_wait (hgood : s.PhaseGood p) (hpoint : s.point ≠ .spawning)
    (hwait : s.wait = 0) : ∀ w ∈ s.workers, w.isExited = true := by
  have hcount := hgood.control.wait
  have hall := hgood.control.allSpawned hpoint
  rw [hwait, Nat.zero_add, ← hall] at hcount
  exact List.countP_eq_length.mp hcount

/-- With nothing to collect and every worker waiting, the feeder or a worker can go on. -/
theorem PhaseGood.idle_step (hgood : s.PhaseGood p) (hworkers : 0 < p.workers)
    (hpoint : s.point = .collecting) (hbuffer : s.results.buffer = [])
    (hidle : ∀ (w : Nat) (a : WorkerPoint β), s.workers[w]? = some a → a = .receiving ∨ a = .exited) :
    ∃ a, (s.step p a).isSome := by
  have hcontrol := hgood.control
  have hspawned : s.point ≠ .spawning := by
    rw [hpoint]
    simp
  have hlength : s.workers.length = p.workers := hcontrol.allSpawned hspawned
  cases hfeeder : s.feeder with
  | absent => exact absurd (hcontrol.absent.mp hfeeder) hspawned
  | feeding n =>
    have hopen : s.jobs.closed = false := hcontrol.jobs_open hfeeder
    by_cases hlt : n < p.count
    · -- the first worker has not left its loop, since the jobs are not closed
      have hfirst : s.workers[0]? = some s.workers[0] := List.getElem?_eq_getElem (by omega)
      have hreceiving : s.workers[0] = .receiving := by
        rcases hidle 0 _ hfirst with h | h
        · exact h
        · have hnone := List.countP_eq_zero.mp (hcontrol.exited hopen) _
            (List.mem_of_getElem? hfirst)
          rw [h] at hnone
          exact absurd rfl hnone
      rw [hreceiving] at hfirst
      have hjobs := Chan.handOver_of_open hopen hcontrol.jobsEmpty
      exact ⟨.handOver 0, by simp [hgood.step_eq, PhaseState.handOver, hfeeder, hfirst, hlt, hjobs]⟩
    · have hjobs := Chan.close_of_open hopen
      exact ⟨.closeJobs, by simp [hgood.step_eq, PhaseState.closeJobs, hfeeder, hlt, hjobs]⟩
  | waiting =>
    by_cases hwait : s.wait = 0
    · exact ⟨.waited, by simp [hgood.step_eq, PhaseState.waited, hfeeder, hwait]⟩
    · -- a worker is still there, and its loop has ended
      have hclosed : s.jobs.closed = true := by
        rw [hcontrol.jobsClosed, hfeeder]
        rfl
      have hended : s.jobs.receive = .ended := by
        rw [Chan.receive_nil hcontrol.jobsEmpty, if_pos hclosed]
      obtain ⟨a, hmem, ha⟩ : ∃ a ∈ s.workers, a.isExited = false := by
        by_contra hnone
        push Not at hnone
        have hall : s.workers.countP WorkerPoint.isExited = s.workers.length :=
          List.countP_eq_length.mpr fun a hmem => by simpa using hnone a hmem
        have hsum := hcontrol.wait
        omega
      obtain ⟨w, hw⟩ := List.mem_iff_getElem?.mp hmem
      have hreceiving : a = .receiving := by
        rcases hidle w a hw with h | h
        · exact h
        · rw [h] at ha
          cases ha
      rw [hreceiving] at hw
      exact ⟨.exit w, by simp [hgood.step_eq, PhaseState.exit, hw, hended, hwait]⟩
  | closing =>
    have hopen : s.results.closed = false := hcontrol.results_open_of_closing hfeeder
    have hresults := Chan.close_of_open hopen
    exact ⟨.closeResults, by simp [hgood.step_eq, PhaseState.closeResults, hfeeder, hresults]⟩
  | exited =>
    have hclosed : s.results.closed = true := hcontrol.resultsClosed.mpr hfeeder
    have hended : s.results.receive = .ended := by
      rw [Chan.receive_nil hbuffer, if_pos hclosed]
    exact ⟨.collect, by simp [hgood.step_eq, PhaseState.collect, hpoint, hended]⟩

/-- The goroutines are never all blocked before they are done. -/
theorem PhaseGood.progress [Inhabited β] (hgood : s.PhaseGood p) (hrecords : p.records ≠ [])
    (hworkers : 0 < p.workers) (hfinished : ¬ s.Finished) : ∃ a, (s.step p a).isSome := by
  have hcontrol := hgood.control
  cases hpoint : s.point with
  | spawning =>
    by_cases hlt : s.workers.length < p.workers
    · exact ⟨.spawn, by simp [hgood.step_eq, PhaseState.spawn, hpoint, hlt]⟩
    · exact ⟨.launch 0, by simp [hgood.step_eq, PhaseState.launch, hpoint, hlt]⟩
  | returned =>
    exfalso
    have hexited := hcontrol.resultsClosed.mp (hcontrol.returned hpoint).1
    have hwait : s.wait = 0 := hcontrol.waited (by rw [hexited]; rfl)
    exact hfinished ⟨hpoint, hexited, hgood.exited_of_wait (by rw [hpoint]; simp) hwait⟩
  | collecting =>
    cases hbuffer : s.results.buffer with
    | cons r buffer =>
      obtain ⟨n, hsequence, hfree⟩ := hgood.free hrecords hbuffer
      obtain ⟨hlt, -⟩ := List.getElem?_eq_some_iff.mp hfree
      exact ⟨.collect, by
        simp [hgood.step_eq, PhaseState.collect, hpoint, Chan.receive_cons hbuffer, hsequence, hlt]⟩
    | nil =>
      by_cases hbusy : ∃ (w : Nat) (a : WorkerPoint β), s.workers[w]? = some a ∧ ¬ (a = .receiving ∨ a = .exited)
      · obtain ⟨w, a, h, hne⟩ := hbusy
        exact hgood.busy_step hrecords h (fun h => hne (Or.inl h)) fun h => hne (Or.inr h)
      · push Not at hbusy
        exact hgood.idle_step hworkers hpoint hbuffer hbusy

/-! ### The result of a phase -/

/-- A worker is in the hands of at most one call. -/
theorem Control.outstanding_le (hcontrol : s.Control p) : s.outstanding.length ≤ p.workers :=
  Nat.le_trans (List.length_filterMap_le _ _) hcontrol.spawned

theorem Inventory.call_eq (h : s.Inventory p) (hcontrol : s.Control p)
    {call : RunnerRequest κ} (hcall : call ∈ s.calls) :
    ∃ n < p.count, p.request? s.start n = some call := by
  have hmem : some call ∈ (List.range (s.feeder.fed p.count)).map (p.request? s.start) := by
    rw [h.called.mem_iff]
    exact List.mem_append_left _ (List.mem_map_of_mem hcall)
  obtain ⟨n, hn, heq⟩ := List.mem_map.mp hmem
  have hlt : n < s.feeder.fed p.count := List.mem_range.mp hn
  exact ⟨n, Nat.lt_of_lt_of_le hlt hcontrol.fed, heq⟩

/-- What has become of the sequences when `runPhase` returns. -/
structure Complete (p : Phase κ) (s : PhaseState κ β) : Prop where
  called : (s.calls.map some).Perm ((List.range p.count).map (p.request? s.start))
  length : s.ordered.length = p.count
  entry : ∀ i < p.count, ∃ r ∈ s.answered, s.ordered[i]? = some (some r) ∧
    r.sequence = p.persisted i

theorem PhaseGood.complete (hgood : s.PhaseGood p) (hpoint : s.point = .returned) :
    s.Complete p := by
  obtain ⟨hcontrol, hinventory⟩ := id hgood
  obtain ⟨hclosed, hbuffer⟩ := hcontrol.returned hpoint
  have hfeeder : s.feeder = .exited := hcontrol.resultsClosed.mp hclosed
  have hwait : s.wait = 0 := hcontrol.waited (by rw [hfeeder]; rfl)
  have hexited := hgood.exited_of_wait (by rw [hpoint]; simp) hwait
  have hidle : ∀ {γ : Type} (f : WorkerPoint β → Option γ), f .exited = none →
      s.workers.filterMap f = [] := by
    intro γ f hf
    apply List.filterMap_eq_nil_iff.mpr
    intro w hw
    have hw' := hexited w hw
    cases w with
    | exited => exact hf
    | _ => cases hw'
  have hcalled := hinventory.called
  rw [hidle _ rfl, hfeeder] at hcalled
  have hkept := hinventory.kept
  rw [hidle _ rfl, hbuffer] at hkept
  refine ⟨?_, hcontrol.length, ?_⟩
  · simpa [FeederPoint.fed] using hcalled.symm
  · intro i hi
    -- the results in the slice are as many as its entries, so none is free
    have hcount : s.collected.length = p.count := by
      have hkept' := hkept.length_eq
      have hanswered := hinventory.answered.length_eq
      have hcalled' := hcalled.length_eq
      have hcalling : s.outstanding = [] := hidle _ rfl
      rw [hcalling] at hanswered
      simp only [List.length_append, List.length_map, List.length_range, List.length_nil,
        List.map_nil, FeederPoint.fed] at hkept' hanswered hcalled'
      omega
    have hall : ∀ entry ∈ s.ordered, entry.isSome := by
      rw [← List.reduceOption_length_eq_iff]
      exact hcount.trans hcontrol.length.symm
    have hlt : i < s.ordered.length := by rwa [hcontrol.length]
    obtain ⟨r, hr⟩ := Option.isSome_iff_exists.mp (hall _ (List.getElem_mem hlt))
    have hentry : s.ordered[i]? = some (some r) := by rw [List.getElem?_eq_getElem hlt, hr]
    refine ⟨r, ?_, hentry, hinventory.placed i r hentry⟩
    rw [hkept.mem_iff]
    apply List.mem_append_right
    rw [collected, List.reduceOption_mem_iff]
    exact List.mem_of_getElem? hentry

/-- In every state of every schedule: no goroutine has panicked, at most `min(C, count)` calls
are outstanding, nobody is blocked for good, `Client.Do` was called at most once for each
sequence number and with its record. When `runPhase` returns, it was called once for each, and
the slice holds the answer to sequence `i` at index `i`. -/
theorem closed_loop [Inhabited β] (hrecords : p.records ≠ []) (hconcurrency : 1 ≤ p.concurrency)
    (hcount : 1 ≤ p.count) (hreachable : (phaseSystem β p).Reachable s) :
    s.panicked = false ∧
      s.outstanding.length ≤ min p.concurrency p.count ∧
      (¬ s.Finished → ∃ a s', (phaseSystem β p).Step s a s') ∧
      (s.calls.map RunnerRequest.sequence).Nodup ∧
      (∀ call ∈ s.calls, ∃ n < p.count, p.request? s.start n = some call) ∧
      (s.answered.map RunnerResult.sequence).Nodup ∧
      (s.point = .returned → s.Complete p) := by
  have hgood : s.PhaseGood p := (phaseGood_inductive hrecords).holds hreachable
  have hworkers : 0 < p.workers := by
    rw [Phase.workers]
    omega
  refine ⟨hgood.control.unharmed, hgood.control.outstanding_le, ?_,
    hgood.inventory.calls_nodup hrecords, ?_, hgood.inventory.answered_nodup hrecords,
    hgood.complete⟩
  · intro hfinished
    obtain ⟨a, ha⟩ := hgood.progress hrecords hworkers hfinished
    exact ⟨a, Option.isSome_iff_exists.mp ha⟩
  · intro call hcall
    exact hgood.inventory.call_eq hgood.control hcall

/-- A schedule, run from a reachable state. -/
theorem reachable_of_schedule {schedule : List (PhaseAction β)}
    (hs : (phaseSystem β p).Reachable s) (h : schedule.foldlM (PhaseState.step p) s = some s') :
    (phaseSystem β p).Reachable s' := by
  induction schedule generalizing s with
  | nil =>
    cases h
    exact hs
  | cons a schedule ih =>
    rw [List.foldlM_cons] at h
    obtain ⟨s₁, hstep, hrest⟩ := Option.bind_eq_some_iff.mp h
    exact ih (hs.step trivial hstep) hrest

/-- A warmup of one request, to its end. -/
def warmupSchedule : List (PhaseAction Unit) :=
  [.spawn, .launch 0, .handOver 0, .call 0, .answer 0 (), .send 0, .closeJobs, .exit 0, .waited,
    .closeResults, .collect, .collect]

/-- One request on a corpus of one record. -/
def warmupPhase : Phase Nat := ⟨[7], 1, 1, true⟩

theorem closed_loop_warmup :
    ∃ s : PhaseState Nat Unit, warmupSchedule.foldlM (PhaseState.step warmupPhase)
      (.init warmupPhase) = some s ∧ s.ordered = [some ⟨-1, ()⟩] ∧ s.Complete warmupPhase := by
  obtain ⟨s, hs⟩ : ∃ s : PhaseState Nat Unit, warmupSchedule.foldlM
      (PhaseState.step warmupPhase) (.init warmupPhase) = some s := ⟨_, rfl⟩
  have hreachable : (phaseSystem Unit warmupPhase).Reachable s :=
    reachable_of_schedule (.init rfl) hs
  have hclosed := closed_loop (by decide) (by decide) (by decide) hreachable
  cases hs
  exact ⟨_, rfl, rfl, hclosed.2.2.2.2.2.2 rfl⟩

/-! ### Every schedule ends -/

/-- The steps that a worker can still take without a new sequence, and one more for its
result in the channel. -/
def workerWork : WorkerPoint β → Nat
  | .receiving => 1
  | .received _ => 5
  | .calling _ => 4
  | .sending _ => 3
  | .exited => 0

/-- The steps of the feeder after it has handed out the sequences. -/
def feederWork : FeederPoint → Nat
  | .absent => 3
  | .feeding _ => 3
  | .waiting => 2
  | .closing => 1
  | .exited => 0

/-- The steps of `runPhase` besides starting workers and collecting results. -/
def mainWork : RunPoint → Nat
  | .spawning => 2
  | .collecting => 1
  | .returned => 0

/-- A bound on the steps that are left. -/
def work (p : Phase κ) (s : PhaseState κ β) : Nat :=
  2 * (p.workers - s.workers.length) + (s.workers.map workerWork).sum +
    5 * (p.count - s.feeder.fed p.count) + feederWork s.feeder + mainWork s.point +
    s.results.buffer.length

theorem workerWork_set {w : Nat} {a : WorkerPoint β} (h : s.workers[w]? = some a)
    (b : WorkerPoint β) :
    ((s.workers.set w b).map workerWork).sum + workerWork a =
      (s.workers.map workerWork).sum + workerWork b := by
  obtain ⟨hbefore, hafter⟩ := workers_perm h
  have hold := (hbefore.map workerWork).sum_nat
  have hnew := ((hafter b).map workerWork).sum_nat
  rw [List.map_cons, List.sum_cons] at hold hnew
  omega

/-- Every step leaves less work. -/
theorem PhaseGood.work_lt {a : PhaseAction β} (hgood : s.PhaseGood p) (hrecords : p.records ≠ [])
    (hstep : s.step p a = some s') : s'.work p < s.work p := by
  have hcontrol := hgood.control
  rw [hgood.step_eq] at hstep
  cases a with
  | spawn =>
    dsimp only [PhaseState.spawn] at hstep
    split at hstep <;> cases hstep
    next h =>
    have hlt := h.2
    simp only [work, List.length_append, List.length_singleton, List.map_append, List.sum_append,
      List.map_singleton, List.sum_singleton, workerWork]
    omega
  | launch now =>
    dsimp only [PhaseState.launch] at hstep
    split at hstep <;> cases hstep
    next h =>
    have habsent := hcontrol.absent.mpr h.1
    simp only [work, habsent, h.1, FeederPoint.fed, feederWork, mainWork]
    omega
  | handOver w =>
    dsimp only [PhaseState.handOver] at hstep
    split at hstep <;> [skip; cases hstep]
    next n hfeeder hworker =>
    split at hstep <;> [skip; cases hstep]
    next hlt =>
    have hopen : s.jobs.closed = false := hcontrol.jobs_open hfeeder
    rw [Chan.handOver_of_open hopen hcontrol.jobsEmpty] at hstep
    cases hstep
    have hset := workerWork_set hworker (.received n)
    simp only [work, hfeeder, FeederPoint.fed, feederWork, List.length_set, workerWork] at hset ⊢
    omega
  | call w =>
    dsimp only [PhaseState.call] at hstep
    split at hstep <;> [skip; cases hstep]
    next n hworker =>
    obtain ⟨record, hrecord, -⟩ := request?_eq_some hrecords s.start n
    rw [hrecord] at hstep
    cases hstep
    have hset := workerWork_set hworker (.calling (p.persisted n))
    simp only [work, List.length_set, workerWork] at hset ⊢
    omega
  | answer w body =>
    dsimp only [PhaseState.answer] at hstep
    split at hstep <;> cases hstep
    next sequence hworker =>
    have hset := workerWork_set hworker (.sending ⟨sequence, body⟩)
    simp only [work, List.length_set, workerWork] at hset ⊢
    omega
  | send w =>
    dsimp only [PhaseState.send] at hstep
    split at hstep <;> [skip; cases hstep]
    next result hworker =>
    rw [hgood.send_eq hworker] at hstep
    cases hstep
    have hset := workerWork_set hworker .receiving
    simp only [work, List.length_set, workerWork, List.length_append, List.length_singleton]
      at hset ⊢
    omega
  | exit w =>
    dsimp only [PhaseState.exit] at hstep
    split at hstep <;> [skip; cases hstep]
    next hworker _ =>
    have hpos : 0 < s.wait := hcontrol.wait_pos hworker rfl
    rw [if_neg (Nat.ne_of_gt hpos)] at hstep
    cases hstep
    have hset := workerWork_set hworker .exited
    simp only [work, List.length_set, workerWork] at hset ⊢
    omega
  | closeJobs =>
    dsimp only [PhaseState.closeJobs] at hstep
    split at hstep <;> [skip; cases hstep]
    next n hfeeder =>
    split at hstep <;> [cases hstep; skip]
    next hnlt =>
    have hopen : s.jobs.closed = false := hcontrol.jobs_open hfeeder
    rw [Chan.close_of_open hopen] at hstep
    cases hstep
    simp only [work, hfeeder, FeederPoint.fed, feederWork]
    omega
  | waited =>
    dsimp only [PhaseState.waited] at hstep
    split at hstep <;> cases hstep
    next h =>
    simp only [work, h.1, FeederPoint.fed, feederWork]
    omega
  | closeResults =>
    dsimp only [PhaseState.closeResults] at hstep
    split at hstep <;> [skip; cases hstep]
    next hfeeder =>
    have hopen : s.results.closed = false := hcontrol.results_open_of_closing hfeeder
    rw [Chan.close_of_open hopen] at hstep
    cases hstep
    simp only [work, hfeeder, FeederPoint.fed, feederWork]
    omega
  | collect =>
    dsimp only [PhaseState.collect] at hstep
    split at hstep <;> [skip; cases hstep]
    next hpoint =>
    cases hbuffer : s.results.buffer with
    | nil =>
      rw [Chan.receive_nil hbuffer] at hstep
      cases hclosed : s.results.closed with
      | false => simp [hclosed] at hstep
      | true =>
        rw [hclosed] at hstep
        cases hstep
        simp only [work, hpoint, mainWork]
        omega
    | cons r buffer =>
      rw [Chan.receive_cons hbuffer] at hstep
      obtain ⟨n, hsequence, hfree⟩ := hgood.free hrecords hbuffer
      obtain ⟨hlt, -⟩ := List.getElem?_eq_some_iff.mp hfree
      have hrange : 0 ≤ p.index r.sequence ∧ p.index r.sequence < s.ordered.length := by
        rw [hsequence, index_persisted]
        omega
      dsimp only at hstep
      rw [if_pos hrange] at hstep
      cases hstep
      simp only [work, hbuffer, List.length_cons]
      omega

/-- No schedule goes on for ever. -/
theorem schedule_ends (hrecords : p.records ≠ []) (states : Nat → PhaseState κ β)
    (hinit : states 0 = .init p) :
    ¬ ∀ n, ∃ a, (phaseSystem β p).Step (states n) a (states (n + 1)) := by
  intro hsteps
  have hbound : ∀ n, (states n).PhaseGood p ∧ (states n).work p + n ≤ (states 0).work p := by
    intro n
    induction n with
    | zero =>
      rw [hinit]
      exact ⟨phaseGood_init p, Nat.le_refl _⟩
    | succ n ih =>
      obtain ⟨a, ha⟩ := hsteps n
      have hlt := ih.1.work_lt hrecords ha
      have hle := ih.2
      exact ⟨ih.1.step hrecords ha, by omega⟩
  have hle := (hbound ((states 0).work p + 1)).2
  omega

end PhaseState

end Gateway
