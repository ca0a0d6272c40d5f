import Gateway.Spec.StreamOwnership

/-!
# The bookkeeping of a relay

When `StreamingRelay.aclose` gives the admission lease back it also finalizes the
metrics observer and calls `on_outcome`, unless it is leaving with an exception that
is no `Exception`: the lease is released in the `finally` clause, the bookkeeping
comes after it. A relay whose close was cut short this way is closed, so no later
`aclose` makes up for it. `UninterruptedClose` is the condition on a step that this
does not happen.

## Key results

- `Effect.accounted`: the release of the admission lease and the bookkeeping go
  together when no close is cut short
- `accountedOnce_of_uninterrupted`: then every relay is accounted exactly once
- `interrupted_close_unaccounted`: a run that loses the bookkeeping
-/

namespace Gateway

namespace SSEMetricsObserver

variable {o : SSEMetricsObserver}

/-- The observer has recorded what it has seen: one coverage of the first token once
    there was one or the stream ended, and one accounting of the tokens in the end. -/
structure Consistent (o : SSEMetricsObserver) : Prop where
  ttft : o.ttft.length = (o.firstContentSeen || o.finalized).toNat
  tokens : o.tokens.length = o.finalized.toNat

theorem Consistent.new : Consistent .new := ⟨rfl, rfl⟩

theorem Consistent.observeEvent (h : o.Consistent) (hf : o.finalized = false) (e : SSEEvent) :
    (o.observeEvent e).Consistent := by
  cases e with
  | ignored => exact h
  | malformed => exact ⟨h.ttft, h.tokens⟩
  | payload content usage =>
    have hcontent : (o.observeFirstContent content).Consistent := by
      unfold observeFirstContent
      split
      · exact h
      next hseen =>
      split
      · -- the first content: nothing was recorded before
        have httft := h.ttft
        rw [hf, Bool.or_false, Bool.eq_false_iff.mpr hseen, Bool.toNat_false] at httft
        refine ⟨?_, h.tokens⟩
        simp [httft]
      · exact h
    show ((o.observeFirstContent content).observeUsage usage).Consistent
    unfold observeUsage
    split
    · exact ⟨hcontent.ttft, hcontent.tokens⟩
    · exact ⟨hcontent.ttft, hcontent.tokens⟩
    · exact hcontent

theorem drainEvents_keeps (h : o.Consistent) (hf : o.finalized = false) (events : List SSEEvent) :
    (o.drainEvents events).Consistent ∧ (o.drainEvents events).finalized = false := by
  induction events generalizing o with
  | nil => exact ⟨h, hf⟩
  | cons e events ih =>
    have hnext := h.observeEvent hf e
    have hopen := (o.observeEvent_finalized e).trans hf
    unfold drainEvents
    split
    · exact ⟨hnext, hopen⟩
    · exact ih hnext hopen

/-- Chunks do not finalize the observer, and after its end they change nothing. -/
theorem Consistent.observeBytes (h : o.Consistent) (chunk : List SSEEvent) :
    (o.observeBytes chunk).Consistent ∧ (o.observeBytes chunk).finalized = o.finalized := by
  unfold SSEMetricsObserver.observeBytes
  split
  · exact ⟨h, rfl⟩
  next hactive =>
  have hf : o.finalized = false := by
    rw [not_or] at hactive
    simpa using hactive.2
  obtain ⟨hkeeps, hopen⟩ := drainEvents_keeps h hf chunk
  exact ⟨hkeeps, hopen.trans hf.symm⟩

theorem Consistent.finalize (h : o.Consistent) :
    o.finalize.Consistent ∧ o.finalize.finalized = true := by
  unfold SSEMetricsObserver.finalize
  split
  · next hf => exact ⟨h, hf⟩
  next hf =>
  obtain ⟨httft, htokens⟩ := h
  rw [Bool.eq_false_iff.mpr hf] at httft htokens
  refine ⟨⟨?_, ?_⟩, rfl⟩
  · cases hseen : o.firstContentSeen <;> simp_all
  · simp [htokens]

end SSEMetricsObserver

/-- The events of giving back an admission lease and of the bookkeeping after it. -/
def ofAccount (i : RelayId) : StreamEvent → Bool
  | .admissionReleased j | .metricsFinalized j | .outcome j _ => j = i
  | _ => false

/-- `on_outcome` of the relay was called. -/
def isOutcome (i : RelayId) : StreamEvent → Bool
  | .outcome j _ => j = i
  | _ => false

/-- What a complete `aclose` of the relay records. -/
def StreamingRelay.account (relay : StreamingRelay) (i : RelayId) (outcome : StreamOutcome) :
    List StreamEvent :=
  .admissionReleased i :: ((if relay.metricsObserver.isSome then [.metricsFinalized i] else []) ++
    if relay.onOutcome then [.outcome i outcome] else [])

namespace StreamSystem

/-- What was recorded for a relay. -/
def account (s : StreamSystem) (i : RelayId) : List StreamEvent := s.history.filter (ofAccount i)

/-- The observer of the relay was finalized exactly once, with one coverage of the
    first token and one accounting of the tokens, and `on_outcome` was called exactly
    once. -/
structure AccountedOnce (s : StreamSystem) (i : RelayId) (relay : StreamingRelay) : Prop where
  observer : ∀ o, relay.metricsObserver = some o →
    s.history.count (.metricsFinalized i) = 1 ∧ o.finalized = true ∧ o.ttft.length = 1 ∧
      o.tokens.length = 1
  outcome : relay.onOutcome = true → s.history.countP (isOutcome i) = 1

/-- The step does not cut a relay's close short: no exception but an `Exception`
    reaches a task in `await self._backend_stream.aclose()`, whether it waits for the
    close of the leaf or for the close lock of the stream. -/
def UninterruptedClose (s : StreamSystem) : StreamAction → Prop
  | .leaf t (.raised e) => e.isException = false → ∀ r o i outcome stack,
    s.tasks[t]? ≠ some (.suspended (.finishClose r o :: .relayClose i outcome :: stack))
  | .resume t _ => ∀ r w o i outcome stack st lock,
    s.tasks[t]? = some (.suspended (.finishLock r w o :: .relayClose i outcome :: stack)) →
    s.streams[r]? = some st → st.closeLock.resume w ≠ some (false, lock)
  | _ => True

/-- The guard of complete closes. -/
def completeCloses : Guard := { Guard.any with abandon := fun _ => False }

/-- The bookkeeping of a relay is done when its admission lease is given back. -/
structure Accounted (s : StreamSystem) (F : List Frame) : Prop where
  good : Good s F
  pending : ∀ i, .admissionReleased i ∉ s.history → s.account i = []
  settled : ∀ (i : RelayId) (relay : StreamingRelay), s.relays[i]? = some relay →
    .admissionReleased i ∈ s.history → ∃ outcome, s.account i = relay.account i outcome
  observer : ∀ (i : RelayId) (relay : StreamingRelay) (o : SSEMetricsObserver),
    s.relays[i]? = some relay → relay.metricsObserver = some o →
      o.Consistent ∧ (o.finalized = true ↔ .admissionReleased i ∈ s.history)

section Accounts

variable {s s' : StreamSystem} {F F' : List Frame} {i : RelayId} {e : StreamEvent}
  {a : StreamAction}

/-- The events of the accounts of all relays. -/
def ofAccounts : StreamEvent → Bool
  | .admissionReleased _ | .metricsFinalized _ | .outcome _ _ => true
  | _ => false

theorem ofAccount_of (h : ofAccounts e = false) (i : RelayId) : ofAccount i e = false := by
  cases e <;> simp_all [ofAccounts, ofAccount]

theorem account_append {l : List StreamEvent} (h : s'.history = s.history ++ l)
    (hes : ∀ e ∈ l, ofAccounts e = false) (i : RelayId) : s'.account i = s.account i := by
  unfold account
  rw [h, List.filter_append]
  have hnone : l.filter (ofAccount i) = [] := List.filter_eq_nil_iff.mpr fun e he => by
    simp [ofAccount_of (hes e he) i]
  rw [hnone, List.append_nil]

theorem mem_account : .admissionReleased i ∈ s.account i ↔ .admissionReleased i ∈ s.history := by
  simp [account, List.mem_filter, ofAccount]

/-- A change that leaves the accounts and what the relays are accounted for. -/
theorem Accounted.congr (h : Accounted s F) (hgood : Good s' F')
    (haccount : ∀ i, s'.account i = s.account i)
    (hrelays : ∀ (i : RelayId) (relay' : StreamingRelay), s'.relays[i]? = some relay' →
      ∃ relay, s.relays[i]? = some relay ∧ relay'.metricsObserver = relay.metricsObserver ∧
        relay'.onOutcome = relay.onOutcome) : Accounted s' F' := by
  have hmem : ∀ i, .admissionReleased i ∈ s'.history ↔ .admissionReleased i ∈ s.history := by
    intro i
    rw [← mem_account, ← mem_account, haccount]
  constructor
  case good => exact hgood
  case pending =>
    intro i hi
    rw [haccount]
    exact h.pending i ((hmem i).not.mp hi)
  case settled =>
    intro i relay' hrelay' hi
    obtain ⟨relay, hrelay, hobserver, hon⟩ := hrelays i relay' hrelay'
    obtain ⟨outcome, hout⟩ := h.settled i relay hrelay ((hmem i).mp hi)
    refine ⟨outcome, ?_⟩
    rw [haccount, hout]
    unfold StreamingRelay.account
    rw [hobserver, hon]
  case observer =>
    intro i relay' o hrelay' ho
    obtain ⟨relay, hrelay, hobserver, -⟩ := hrelays i relay' hrelay'
    rw [hmem]
    exact h.observer i relay o hrelay (hobserver ▸ ho)

/-- Whoever is in the close of a relay has not given its admission lease back. -/
theorem Good.closing_relay {outcome : StreamOutcome} (h : Good s (.relayClose i outcome :: F)) :
    .admissionReleased i ∉ s.history ∧ ∃ relay, s.relays[i]? = some relay := by
  have honce := h.relays.once i
  rw [List.countP_cons] at honce
  simp only [Frame.closesRelay, decide_true, if_true] at honce
  have hle := Bool.toNat_le (s.relayClosed i)
  constructor
  · intro hmem
    have hpos := List.count_pos_iff.mpr hmem
    omega
  · have hclosed : s.relayClosed i = true := by
      by_contra hopen
      rw [Bool.not_eq_true] at hopen
      rw [hopen, Bool.toNat_false] at honce
      omega
    obtain ⟨relay, hrelay, -⟩ := relayClosed_iff.mp hclosed
    exact ⟨relay, hrelay⟩

/-- What the bookkeeping of a relay records. -/
theorem settleRelay_record {relay : StreamingRelay} (outcome : StreamOutcome)
    (h : s.relays[i]? = some relay) : ((s.record (.admissionReleased i)).settleRelay i outcome).history =
      s.history ++ relay.account i outcome := by
  unfold settleRelay StreamingRelay.account
  rw [record_relays, h]
  dsimp only
  split <;> split <;> simp

theorem relayAccount_filter (relay : StreamingRelay) (outcome : StreamOutcome) (j : RelayId) :
    (relay.account i outcome).filter (ofAccount j) =
      if i = j then relay.account i outcome else [] := by
  unfold StreamingRelay.account
  by_cases heq : i = j
  · split <;> split <;> simp [ofAccount, heq]
  · split <;> split <;> simp [ofAccount, heq]

/-- A complete close accounts for its relay. -/
theorem Accounted.settle {outcome o : StreamOutcome} (h : Accounted s (.relayClose i o :: F))
    (hgood : Good ((s.record (.admissionReleased i)).settleRelay i outcome) F) :
    Accounted ((s.record (.admissionReleased i)).settleRelay i outcome) F := by
  obtain ⟨hfree, relay, hrelay⟩ := h.good.closing_relay
  have hhistory := settleRelay_record outcome hrelay
  have haccount : ∀ j, ((s.record (.admissionReleased i)).settleRelay i outcome).account j =
      if i = j then relay.account i outcome else s.account j := by
    intro j
    unfold account
    rw [hhistory, List.filter_append, relayAccount_filter]
    by_cases heq : i = j
    · have hnone := h.pending i hfree
      unfold account at hnone
      rw [if_pos heq, if_pos heq, ← heq, hnone, List.nil_append]
    · rw [if_neg heq, if_neg heq, List.append_nil]
  have hmem : ∀ j, .admissionReleased j ∈ ((s.record (.admissionReleased i)).settleRelay i
      outcome).history ↔ i = j ∨ .admissionReleased j ∈ s.history := by
    intro j
    rw [← mem_account, haccount]
    split
    · next heq => simp [heq, StreamingRelay.account]
    · next hne => simp [hne, mem_account]
  have hget : ∀ (j : RelayId) (relay' : StreamingRelay),
      ((s.record (.admissionReleased i)).settleRelay i outcome).relays[j]? = some relay' →
      i = j ∧ relay' = { relay with metricsObserver := relay.metricsObserver.map (·.finalize) } ∨
        i ≠ j ∧ s.relays[j]? = some relay' := by
    intro j relay' hrelay'
    rw [settleRelay_relays, modifyRelay_get, record_relays] at hrelay'
    split at hrelay'
    · next heq =>
      rw [← heq, hrelay] at hrelay'
      exact .inl ⟨heq, (Option.some.inj hrelay').symm⟩
    · next hne => exact .inr ⟨hne, hrelay'⟩
  constructor
  case good => exact hgood
  case pending =>
    intro j hj
    rw [hmem, not_or] at hj
    rw [haccount, if_neg hj.1]
    exact h.pending j hj.2
  case settled =>
    intro j relay' hrelay' hj
    rw [haccount]
    rcases hget j relay' hrelay' with ⟨heq, rfl⟩ | ⟨hne, hold⟩
    · refine ⟨outcome, ?_⟩
      rw [if_pos heq, ← heq]
      simp [StreamingRelay.account]
    · rw [if_neg hne]
      exact h.settled j relay' hold (((hmem j).mp hj).resolve_left hne)
  case observer =>
    intro j relay' ob hrelay' hob
    rw [hmem]
    rcases hget j relay' hrelay' with ⟨heq, rfl⟩ | ⟨hne, hold⟩
    · obtain ⟨ob', hob', rfl⟩ := Option.map_eq_some_iff.mp hob
      obtain ⟨hconsistent, hfinal⟩ := (h.observer i relay ob' hrelay hob').1.finalize
      exact ⟨hconsistent, by simp [heq, hfinal]⟩
    · obtain ⟨hconsistent, hiff⟩ := h.observer j relay' ob hold hob
      exact ⟨hconsistent, by rw [hiff]; simp [hne]⟩

/-- An update of a relay that keeps what it is accounted for. -/
theorem modifyRelay_kept {g : StreamingRelay → StreamingRelay}
    (hg : ∀ rel, (g rel).metricsObserver = rel.metricsObserver ∧
      (g rel).onOutcome = rel.onOutcome) (j : RelayId) (relay' : StreamingRelay)
    (h : (s.modifyRelay i g).relays[j]? = some relay') :
    ∃ relay, s.relays[j]? = some relay ∧ relay'.metricsObserver = relay.metricsObserver ∧
      relay'.onOutcome = relay.onOutcome := by
  rw [modifyRelay_get] at h
  split at h
  · obtain ⟨relay, hrelay, rfl⟩ := Option.map_eq_some_iff.mp h
    exact ⟨relay, hrelay, hg relay⟩
  · exact ⟨relay', h, rfl, rfl⟩

/-- What the changes keep when no close is cut short. -/
theorem Effect.accounted (h : Effect completeCloses s F s' F') (hs : Accounted s F) :
    Accounted s' F' := by
  have hgood := h.good hs.good
  have hsame : ∀ (i : RelayId) (relay : StreamingRelay), s.relays[i]? = some relay →
      ∃ relay', s.relays[i]? = some relay' ∧ relay.metricsObserver = relay'.metricsObserver ∧
        relay.onOutcome = relay'.onOutcome := fun _ relay hrelay => ⟨relay, hrelay, rfl, rfl⟩
  cases h with
  | same h =>
    refine hs.congr hgood (account_append (l := []) ?_ ?_) ?_
    · simp [h.history]
    · simp
    · rw [h.relays]
      exact hsame
  | push | pop | gathered | opened | streamLock | poolClosing | poolClosed =>
    exact hs.congr hgood (fun _ => rfl) hsame
  | probeStarted | probed | selected | failed | rejected | streamClosing | noted | relayEntered =>
    refine hs.congr hgood (account_append (l := [_]) rfl fun e he => ?_) hsame
    rw [List.mem_singleton.mp he]
    rfl
  | released _ h | forced _ h | streamFinished _ h =>
    refine hs.congr hgood (account_append h.history fun e he => ?_) fun i relay hrelay =>
      hsame i relay (h.relays ▸ hrelay)
    split at he
    · simp at he
    · rw [List.mem_singleton.mp he]
      rfl
  | relayLock => exact hs.congr hgood (fun _ => rfl) (modifyRelay_kept fun _ => ⟨rfl, rfl⟩)
  | relayClosing =>
    refine hs.congr hgood (account_append (l := [_]) rfl fun e he => ?_)
      (modifyRelay_kept fun _ => ⟨rfl, rfl⟩)
    rw [List.mem_singleton.mp he]
    rfl
  | relayStreamClosing =>
    rename_i i o o' relay lock slock _ _ _ _ _
    refine hs.congr hgood (account_append (l := [.relayCloseEntered i, .leafClosed relay.stream])
      (by simp) fun e he => ?_) (modifyRelay_kept fun _ => ⟨rfl, rfl⟩)
    rcases List.mem_pair.mp he with rfl | rfl
    · rfl
    · rfl
  | relaySettled => exact hs.settle hgood
  | relayAbandoned hguard => exact hguard.elim
  | observed =>
    rename_i i events
    have hget : ∀ (j : RelayId) (relay' : StreamingRelay),
        (s.modifyRelay i fun rel => { rel with
          metricsObserver := rel.metricsObserver.map (·.observeBytes events) }).relays[j]? =
            some relay' →
        ∃ relay, s.relays[j]? = some relay ∧ relay'.onOutcome = relay.onOutcome ∧
          (relay'.metricsObserver = relay.metricsObserver ∨
            relay'.metricsObserver = relay.metricsObserver.map (·.observeBytes events)) := by
      intro j relay' hrelay'
      rw [modifyRelay_get] at hrelay'
      split at hrelay'
      · obtain ⟨relay, hrelay, rfl⟩ := Option.map_eq_some_iff.mp hrelay'
        exact ⟨relay, hrelay, rfl, .inr rfl⟩
      · exact ⟨relay', hrelay', rfl, .inl rfl⟩
    constructor
    case good => exact hgood
    case pending => exact hs.pending
    case settled =>
      intro j relay' hrelay' hj
      obtain ⟨relay, hrelay, hon, hobserver⟩ := hget j relay' hrelay'
      obtain ⟨outcome, hout⟩ := hs.settled j relay hrelay hj
      refine ⟨outcome, hout.trans ?_⟩
      unfold StreamingRelay.account
      rw [hon]
      rcases hobserver with heq | heq <;> simp [heq]
    case observer =>
      intro j relay' o hrelay' ho
      obtain ⟨relay, hrelay, -, heq | heq⟩ := hget j relay' hrelay'
      · exact hs.observer j relay o hrelay (heq ▸ ho)
      · obtain ⟨o', ho', rfl⟩ := Option.map_eq_some_iff.mp (heq ▸ ho)
        obtain ⟨hconsistent, hiff⟩ := hs.observer j relay o' hrelay ho'
        obtain ⟨hkeeps, hfinal⟩ := hconsistent.observeBytes events
        exact ⟨hkeeps, hfinal ▸ hiff⟩
  | relayMade hr =>
    rename_i r observed onOutcome
    -- nothing was recorded for the new relay
    have hfresh : .admissionReleased s.relays.length ∉ s.history := by
      intro hmem
      have honce := hs.good.relays.once s.relays.length
      rw [relayClosed_of_le le_rfl, Bool.toNat_false] at honce
      have hpos := List.count_pos_iff.mpr hmem
      omega
    constructor
    case good => exact hgood
    case pending => exact hs.pending
    case settled =>
      intro j relay hrelay hj
      rcases getElem?_concat_some hrelay with hold | ⟨rfl, -⟩
      · exact hs.settled j relay hold hj
      · exact absurd hj hfresh
    case observer =>
      intro j relay o hrelay ho
      rcases getElem?_concat_some hrelay with hold | ⟨rfl, rfl⟩
      · exact hs.observer j relay o hold ho
      · cases observed with
        | false => exact nomatch ho
        | true =>
          obtain rfl := Option.some.inj ho
          exact ⟨.new, nofun, fun hmem => absurd hmem hfresh⟩

theorem accounted_lasting : Lasting completeCloses Accounted where
  good h := h.good
  effect h he := he.accounted h
  perm h hF := ⟨h.good.perm hF, h.pending, h.settled, h.observer⟩
  tasks T h := ⟨h.good.tasks T, h.pending, h.settled, h.observer⟩

theorem accounted_of_init (h : Init s) : Accounted s [] := by
  have hrelays : s.relays = [] := h.2.2.1
  have hhistory : s.history = [] := h.2.2.2.2.2.1
  refine ⟨good_of_init h, fun i _ => ?_, fun i relay hrelay => ?_, fun i relay o hrelay => ?_⟩
  · simp [account, hhistory]
  · simp [hrelays] at hrelay
  · simp [hrelays] at hrelay

theorem UninterruptedClose.permits (h : s.UninterruptedClose a) : Permits completeCloses s a := by
  constructor
  case abandonClose =>
    rintro t e r o i outcome stack rfl hexc htask
    exact h hexc r o i outcome stack htask
  case abandonLock =>
    rintro t failure e r w o i outcome stack s' rfl htask hwake hexc
    simp only [wake] at hwake
    split at hwake
    · next acquired lock hresume =>
      obtain ⟨st, hst, hlock⟩ := Option.bind_eq_some_iff.mp hresume
      cases acquired with
      | true => simp at hwake
      | false => exact h r w o i outcome stack st lock htask hst hlock
    · exact nomatch hwake
  all_goals
    intros
    exact trivial

end Accounts

/-- On the runs that cut no close short every relay that was closed at all is
    accounted exactly once when all tasks have finished. -/
theorem accountedOnce_of_uninterrupted {s : StreamSystem} {i : RelayId} {relay : StreamingRelay}
    (h : lts.ReachableVia UninterruptedClose s) (hrelay : s.relays[i]? = some relay)
    (hentered : .relayCloseEntered i ∈ s.history) (hall : s.AllFinished) :
    s.AccountedOnce i relay := by
  have hs := (kept_of_reachable accounted_lasting (fun _ => accounted_of_init)
    (h.mono fun _ _ hok => hok.permits)).inv
  -- nobody is in the close any more, so the admission lease has been given back
  have honce := hs.good.relays.once i
  rw [frames_of_allFinished hall, List.countP_nil, Nat.zero_add,
    hs.good.relays.entered i hentered, Bool.toNat_true] at honce
  have hgiven : .admissionReleased i ∈ s.history := List.count_pos_iff.mp (by omega)
  obtain ⟨outcome, haccount⟩ := hs.settled i relay hrelay hgiven
  constructor
  case observer =>
    intro o ho
    obtain ⟨hconsistent, hiff⟩ := hs.observer i relay o hrelay ho
    have hfinal := hiff.mpr hgiven
    refine ⟨?_, hfinal, ?_, ?_⟩
    · rw [← List.count_filter (p := ofAccount i) (by simp [ofAccount])]
      show (s.account i).count _ = 1
      rw [haccount]
      unfold StreamingRelay.account
      rw [ho]
      cases relay.onOutcome <;> simp
    · rw [hconsistent.ttft, hfinal, Bool.or_true]
      rfl
    · rw [hconsistent.tokens, hfinal]
      rfl
  case outcome =>
    intro hon
    have hfilter : s.history.countP (isOutcome i) = (s.account i).countP (isOutcome i) := by
      unfold account
      rw [List.countP_filter]
      congr 1
      funext e
      cases e <;> simp [isOutcome, ofAccount]
    rw [hfilter, haccount]
    unfold StreamingRelay.account
    rw [hon]
    split <;> simp [isOutcome]

theorem accountedOnce_of_uninterrupted_relayRun :
    ∃ relay, (after (probeRun ++ relayRun .returned)).relays[0]? = some relay ∧
      (after (probeRun ++ relayRun .returned)).AccountedOnce 0 relay := by
  have hstart : lts.ReachableVia UninterruptedClose (after [.spawn .probeOnce, .startChild 0 0,
      .leaf 1 (.verdict true), .startChild 0 0, .leaf 2 (.verdict true)]) := by
    refine .exec (l := [.spawn .probeOnce, .startChild 0 0, .leaf 1 (.verdict true),
      .startChild 0 0, .leaf 2 (.verdict true)]) (.init sample_init) ?_ rfl
    simp [UninterruptedClose]
  have hprobed : lts.ReachableVia UninterruptedClose (after probeRun) := by
    refine .step (a := .resume 0 none) hstart ?_ rfl
    -- the task that resumes waits for its probes
    intro r w o i outcome stack st lock htask
    change some (Task.suspended [.probeOnce ⟨[], [1, 2], false⟩]) = _ at htask
    simp at htask
  have hclosed : lts.ReachableVia UninterruptedClose (after (probeRun ++ relayRun .returned)) := by
    refine hprobed.exec (l := relayRun .returned) ?_ rfl
    simp [UninterruptedClose, relayRun]
  have hrelay : ∃ relay, (after (probeRun ++ relayRun .returned)).relays[0]? = some relay :=
    ⟨_, rfl⟩
  obtain ⟨relay, hrelay⟩ := hrelay
  exact ⟨relay, hrelay, accountedOnce_of_uninterrupted hclosed hrelay (by decide) (by decide)⟩

/-- A task that is cancelled while it waits for the close of the leaf gives the
    admission lease back and loses the bookkeeping. -/
theorem interrupted_close_unaccounted :
    lts.Reachable (after (probeRun ++ relayRun (.raised .cancelled))) ∧
    .relayCloseEntered 0 ∈ (after (probeRun ++ relayRun (.raised .cancelled))).history ∧
    (after (probeRun ++ relayRun (.raised .cancelled))).AllFinished ∧
    .metricsFinalized 0 ∉ (after (probeRun ++ relayRun (.raised .cancelled))).history ∧
    ∃ relay, (after (probeRun ++ relayRun (.raised .cancelled))).relays[0]? = some relay ∧
      relay.onOutcome = true ∧
      ¬(after (probeRun ++ relayRun (.raised .cancelled))).AccountedOnce 0 relay := by
  have hlost : (after (probeRun ++ relayRun (.raised .cancelled))).history.countP (isOutcome 0) = 0 := by
    decide
  refine ⟨after_reachable _, by decide, by decide, by decide, _, rfl, rfl, fun h => ?_⟩
  have hcalled := h.outcome rfl
  rw [hlost] at hcalled
  exact nomatch hcalled

end StreamSystem

end Gateway
