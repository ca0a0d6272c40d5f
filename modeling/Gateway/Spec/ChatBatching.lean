import Gateway.Model.ChatEndpoint
import Gateway.Spec.BatchDemultiplexing
import Gateway.Spec.BatcherRequests
import Gateway.Spec.CompatibilityKey

/-!
# Batching behind the chat endpoint

The endpoint submits eligible requests only, and a batch has the requests of one key, so
the backend accepts every batch. What a member gets back is the upstream server's answer
to its own conversation.

## Key results

- `batchPayload_ok`: which batches `generate_batch` sends, and what it sends
- `batches_accepted`: the backend accepts every batch
- `batching_transparent`: a member gets the choices that `generate` would have got it
-/

namespace Gateway

/-! ## The payload of a batch -/

namespace ChatCompletionRequest

theorem key_mem_sharedFields {r : ChatCompletionRequest} {f : String × Json}
    (h : f ∈ r.toBatchSharedPayload) : f.1 ∈ sharedFields := by
  rw [toBatchSharedPayload_eq] at h
  simp only [List.mem_append, mem_member] at h
  obtain ((((⟨hkey, -⟩ | ⟨hkey, -⟩) | ⟨hkey, -⟩) | ⟨hkey, -⟩) | ⟨hkey, -⟩) | ⟨hkey, -⟩ := h <;>
    rw [hkey] <;> decide

theorem getField_messages (r : ChatCompletionRequest) :
    Json.getField r.toUpstreamPayload "messages" = some r.messagesJson := by
  unfold toUpstreamPayload
  simp only [List.append_assoc, getField_member_append]
  simp

/-- A dictionary of single values is equal to itself. -/
theorem pyEq_shared (r : ChatCompletionRequest) :
    Json.pyEq (.obj r.toBatchSharedPayload) (.obj r.toBatchSharedPayload) = true := by
  have hscalar : ∀ {a : Json}, (∀ xs, a ≠ .arr xs) → (∀ fs, a ≠ .obj fs) →
      Json.pyEq a a = true := by
    intro a harr hobj
    cases a with
    | arr xs => exact absurd rfl (harr xs)
    | obj fs => exact absurd rfl (hobj fs)
    | float x =>
      simp only [Json.pyEq]
      cases Json.number (.float x) <;> simp
    | _ => simp [Json.pyEq, Json.number]
  have hitems : ∀ ss : List String, Json.pyEqItems (ss.map .str) (ss.map .str) = true := by
    intro ss
    induction ss with
    | nil => rfl
    | cons s ss ih => simp [Json.pyEqItems, ih, Json.pyEq, Json.number]
  have hstop : ∀ stop : Stop, Json.pyEq stop.toJson stop.toJson = true := by
    intro stop
    cases stop with
    | one s => exact hscalar (by simp [Stop.toJson]) (by simp [Stop.toJson])
    | many ss => exact hitems ss
  have hvalue : ∀ f ∈ r.toBatchSharedPayload, Json.pyEq f.2 f.2 = true := by
    intro f hf
    have hmap : ∀ {α : Type} {x : Option α} {g : α → Json}, (∀ a, Json.pyEq (g a) (g a) = true) →
        x.map g = some f.2 → Json.pyEq f.2 f.2 = true := by
      intro α x g hg hx
      obtain ⟨a, -, ha⟩ := Option.map_eq_some_iff.mp hx
      rw [← ha]
      exact hg a
    rw [toBatchSharedPayload_eq] at hf
    simp only [List.mem_append, mem_member] at hf
    obtain ((((⟨-, hx⟩ | ⟨-, hx⟩) | ⟨-, hx⟩) | ⟨-, hx⟩) | ⟨-, hx⟩) | ⟨-, hx⟩ := hf
    · rw [← Option.some.inj hx]
      exact hscalar (by simp) (by simp)
    · exact hmap (fun _ => hscalar (by simp) (by simp)) hx
    · exact hmap (fun _ => hscalar (by simp) (by simp)) hx
    · exact hmap (fun _ => hscalar (by simp) (by simp)) hx
    · exact hmap hstop hx
    · exact hmap (fun _ => hscalar (by simp) (by simp)) hx
  have hfields : ∀ fs : List (String × Json), (∀ f ∈ fs, f ∈ r.toBatchSharedPayload) →
      Json.pyEqFields fs r.toBatchSharedPayload = true := by
    intro fs hfs
    induction fs with
    | nil => rfl
    | cons f fs ih =>
      obtain ⟨key, value⟩ := f
      have hmem := hfs (key, value) List.mem_cons_self
      have hget := (Json.getField_eq_some_iff (keyed_toBatchSharedPayload r)).mpr hmem
      simp [Json.pyEqFields, hget, hvalue _ hmem, ih fun g hg => hfs g (List.mem_cons_of_mem _ hg)]
  simp [Json.pyEq, hfields r.toBatchSharedPayload fun f hf => hf]

end ChatCompletionRequest

namespace VLLMBackend

/-- What `generate_batch` sends for requests with one shared payload. -/
theorem batchPayload_ok {requests : List ChatCompletionRequest} (hne : requests ≠ [])
    (hsingle : ∀ r ∈ requests, r.streamValue = false ∧ r.nValue = 1)
    (hshared : ∀ r ∈ requests, ∀ r' ∈ requests, r.toBatchSharedPayload = r'.toBatchSharedPayload)
    {r : ChatCompletionRequest} (hr : r ∈ requests) :
    batchPayload requests = .ok (Json.setField r.toBatchSharedPayload "messages"
      (.arr (requests.map (·.messagesJson)))) := by
  cases requests with
  | nil => exact absurd rfl hne
  | cons first rest =>
    rw [batchPayload, if_neg, if_neg]
    · rw [hshared r hr first List.mem_cons_self]
      have hmessages : ((first :: rest).filterMap fun request =>
          Json.getField request.toUpstreamPayload "messages") =
            (first :: rest).map (·.messagesJson) := by
        simp only [ChatCompletionRequest.getField_messages, List.filterMap_eq_map']
      rw [hmessages]
    · rw [Bool.not_eq_true, List.any_eq_false]
      intro request hrequest
      rw [hshared request (List.mem_cons_of_mem _ hrequest) first List.mem_cons_self,
        ChatCompletionRequest.pyEq_shared]
      simp
    · rw [Bool.not_eq_true, List.any_eq_false]
      intro request hrequest
      obtain ⟨hstream, hn⟩ := hsingle request hrequest
      simp [hstream, hn]

theorem receive_ne_capability (reply : UpstreamReply) : receive reply ≠ .error .capability := by
  have hraise : ∀ statusCode e, raiseForUpstreamStatus statusCode = .error e → e ≠ .capability := by
    intro statusCode e h
    unfold raiseForUpstreamStatus at h
    split_ifs at h <;> rw [← Except.error.inj h] <;> nofun
  intro h
  unfold receive at h
  split at h
  · cases h
  · cases h
  · next statusCode body =>
    split at h
    · next e he => exact hraise statusCode e he (Except.error.inj h)
    · split at h <;> cases h

theorem demultiplex_ne_capability (payload : Fields) (n : Nat) :
    (demultiplexBatchResponse payload n).1 ≠ .error .capability := by
  by_cases h : ∃ choices, Json.getField payload "choices" = some (.arr choices) ∧ Indexed choices n
  · obtain ⟨choices, hget, hindexed⟩ := h
    rw [demultiplex_ok hget hindexed]
    nofun
  · rw [demultiplex_error h]
    nofun

end VLLMBackend

namespace ChatSystem

open DynamicBatcher

variable {s s' : ChatSystem} {b b' : DynamicBatcher}

/-! ## The requests of a batch -/

section Requests

variable {is : List ItemId}

/-- The requests of items that are there, one for each. -/
theorem requestsOf_getElem? (h : ∀ i ∈ is, ∃ item, b.items[i]? = some item) (j : Nat) :
    (requestsOf b is)[j]? = is[j]?.bind fun i => b.items[i]?.map (·.request) := by
  unfold requestsOf
  induction is generalizing j with
  | nil => simp
  | cons i is ih =>
    obtain ⟨item, hitem⟩ := h i List.mem_cons_self
    rw [List.filterMap_cons_some (b := item.request) (by rw [hitem]; rfl)]
    cases j with
    | zero => simp [hitem]
    | succ j =>
      rw [List.getElem?_cons_succ, List.getElem?_cons_succ]
      exact ih (fun k hk => h k (List.mem_cons_of_mem _ hk)) j

theorem requestsOf_length (h : ∀ i ∈ is, ∃ item, b.items[i]? = some item) :
    (requestsOf b is).length = is.length := by
  unfold requestsOf
  induction is with
  | nil => rfl
  | cons i is ih =>
    obtain ⟨item, hitem⟩ := h i List.mem_cons_self
    rw [List.filterMap_cons_some (b := item.request) (by rw [hitem]; rfl), List.length_cons,
      List.length_cons, ih fun k hk => h k (List.mem_cons_of_mem _ hk)]

theorem mem_requestsOf {request : ChatCompletionRequest} :
    request ∈ requestsOf b is ↔ ∃ i ∈ is, ∃ item, b.items[i]? = some item ∧
      item.request = request := by
  simp [requestsOf]

/-- The requests of items do not change. -/
theorem requestsOf_evolves (hevolves : Evolves b b')
    (h : ∀ i ∈ is, ∃ item, b.items[i]? = some item) : requestsOf b' is = requestsOf b is := by
  unfold requestsOf
  apply List.filterMap_congr
  intro i hi
  obtain ⟨item, hitem⟩ := h i hi
  obtain ⟨item', hitem', -, hrequest, -⟩ := hevolves.item i item hitem
  rw [hitem, hitem', Option.map_some, Option.map_some, hrequest]

end Requests

/-! ## Steps -/

/-- The steps of the batcher that the endpoint and the backend let it take. -/
def Allowed (s : ChatSystem) (a : ChatAction) : BatcherAction → Prop
  | .submit _ request _ _ => request.streamValue = false ∧ request.nValue = 1
  | .answer f answer => ∃ outcome task, a = .answer f outcome ∧
      s.batcher.batcher.flushes[f]? = some task ∧
      answer = answerOf (requestsOf s.batcher.batcher task.items) outcome
  | _ => True

theorem stepBatcher_ok {c : BatcherAction} (h : s.stepBatcher c = .ok s') :
    s.batcher.step c = .ok s'.batcher := by
  unfold stepBatcher at h
  split at h
  · next b hb => exact Except.ok.inj h ▸ hb
  · cases h

/-- A step of the system is none of the batcher, or one that is allowed. -/
theorem batcher_step {a : ChatAction} (h : s.step a = .ok s') :
    s'.batcher = s.batcher ∨ ∃ c, s.batcher.step c = .ok s'.batcher ∧ Allowed s a c := by
  cases a with
  | call tenantId payload =>
    cases h
    exact .inl rfl
  | admitted k submittedAt dispatchedAt =>
    simp only [step] at h
    split at h
    · next tenantId payload _ =>
      unfold afterAdmission at h
      split at h
      · next heligible =>
        have hok := stepBatcher_ok h
        exact .inr ⟨_, hok, batchingEligibility_eligible heligible⟩
      · cases h
        exact .inl rfl
    · cases h
  | refused k =>
    simp only [step] at h
    split at h
    · cases h
      exact .inl rfl
    · cases h
  | answer f outcome =>
    simp only [step] at h
    split at h
    · cases h
    · next task hf => exact .inr ⟨_, stepBatcher_ok h, outcome, task, rfl, hf, rfl⟩
  | batcher c =>
    cases c with
    | submit tenantId request submittedAt dispatchedAt => cases h
    | answer f answer => cases h
    | cancel i => exact .inr ⟨_, stepBatcher_ok h, trivial⟩
    | resume i => exact .inr ⟨_, stepBatcher_ok h, trivial⟩
    | timer t now => exact .inr ⟨_, stepBatcher_ok h, trivial⟩
    | flush f => exact .inr ⟨_, stepBatcher_ok h, trivial⟩
    | timerDone t => exact .inr ⟨_, stepBatcher_ok h, trivial⟩
    | flushDone f => exact .inr ⟨_, stepBatcher_ok h, trivial⟩
    | shutdown => exact .inr ⟨_, stepBatcher_ok h, trivial⟩
    | resumeShutdown k => exact .inr ⟨_, stepBatcher_ok h, trivial⟩

/-- The invariant of the system: the batcher's, and only eligible requests are submitted. -/
structure ChatGood (s : ChatSystem) : Prop where
  batcher : BatcherSystem.SystemGood s.batcher
  eligible : ∀ (i : ItemId) (item : BatchItem), s.batcher.batcher.items[i]? = some item →
    item.request.streamValue = false ∧ item.request.nValue = 1

theorem chatGood_inductive : lts.Inductive ChatGood where
  init s h := by
    have hbatcher := BatcherSystem.systemGood_init h.1
    refine ⟨hbatcher, ?_⟩
    intro i item hitem
    obtain ⟨-, -, -, -, maxSize, maxWaitSeconds, observed, hinit⟩ := h.1
    rw [(BatcherSystem.new_of_init hinit).items] at hitem
    cases hitem
  step s a s' h _ hstep := by
    rcases batcher_step hstep with hsame | ⟨c, hstep, hallowed⟩
    · exact ⟨hsame ▸ h.batcher, hsame ▸ h.eligible⟩
    · refine ⟨(h.batcher.next hstep).1, ?_⟩
      intro i item' hitem'
      rcases h.batcher.step_requests hstep hitem' with
        ⟨item, hitem, -, hrequest⟩ | ⟨-, submittedAt, dispatchedAt, rfl⟩
      · rw [hrequest]
        exact h.eligible i item hitem
      · exact hallowed

/-! ## Batches -/

/-- The items of a detached batch are there, and have one key. -/
theorem ChatGood.member (h : ChatGood s) {task : FlushTask}
    (htask : task ∈ s.batcher.batcher.flushes) : ∃ key, ∀ i ∈ task.items, ∃ item,
      s.batcher.batcher.items[i]? = some item ∧
        compatibilityKey item.tenantId item.request = key := by
  obtain ⟨key, hmember⟩ := h.batcher.batcher.flushes.member task htask
  refine ⟨key, ?_⟩
  intro i hi
  obtain ⟨item, hitem, hkey⟩ := keyOf_eq_some.mp (hmember i hi).1
  exact ⟨item, hitem, (h.batcher.batcher.items.keyed i item hitem).symm.trans hkey⟩

/-- The requests of a detached batch are what `generate_batch` asks for. -/
structure Acceptable (requests : List ChatCompletionRequest) : Prop where
  nonempty : requests ≠ []
  single : ∀ r ∈ requests, r.streamValue = false ∧ r.nValue = 1
  shared : ∀ r ∈ requests, ∀ r' ∈ requests, r.toBatchSharedPayload = r'.toBatchSharedPayload

theorem ChatGood.acceptable (h : ChatGood s) {task : FlushTask}
    (htask : task ∈ s.batcher.batcher.flushes) :
    (requestsOf s.batcher.batcher task.items).length = task.items.length ∧
      Acceptable (requestsOf s.batcher.batcher task.items) := by
  obtain ⟨key, hmember⟩ := h.member htask
  have hlength : (requestsOf s.batcher.batcher task.items).length = task.items.length := by
    apply requestsOf_length
    intro i hi
    obtain ⟨item, hitem, -⟩ := hmember i hi
    exact ⟨item, hitem⟩
  refine ⟨hlength, ?_, ?_, ?_⟩
  · have hsize := (h.batcher.batcher.flushes.size task htask).1
    apply List.ne_nil_of_length_pos
    omega
  · intro r hr
    obtain ⟨i, -, item, hitem, rfl⟩ := mem_requestsOf.mp hr
    exact h.eligible i item hitem
  · intro r hr r' hr'
    obtain ⟨i, hi, item, hitem, rfl⟩ := mem_requestsOf.mp hr
    obtain ⟨i', hi', item', hitem', rfl⟩ := mem_requestsOf.mp hr'
    obtain ⟨item₁, hitem₁, hkey⟩ := hmember i hi
    obtain ⟨item₁', hitem₁', hkey'⟩ := hmember i' hi'
    obtain rfl := Option.some.inj (hitem.symm.trans hitem₁)
    obtain rfl := Option.some.inj (hitem'.symm.trans hitem₁')
    exact ((compatibilityKey_eq_iff_payload _ _ _ _).mp (hkey.trans hkey'.symm)).2

/-- `generate_batch` refuses no acceptable batch. -/
theorem Acceptable.not_refused {requests : List ChatCompletionRequest} (h : Acceptable requests)
    (post : Fields → UpstreamReply) :
    VLLMBackend.generateBatch requests post ≠ .error .capability := by
  obtain ⟨r, hr⟩ := List.exists_mem_of_ne_nil requests h.nonempty
  unfold VLLMBackend.generateBatch
  rw [VLLMBackend.batchPayload_ok h.nonempty h.single h.shared hr]
  dsimp only
  cases hreceive : VLLMBackend.receive (post (Json.setField r.toBatchSharedPayload "messages"
      (.arr (requests.map (·.messagesJson))))) with
  | error e =>
    intro heq
    rw [Except.error.inj heq] at hreceive
    exact VLLMBackend.receive_ne_capability _ hreceive
  | ok payload => exact VLLMBackend.demultiplex_ne_capability payload _

/-- Every list of requests that the batcher passes to `generate_batch` is accepted: it is not
    empty, its requests want one choice and no stream, and they have one shared payload, which
    is the one that is sent. -/
theorem batches_accepted (h : lts.Reachable s) : ∀ is ∈ s.batcher.calls,
    let requests := requestsOf s.batcher.batcher is
    requests.length = is.length ∧ requests ≠ [] ∧
    (∀ r ∈ requests, r.streamValue = false ∧ r.nValue = 1) ∧
    (∀ r ∈ requests, ∀ r' ∈ requests, r.toBatchSharedPayload = r'.toBatchSharedPayload) ∧
    (∀ r ∈ requests, VLLMBackend.batchPayload requests = .ok (Json.setField r.toBatchSharedPayload
      "messages" (.arr (requests.map (·.messagesJson))))) ∧
    ∀ post, VLLMBackend.generateBatch requests post ≠ .error .capability := by
  intro is his
  have hgood := chatGood_inductive.holds h
  obtain ⟨task, htask, -, rfl⟩ := hgood.batcher.calls is his
  obtain ⟨hlength, haccept⟩ := hgood.acceptable htask
  exact ⟨hlength, haccept.nonempty, haccept.single, haccept.shared,
    fun r hr => VLLMBackend.batchPayload_ok haccept.nonempty haccept.single haccept.shared hr,
    haccept.not_refused⟩

/-! ## A run -/

/-- A system with a batcher of two. -/
def pairSystem : ChatSystem where
  settings := { maxCompletionTokens := 4096, maxChoices := 4, dynamicBatchingEnabled := true }
  batcher := BatcherSystem.pairSystem
  calls := []

theorem pairSystem_init : Init pairSystem := ⟨BatcherSystem.pairSystem_init, rfl⟩

/-- Two calls of a tenant are admitted, and their batch is sent. -/
def pairRun : List ChatAction :=
  [.call "a" BatcherSystem.plainRequest, .call "a" BatcherSystem.plainRequest,
   .admitted 0 0 0, .admitted 1 1 1, .batcher (.flush 0)]

theorem batches_accepted_pairRun : ∃ s, Lts.exec step pairSystem pairRun = .ok s ∧
    (∀ is ∈ s.batcher.calls,
      let requests := requestsOf s.batcher.batcher is
      requests.length = is.length ∧ requests ≠ [] ∧
      (∀ r ∈ requests, r.streamValue = false ∧ r.nValue = 1) ∧
      (∀ r ∈ requests, ∀ r' ∈ requests, r.toBatchSharedPayload = r'.toBatchSharedPayload) ∧
      (∀ r ∈ requests, VLLMBackend.batchPayload requests = .ok (Json.setField
        r.toBatchSharedPayload "messages" (.arr (requests.map (·.messagesJson))))) ∧
      ∀ post, VLLMBackend.generateBatch requests post ≠ .error .capability) ∧
    s.batcher.calls = [[0, 1]] :=
  ⟨_, rfl, batches_accepted (Lts.reachable_of_exec pairSystem_init (s := pairSystem)
    (l := pairRun) rfl), rfl⟩

/-! ## What a member gets -/

/-- A choice with an index. -/
def tagged (choice : Fields) (index : Nat) : Json :=
  .obj (Json.setField choice "index" (.int index))

/-- The shared fields of a request body: all but its messages, where an explicit
    `"stream": false` or `"n": 1` is as good as none. -/
def sharedOf (body : Fields) : Fields :=
  body.filter fun f => f.1 ≠ "messages" ∧ f ≠ ("stream", .bool false) ∧ f ≠ ("n", .int 1)

/-- The server's answers to batches: one choice for each conversation, tagged with the index
    of the conversation, in some order. -/
def AnswersBatch (f : Fields → Json → Fields) (post : Fields → UpstreamReply) : Prop :=
  ∀ body conversations payload, Json.getField body "messages" = some (.arr conversations) →
    VLLMBackend.receive (post body) = .ok payload →
    ∃ choices, Json.getField payload "choices" = some (.arr choices) ∧
      choices.Perm (conversations.mapIdx fun i m => tagged (f (sharedOf body) m) i)

/-- The server's answers to single requests: the choice for the conversation, with index 0. -/
def AnswersSingle (f : Fields → Json → Fields) (post : Fields → UpstreamReply) : Prop :=
  ∀ body conversation payload, Json.getField body "messages" = some conversation →
    VLLMBackend.receive (post body) = .ok payload →
    Json.getField payload "choices" = some (.arr [tagged (f (sharedOf body) conversation) 0])

/-- The upstream server replies to every batch with the answers of `f`, or fails. -/
def Upstream (f : Fields → Json → Fields) (_ : ChatSystem) : ChatAction → Prop
  | .answer _ (.vllm post) => AnswersBatch f post
  | _ => True

/-- The shared fields of a batch's body. -/
theorem sharedOf_batch (r : ChatCompletionRequest) (messages : Json) :
    sharedOf (Json.setField r.toBatchSharedPayload "messages" messages) =
      r.toBatchSharedPayload := by
  have hkey : ∀ f ∈ r.toBatchSharedPayload, f.1 ≠ "messages" ∧ f.1 ≠ "stream" ∧ f.1 ≠ "n" := by
    intro f hf
    have hshared := ChatCompletionRequest.key_mem_sharedFields hf
    refine ⟨?_, ?_, ?_⟩ <;> intro heq <;> rw [heq] at hshared <;> revert hshared <;> decide
  have habsent : r.toBatchSharedPayload.any (·.1 = "messages") = false := by
    rw [List.any_eq_false]
    intro f hf
    simpa using (hkey f hf).1
  unfold sharedOf Json.setField
  rw [if_neg (by rw [habsent]; simp), List.filter_append, List.filter_eq_self.mpr]
  · simp
  · intro f hf
    obtain ⟨hmessages, hstream, hn⟩ := hkey f hf
    simp only [decide_eq_true_eq]
    exact ⟨hmessages, fun heq => hstream (heq ▸ rfl), fun heq => hn (heq ▸ rfl)⟩

/-- The shared fields of a single request's body. -/
theorem sharedOf_single {r : ChatCompletionRequest} (hstream : r.streamValue = false)
    (hn : r.nValue = 1) : sharedOf r.toUpstreamPayload = r.toBatchSharedPayload := by
  have hkeep : ∀ name value, name ≠ "messages" → name ≠ "stream" → name ≠ "n" →
      sharedOf (ChatCompletionRequest.member name value) =
        ChatCompletionRequest.member name value := by
    intro name value hmessages hstream hn
    unfold sharedOf
    rw [List.filter_eq_self]
    intro f hf
    have hkey := (ChatCompletionRequest.mem_member.mp hf).1
    simp only [decide_eq_true_eq]
    exact ⟨hkey ▸ hmessages, fun heq => hstream (hkey.symm.trans (heq ▸ rfl)),
      fun heq => hn (hkey.symm.trans (heq ▸ rfl))⟩
  have hmessages : sharedOf (ChatCompletionRequest.member "messages" (some r.messagesJson)) = [] := by
    simp [sharedOf, ChatCompletionRequest.member]
  have hstreamMember : sharedOf (ChatCompletionRequest.member "stream" (r.stream.map .bool)) = [] := by
    unfold ChatCompletionRequest.streamValue at hstream
    cases hval : r.stream with
    | none => rfl
    | some b =>
      rw [hval] at hstream
      simp [sharedOf, ChatCompletionRequest.member, show b = false from hstream]
  have hnMember : sharedOf (ChatCompletionRequest.member "n" (r.n.map .int)) = [] := by
    unfold ChatCompletionRequest.nValue at hn
    cases hval : r.n with
    | none => rfl
    | some k =>
      rw [hval] at hn
      simp [sharedOf, ChatCompletionRequest.member, show k = 1 from hn]
  have hoptions : r.streamOptions.join = none := by
    rw [← Option.not_isSome_iff_eq_none]
    intro hsome
    have hval := r.options_streaming hsome
    unfold ChatCompletionRequest.streamValue at hstream
    rw [hval] at hstream
    cases hstream
  have happend : ∀ p q : Fields, sharedOf (p ++ q) = sharedOf p ++ sharedOf q :=
    fun p q => List.filter_append ..
  rw [ChatCompletionRequest.toBatchSharedPayload_eq]
  unfold ChatCompletionRequest.toUpstreamPayload
  simp only [happend, hmessages, hstreamMember, hnMember, hoptions, List.append_nil]
  rw [hkeep "model" _ (by decide) (by decide) (by decide),
    hkeep "temperature" _ (by decide) (by decide) (by decide),
    hkeep "top_p" _ (by decide) (by decide) (by decide),
    hkeep "max_tokens" _ (by decide) (by decide) (by decide),
    hkeep "stop" _ (by decide) (by decide) (by decide),
    hkeep "seed" _ (by decide) (by decide) (by decide)]
  simp [ChatCompletionRequest.member, sharedOf]

/-- The results of the batches are those that `generate_batch` makes of the server's
    answers. -/
def Answered (f : Fields → Json → Fields) (b : DynamicBatcher) : Prop :=
  ∀ (k : FlushId) (task : FlushTask) result, b.flushes[k]? = some task →
    task.answer = some (.result result) → ∃ post, AnswersBatch f post ∧
      VLLMBackend.generateBatch (requestsOf b task.items) post = .ok result

theorem answered_inductive (f : Fields → Json → Fields) :
    lts.InductiveVia (Upstream f) fun s => ChatGood s ∧ Answered f s.batcher.batcher := by
  apply (chatGood_inductive.mono fun _ _ _ => trivial).and
  · intro s hinit k task result hk
    obtain ⟨-, -, -, -, maxSize, maxWaitSeconds, observed, hnew⟩ := hinit.1
    rw [(BatcherSystem.new_of_init hnew).flushes] at hk
    cases hk
  · intro s a s' hgood hanswered hupstream hstep k task' result hk' hresult
    rcases batcher_step hstep with hsame | ⟨c, hstep, hallowed⟩
    · rw [hsame] at hk' ⊢
      exact hanswered k task' result hk' hresult
    obtain ⟨task, hk, hitems, horigin⟩ :=
      (BatcherSystem.passes_step hstep).answers k task' _ hk' hresult
    -- the members are there already, so their requests are the same
    obtain ⟨key, hmember⟩ := hgood.member (List.mem_of_getElem? hk)
    have hrequests : requestsOf s'.batcher.batcher task.items =
        requestsOf s.batcher.batcher task.items := by
      apply requestsOf_evolves (hgood.batcher.next hstep).2.evolves
      intro i hi
      obtain ⟨item, hitem, -⟩ := hmember i hi
      exact ⟨item, hitem⟩
    rw [← hitems, hrequests]
    rcases horigin with hold | rfl
    · exact hanswered k task result hk hold
    · obtain ⟨outcome, task₁, rfl, hk₁, hanswer⟩ := hallowed
      obtain rfl := Option.some.inj (hk.symm.trans hk₁)
      cases outcome with
      | vllm post =>
        simp only [answerOf] at hanswer
        split at hanswer
        · next hok =>
          cases hanswer
          exact ⟨post, hupstream, hok⟩
        · cases hanswer
      | unrouted e => cases hanswer
      | cancelled => cases hanswer

/-- The response that a batch has for its member at a position is made of the answer to the
    member's conversation. -/
theorem generateBatch_response {f : Fields → Json → Fields} {post : Fields → UpstreamReply}
    {requests : List ChatCompletionRequest} {result : BackendBatchResult} (h : Acceptable requests)
    (hpost : AnswersBatch f post) (hok : VLLMBackend.generateBatch requests post = .ok result)
    {j : Nat} {r : ChatCompletionRequest} {response : Response} (hr : requests[j]? = some r)
    (hresponse : result.responses[j]? = some response) :
    Json.getField response "choices" =
      some (.arr [tagged (f r.toBatchSharedPayload r.messagesJson) 0]) := by
  unfold VLLMBackend.generateBatch at hok
  rw [VLLMBackend.batchPayload_ok h.nonempty h.single h.shared (List.mem_of_getElem? hr)] at hok
  dsimp only at hok
  split at hok
  · cases hok
  next payload hreceive =>
  have hmessages : Json.getField (Json.setField r.toBatchSharedPayload "messages"
      (.arr (requests.map (·.messagesJson)))) "messages" =
        some (.arr (requests.map (·.messagesJson))) := by
    rw [Json.getField_setField, if_pos rfl]
  obtain ⟨choices, hchoices, hperm⟩ := hpost _ _ payload hmessages hreceive
  rw [sharedOf_batch] at hperm
  -- the tags are the positions in the batch
  have hindexed : VLLMBackend.Indexed choices requests.length := by
    unfold VLLMBackend.Indexed
    have htags : ((requests.map (·.messagesJson)).mapIdx fun i m =>
        tagged (f r.toBatchSharedPayload m) i).map VLLMBackend.choiceIndex =
          (List.range requests.length).map fun i => some (Int.ofNat i) := by
      apply List.ext_getElem?
      intro k
      rw [List.getElem?_map, List.getElem?_mapIdx, List.getElem?_map, List.getElem?_map]
      by_cases hk : k < requests.length
      · rw [List.getElem?_eq_getElem hk, List.getElem?_range hk]
        simp [tagged, VLLMBackend.choiceIndex, Json.getField_setField]
      · rw [List.getElem?_eq_none (by omega), List.getElem?_eq_none (by simp; omega)]
        rfl
    rw [← htags]
    exact hperm.map _
  rw [VLLMBackend.demultiplex_ok hchoices hindexed] at hok
  rw [← Except.ok.inj hok] at hresponse
  have hlt : j < requests.length := (List.getElem?_eq_some_iff.mp hr).1
  rw [List.getElem?_map, List.getElem?_range hlt] at hresponse
  rw [← Option.some.inj hresponse]
  -- the member's choice is the one for its conversation
  have hmem : tagged (f r.toBatchSharedPayload r.messagesJson) j ∈ choices := by
    rw [hperm.mem_iff]
    apply List.mem_of_getElem? (i := j)
    rw [List.getElem?_mapIdx, List.getElem?_map, hr]
    rfl
  have hat := VLLMBackend.choiceAt_eq hindexed hmem
    (by rw [Json.getField_setField, if_pos rfl])
  rw [VLLMBackend.responseAt, Json.getField_append, VLLMBackend.getField_safeBatchFields,
    if_neg (by decide), hat, Json.setField_setField]
  rfl

/-- A member of a batch gets the choices that the server's answer to its own conversation has,
    and these are the choices that `generate` gets for the same request. -/
theorem batching_transparent {f : Fields → Json → Fields} (h : lts.ReachableVia (Upstream f) s)
    {i : ItemId} {call : SubmitCall} {item : BatchItem} {response : Response}
    (hcall : s.batcher.submits[i]? = some call) (hreturned : call.outcome = some (.returned response))
    (hitem : s.batcher.batcher.items[i]? = some item) :
    Json.getField response "choices" = some (.arr
      [tagged (f item.request.toBatchSharedPayload item.request.messagesJson) 0]) ∧
    ∀ post single, AnswersSingle f post → VLLMBackend.generate item.request post = .ok single →
      Json.getField single "choices" = Json.getField response "choices" := by
  obtain ⟨hgood, hanswered⟩ := (answered_inductive f).holds h
  have hmatches := hgood.batcher.submits i call item hcall hitem
  obtain ⟨task, htask, answer, j, hanswer, hfailure, hj, hresponse⟩ :=
    hgood.batcher.batcher.items.result i item response hitem (hmatches.returned response hreturned)
  obtain ⟨k, hk⟩ := List.mem_iff_getElem?.mp htask
  have hchoices : Json.getField response "choices" = some (.arr
      [tagged (f item.request.toBatchSharedPayload item.request.messagesJson) 0]) := by
    cases answer with
    | result result =>
      obtain ⟨post, hpost, hok⟩ := hanswered k task result hk hanswer
      obtain ⟨key, hmember⟩ := hgood.member htask
      have hrequest : (requestsOf s.batcher.batcher task.items)[j]? = some item.request := by
        rw [requestsOf_getElem? fun i hi => by
          obtain ⟨item, hitem, -⟩ := hmember i hi
          exact ⟨item, hitem⟩]
        rw [hj]
        simp [hitem]
      exact generateBatch_response (hgood.acceptable htask).2 hpost hok hrequest hresponse
    | foreign => cases hresponse
    | raised e => cases hresponse
    | cancelled => cases hresponse
  refine ⟨hchoices, ?_⟩
  intro post single hpost hsingle
  obtain ⟨hstream, hn⟩ := hgood.eligible i item hitem
  rw [hchoices, ← sharedOf_single hstream hn]
  exact hpost _ _ single (ChatCompletionRequest.getField_messages item.request) hsingle

/-- A server that says back what it is told, and lists the choices of a batch in reverse. -/
def echo (body : Fields) : UpstreamReply :=
  match Json.getField body "messages" with
  | some (.arr conversations) =>
    .response 200 (some (.obj [("choices", .arr
      (conversations.mapIdx fun i m => tagged [("message", m)] i).reverse)]))
  | _ => .requestError

theorem echo_answersBatch : AnswersBatch (fun _ m => [("message", m)]) echo := by
  intro body conversations payload hmessages hreceive
  unfold echo at hreceive
  rw [hmessages] at hreceive
  cases hreceive
  exact ⟨_, rfl, List.reverse_perm _⟩

/-- Two calls with different conversations, whose batch is answered. -/
def echoRun : List ChatAction :=
  [.call "a" BatcherSystem.plainRequest,
   .call "a" { BatcherSystem.plainRequest with messages := [⟨.user, "hello"⟩] },
   .admitted 0 0 0, .admitted 1 1 1, .batcher (.flush 0), .answer 0 (.vllm echo),
   .batcher (.resume 0), .batcher (.resume 1)]

theorem echoRun_reachable (h : Lts.exec step pairSystem echoRun = .ok s) :
    lts.ReachableVia (Upstream fun _ m => [("message", m)]) s := by
  apply (Lts.ReachableVia.init (T := lts) pairSystem_init).exec (l := echoRun)
  · intro a ha s
    simp only [echoRun, List.mem_cons, List.not_mem_nil, or_false] at ha
    rcases ha with rfl | rfl | rfl | rfl | rfl | rfl | rfl | rfl
    all_goals first | exact echo_answersBatch | trivial
  · exact h

theorem batching_transparent_echoRun : ∃ s call item response,
    Lts.exec step pairSystem echoRun = .ok s ∧ s.batcher.submits[1]? = some call ∧
    call.outcome = some (.returned response) ∧ s.batcher.batcher.items[1]? = some item ∧
    Json.getField response "choices" = some (.arr [tagged [("message", item.request.messagesJson)] 0]) ∧
    ∀ post single, AnswersSingle (fun _ m => [("message", m)]) post →
      VLLMBackend.generate item.request post = .ok single →
      Json.getField single "choices" = Json.getField response "choices" :=
  ⟨_, _, _, _, rfl, rfl, rfl, rfl,
    batching_transparent (f := fun _ m => [("message", m)]) (i := 1) (echoRun_reachable rfl) rfl rfl
      rfl⟩

end ChatSystem

end Gateway
