import Gateway.Model.ChatSchema

/-!
# Compatibility keys

`compatibility_key` is a JSON text with another one inside. Both are injective, and the
keys of the inner object identify its members, so two requests have one key only if they
have one tenant and one shared payload.

## Key results

- `toBatchSharedPayload_eq_iff`: the shared payload is given by the fields that are
  supplied and not null
- `compatibilityKey_eq_iff`: so is the key, with the tenant
-/

namespace Gateway

namespace ChatCompletionRequest

/-- The fields of a request that are not shared in a batch. -/
def memberFields : List String := ["messages", "stream", "stream_options", "n"]

theorem getField_member_append (name : String) (value : Option Json)
    (rest : List (String × Json)) (key : String) :
    Json.getField (member name value ++ rest) key =
      if name = key then value <|> Json.getField rest key else Json.getField rest key := by
  cases value with
  | none => simp [member]
  | some x => simp [member, Json.getField_cons]

theorem getField_member (name : String) (value : Option Json) (key : String) :
    Json.getField (member name value) key = if name = key then value else none := by
  have h := getField_member_append name value [] key
  simpa using h

theorem getField_pop (name : String) (payload : List (String × Json)) (key : String) :
    Json.getField (pop name payload) key = if key = name then none else Json.getField payload key := by
  unfold pop
  induction payload with
  | nil => simp
  | cons f payload ih =>
    by_cases hname : f.1 = name
    · rw [List.filter_cons_of_neg (by simpa using hname), ih, Json.getField_cons]
      by_cases hkey : key = name
      · rw [if_pos hkey, if_pos hkey]
      · rw [if_neg hkey, if_neg hkey, if_neg (by rw [hname]; exact Ne.symm hkey)]
    · rw [List.filter_cons_of_pos (by simpa using hname), Json.getField_cons, ih,
        Json.getField_cons]
      by_cases hkey : key = name
      · rw [if_pos hkey, if_pos hkey, if_neg (by rw [hkey]; exact hname)]
      · rw [if_neg hkey, if_neg hkey]

/-- The shared payload has every other field of the upstream payload. -/
theorem getField_toBatchSharedPayload (r : ChatCompletionRequest) (key : String) :
    Json.getField r.toBatchSharedPayload key =
      if key ∈ memberFields then none else Json.getField r.toUpstreamPayload key := by
  unfold toBatchSharedPayload memberFields
  simp only [getField_pop, List.mem_cons, List.not_mem_nil, or_false]
  split_ifs <;> simp_all

/-- The names of the shared fields, as they are dumped. -/
def sharedFields : List String := ["model", "temperature", "top_p", "max_tokens", "stop", "seed"]

theorem keyed_toBatchSharedPayload (r : ChatCompletionRequest) :
    Json.Keyed r.toBatchSharedPayload := by
  have hmember : ∀ name value, ((member name value).map Prod.fst).Sublist [name] := by
    intro name value
    cases value <;> simp [member]
  have hsub : (r.toBatchSharedPayload.map Prod.fst).Sublist sharedFields := by
    rw [toBatchSharedPayload_eq]
    simp only [List.map_append]
    exact (((((hmember _ _).append (hmember _ _)).append (hmember _ _)).append
      (hmember _ _)).append (hmember _ _)).append (hmember _ _)
  exact hsub.nodup (by decide)

/-- Each field of a shared payload. -/
theorem getField_shared (r : ChatCompletionRequest) :
    Json.getField r.toBatchSharedPayload "model" = some (.str r.model) ∧
    Json.getField r.toBatchSharedPayload "temperature" = r.temperature.map .float ∧
    Json.getField r.toBatchSharedPayload "top_p" = r.topP.map .float ∧
    Json.getField r.toBatchSharedPayload "max_tokens" = r.maxTokens.join.map .int ∧
    Json.getField r.toBatchSharedPayload "stop" = r.stop.join.map (·.toJson) ∧
    Json.getField r.toBatchSharedPayload "seed" = r.seed.join.map .int := by
  rw [toBatchSharedPayload_eq]
  simp only [List.append_assoc]
  refine ⟨?_, ?_, ?_, ?_, ?_, ?_⟩ <;> simp [getField_member_append, getField_member]

/-- The shared payload is given by its fields: their order is fixed. -/
theorem toBatchSharedPayload_eq_iff (r₁ r₂ : ChatCompletionRequest) :
    r₁.toBatchSharedPayload = r₂.toBatchSharedPayload ↔
      ∀ key ∉ memberFields,
        Json.getField r₁.toUpstreamPayload key = Json.getField r₂.toUpstreamPayload key := by
  constructor
  · intro h key hkey
    have hfield := congrArg (Json.getField · key) h
    simpa [getField_toBatchSharedPayload, hkey] using hfield
  · intro h
    have hfield : ∀ key, Json.getField r₁.toBatchSharedPayload key =
        Json.getField r₂.toBatchSharedPayload key := by
      intro key
      rw [getField_toBatchSharedPayload, getField_toBatchSharedPayload]
      by_cases hkey : key ∈ memberFields
      · rw [if_pos hkey, if_pos hkey]
      · rw [if_neg hkey, if_neg hkey]
        exact h key hkey
    obtain ⟨hmodel, htemperature, htopP, hmaxTokens, hstop, hseed⟩ := getField_shared r₁
    obtain ⟨hmodel', htemperature', htopP', hmaxTokens', hstop', hseed'⟩ := getField_shared r₂
    rw [toBatchSharedPayload_eq, toBatchSharedPayload_eq, ← hmodel, ← htemperature, ← htopP,
      ← hmaxTokens, ← hstop, ← hseed, ← hmodel', ← htemperature', ← htopP', ← hmaxTokens',
      ← hstop', ← hseed']
    simp only [hfield]

theorem mem_member {name : String} {value : Option Json} {f : String × Json} :
    f ∈ member name value ↔ f.1 = name ∧ value = some f.2 := by
  obtain ⟨key, x⟩ := f
  cases value <;> simp [member, eq_comm]

theorem sortKeys_stop (stop : Stop) : Json.sortKeys stop.toJson = stop.toJson := by
  have hitems : ∀ ss : List String, Json.sortKeysItems (ss.map .str) = ss.map .str := by
    intro ss
    induction ss with
    | nil => rfl
    | cons s ss ih =>
      show Json.str s :: Json.sortKeysItems (ss.map .str) = .str s :: ss.map .str
      rw [ih]
  cases stop with
  | one s => rfl
  | many ss =>
    show Json.arr (Json.sortKeysItems (ss.map .str)) = .arr (ss.map .str)
    rw [hitems]

/-- No value of a shared payload has an object in it, so sorting leaves it as it is. -/
theorem sortKeys_shared {r : ChatCompletionRequest} {f : String × Json}
    (h : f ∈ r.toBatchSharedPayload) : Json.sortKeys f.2 = f.2 := by
  have hmap : ∀ {α : Type} {x : Option α} {g : α → Json}, (∀ a, Json.sortKeys (g a) = g a) →
      x.map g = some f.2 → Json.sortKeys f.2 = f.2 := by
    intro α x g hg hx
    obtain ⟨a, -, ha⟩ := Option.map_eq_some_iff.mp hx
    rw [← ha]
    exact hg a
  rw [toBatchSharedPayload_eq] at h
  simp only [List.mem_append, mem_member] at h
  obtain ((((⟨-, hx⟩ | ⟨-, hx⟩) | ⟨-, hx⟩) | ⟨-, hx⟩) | ⟨-, hx⟩) | ⟨-, hx⟩ := h
  · rw [← Option.some.inj hx]
    rfl
  · exact hmap (fun _ => rfl) hx
  · exact hmap (fun _ => rfl) hx
  · exact hmap (fun _ => rfl) hx
  · exact hmap sortKeys_stop hx
  · exact hmap (fun _ => rfl) hx

/-- The sorted text of a shared payload determines it. -/
theorem dumpsSorted_toBatchSharedPayload_inj {r₁ r₂ : ChatCompletionRequest}
    (h : Json.dumpsSorted (.obj r₁.toBatchSharedPayload) =
      Json.dumpsSorted (.obj r₂.toBatchSharedPayload)) :
    r₁.toBatchSharedPayload = r₂.toBatchSharedPayload := by
  rw [toBatchSharedPayload_eq_iff]
  intro key hkey
  have hfield := Json.getField_of_dumpsSorted_eq (keyed_toBatchSharedPayload r₁) h key
  rw [← Json.getField_sortKeysFields, ← Json.getField_sortKeysFields,
    Json.sortKeysFields_eq_self fun f => sortKeys_shared,
    Json.sortKeysFields_eq_self fun f => sortKeys_shared,
    getField_toBatchSharedPayload, getField_toBatchSharedPayload, if_neg hkey, if_neg hkey] at hfield
  exact hfield

end ChatCompletionRequest

/-- Requests have one key if they have one tenant and one shared payload. -/
theorem compatibilityKey_eq_iff_payload (t₁ t₂ : String) (r₁ r₂ : ChatCompletionRequest) :
    compatibilityKey t₁ r₁ = compatibilityKey t₂ r₂ ↔
      t₁ = t₂ ∧ r₁.toBatchSharedPayload = r₂.toBatchSharedPayload := by
  constructor
  · intro h
    have hdoc := Json.dumps_injective h
    simp only [Json.arr.injEq, List.cons.injEq, Json.str.injEq, and_true] at hdoc
    exact ⟨hdoc.1, ChatCompletionRequest.dumpsSorted_toBatchSharedPayload_inj hdoc.2⟩
  · intro ⟨htenant, hpayload⟩
    unfold compatibilityKey
    rw [htenant, hpayload]

/-- Two requests get one key exactly if they are of one tenant and have, apart from the
    messages and the fields that batching fixes, the same supplied fields that are not null,
    with the same values. -/
theorem compatibilityKey_eq_iff (t₁ t₂ : String) (r₁ r₂ : ChatCompletionRequest) :
    compatibilityKey t₁ r₁ = compatibilityKey t₂ r₂ ↔
      t₁ = t₂ ∧ ∀ key ∉ ["messages", "stream", "stream_options", "n"],
        Json.getField r₁.toUpstreamPayload key = Json.getField r₂.toUpstreamPayload key := by
  rw [compatibilityKey_eq_iff_payload, ChatCompletionRequest.toBatchSharedPayload_eq_iff]
  exact Iff.rfl

end Gateway
