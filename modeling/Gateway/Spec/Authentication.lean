import Gateway.Model.Tenants

/-!
# Bearer authentication

Which headers authenticate which tenant, for any mapping that the settings accept.

## Key results

- `extractBearerToken_eq_ok`: the headers that a token is taken from
- `Settings.authenticate_eq_ok`: the headers that authenticate a tenant
- `authenticate_exact`: authentication is exact, and one tenant's does not hang on the others
-/

namespace Gateway

/-- The header is a spelling of `bearer`, one space and the key. -/
def BearerHeader (key header : Text) : Prop :=
  ∃ scheme : Text, scheme.map Char.toLower = "bearer".toList ∧ header = scheme ++ ' ' :: key

theorem isBearerToken_iff {t : Text} :
    isBearerToken t = true ↔
      t ≠ [] ∧ (∀ c ∈ t, c.toNat < 128) ∧ ∀ c ∈ t, Text.isPythonSpace c = false := by
  simp [isBearerToken, isAscii, and_assoc]

theorem not_mem_space {t : Text} (h : isBearerToken t = true) : ' ' ∉ t := by
  intro hmem
  have hspace := (isBearerToken_iff.mp h).2.2 ' ' hmem
  exact absurd hspace (by decide)

theorem isAscii_of_isBearerToken {t : Text} (h : isBearerToken t = true) : isAscii t = true := by
  simpa [isAscii] using (isBearerToken_iff.mp h).2.1

theorem TenantConfig.isBearerToken_apiKey (c : TenantConfig) : isBearerToken c.apiKey = true := by
  have hvalid := c.apiKey_valid
  unfold validateApiKey at hvalid
  split at hvalid
  · assumption
  · cases hvalid

/-! ## The header -/

theorem casefold_eq_bearer (scheme : Text) :
    Text.casefold scheme = "bearer".toList ↔ scheme.map Char.toLower = "bearer".toList := by
  apply Text.casefold_eq_iff
  have hown : ("bearer".toList.all Text.isOwnFold) = true := by decide
  exact List.all_eq_true.mp hown

theorem BearerHeader.splitOn {key header : Text} (h : BearerHeader key header) (hkey : ' ' ∉ key) :
    ∃ scheme : Text, Text.casefold scheme = "bearer".toList ∧
      header.splitOn ' ' = [scheme, key] := by
  obtain ⟨scheme, hscheme, rfl⟩ := h
  have hspace : ' ' ∉ scheme := by
    intro hmem
    have hlower : Char.toLower ' ' ∈ "bearer".toList := hscheme ▸ List.mem_map_of_mem hmem
    exact absurd hlower (by decide)
  refine ⟨scheme, (casefold_eq_bearer scheme).mpr hscheme, ?_⟩
  have hparts : ∀ l ∈ [scheme, key], ' ' ∉ l := by simp [hspace, hkey]
  have hsplit := List.splitOn_intercalate ' ' hparts (by simp)
  simpa [List.intercalate] using hsplit

/-- A token is taken from the headers that carry it, if it is one that a key could be. -/
theorem extractBearerToken_eq_ok {authorization : Option Text} {token : Text} :
    TenantRegistry.extractBearerToken authorization = .ok token ↔
      isBearerToken token = true ∧ ∃ header, authorization = some header ∧
        BearerHeader token header := by
  constructor
  · intro h
    unfold TenantRegistry.extractBearerToken at h
    split at h
    · cases h
    · next header =>
      split at h
      · next scheme part hsplit =>
        split at h
        · cases h
        · next hchecks =>
          cases h
          simp only [Bool.or_eq_true, decide_eq_true_eq, Bool.not_eq_true', not_or, ne_eq,
            Decidable.not_not, Bool.not_eq_false] at hchecks
          refine ⟨hchecks.2, header, rfl, scheme, (casefold_eq_bearer scheme).mp hchecks.1, ?_⟩
          have hjoin : [' '].intercalate (header.splitOn ' ') = header :=
            List.intercalate_splitOn ' '
          rw [hsplit] at hjoin
          simpa [List.intercalate] using hjoin.symm
      · cases h
  · intro h
    obtain ⟨htoken, header, rfl, hheader⟩ := h
    obtain ⟨scheme, hscheme, hsplit⟩ := hheader.splitOn (not_mem_space htoken)
    simp only [TenantRegistry.extractBearerToken, hsplit, hscheme, htoken]
    rfl

theorem extractBearerToken_error {authorization : Option Text} {e : AuthenticationError}
    (h : TenantRegistry.extractBearerToken authorization = .error e) : e = .unauthorized := by
  unfold TenantRegistry.extractBearerToken at h
  split at h
  · cases h
    rfl
  · split at h
    · split at h <;> cases h
      rfl
    · cases h
      rfl

/-! ## The entries -/

/-- Comparing ASCII texts does not fail, so the loop looks for the last equal key. -/
theorem matchEntries_eq {token : Text} (htoken : isAscii token = true)
    {entries : List (Text × TenantContext)} (hentries : ∀ e ∈ entries, isAscii e.1 = true)
    (matched : Option TenantContext) :
    TenantRegistry.matchEntries token matched entries =
      .ok (entries.foldl (fun m e => if token = e.1 then some e.2 else m) matched) := by
  induction entries generalizing matched with
  | nil => rfl
  | cons e entries ih =>
    have hsame : compareDigest token e.1 = .ok (decide (token = e.1)) := by
      simp [compareDigest, htoken, hentries e (List.mem_cons_self ..)]
    have hrest := ih (fun e' he' => hentries e' (List.mem_cons_of_mem _ he'))
    show (compareDigest token e.1).bind _ = _
    rw [hsame]
    show TenantRegistry.matchEntries token _ entries = _
    rw [hrest, List.foldl_cons]
    simp only [decide_eq_true_eq]

/-- Where the keys are distinct, the match is the entry with the key. -/
theorem foldl_match {token : Text} {entries : List (Text × TenantContext)}
    (hnodup : (entries.map Prod.fst).Nodup) (matched : Option TenantContext) (T : TenantContext) :
    entries.foldl (fun m e => if token = e.1 then some e.2 else m) matched = some T ↔
      (token, T) ∈ entries ∨ (token ∉ entries.map Prod.fst ∧ matched = some T) := by
  induction entries generalizing matched with
  | nil => simp
  | cons e entries ih =>
    obtain ⟨key, tenant⟩ := e
    rw [List.map_cons, List.nodup_cons] at hnodup
    rw [List.foldl_cons, ih hnodup.2]
    by_cases hkey : token = key
    · subst hkey
      have habsent : (token, T) ∉ entries := by
        intro hmem
        exact hnodup.1 (List.mem_map.mpr ⟨(token, T), hmem, rfl⟩)
      simp [hnodup.1, habsent, eq_comm]
    · simp [hkey]

/-! ## The registry of accepted settings -/

/-- The context of a configured tenant. -/
def TenantConfig.context (c : TenantConfig) (tenantId : String) : TenantContext :=
  ⟨tenantId, c.maxInflight, c.maxQueue, c.maxInflight_pos, c.maxQueue_nonneg⟩

theorem validateTenants_ok {seen : List Text} {tenants : List (String × TenantConfig)}
    (h : validateTenants seen tenants = .ok ()) :
    (∀ p ∈ tenants, isBlank p.1 = false) ∧ (∀ p ∈ tenants, p.2.apiKey ∉ seen) ∧
      (tenants.map fun p => p.2.apiKey).Nodup := by
  induction tenants generalizing seen with
  | nil => simp
  | cons p tenants ih =>
    obtain ⟨tenantId, tenant⟩ := p
    rw [validateTenants] at h
    split at h
    · cases h
    next hblank =>
    split at h
    · cases h
    next hseen =>
    obtain ⟨hids, hkeys, hnodup⟩ := ih h
    refine ⟨?_, ?_, ?_⟩
    · simpa [hblank] using hids
    · intro q hq
      rcases List.mem_cons.mp hq with rfl | hq
      · exact hseen
      · exact fun hmem => hkeys q hq (List.mem_cons_of_mem _ hmem)
    · rw [List.map_cons, List.nodup_cons]
      refine ⟨?_, hnodup⟩
      intro hmem
      obtain ⟨q, hq, hkey⟩ := List.mem_map.mp hmem
      exact hkeys q hq (hkey ▸ List.mem_cons_self ..)

namespace Settings

variable (s : Settings)

theorem validateTenants_tenants : validateTenants [] s.tenants.entries = .ok () := by
  have hvalid := s.mappings_valid
  unfold validateMappings at hvalid
  split at hvalid
  · cases hvalid
  · split at hvalid
    · cases hvalid
    · exact hvalid

/-- The registry that `TenantRegistry.__init__` makes. -/
def registry : TenantRegistry :=
  ⟨s.tenants.entries.map fun p => (p.2.apiKey, p.2.context p.1)⟩

theorem make_tenants : TenantRegistry.make s.tenants = .ok s.registry := by
  have hids := (validateTenants_ok s.validateTenants_tenants).1
  have hmake : ∀ p ∈ s.tenants.entries,
      TenantContext.make p.1 p.2.maxInflight p.2.maxQueue = .ok (p.2.context p.1) := by
    intro p hp
    have hlimits : 0 < p.2.maxInflight ∧ 0 ≤ p.2.maxQueue :=
      ⟨p.2.maxInflight_pos, p.2.maxQueue_nonneg⟩
    rw [TenantContext.make, hids p hp, if_neg Bool.false_ne_true, dif_pos hlimits]
    rfl
  unfold TenantRegistry.make registry
  generalize s.tenants.entries = entries at hmake
  have hentries : (entries.mapM fun p => do
      let context ← TenantContext.make p.1 p.2.maxInflight p.2.maxQueue
      return (p.2.apiKey, context)) =
        Except.ok (ε := String) (entries.map fun p => (p.2.apiKey, p.2.context p.1)) := by
    induction entries with
    | nil => rfl
    | cons p entries ih =>
      have hp := hmake p (List.mem_cons_self ..)
      have hrest := ih fun q hq => hmake q (List.mem_cons_of_mem _ hq)
      rw [List.mapM_cons, hp, hrest]
      rfl
  rw [hentries]
  rfl

theorem keys_registry :
    s.registry.entries.map Prod.fst = s.tenants.entries.map fun p => p.2.apiKey := by
  simp [registry]

theorem isBearerToken_of_mem {e : Text × TenantContext} (he : e ∈ s.registry.entries) :
    isBearerToken e.1 = true := by
  obtain ⟨p, -, rfl⟩ := List.mem_map.mp he
  exact p.2.isBearerToken_apiKey

theorem mem_registry {token : Text} {T : TenantContext} :
    (token, T) ∈ s.registry.entries ↔
      ∃ tenantId config, s.tenants.get? tenantId = some config ∧ config.apiKey = token ∧
        config.context tenantId = T := by
  simp [registry, Dict.get?_eq_some]

theorem matchEntries_registry {token : Text} (htoken : isBearerToken token = true) :
    ∃ matched, TenantRegistry.matchEntries token none s.registry.entries = .ok matched ∧
      ∀ T, matched = some T ↔ (token, T) ∈ s.registry.entries := by
  have hnodup : (s.registry.entries.map Prod.fst).Nodup := by
    rw [keys_registry]
    exact (validateTenants_ok s.validateTenants_tenants).2.2
  refine ⟨_, matchEntries_eq (isAscii_of_isBearerToken htoken)
    (fun e he => isAscii_of_isBearerToken (s.isBearerToken_of_mem he)) none, fun T => ?_⟩
  rw [foldl_match hnodup]
  simp

/-- A header authenticates a tenant if it carries the tenant's key. -/
theorem authenticate_eq_ok {authorization : Option Text} {T : TenantContext} :
    s.registry.authenticate authorization = .ok T ↔
      ∃ tenantId config header, s.tenants.get? tenantId = some config ∧
        T = config.context tenantId ∧ authorization = some header ∧
        BearerHeader config.apiKey header := by
  unfold TenantRegistry.authenticate
  constructor
  · intro h
    cases htoken : TenantRegistry.extractBearerToken authorization with
    | error e => simp [htoken, bind, Except.bind] at h
    | ok token =>
      obtain ⟨hbearer, header, hheader, hcarries⟩ := extractBearerToken_eq_ok.mp htoken
      obtain ⟨matched, hmatch, hmem⟩ := s.matchEntries_registry hbearer
      cases matched with
      | none => simp [htoken, hmatch, bind, Except.bind] at h
      | some tenant =>
        have hT : tenant = T := by simpa [htoken, hmatch, bind, Except.bind] using h
        obtain ⟨tenantId, config, hget, hkey, hcontext⟩ := s.mem_registry.mp ((hmem tenant).mp rfl)
        subst hkey
        exact ⟨tenantId, config, header, hget, by rw [hcontext, hT], hheader, hcarries⟩
  · intro h
    obtain ⟨tenantId, config, header, hget, rfl, hheader, hcarries⟩ := h
    have hbearer := config.isBearerToken_apiKey
    have htoken := extractBearerToken_eq_ok.mpr ⟨hbearer, header, hheader, hcarries⟩
    obtain ⟨matched, hmatch, hmem⟩ := s.matchEntries_registry hbearer
    have hfound := (hmem (config.context tenantId)).mpr
      (s.mem_registry.mpr ⟨tenantId, config, hget, rfl, rfl⟩)
    simp [htoken, hmatch, hfound, bind, Except.bind]

/-- Whatever the header, nothing but `UnauthorizedError` is raised. -/
theorem authenticate_error {authorization : Option Text} {e : AuthenticationError}
    (h : s.registry.authenticate authorization = .error e) : e = .unauthorized := by
  unfold TenantRegistry.authenticate at h
  cases htoken : TenantRegistry.extractBearerToken authorization with
  | error e' =>
    have he : e' = e := by simpa [htoken, bind, Except.bind] using h
    rw [← he]
    exact extractBearerToken_error htoken
  | ok token =>
    obtain ⟨hbearer, -⟩ := extractBearerToken_eq_ok.mp htoken
    obtain ⟨matched, hmatch, -⟩ := s.matchEntries_registry hbearer
    cases matched with
    | none =>
      have he : AuthenticationError.unauthorized = e := by
        simpa [htoken, hmatch, bind, Except.bind] using h
      exact he.symm
    | some tenant => simp [htoken, hmatch, bind, Except.bind] at h

/-- No two tenants have a header in common. -/
theorem tenantId_unique {tenantId tenantId' : String} {config config' : TenantConfig}
    {header : Text} (h : s.tenants.get? tenantId = some config)
    (h' : s.tenants.get? tenantId' = some config') (hheader : BearerHeader config.apiKey header)
    (hheader' : BearerHeader config'.apiKey header) : tenantId = tenantId' := by
  have hauth := s.authenticate_eq_ok.mpr ⟨tenantId, config, header, h, rfl, rfl, hheader⟩
  have hauth' := s.authenticate_eq_ok.mpr ⟨tenantId', config', header, h', rfl, rfl, hheader'⟩
  rw [hauth] at hauth'
  have hcontext : config.context tenantId = config'.context tenantId' := by simpa using hauth'
  exact congrArg TenantContext.tenantId hcontext

end Settings

theorem bearerHeader_self (key : Text) : BearerHeader key ("Bearer ".toList ++ key) :=
  ⟨"Bearer".toList, by decide, rfl⟩

/-- Authentication is exact. The registry of accepted settings returns a tenant for the
    headers that spell `bearer` in either case, then one space, then the tenant's key, and
    raises `UnauthorizedError` for all others. No header is two tenants', every tenant has
    one, and a tenant that other accepted settings have too is authenticated there by the
    same headers. -/
theorem authenticate_exact (s : Settings) :
    ∃ registry, TenantRegistry.make s.tenants = .ok registry ∧
      (∀ authorization T, registry.authenticate authorization = .ok T ↔
        ∃ tenantId config header, s.tenants.get? tenantId = some config ∧
          T = config.context tenantId ∧ authorization = some header ∧
          BearerHeader config.apiKey header) ∧
      (∀ authorization, (∀ T, registry.authenticate authorization ≠ .ok T) →
        registry.authenticate authorization = .error .unauthorized) ∧
      (∀ tenantId config tenantId' config' header, s.tenants.get? tenantId = some config →
        s.tenants.get? tenantId' = some config' → BearerHeader config.apiKey header →
        BearerHeader config'.apiKey header → tenantId = tenantId') ∧
      (∀ tenantId config, s.tenants.get? tenantId = some config →
        ∃ header, registry.authenticate (some header) = .ok (config.context tenantId)) ∧
      ∀ (s' : Settings) registry', TenantRegistry.make s'.tenants = .ok registry' →
        ∀ authorization T, registry.authenticate authorization = .ok T →
          s'.tenants.get? T.tenantId = s.tenants.get? T.tenantId →
          registry'.authenticate authorization = .ok T := by
  refine ⟨s.registry, s.make_tenants, fun _ _ => s.authenticate_eq_ok, ?_, ?_, ?_, ?_⟩
  · intro authorization hnone
    cases hauth : s.registry.authenticate authorization with
    | ok T => exact absurd hauth (hnone T)
    | error e => rw [s.authenticate_error hauth]
  · intro tenantId config tenantId' config' header h h' hheader hheader'
    exact s.tenantId_unique h h' hheader hheader'
  · intro tenantId config hget
    exact ⟨_, s.authenticate_eq_ok.mpr
      ⟨tenantId, config, _, hget, rfl, rfl, bearerHeader_self config.apiKey⟩⟩
  · intro s' registry' hmake authorization T hauth hkept
    have hregistry : registry' = s'.registry := by
      have hsame := hmake.symm.trans s'.make_tenants
      simpa using hsame
    obtain ⟨tenantId, config, header, hget, rfl, hheader, hcarries⟩ := s.authenticate_eq_ok.mp hauth
    rw [hregistry]
    exact s'.authenticate_eq_ok.mpr
      ⟨tenantId, config, header, hkept.trans hget, rfl, hheader, hcarries⟩

end Gateway
