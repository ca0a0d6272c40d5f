import Gateway.Lib.CaseFolding
import Gateway.Lib.PythonJson
import Gateway.Model.AdmissionController

/-!
# Tenants and their bearer credentials

`gateway/auth/tenants.py`, and of `gateway/config.py` the check that the mappings of the
settings are one to one. A key and a header are texts.
-/

namespace Gateway

/-! ## Configured tenants -/

/-- Membership of a key among keys is decided by their equality. -/
local instance keysLawful : LawfulBEq Text := inferInstance

/-- `str.isascii`. -/
def isAscii (t : Text) : Bool := t.all fun c => c.toNat < 128

/-- `not text.strip()` -/
def isBlank (s : String) : Bool := (Text.trim Text.isPythonSpace s.toList).isEmpty

/-- A non-empty ASCII text without white space: what `validate_api_key` asks of a key, and
    `_extract_bearer_token` of a token. -/
def isBearerToken (t : Text) : Bool := !t.isEmpty && isAscii t && !t.any Text.isPythonSpace

/-- `TenantConfig.validate_api_key`. -/
def validateApiKey (value : Text) : Except String Text :=
  if isBearerToken value then .ok value
  else .error "tenant API key must be a non-empty ASCII bearer token"

/-- `TenantConfig`, with what the checks of its fields promise. -/
structure TenantConfig where
  apiKey : Text
  maxInflight : Int
  maxQueue : Int
  apiKey_valid : validateApiKey apiKey = .ok apiKey
  maxInflight_pos : 0 < maxInflight
  maxQueue_nonneg : 0 ≤ maxQueue

/-- The tenants of `Settings.validate_mappings`; `seen` are the keys of those before. -/
def validateTenants (seen : List Text) : List (String × TenantConfig) → Except String Unit
  | [] => .ok ()
  | (tenantId, tenant) :: rest =>
    if isBlank tenantId then .error "tenant IDs must not be blank"
    else if tenant.apiKey ∈ seen then .error "tenant API keys must be unique"
    else validateTenants (tenant.apiKey :: seen) rest

/-- `Settings.validate_mappings`, of the IDs of the backends and of the tenants. -/
def validateMappings (backendIds : List String) (tenants : Dict String TenantConfig) :
    Except String Unit :=
  if backendIds.isEmpty then .error "at least one backend must be configured"
  else if backendIds.any isBlank then .error "backend IDs must not be blank"
  else validateTenants [] tenants.entries

/-- The mappings of validated `Settings`. -/
structure Settings where
  backendIds : List String
  tenants : Dict String TenantConfig
  mappings_valid : validateMappings backendIds tenants = .ok ()

/-! ## The registry -/

/-- `TenantContext.__post_init__`, which lets a context through or raises `ValueError`. -/
def TenantContext.make (tenantId : String) (maxInflight maxQueue : Int) :
    Except String TenantContext :=
  if isBlank tenantId then .error "tenant ID must not be blank"
  else if h : 0 < maxInflight ∧ 0 ≤ maxQueue then
    .ok ⟨tenantId, maxInflight, maxQueue, h.1, h.2⟩
  else .error "tenant admission limits are invalid"

/-- `TenantRegistry`. -/
structure TenantRegistry where
  entries : List (Text × TenantContext)

/-- What authentication raises. -/
inductive AuthenticationError
  /-- `UnauthorizedError` -/
  | unauthorized
  /-- `TypeError` from `compare_digest` -/
  | typeError
deriving DecidableEq, Repr

/-- `secrets.compare_digest` of two strings. -/
def compareDigest (a b : Text) : Except AuthenticationError Bool :=
  if isAscii a && isAscii b then .ok (a = b) else .error .typeError

namespace TenantRegistry

/-- `TenantRegistry.__init__`. -/
def make (tenants : Dict String TenantConfig) : Except String TenantRegistry := do
  let entries ← tenants.entries.mapM fun p => do
    let context ← TenantContext.make p.1 p.2.maxInflight p.2.maxQueue
    return (p.2.apiKey, context)
  return ⟨entries⟩

/-- `TenantRegistry._extract_bearer_token`. -/
def extractBearerToken (authorization : Option Text) : Except AuthenticationError Text :=
  match authorization with
  | none => .error .unauthorized
  | some header =>
    match header.splitOn ' ' with
    | [scheme, token] =>
      if Text.casefold scheme ≠ "bearer".toList || !isBearerToken token then .error .unauthorized
      else .ok token
    | _ => .error .unauthorized

/-- The loop of `authenticate`: every entry is compared, and the last match stays. -/
def matchEntries (token : Text) (matched : Option TenantContext) :
    List (Text × TenantContext) → Except AuthenticationError (Option TenantContext)
  | [] => .ok matched
  | (configuredKey, tenant) :: rest => do
    let same ← compareDigest token configuredKey
    matchEntries token (if same then some tenant else matched) rest

/-- `TenantRegistry.authenticate`. -/
def authenticate (registry : TenantRegistry) (authorization : Option Text) :
    Except AuthenticationError TenantContext := do
  let token ← extractBearerToken authorization
  match ← matchEntries token none registry.entries with
  | none => .error .unauthorized
  | some tenant => .ok tenant

end TenantRegistry

end Gateway
